import Heimdallr.Core.Filter
import Heimdallr.Lib.LeadingBits
import Heimdallr.Net.Stream

/-!
# Masks of subnets (`core/filter/mod.rs`, `core/resolver/forward.rs`)

The per-client rules and the ECS scope each have their own mask: `Ipv4Cidr::contains` compares two
addresses below a mask, `scope_zero_subnet` puts an address under one. Both treat a prefix of zero
and one of the full width apart, since Rust panics at a shift by the full width.

* An address is a word of 32 or 128 bits here (`toBits`), and `ofBits` takes it back to octets, as
  `u32::from` and `u128::from_be_bytes` do.
* `checkedShl` is a shift that would panic: `scopeMask_eq` shows that it never does, for any prefix.
* The meaning is stated with bits counted from the left (`Lib.LeadingBits`), once for both widths.

**`subnet_masks`**: both functions speak of the leading bits, for every address and prefix.
-/

namespace Heimdallr

open Lib Net

/-! ## Addresses as numbers -/

namespace Ipv4Addr

/-- `Ipv4Addr::from(u32)`. -/
def ofBits (b : BitVec 32) : Ipv4Addr :=
  ⟨.ofBitVec (b.extractLsb' 24 8), .ofBitVec (b.extractLsb' 16 8), .ofBitVec (b.extractLsb' 8 8),
    .ofBitVec (b.extractLsb' 0 8)⟩

theorem toBits_ofBits (b : BitVec 32) : (ofBits b).toBits = b := by
  unfold ofBits toBits
  dsimp only
  rw [BitVec.extractLsb'_append_extractLsb'_eq_extractLsb' (show (24 : Nat) = 16 + 8 from rfl),
    BitVec.extractLsb'_append_extractLsb'_eq_extractLsb' (show (16 : Nat) = 8 + 8 from rfl),
    BitVec.extractLsb'_append_extractLsb'_eq_extractLsb' (show (8 : Nat) = 0 + 8 from rfl)]
  exact BitVec.extractLsb'_eq_self

theorem toBits_injective {ip ip' : Ipv4Addr} (h : ip.toBits = ip'.toBits) : ip = ip' := by
  obtain ⟨a, b, c, d⟩ := ip
  obtain ⟨a', b', c', d'⟩ := ip'
  obtain ⟨habc, hd⟩ := append_inj h
  obtain ⟨hab, hc⟩ := append_inj habc
  obtain ⟨ha, hb⟩ := append_inj hab
  rw [Ipv4Addr.mk.injEq]
  exact ⟨UInt8.toBitVec_inj.mp ha, UInt8.toBitVec_inj.mp hb, UInt8.toBitVec_inj.mp hc,
    UInt8.toBitVec_inj.mp hd⟩

end Ipv4Addr

/-- The `k` octets of a number, most significant first. -/
def beBytes : Nat → Nat → Bytes
  | 0, _ => []
  | k + 1, n => beBytes k (n / 256) ++ [UInt8.ofNat n]

@[simp] theorem length_beBytes (k n : Nat) : (beBytes k n).length = k := by
  induction k generalizing n with
  | zero => rfl
  | succ k ih => rw [beBytes, List.length_append, ih, List.length_singleton]

theorem fromBeBytes_beBytes (k n : Nat) : fromBeBytes (beBytes k n) = n % 256 ^ k := by
  induction k generalizing n with
  | zero => simp [beBytes, fromBeBytes, Nat.mod_one]
  | succ k ih =>
    have hhead : fromBeBytes (beBytes k (n / 256)) = n / 256 % 256 ^ k := ih _
    unfold fromBeBytes at hhead ⊢
    rw [beBytes, List.foldl_append, hhead, List.foldl_cons, List.foldl_nil, UInt8.toNat_ofNat',
      Nat.pow_succ' (m := 256), Nat.mod_mul]
    omega

namespace Ipv6Addr

/-- `u128::from`. -/
def toBits (ip : Ipv6Addr) : BitVec 128 := .ofNat 128 (fromBeBytes ip.octets.toList)

/-- `Ipv6Addr::from(u128)`. -/
def ofBits (b : BitVec 128) : Ipv6Addr := ⟨⟨(beBytes 16 b.toNat).toArray, by simp⟩⟩

theorem toBits_ofBits (b : BitVec 128) : (ofBits b).toBits = b := by
  show BitVec.ofNat 128 (fromBeBytes (beBytes 16 b.toNat)) = b
  have hlt : b.toNat < 256 ^ 16 := b.isLt
  rw [fromBeBytes_beBytes, Nat.mod_eq_of_lt hlt, BitVec.ofNat_toNat, BitVec.setWidth_eq]

end Ipv6Addr

/-! ## The ECS scope (`core/resolver/forward.rs`) -/

/-- A left shift. By the width or more it is a panic. -/
def checkedShl {w : Nat} (x : BitVec w) (n : Nat) : Option (BitVec w) :=
  if n < w then some (x <<< n) else none

/-- The mask of `scope_zero_subnet` for addresses of `w` bits. -/
def scopeMask (w : Nat) (sourcePrefix : UInt8) : Option (BitVec w) :=
  if sourcePrefix = 0 then some 0
  else if w ≤ sourcePrefix.toNat then some (.allOnes w)
  else checkedShl (.allOnes w) (w - sourcePrefix.toNat)

/-- `scope_zero_subnet`. -/
def scopeZeroSubnet (addr : IpAddr) (sourcePrefix : UInt8) : Option (IpAddr × UInt8) :=
  match addr with
  | .V4 v4 => do
    let mask ← scopeMask 32 sourcePrefix
    return (.V4 (.ofBits (v4.toBits &&& mask)), sourcePrefix)
  | .V6 v6 => do
    let mask ← scopeMask 128 sourcePrefix
    return (.V6 (.ofBits (v6.toBits &&& mask)), sourcePrefix)

/-- **No shift is too wide**, and the three cases are one mask. -/
theorem scopeMask_eq (w : Nat) (sourcePrefix : UInt8) :
    scopeMask w sourcePrefix = some (prefixMask w sourcePrefix.toNat) := by
  unfold scopeMask
  by_cases hzero : sourcePrefix = 0
  · rw [if_pos hzero, hzero]
    exact congrArg some prefixMask_zero.symm
  · have hpos : 0 < sourcePrefix.toNat := by
      rw [Nat.pos_iff_ne_zero]
      exact fun h => hzero (UInt8.toNat_inj.mp h)
    rw [if_neg hzero]
    by_cases hfull : w ≤ sourcePrefix.toNat
    · rw [if_pos hfull, prefixMask_width hfull]
    · rw [if_neg hfull, checkedShl, if_pos (by omega)]
      rfl

theorem scopeZeroSubnet_v4 (v4 : Ipv4Addr) (sourcePrefix : UInt8) :
    scopeZeroSubnet (.V4 v4) sourcePrefix =
      some (.V4 (.ofBits (v4.toBits &&& prefixMask 32 sourcePrefix.toNat)), sourcePrefix) := by
  unfold scopeZeroSubnet
  dsimp only
  rw [scopeMask_eq]
  rfl

theorem scopeZeroSubnet_v6 (v6 : Ipv6Addr) (sourcePrefix : UInt8) :
    scopeZeroSubnet (.V6 v6) sourcePrefix =
      some (.V6 (.ofBits (v6.toBits &&& prefixMask 128 sourcePrefix.toNat)), sourcePrefix) := by
  unfold scopeZeroSubnet
  dsimp only
  rw [scopeMask_eq]
  rfl

/-! ## Leading bits -/

/-- `contains` compares leading bits. -/
theorem contains_iff (net : Ipv4Cidr) (ip : Ipv4Addr) :
    net.contains ip = true ↔ AgreeOn net.prefixLen net.addr.toBits ip.toBits := by
  unfold Ipv4Cidr.contains
  split
  · rename_i hzero
    rw [hzero]
    exact iff_of_true rfl agreeOn_zero
  · split
    · rename_i hfull
      rw [agreeOn_width hfull, beq_iff_eq]
      exact ⟨congrArg _, Ipv4Addr.toBits_injective⟩
    · dsimp only
      rw [beq_iff_eq]
      exact and_prefixMask_eq_iff

/-- So does the scope. -/
theorem scopeZeroSubnet_eq_iff {a b : Ipv4Addr} {sourcePrefix : UInt8} :
    scopeZeroSubnet (.V4 a) sourcePrefix = scopeZeroSubnet (.V4 b) sourcePrefix ↔
      AgreeOn sourcePrefix.toNat a.toBits b.toBits := by
  rw [scopeZeroSubnet_v4, scopeZeroSubnet_v4, ← and_prefixMask_eq_iff]
  constructor
  · intro h
    obtain ⟨haddr, -⟩ := Prod.mk.inj (Option.some.inj h)
    have hbits := congrArg Ipv4Addr.toBits (IpAddr.V4.inj haddr)
    rwa [Ipv4Addr.toBits_ofBits, Ipv4Addr.toBits_ofBits] at hbits
  · intro h
    rw [h]

/-- Whether an address is of IPv4. -/
def IpAddr.isV4 : IpAddr → Bool
  | .V4 _ => true
  | .V6 _ => false

/-- The bits of an address from the left, `false` behind the last. -/
def IpAddr.bit (ip : IpAddr) (i : Nat) : Bool :=
  match ip with
  | .V4 v4 => v4.toBits.getMsbD i
  | .V6 v6 => v6.toBits.getMsbD i

/-- The address a prefix leaves: the leading bits are kept, the rest are zero, and the same prefix
leaves it as it is. -/
structure Zeroed (addr : IpAddr) (sourcePrefix : UInt8) (zeroed : IpAddr) : Prop where
  family : zeroed.isV4 = addr.isV4
  keeps : ∀ i < sourcePrefix.toNat, zeroed.bit i = addr.bit i
  zeroes : ∀ i, sourcePrefix.toNat ≤ i → zeroed.bit i = false
  idempotent : scopeZeroSubnet zeroed sourcePrefix = some (zeroed, sourcePrefix)

theorem scopeZeroSubnet_zeroed (addr : IpAddr) (sourcePrefix : UInt8) :
    ∃ zeroed, scopeZeroSubnet addr sourcePrefix = some (zeroed, sourcePrefix) ∧
      Zeroed addr sourcePrefix zeroed := by
  cases addr with
  | V4 v4 =>
    refine ⟨_, scopeZeroSubnet_v4 v4 sourcePrefix, ?_, ?_, ?_, ?_⟩
    · simp only [IpAddr.isV4]
    · intro i hi
      simp only [IpAddr.bit, Ipv4Addr.toBits_ofBits, getMsbD_and_prefixMask, hi, decide_true,
        Bool.true_and]
    · intro i hi
      have hnot : decide (i < sourcePrefix.toNat) = false := decide_eq_false (Nat.not_lt.mpr hi)
      simp only [IpAddr.bit, Ipv4Addr.toBits_ofBits, getMsbD_and_prefixMask, hnot,
        Bool.false_and]
    · rw [scopeZeroSubnet_v4, Ipv4Addr.toBits_ofBits, BitVec.and_assoc, BitVec.and_self]
  | V6 v6 =>
    refine ⟨_, scopeZeroSubnet_v6 v6 sourcePrefix, ?_, ?_, ?_, ?_⟩
    · simp only [IpAddr.isV4]
    · intro i hi
      simp only [IpAddr.bit, Ipv6Addr.toBits_ofBits, getMsbD_and_prefixMask, hi, decide_true,
        Bool.true_and]
    · intro i hi
      have hnot : decide (i < sourcePrefix.toNat) = false := decide_eq_false (Nat.not_lt.mpr hi)
      simp only [IpAddr.bit, Ipv6Addr.toBits_ofBits, getMsbD_and_prefixMask, hnot,
        Bool.false_and]
    · rw [scopeZeroSubnet_v6, Ipv6Addr.toBits_ofBits, BitVec.and_assoc, BitVec.and_self]

/-- **Masks mean leading bits.** A subnet contains an address when the two agree on as many leading
bits as the prefix says, so when they are the same divided by the size of the subnet, and so when the
scope makes them one; and the scope of an address, of either family and for any prefix, is the
address with its leading bits kept. -/
theorem subnet_masks (a b : Ipv4Addr) (p : UInt8) (hp : p.toNat ≤ 32) :
    ((Ipv4Cidr.mk a p.toNat).contains b = true ↔ AgreeOn p.toNat a.toBits b.toBits) ∧
      (AgreeOn p.toNat a.toBits b.toBits ↔
        a.toBits.toNat / 2 ^ (32 - p.toNat) = b.toBits.toNat / 2 ^ (32 - p.toNat)) ∧
      (AgreeOn p.toNat a.toBits b.toBits ↔ scopeZeroSubnet (.V4 a) p = scopeZeroSubnet (.V4 b) p) ∧
      ∀ (addr : IpAddr) (q : UInt8), ∃ zeroed, scopeZeroSubnet addr q = some (zeroed, q) ∧
        Zeroed addr q zeroed :=
  ⟨contains_iff _ b, agreeOn_iff_div hp, scopeZeroSubnet_eq_iff.symm, scopeZeroSubnet_zeroed⟩

/-- Two hosts of `192.0.2.0/24`. -/
theorem subnet_masks_24 :
    UInt8.toNat 24 ≤ 32 ∧
      scopeZeroSubnet (.V4 ⟨192, 0, 2, 123⟩) 24 = scopeZeroSubnet (.V4 ⟨192, 0, 2, 7⟩) 24 := by
  have hp : UInt8.toNat 24 ≤ 32 := by decide
  obtain ⟨hcontains, -, hscope, -⟩ := subnet_masks ⟨192, 0, 2, 123⟩ ⟨192, 0, 2, 7⟩ 24 hp
  exact ⟨hp, hscope.mp (hcontains.mp (by decide))⟩

end Heimdallr
