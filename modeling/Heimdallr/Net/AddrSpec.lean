import Heimdallr.Net.Addr

/-!
# What the texts of addresses look like

An address begins with a hexadecimal digit or a colon (`parseIpAddr_eq_none`), which is how a line
of a hosts list is told from a name. An IPv4 address has fifteen bytes at most, so
`Ipv4Addr::from_str`, which looks at the length first, reads the texts that `IpAddr::from_str` reads
as an IPv4 address (`parseIpv4_eq_some`).

The readers are taken one after the other, from a digit to an address: what each leaves of the
input, and how long the text is that it has read.
-/

namespace Heimdallr.Net

/-! ## The first character -/

/-- What is no digit is none in a smaller radix. -/
theorem toDigit_eq_none {c : Char} {radix : Nat} (h : toDigit 16 c = none) (hradix : radix ≤ 16) :
    toDigit radix c = none := by
  unfold toDigit at h ⊢
  rw [Option.filter_eq_none_iff] at h ⊢
  intro d hd hlt
  simp only [decide_eq_true_eq] at h hlt
  exact h d hd (by omega)

namespace Reader

theorem number_eq_none {c : Char} {radix : Nat} (h : toDigit radix c = none) (rest : Text)
    (maxDigits : Option Nat) (allowZeroPrefix : Bool) (limit : Nat) :
    number radix maxDigits allowZeroPrefix limit (c :: rest) = none := by
  simp [number, h]

theorem ipv4_eq_none {c : Char} (h : toDigit 16 c = none) (rest : Text) :
    ipv4 (c :: rest) = none := by
  have hoctet : octet (c :: rest) = none := number_eq_none (toDigit_eq_none h (by omega)) ..
  simp [ipv4, separated, hoctet]

theorem ipv6_eq_none {c : Char} (h : toDigit 16 c = none) (hc : c ≠ ':') (rest : Text) :
    ipv6 (c :: rest) = none := by
  have hgroups : groups 0 8 (c :: rest) = ([], false, c :: rest) := by
    simp [groups, separated, ipv4_eq_none h, number_eq_none h]
  simp [ipv6, hgroups, givenChar, hc]

end Reader

/-- An address begins with a digit or a colon. -/
theorem parseIpAddr_eq_none {c : Char} (h : toDigit 16 c = none) (hc : c ≠ ':') (rest : Text) :
    parseIpAddr (c :: rest) = none := by
  simp [parseIpAddr, Reader.parseWith, Reader.ipv4_eq_none h, Reader.ipv6_eq_none h hc]

/-! ## The length -/

namespace Reader

/-- A digit is one byte long. -/
theorem utf8Size_of_digit {c : Char} {radix : Nat} (h : (toDigit radix c).isSome = true) :
    c.utf8Size = 1 := by
  rw [Char.utf8Size_eq_one_iff]
  unfold toDigit at h
  have hle : c ≤ '9' ∨ c ≤ 'f' ∨ c ≤ 'F' := by
    grind
  rcases hle with hle | hle | hle
  · exact UInt32.le_trans hle (by decide)
  · exact UInt32.le_trans hle (by decide)
  · exact UInt32.le_trans hle (by decide)

theorem len_of_digits {radix : Nat} {ds : Text} (h : ∀ c ∈ ds, (toDigit radix c).isSome = true) :
    Text.len ds = ds.length := by
  induction ds with
  | nil => rfl
  | cons c ds ih =>
    have hc := utf8Size_of_digit (h c List.mem_cons_self)
    have hds := ih fun d hd => h d (List.mem_cons_of_mem _ hd)
    unfold Text.len at hds ⊢
    rw [List.map_cons, List.sum_cons, hc, hds, List.length_cons, Nat.add_comm]

theorem len_append (t s : Text) : (t ++ s).len = t.len + s.len := by
  simp [Text.len]

/-- An octet has three digits at most. -/
theorem octet_len {t rest : Text} {n : Nat} (h : octet t = some (n, rest)) :
    t.len ≤ 3 + rest.len := by
  unfold octet number at h
  dsimp only at h
  have hdigits : Text.len (t.takeWhile fun c => (toDigit 10 c).isSome) =
      (t.takeWhile fun c => (toDigit 10 c).isSome).length :=
    len_of_digits fun c hc => List.all_eq_true.mp List.all_takeWhile c hc
  have hcut : t = t.takeWhile (fun c => (toDigit 10 c).isSome) ++
      t.dropWhile (fun c => (toDigit 10 c).isSome) := List.takeWhile_append_dropWhile.symm
  have hlen := congrArg Text.len hcut
  rw [len_append, hdigits] at hlen
  split at h
  · cases h
  · rename_i hmax
    split at h
    · cases h
    · split at h
      · cases h
      · split at h
        · cases h
        · obtain ⟨-, rfl⟩ := Prod.mk.inj (Option.some.inj h)
          simp at hmax
          omega

theorem givenChar_dot_len {t rest : Text} (h : givenChar '.' t = some ((), rest)) :
    t.len = 1 + rest.len := by
  unfold givenChar at h
  split at h
  · rename_i d rest'
    split at h
    · rename_i hd
      obtain ⟨-, rfl⟩ := Prod.mk.inj (Option.some.inj h)
      subst hd
      simp [Text.len]
      rfl
    · cases h
  · cases h

theorem separated_octet_len {index n : Nat} {t rest : Text} (hindex : 0 < index)
    (h : separated '.' index octet t = some (n, rest)) : t.len ≤ 4 + rest.len := by
  unfold separated at h
  rw [if_pos hindex] at h
  obtain ⟨⟨⟨⟩, t₁⟩, hdot, hoctet⟩ := Option.bind_eq_some_iff.mp h
  have h₁ := givenChar_dot_len hdot
  have h₂ := octet_len hoctet
  omega

/-- An IPv4 address has fifteen bytes at most. -/
theorem ipv4_len {t rest : Text} {a : Ipv4Addr} (h : ipv4 t = some (a, rest)) :
    t.len ≤ 15 + rest.len := by
  unfold ipv4 at h
  obtain ⟨⟨a, t₁⟩, ha, h⟩ := Option.bind_eq_some_iff.mp h
  obtain ⟨⟨b, t₂⟩, hb, h⟩ := Option.bind_eq_some_iff.mp h
  obtain ⟨⟨c, t₃⟩, hc, h⟩ := Option.bind_eq_some_iff.mp h
  obtain ⟨⟨d, t₄⟩, hd, h⟩ := Option.bind_eq_some_iff.mp h
  obtain ⟨-, rfl⟩ := Prod.mk.inj (Option.some.inj h)
  have h₁ : t.len ≤ 3 + t₁.len := octet_len ha
  have h₂ := separated_octet_len (by decide) hb
  have h₃ := separated_octet_len (by decide) hc
  have h₄ := separated_octet_len (by decide) hd
  omega

theorem parseWith_eq_some {α : Type} {r : Reader α} {t : Text} {a : α} :
    r.parseWith t = some a ↔ r t = some (a, []) := by
  unfold parseWith
  split
  · rename_i b hb
    simp [hb]
  · rename_i hne
    constructor
    · intro h
      cases h
    · intro h
      exact absurd h (hne a)

end Reader

/-- The limit on the length never stops an IPv4 address. -/
theorem parseIpv4_eq_some {t : Text} {a : Ipv4Addr} :
    parseIpv4 t = some a ↔ parseIpAddr t = some (.V4 a) := by
  unfold parseIpv4 parseIpAddr
  rw [Reader.parseWith_eq_some]
  constructor
  · intro h
    split at h
    · cases h
    · rw [Reader.parseWith_eq_some.mp h]
      rfl
  · intro h
    cases hv4 : Reader.ipv4 t with
    | some r =>
      obtain ⟨b, rest⟩ := r
      rw [hv4] at h
      obtain ⟨hb, rfl⟩ := Prod.mk.inj (Option.some.inj h)
      cases hb
      have hlen := Reader.ipv4_len hv4
      have hshort : ¬ 15 < t.len := by simpa [Text.len] using hlen
      rw [if_neg hshort, Reader.parseWith_eq_some, hv4]
    | none =>
      rw [hv4] at h
      cases hv6 : Reader.ipv6 t with
      | some r =>
        rw [hv6] at h
        cases h
      | none =>
        rw [hv6] at h
        cases h

end Heimdallr.Net
