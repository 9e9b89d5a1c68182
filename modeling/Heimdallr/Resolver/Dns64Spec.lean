import Heimdallr.Core.PerClient
import Heimdallr.Resolver.Paths

/-!
# What DNS64 answers (`core/resolver/dns64.rs`, the DNS64 stage of `core/resolver/forward.rs`)

**The layout.** With a prefix of 96 bits the four octets of the IPv4 address come last, as RFC 6052
has them. With a shorter prefix the RFC reserves octet 8, so that with 64 bits the address stands in
the octets 9 to 12; `synthesize_one` puts it right after the prefix for either length, and so do its
comment and its test. The two layouts are stated side by side, as octets (`embeddedOctets`,
`rfc6052Octets`) and as readers (`embeddedExtract`, `rfc6052Extract`).

**The answer.** DNS64 is for names without an AAAA record. The resolver reports a reply without a
record of the type that was asked for as the error `NoRecordsFound`, and the miss path returns an
error before it comes to DNS64. What such a reply stands for is the answer without records
(`answeredWith`), and so does the error that is returned (`returnedWith`); the specification `Composed`
is about these records.

Results:
* `embeds`: one address for each IPv4 address, which stands after the prefix and is read there again;
  it is the layout of the RFC with the longer prefix, or for the address `0.0.0.0`.
* `dns64_composed_iff`: an AAAA query gets the composed answer when upstream has an AAAA record or the
  chained lookup no address. A reply without records that is no error would also have to come without
  an alias, or with one whose target has no addresses: after synthesized records the A and the AAAA
  records of that target follow.

Out of scope: prefixes of other lengths, for which nothing is synthesized, and answers with a DNAME.
-/

namespace Heimdallr.Resolver

open Lib CacheForwardAuthority Heimdallr.Net Zone

/-! ## The prefix -/

/-- `Dns64Prefix::parse`. -/
def Dns64Prefix.parse (s : Text) : Option Dns64Prefix := do
  let (addrStr, lenStr) ← splitOnce '/' s
  let addr ← parseIpv6 addrStr
  let len ← parseU8 lenStr
  if 128 < len then none else some ⟨addr, len⟩

/-! ## The layout of RFC 6052 -/

/-- The octets of an IPv4 address. -/
def v4Octets (v4 : Ipv4Addr) : List UInt8 := [v4.a, v4.b, v4.c, v4.d]

/-- The octets of the embedded address, for the two lengths that are supported. -/
def rfc6052Octets (pre : Dns64Prefix) (v4 : Ipv4Addr) : List UInt8 :=
  if pre.len = 64 then pre.addr.octets.toList.take 8 ++ [0] ++ v4Octets v4 ++ [0, 0, 0]
  else pre.addr.octets.toList.take 12 ++ v4Octets v4

/-- The IPv4 address of the first four octets. -/
def leadingV4 : List UInt8 → Option Ipv4Addr
  | a :: b :: c :: d :: _ => some ⟨a, b, c, d⟩
  | _ => none

/-- The IPv4 address in an embedded one: the four octets after the prefix, where octet 8 does not
count unless the prefix is 96 bits long. -/
def rfc6052Extract (len : UInt8) (v6 : Ipv6Addr) : Option Ipv4Addr :=
  let octets := if len = 96 then v6.octets.toList else v6.octets.toList.eraseIdx 8
  leadingV4 (octets.drop (len.toNat / 8))

/-- One address for each IPv4 address, in the same order, laid out as the RFC says, from which the
IPv4 address is extracted again. -/
def FollowsRfc6052 (pre : Dns64Prefix) (aRecords : List Ipv4Addr) (out : List Ipv6Addr) : Prop :=
  List.Forall₂ (fun v4 v6 => v6.octets.toList = rfc6052Octets pre v4 ∧
    rfc6052Extract pre.len v6 = some v4) aRecords out

/-! ## The layout of `synthesize_one` -/

/-- The prefix, the IPv4 address, and zeros. -/
def embeddedOctets (pre : Dns64Prefix) (v4 : Ipv4Addr) : List UInt8 :=
  pre.addr.octets.toList.take (pre.len.toNat / 8) ++ v4Octets v4 ++
    List.replicate (12 - pre.len.toNat / 8) 0

/-- The IPv4 address of the four octets after the prefix. -/
def embeddedExtract (len : UInt8) (v6 : Ipv6Addr) : Option Ipv4Addr :=
  leadingV4 (v6.octets.toList.drop (len.toNat / 8))

/-- One address for each IPv4 address, in the same order, which stands after the prefix and is read
there again. -/
def Embeds (pre : Dns64Prefix) (aRecords : List Ipv4Addr) (out : List Ipv6Addr) : Prop :=
  List.Forall₂ (fun v4 v6 => v6.octets.toList = embeddedOctets pre v4 ∧
    embeddedExtract pre.len v6 = some v4) aRecords out

/-- Sixteen octets, by name. -/
theorem Ipv6Addr.exists_octets (v6 : Ipv6Addr) :
    ∃ a₀ a₁ a₂ a₃ a₄ a₅ a₆ a₇ a₈ a₉ a₁₀ a₁₁ a₁₂ a₁₃ a₁₄ a₁₅,
      v6 = ⟨#v[a₀, a₁, a₂, a₃, a₄, a₅, a₆, a₇, a₈, a₉, a₁₀, a₁₁, a₁₂, a₁₃, a₁₄, a₁₅]⟩ := by
  obtain ⟨⟨⟨l⟩, h⟩⟩ := v6
  match l, h with
  | [a₀, a₁, a₂, a₃, a₄, a₅, a₆, a₇, a₈, a₉, a₁₀, a₁₁, a₁₂, a₁₃, a₁₄, a₁₅], h =>
    exact ⟨a₀, a₁, a₂, a₃, a₄, a₅, a₆, a₇, a₈, a₉, a₁₀, a₁₁, a₁₂, a₁₃, a₁₄, a₁₅, rfl⟩

theorem toList_setOctet (octets : Vector UInt8 16) (i : Nat) (b : UInt8) :
    (octets.set! i b).toList = octets.toList.set i b := Vector.toList_setIfInBounds

/-- With 96 bits the address goes where the RFC puts it. -/
theorem synthesizeOne_96 (addr : Ipv6Addr) (v4 : Ipv4Addr) :
    ∃ v6, synthesizeOne v4 ⟨addr, 96⟩ = some v6 ∧
      v6.octets.toList = rfc6052Octets ⟨addr, 96⟩ v4 ∧ rfc6052Extract 96 v6 = some v4 := by
  obtain ⟨a₀, a₁, a₂, a₃, a₄, a₅, a₆, a₇, a₈, a₉, a₁₀, a₁₁, a₁₂, a₁₃, a₁₄, a₁₅, rfl⟩ :=
    Ipv6Addr.exists_octets addr
  refine ⟨_, rfl, ?_, ?_⟩
  · simp only [toList_setOctet]
    rfl
  · unfold rfc6052Extract
    simp only [toList_setOctet]
    rfl

/-- With 64 bits it goes one octet too far to the front. -/
theorem synthesizeOne_64 (addr : Ipv6Addr) (v4 : Ipv4Addr) :
    ∃ v6, synthesizeOne v4 ⟨addr, 64⟩ = some v6 ∧
      v6.octets.toList = addr.octets.toList.take 8 ++ v4Octets v4 ++ [0, 0, 0, 0] ∧
      rfc6052Extract 64 v6 = some ⟨v4.b, v4.c, v4.d, 0⟩ := by
  obtain ⟨a₀, a₁, a₂, a₃, a₄, a₅, a₆, a₇, a₈, a₉, a₁₀, a₁₁, a₁₂, a₁₃, a₁₄, a₁₅, rfl⟩ :=
    Ipv6Addr.exists_octets addr
  refine ⟨_, rfl, ?_, ?_⟩
  · simp only [toList_setOctet]
    rfl
  · unfold rfc6052Extract
    simp only [toList_setOctet]
    rfl

/-- With either length it goes right after the prefix. -/
theorem synthesizeOne_embeds {pre : Dns64Prefix} (hlen : pre.len = 64 ∨ pre.len = 96)
    {v4 : Ipv4Addr} {v6 : Ipv6Addr} (h : synthesizeOne v4 pre = some v6) :
    v6.octets.toList = embeddedOctets pre v4 ∧ embeddedExtract pre.len v6 = some v4 := by
  obtain ⟨addr, len⟩ := pre
  have hoctets : v6.octets.toList = embeddedOctets ⟨addr, len⟩ v4 := by
    obtain rfl | rfl : len = 64 ∨ len = 96 := hlen
    · obtain ⟨v6', hv6, hoctets, -⟩ := synthesizeOne_64 addr v4
      obtain rfl := Option.some.inj (h.symm.trans hv6)
      unfold embeddedOctets
      rw [hoctets, show (64 : UInt8).toNat / 8 = 8 from rfl]
      rfl
    · obtain ⟨v6', hv6, hoctets, -⟩ := synthesizeOne_96 addr v4
      obtain rfl := Option.some.inj (h.symm.trans hv6)
      unfold embeddedOctets
      rw [hoctets, show (96 : UInt8).toNat / 8 = 12 from rfl]
      exact (List.append_nil _).symm
  refine ⟨hoctets, ?_⟩
  -- the octets before the address are those of the prefix
  have hlength : (addr.octets.toList.take (len.toNat / 8)).length = len.toNat / 8 := by
    rw [List.length_take, Vector.length_toList]
    obtain rfl | rfl : len = 64 ∨ len = 96 := hlen <;> rfl
  unfold embeddedExtract
  rw [hoctets]
  unfold embeddedOctets
  rw [List.append_assoc, List.drop_left' hlength]
  rfl

/-- Both lengths give an address for every IPv4 address. -/
theorem synthesizeOne_isSome {pre : Dns64Prefix} (hlen : pre.len = 64 ∨ pre.len = 96)
    (v4 : Ipv4Addr) : ∃ v6, synthesizeOne v4 pre = some v6 := by
  obtain ⟨addr, len⟩ := pre
  obtain rfl | rfl : len = 64 ∨ len = 96 := hlen
  · exact (synthesizeOne_64 addr v4).imp fun _ h => h.1
  · exact (synthesizeOne_96 addr v4).imp fun _ h => h.1

/-- The layout of one address. -/
theorem laid_out_iff {pre : Dns64Prefix} (hlen : pre.len = 64 ∨ pre.len = 96) {v4 : Ipv4Addr}
    {v6 : Ipv6Addr} (h : synthesizeOne v4 pre = some v6) :
    (v6.octets.toList = rfc6052Octets pre v4 ∧ rfc6052Extract pre.len v6 = some v4) ↔
      pre.len = 96 ∨ v4 = Ipv4Addr.unspecified := by
  obtain ⟨addr, len⟩ := pre
  obtain rfl | rfl : len = 64 ∨ len = 96 := hlen
  · obtain ⟨a, b, c, d⟩ := v4
    obtain ⟨v6', hv6, hoctets, hextract⟩ := synthesizeOne_64 addr ⟨a, b, c, d⟩
    obtain rfl := Option.some.inj (h.symm.trans hv6)
    have hshort : ¬ (64 : UInt8) = 96 := by decide
    rw [or_iff_right hshort]
    dsimp only at hextract ⊢
    rw [hoctets, hextract]
    constructor
    · rintro ⟨-, hsame⟩
      -- each octet of the address is the next one, and the last is zero
      obtain ⟨hba, hcb, hdc, hd⟩ := Ipv4Addr.mk.inj (Option.some.inj hsame)
      subst hba hcb hdc hd
      rfl
    · intro hzero
      obtain ⟨rfl, rfl, rfl, rfl⟩ := Ipv4Addr.mk.inj hzero
      refine ⟨?_, rfl⟩
      unfold rfc6052Octets v4Octets
      rw [if_pos rfl]
      simp
  · obtain ⟨v6', hv6, hoctets, hextract⟩ := synthesizeOne_96 addr v4
    obtain rfl := Option.some.inj (h.symm.trans hv6)
    exact iff_of_true ⟨hoctets, hextract⟩ (Or.inl rfl)

/-- DNS64 follows RFC 6052 exactly with a prefix of 96 bits, or where every address is `0.0.0.0`. -/
theorem follows_rfc6052_iff (pre : Dns64Prefix) (hlen : pre.len = 64 ∨ pre.len = 96)
    (aRecords : List Ipv4Addr) (l : Local) :
    FollowsRfc6052 pre aRecords ((synthesizeAaaa aRecords pre).eval netAnswer l).1 ↔
      pre.len = 96 ∨ ∀ v4 ∈ aRecords, v4 = Ipv4Addr.unspecified := by
  rw [eval_synthesizeAaaa]
  unfold FollowsRfc6052 synthesized
  induction aRecords with
  | nil => simp
  | cons v4 rest ih =>
    obtain ⟨v6, hv6⟩ := synthesizeOne_isSome hlen v4
    dsimp only at ih ⊢
    rw [List.filterMap_cons, hv6, List.forall₂_cons, ih, laid_out_iff hlen hv6,
      List.forall_mem_cons, or_and_left]

/-- **What DNS64 embeds is found after the prefix**, in the layout of RFC 6052 when that is the one of
the prefix length. This is for all prefixes of the two lengths, whether or not a text denotes them. -/
theorem embeds (pre : Dns64Prefix) (hlen : pre.len = 64 ∨ pre.len = 96) (aRecords : List Ipv4Addr)
    (l : Local) :
    let out := ((synthesizeAaaa aRecords pre).eval netAnswer l).1
    Embeds pre aRecords out ∧
      (FollowsRfc6052 pre aRecords out ↔
        pre.len = 96 ∨ ∀ v4 ∈ aRecords, v4 = Ipv4Addr.unspecified) := by
  refine ⟨?_, follows_rfc6052_iff pre hlen aRecords l⟩
  rw [eval_synthesizeAaaa]
  unfold Embeds synthesized
  induction aRecords with
  | nil => exact List.Forall₂.nil
  | cons v4 rest ih =>
    obtain ⟨v6, hv6⟩ := synthesizeOne_isSome hlen v4
    dsimp only at ih ⊢
    rw [List.filterMap_cons, hv6]
    exact .cons (synthesizeOne_embeds hlen hv6) ih

/-- An upstream that has an IPv4 address for `www.example.com`, and no other address. -/
def ipv4Only (n : Name) (rtype : RecordType) : Reply :=
  if n.labels = wwwExample.name.labels then
    if rtype = .A then .ok [wwwRecord] else .error (.NoRecordsFound .NoError)
  else .error (.NoRecordsFound .NXDomain)

/-- The well-known prefix: the address comes last. -/
theorem embeds_well_known :
    Dns64Prefix.parse "64:ff9b::/96".toList = some wellKnownPrefix ∧
      let out := ((synthesizeAaaa [⟨192, 0, 2, 1⟩] wellKnownPrefix).eval netAnswer
        ⟨.query wwwExample .AAAA, fixed ipv4Only, 0⟩).1
      Embeds wellKnownPrefix [⟨192, 0, 2, 1⟩] out ∧
        (FollowsRfc6052 wellKnownPrefix [⟨192, 0, 2, 1⟩] out ↔
          wellKnownPrefix.len = 96 ∨ ∀ v4 ∈ [⟨192, 0, 2, 1⟩], v4 = Ipv4Addr.unspecified) :=
  ⟨by decide, embeds wellKnownPrefix (Or.inr rfl) [⟨192, 0, 2, 1⟩] _⟩

/-- The same prefix cut to 64 bits. -/
def shortPrefix : Dns64Prefix := ⟨wellKnownPrefix.addr, 64⟩

/-- `64:ff9b::/64` and `192.0.2.1` give `64:ff9b::c000:201:0:0`, in which the RFC reads the address
`0.2.1.0`. -/
theorem short_prefix_misplaces :
    Dns64Prefix.parse "64:ff9b::/64".toList = some shortPrefix ∧
      ∃ v6, synthesizeOne ⟨192, 0, 2, 1⟩ shortPrefix = some v6 ∧
        rfc6052Extract 64 v6 = some ⟨0, 2, 1, 0⟩ ∧
        ¬ FollowsRfc6052 shortPrefix [⟨192, 0, 2, 1⟩]
          ((synthesizeAaaa [⟨192, 0, 2, 1⟩] shortPrefix).eval netAnswer
            ⟨.query wwwExample .AAAA, fixed ipv4Only, 0⟩).1 := by
  obtain ⟨v6, hv6, -, hextract⟩ := synthesizeOne_64 wellKnownPrefix.addr ⟨192, 0, 2, 1⟩
  have hsynth : synthesizeOne ⟨192, 0, 2, 1⟩ shortPrefix = some v6 := hv6
  refine ⟨by decide, v6, hv6, hextract, ?_⟩
  rw [eval_synthesizeAaaa]
  unfold FollowsRfc6052 synthesized
  dsimp only
  rw [List.filterMap_cons, hsynth, List.forall₂_cons, not_and_or]
  refine Or.inl fun h => ?_
  rw [show shortPrefix.len = 64 from rfl, hextract] at h
  exact absurd h.2 (by decide)

/-! ## The answer to an AAAA query -/

/-- The least TTL among the A records. -/
def IsLeastTtl (records : List Record) (ttl : UInt32) : Prop :=
  (∃ r ∈ records, r.recordType = .A ∧ r.ttl = ttl) ∧
    ∀ r ∈ records, r.recordType = .A → ttl ≤ r.ttl

/-- The answer DNS64 is there for: the upstream answer when it has an address, and otherwise the
upstream answer and one AAAA record for each A record of the chained lookup, in their order. -/
def Composed (fwd : Name) (pre : Dns64Prefix) (lookup chained answer : List Record) : Prop :=
  if lookup.any fun r => r.recordType == .AAAA then answer = lookup
  else ∃ synth, answer = lookup ++ synth ∧
    List.Forall₂ (fun v4 r => r.name = fwd ∧ IsLeastTtl chained r.ttl ∧
      ∃ v6, synthesizeOne v4 pre = some v6 ∧ r.data = .AAAA v6) (aAddresses chained) synth

/-- The records a reply to a question stands for. A `NoError` reply without a record of the type that
was asked for is reported as an error. -/
def answeredWith : Reply → Option (List Record)
  | .ok records => some records
  | .error (.NoRecordsFound .NoError) => some []
  | .error _ => none

/-- The same of what a lookup returns. -/
def returnedWith : Answer → Option (List Record)
  | .ok records => some records
  | .error (.Net (.NoRecordsFound .NoError)) => some []
  | .error _ => none

/-- The errors among them. -/
theorem answeredWith_error {e : NetError} {records : List Record}
    (h : answeredWith (.error e) = some records) :
    e = .NoRecordsFound .NoError ∧ records = [] := by
  unfold answeredWith at h
  split at h
  · rename_i heq
    cases heq
  · rename_i heq
    cases heq
    exact ⟨rfl, (Option.some.inj h).symm⟩
  · cases h

/-- Upstream has no address for the target of the first CNAME: the next two questions, for its A
and its AAAA records, get none. -/
def TargetHasNone (hk : Hickory) (records : List Record) (l : Local) : Prop :=
  ∀ target, syntheticTarget records = some target →
    let targetName := (hk.fromAscii (hk.toUtf8 target)).getD Name.root
    okRecords (l.upstream l.asked targetName .A) = [] ∧
      okRecords (l.upstream (l.asked + 1) targetName .AAAA) = []

theorem targetRecords_eq_nil_iff (hk : Hickory) (records : List Record) (l : Local) :
    targetRecords hk records l = [] ↔ TargetHasNone hk records l := by
  unfold targetRecords TargetHasNone
  cases syntheticTarget records with
  | none => simp
  | some target => simp

/-- The TTL of the synthesized records, when there is an A record. -/
theorem isLeastTtl_min {records : List Record} {r : Record} (hr : r ∈ records)
    (ha : r.recordType = .A) :
    IsLeastTtl records ((records.filterMap fun r =>
      if r.recordType = .A then some r.ttl else none).min?.getD 300) := by
  cases hmin : (records.filterMap fun r =>
      if r.recordType = .A then some r.ttl else none).min? with
  | none =>
    rw [List.min?_eq_none_iff, List.filterMap_eq_nil_iff] at hmin
    have hnone := hmin r hr
    rw [if_pos ha] at hnone
    cases hnone
  | some ttl =>
    rw [Option.getD_some]
    obtain ⟨hmem, hleast⟩ := List.min?_eq_some_iff.mp hmin
    constructor
    · obtain ⟨r', hr', hsome⟩ := List.mem_filterMap.mp hmem
      split at hsome
      · rename_i ha'
        exact ⟨r', hr', ha', Option.some.inj hsome⟩
      · cases hsome
    · intro r' hr' ha'
      exact hleast r'.ttl (List.mem_filterMap.mpr ⟨r', hr', if_pos ha'⟩)

theorem recordType_of_mem_aAddresses {records : List Record} {v4 : Ipv4Addr}
    (h : v4 ∈ aAddresses records) : ∃ r ∈ records, r.recordType = .A := by
  obtain ⟨r, hr, hdata⟩ := List.mem_filterMap.mp h
  refine ⟨r, hr, ?_⟩
  split at hdata
  · rename_i addr hd
    unfold Record.recordType
    rw [hd]
  · cases hdata

/-- The synthesized records, one for each address. -/
theorem forall₂_dns64Records {pre : Dns64Prefix} (hlen : pre.len = 64 ∨ pre.len = 96) (fwd : Name)
    (chained : List Record) :
    List.Forall₂ (fun v4 r => r.name = fwd ∧ IsLeastTtl chained r.ttl ∧
        ∃ v6, synthesizeOne v4 pre = some v6 ∧ r.data = .AAAA v6)
      (aAddresses chained) (dns64Records fwd chained (synthesized (aAddresses chained) pre)) := by
  have hleast : ∀ v4 ∈ aAddresses chained, IsLeastTtl chained
      ((chained.filterMap fun r => if r.recordType = .A then some r.ttl else none).min?.getD
        300) := by
    intro v4 hv4
    obtain ⟨r, hr, ha⟩ := recordType_of_mem_aAddresses hv4
    exact isLeastTtl_min hr ha
  unfold dns64Records synthesized
  dsimp only
  generalize (chained.filterMap fun r =>
    if r.recordType = .A then some r.ttl else none).min?.getD 300 = ttl at hleast ⊢
  generalize aAddresses chained = addresses at hleast ⊢
  induction addresses with
  | nil => exact List.Forall₂.nil
  | cons v4 rest ih =>
    obtain ⟨v6, hv6⟩ := synthesizeOne_isSome hlen v4
    rw [List.filterMap_cons, hv6, List.map_cons]
    exact .cons ⟨rfl, hleast v4 List.mem_cons_self, v6, hv6, rfl⟩
      (ih fun a ha => hleast a (List.mem_cons_of_mem v4 ha))

/-- Synthesized records are no aliases. -/
theorem syntheticTarget_append_dns64Records (records : List Record) (fwd : Name)
    (aLookup : List Record) (aaaaList : List Ipv6Addr) :
    syntheticTarget (records ++ dns64Records fwd aLookup aaaaList) = syntheticTarget records := by
  have hnone : syntheticTarget (dns64Records fwd aLookup aaaaList) = none := by
    unfold syntheticTarget dns64Records
    rw [List.findSome?_eq_none_iff]
    intro r hr
    obtain ⟨v6, -, rfl⟩ := List.mem_map.mp hr
    rfl
  unfold syntheticTarget at hnone ⊢
  rw [List.findSome?_append, hnone, Option.or_none]

/-- What the flattening puts after a composed answer has to be nothing. -/
theorem composed_append_iff {fwd : Name} {pre : Dns64Prefix} {lookup chained d extra : List Record}
    (hnone : ¬ (lookup.any fun r => r.recordType == .AAAA) = true)
    (hd : Composed fwd pre lookup chained (lookup ++ d)) :
    Composed fwd pre lookup chained (lookup ++ d ++ extra) ↔ extra = [] := by
  unfold Composed at hd ⊢
  rw [if_neg hnone] at hd ⊢
  obtain ⟨synth, hsynth, hall⟩ := hd
  obtain rfl := List.append_cancel_left hsynth
  constructor
  · rintro ⟨synth', heq, hall'⟩
    rw [List.append_assoc] at heq
    obtain rfl := List.append_cancel_left heq
    have hlength := hall'.length_eq.symm.trans hall.length_eq
    rw [List.length_append] at hlength
    exact List.eq_nil_of_length_eq_zero (by omega)
  · rintro rfl
    exact ⟨d, by rw [List.append_nil], hall⟩

/-- What the miss path gathers for an answer without a DNAME, with the cloaking check off. -/
theorem assembled_plain {self : CacheForwardAuthority} (hcloak : self.filter.cnameCloaking = false)
    {fwd : Name} {rtype : RecordType} {l : Local} {lookup : List Record}
    (hres : self.resolved l.upstream fwd rtype l.asked = .ok lookup)
    (hdname : ∀ r ∈ lookup, r.recordType ≠ .ANAME) :
    self.assembled fwd rtype l =
      let d := self.dns64Of fwd rtype lookup (self.chainedA fwd rtype l)
      .ok ⟨lookup, d, lookup ++ d⟩ := by
  have hnil : synthesizeDnameCnames lookup fwd = [] := by
    unfold synthesizeDnameCnames
    rw [List.filterMap_eq_nil_iff]
    intro r hr
    split
    · rename_i dname hd
      exact absurd (by unfold Record.recordType; rw [hd]) (hdname r hr)
    · rfl
  dsimp only
  rw [self.assembled_ok_iff]
  refine ⟨hres, rfl, ?_, ?_⟩
  · rw [rewritten_dns64Of, hnil, List.append_nil]
  · unfold Filter.chainTooLong
    rw [hcloak, Bool.false_and]

/-- DNS64 for an AAAA query: nothing when upstream had an AAAA record, else what the chained answer
gives. -/
theorem dns64Of_aaaa {self : CacheForwardAuthority} {pre : Dns64Prefix}
    (hpre : self.dns64Prefix = some pre) (halways : self.dns64AlwaysSynthesize = false) (fwd : Name)
    (lookup : List Record) (reply : Reply) :
    self.dns64Of fwd .AAAA lookup reply =
      if lookup.any fun r => r.recordType == .AAAA then []
      else dns64Records fwd (okRecords reply) (synthesized (aAddresses (okRecords reply)) pre) := by
  unfold dns64Of dns64Wanted
  by_cases haaaa : (lookup.any fun r => r.recordType == .AAAA) = true
  · simp only [if_true, haaaa, halways, Bool.not_true, Bool.or_self, Bool.false_eq_true, if_false]
  · simp only [if_true, haaaa, halways, Bool.not_false, Bool.or_false, hpre]
    rfl

/-- What a miss returns, for an upstream answer without a DNAME. -/
theorem lookup_plain_answer {self : CacheForwardAuthority} {hk : Hickory}
    (hcloak : self.filter.cnameCloaking = false) {name : LowerName} {info : Option RequestInfo}
    {l : Local} {s : Shared}
    (hmiss : ((s.cache.entryAt (self.cacheKey hk name .AAAA info)).bind fun e =>
      hk.fromVec e.responseBytes) = none)
    {lookup : List Record}
    (hres : self.resolved l.upstream (fwdName name) .AAAA l.asked = .ok lookup)
    (hdname : ∀ r ∈ lookup, r.recordType ≠ .ANAME) :
    ((self.lookup hk name .AAAA info).run handle l s).1 = .ok (answerOf hk
      ⟨lookup, self.dns64Of (fwdName name) .AAAA lookup (self.chainedA (fwdName name) .AAAA l),
        lookup ++ self.dns64Of (fwdName name) .AAAA lookup
          (self.chainedA (fwdName name) .AAAA l)⟩
      (l.after (self.assemble (fwdName name) .AAAA))) := by
  rw [self.run_lookup hk name (by decide)]
  dsimp only
  rw [hmiss]
  dsimp only
  rw [run_missPath_fst, assembled_plain hcloak hres hdname]
  rfl

/-- A miss returns the error of the forwarding stage. -/
theorem lookup_error {self : CacheForwardAuthority} {hk : Hickory} {name : LowerName}
    {info : Option RequestInfo} {l : Local} {s : Shared}
    (hmiss : ((s.cache.entryAt (self.cacheKey hk name .AAAA info)).bind fun e =>
      hk.fromVec e.responseBytes) = none)
    {e : NetError} (hres : self.resolved l.upstream (fwdName name) .AAAA l.asked = .error e) :
    ((self.lookup hk name .AAAA info).run handle l s).1 = .error (.Net e) := by
  rw [self.run_lookup hk name (by decide)]
  dsimp only
  rw [hmiss]
  dsimp only
  rw [run_missPath_fst]
  unfold assembled assembledOf
  rw [hres]
  rfl

/-- For an answer of the forwarding stage that is no error. -/
theorem composed_answerOf_iff {self : CacheForwardAuthority} {hk : Hickory} {pre : Dns64Prefix}
    (hpre : self.dns64Prefix = some pre) (hlen : pre.len = 64 ∨ pre.len = 96)
    (halways : self.dns64AlwaysSynthesize = false) (fwd : Name) (lookup : List Record)
    (reply : Reply) (l : Local) :
    Composed fwd pre lookup (okRecords reply) (answerOf hk
        ⟨lookup, self.dns64Of fwd .AAAA lookup reply,
          lookup ++ self.dns64Of fwd .AAAA lookup reply⟩ l) ↔
      (lookup.any fun r => r.recordType == .AAAA) ∨ aAddresses (okRecords reply) = [] ∨
        TargetHasNone hk lookup l := by
  unfold answerOf
  dsimp only
  rw [dns64Of_aaaa hpre halways]
  by_cases haaaa : (lookup.any fun r => r.recordType == .AAAA) = true
  · -- nothing is synthesized, and the upstream answer is returned
    rw [if_pos haaaa]
    refine iff_of_true ?_ (Or.inl haaaa)
    unfold Composed
    rw [if_pos haaaa]
    rfl
  · rw [if_neg haaaa]
    have hall := forall₂_dns64Records hlen fwd (okRecords reply)
    have hd : Composed fwd pre lookup (okRecords reply) (lookup ++
        dns64Records fwd (okRecords reply) (synthesized (aAddresses (okRecords reply)) pre)) := by
      unfold Composed
      rw [if_neg haaaa]
      exact ⟨_, rfl, hall⟩
    rw [or_iff_right haaaa]
    cases has : aAddresses (okRecords reply) with
    | nil =>
      rw [has] at hd
      have hnil : dns64Records fwd (okRecords reply) (synthesized [] pre) = [] := rfl
      rw [hnil, List.append_nil] at hd
      rw [hnil]
      exact iff_of_true hd (Or.inl rfl)
    | cons v4 rest =>
      have hne : (dns64Records fwd (okRecords reply)
          (synthesized (aAddresses (okRecords reply)) pre)).isEmpty = false := by
        rw [List.isEmpty_eq_false_iff]
        intro hnil
        rw [hnil, has] at hall
        cases hall
      rw [← has, hne, Bool.not_false, if_pos rfl, composed_append_iff haaaa hd,
        targetRecords_eq_nil_iff, or_iff_right (by rw [has]; simp)]
      unfold TargetHasNone
      rw [syntheticTarget_append_dns64Records]

/-- **DNS64 on the miss path**, for an upstream answer without a DNAME. An AAAA query gets the composed
answer exactly when upstream had an AAAA record, or the chained lookup no address, or an answer
without records of the type came through the resolver as one, and upstream has no address for the
target of its first CNAME. -/
theorem dns64_composed_iff (self : CacheForwardAuthority) (hk : Hickory) (pre : Dns64Prefix)
    (hpre : self.dns64Prefix = some pre) (hlen : pre.len = 64 ∨ pre.len = 96)
    (halways : self.dns64AlwaysSynthesize = false) (hcloak : self.filter.cnameCloaking = false)
    (name : LowerName) (info : Option RequestInfo) (l : Local) (s : Shared)
    (hmiss : ((s.cache.entryAt (self.cacheKey hk name .AAAA info)).bind fun e =>
      hk.fromVec e.responseBytes) = none)
    (lookup : List Record)
    (hres : answeredWith (self.resolved l.upstream (fwdName name) .AAAA l.asked) = some lookup)
    (hdname : ∀ r ∈ lookup, r.recordType ≠ .ANAME) :
    let chained := okRecords (self.chainedA (fwdName name) .AAAA l)
    ∃ answer, returnedWith ((self.lookup hk name .AAAA info).run handle l s).1 = some answer ∧
      (Composed (fwdName name) pre lookup chained answer ↔
        (lookup.any fun r => r.recordType == .AAAA) ∨ aAddresses chained = [] ∨
          self.resolved l.upstream (fwdName name) .AAAA l.asked = .ok lookup ∧
            TargetHasNone hk lookup (l.after (self.assemble (fwdName name) .AAAA))) := by
  intro chained
  cases hreply : self.resolved l.upstream (fwdName name) .AAAA l.asked with
  | ok records =>
    rw [hreply] at hres
    obtain rfl : records = lookup := Option.some.inj hres
    rw [lookup_plain_answer hcloak hmiss hreply hdname]
    refine ⟨_, rfl, ?_⟩
    rw [composed_answerOf_iff hpre hlen halways, eq_self_iff_true, true_and]
  | error e =>
    -- the error is returned, and the chained question is never asked
    rw [hreply] at hres
    obtain ⟨rfl, rfl⟩ := answeredWith_error hres
    rw [lookup_error hmiss hreply]
    refine ⟨[], rfl, ?_⟩
    have hnone : Composed (fwdName name) pre [] chained [] ↔ aAddresses chained = [] := by
      unfold Composed
      rw [if_neg (by simp)]
      constructor
      · rintro ⟨synth, hsynth, hall⟩
        obtain rfl : [] = synth := hsynth
        exact List.forall₂_nil_right_iff.mp hall
      · intro haddresses
        rw [haddresses]
        exact ⟨[], rfl, List.Forall₂.nil⟩
    rw [hnone]
    simp

/-- The forwarder with DNS64 and without the cloaking check. -/
def openDns64Forwarder : CacheForwardAuthority :=
  { CacheForwardAuthority.default with
    filter := { Filter.default with cnameCloaking := false }
    dns64Prefix := some wellKnownPrefix }

/-- The alias with its IPv6 address, as upstream answers. -/
theorem dns64_composed_alias :
    let l : Local := ⟨.query wwwExample .AAAA, fixed aliasOfBoth, 0⟩
    ∃ answer, returnedWith ((openDns64Forwarder.lookup aliasCodec wwwExample .AAAA none).run handle l
        (Shared.initial CacheConfig.default (by decide))).1 = some answer ∧
      Composed (fwdName wwwExample) wellKnownPrefix [aliasRecord, cdnRecord6]
        [aliasRecord, cdnRecord] answer := by
  intro l
  obtain ⟨answer, hrun, hiff⟩ := dns64_composed_iff openDns64Forwarder aliasCodec wellKnownPrefix rfl
    (Or.inr rfl) rfl rfl wwwExample none l (Shared.initial CacheConfig.default (by decide)) rfl
    [aliasRecord, cdnRecord6] rfl (by simp [aliasRecord, cdnRecord6, Record.recordType])
  exact ⟨answer, hrun, hiff.mpr (Or.inl rfl)⟩

/-- For a name with an IPv4 address only nothing is synthesized. -/
theorem ipv4_only_not_synthesized :
    let l : Local := ⟨.query wwwExample .AAAA, fixed ipv4Only, 0⟩
    let returned := ((openDns64Forwarder.lookup aliasCodec wwwExample .AAAA none).run handle l
      (Shared.initial CacheConfig.default (by decide))).1
    returned = .error (.Net (.NoRecordsFound .NoError)) ∧
      answeredWith (openDns64Forwarder.resolved l.upstream (fwdName wwwExample) .AAAA l.asked) =
        some [] ∧
      okRecords (openDns64Forwarder.chainedA (fwdName wwwExample) .AAAA l) = [wwwRecord] ∧
      ¬ ∃ answer, returnedWith returned = some answer ∧
        Composed (fwdName wwwExample) wellKnownPrefix [] [wwwRecord] answer := by
  refine ⟨rfl, rfl, rfl, ?_⟩
  rintro ⟨answer, hanswer, hcomposed⟩
  obtain rfl : [] = answer := Option.some.inj hanswer
  unfold Composed at hcomposed
  rw [if_neg (by decide)] at hcomposed
  obtain ⟨synth, hsynth, hall⟩ := hcomposed
  obtain rfl : [] = synth := hsynth
  -- an address without a record for it
  exact absurd hall.length_eq (by decide)

end Heimdallr.Resolver
