import Heimdallr.Lib.Words
import Heimdallr.Zone.NameText

/-!
# The members of a catalog zone (`core/zone/catalog.rs`)

A catalog zone (RFC 9432) names its member zones in PTR records at `<unique-id>.zones.<origin>`.
`parse_member_zones` goes by the end of the printed owner: what stands before the text
`zones.<origin>`, without its final dots, is taken for the identifier.

* `EndsAlike` is what this test comes to on labels, case and escapes included: the labels at the end
  are printed as those of the origin are, and the one before them ends in `zones`, as a whole label
  or not.
* `IsMember` is the rule of the RFC, on labels, with the comparison of DNS names. It is not in the
  source.
* A name that ends so has as many labels before the last `zones` as it likes, none included.

Results:
* `endsAlike_of_suffix`, `suffix_of_endsAlike`: which names end like a member.
* `agrees_iff`: when the code and the RFC agree on a record.
* **`members_iff`**: when they agree on a list, record by record.
-/

namespace Heimdallr.Zone

open Heimdallr.Lib Heimdallr.Net

/-! ## `CatalogZoneHandler` -/

/-- `suffix`. -/
def zonesSuffix (hk : Hickory) (origin : Name) : Text := "zones.".toList ++ (hk.toUtf8 origin).toList

/-- One round of `parse_member_zones`. -/
def memberZone (hk : Hickory) (origin : Name) (record : Record) : Option (Text × Name) :=
  if record.recordType = .PTR then
    match stripSuffix (zonesSuffix hk origin) (hk.toUtf8 record.name).toList with
    | some front =>
      let uniqueId := front.rdropWhile (· = '.')
      match record.data with
      | .PTR ptr => some (uniqueId, ptr)
      | _ => none
    | none => none
  else none

/-- `parse_member_zones`. -/
def parseMemberZones (hk : Hickory) (origin : Name) (records : List Record) : List (Text × Name) :=
  records.filterMap (memberZone hk origin)

/-! ## Members -/

/-- The label `zones`. -/
def zonesLabel : Label := ascii "zones"

/-- The owner of a member: a label of its own, `zones`, and the origin, case aside. -/
structure IsMember (origin owner : Name) (u : Label) : Prop where
  absolute : owner.isFqdn = true
  below : ∃ z rest, owner.labels = u :: z :: rest ∧ z.map lowerByte = zonesLabel ∧
    lowered rest = lowered origin.labels

/-- The pair a record stands for. -/
def memberPair (lab : Label → Text) (origin : Name) (record : Record) : Option (Text × Name) :=
  match record.name.labels, record.data with
  | u :: z :: rest, .PTR ptr =>
    if record.name.isFqdn = true ∧ z.map lowerByte = zonesLabel ∧
        lowered rest = lowered origin.labels then some (lab u, ptr)
    else none
  | _, _ => none

theorem memberPair_eq_some {lab : Label → Text} {origin ptr : Name} {record : Record}
    (hdata : record.data = .PTR ptr) {pair : Text × Name} :
    memberPair lab origin record = some pair ↔
      ∃ u, IsMember origin record.name u ∧ pair = (lab u, ptr) := by
  unfold memberPair
  rw [hdata]
  constructor
  · intro h
    split at h
    · rename_i u z rest ptr' hlabels hptr
      obtain rfl := RData.PTR.inj hptr
      split at h
      · rename_i hmember
        exact ⟨u, ⟨hmember.1, z, rest, hlabels, hmember.2⟩, (Option.some.inj h).symm⟩
      · cases h
    · cases h
  · rintro ⟨u, ⟨habs, z, rest, hlabels, hz, hrest⟩, rfl⟩
    rw [hlabels]
    exact if_pos ⟨habs, hz, hrest⟩

/-! ## Names that end like a member -/

/-- The owner ends in a label that ends in `zones`, and labels printed as the origin's. -/
structure EndsAlike (lab : Label → Text) (origin owner : Name) (front : List Label) (x : Label)
    (rest : List Label) (q : Text) : Prop where
  absolute : owner.isFqdn = true
  notRoot : origin.labels ≠ []
  labels : owner.labels = front ++ x :: rest
  zones : lab x = q ++ "zones".toList
  base : rest.map lab = origin.labels.map lab

section

variable {hk : Hickory} {lab : Label → Text} (hp : PrintsNames hk lab) {origin owner : Name}
  (hofqdn : origin.isFqdn = true)

include hp hofqdn

/-- A name that ends like a member, cut at its dots. -/
theorem endsAlike_of_suffix (horigin : Proper origin) (howner : Proper owner) {p : Text}
    (h : (hk.toUtf8 owner).toList = p ++ zonesSuffix hk origin) :
    ∃ front x rest q, EndsAlike lab origin owner front x rest q ∧
      p = ['.'].intercalate (front.map lab ++ [q]) := by
  have hne : "zones".toList ≠ [] := List.cons_ne_nil 'z' "ones".toList
  have hplain : ∀ c ∈ "zones".toList, c ≠ '.' ∧ c ≠ '\\' := by simp
  obtain ⟨ps, q, hfront⟩ := splitEsc_append_plain hne hplain false p
  have hp' : p = ['.'].intercalate (ps ++ [q]) := by
    have hjoin := intercalate_splitEsc hfront
    rw [intercalate_concat] at hjoin
    exact (List.append_cancel_right hjoin).symm
  have hcut : cutDots (hk.toUtf8 owner).toList =
      some (ps ++ [q ++ "zones".toList] ++ namePieces lab origin) := by
    have hsuffix : p ++ zonesSuffix hk origin =
        (p ++ "zones".toList) ++ '.' :: (hk.toUtf8 origin).toList := by
      have hzones : "zones.".toList = "zones".toList ++ ['.'] := by simp
      unfold zonesSuffix
      rw [hzones]
      simp only [List.append_assoc, List.singleton_append]
    rw [h, hsuffix]
    exact cutDots_below hp horigin hofqdn hfront
  cases hfqdn : owner.isFqdn with
  | false =>
    -- the text of a relative name has no empty piece, and the origin's has one
    have hnil : [] ∈ namePieces lab origin := by
      unfold namePieces
      split <;> simp
    have hrelative := cutDots_relative hp howner hfqdn
    rw [hcut] at hrelative
    have hpieces := Option.some.inj hrelative
    by_cases hempty : owner.labels = []
    · rw [if_pos hempty] at hpieces
      have hlen := congrArg List.length hpieces
      have hpos := List.length_pos_of_mem hnil
      simp only [List.length_append, List.length_singleton] at hlen
      omega
    · rw [if_neg hempty] at hpieces
      refine absurd ?_ (nil_not_mem_labs hp howner)
      rw [← hpieces]
      exact List.mem_append_right _ hnil
  | true =>
    rw [cutDots_nameText hp howner hfqdn] at hcut
    obtain ⟨labels, rest, hlabels, hmap, hbase, hroot⟩ :=
      labels_of_below hp howner (by simp) (Option.some.inj hcut)
    obtain ⟨front, xs, rfl, hps, hxs⟩ := List.map_eq_append_iff.mp hmap
    obtain ⟨x, rfl, hx⟩ := List.map_eq_singleton_iff.mp hxs
    refine ⟨front, x, rest, q, ⟨hfqdn, hroot, ?_, hx, hbase⟩, ?_⟩
    · rw [hlabels, List.append_assoc, List.singleton_append]
    · rw [hp', hps]

theorem suffix_of_endsAlike {front rest : List Label} {x : Label} {q : Text}
    (h : EndsAlike lab origin owner front x rest q) :
    (hk.toUtf8 owner).toList =
      ['.'].intercalate (front.map lab ++ [q]) ++ zonesSuffix hk origin := by
  have hroot : ¬ owner.isRoot = true := by simp [Name.isRoot, h.labels]
  have horoot : ¬ origin.isRoot = true := by simp [Name.isRoot, h.notRoot]
  unfold zonesSuffix
  rw [hp.prints, hp.prints, printed, printed, if_neg hroot, if_neg horoot, h.absolute, hofqdn,
    if_pos rfl, h.labels, List.map_append, List.map_cons, h.zones, h.base]
  have hsplit : front.map lab ++ (q ++ "zones".toList) :: origin.labels.map lab ++ [[]] =
      (front.map lab ++ [q ++ "zones".toList]) ++ (origin.labels.map lab ++ [[]]) := by simp
  rw [hsplit, intercalate_append (by simp) (by simp), intercalate_concat]
  simp

end

/-! ## Members and names that end like one -/

/-- The member is spelled as in the printed suffix, and its own label does not end in a dot. -/
structure Spelled (lab : Label → Text) (origin owner : Name) (u : Label) : Prop where
  notRoot : origin.labels ≠ []
  noDot : (lab u).getLast? ≠ some '.'
  texts : ∃ z rest, owner.labels = u :: z :: rest ∧ lab z = "zones".toList ∧
    rest.map lab = origin.labels.map lab

/-- The members are spelled as the suffix, and no other name ends like one. -/
structure Unambiguous (lab : Label → Text) (origin owner : Name) : Prop where
  spelled : ∀ u, IsMember origin owner u → Spelled lab origin owner u
  noOther : ∀ front x rest q, EndsAlike lab origin owner front x rest q →
    ∃ u, IsMember origin owner u

/-- A member that ends like one ends as itself. -/
theorem endsAlike_member {lab : Label → Text} {origin owner : Name} {u z x : Label}
    {front rest rest' : List Label} {q : Text} (h : EndsAlike lab origin owner front x rest q)
    (hlabels : owner.labels = u :: z :: rest') (hlen : rest'.length = origin.labels.length) :
    front = [u] ∧ x = z ∧ rest = rest' := by
  have hrest : rest.length = rest'.length := by
    have hbase := congrArg List.length h.base
    rw [List.length_map, List.length_map] at hbase
    rw [hbase, hlen]
  have heq : (front ++ [x]) ++ rest = ([u] ++ [z]) ++ rest' := by
    rw [List.append_assoc, List.singleton_append, ← h.labels, hlabels]
    rfl
  obtain ⟨hfront, rfl⟩ := List.append_inj' heq hrest
  obtain ⟨rfl, hx⟩ := List.append_inj' hfront rfl
  exact ⟨rfl, List.singleton_inj.mp hx, rfl⟩

/-- A label that is `zones`, case aside, is printed as five letters. -/
theorem zones_of_lower {hk : Hickory} {lab : Label → Text} (hp : PrintsNames hk lab) {z : Label}
    (hz : z.map lowerByte = zonesLabel) {q : Text} (hq : lab z = q ++ "zones".toList) : q = [] := by
  have hletter : ∀ n : Fin 256, isLetter (lowerByte (UInt8.ofFin n)) = true →
      isLetter (UInt8.ofFin n) = true := by decide +kernel
  have hzones : ∀ b ∈ zonesLabel, isLetter b = true := by decide +kernel
  have hletters : ∀ b ∈ z, isLetter b = true := by
    intro b hb
    have hlower : lowerByte b ∈ zonesLabel := by
      rw [← hz]
      exact List.mem_map_of_mem hb
    exact hletter b.toFin (hzones _ hlower)
  have hlen : (lab z).length = 5 := by
    have hz5 := congrArg List.length hz
    rw [List.length_map] at hz5
    rw [hp.letters z hletters, List.length_map, hz5]
    rfl
  rw [hq, List.length_append] at hlen
  exact List.length_eq_zero_iff.mp (by simpa using hlen)

/-- The dots at the end of a prefix that is one label and a dot. -/
theorem trimDots_eq_iff {t : Text} :
    (['.'].intercalate [t, []]).rdropWhile (· = '.') = t ↔ t.getLast? ≠ some '.' := by
  have hjoin : ['.'].intercalate [t, []] = t ++ ['.'] := by simp [List.intercalate_cons_cons]
  have htrim : (t ++ ['.']).rdropWhile (· = '.') = t.rdropWhile (· = '.') :=
    List.rdropWhile_concat_pos _ _ _ (by decide)
  rw [hjoin, htrim, rdropWhile_eq_self_iff]

/-! ## Record by record -/

section

variable {hk : Hickory} {lab : Label → Text} {origin ptr : Name} {record : Record}
  (hdata : record.data = .PTR ptr)

include hdata

/-- What a PTR record gives is decided by the end of its owner's text. -/
theorem memberZone_eq_some {pair : Text × Name} :
    memberZone hk origin record = some pair ↔
      ∃ p, (hk.toUtf8 record.name).toList = p ++ zonesSuffix hk origin ∧
        pair = (p.rdropWhile (· = '.'), ptr) := by
  have htype : record.recordType = .PTR := by rw [Record.recordType, hdata]
  unfold memberZone
  rw [if_pos htype, hdata]
  constructor
  · intro h
    split at h
    · rename_i p hp
      exact ⟨p, eq_append_of_stripSuffix hp, (Option.some.inj h).symm⟩
    · cases h
  · rintro ⟨p, hp, rfl⟩
    rw [hp, stripSuffix_append]

variable (hp : PrintsNames hk lab) (hofqdn : origin.isFqdn = true)

include hp hofqdn

/-- A member that is spelled as the suffix is found. -/
theorem memberZone_of_spelled {u : Label} (hm : IsMember origin record.name u)
    (hs : Spelled lab origin record.name u) : memberZone hk origin record = some (lab u, ptr) := by
  obtain ⟨z, rest, hlabels, hz, hbase⟩ := hs.texts
  have hends : EndsAlike lab origin record.name [u] z rest [] :=
    ⟨hm.absolute, hs.notRoot, hlabels, hz, hbase⟩
  refine (memberZone_eq_some hdata).mpr ⟨_, suffix_of_endsAlike hp hofqdn hends, ?_⟩
  exact Prod.ext (trimDots_eq_iff.mpr hs.noDot).symm rfl

variable (horigin : Proper origin) (howner : Proper record.name)

include horigin howner

/-- A member that is found with its own label is spelled as the suffix. -/
theorem spelled_of_memberZone {u : Label} (hm : IsMember origin record.name u)
    (h : memberZone hk origin record = some (lab u, ptr)) : Spelled lab origin record.name u := by
  obtain ⟨p, htext, hpair⟩ := (memberZone_eq_some hdata).mp h
  obtain ⟨front, x, rest, q, hends, rfl⟩ := endsAlike_of_suffix hp hofqdn horigin howner htext
  obtain ⟨z, rest', hlabels, hz, hrest⟩ := hm.below
  have hlen : rest'.length = origin.labels.length := by
    have hlower := congrArg List.length hrest
    unfold lowered at hlower
    rwa [List.length_map, List.length_map] at hlower
  obtain ⟨rfl, rfl, rfl⟩ := endsAlike_member hends hlabels hlen
  obtain rfl := zones_of_lower hp hz hends.zones
  refine ⟨hends.notRoot, ?_, x, rest, hlabels, hends.zones, hends.base⟩
  exact trimDots_eq_iff.mp (congrArg Prod.fst hpair).symm

/-- **When the code and the RFC agree on a record.** -/
theorem agrees_iff :
    memberZone hk origin record = memberPair lab origin record ↔
      Unambiguous lab origin record.name := by
  constructor
  · intro h
    refine ⟨?_, ?_⟩
    · intro u hm
      have hpair := (@memberPair_eq_some lab _ _ _ hdata _).mpr ⟨u, hm, rfl⟩
      exact spelled_of_memberZone hdata hp hofqdn horigin howner hm (h.trans hpair)
    · intro front x rest q hends
      have hfound := (memberZone_eq_some hdata).mpr ⟨_, suffix_of_endsAlike hp hofqdn hends, rfl⟩
      rw [h] at hfound
      obtain ⟨u, hm, -⟩ := (memberPair_eq_some hdata).mp hfound
      exact ⟨u, hm⟩
  · intro hu
    cases hfound : memberZone hk origin record with
    | none =>
      cases hpair : memberPair lab origin record with
      | none => rfl
      | some pair =>
        obtain ⟨u, hm, rfl⟩ := (memberPair_eq_some hdata).mp hpair
        rw [memberZone_of_spelled hdata hp hofqdn hm (hu.spelled u hm)] at hfound
        cases hfound
    | some pair =>
      obtain ⟨p, htext, -⟩ := (memberZone_eq_some hdata).mp hfound
      obtain ⟨front, x, rest, q, hends, -⟩ :=
        endsAlike_of_suffix hp hofqdn horigin howner htext
      obtain ⟨u, hm⟩ := hu.noOther front x rest q hends
      rw [memberZone_of_spelled hdata hp hofqdn hm (hu.spelled u hm)] at hfound
      rw [← hfound]
      exact ((memberPair_eq_some hdata).mpr ⟨u, hm, rfl⟩).symm

end

/-! ## Lists -/

/-- The pairs are those of the records, in their order: also of every part of the list that has
been read. -/
def ListsMembers (hk : Hickory) (lab : Label → Text) (origin : Name) (records : List Record) : Prop :=
  ∀ n, parseMemberZones hk origin (records.take n) =
    (records.take n).filterMap (memberPair lab origin)

/-- Two readings agree on every part of a list when they agree on its elements. -/
theorem filterMap_take_eq_iff {α β : Type} {f g : α → Option β} {xs : List α} :
    (∀ n, (xs.take n).filterMap f = (xs.take n).filterMap g) ↔ ∀ x ∈ xs, f x = g x := by
  constructor
  · intro h x hx
    obtain ⟨before, after, rfl⟩ := List.append_of_mem hx
    have hbefore := h before.length
    have hwith := h (before.length + 1)
    rw [List.take_left] at hbefore
    rw [List.take_length_add_append, List.take_succ_cons, List.take_zero, List.filterMap_append,
      List.filterMap_append, hbefore] at hwith
    have hone := List.append_cancel_left hwith
    cases hf : f x <;> cases hg : g x <;> simp_all
  · intro h n
    exact List.filterMap_congr fun x hx => h x (List.mem_of_mem_take hx)

theorem memberZone_not_ptr {hk : Hickory} {origin : Name} {record : Record}
    (h : ∀ ptr, record.data ≠ .PTR ptr) : memberZone hk origin record = none := by
  unfold memberZone
  split
  · split
    · dsimp only
      split
      · rename_i ptr hdata
        exact absurd hdata (h ptr)
      · rfl
    · rfl
  · rfl

/-- Other records are no members to either. -/
theorem agrees_other {hk : Hickory} {lab : Label → Text} {origin : Name} {record : Record}
    (h : ∀ ptr, record.data ≠ .PTR ptr) :
    memberZone hk origin record = memberPair lab origin record := by
  have hpair : memberPair lab origin record = none := by
    unfold memberPair
    split
    · rename_i ptr _ hdata
      exact absurd hdata (h ptr)
    · rfl
  rw [memberZone_not_ptr h, hpair]

/-- **When the members of a list are those of the RFC.** -/
theorem members_iff {hk : Hickory} {lab : Label → Text} (hp : PrintsNames hk lab) {origin : Name}
    (horigin : Proper origin) (hofqdn : origin.isFqdn = true) {records : List Record}
    (howners : ∀ record ∈ records, Proper record.name) :
    ListsMembers hk lab origin records ↔
      ∀ record ∈ records, ∀ ptr, record.data = .PTR ptr → Unambiguous lab origin record.name := by
  unfold ListsMembers parseMemberZones
  rw [filterMap_take_eq_iff]
  constructor
  · intro h record hmem ptr hdata
    exact (agrees_iff hdata hp hofqdn horigin (howners record hmem)).mp (h record hmem)
  · intro h record hmem
    by_cases hdata : ∃ ptr, record.data = .PTR ptr
    · obtain ⟨ptr, hdata⟩ := hdata
      exact (agrees_iff hdata hp hofqdn horigin (howners record hmem)).mpr (h record hmem ptr hdata)
    · exact agrees_other (not_exists.mp hdata)

/-! ## Examples -/

/-- `catalog.example.test.` -/
def catalogOrigin : Name := .ofLabels ["catalog", "example", "test"] true

/-- A PTR record to `example.com.` -/
def ptrRecord (owner : List String) : Record :=
  ⟨.ofLabels (owner ++ ["catalog", "example", "test"]) true, 300,
    .PTR (.ofLabels ["example", "com"] true)⟩

theorem members_one :
    ListsMembers escapingHickory escapedLabel catalogOrigin [ptrRecord ["member1", "zones"]] := by
  refine (members_iff escapingHickory_prints (by decide) rfl (by decide)).mpr ?_
  intro record hmem ptr _
  obtain rfl := List.mem_singleton.mp hmem
  have hmember : IsMember catalogOrigin (ptrRecord ["member1", "zones"]).name (ascii "member1") :=
    ⟨rfl, zonesLabel, catalogOrigin.labels, rfl, by decide, rfl⟩
  refine ⟨?_, fun _ _ _ _ _ => ⟨_, hmember⟩⟩
  rintro u ⟨-, z, rest, hlabels, -, -⟩
  obtain ⟨rfl, -⟩ := List.cons.inj hlabels
  exact ⟨by decide, by decide, zonesLabel, catalogOrigin.labels, rfl, by decide, rfl⟩

/-- Three owners that are no members', and a member's in capitals. -/
theorem lookalikes_listed :
    let records := [ptrRecord ["zones"], ptrRecord ["coo", "member1", "zones"],
      ptrRecord ["xzones"], ptrRecord ["member1", "ZONES"]]
    let zone := Name.ofLabels ["example", "com"] true
    parseMemberZones escapingHickory catalogOrigin records =
        [([], zone), ("coo.member1".toList, zone), ("x".toList, zone)] ∧
      records.filterMap (memberPair escapedLabel catalogOrigin) = [("member1".toList, zone)] ∧
      ¬ ListsMembers escapingHickory escapedLabel catalogOrigin records := by
  refine ⟨by decide, by decide, ?_⟩
  intro h
  exact absurd (h 4) (by decide)

end Heimdallr.Zone
