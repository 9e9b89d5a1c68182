import Heimdallr.Resolver.ForwardSpec
import Mathlib.Data.List.Forall2

/-!
# DNAME substitution (`synthesize_dname_cnames` in `core/resolver/forward.rs`)

A DNAME record redirects everything below its owner: a query name is rewritten by putting the target
in the place of the owner and keeping the labels in front of it (`substitution`). Nothing else is
redirected, the owner itself included, and a name that is rewritten to itself is left alone.

`synthesize_dname_cnames` does not read the owner. For every DNAME it answers that the query name is
an alias of the target as it stands, unless the target is the query name.

* The records it takes for DNAME are those of hickory's type `ANAME` (65305), which is what the
  source matches on; a record of type 39 has other data and is handed through.
* `substitution` is the specification, on labels, with the comparison of DNS names. It is not in the
  source.

Results:
* `synthesizeDnameCnames_eq_flatMap`: every DNAME of a list has its CNAME, in order, whatever else
  is in the list.
* `dname_substitution_iff`: the CNAME of a DNAME is right only when there is none: the target is the
  query name and the owner is not above it. A DNAME above the query name is never right, since the
  substituted name has more labels than the target.
-/

namespace Heimdallr.Resolver

/-! ## The substitution -/

/-- The labels of a name in lower case. -/
def lowerLabels (n : Name) : List Label := n.toLowercase.labels

/-- The labels of `q` in front of `owner`, when `q` is a strict subdomain of it. -/
def labelsBelow (q owner : Name) : Option (List Label) :=
  let k := q.labels.length - owner.labels.length
  if owner.labels.length < q.labels.length ∧
      (lowerLabels q).drop k = lowerLabels owner then some (q.labels.take k)
  else none

/-- `q` with its suffix `owner` replaced by the target. -/
def substitution (q owner target : Name) : Option Name :=
  (labelsBelow q owner).map fun below => ⟨below ++ target.labels, target.isFqdn⟩

/-- The CNAME a DNAME record stands for: from `q` to the substituted name, when `q` lies strictly
below the owner and the substitution changes it. -/
def dnameCname (q : Name) (r : Record) : Option Record :=
  match r.data with
  | .ANAME target =>
    ((substitution q r.name target).filter fun n => lowerLabels n ≠ lowerLabels q).map fun n =>
      ⟨q, r.ttl, .CNAME n⟩
  | _ => none

/-- Two CNAMEs of one owner and TTL whose targets are the same domain. -/
def SameCname (x y : Record) : Prop :=
  x.name = y.name ∧ x.ttl = y.ttl ∧
    ∃ n m, x.data = .CNAME n ∧ y.data = .CNAME m ∧ lowerLabels n = lowerLabels m

theorem length_lowerLabels (n : Name) : (lowerLabels n).length = n.labels.length := by
  simp [lowerLabels, Name.toLowercase]

/-- A substituted name has the labels of the target and at least one more. -/
theorem substitution_length {q owner target n : Name} (h : substitution q owner target = some n) :
    target.labels.length < n.labels.length := by
  obtain ⟨below, hbelow, rfl⟩ := Option.map_eq_some_iff.mp h
  unfold labelsBelow at hbelow
  dsimp only at hbelow
  split at hbelow
  · rename_i hlt
    obtain rfl := Option.some.inj hbelow
    rw [List.length_append, List.length_take]
    omega
  · cases hbelow

/-- When the target is the query name, the substitution changes it. -/
theorem substitution_length_of_eq {q owner n : Name} {target : Name}
    (h : substitution q owner target = some n) (hq : target.eq q = true) :
    lowerLabels n ≠ lowerLabels q := by
  intro hsame
  have hlt := substitution_length h
  have htq : lowerLabels target = lowerLabels q := by
    unfold Name.eq at hq
    unfold lowerLabels
    rw [eq_of_beq hq]
  have hlen := congrArg List.length hsame
  have hlen' := congrArg List.length htq
  rw [length_lowerLabels, length_lowerLabels] at hlen hlen'
  omega

/-! ## What the source synthesizes -/

/-- The CNAMEs of a list are those of its records, in order. -/
theorem synthesizeDnameCnames_eq_flatMap (records : List Record) (q : Name) :
    synthesizeDnameCnames records q = records.flatMap fun r => synthesizeDnameCnames [r] q := by
  induction records with
  | nil => rfl
  | cons r rest ih =>
    rw [List.flatMap_cons, ← ih]
    unfold synthesizeDnameCnames
    rw [← List.filterMap_append, List.singleton_append]

theorem synthesizeDnameCnames_singleton {r : Record} {target : Name} (h : r.data = .ANAME target)
    (q : Name) :
    synthesizeDnameCnames [r] q =
      if target.eq q then [] else [⟨q, r.ttl, .CNAME target⟩] := by
  unfold synthesizeDnameCnames
  by_cases heq : target.eq q = true
  · simp [h, heq]
  · simp [h, heq]

theorem synthesizeDnameCnames_other {r : Record} (h : ∀ target, r.data ≠ .ANAME target)
    (q : Name) : synthesizeDnameCnames [r] q = [] := by
  unfold synthesizeDnameCnames
  rw [List.filterMap_cons]
  split
  · rfl
  · rename_i hsome
    split at hsome
    · rename_i dname hd
      exact absurd hd (h dname)
    · cases hsome

theorem dnameCname_aname {r : Record} {target : Name} (h : r.data = .ANAME target) (q : Name) :
    dnameCname q r =
      ((substitution q r.name target).filter fun n => lowerLabels n ≠ lowerLabels q).map fun n =>
        ⟨q, r.ttl, .CNAME n⟩ := by
  unfold dnameCname
  simp only [h]

theorem dnameCname_other {r : Record} (h : ∀ target, r.data ≠ .ANAME target) (q : Name) :
    dnameCname q r = none := by
  unfold dnameCname
  split
  · rename_i target hd
    exact absurd hd (h target)
  · rfl

/-- The CNAME that is synthesized is never the one of the substitution: it has fewer labels. -/
theorem not_sameCname {q : Name} {r x : Record} {target : Name} (h : r.data = .ANAME target)
    (hx : dnameCname q r = some x) : ¬ SameCname ⟨q, r.ttl, .CNAME target⟩ x := by
  rintro ⟨-, -, n, m, hn, hm, hsame⟩
  rw [dnameCname_aname h] at hx
  obtain ⟨m', hm', rfl⟩ := Option.map_eq_some_iff.mp hx
  obtain rfl := RData.CNAME.inj hn
  obtain rfl := RData.CNAME.inj hm
  have hlt := substitution_length (Option.filter_eq_some_iff.mp hm').1
  have hlen := congrArg List.length hsame
  rw [length_lowerLabels, length_lowerLabels] at hlen
  omega

/-- A substitution is for names below the owner. -/
theorem below_of_dnameCname {q target : Name} {r x : Record} (hdata : r.data = .ANAME target)
    (hx : dnameCname q r = some x) : (labelsBelow q r.name).isSome = true := by
  rw [dnameCname_aname hdata] at hx
  obtain ⟨n, hn, -⟩ := Option.map_eq_some_iff.mp hx
  obtain ⟨below, hbelow, -⟩ := Option.map_eq_some_iff.mp (Option.filter_eq_some_iff.mp hn).1
  rw [hbelow]
  rfl

/-- A substitution into the query name itself would have changed it. -/
theorem not_below_of_target {q target : Name} {r : Record} (hdata : r.data = .ANAME target)
    (hx : dnameCname q r = none) (heq : target.eq q = true) :
    (labelsBelow q r.name).isSome = false := by
  by_contra hsome
  rw [Bool.not_eq_false] at hsome
  obtain ⟨below, hbelow⟩ := Option.isSome_iff_exists.mp hsome
  have hsub : substitution q r.name target = some ⟨below ++ target.labels, target.isFqdn⟩ := by
    unfold substitution
    rw [hbelow]
    rfl
  rw [dnameCname_aname hdata, hsub, Option.map_eq_none_iff, Option.filter_eq_none_iff] at hx
  exact hx _ rfl (decide_eq_true (substitution_length_of_eq hsub heq))

/-- One record: the CNAME is right when there is to be none and there is none. -/
theorem singleton_iff (q : Name) (r : Record) :
    List.Forall₂ SameCname (synthesizeDnameCnames [r] q) (dnameCname q r).toList ↔
      ∀ target, r.data = .ANAME target →
        target.eq q = true ∧ (labelsBelow q r.name).isSome = false := by
  by_cases hdname : ∃ target, r.data = .ANAME target
  · obtain ⟨target, hdata⟩ := hdname
    have hall : (∀ t, r.data = .ANAME t → t.eq q = true ∧ (labelsBelow q r.name).isSome = false) ↔
        target.eq q = true ∧ (labelsBelow q r.name).isSome = false := by
      constructor
      · exact fun h => h target hdata
      · intro h t ht
        obtain rfl := RData.ANAME.inj (hdata.symm.trans ht)
        exact h
    rw [hall, synthesizeDnameCnames_singleton hdata]
    cases hx : dnameCname q r with
    | some x =>
      -- the query name is below the owner, and gets the wrong CNAME or none
      refine iff_of_false ?_ (by rw [below_of_dnameCname hdata hx]; simp)
      intro h
      split at h
      · cases h
      · rw [Option.toList_some, List.forall₂_cons] at h
        exact not_sameCname hdata hx h.1
    | none =>
      rw [Option.toList_none, List.forall₂_nil_right_iff]
      constructor
      · intro h
        split at h
        · rename_i heq
          exact ⟨heq, not_below_of_target hdata hx heq⟩
        · cases h
      · rintro ⟨heq, -⟩
        rw [if_pos heq]
  · have hother : ∀ target, r.data ≠ .ANAME target := fun t ht => hdname ⟨t, ht⟩
    rw [synthesizeDnameCnames_other hother, dnameCname_other hother]
    exact iff_of_true List.Forall₂.nil fun t ht => absurd ht (hother t)

/-- A list none of whose targets is the query name gets a CNAME for every DNAME, and a substitution
gives no more. -/
theorem length_dnameCnames_le {records : List Record} {q : Name}
    (h : ∀ r ∈ records, ∀ target, r.data = .ANAME target → target.eq q = false) :
    (records.filterMap (dnameCname q)).length ≤ (synthesizeDnameCnames records q).length := by
  induction records with
  | nil => exact Nat.le_refl _
  | cons r rest ih =>
    have hrest := ih fun r' hr' => h r' (List.mem_cons_of_mem r hr')
    rw [synthesizeDnameCnames_eq_flatMap, List.flatMap_cons, ← synthesizeDnameCnames_eq_flatMap,
      List.length_append, List.filterMap_cons]
    by_cases hdname : ∃ target, r.data = .ANAME target
    · obtain ⟨target, hdata⟩ := hdname
      rw [synthesizeDnameCnames_singleton hdata, h r List.mem_cons_self target hdata,
        if_neg Bool.false_ne_true, List.length_singleton]
      split
      · omega
      · rw [List.length_cons]
        omega
    · rw [dnameCname_other fun t ht => hdname ⟨t, ht⟩]
      dsimp only
      omega

/-- As a list, too, the CNAMEs are right only when there is no DNAME: the first one is wrong, or one
too many. -/
theorem list_iff {records : List Record} {q : Name}
    (h : ∀ r ∈ records, ∀ target, r.data = .ANAME target → target.eq q = false) :
    List.Forall₂ SameCname (synthesizeDnameCnames records q) (records.filterMap (dnameCname q)) ↔
      ∀ r ∈ records, ∀ target, r.data ≠ .ANAME target := by
  induction records with
  | nil => exact iff_of_true List.Forall₂.nil (by simp)
  | cons r rest ih =>
    have hrest : ∀ r' ∈ rest, ∀ target, r'.data = .ANAME target → target.eq q = false :=
      fun r' hr' => h r' (List.mem_cons_of_mem r hr')
    rw [synthesizeDnameCnames_eq_flatMap, List.flatMap_cons, ← synthesizeDnameCnames_eq_flatMap,
      List.filterMap_cons, List.forall_mem_cons]
    by_cases hdname : ∃ target, r.data = .ANAME target
    · obtain ⟨target, hdata⟩ := hdname
      refine iff_of_false ?_ fun hno => hno.1 target hdata
      rw [synthesizeDnameCnames_singleton hdata, h r List.mem_cons_self target hdata,
        if_neg Bool.false_ne_true, List.singleton_append]
      intro hall
      have hlen := hall.length_eq
      have hle := length_dnameCnames_le hrest
      cases hx : dnameCname q r with
      | none =>
        rw [hx, List.length_cons] at hlen
        dsimp only at hlen
        omega
      | some x =>
        rw [hx, List.forall₂_cons] at hall
        exact not_sameCname hdata hx hall.1
    · have hother : ∀ target, r.data ≠ .ANAME target := fun t ht => hdname ⟨t, ht⟩
      rw [synthesizeDnameCnames_other hother, dnameCname_other hother, List.nil_append, ih hrest,
        and_iff_right hother]

/-- **DNAME substitution.** The CNAMEs of a list are those of its DNAMEs, one by one. That of a DNAME
is the one of the substitution exactly when neither is there: the target is the query name, and the
owner is not a proper ancestor of it. When no target is the query name, the list as a whole is right
exactly when it has no DNAME. -/
theorem dname_substitution_iff (records : List Record) (q : Name) :
    synthesizeDnameCnames records q = (records.flatMap fun r => synthesizeDnameCnames [r] q) ∧
      ((∀ r ∈ records,
          List.Forall₂ SameCname (synthesizeDnameCnames [r] q) (dnameCname q r).toList) ↔
        ∀ r ∈ records, ∀ target, r.data = .ANAME target →
          target.eq q = true ∧ (labelsBelow q r.name).isSome = false) ∧
      ((∀ r ∈ records, ∀ target, r.data = .ANAME target → target.eq q = false) →
        (List.Forall₂ SameCname (synthesizeDnameCnames records q)
            (records.filterMap (dnameCname q)) ↔
          ∀ r ∈ records, ∀ target, r.data ≠ .ANAME target)) :=
  ⟨synthesizeDnameCnames_eq_flatMap records q, forall₂_congr fun r _ => singleton_iff q r, list_iff⟩

/-- `example.com. 300 DNAME example.net.` -/
def exampleDname : Record :=
  ⟨.ofLabels ["example", "com"] true, 300, .ANAME (.ofLabels ["example", "net"] true)⟩

/-- `www.example.com` becomes an alias of `example.net` and not of `www.example.net`. -/
theorem dname_drops_labels :
    let q := Name.ofLabels ["www", "example", "com"] false
    synthesizeDnameCnames [exampleDname] q =
        [⟨q, 300, .CNAME (.ofLabels ["example", "net"] true)⟩] ∧
      dnameCname q exampleDname = some ⟨q, 300, .CNAME (.ofLabels ["www", "example", "net"] true)⟩ ∧
      ¬ List.Forall₂ SameCname (synthesizeDnameCnames [exampleDname] q)
        ([exampleDname].filterMap (dnameCname q)) := by
  intro q
  have hcode : synthesizeDnameCnames [exampleDname] q =
      [⟨q, 300, .CNAME (.ofLabels ["example", "net"] true)⟩] := by decide
  have hcname : dnameCname q exampleDname =
      some ⟨q, 300, .CNAME (.ofLabels ["www", "example", "net"] true)⟩ := by decide
  refine ⟨hcode, hcname, ?_⟩
  rw [hcode, List.filterMap_cons, hcname, List.forall₂_cons]
  exact fun h => not_sameCname rfl hcname h.1

end Heimdallr.Resolver
