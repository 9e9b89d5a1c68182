import Heimdallr.Core.Blocklist
import Heimdallr.Lib.Split

/-!
# What is on a list (`core/filter/blocklist.rs`)

`is_blocked` and `is_allowed` go through a query from dot to dot and look each rest up. The lists
come from `insert` and `parse_hosts`, in any order.

* `matchLoop` is the loop of the source, on characters; `listMatches_eq_loop` is why the rest of
  this development may use the list of what follows the dots instead.
* An entry is a normal form: no dots at the end, ASCII letters in lower case.
* Labels are the pieces between dots, also of texts that are no names: an empty piece is a piece.

Results:
* `mem_built`: the entries of a list.
* `SuffixMatch`: matching by the last labels of a name, whatever its case and its trailing dots.
* **`suffix_match`**: this is what both functions do, for every list and every query.
-/

namespace Heimdallr

open Lib Net

/-! ## Building a list -/

/-- `Blocklist::insert`. -/
def Blocklist.insert (bl : Blocklist) (name : String) : Blocklist :=
  let n := normalize name
  if n.isEmpty then bl else ⟨bl.entries.insert n⟩

/-- What adds entries to a list. -/
inductive ListCall
  | insert (name : String)
  | parseHosts (text : Text)

/-- The list after one of these calls. -/
def ListCall.apply (bl : Blocklist) : ListCall → Blocklist
  | insert name => bl.insert name
  | parseHosts text => bl.parseHosts text

/-- A list after some calls. -/
def Blocklist.built (calls : List ListCall) : Blocklist := calls.foldl ListCall.apply ⟨[]⟩

/-- The entries a call adds. -/
def ListCall.names : ListCall → List String
  | insert name => if (normalize name).isEmpty then [] else [normalize name]
  | parseHosts text => hostNames text

theorem mem_apply {bl : Blocklist} {call : ListCall} {x : String} :
    x ∈ (call.apply bl).entries ↔ x ∈ bl.entries ∨ x ∈ call.names := by
  cases call with
  | insert name =>
    unfold ListCall.apply Blocklist.insert ListCall.names
    dsimp only
    split
    · simp
    · simp [or_comm]
  | parseHosts text => exact mem_parseHosts

/-- The entries are those of the calls. -/
theorem mem_built {calls : List ListCall} {x : String} :
    x ∈ (Blocklist.built calls).entries ↔ ∃ call ∈ calls, x ∈ call.names := by
  have hfold : ∀ bl : Blocklist, x ∈ (calls.foldl ListCall.apply bl).entries ↔
      x ∈ bl.entries ∨ ∃ call ∈ calls, x ∈ call.names := by
    induction calls with
    | nil => simp
    | cons call calls ih =>
      intro bl
      rw [List.foldl_cons, ih, mem_apply, or_assoc]
      simp
  unfold Blocklist.built
  rw [hfold]
  simp

/-! ## Normal forms -/

/-- Lower-casing makes and takes no dots. -/
theorem toLower_eq_dot {c : Char} : c.toLower = '.' ↔ c = '.' := by
  constructor
  · intro h
    unfold Char.toLower at h
    split at h
    · rename_i hupper
      have hval := congrArg (fun c : Char => c.val.toNat) h
      have hlow := UInt32.le_iff_toNat_le.mp hupper.1
      have hhigh := UInt32.le_iff_toNat_le.mp hupper.2
      simp at hval hlow hhigh
      omega
    · exact h
  · rintro rfl
    rfl

theorem trimEndDots_map_toLower (s : List Char) :
    trimEndDots (s.map Char.toLower) = (trimEndDots s).map Char.toLower := by
  have hdot : ((· == '.') ∘ Char.toLower) = fun c : Char => c == '.' := by
    funext c
    rw [Bool.eq_iff_iff, Function.comp_apply, beq_iff_eq, beq_iff_eq]
    exact toLower_eq_dot
  unfold trimEndDots
  rw [← List.map_reverse, List.dropWhile_map, hdot, List.map_reverse]

theorem trimEndDots_append_dots (s : List Char) (n : Nat) :
    trimEndDots (s ++ List.replicate n '.') = trimEndDots s := by
  unfold trimEndDots
  rw [List.reverse_append, List.reverse_replicate, List.dropWhile_append]
  simp

/-- Only the dots behind the last label are dropped. -/
theorem trimEndDots_append {front s : List Char} (h : trimEndDots s ≠ []) :
    trimEndDots (front ++ '.' :: s) = front ++ '.' :: trimEndDots s := by
  unfold trimEndDots at h ⊢
  have hne : s.reverse.dropWhile (· == '.') ≠ [] := by
    intro hnil
    rw [hnil] at h
    exact h rfl
  rw [List.reverse_append, List.reverse_cons, List.append_assoc, List.dropWhile_append]
  simp [hne]

/-! ## Matching -/

/-- `str::split('.')`. -/
def labels (s : List Char) : List (List Char) := s.splitOn '.'

/-- The labels of a query, in lower case and without trailing dots. -/
def queryLabels (q : String) : List (List Char) :=
  labels (trimEndDots (q.toList.map Char.toLower))

theorem queryLabels_eq (q : String) : queryLabels q = labels (normalize q).toList := by
  unfold queryLabels normalize
  rw [trimEndDots_map_toLower, String.toList_ofList]

/-! ### The loop

`listMatches` has the rests of a query as one list. The loop of the source comes to them one by one:
`find('.')`, then what follows. -/

/-- The loop of `is_blocked` and `is_allowed`, as it stands. -/
def matchLoop (entries : List String) (cur : List Char) : Bool :=
  if entries.contains (String.ofList cur) then true
  else
    match _hrest : cur.dropWhile (· != '.') with
    | [] => false
    | _ :: rest => matchLoop entries rest
termination_by cur.length
decreasing_by
  have hle := (List.dropWhile_suffix (l := cur) (· != '.')).length_le
  rw [_hrest, List.length_cons] at hle
  omega

/-- The first rest is what follows the first dot. -/
theorem afterDots_dropWhile (s : List Char) :
    afterDots s = match s.dropWhile (· != '.') with
      | [] => []
      | _ :: rest => rest :: afterDots rest := by
  induction s with
  | nil => rfl
  | cons c s ih =>
    by_cases hc : c = '.'
    · subst hc
      rfl
    · simp only [afterDots, hc, if_false]
      rw [List.dropWhile_cons_of_pos (by simpa using hc)]
      exact ih

theorem matchLoop_eq (entries : List String) (cur : List Char) :
    matchLoop entries cur =
      (cur :: afterDots cur).any fun s => entries.contains (String.ofList s) := by
  fun_induction matchLoop entries cur with
  | case1 cur hmem => rw [List.any_cons, hmem, Bool.true_or]
  | case2 cur hmem hrest =>
    rw [List.any_cons, Bool.eq_false_iff.mpr hmem, afterDots_dropWhile, hrest]
    rfl
  | case3 cur hmem c rest hrest ih =>
    rw [List.any_cons, Bool.eq_false_iff.mpr hmem, Bool.false_or, afterDots_dropWhile, hrest]
    exact ih

theorem listMatches_eq_loop (entries : List String) (q : String) :
    listMatches entries q =
      if entries.isEmpty then false else matchLoop entries (normalize q).toList := by
  rw [matchLoop_eq]
  rfl

theorem afterDots_eq (s : List Char) : afterDots s = afterEach '.' s := by
  induction s with
  | nil => rfl
  | cons c s ih =>
    unfold afterDots afterEach
    rw [ih]

/-- Matching by the last labels of a query. -/
structure SuffixMatch (entries : List String) (answer : String → Bool) : Prop where
  exact : ∀ q, answer q = true ↔ ∃ e ∈ entries, labels e.toList <:+ queryLabels q
  /-- upper and lower case of ASCII letters taken as one -/
  anyCase : ∀ q q', q.toList.map Char.toLower = q'.toList.map Char.toLower → answer q = answer q'
  trailingDots : ∀ q n, answer (q ++ String.ofList (List.replicate n '.')) = answer q
  /-- what is below a name other than the root -/
  below : ∀ q front, queryLabels q ≠ [[]] → answer q = true → answer (front ++ "." ++ q) = true

/-- A match depends on the last labels alone, so the rest follows from how they are computed. -/
theorem SuffixMatch.of_exact {entries : List String} {answer : String → Bool}
    (h : ∀ q, answer q = true ↔ ∃ e ∈ entries, labels e.toList <:+ queryLabels q) :
    SuffixMatch entries answer := by
  have hsame : ∀ q q', queryLabels q = queryLabels q' → answer q = answer q' := by
    intro q q' hq
    rw [Bool.eq_iff_iff, h, h, hq]
  refine ⟨h, fun q q' hq => hsame q q' ?_, fun q n => hsame _ _ ?_, fun q front hroot hmatch => ?_⟩
  · unfold queryLabels
    rw [hq]
  · unfold queryLabels
    have hdots : (List.replicate n '.').map Char.toLower = List.replicate n '.' := by
      simp
    rw [String.toList_append, String.toList_ofList, List.map_append, hdots, trimEndDots_append_dots]
  · obtain ⟨e, he, hsuffix⟩ := (h q).mp hmatch
    have hne : trimEndDots (q.toList.map Char.toLower) ≠ [] := by
      intro hnil
      unfold queryLabels at hroot
      rw [hnil] at hroot
      exact hroot rfl
    refine (h _).mpr ⟨e, he, hsuffix.trans ?_⟩
    unfold queryLabels labels
    have hlower : (front ++ "." ++ q).toList.map Char.toLower =
        front.toList.map Char.toLower ++ '.' :: q.toList.map Char.toLower := by
      simp
    rw [hlower, trimEndDots_append hne]
    exact splitOn_suffix_append _ _ _

/-- The loop over the dots looks up every suffix of the label list. -/
theorem listMatches_iff (entries : List String) (q : String) :
    listMatches entries q = true ↔ ∃ e ∈ entries, labels e.toList <:+ queryLabels q := by
  rw [queryLabels_eq]
  unfold labels listMatches
  simp only [splitOn_suffix_iff, afterDots_eq]
  split
  · rename_i hempty
    simp [List.isEmpty_iff.mp hempty]
  · simp only [List.any_eq_true, List.mem_cons, List.contains_iff_mem]
    constructor
    · rintro ⟨s, hs, hmem⟩
      exact ⟨String.ofList s, hmem, by rwa [String.toList_ofList]⟩
    · rintro ⟨e, he, hs⟩
      exact ⟨e.toList, hs, by rwa [String.ofList_toList]⟩

/-- **Suffix matching is exact at the dots**, on every list that is built and for every query. -/
theorem suffix_match (calls : List ListCall) :
    let bl := Blocklist.built calls
    (∀ e, e ∈ bl.entries ↔ ∃ call ∈ calls, e ∈ call.names) ∧
      SuffixMatch bl.entries bl.isBlocked ∧
      SuffixMatch bl.entries (Allowlist.mk bl.entries).isAllowed :=
  ⟨fun _ => mem_built, .of_exact (listMatches_iff _), .of_exact (listMatches_iff _)⟩

example :
    let bl := Blocklist.built [.parseHosts "0.0.0.0 example.com".toList]
    bl.isBlocked "a.b.c.example.com" = true ∧ bl.isBlocked "EXAMPLE.com." = true ∧
      bl.isBlocked "notexample.com" = false := by
  decide +kernel

end Heimdallr
