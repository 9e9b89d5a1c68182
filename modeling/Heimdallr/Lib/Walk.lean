import Mathlib.Data.List.Nodup

/-!
# Depth-bounded walks with a visited set

`walk left n` goes through a graph depth first, from `n` and for `left` levels: a node whose key has
been marked is turned away, any other is marked, and its references are followed with one level
less. With no level left a node is marked and nothing more. The marks are shared by all calls of a
walk, and by the walks from several roots (`walkAll`). A mark is a node and the levels that were
left when it was set.

`Chain refs r a b` is a chain of `r` references from `a` to `b`. A `Place` is a node together with the
way that leads to it: the position of a root among the roots, that of a reference among the root's
references, and so on. Places come one before the other as a walk without marks would meet them. A
place is open unless it, or a place above it, has the key of an open place before it.

* `Keeps`, `Keeps.walkAll_kept`: the rule for invariants of a walk.
* `walkAll_reaches`: every mark is at the end of a chain from a root, as long as the levels that
  were used up.
* `walkAll_nodup`: no key is marked twice.
* `walkAll_marks_iff`: what is marked is what stands at the open places.
* `exists_open_of_one_way`: when no key is met twice in different ways, that is all there is.
-/

namespace Heimdallr.Lib

variable {N K : Type}

/-- A chain of `r` references. -/
def Chain (refs : N → List N) : Nat → N → N → Prop
  | 0, a, b => a = b
  | r + 1, a, b => ∃ c ∈ refs a, Chain refs r c b

/-- One more reference at the end of a chain. -/
theorem Chain.snoc {refs : N → List N} {r : Nat} {a b c : N} (h : Chain refs r a b)
    (hc : c ∈ refs b) : Chain refs (r + 1) a c := by
  induction r generalizing a with
  | zero =>
    obtain rfl : a = b := h
    exact ⟨c, hc, rfl⟩
  | succ r ih =>
    obtain ⟨d, hd, hrest⟩ := h
    exact ⟨d, hd, ih hrest⟩

section Walk

variable [DecidableEq K] (key : N → K) (refs : N → List N)

/-- Walk from a node with `left` levels left. -/
def walk : Nat → N → List (N × Nat) → List (N × Nat)
  | left, n, marks =>
    if key n ∈ marks.map fun m => key m.1 then marks
    else
      let marks := marks ++ [(n, left)]
      match left with
      | 0 => marks
      | left + 1 => (refs n).foldl (fun marks m => walk left m marks) marks

/-- Walk from several nodes, one after the other, with the marks shared. -/
def walkEach (left : Nat) (ns : List N) (marks : List (N × Nat)) : List (N × Nat) :=
  ns.foldl (fun marks n => walk key refs left n marks) marks

/-- A walk from the roots. -/
def walkAll (left : Nat) (roots : List N) : List (N × Nat) := walkEach key refs left roots []

variable {key refs}

/-- A marked key turns the call away. -/
theorem walk_marked {left : Nat} {n : N} {marks : List (N × Nat)}
    (h : key n ∈ marks.map fun m => key m.1) : walk key refs left n marks = marks := by
  cases left <;> exact if_pos h

theorem walk_zero {n : N} {marks : List (N × Nat)} (h : key n ∉ marks.map fun m => key m.1) :
    walk key refs 0 n marks = marks ++ [(n, 0)] := if_neg h

theorem walk_succ {left : Nat} {n : N} {marks : List (N × Nat)}
    (h : key n ∉ marks.map fun m => key m.1) :
    walk key refs (left + 1) n marks =
      walkEach key refs left (refs n) (marks ++ [(n, left + 1)]) := if_neg h

/-! ## Invariants -/

variable (key refs) in
/-- What makes `I` an invariant of walks: from the calls that `C` allows, in the marks they are made
with, a new mark keeps `I` and allows the calls for the references; further marks take no permission
away. -/
structure Keeps (I : List (N × Nat) → Prop) (C : N → Nat → List (N × Nat) → Prop) : Prop where
  mark : ∀ n left marks, I marks → C n left marks → (key n ∉ marks.map fun m => key m.1) →
    I (marks ++ [(n, left)])
  follow : ∀ n left marks, (n, left + 1) ∈ marks → C n (left + 1) marks →
    ∀ m ∈ refs n, C m left marks
  grow : ∀ n left marks marks', marks <+: marks' → C n left marks → C n left marks'

namespace Keeps

variable {I : List (N × Nat) → Prop} {C : N → Nat → List (N × Nat) → Prop}

/-- A list of calls keeps what one call keeps. -/
theorem each (h : Keeps key refs I C) {left : Nat}
    (hone : ∀ n marks, I marks → C n left marks →
      I (walk key refs left n marks) ∧ marks <+: walk key refs left n marks)
    {ns : List N} {marks : List (N × Nat)} (hI : I marks) (hns : ∀ n ∈ ns, C n left marks) :
    I (walkEach key refs left ns marks) ∧ marks <+: walkEach key refs left ns marks := by
  induction ns generalizing marks with
  | nil => exact ⟨hI, List.prefix_refl marks⟩
  | cons n ns ih =>
    rw [List.forall_mem_cons] at hns
    obtain ⟨hI', hgrow⟩ := hone n marks hI hns.1
    obtain ⟨hI'', hgrow'⟩ := ih hI' fun m hm => h.grow m left _ _ hgrow (hns.2 m hm)
    exact ⟨hI'', hgrow.trans hgrow'⟩

theorem walk_kept (h : Keeps key refs I C) (left : Nat) (n : N) (marks : List (N × Nat))
    (hI : I marks) (hn : C n left marks) :
    I (walk key refs left n marks) ∧ marks <+: walk key refs left n marks := by
  induction left generalizing n marks with
  | zero =>
    by_cases hk : key n ∈ marks.map fun m => key m.1
    · rw [walk_marked hk]
      exact ⟨hI, List.prefix_refl marks⟩
    · rw [walk_zero hk]
      exact ⟨h.mark n 0 marks hI hn hk, List.prefix_append _ _⟩
  | succ left ih =>
    by_cases hk : key n ∈ marks.map fun m => key m.1
    · rw [walk_marked hk]
      exact ⟨hI, List.prefix_refl marks⟩
    · rw [walk_succ hk]
      have hgrow : marks <+: marks ++ [(n, left + 1)] := List.prefix_append _ _
      have hrefs := h.follow n left (marks ++ [(n, left + 1)]) (by simp)
        (h.grow n (left + 1) _ _ hgrow hn)
      obtain ⟨hI', hgrow'⟩ := h.each ih (h.mark n (left + 1) marks hI hn hk) hrefs
      exact ⟨hI', hgrow.trans hgrow'⟩

/-- **The invariant rule.** -/
theorem walkAll_kept (h : Keeps key refs I C) {levels : Nat} {roots : List N} (hI : I [])
    (hroots : ∀ n ∈ roots, C n levels []) : I (walkAll key refs levels roots) :=
  (h.each (h.walk_kept levels) hI hroots).1

end Keeps

/-- **No key is marked twice.** -/
theorem walkAll_nodup (levels : Nat) (roots : List N) :
    ((walkAll key refs levels roots).map fun m => key m.1).Nodup := by
  have hkeeps : Keeps key refs (fun marks => (marks.map fun m => key m.1).Nodup)
      (fun _ _ _ => True) := by
    refine ⟨?_, fun _ _ _ _ _ _ _ => trivial, fun _ _ _ _ _ _ => trivial⟩
    intro n left marks hI _ hk
    rw [List.map_append, List.nodup_append]
    refine ⟨hI, List.nodup_singleton _, ?_⟩
    intro a ha b hb
    rw [List.mem_singleton.mp hb]
    rintro rfl
    exact hk ha
  exact hkeeps.walkAll_kept List.nodup_nil fun _ _ => trivial

/-! ## What a walk finds -/

/-- **Every mark is in reach of a root.** -/
theorem walkAll_reaches {levels : Nat} {roots : List N} {n : N} {left : Nat}
    (h : (n, left) ∈ walkAll key refs levels roots) :
    ∃ root ∈ roots, ∃ r, Chain refs r root n ∧ r + left = levels := by
  have hkeeps : Keeps key refs
      (fun marks => ∀ c ∈ marks, ∃ root ∈ roots, ∃ r, Chain refs r root c.1 ∧ r + c.2 = levels)
      (fun n left _ => ∃ root ∈ roots, ∃ r, Chain refs r root n ∧ r + left = levels) := by
    refine ⟨?_, ?_, fun _ _ _ _ _ hn => hn⟩
    · intro n left marks hI hn _
      rw [List.forall_mem_append, List.forall_mem_singleton]
      exact ⟨hI, hn⟩
    · rintro n left marks - ⟨root, hroot, r, hchain, hsum⟩ m hm
      exact ⟨root, hroot, r + 1, hchain.snoc hm, by omega⟩
  exact hkeeps.walkAll_kept (fun c hc => absurd hc List.not_mem_nil)
    (fun n hn => ⟨n, hn, 0, rfl, Nat.zero_add _⟩) (n, left) h

end Walk

/-! ## Places -/

/-- A place in the unfolding of a graph: positions in the lists of references, the last one first. -/
abbrev Place := List Nat

/-- What stands at a place, and how many levels are left there. -/
inductive At (refs : N → List N) (levels : Nat) (roots : List N) : Place → N → Nat → Prop
  | root {i : Nat} {n : N} (hn : roots[i]? = some n) : At refs levels roots [i] n levels
  | ref {p : Place} {i left : Nat} {n m : N} (hp : At refs levels roots p n (left + 1))
      (hm : (refs n)[i]? = some m) : At refs levels roots (i :: p) m left

/-- The order of a depth-first walk: `p` is above `q`, or in a branch before that of `q`. -/
def Before (p q : Place) : Prop :=
  p <:+ q ∧ p ≠ q ∨ ∃ r i j, i < j ∧ i :: r <:+ p ∧ j :: r <:+ q

/-- `PlaceIs true p`: the place is open, that is, the places above it are, and every place before it
with its key is shut. `PlaceIs false p`: it is shut, that is, it is or is below a place whose key an
open place before it has. -/
inductive PlaceIs (key : N → K) (refs : N → List N) (levels : Nat) (roots : List N) :
    Bool → Place → Prop
  | opened {p : Place} {n : N} {left : Nat} (hat : At refs levels roots p n left)
      (habove : ∀ q, q <:+ p → q ≠ p → q ≠ [] → PlaceIs key refs levels roots true q)
      (hfirst : ∀ q m left', Before q p → At refs levels roots q m left' → key m = key n →
        PlaceIs key refs levels roots false q) :
      PlaceIs key refs levels roots true p
  | shut {p q r : Place} {n m : N} {left left' : Nat} (hq : q <:+ p)
      (hat : At refs levels roots q n left) (hbefore : Before r q)
      (hat' : At refs levels roots r m left') (hkey : key m = key n)
      (hopen : PlaceIs key refs levels roots true r) :
      PlaceIs key refs levels roots false p

section Order

theorem ne_cons_of_suffix {p q : Place} (h : q <:+ p) (k : Nat) : q ≠ k :: p := by
  rintro rfl
  exact absurd h.length_le (by simp)

/-- What is before a place is before its children. -/
theorem Before.cons {p q : Place} (h : Before q p) (k : Nat) : Before q (k :: p) := by
  rcases h with ⟨hq, -⟩ | ⟨r, i, j, hij, hi, hj⟩
  · exact .inl ⟨hq.trans (List.suffix_cons k p), ne_cons_of_suffix hq k⟩
  · exact .inr ⟨r, i, j, hij, hi, hj.trans (List.suffix_cons k p)⟩

/-- Before the first child of a place: before the place, or the place itself. -/
theorem before_zero {p q : Place} : Before q (0 :: p) ↔ Before q p ∨ q = p := by
  constructor
  · rintro (⟨hq, hne⟩ | ⟨r, i, j, hij, hi, hj⟩)
    · have hq := (List.suffix_cons_iff.mp hq).resolve_left hne
      by_cases heq : q = p
      · exact .inr heq
      · exact .inl (.inl ⟨hq, heq⟩)
    · rcases List.suffix_cons_iff.mp hj with heq | hj
      · obtain ⟨rfl, -⟩ := List.cons.inj heq
        exact absurd hij (Nat.not_lt_zero i)
      · exact .inl (.inr ⟨r, i, j, hij, hi, hj⟩)
  · rintro (h | rfl)
    · exact h.cons 0
    · exact .inl ⟨List.suffix_cons 0 q, ne_cons_of_suffix List.suffix_rfl 0⟩

/-- Before any child of a place: before the place, or at or below it. -/
theorem before_cons {p q : Place} {k : Nat} (h : Before q (k :: p)) : Before q p ∨ p <:+ q := by
  rcases h with ⟨hq, hne⟩ | ⟨r, i, j, hij, hi, hj⟩
  · have hq := (List.suffix_cons_iff.mp hq).resolve_left hne
    by_cases heq : q = p
    · exact .inr (heq ▸ List.suffix_rfl)
    · exact .inl (.inl ⟨hq, heq⟩)
  · rcases List.suffix_cons_iff.mp hj with heq | hj
    · obtain ⟨rfl, rfl⟩ := List.cons.inj heq
      exact .inr ((List.suffix_cons i r).trans hi)
    · exact .inl (.inr ⟨r, i, j, hij, hi, hj⟩)

/-- Before the next sibling of a place: before the place, or at or below it. -/
theorem before_succ {p q : Place} {i : Nat} :
    Before q ((i + 1) :: p) ↔ Before q (i :: p) ∨ i :: p <:+ q := by
  constructor
  · rintro (⟨hq, hne⟩ | ⟨r, a, b, hab, ha, hb⟩)
    · have hq := (List.suffix_cons_iff.mp hq).resolve_left hne
      exact .inl (.inl ⟨hq.trans (List.suffix_cons i p), ne_cons_of_suffix hq i⟩)
    · rcases List.suffix_cons_iff.mp hb with heq | hb
      · obtain ⟨rfl, rfl⟩ := List.cons.inj heq
        by_cases hai : a = i
        · exact .inr (hai ▸ ha)
        · exact .inl (.inr ⟨r, a, i, by omega, ha, List.suffix_rfl⟩)
      · exact .inl (.inr ⟨r, a, b, hab, ha, hb.trans (List.suffix_cons i p)⟩)
  · rintro ((⟨hq, hne⟩ | ⟨r, a, b, hab, ha, hb⟩) | hbelow)
    · have hq := (List.suffix_cons_iff.mp hq).resolve_left hne
      exact .inl ⟨hq.trans (List.suffix_cons (i + 1) p), ne_cons_of_suffix hq (i + 1)⟩
    · rcases List.suffix_cons_iff.mp hb with heq | hb
      · obtain ⟨rfl, rfl⟩ := List.cons.inj heq
        exact .inr ⟨r, a, b + 1, by omega, ha, List.suffix_rfl⟩
      · exact .inr ⟨r, a, b, hab, ha, hb.trans (List.suffix_cons (i + 1) p)⟩
    · exact .inr ⟨p, i, i + 1, Nat.lt_succ_self i, hbelow, List.suffix_rfl⟩

/-- Below a place is in the branch of one of its children. -/
theorem exists_child {p q : Place} (h : p <:+ q) (hne : q ≠ p) : ∃ j, j :: p <:+ q := by
  obtain ⟨t, rfl⟩ := h
  have ht : t ≠ [] := by
    rintro rfl
    exact hne rfl
  refine ⟨t.getLast ht, t.dropLast, ?_⟩
  rw [List.append_cons, List.dropLast_append_getLast ht]

end Order

section Places

variable {key : N → K} {refs : N → List N} {levels : Nat} {roots : List N}

theorem At.ne_nil {p : Place} {n : N} {left : Nat} (h : At refs levels roots p n left) :
    p ≠ [] := by
  cases h <;> simp

/-- One node stands at a place. -/
theorem At.unique {p : Place} {n m : N} {left left' : Nat} (h : At refs levels roots p n left)
    (h' : At refs levels roots p m left') : n = m ∧ left = left' := by
  induction h generalizing m left' with
  | root hn =>
    cases h' with
    | root hm => exact ⟨Option.some.inj (hn.symm.trans hm), rfl⟩
    | ref hp hm => exact absurd rfl hp.ne_nil
  | ref hp hn ih =>
    cases h' with
    | root hm => exact absurd rfl hp.ne_nil
    | ref hp' hm =>
      obtain ⟨rfl, hleft⟩ := ih hp'
      exact ⟨Option.some.inj (hn.symm.trans hm), Nat.succ.inj hleft⟩

/-- The ways to a place are places. -/
theorem At.above {p q : Place} {n : N} {left : Nat} (h : At refs levels roots p n left)
    (hq : q <:+ p) (hne : q ≠ []) : ∃ m left', At refs levels roots q m left' := by
  induction h with
  | @root i n hn =>
    rcases List.suffix_cons_iff.mp hq with rfl | hq
    · exact ⟨n, levels, .root hn⟩
    · exact absurd (List.suffix_nil.mp hq) hne
  | @ref p i left n m hp hm ih =>
    rcases List.suffix_cons_iff.mp hq with rfl | hq
    · exact ⟨m, left, .ref hp hm⟩
    · exact ih hq

/-- **No place is both open and shut.** -/
theorem PlaceIs.not {b : Bool} {p : Place} (h : PlaceIs key refs levels roots b p) :
    ¬ PlaceIs key refs levels roots (!b) p := by
  induction h with
  | @opened p n left hat habove hfirst ihabove ihfirst =>
    rintro (_ | @⟨_, q, r, n', m, left', left'', hq, hat', hbefore, hatr, hkey, hopen⟩)
    by_cases heq : q = p
    · subst heq
      obtain ⟨rfl, -⟩ := hat.unique hat'
      exact ihfirst r m left'' hbefore hatr hkey hopen
    · exact ihabove q hq heq hat'.ne_nil (.shut List.suffix_rfl hat' hbefore hatr hkey hopen)
  | @shut p q r n m left left' hq hat hbefore hat' hkey hopen ih =>
    intro hp
    have hqopen : PlaceIs key refs levels roots true q := by
      by_cases heq : q = p
      · exact heq ▸ hp
      · cases hp with
        | opened _ habove _ => exact habove q hq heq hat.ne_nil
    cases hqopen with
    | opened hatq _ hfirst =>
      obtain ⟨rfl, -⟩ := hat.unique hatq
      exact ih (hfirst r m left' hbefore hat' hkey)

/-- A walk has come to `p`: the marks are those of the open places before `p`, and the others before
`p` are shut. -/
structure CameTo (key : N → K) (refs : N → List N) (levels : Nat) (roots : List N) (p : Place)
    (marks : List (N × Nat)) : Prop where
  sound : ∀ n left, (n, left) ∈ marks →
    ∃ q, Before q p ∧ PlaceIs key refs levels roots true q ∧ At refs levels roots q n left
  complete : ∀ q n left, Before q p → At refs levels roots q n left →
    PlaceIs key refs levels roots true q ∧ (n, left) ∈ marks ∨
      PlaceIs key refs levels roots false q

/-- From the children of a place to its next sibling, when no child is left out. -/
theorem CameTo.leave {i k : Nat} {p : Place} {marks : List (N × Nat)}
    (h : CameTo key refs levels roots (k :: i :: p) marks)
    (hall : ∀ j m left, At refs levels roots (j :: i :: p) m left → j < k) :
    CameTo key refs levels roots ((i + 1) :: p) marks := by
  constructor
  · intro n left hmark
    obtain ⟨q, hbefore, hopen, hat⟩ := h.sound n left hmark
    exact ⟨q, before_succ.mpr (before_cons hbefore), hopen, hat⟩
  · intro q n left hbefore hat
    refine h.complete q n left ?_ hat
    rcases before_succ.mp hbefore with hbefore | hbelow
    · exact hbefore.cons k
    · by_cases heq : q = i :: p
      · subst heq
        exact .inl ⟨List.suffix_cons k _, ne_cons_of_suffix List.suffix_rfl k⟩
      · obtain ⟨j, hj⟩ := exists_child hbelow heq
        obtain ⟨m, left', hat'⟩ := hat.above hj (by simp)
        exact .inr ⟨i :: p, j, k, hall j m left' hat', hj, List.suffix_rfl⟩

/-- A call that is turned away: the place is shut, with all that is below it. -/
theorem CameTo.turnedAway {i left : Nat} {p : Place} {n : N} {marks : List (N × Nat)}
    (h : CameTo key refs levels roots (i :: p) marks)
    (hat : At refs levels roots (i :: p) n left) (hk : key n ∈ marks.map fun m => key m.1) :
    CameTo key refs levels roots ((i + 1) :: p) marks := by
  obtain ⟨⟨m, left'⟩, hmark, hkey⟩ := List.mem_map.mp hk
  obtain ⟨r, hbefore, hopen, hatr⟩ := h.sound m left' hmark
  constructor
  · intro n left hmark
    obtain ⟨q, hbefore, hopen, hat⟩ := h.sound n left hmark
    exact ⟨q, before_succ.mpr (.inl hbefore), hopen, hat⟩
  · intro q n' left'' hq hatq
    rcases before_succ.mp hq with hq | hbelow
    · exact h.complete q n' left'' hq hatq
    · exact .inr (.shut hbelow hat hbefore hatr hkey hopen)

/-- A call that marks its node: the place is open. -/
theorem CameTo.marks {i left : Nat} {p : Place} {n : N} {marks : List (N × Nat)}
    (h : CameTo key refs levels roots (i :: p) marks)
    (habove : ∀ q, q <:+ p → q ≠ [] → PlaceIs key refs levels roots true q)
    (hat : At refs levels roots (i :: p) n left) (hk : key n ∉ marks.map fun m => key m.1) :
    PlaceIs key refs levels roots true (i :: p) ∧
      CameTo key refs levels roots (0 :: i :: p) (marks ++ [(n, left)]) := by
  have hopen : PlaceIs key refs levels roots true (i :: p) := by
    refine .opened hat ?_ ?_
    · intro q hq hne hnil
      exact habove q ((List.suffix_cons_iff.mp hq).resolve_left hne) hnil
    · intro q m left' hbefore hatq hkey
      rcases h.complete q m left' hbefore hatq with ⟨-, hmark⟩ | hshut
      · exact absurd (List.mem_map.mpr ⟨(m, left'), hmark, hkey⟩) hk
      · exact hshut
  refine ⟨hopen, ?_, ?_⟩
  · intro m left' hmark
    rcases List.mem_append.mp hmark with hmark | hnew
    · obtain ⟨q, hbefore, hq, hatq⟩ := h.sound m left' hmark
      exact ⟨q, before_zero.mpr (.inl hbefore), hq, hatq⟩
    · obtain ⟨rfl, rfl⟩ := Prod.mk.inj (List.mem_singleton.mp hnew)
      exact ⟨i :: p, before_zero.mpr (.inr rfl), hopen, hat⟩
  · intro q m left' hbefore hatq
    rcases before_zero.mp hbefore with hbefore | rfl
    · rcases h.complete q m left' hbefore hatq with ⟨hq, hmark⟩ | hshut
      · exact .inl ⟨hq, List.mem_append_left _ hmark⟩
      · exact .inr hshut
    · obtain ⟨rfl, rfl⟩ := hat.unique hatq
      exact .inl ⟨hopen, by simp⟩

variable [DecidableEq K]

/-- Calls for a list of siblings, one after the other. -/
theorem CameTo.each {left : Nat} {p : Place}
    (hone : ∀ i n marks, At refs levels roots (i :: p) n left →
      CameTo key refs levels roots (i :: p) marks →
      CameTo key refs levels roots ((i + 1) :: p) (walk key refs left n marks))
    {ns : List N} {i : Nat} {marks : List (N × Nat)}
    (hns : ∀ j n, ns[j]? = some n → At refs levels roots ((i + j) :: p) n left)
    (h : CameTo key refs levels roots (i :: p) marks) :
    CameTo key refs levels roots ((i + ns.length) :: p) (walkEach key refs left ns marks) := by
  induction ns generalizing i marks with
  | nil => exact h
  | cons n ns ih =>
    have hfirst := hone i n marks (hns 0 n rfl) h
    have hlength : i + (n :: ns).length = i + 1 + ns.length := by
      rw [List.length_cons]
      omega
    rw [hlength]
    refine ih ?_ hfirst
    intro j m hm
    have hat := hns (j + 1) m (by simpa using hm)
    rwa [Nat.add_assoc, Nat.add_comm 1 j]

/-- **One call**: from a place to its next sibling. -/
theorem CameTo.walk {left : Nat} : ∀ {i : Nat} {p : Place} {n : N} {marks : List (N × Nat)},
    At refs levels roots (i :: p) n left →
    (∀ q, q <:+ p → q ≠ [] → PlaceIs key refs levels roots true q) →
    CameTo key refs levels roots (i :: p) marks →
    CameTo key refs levels roots ((i + 1) :: p) (Lib.walk key refs left n marks) := by
  induction left with
  | zero =>
    intro i p n marks hat habove h
    by_cases hk : key n ∈ marks.map fun m => key m.1
    · rw [walk_marked hk]
      exact h.turnedAway hat hk
    · rw [walk_zero hk]
      refine (h.marks habove hat hk).2.leave ?_
      intro j m left' hchild
      cases hchild with
      | ref hp hm => exact absurd (hat.unique hp).2 (by omega)
  | succ left ih =>
    intro i p n marks hat habove h
    by_cases hk : key n ∈ marks.map fun m => key m.1
    · rw [walk_marked hk]
      exact h.turnedAway hat hk
    · rw [walk_succ hk]
      obtain ⟨hopen, hcame⟩ := h.marks habove hat hk
      have habove' : ∀ q, q <:+ i :: p → q ≠ [] → PlaceIs key refs levels roots true q := by
        intro q hq hne
        rcases List.suffix_cons_iff.mp hq with rfl | hq
        · exact hopen
        · exact habove q hq hne
      have hrefs : ∀ j m, (refs n)[j]? = some m →
          At refs levels roots ((0 + j) :: i :: p) m left := by
        intro j m hm
        rw [Nat.zero_add]
        exact .ref hat hm
      refine (CameTo.each (fun j m marks hatm hm => ih hatm habove' hm) hrefs hcame).leave ?_
      intro j m left' hchild
      cases hchild with
      | ref hp hm =>
        obtain ⟨rfl, -⟩ := hat.unique hp
        rw [Nat.zero_add]
        exact (List.getElem?_eq_some_iff.mp hm).1

variable (key refs levels roots) in
/-- A walk comes to the end of the roots. -/
theorem cameTo_end : CameTo key refs levels roots [roots.length] (walkAll key refs levels roots) := by
  have hstart : CameTo key refs levels roots [0] [] := by
    constructor
    · intro n left hmark
      exact absurd hmark List.not_mem_nil
    · intro q n left hbefore hat
      rcases before_zero.mp hbefore with (⟨hq, hne⟩ | ⟨r, i, j, -, -, hj⟩) | rfl
      · exact absurd (List.suffix_nil.mp hq) hne
      · exact absurd (List.suffix_nil.mp hj) (by simp)
      · exact absurd rfl hat.ne_nil
  have hone : ∀ i n marks, At refs levels roots [i] n levels →
      CameTo key refs levels roots [i] marks →
      CameTo key refs levels roots [i + 1] (walk key refs levels n marks) := by
    intro i n marks hat h
    exact h.walk hat (fun q hq hne => absurd (List.suffix_nil.mp hq) hne)
  have hroots : ∀ j m, roots[j]? = some m → At refs levels roots [0 + j] m levels := by
    intro j m hm
    rw [Nat.zero_add]
    exact .root hm
  have hall := CameTo.each hone hroots hstart
  rwa [Nat.zero_add] at hall

omit [DecidableEq K] in
/-- Every place is before the end of the roots. -/
theorem At.before_end {p : Place} {n : N} {left : Nat} (h : At refs levels roots p n left) :
    Before p [roots.length] := by
  obtain ⟨j, hj⟩ := exists_child List.nil_suffix h.ne_nil
  obtain ⟨m, left', hroot⟩ := h.above hj (by simp)
  cases hroot with
  | root hm =>
    exact .inr ⟨[], j, roots.length, (List.getElem?_eq_some_iff.mp hm).1, hj, List.suffix_rfl⟩
  | ref hp hm => exact absurd rfl hp.ne_nil

variable (key) in
/-- A place is open, and what stands there is marked, or it is shut. -/
theorem At.open_or_shut {p : Place} {n : N} {left : Nat} (h : At refs levels roots p n left) :
    PlaceIs key refs levels roots true p ∧ (n, left) ∈ walkAll key refs levels roots ∨
      PlaceIs key refs levels roots false p :=
  (cameTo_end key refs levels roots).complete p n left h.before_end h

/-- **What is marked is what stands at the open places.** -/
theorem walkAll_marks_iff {n : N} {left : Nat} :
    (n, left) ∈ walkAll key refs levels roots ↔
      ∃ p, PlaceIs key refs levels roots true p ∧ At refs levels roots p n left := by
  constructor
  · intro hmark
    obtain ⟨q, -, hopen, hat⟩ := (cameTo_end key refs levels roots).sound n left hmark
    exact ⟨q, hopen, hat⟩
  · rintro ⟨p, hopen, hat⟩
    rcases hat.open_or_shut key with ⟨-, hmark⟩ | hshut
    · exact hmark
    · exact absurd hshut hopen.not

/-! ### When nothing is in the way -/

omit [DecidableEq K] in
/-- A chain from a place ends at a place. -/
theorem At.of_chain {r left : Nat} : ∀ {p : Place} {a b : N},
    At refs levels roots p a (left + r) → Chain refs r a b →
    ∃ q, At refs levels roots q b left := by
  induction r with
  | zero =>
    rintro p a b hat rfl
    exact ⟨p, hat⟩
  | succ r ih =>
    rintro p a b hat ⟨c, hc, hrest⟩
    obtain ⟨i, hi⟩ := List.mem_iff_getElem?.mp hc
    exact ih (At.ref hat hi) hrest

/-- When a key is met in one spelling and at one depth only, what stands at a place stands at an open
one. -/
theorem exists_open_of_one_way
    (hone : ∀ p q n m left left', At refs levels roots p n left → At refs levels roots q m left' →
      key n = key m → n = m ∧ left = left')
    {p : Place} {n : N} {left : Nat} (h : At refs levels roots p n left) :
    ∃ q, PlaceIs key refs levels roots true q ∧ At refs levels roots q n left := by
  -- an open place with the same node, or the place itself if it is not shut
  have hself : ∀ {p : Place} {n : N} {left : Nat}, At refs levels roots p n left →
      (∀ q, q <:+ p → q ≠ p → q ≠ [] → PlaceIs key refs levels roots true q) →
      ∃ q, PlaceIs key refs levels roots true q ∧ At refs levels roots q n left := by
    intro p n left hat habove
    rcases hat.open_or_shut key with ⟨hopen, -⟩ | hshut
    · exact ⟨p, hopen, hat⟩
    · cases hshut with
      | @shut _ q r n' m left' left'' hq hat' hbefore hatr hkey hopen =>
        by_cases heq : q = p
        · subst heq
          obtain ⟨rfl, rfl⟩ := hat.unique hat'
          obtain ⟨rfl, rfl⟩ := hone r q m n left'' left hatr hat hkey
          exact ⟨r, hopen, hatr⟩
        · have hshut : PlaceIs key refs levels roots false q :=
            .shut List.suffix_rfl hat' hbefore hatr hkey hopen
          exact absurd hshut (habove q hq heq hat'.ne_nil).not
  induction h with
  | @root i n hn =>
    refine hself (.root hn) ?_
    intro q hq hne hnil
    exact absurd (List.suffix_nil.mp ((List.suffix_cons_iff.mp hq).resolve_left hne)) hnil
  | @ref p i left n m hp hm ih =>
    obtain ⟨q, hopen, hat⟩ := ih
    refine hself (.ref hat hm) ?_
    intro q' hq' hne hnil
    by_cases heq : q' = q
    · exact heq ▸ hopen
    · cases hopen with
      | opened _ habove _ =>
        exact habove q' ((List.suffix_cons_iff.mp hq').resolve_left hne) heq hnil

end Places

end Heimdallr.Lib
