import Mathlib.Data.List.Basic
import Mathlib.Logic.Function.Basic

/-!
# Requests that each keep to one place of a store

A store has a content at every place. A request keeps to a place when what it is answered and what
it leaves there depend on the content of that place alone, and it leaves every other place as it
was; a request may also keep to no place at all. Requests that keep to different places do not
interfere, in whatever order they come.

* `KeepsAt`: one request. `keepsAt_read`, `KeepsAt.map`: requests made of others.
* `KeepsTo.alone`: of a sequence of requests, those about one place are answered, and leave it, as
  if the others had not been made.
* `mem_replies`: a reply is that of its request.
* `exists_changed`: what changed in a sequence, one of its requests has changed.
-/

namespace Heimdallr.Lib

variable {A O P K V : Type}

/-! ## One request -/

/-- The request keeps to the place, or to none. -/
structure KeepsAt (f : (K → V) → O × (K → V)) (place : Option K) : Prop where
  reply : ∀ s s', (∀ k, place = some k → s k = s' k) → (f s).1 = (f s').1
  content : ∀ k s s', place = some k → s k = s' k → (f s).2 k = (f s').2 k
  others : ∀ k s, place ≠ some k → (f s).2 k = s k

/-- Reading what depends on one place. -/
theorem keepsAt_read {g : (K → V) → O} {place : Option K}
    (h : ∀ s s', (∀ k, place = some k → s k = s' k) → g s = g s') :
    KeepsAt (fun s => (g s, s)) place :=
  ⟨h, fun _ _ _ _ hs => hs, fun _ _ _ => rfl⟩

/-- Another answer made of the answer. -/
theorem KeepsAt.map {f : (K → V) → O × (K → V)} {place : Option K} (h : KeepsAt f place) (g : O → P) :
    KeepsAt (fun s => (g (f s).1, (f s).2)) place :=
  ⟨fun s s' hs => congrArg g (h.reply s s' hs), h.content, h.others⟩

/-! ## Sequences -/

/-- What the requests are answered, and the state after them. -/
def replies {S : Type} (step : A → S → O × S) : List A → S → List O × S
  | [], s => ([], s)
  | a :: acts, s =>
    let r := step a s
    let rest := replies step acts r.2
    (r.1 :: rest.1, rest.2)

/-- The requests about a place. -/
def about [DecidableEq K] (place : A → Option K) (k : K) (acts : List A) : List A :=
  acts.filter fun a => place a = some k

/-- The requests about a place, with what they are answered. -/
def answersAbout [DecidableEq K] (place : A → Option K) (k : K) (acts : List A) (os : List O) :
    List (A × O) :=
  (acts.zip os).filter fun x => place x.1 = some k

/-- Every request keeps to its place. -/
def KeepsTo (step : A → (K → V) → O × (K → V)) (place : A → Option K) : Prop :=
  ∀ a, KeepsAt (step a) (place a)

namespace KeepsTo

variable {step : A → (K → V) → O × (K → V)} {place : A → Option K}

/-- **Only the requests about a place count for it**: they are answered, and leave it, as if they
were the only ones. -/
theorem alone [DecidableEq K] (h : KeepsTo step place) (k : K) {acts : List A} {s s' : K → V}
    (hs : s k = s' k) :
    answersAbout place k acts (replies step acts s).1 =
        (about place k acts).zip (replies step (about place k acts) s').1 ∧
      (replies step acts s).2 k = (replies step (about place k acts) s').2 k := by
  induction acts generalizing s s' with
  | nil => exact ⟨rfl, hs⟩
  | cons a acts ih =>
    unfold answersAbout about at *
    by_cases ha : place a = some k
    · have hreply : (step a s).1 = (step a s').1 := by
        refine (h a).reply s s' fun k' hk' => ?_
        obtain rfl := Option.some.inj (ha.symm.trans hk')
        exact hs
      obtain ⟨hanswers, hcontent⟩ := ih ((h a).content k s s' ha hs)
      rw [List.filter_cons_of_pos (by simpa using ha)]
      refine ⟨?_, hcontent⟩
      show ((a, (step a s).1) :: acts.zip _).filter _ = _
      rw [List.filter_cons_of_pos (by simpa using ha), hanswers, hreply]
      rfl
    · have hsame : (step a s).2 k = s' k := ((h a).others k s ha).trans hs
      obtain ⟨hanswers, hcontent⟩ := ih hsame
      rw [List.filter_cons_of_neg (by simpa using ha)]
      refine ⟨?_, hcontent⟩
      show ((a, (step a s).1) :: acts.zip _).filter _ = _
      rw [List.filter_cons_of_neg (by simpa using ha), hanswers]

end KeepsTo

/-- A place that has changed, some request has changed, in the state it was made in. -/
theorem exists_changed {step : A → (K → V) → O × (K → V)} (k : K) {acts : List A} {s : K → V}
    (hne : (replies step acts s).2 k ≠ s k) :
    ∃ before a after, acts = before ++ a :: after ∧
      (step a (replies step before s).2).2 k ≠ (replies step before s).2 k := by
  induction acts generalizing s with
  | nil => exact absurd rfl hne
  | cons a acts ih =>
    by_cases hstep : (step a s).2 k = s k
    · have hrest : (replies step acts (step a s).2).2 k ≠ (step a s).2 k := by
        rw [hstep]
        exact hne
      obtain ⟨before, b, after, rfl, hb⟩ := ih hrest
      exact ⟨a :: before, b, after, rfl, hb⟩
    · exact ⟨[], a, acts, rfl, hstep⟩

/-- Every reply is that of its request, in the state the requests before it have left. -/
theorem mem_replies {S : Type} {step : A → S → O × S} {acts : List A} {s : S} {x : A × O}
    (h : x ∈ acts.zip (replies step acts s).1) : ∃ s', x.2 = (step x.1 s').1 := by
  induction acts generalizing s with
  | nil => exact absurd h List.not_mem_nil
  | cons a acts ih =>
    rcases List.mem_cons.mp h with rfl | hrest
    · exact ⟨s, rfl⟩
    · exact ih hrest

end Heimdallr.Lib
