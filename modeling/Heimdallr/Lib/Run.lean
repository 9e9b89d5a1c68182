import Mathlib.Logic.Basic

/-!
# Runs of a partial step function

`runAll step acts s` performs the actions one after the other, and is undefined when one of them is
not possible where it is to be performed. A condition on the actions, each in the state it is
performed in, is `Along`.

* `runAll_invariant`: an invariant that the allowed steps keep holds after every allowed run.
* `runAll_exact`: when one step keeps a property exactly if it is allowed, a run keeps it exactly if
  all its steps are; an invariant of all steps may help.
* `runAll_changed`: what looks different after a run, one step of it has changed.
* `Along.at_step`, `Along.and`: what a condition along a run says of one step, and two conditions.
-/

namespace Heimdallr.Lib

variable {A S : Type} (step : A → S → Option S)

/-- Perform the actions in order; `none` when one of them is not possible. -/
def runAll : List A → S → Option S
  | [], s => some s
  | a :: acts, s => (step a s).bind (runAll acts)

/-- Every action is one that `C` allows in the state it is performed in. -/
def Along (C : A → S → Prop) : List A → S → Prop
  | [], _ => True
  | a :: acts, s => C a s ∧ ∀ s', step a s = some s' → Along C acts s'

variable {step} {C C' : A → S → Prop} {I J : S → Prop}

theorem Along.mono (hC : ∀ a s, C a s → C' a s) {acts : List A} {s : S}
    (h : Along step C acts s) : Along step C' acts s := by
  induction acts generalizing s with
  | nil => exact trivial
  | cons a acts ih => exact ⟨hC a s h.1, fun s' hs' => ih (h.2 s' hs')⟩

theorem Along.of_forall (hC : ∀ a s, C a s) (acts : List A) (s : S) : Along step C acts s := by
  induction acts generalizing s with
  | nil => exact trivial
  | cons a acts ih => exact ⟨hC a s, fun s' _ => ih s'⟩

theorem Along.and {acts : List A} {s : S} (h : Along step C acts s) (h' : Along step C' acts s) :
    Along step (fun a s => C a s ∧ C' a s) acts s := by
  induction acts generalizing s with
  | nil => exact trivial
  | cons a acts ih => exact ⟨⟨h.1, h'.1⟩, fun s' hs' => ih (h.2 s' hs') (h'.2 s' hs')⟩

/-- The first step of a run, and the rest. -/
theorem runAll_cons {a : A} {acts : List A} {s s' : S} (h : runAll step (a :: acts) s = some s') :
    ∃ s₁, step a s = some s₁ ∧ runAll step acts s₁ = some s' :=
  Option.bind_eq_some_iff.mp h

theorem runAll_concat {a : A} {acts : List A} {s s₁ s' : S} (hacts : runAll step acts s = some s₁)
    (ha : step a s₁ = some s') : runAll step (acts ++ [a]) s = some s' := by
  induction acts generalizing s with
  | nil =>
    obtain rfl := Option.some.inj hacts
    show (step a s).bind some = _
    rw [ha]
    rfl
  | cons b acts ih =>
    obtain ⟨s₂, hb, hrest⟩ := runAll_cons hacts
    show (step b s).bind _ = _
    rw [hb]
    exact ih hrest

theorem runAll_invariant (hstep : ∀ a s s', I s → C a s → step a s = some s' → I s')
    {acts : List A} {s s' : S} (hI : I s) (hC : Along step C acts s)
    (hrun : runAll step acts s = some s') : I s' := by
  induction acts generalizing s with
  | nil =>
    obtain rfl := Option.some.inj hrun
    exact hI
  | cons a acts ih =>
    obtain ⟨s₁, hs₁, hrest⟩ := runAll_cons hrun
    exact ih (hstep a s s₁ hI hC.1 hs₁) (hC.2 s₁ hs₁) hrest

/-- The same of an invariant that every step keeps. -/
theorem runAll_keeps (hstep : ∀ a s s', I s → step a s = some s' → I s') {acts : List A} {s s' : S}
    (hI : I s) (hrun : runAll step acts s = some s') : I s' :=
  runAll_invariant (C := fun _ _ => True) (fun a s s' hs _ => hstep a s s' hs) hI
    (Along.of_forall (fun _ _ => trivial) acts s) hrun

/-- A step of an allowed run is allowed where it is performed. -/
theorem Along.at_step {earlier later : List A} {a : A} {s s₁ : S}
    (h : Along step C (earlier ++ a :: later) s) (hearlier : runAll step earlier s = some s₁) :
    C a s₁ := by
  induction earlier generalizing s with
  | nil =>
    obtain rfl := Option.some.inj hearlier
    exact h.1
  | cons b earlier ih =>
    obtain ⟨s₂, hb, hrest⟩ := runAll_cons hearlier
    exact ih (h.2 s₂ hb) hrest

/-- What looks different after a run, one step of it has changed. -/
theorem runAll_changed {V : Type} (view : S → V) {acts : List A} {s s' : S}
    (hrun : runAll step acts s = some s') (hne : view s' ≠ view s) :
    ∃ earlier a later s₁ s₂, acts = earlier ++ a :: later ∧ runAll step earlier s = some s₁ ∧
      step a s₁ = some s₂ ∧ view s₂ ≠ view s₁ := by
  induction acts generalizing s with
  | nil =>
    obtain rfl := Option.some.inj hrun
    exact absurd rfl hne
  | cons a acts ih =>
    obtain ⟨s₁, ha, hrest⟩ := runAll_cons hrun
    by_cases hview : view s₁ = view s
    · obtain ⟨earlier, b, later, s₂, s₃, rfl, hearlier, hb, hchanged⟩ := ih hrest (hview ▸ hne)
      refine ⟨a :: earlier, b, later, s₂, s₃, rfl, ?_, hb, hchanged⟩
      show (step a s).bind _ = _
      rw [ha]
      exact hearlier
    · exact ⟨[], a, acts, s, s₁, rfl, rfl, ha, hview⟩

theorem runAll_exact (hJ : ∀ a s s', J s → step a s = some s' → J s')
    (hstep : ∀ a s s', J s → step a s = some s' → (I s' ↔ I s ∧ C a s))
    {acts : List A} {s s' : S} (hs : J s) (hrun : runAll step acts s = some s') :
    I s' ↔ I s ∧ Along step C acts s := by
  induction acts generalizing s with
  | nil =>
    obtain rfl := Option.some.inj hrun
    exact (and_iff_left trivial).symm
  | cons a acts ih =>
    obtain ⟨s₁, hs₁, hrest⟩ := runAll_cons hrun
    rw [ih (hJ a s s₁ hs hs₁) hrest, hstep a s s₁ hs hs₁, and_assoc]
    constructor
    · rintro ⟨hI, ha, hall⟩
      refine ⟨hI, ha, ?_⟩
      intro s₂ hs₂
      obtain rfl : s₁ = s₂ := Option.some.inj (hs₁.symm.trans hs₂)
      exact hall
    · rintro ⟨hI, ha, hall⟩
      exact ⟨hI, ha, hall s₁ hs₁⟩

end Heimdallr.Lib
