import Heimdallr.Lib.Run
import Mathlib.Data.List.Basic

/-!
# Concurrent calls that read, compute and write

A call reads the shared state, computes what to write from what it has read, and writes later.
Between the two steps other calls may take theirs, so a call may write what it has computed from a
state that is gone.

* `Calls.exec`: a call with nothing in between.
* `Calls.step`: one step of one of several calls. A call has not read yet, has read and not written,
  or is done; what it has read is part of the state.
* **`Calls.serial_of_unchanged`**: when every call writes into the state it has read, the calls come
  to what they come to one after the other, in the order of their writes.
-/

namespace Heimdallr.Lib

/-- What call `i` makes of the state it reads: it fails, it is done, or it is to write something. -/
structure Calls (ι S W : Type) where
  plan : ι → S → Option (Option W)
  write : W → S → S

/-- A call that has read `read` and is to write `content`. -/
structure Waiting (ι S W : Type) where
  call : ι
  read : S
  content : W

/-- The shared state, the calls that have read and not yet written, and those that are done, in the
order they were. -/
structure Interleaved (ι S W : Type) where
  state : S
  waiting : List (Waiting ι S W) := []
  done : List ι := []

/-- The two steps of a call. -/
inductive CallStep (ι : Type)
  | load (i : ι)
  | store (i : ι)
  deriving DecidableEq

/-- The calls that are started by these steps. -/
def started {ι : Type} : List (CallStep ι) → List ι
  | [] => []
  | .load i :: steps => i :: started steps
  | .store _ :: steps => started steps

namespace Calls

variable {ι S W : Type} (c : Calls ι S W)

/-- A call with nothing in between. -/
def exec (i : ι) (s : S) : Option S :=
  (c.plan i s).map fun w => w.elim s fun w => c.write w s

variable [DecidableEq ι]

/-- One step of one call. A call that fails has no step, and one that has nothing to write is done
when it has read. -/
def step : CallStep ι → Interleaved ι S W → Option (Interleaved ι S W)
  | .load i, s =>
    (c.plan i s.state).map fun w =>
      match w with
      | none => { s with done := s.done ++ [i] }
      | some w => { s with waiting := s.waiting ++ [⟨i, s.state, w⟩] }
  | .store i, s =>
    (s.waiting.find? fun p => p.call = i).map fun p =>
      { state := c.write p.content s.state
        waiting := s.waiting.eraseP fun p => p.call = i
        done := s.done ++ [i] }

/-- The call that writes has read the state as it is now. -/
def Unchanged : CallStep ι → Interleaved ι S W → Prop
  | .load _, _ => True
  | .store i, s => ∀ p, (s.waiting.find? fun p => p.call = i) = some p → p.read = s.state

/-- The calls that are done come to the state when they run one after the other, and those that
wait are to write what they have computed. -/
structure Serial (s₀ : S) (s : Interleaved ι S W) : Prop where
  done : runAll c.exec s.done s₀ = some s.state
  waiting : ∀ p ∈ s.waiting, c.plan p.call p.read = some (some p.content)

variable {c} {s₀ : S} {s s' : Interleaved ι S W}

omit [DecidableEq ι] in
theorem exec_of_plan {i : ι} {s : S} {w : Option W} (h : c.plan i s = some w) :
    c.exec i s = some (w.elim s fun w => c.write w s) := by
  unfold exec
  rw [h]
  rfl

theorem step_serial {a : CallStep ι} (h : c.Serial s₀ s) (hunchanged : Unchanged a s)
    (hstep : c.step a s = some s') : c.Serial s₀ s' := by
  cases a with
  | load i =>
    obtain ⟨w, hplan, rfl⟩ := Option.map_eq_some_iff.mp hstep
    cases w with
    | none => exact ⟨runAll_concat h.done (exec_of_plan hplan), h.waiting⟩
    | some w =>
      refine ⟨h.done, fun p hp => ?_⟩
      rcases List.mem_append.mp hp with hold | hnew
      · exact h.waiting p hold
      · obtain rfl := List.mem_singleton.mp hnew
        exact hplan
  | store i =>
    obtain ⟨p, hfind, rfl⟩ := Option.map_eq_some_iff.mp hstep
    have hcall : p.call = i := by simpa using List.find?_some hfind
    -- what it read is what is there, so its write is that of the call run now
    have hplan := h.waiting p (List.mem_of_find?_eq_some hfind)
    rw [hcall, hunchanged p hfind] at hplan
    refine ⟨runAll_concat h.done (exec_of_plan hplan), fun q hq => ?_⟩
    exact h.waiting q (List.mem_of_mem_eraseP hq)

/-- A step takes a started call from waiting to done, or starts one. -/
theorem step_calls {a : CallStep ι} (hstep : c.step a s = some s') :
    (s'.done ++ s'.waiting.map Waiting.call).Perm
      (s.done ++ s.waiting.map Waiting.call ++ started [a]) := by
  cases a with
  | load i =>
    obtain ⟨w, hplan, rfl⟩ := Option.map_eq_some_iff.mp hstep
    cases w with
    | none =>
      show (s.done ++ [i] ++ _).Perm (s.done ++ _ ++ [i])
      rw [List.append_assoc, List.append_assoc]
      exact List.perm_append_comm.append_left s.done
    | some w => simp [started]
  | store i =>
    obtain ⟨p, hfind, rfl⟩ := Option.map_eq_some_iff.mp hstep
    have hpos := List.find?_some hfind
    obtain ⟨q, front, back, -, hq, hwaiting, herase⟩ :=
      List.exists_of_eraseP (p := fun p => decide (p.call = i)) (List.mem_of_find?_eq_some hfind) hpos
    have hcall : q.call = i := by simpa using hq
    show (s.done ++ [i] ++ (s.waiting.eraseP _).map Waiting.call).Perm
      (s.done ++ s.waiting.map Waiting.call ++ [])
    rw [herase, hwaiting, List.map_append, List.map_append, List.map_cons, hcall, List.append_nil,
      List.append_assoc, List.singleton_append]
    exact List.perm_middle.symm.append_left s.done

theorem runAll_calls {steps : List (CallStep ι)} (hrun : runAll c.step steps s = some s') :
    (s'.done ++ s'.waiting.map Waiting.call).Perm
      (s.done ++ s.waiting.map Waiting.call ++ started steps) := by
  induction steps generalizing s with
  | nil =>
    obtain rfl := Option.some.inj hrun
    rw [started, List.append_nil]
  | cons a steps ih =>
    obtain ⟨s₁, hs₁, hrest⟩ := runAll_cons hrun
    have hsteps : started (a :: steps) = started [a] ++ started steps := by
      cases a <;> rfl
    rw [hsteps, ← List.append_assoc]
    exact (ih hrest).trans ((step_calls hs₁).append_right _)

/-- **No update is lost when no call writes over what it has not read.** -/
theorem serial_of_unchanged {steps : List (CallStep ι)}
    (hunchanged : Along c.step Unchanged steps { state := s₀ })
    (hrun : runAll c.step steps { state := s₀ } = some s') (hdone : s'.waiting = []) :
    ∃ order, order.Perm (started steps) ∧ runAll c.exec order s₀ = some s'.state := by
  have hinit : c.Serial s₀ { state := s₀ } := ⟨rfl, fun p hp => by cases hp⟩
  have hserial : c.Serial s₀ s' :=
    runAll_invariant (fun a s s' hs hC hstep => step_serial hs hC hstep) hinit hunchanged hrun
  refine ⟨s'.done, ?_, hserial.done⟩
  have hcalls := runAll_calls hrun
  rw [hdone] at hcalls
  simpa using hcalls

/-- The steps of these calls, one call after the other. -/
def oneByOne (order : List ι) : List (CallStep ι) := order.flatMap fun i => [.load i, .store i]

/-- A call that is alone writes into what it has read. -/
theorem unchanged_oneByOne (order : List ι) (h : s.waiting = []) :
    Along c.step Unchanged (oneByOne order) s := by
  induction order generalizing s with
  | nil => exact trivial
  | cons i order ih =>
    refine ⟨trivial, fun s₁ hs₁ => ?_⟩
    obtain ⟨w, -, rfl⟩ := Option.map_eq_some_iff.mp hs₁
    cases w with
    | none =>
      -- the call is done, and there is nothing for its second step to do
      refine ⟨fun p hp => ?_, fun s₂ hs₂ => ?_⟩
      · simp [h] at hp
      · simp [step, h] at hs₂
    | some w =>
      refine ⟨fun p hp => ?_, fun s₂ hs₂ => ih ?_⟩
      · simp only [h, List.nil_append, List.find?_singleton, decide_true, if_true] at hp
        rw [← Option.some.inj hp]
      · obtain ⟨p, -, rfl⟩ := Option.map_eq_some_iff.mp hs₂
        simp [h]

end Calls

end Heimdallr.Lib
