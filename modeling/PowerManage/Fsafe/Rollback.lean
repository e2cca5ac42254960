import PowerManage.Interaction.Stateful

/-!
# Compensated steps

`rollback.Run` applies steps in order.  When one fails, those before it are
compensated in reverse; the failing step is not.

Main results:

- `runFrom_cons`: the rule of one step.
- `recovers_cons`: the rule of one compensation.
-/

namespace PowerManage.Rollback

open Interaction

variable {ε σ : Type}

structure Step (ε σ : Type) where
  name : String
  apply : EStateM ε σ Unit
  rollback : EStateM ε σ Unit

/-- The errors of `Run`: a step without a name, or one that failed, with the
compensations that failed after it. -/
inductive Failure (ε : Type) where
  | malformed (step : Nat)
  | failed (step : String) (cause : ε) (undo : List (String × ε))
  deriving DecidableEq, Repr

/-- The message of a failure. -/
def Failure.text (message : ε → String) : Failure ε → String
  | malformed step => s!"rollback: step {step} requires name, apply, and rollback"
  | failed step cause undo =>
    "\n".intercalate ((step ++ ": " ++ message cause) ::
      undo.map fun (name, e) => "rollback " ++ name ++ ": " ++ message e)

/-- The compensation loop, over the applied steps from the last one on: the compensations
that fail, and the state after them. -/
def unwind : List (Step ε σ) → σ → List (String × ε) × σ
  | [], s => ([], s)
  | step :: rest, s =>
    match step.rollback.run s with
    | .ok _ s' => unwind rest s'
    | .error e s' => ((step.name, e) :: (unwind rest s').1, (unwind rest s').2)

/-- The loop of `Run`; `done` are the applied steps, the last one first. -/
def runFrom (done : List (Step ε σ)) : List (Step ε σ) → EStateM (Failure ε) σ Unit
  | [] => pure ()
  | step :: rest => fun s =>
    match step.apply.run s with
    | .ok _ s' => runFrom (step :: done) rest s'
    | .error e s' => .error (.failed step.name e (unwind done s').1) (unwind done s').2

def run (steps : List (Step ε σ)) : EStateM (Failure ε) σ Unit := fun s =>
  match steps.findIdx? (·.name = "") with
  | some i => .error (.malformed (i + 1)) s
  | none => runFrom [] steps s

/-! ## Rules -/

variable {done rest : List (Step ε σ)} {step : Step ε σ} {s : σ} {ok : Unit → σ → Prop}

/-- Compensation of the applied steps, if all of it succeeds, leads to a good state. -/
def Recovers (done : List (Step ε σ)) (good : σ → Prop) (s : σ) : Prop :=
  (unwind done s).1 = [] → good (unwind done s).2

/-- The failure is that of a step, and leaves a good state if no compensation failed. -/
def Compensated (good : String → ε → σ → Prop) : Failure ε → σ → Prop
  | .malformed _, _ => False
  | .failed step cause undo, s => undo = [] → good step cause s

theorem recovers_nil {good : σ → Prop} (h : good s) : Recovers ([] : List (Step ε σ)) good s :=
  fun _ => h

/-- The last applied step is compensated first. -/
theorem recovers_cons {good : σ → Prop}
    (h : Ends step.rollback s (fun _ s' => Recovers done good s') fun _ _ => True) :
    Recovers (step :: done) good s := by
  unfold Ends at h
  unfold Recovers unwind
  cases hundo : step.rollback.run s with
  | ok _ s' =>
    rw [hundo] at h
    exact h
  | error e s' => simp

variable {good : String → ε → σ → Prop}

/-- A step goes on to the next, or ends the run with the compensation of those before. -/
theorem runFrom_cons (h : Ends step.apply s
      (fun _ s' => Ends (runFrom (step :: done) rest) s' ok (Compensated good))
      fun e s' => Recovers done (good step.name e) s') :
    Ends (runFrom done (step :: rest)) s ok (Compensated good) := by
  unfold Ends at h ⊢
  simp only [runFrom, EStateM.run] at h ⊢
  cases happly : step.apply s with
  | ok _ s' =>
    rw [happly] at h
    exact h
  | error e s' =>
    rw [happly] at h
    exact h

theorem ends_run {steps : List (Step ε σ)} (hnamed : steps.findIdx? (·.name = "") = none)
    (h : Ends (runFrom [] steps) s ok (Compensated good)) :
    Ends (run steps) s ok (Compensated good) := by
  unfold Ends at h ⊢
  simp only [run, hnamed, EStateM.run] at h ⊢
  exact h

end PowerManage.Rollback
