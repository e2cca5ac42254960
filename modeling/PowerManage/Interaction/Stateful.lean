import Mathlib.Logic.Basic

/-!
# Operations that keep their state when they fail

An operation of `EStateM` returns or fails, and leaves a state in both cases.
`Ends` says what holds of either outcome; its rules follow the operations.

Main results:

- `Ends.bind`: the rule of sequence.
-/

namespace PowerManage.Interaction

variable {ε ε' σ α β : Type}

/-- Fail with what the error of a computation becomes. -/
def orFail (context : ε' → ε) (r : Except ε' α) : EStateM ε σ α := fun s =>
  match r with
  | .ok a => .ok a s
  | .error e => .error (context e) s

/-- Report other errors. -/
def mapFailure (context : ε' → ε) (p : EStateM ε' σ α) : EStateM ε σ α := fun s =>
  match p.run s with
  | .ok a s' => .ok a s'
  | .error e s' => .error (context e) s'

/-- Fail unless a check passes. -/
def ensure (ok : Bool) (e : ε) : EStateM ε σ Unit := fun s =>
  if ok then .ok () s else .error e s

/-- What a computation reads from the state. -/
def inspect (f : σ → Except ε α) : EStateM ε σ α := fun s =>
  match f s with
  | .ok a => .ok a s
  | .error e => .error e s

/-- Go on otherwise after a failure. -/
def handle (p : EStateM ε' σ α) (onError : ε' → EStateM ε σ α) : EStateM ε σ α := fun s =>
  match p.run s with
  | .ok a s' => .ok a s'
  | .error e s' => (onError e).run s'

/-- Clean up after a failure, whatever becomes of that, and fail. -/
def onFailure (p : EStateM ε σ α) (cleanup : EStateM ε' σ Unit) : EStateM ε σ α := fun s =>
  match p.run s with
  | .ok a s' => .ok a s'
  | .error e s' =>
    match cleanup.run s' with
    | .ok _ s'' => .error e s''
    | .error _ s'' => .error e s''

/-- An operation on a part of the state. -/
def zoom {τ : Type} (get : σ → τ) (set : τ → σ → σ) (p : EStateM ε τ α) : EStateM ε σ α := fun s =>
  match p.run (get s) with
  | .ok a t => .ok a (set t s)
  | .error e t => .error e (set t s)

/-- A result and its state satisfy `ok`, or a failure and its state satisfy
`failed`. -/
def Ends (p : EStateM ε σ α) (s : σ) (ok : α → σ → Prop) (failed : ε → σ → Prop) : Prop :=
  match p.run s with
  | .ok a s' => ok a s'
  | .error e s' => failed e s'

instance {p : EStateM ε σ α} {s : σ} {ok : α → σ → Prop} {failed : ε → σ → Prop}
    [∀ a s, Decidable (ok a s)] [∀ e s, Decidable (failed e s)] : Decidable (Ends p s ok failed) :=
  match h : p.run s with
  | .ok a s' => decidable_of_iff (ok a s') (by rw [Ends, h])
  | .error e s' => decidable_of_iff (failed e s') (by rw [Ends, h])

namespace Ends

variable {p : EStateM ε σ α} {s s' : σ} {ok ok' : α → σ → Prop} {failed failed' : ε → σ → Prop}

/-- A value is returned from the state as it is. -/
theorem pure {a : α} (h : ok a s) : Ends (Pure.pure a : EStateM ε σ α) s ok failed :=
  h

/-- An error leaves the state as it is. -/
theorem throw {e : ε} (h : failed e s) : Ends (throw e : EStateM ε σ α) s ok failed :=
  h

/-- Reading returns the state and keeps it. -/
theorem get {ok : σ → σ → Prop} (h : ok s s) : Ends (get : EStateM ε σ σ) s ok failed :=
  h

/-- An update ends in the updated state. -/
theorem modify {f : σ → σ} {ok : Unit → σ → Prop} (h : ok () (f s)) :
    Ends (modify f : EStateM ε σ Unit) s ok failed :=
  h

/-- A pure call ends as its result does, under the context. -/
theorem orFail {context : ε' → ε} {r : Except ε' α} (hok : ∀ a, r = .ok a → ok a s)
    (hfailed : ∀ e, r = .error e → failed (context e) s) :
    Ends (Interaction.orFail context r) s ok failed := by
  cases r with
  | ok a => exact hok a rfl
  | error e => exact hfailed e rfl

/-- A check fails, or changes nothing. -/
theorem ensure {b : Bool} {e : ε} {ok : Unit → σ → Prop} (hok : b = true → ok () s)
    (hfailed : b = false → failed e s) : Ends (Interaction.ensure b e) s ok failed := by
  cases b with
  | true => exact hok rfl
  | false => exact hfailed rfl

/-- A look at the state changes nothing. -/
theorem inspect {f : σ → Except ε α} (hok : ∀ a, f s = .ok a → ok a s)
    (hfailed : ∀ e, f s = .error e → failed e s) : Ends (Interaction.inspect f) s ok failed := by
  simp only [Ends, Interaction.inspect, EStateM.run]
  cases hf : f s with
  | ok a => exact hok a hf
  | error e => exact hfailed e hf

/-- Both outcomes of an operation. -/
theorem elim {P : Prop} (h : Ends p s ok failed) (hok : ∀ a s', p s = .ok a s' → ok a s' → P)
    (hfailed : ∀ e s', p s = .error e s' → failed e s' → P) : P := by
  unfold Ends EStateM.run at h
  cases hp : p s with
  | ok a s' =>
    rw [hp] at h
    exact hok a s' hp h
  | error e s' =>
    rw [hp] at h
    exact hfailed e s' hp h

/-- Wrapping errors changes how a run fails only. -/
theorem mapFailure {context : ε' → ε} {p : EStateM ε' σ α}
    (h : Ends p s ok fun e s' => failed (context e) s') :
    Ends (Interaction.mapFailure context p) s ok failed := by
  refine h.elim ?_ ?_ <;> intro _ _ hp hout <;>
    simpa only [Ends, Interaction.mapFailure, EStateM.run, hp] using hout

/-- A failure is followed by what handles it. -/
theorem handle {p : EStateM ε' σ α} {onError : ε' → EStateM ε σ α}
    (h : Ends p s ok fun e s' => Ends (onError e) s' ok failed) :
    Ends (Interaction.handle p onError) s ok failed := by
  refine h.elim ?_ ?_ <;> intro _ _ hp hout <;>
    simpa only [Ends, Interaction.handle, EStateM.run, hp] using hout

/-- The cleanup may end either way. -/
theorem onFailure {cleanup : EStateM ε' σ Unit} (h : Ends p s ok fun e s' =>
      Ends cleanup s' (fun _ s'' => failed e s'') (fun _ s'' => failed e s'')) :
    Ends (Interaction.onFailure p cleanup) s ok failed := by
  refine h.elim ?_ ?_
  · intro _ _ hp hout
    simpa only [Ends, Interaction.onFailure, EStateM.run, hp] using hout
  · intro _ _ hp hcleanup
    refine hcleanup.elim ?_ ?_ <;> intro _ _ hc hout <;>
      simpa only [Ends, Interaction.onFailure, EStateM.run, hp, hc] using hout

/-- A run on a part of the state leaves the other parts alone. -/
theorem zoom {τ : Type} {get : σ → τ} {set : τ → σ → σ} {p : EStateM ε τ α}
    (h : Ends p (get s) (fun a t => ok a (set t s)) fun e t => failed e (set t s)) :
    Ends (Interaction.zoom get set p) s ok failed := by
  refine h.elim ?_ ?_ <;> intro _ _ hp hout <;>
    simpa only [Ends, Interaction.zoom, EStateM.run, hp] using hout

/-- The rule of consequence. -/
theorem mono (h : Ends p s ok failed) (hok : ∀ a s, ok a s → ok' a s)
    (hfailed : ∀ e s, failed e s → failed' e s) : Ends p s ok' failed' := by
  refine h.elim ?_ ?_ <;> intro _ _ hp hout <;> simp only [Ends, EStateM.run, hp]
  · exact hok _ _ hout
  · exact hfailed _ _ hout

/-- The rule of sequence. -/
theorem bind {f : α → EStateM ε σ β} {ok : β → σ → Prop}
    (h : Ends p s (fun a s' => Ends (f a) s' ok failed) failed) : Ends (p >>= f) s ok failed := by
  refine h.elim ?_ ?_ <;> intro _ _ hp hout <;>
    simpa only [Ends, Bind.bind, EStateM.bind, EStateM.run, hp] using hout

/-- What every run does. -/
theorem of_run (hok : ∀ a s', p.run s = .ok a s' → ok a s')
    (hfailed : ∀ e s', p.run s = .error e s' → failed e s') : Ends p s ok failed := by
  unfold Ends
  cases hp : p.run s with
  | ok a s' => exact hok a s' hp
  | error e s' => exact hfailed e s' hp

/-- A run that returned a value ended as stated. -/
theorem of_ok {a : α} (h : Ends p s ok failed) (hp : p.run s = .ok a s') : ok a s' := by
  unfold Ends at h
  rw [hp] at h
  exact h

end Ends

end PowerManage.Interaction
