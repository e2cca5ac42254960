import PowerManage.Store.Log

/-!
# Whole transactions

An append call as one step: its transaction body, run with no other in between,
and the constraints that are checked at its commit.

Main results:

- `transact_extends`: a committed transaction extends the log.
-/

namespace PowerManage.Store

open Relational

variable {B T W K : Type} [Applies W T] {R : Registry B T W K} {d d' : Database B T}

/-- Commit an append call, or report why it failed. -/
def transact (R : Registry B T W K) (call : AppendCall B T) (d : Database B T) :
    Except StoreError (Database B T) := do
  let (_, d') ← (call.body R).run d
  match R.deferred d'.tables with
  | some e => .error (call.onRefused e)
  | none => .ok d'

theorem transact_ok {call : AppendCall B T} (h : transact R call d = .ok d') :
    (call.body R).run d = .ok ((), d') ∧ R.deferred d'.tables = none := by
  rw [transact, bind_eq_ok] at h
  obtain ⟨⟨_, d₁⟩, hrun, h⟩ := h
  dsimp only at h
  split at h
  · cases h
  · rename_i hdeferred
    cases h
    exact ⟨hrun, hdeferred⟩

/-- A committed transaction extends the log. -/
theorem transact_extends {call : AppendCall B T} (hcont : Contiguous d.events)
    (h : transact R call d = .ok d') : ∃ es, Extends R (fun _ => True) d es d' := by
  have hbuilds : call.Builds fun _ => True := by
    cases call <;> simp [AppendCall.Builds]
  exact body_extends hbuilds hcont (transact_ok h).1

end PowerManage.Store
