import Mathlib.Data.Set.Defs
import PowerManage.Relational.ReadCommitted

/-!
# Serial histories

A serial history commits one transaction after another, each run with no other
in between.  READ COMMITTED does not promise that the interleaved machine stays
serial: a transaction keeps what it read before others committed.  When every
transaction commits while the rows that its statements read are as they were, the
committed states are those of a serial history.

Main results:

- `Serial`: the databases of serial histories.
- `Traces.run_eq`: a transaction whose rows did not change runs as it did.
- `ExecOnReads.serial`: runs that commit onto the rows read are serial.
-/

namespace PowerManage.Relational

variable {D W K ε α : Type} [Applies W D]

/-- The databases that transactions of allowed calls reach one after another. -/
inductive Serial (C : Client D W K ε α) (allowed : C.Call → Prop) (d₀ : D) : D → Prop where
  | start : Serial C allowed d₀ d₀
  | commit {d d' : D} {call : C.Call} {answer : α} (hd : Serial C allowed d₀ d)
      (hcall : allowed call) (hrun : (C.body call).run d = .ok (answer, d'))
      (hdeferred : C.deferred d' = none) : Serial C allowed d₀ d'

variable {C : Client D W K ε α} {allowed : C.Call → Prop}

/-- Commit calls one after another; `none` when one of them fails. -/
def commitAll (C : Client D W K ε α) : List C.Call → D → Option D
  | [], d => some d
  | call :: calls, d =>
    match (C.body call).run d with
    | .error _ => none
    | .ok (_, d') => if (C.deferred d').isNone then commitAll C calls d' else none

theorem Serial.commitAll {d₀ d d' : D} {calls : List C.Call} (hd : Serial C allowed d₀ d)
    (hcalls : ∀ call ∈ calls, allowed call) (h : commitAll C calls d = some d') :
    Serial C allowed d₀ d' := by
  induction calls generalizing d with
  | nil =>
    cases h
    exact hd
  | cons call calls ih =>
    rw [Relational.commitAll] at h
    cases hrun : (C.body call).run d with
    | error e => simp [hrun] at h
    | ok r =>
      simp [hrun] at h
      exact ih (hd.commit (hcalls call List.mem_cons_self) hrun h.1)
        (List.forall_mem_cons.mp hcalls).2 h.2

/-! ## What a transaction has read -/

/-- A statement that a transaction has executed: what it saw, and which writes of the
transaction were in it. -/
structure Read (D W K ε α : Type) where
  view : D
  pending : List W
  exec : D → Except ε (List W)
  next : D → Prog D W K ε α

section rows

variable {ρ V : Type} (row : D → ρ → V)

/-- The rows that a statement reads: wherever they are as it saw them, it writes the same
and the transaction goes on in the same way. -/
def Read.DecidedBy (r : Read D W K ε α) (rows : Set ρ) : Prop :=
  ∀ d, (∀ k ∈ rows, row d k = row r.view k) →
    r.exec d = r.exec r.view ∧ r.next d = r.next r.view

/-- The rows that a statement read are in a database as it saw them. -/
def Read.Holds (r : Read D W K ε α) (d : D) : Prop :=
  ∃ rows, r.DecidedBy row rows ∧ ∀ k ∈ rows, row d k = row r.view k

variable {row}

end rows

/-- How a transaction got from its body to what is left of it and to its writes. -/
inductive Traces (body : Prog D W K ε α) :
    List (Read D W K ε α) → Prog D W K ε α → List W → Prop where
  | begin : Traces body [] body []
  | exec {reads : List (Read D W K ε α)} {locks : D → List K} {exec : D → Except ε (List W)}
      {next : D → Prog D W K ε α} {ws ws' : List W} {view : D}
      (hbefore : Traces body reads (.stmt locks exec next) ws) (hexec : exec view = .ok ws') :
      Traces body (reads ++ [⟨view, ws, exec, next⟩]) (next view) (ws ++ ws')

/-- Run on a database in which the rows read are as they were, a transaction gets to where
it is, with the same writes. -/
theorem Traces.run_eq {ρ V : Type} {row : D → ρ → V} {body rest : Prog D W K ε α}
    {reads : List (Read D W K ε α)} {ws : List W} (h : Traces body reads rest ws) {d : D}
    (hreads : ∀ r ∈ reads, r.Holds row (applyAll r.pending d)) :
    body.run d = rest.run (applyAll ws d) := by
  induction h with
  | begin => rfl
  | @exec reads locks exec next ws ws' view _ hexec ih =>
    rw [List.forall_mem_append, List.forall_mem_singleton] at hreads
    obtain ⟨rows, hdecided, hrows⟩ := hreads.2
    obtain ⟨hsame, hnext⟩ := hdecided _ hrows
    simp only at hsame hnext
    rw [ih hreads.1, Prog.run, hsame, hexec, hnext, applyAll_append]

namespace ReadCommitted

/-- What the statements of each session's transaction have read, after one more step. -/
def track (s : Sys C) (reads : Nat → List (Read D W K ε α)) (a : Action C) :
    Nat → List (Read D W K ε α) :=
  Function.update reads a.session <|
    match a with
    | .begin _ => []
    | .exec i =>
      match s.sessions i with
      | .active _ (.stmt _ exec next) ws => reads i ++ [⟨s.view ws, ws, exec, next⟩]
      | _ => reads i
    | _ => reads a.session

/-- What holds along a run that commits onto the rows read. -/
structure SerialInv (allowed : C.Call → Prop) (d : D) (s : Sys C)
    (reads : Nat → List (Read D W K ε α)) : Prop where
  committed : Serial C allowed d s.committed
  traced : ∀ i call rest ws, s.sessions i = .active call rest ws →
    Traces (C.body call) (reads i) rest ws

/-- Only the session that moved has to be looked at. -/
theorem SerialInv.update {d : D} {s s' : Sys C} {reads : Nat → List (Read D W K ε α)}
    (h : SerialInv allowed d s reads) {a : Action C} {next : Session C}
    (hsessions : s'.sessions = Function.update s.sessions a.session next)
    (hnext : ∀ call rest ws, next = .active call rest ws →
      Traces (C.body call) (track s reads a a.session) rest ws)
    (hcommitted : Serial C allowed d s'.committed) :
    SerialInv allowed d s' (track s reads a) where
  committed := hcommitted
  traced := by
    intro j call rest ws hj
    rw [hsessions] at hj
    by_cases hja : j = a.session
    · subst hja
      rw [Function.update_self] at hj
      exact hnext call rest ws hj
    · rw [Function.update_of_ne hja] at hj
      unfold track
      rw [Function.update_of_ne hja]
      exact h.traced j call rest ws hj

variable [DecidableEq K]

/-- A run in which every transaction commits onto the rows that its statements read. -/
def ExecOnReads {ρ V : Type} (row : D → ρ → V) :
    Sys C → (Nat → List (Read D W K ε α)) → List (Action C) → Sys C → Prop
  | s, _, [], s' => s = s'
  | s, reads, a :: as, s' => ∃ s₁, step s a = some s₁ ∧
      (a.commits = true → ∀ r ∈ reads a.session, r.Holds row (applyAll r.pending s.committed)) ∧
      ExecOnReads row s₁ (track s reads a) as s'

theorem SerialInv.step {ρ V : Type} {row : D → ρ → V} {d : D} {s s' : Sys C}
    {reads : Nat → List (Read D W K ε α)} {a : Action C} (h : SerialInv allowed d s reads)
    (hallowed : ∀ call, allowed call) (hreads : a.commits = true →
      ∀ r ∈ reads a.session, r.Holds row (applyAll r.pending s.committed))
    (hstep : step s a = some s') : SerialInv allowed d s' (track s reads a) := by
  cases step_cases hstep with
  | invoke _ => exact h.update rfl (by simp) h.committed
  | begin _ =>
    refine h.update rfl ?_ h.committed
    rintro _ _ _ ⟨⟩
    simp only [track, Action.session, Function.update_self]
    exact .begin
  | @exec i call locks exec next ws ws' hactive _ hexec =>
    refine h.update rfl ?_ h.committed
    rintro _ _ _ ⟨⟩
    simp only [track, Action.session, hactive, Function.update_self]
    exact .exec (h.traced i call _ ws hactive) hexec
  | release _ hnext =>
    refine h.update rfl ?_ h.committed
    rintro _ _ _ rfl
    rcases hnext with hnext | ⟨e, hnext⟩ | hnext <;> cases hnext
  | @install _ call answer ws outcome hactive hdeferred _ hcommits =>
    refine h.update rfl (by simp) ?_
    have hrun := (h.traced _ call _ ws hactive).run_eq (hreads hcommits)
    exact h.committed.commit (hallowed call) hrun hdeferred

/-- In a run that commits onto the rows read, every committed state is the result of
running the committed calls one after another. -/
theorem ExecOnReads.serial {ρ V : Type} {row : D → ρ → V} {d : D} {s : Sys C}
    {as : List (Action C)} (hallowed : ∀ call, allowed call)
    (hrun : ExecOnReads row (Sys.init C d) (fun _ => []) as s) :
    Serial C allowed d s.committed := by
  have hfrom : ∀ (as : List (Action C)) (s₀ : Sys C) (reads : Nat → List (Read D W K ε α)),
      SerialInv allowed d s₀ reads → ExecOnReads row s₀ reads as s →
      Serial C allowed d s.committed := by
    intro as
    induction as with
    | nil =>
      rintro s₀ reads h rfl
      exact h.committed
    | cons a as ih =>
      rintro s₀ reads h ⟨s₁, hstep, hreads, hrest⟩
      exact ih s₁ _ (h.step hallowed hreads hstep) hrest
  exact hfrom as _ _ ⟨Serial.start, by simp [Sys.init]⟩ hrun

end ReadCommitted
end PowerManage.Relational
