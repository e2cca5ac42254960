import Mathlib.Data.List.Count
import Mathlib.Data.List.MinMax
import Mathlib.Data.Prod.Lex
import Mathlib.Data.String.Basic
import PowerManage.Store.Text
import PowerManage.Text.Utf8

/-!
# The durable work queue

Projectors enqueue work in their append transaction; any number of workers drain
it.  A worker's transaction takes the queue's advisory lock, claims the first due
item, runs its handler and then deletes the item or records the failure, so that
a transaction that does not commit leaves the item as it was.

Main results:

- `zero_mem_boundedWorkError`: the bounded error text holds a zero
  byte exactly when one stands early enough in the handler's text.
- `work_until_success`: items leave the queue by success only,
  attempts count the recorded failures, and a failure is recorded exactly when
  its text has no such byte.
-/

namespace PowerManage.Store

open List
open Function (update_of_ne)

/-! ## Work and its checks -/

/-- `Work`; no payload and no run time stand for Go's zero values. -/
structure Work where
  kind : String
  payloadVersion : Int
  payload : Option Bytes
  runAt : Option Int
  maxAttempts : Int
  deriving DecidableEq, Repr

def maxWorkAttempts : Int := 100

def maxWorkKindBytes : Nat := 128

def maxWorkPayloadBytes : Nat := 2 * 2 ^ 20

def maxWorkErrorBytes : Nat := 4096

def validateWorkKind (kind : String) : Except String Unit :=
  if trimSpace kind = "" then .error "store: work kind is empty"
  else if byteLen kind > maxWorkKindBytes then
    .error ("store: work kind exceeds " ++ toString maxWorkKindBytes ++ " bytes")
  else .ok ()

def validateWork (work : Work) : Except String Unit := do
  validateWorkKind work.kind
  if work.payloadVersion ≤ 0 then .error "store: work payload version must be positive"
  else
    match work.payload with
    | none => .error "store: work payload is nil"
    | some payload =>
      if payload.length > maxWorkPayloadBytes then
        .error ("store: work payload exceeds " ++ toString maxWorkPayloadBytes ++ " bytes")
      else if work.runAt = none then .error "store: work run time is zero"
      else if work.maxAttempts ≤ 0 ∨ work.maxAttempts > maxWorkAttempts then
        .error ("store: work maximum attempts must be between 1 and " ++ toString maxWorkAttempts)
      else .ok ()

/-! ## Error texts -/

/-- `strings.ToValidUTF8` with the replacement character. -/
def toValidUTF8 (text : Bytes) : Bytes :=
  Utf8.toValid [0xEF, 0xBF, 0xBD] text

/-- `boundedWorkError`, on the bytes of the handler's error text. -/
def boundedWorkError (text : Bytes) : Bytes :=
  if (toValidUTF8 text).length ≤ maxWorkErrorBytes then toValidUTF8 text
  else Utf8.trim (toValidUTF8 text) maxWorkErrorBytes

/-- What Postgres accepts as `last_error`: UTF-8 without a zero byte, bounded by
the check constraint. -/
def storableError (text : Bytes) : Bool :=
  Utf8.valid text && !text.contains 0 && text.length ≤ maxWorkErrorBytes

/-- A zero byte is preceded by at least 4096 bytes, stray bytes replaced. -/
def NoEarlyZero (text : Bytes) : Prop :=
  ∀ before after, text = before ++ 0 :: after → maxWorkErrorBytes ≤ (toValidUTF8 before).length

theorem valid_toValidUTF8 (text : Bytes) : Utf8.valid (toValidUTF8 text) = true :=
  Utf8.valid_toValid (by decide) text

/-- A bounded message is a valid beginning of the whole one, and it fits. -/
theorem boundedWorkError_eq_take (text : Bytes) :
    ∃ k, boundedWorkError text = (toValidUTF8 text).take k ∧
      (boundedWorkError text).length ≤ maxWorkErrorBytes ∧
      Utf8.valid (boundedWorkError text) = true := by
  have hvalid := valid_toValidUTF8 text
  unfold boundedWorkError
  by_cases hfits : (toValidUTF8 text).length ≤ maxWorkErrorBytes
  · simp only [hfits, if_true]
    exact ⟨_, take_length.symm, trivial, hvalid⟩
  · obtain ⟨k, hk, htrim, hvalid'⟩ := Utf8.trim_eq_take (toValidUTF8 text) maxWorkErrorBytes
    simp only [hfits, if_false, htrim]
    exact ⟨k, rfl, by rw [length_take]; omega, hvalid'⟩

/-- A valid beginning of the message that fits is kept. -/
theorem take_boundedWorkError {text : Bytes} {k : Nat} (hk : k ≤ maxWorkErrorBytes)
    (hvalid : Utf8.valid ((toValidUTF8 text).take k) = true) :
    (boundedWorkError text).take k = (toValidUTF8 text).take k := by
  unfold boundedWorkError
  by_cases hfits : (toValidUTF8 text).length ≤ maxWorkErrorBytes
  · simp only [hfits, if_true]
  · simp only [hfits, if_false]
    exact Utf8.take_trim hk hvalid

/-- The bounded text holds no zero byte exactly when none stands early in the text. -/
theorem zero_mem_boundedWorkError (text : Bytes) :
    0 ∉ boundedWorkError text ↔ NoEarlyZero text := by
  constructor
  · intro hnone before after htext
    by_contra hearly
    -- The text up to the zero byte is valid, fits and is therefore kept.
    have hsplit : toValidUTF8 text = (toValidUTF8 before ++ [0]) ++ toValidUTF8 after := by
      rw [htext, append_assoc]
      exact Utf8.toValid_append_zero _ before after
    have hlength : (toValidUTF8 before ++ [0]).length ≤ maxWorkErrorBytes := by
      rw [length_append, length_singleton]
      omega
    have htake : (toValidUTF8 text).take (toValidUTF8 before ++ [0]).length =
        toValidUTF8 before ++ [0] := by
      rw [hsplit, take_left]
    have hvalid : Utf8.valid (toValidUTF8 before ++ [0]) = true := by
      rw [Utf8.valid_append (valid_toValidUTF8 before)]
      decide
    have hkept := take_boundedWorkError hlength (htake ▸ hvalid)
    rw [htake] at hkept
    apply hnone
    apply mem_of_mem_take
    rw [hkept]
    simp
  · intro hlate hzero
    obtain ⟨k, heq, hfits, -⟩ := boundedWorkError_eq_take text
    have hmessage : (0 : UInt8) ∈ toValidUTF8 text := by
      rw [heq] at hzero
      exact mem_of_mem_take hzero
    have hreplacement : (0 : UInt8) ∉ [0xEF, 0xBF, 0xBD] := by decide
    have hmem : (0 : UInt8) ∈ text := by
      by_contra hnone
      exact Utf8.zero_mem_toValid hreplacement hnone hmessage
    -- Before the first zero byte the message has none, so it ends before that byte.
    obtain ⟨before, after, htext, hbefore⟩ := eq_append_cons_of_mem hmem
    have hsplit : toValidUTF8 text = toValidUTF8 before ++ 0 :: toValidUTF8 after := by
      rw [htext]
      exact Utf8.toValid_append_zero _ before after
    have hshort : (boundedWorkError text).length ≤ (toValidUTF8 before).length :=
      hfits.trans (hlate before after htext)
    have hstart : boundedWorkError text = (toValidUTF8 before).take k := by
      rw [heq, hsplit, take_append_of_le_length]
      rw [heq, hsplit, length_take, length_append] at hshort
      simp at hshort
      omega
    rw [hstart] at hzero
    exact Utf8.zero_mem_toValid hreplacement hbefore (mem_of_mem_take hzero)

/-- Postgres accepts the bounded text exactly when no zero byte stands early in the text. -/
theorem storableError_iff (text : Bytes) :
    storableError (boundedWorkError text) = true ↔ NoEarlyZero text := by
  obtain ⟨k, -, hfits, hvalid⟩ := boundedWorkError_eq_take text
  rw [← zero_mem_boundedWorkError]
  simp [storableError, hfits, hvalid]

/-! ## Items -/

/-- The primary key of `work_items`: the source event and the kind. -/
structure WorkKey where
  sourceStreamType : String
  sourceStreamID : String
  sourceStreamVersion : Nat
  kind : String
  deriving DecidableEq, Repr

/-- The other columns of `work_items`. -/
structure WorkItem where
  payloadVersion : Int
  payload : Bytes
  runAt : Int
  attempts : Nat
  maxAttempts : Nat
  nextAttemptAt : Option Int
  lastError : Option Bytes
  createdAt : Int
  deriving DecidableEq, Repr

/-- The `WHERE` clause of `ClaimDueWork`. -/
def WorkItem.due (now : Int) (i : WorkItem) : Bool :=
  i.attempts < i.maxAttempts && i.runAt ≤ now && i.nextAttemptAt.all (· ≤ now)

/-- The `ORDER BY` clause of `ClaimDueWork`. -/
def WorkItem.claimOrder (k : WorkKey) (i : WorkItem) :
    Int ×ₗ Int ×ₗ String ×ₗ String ×ₗ Nat ×ₗ String :=
  toLex (i.nextAttemptAt.getD i.runAt, toLex (i.createdAt, toLex (k.sourceStreamType,
    toLex (k.sourceStreamID, toLex (k.sourceStreamVersion, k.kind)))))

/-- Sort keys are compared column by column. -/
instance claimOrderPreorder : Preorder (Int ×ₗ Int ×ₗ String ×ₗ String ×ₗ Nat ×ₗ String) :=
  (inferInstance : LinearOrder (Int ×ₗ Int ×ₗ String ×ₗ String ×ₗ Nat ×ₗ String)).toPreorder

/-- The row that `InsertWork` writes for accepted work. -/
def newWorkItem (now : Int) (work : Work) : WorkItem where
  payloadVersion := work.payloadVersion
  payload := work.payload.getD []
  runAt := work.runAt.getD 0
  attempts := 0
  maxAttempts := work.maxAttempts.toNat
  nextAttemptAt := none
  lastError := none
  createdAt := now

def workRetryBaseDelay : Int := 5

def workRetryMaxDelay : Int := 3600

/-- The loop of `workRetryDelay`, in seconds. -/
def workRetryDelayLoop : Nat → Int → Int
  | 0, delay => delay
  | n + 1, delay =>
    if delay < workRetryMaxDelay then
      if delay * 2 > workRetryMaxDelay then workRetryMaxDelay
      else workRetryDelayLoop n (delay * 2)
    else delay

def workRetryDelay (attempt : Nat) : Int :=
  workRetryDelayLoop (attempt - 1) workRetryBaseDelay

/-! ## Workers -/

/-- How far a call of `RunOnce` has come. -/
inductive WorkerPhase where
  | idle
  | locked
  | handling (key : WorkKey) (item : WorkItem)
  | returned (key : WorkKey) (item : WorkItem) (result : Except Bytes Unit)
  deriving DecidableEq, Repr

/-- The queue's table and lock, its workers, and a record of what happened. -/
structure QueueState where
  items : WorkKey → Option WorkItem
  holder : Option Nat
  workers : Nat → WorkerPhase
  /-- Every key that was ever inserted. -/
  enqueued : List WorkKey
  /-- The handler invocations that have returned, with their results. -/
  invocations : List (WorkKey × Except Bytes Unit)
  /-- The items whose failed invocation was committed, once per invocation. -/
  failures : List WorkKey

/-- The configured queue: the kinds with a handler, and the error for any other kind. -/
structure WorkQueue where
  handlers : List String
  noHandler : String → Bytes

/-- What a handler does. -/
inductive HandlerOutcome where
  | succeeded
  | failed (text : Bytes)
  | panicked
  deriving DecidableEq, Repr

/-- What the commit of a worker's transaction does. -/
inductive FinishOutcome where
  | committed
  /-- The database committed, and the worker saw an error. -/
  | unknown
  | rolledBack
  deriving DecidableEq, Repr

/-- One step of the environment. -/
inductive QueueAction where
  /-- An append transaction with an enqueuing projector commits. -/
  | enqueue (now : Int) (key : WorkKey) (work : Work)
  /-- A worker begins its transaction and tries the lock. -/
  | begin (worker : Nat)
  /-- A worker claims an item; rows locked by other sessions are skipped. -/
  | claim (worker : Nat) (now : Int) (rowLocked : WorkKey → Bool)
  | handle (worker : Nat) (outcome : HandlerOutcome)
  | finish (worker : Nat) (now : Int) (outcome : FinishOutcome)
  /-- A worker or its connection dies, or its deadline passes. -/
  | abort (worker : Nat)

namespace QueueState

def init : QueueState where
  items := fun _ => none
  holder := none
  workers := fun _ => .idle
  enqueued := []
  invocations := []
  failures := []

def claimDueWork (s : QueueState) (now : Int) (rowLocked : WorkKey → Bool) :
    Option (WorkKey × WorkItem) :=
  (s.enqueued.filterMap fun k =>
    (s.items k).bind fun i => if i.due now && !rowLocked k then some (k, i) else none).argmin
      fun claim => claim.2.claimOrder claim.1

/-- The end of a worker's transaction. -/
def release (s : QueueState) (worker : Nat) : QueueState :=
  { s with
    holder := none
    workers := Function.update s.workers worker .idle }

def setWorker (s : QueueState) (worker : Nat) (phase : WorkerPhase) : QueueState :=
  { s with workers := Function.update s.workers worker phase }

/-- The table with a new item. -/
def addItem (s : QueueState) (key : WorkKey) (item : WorkItem) : QueueState :=
  { s with
    items := Function.update s.items key (some item)
    enqueued := key :: s.enqueued }

/-- A handler invocation has returned. -/
def addInvocation (s : QueueState) (key : WorkKey) (result : Except Bytes Unit) : QueueState :=
  { s with invocations := (key, result) :: s.invocations }

/-- The row after one more failure. -/
def failItem (s : QueueState) (key : WorkKey) (item : WorkItem) (nextAttemptAt : Int)
    (lastError : Bytes) : QueueState :=
  { s with
    items := Function.update s.items key (some
      { item with
        attempts := item.attempts + 1
        nextAttemptAt := some nextAttemptAt
        lastError := some lastError })
    failures := key :: s.failures }

/-- `RecordWorkFailure` and the check of the attempts it returns; `none` when the
statement or the check fails. -/
def recordWorkFailure (s : QueueState) (now : Int) (key : WorkKey) (claimed : WorkItem)
    (text : Bytes) : Option QueueState :=
  match s.items key with
  | none => none
  | some item =>
    if storableError (boundedWorkError text) ∧ item.attempts + 1 ≤ item.maxAttempts ∧
        item.attempts + 1 = claimed.attempts + 1 then
      some (s.failItem key item (now + workRetryDelay (claimed.attempts + 1))
        (boundedWorkError text))
    else none

/-- The table without an item. -/
def removeItem (s : QueueState) (key : WorkKey) : QueueState :=
  { s with items := Function.update s.items key none }

/-- `CompleteWork` and the check that it deleted one row. -/
def completeWork (s : QueueState) (key : WorkKey) : Option QueueState :=
  match s.items key with
  | none => none
  | some _ => some (s.removeItem key)

/-- The statement that ends a worker's transaction. -/
def settle (s : QueueState) (now : Int) (key : WorkKey) (item : WorkItem) :
    Except Bytes Unit → Option QueueState
  | .ok _ => s.completeWork key
  | .error text => s.recordWorkFailure now key item text

end QueueState

/-- The error of an invocation, or none. -/
def WorkQueue.result (q : WorkQueue) (kind : String) (outcome : HandlerOutcome) :
    Except Bytes Unit :=
  if q.handlers.contains kind then
    match outcome with
    | .succeeded => .ok ()
    | .failed text => .error text
    | .panicked => .error "work handler panicked".toUTF8.toList
  else .error (q.noHandler kind)

/-- One step of the queue; `none` when it is not possible. -/
def WorkQueue.step (q : WorkQueue) (s : QueueState) : QueueAction → Option QueueState
  | .enqueue now key work =>
    -- The source event is new, so its work was never inserted before.
    if validateWork work = .ok () ∧ key.kind = work.kind ∧ key ∉ s.enqueued then
      some (s.addItem key (newWorkItem now work))
    else none
  | .begin worker =>
    if s.workers worker = .idle then
      if s.holder = none then
        some { s.setWorker worker .locked with holder := some worker }
      else some s
    else none
  | .claim worker now rowLocked =>
    if s.workers worker = .locked then
      match s.claimDueWork now rowLocked with
      | none => some (s.release worker)
      | some (key, item) => some (s.setWorker worker (.handling key item))
    else none
  | .handle worker outcome =>
    match s.workers worker with
    | .handling key item =>
      some ((s.addInvocation key (q.result key.kind outcome)).setWorker worker
        (.returned key item (q.result key.kind outcome)))
    | _ => none
  | .finish worker now outcome =>
    match s.workers worker with
    | .returned key item result =>
      match outcome, s.settle now key item result with
      | .rolledBack, _ | _, none => some (s.release worker)
      | _, some s' => some (s'.release worker)
    | _ => none
  | .abort worker => if s.workers worker = .idle then none else some (s.release worker)

/-- The states that a queue passes through from a given one. -/
inductive WorkQueue.Reaches (q : WorkQueue) (s : QueueState) : QueueState → Prop where
  | refl : q.Reaches s s
  | step {s' s'' : QueueState} {a : QueueAction} : q.Reaches s s' → q.step s' a = some s'' →
      q.Reaches s s''

/-! ## Invariants -/

open QueueState

namespace QueueState

variable {s : QueueState} {key : WorkKey} {item : WorkItem} {w worker : Nat}

/-- A claimed item is stored and has an attempt left. -/
theorem claimDueWork_some {now : Int} {rowLocked : WorkKey → Bool}
    (h : s.claimDueWork now rowLocked = some (key, item)) :
    s.items key = some item ∧ item.attempts < item.maxAttempts := by
  have hmem := argmin_mem h
  rw [mem_filterMap] at hmem
  obtain ⟨k, -, hk⟩ := hmem
  obtain ⟨i, hi, hclaim⟩ := Option.bind_eq_some_iff.mp hk
  rw [Option.ite_none_right_eq_some, Option.some.injEq, Prod.mk.injEq] at hclaim
  obtain ⟨hdue, rfl, rfl⟩ := hclaim
  simp [WorkItem.due] at hdue
  exact ⟨hi, hdue.1.1.1⟩

/-- The item that a worker has in hand. -/
def claims (s : QueueState) (worker : Nat) (key : WorkKey) (item : WorkItem) : Prop :=
  s.workers worker = .handling key item ∨ ∃ result, s.workers worker = .returned key item result

/-- The table agrees with the record of what happened. -/
structure Recorded (s : QueueState) : Prop where
  known : ∀ key item, s.items key = some item → key ∈ s.enqueued
  counted : ∀ key item, s.items key = some item →
    item.attempts = s.failures.count key ∧ item.attempts ≤ item.maxAttempts
  /-- Only an item that was inserted can have failed. -/
  failed : ∀ key ∈ s.failures, key ∈ s.enqueued
  removed : ∀ key ∈ s.enqueued, s.items key = none → (key, .ok ()) ∈ s.invocations

/-- What holds in every reachable state. -/
structure Inv (s : QueueState) : Prop extends Recorded s where
  /-- Only the holder of the lock has a transaction open. -/
  exclusive : ∀ worker, s.workers worker ≠ .idle → s.holder = some worker
  /-- An item in hand is stored as it was claimed. -/
  claimed : ∀ worker key item, s.claims worker key item →
    s.items key = some item ∧ item.attempts < item.maxAttempts
  recorded : ∀ worker key item result, s.workers worker = .returned key item result →
    (key, result) ∈ s.invocations

theorem inv_init : Inv init where
  exclusive := fun _ h => absurd rfl h
  claimed := fun _ _ _ h => by rcases h with h | ⟨_, h⟩ <;> cases h
  recorded := fun _ _ _ _ h => by cases h
  known := fun _ _ h => by cases h
  counted := fun _ _ h => by cases h
  failed := fun _ h => by cases h
  removed := fun _ h => by cases h

/-- The phase of a worker after another phase was set. -/
theorem workers_setWorker {phase : WorkerPhase} :
    (s.setWorker worker phase).workers w = if w = worker then phase else s.workers w := by
  by_cases hw : w = worker
  · subst hw
    simp [setWorker]
  · simp [setWorker, hw]

/-- A state in which one worker at most has a transaction open. -/
theorem Inv.of_phase {phase : WorkerPhase} (hrecord : s.Recorded)
    (hphase : ∀ w, s.workers w = if w = worker then phase else .idle)
    (hholder : phase ≠ .idle → s.holder = some worker)
    (hclaimed : ∀ key item, (phase = .handling key item ∨
      ∃ result, phase = .returned key item result) →
        s.items key = some item ∧ item.attempts < item.maxAttempts)
    (hrecorded : ∀ key item result, phase = .returned key item result →
      (key, result) ∈ s.invocations) : Inv s := by
  refine ⟨hrecord, fun w hw => ?_, fun w key item hclaims => ?_, fun w key item result hw => ?_⟩ <;>
    by_cases hworker : w = worker
  · subst hworker
    exact hholder (by simpa [hphase] using hw)
  · simp [hphase, hworker] at hw
  · simp only [claims, hphase, hworker, if_true] at hclaims
    exact hclaimed key item hclaims
  · simp [claims, hphase, hworker] at hclaims
  · rw [hphase, if_pos hworker] at hw
    exact hrecorded key item result hw
  · simp [hphase, hworker] at hw

/-- Nobody but the worker with an open transaction has one open after its next phase. -/
theorem Inv.workers_setWorker {s' : QueueState} {phase : WorkerPhase} (h : Inv s)
    (hopen : s.workers worker ≠ .idle) (hworkers : s'.workers = s.workers) (w : Nat) :
    (s'.setWorker worker phase).workers w = if w = worker then phase else .idle := by
  rw [QueueState.workers_setWorker, hworkers]
  by_cases hw : w = worker
  · simp [hw]
  · have hidle : s.workers w = .idle := by
      by_contra hbusy
      have hholder := (h.exclusive w hbusy).symm.trans (h.exclusive worker hopen)
      exact hw (Option.some.inj hholder)
    simp [hw, hidle]

/-- The end of a transaction keeps the invariant if the table and the record agree. -/
theorem Inv.release {s' : QueueState} (h : Inv s) (hopen : s.workers worker ≠ .idle)
    (hworkers : s'.workers = s.workers) (hrecord : s'.Recorded) : Inv (s'.release worker) := by
  refine .of_phase ⟨hrecord.known, hrecord.counted, hrecord.failed, hrecord.removed⟩
    (h.workers_setWorker hopen hworkers) (fun hne => absurd rfl hne) ?_ ?_
  · rintro key item (hclaim | ⟨_, hclaim⟩) <;> cases hclaim
  · rintro key item result hclaim
    cases hclaim

/-- A new item has no failures and is in nobody's hands. -/
theorem Inv.addItem (h : Inv s) (hnew : key ∉ s.enqueued) (hattempts : item.attempts = 0) :
    Inv (s.addItem key item) := by
  have hother : ∀ {k}, k ≠ key → (s.addItem key item).items k = s.items k := fun hk =>
    update_of_ne hk _ _
  have hstored : ∀ k i, s.items k = some i → k ≠ key := by
    rintro k i hi rfl
    exact hnew (h.known k i hi)
  refine ⟨⟨fun k i hi => ?_, fun k i hi => ?_,
    fun k hk => mem_cons_of_mem _ (h.failed k hk), fun k hk hnone => ?_⟩, h.exclusive,
    fun w k i hclaims => ?_, h.recorded⟩
  · by_cases hk : k = key
    · exact hk ▸ mem_cons_self
    · exact mem_cons_of_mem _ (h.known k i ((hother hk).symm.trans hi))
  · by_cases hk : k = key
    · subst hk
      obtain rfl : item = i := by simpa [QueueState.addItem] using hi
      have hcount : s.failures.count k = 0 :=
        count_eq_zero.mpr fun hfailed => hnew (h.failed k hfailed)
      exact ⟨hattempts.trans hcount.symm, hattempts ▸ Nat.zero_le _⟩
    · exact h.counted k i ((hother hk).symm.trans hi)
  · by_cases hkey : k = key
    · subst hkey
      simp [QueueState.addItem] at hnone
    · exact h.removed k ((mem_cons.mp hk).resolve_left hkey) ((hother hkey).symm.trans hnone)
  · obtain ⟨hi, hleft⟩ := h.claimed w k i hclaims
    exact ⟨(hother (hstored k i hi)).trans hi, hleft⟩

theorem Inv.addInvocation (h : Inv s) (key : WorkKey) (result : Except Bytes Unit) :
    Inv (s.addInvocation key result) where
  exclusive := h.exclusive
  claimed := h.claimed
  recorded := fun w k i r hw => mem_cons_of_mem _ (h.recorded w k i r hw)
  known := h.known
  counted := h.counted
  failed := h.failed
  removed := fun k hk hnone => mem_cons_of_mem _ (h.removed k hk hnone)

/-- A worker with an open transaction moves on to another phase of it. -/
theorem Inv.setWorker (h : Inv s) {phase : WorkerPhase} (hopen : s.workers worker ≠ .idle)
    (hclaimed : ∀ key item, (phase = .handling key item ∨
      ∃ result, phase = .returned key item result) →
        s.items key = some item ∧ item.attempts < item.maxAttempts)
    (hrecorded : ∀ key item result, phase = .returned key item result →
      (key, result) ∈ s.invocations) : Inv (s.setWorker worker phase) :=
  .of_phase ⟨h.known, h.counted, h.failed, h.removed⟩ (h.workers_setWorker hopen rfl)
    (fun _ => h.exclusive worker hopen) hclaimed hrecorded

/-- The failure of a claimed item is recorded unless Postgres rejects its text. -/
theorem recordWorkFailure_claimed {now : Int} {text : Bytes} (hitem : s.items key = some item)
    (hleft : item.attempts < item.maxAttempts) :
    s.recordWorkFailure now key item text =
      if storableError (boundedWorkError text) then
        some (s.failItem key item (now + workRetryDelay (item.attempts + 1))
          (boundedWorkError text))
      else none := by
  have hattempts : item.attempts + 1 ≤ item.maxAttempts := hleft
  simp [recordWorkFailure, hitem, hattempts]

/-- A transaction that records a failure. -/
theorem Inv.failItem (h : Inv s) {nextAttemptAt : Int} {lastError : Bytes}
    (hopen : s.workers worker ≠ .idle) (hitem : s.items key = some item)
    (hleft : item.attempts < item.maxAttempts) :
    Inv ((s.failItem key item nextAttemptAt lastError).release worker) := by
  have hworkers : (s.failItem key item nextAttemptAt lastError).workers = s.workers := rfl
  refine h.release hopen hworkers ⟨?_, ?_, ?_, ?_⟩
  · intro k i hi
    by_cases hk : k = key
    · subst hk
      exact h.known k item hitem
    · simp only [QueueState.failItem, update_of_ne hk] at hi
      exact h.known k i hi
  · intro k i hi
    by_cases hk : k = key
    · subst hk
      simp [QueueState.failItem] at hi
      have hcount := (h.counted k item hitem).1
      subst hi
      simp only [QueueState.failItem, count_cons_self]
      omega
    · simp only [QueueState.failItem, update_of_ne hk] at hi
      have hcounted := h.counted k i hi
      simp only [QueueState.failItem, count_cons_of_ne (Ne.symm hk)]
      exact hcounted
  · intro k hk
    rcases mem_cons.mp hk with rfl | hk
    · exact h.known k item hitem
    · exact h.failed k hk
  · intro k hk hnone
    by_cases hkey : k = key
    · subst hkey
      simp [QueueState.failItem] at hnone
    · simp only [QueueState.failItem, update_of_ne hkey] at hnone
      exact h.removed k hk hnone

/-- A transaction that completes an item. -/
theorem Inv.removeItem (h : Inv s) (hopen : s.workers worker ≠ .idle)
    (hsuccess : (key, .ok ()) ∈ s.invocations) : Inv ((s.removeItem key).release worker) := by
  have hstored : ∀ k i, (s.removeItem key).items k = some i → s.items k = some i := by
    intro k i hi
    by_cases hk : k = key
    · subst hk
      simp [QueueState.removeItem] at hi
    · simpa only [QueueState.removeItem, update_of_ne hk] using hi
  have hworkers : (s.removeItem key).workers = s.workers := rfl
  refine h.release hopen hworkers ⟨fun k i hi => h.known k i (hstored k i hi),
    fun k i hi => h.counted k i (hstored k i hi), h.failed, fun k hk hnone => ?_⟩
  by_cases hkey : k = key
  · subst hkey
    exact hsuccess
  · simp only [QueueState.removeItem, update_of_ne hkey] at hnone
    exact h.removed k hk hnone

theorem Inv.rollback (h : Inv s) (hopen : s.workers worker ≠ .idle) : Inv (s.release worker) :=
  h.release hopen rfl h.toRecorded

end QueueState

variable {s s' : QueueState} {key : WorkKey} {item : WorkItem} {q : WorkQueue}

/-- The end of a transaction keeps the invariant. -/
theorem QueueState.Inv.finish (h : s.Inv) {worker : Nat} {now : Int} {result : Except Bytes Unit}
    (hreturned : s.workers worker = .returned key item result)
    (hsettle : s.settle now key item result = some s') : (s'.release worker).Inv := by
  have hopen : s.workers worker ≠ .idle := by simp [hreturned]
  obtain ⟨hitem, hleft⟩ := h.claimed worker key item (.inr ⟨result, hreturned⟩)
  cases result with
  | ok _ =>
    simp [settle, completeWork, hitem] at hsettle
    subst hsettle
    exact h.removeItem hopen (h.recorded worker key item _ hreturned)
  | error text =>
    simp [settle, recordWorkFailure_claimed hitem hleft] at hsettle
    obtain ⟨-, rfl⟩ := hsettle
    exact h.failItem hopen hitem hleft

namespace WorkQueue

theorem inv_step {a : QueueAction} (h : s.Inv) (hstep : q.step s a = some s') : s'.Inv := by
  cases a with
  | enqueue now key work =>
    simp [step] at hstep
    obtain ⟨⟨-, -, hnew⟩, rfl⟩ := hstep
    exact h.addItem hnew rfl
  | begin worker =>
    simp [step] at hstep
    obtain ⟨hidle, hstep⟩ := hstep
    by_cases hfree : s.holder = none
    · simp [hfree] at hstep
      subst hstep
      -- Nobody had a transaction open, and the new one has nothing in hand yet.
      have hothers : ∀ w, s.workers w = .idle := by
        intro w
        by_contra hbusy
        exact absurd (hfree.symm.trans (h.exclusive w hbusy)) (by simp)
      refine .of_phase ⟨h.known, h.counted, h.failed, h.removed⟩
        (fun w => workers_setWorker.trans (by rw [hothers w])) (fun _ => rfl) ?_ ?_
      · rintro k i (hclaim | ⟨_, hclaim⟩) <;> cases hclaim
      · rintro k i r hclaim
        cases hclaim
    · simp [hfree] at hstep
      exact hstep ▸ h
  | claim worker now rowLocked =>
    simp [step] at hstep
    obtain ⟨hlocked, hstep⟩ := hstep
    have hopen : s.workers worker ≠ .idle := by simp [hlocked]
    cases hclaim : s.claimDueWork now rowLocked with
    | none =>
      simp [hclaim] at hstep
      exact hstep ▸ h.rollback hopen
    | some claim =>
      simp [hclaim] at hstep
      subst hstep
      refine h.setWorker hopen ?_ (fun _ _ _ hr => absurd hr (by simp))
      intro k i hk
      rcases hk with hk | ⟨_, hk⟩
      · cases hk
        exact claimDueWork_some hclaim
      · exact absurd hk (by simp)
  | handle worker outcome =>
    simp only [step] at hstep
    split at hstep
    · rename_i key item hhandling
      obtain rfl := Option.some.inj hstep
      have hopen : s.workers worker ≠ .idle := by simp [hhandling]
      refine (h.addInvocation key _).setWorker hopen ?_ ?_
      · intro k i hk
        rcases hk with hk | ⟨_, hk⟩
        · exact absurd hk (by simp)
        · cases hk
          exact h.claimed worker key item (.inl hhandling)
      · intro k i r hk
        cases hk
        exact mem_cons_self
    · exact absurd hstep (by simp)
  | finish worker now outcome =>
    simp only [step] at hstep
    split at hstep
    · rename_i key item result hreturned
      have hopen : s.workers worker ≠ .idle := by simp [hreturned]
      split at hstep
      · exact Option.some.inj hstep ▸ h.rollback hopen
      · exact Option.some.inj hstep ▸ h.rollback hopen
      · rename_i s₁ hsettle
        exact Option.some.inj hstep ▸ h.finish hreturned hsettle
    · exact absurd hstep (by simp)
  | abort worker =>
    simp [step] at hstep
    obtain ⟨hopen, rfl⟩ := hstep
    exact h.rollback hopen

theorem Reaches.inv (hrun : q.Reaches s s') (h : s.Inv) : s'.Inv := by
  induction hrun with
  | refl => exact h
  | step _ hstep ih => exact inv_step ih hstep

/-- A step leaves an exhausted item alone. -/
theorem exhausted_step {a : QueueAction} (h : s.Inv) (hstep : q.step s a = some s')
    (hitem : s.items key = some item) (hexhausted : item.attempts = item.maxAttempts) :
    s'.items key = some item := by
  cases a with
  | enqueue now k work =>
    simp [step] at hstep
    obtain ⟨⟨-, -, hnew⟩, rfl⟩ := hstep
    have hk : key ≠ k := by
      rintro rfl
      exact hnew (h.known key item hitem)
    exact (update_of_ne hk _ _).trans hitem
  | begin worker =>
    simp [step] at hstep
    obtain ⟨-, hstep⟩ := hstep
    split at hstep <;> exact Option.some.inj hstep ▸ hitem
  | claim worker now rowLocked =>
    simp [step] at hstep
    obtain ⟨-, hstep⟩ := hstep
    split at hstep <;> exact Option.some.inj hstep ▸ hitem
  | handle worker outcome =>
    simp only [step] at hstep
    split at hstep
    · exact Option.some.inj hstep ▸ hitem
    · exact absurd hstep (by simp)
  | finish worker now outcome =>
    simp only [step] at hstep
    split at hstep
    · rename_i k i result hreturned
      -- The item in hand has an attempt left, so it is another one.
      obtain ⟨hclaimed, hleft⟩ := h.claimed worker k i (.inr ⟨result, hreturned⟩)
      have hk : key ≠ k := by
        rintro rfl
        rw [hitem, Option.some.injEq] at hclaimed
        subst hclaimed
        omega
      split at hstep
      · exact Option.some.inj hstep ▸ hitem
      · exact Option.some.inj hstep ▸ hitem
      · rename_i s₁ hsettle
        obtain rfl := Option.some.inj hstep
        cases result with
        | ok _ =>
          simp [settle, completeWork, hclaimed] at hsettle
          exact hsettle ▸ (update_of_ne hk _ _).trans hitem
        | error text =>
          simp [settle, recordWorkFailure_claimed hclaimed hleft] at hsettle
          exact hsettle.2 ▸ (update_of_ne hk _ _).trans hitem
    · exact absurd hstep (by simp)
  | abort worker =>
    simp [step] at hstep
    exact hstep.2 ▸ hitem

theorem Reaches.exhausted (hrun : q.Reaches s s') (h : s.Inv)
    (hitem : s.items key = some item) (hexhausted : item.attempts = item.maxAttempts) :
    s'.items key = some item := by
  induction hrun with
  | refl => exact hitem
  | step hrun hstep ih => exact exhausted_step (hrun.inv h) hstep ih hexhausted

/-- A transaction that is not rolled back advances the attempts of a failed item
exactly when Postgres accepts the error text. -/
theorem finish_advances_iff (h : s.Inv) {worker : Nat} {now : Int}
    {outcome : FinishOutcome} {text : Bytes}
    (hreturned : s.workers worker = .returned key item (.error text))
    (houtcome : outcome ≠ .rolledBack) :
    (∃ s' item', q.step s (.finish worker now outcome) = some s' ∧
        s'.items key = some item' ∧ item'.attempts = item.attempts + 1) ↔ NoEarlyZero text := by
  obtain ⟨hitem, hleft⟩ := h.claimed worker key item (.inr ⟨_, hreturned⟩)
  rw [← storableError_iff]
  by_cases hstorable : storableError (boundedWorkError text) = true
  · have hstep : q.step s (.finish worker now outcome) =
        some ((s.failItem key item (now + workRetryDelay (item.attempts + 1))
          (boundedWorkError text)).release worker) := by
      simp only [step, hreturned, settle, recordWorkFailure_claimed hitem hleft, hstorable, if_true]
    exact ⟨fun _ => hstorable, fun _ => ⟨_, _, hstep, Function.update_self _ _ _, rfl⟩⟩
  · have hstep : q.step s (.finish worker now outcome) = some (s.release worker) := by
      simp only [step, hreturned, settle, recordWorkFailure_claimed hitem hleft,
        hstorable, Bool.false_eq_true, if_false]
    refine ⟨fun hadvanced => ?_, fun hs => absurd hs hstorable⟩
    obtain ⟨s', item', hs', hitem', hattempts⟩ := hadvanced
    rw [hstep, Option.some.injEq] at hs'
    subst hs'
    rw [show (s.release worker).items key = some item from hitem, Option.some.injEq] at hitem'
    subst hitem'
    omega

end WorkQueue

/-- In every reachable state: an item was removed only after a handler succeeded on
it, its attempts are its committed failures and do not exceed its maximum, an
exhausted item is in nobody's hands and stays, one worker at most has an item in
hand, and the transaction of a failed invocation, unless it is rolled back, advances
the attempts exactly when no zero byte stands early in the error text. -/
theorem work_until_success (q : WorkQueue) (s : QueueState) (hrun : q.Reaches .init s) :
    (∀ key ∈ s.enqueued, s.items key = none → (key, .ok ()) ∈ s.invocations) ∧
      (∀ key item, s.items key = some item →
        item.attempts = s.failures.count key ∧ item.attempts ≤ item.maxAttempts) ∧
      (∀ worker key item, s.claims worker key item → item.attempts < item.maxAttempts) ∧
      (∀ key item, s.items key = some item → item.attempts = item.maxAttempts →
        ∀ s', q.Reaches s s' → s'.items key = some item) ∧
      (∀ worker worker' key key' item item', s.claims worker key item →
        s.claims worker' key' item' → worker = worker') ∧
      ∀ worker key item text now outcome,
        s.workers worker = .returned key item (.error text) → outcome ≠ .rolledBack →
          ((∃ s' item', q.step s (.finish worker now outcome) = some s' ∧
              s'.items key = some item' ∧ item'.attempts = item.attempts + 1) ↔
            NoEarlyZero text) := by
  have h := hrun.inv inv_init
  have hopen : ∀ {worker key item}, s.claims worker key item → s.workers worker ≠ .idle := by
    intro worker key item hclaims
    rcases hclaims with hw | ⟨result, hw⟩ <;> simp [hw]
  refine ⟨h.removed, h.counted, fun worker key item hclaims => (h.claimed _ _ _ hclaims).2,
    fun key item hitem hexhausted s' hrun' => hrun'.exhausted h hitem hexhausted, ?_, ?_⟩
  · intro worker worker' key key' item item' hclaims hclaims'
    have hholder := h.exclusive worker (hopen hclaims)
    have hholder' := h.exclusive worker' (hopen hclaims')
    exact Option.some.inj (hholder.symm.trans hholder')
  · intro worker key item text now outcome hreturned houtcome
    exact WorkQueue.finish_advances_iff h hreturned houtcome

/-- A queue with one handler. -/
def sampleQueue : WorkQueue where
  handlers := ["crl.publish"]
  noHandler := fun _ => []

def sampleWork : Work where
  kind := "crl.publish"
  payloadVersion := 1
  payload := some []
  runAt := some 1
  maxAttempts := 3

/-- The key of the work of one event. -/
def sampleWorkKey (version : Nat) : WorkKey where
  sourceStreamType := "device"
  sourceStreamID := "1"
  sourceStreamVersion := version
  kind := "crl.publish"

/-- Two items wait, and the handler of the first returns an error of one zero byte. -/
def sampleZeroError : List QueueAction :=
  [.enqueue 2 (sampleWorkKey 1) sampleWork, .enqueue 3 (sampleWorkKey 2) sampleWork, .begin 0,
    .claim 0 9 fun _ => false, .handle 0 (.failed [0])]

/-- Steps taken one after another. -/
def WorkQueue.steps (q : WorkQueue) (s : QueueState) : List QueueAction → Option QueueState
  | [] => some s
  | a :: as => (q.step s a).bind fun s' => q.steps s' as

theorem WorkQueue.reaches_steps {s'' : QueueState} (as : List QueueAction) (hrun : q.Reaches s s')
    (hsteps : q.steps s' as = some s'') : q.Reaches s s'' := by
  induction as generalizing s' with
  | nil => exact Option.some.inj hsteps ▸ hrun
  | cons a as ih =>
    obtain ⟨s₁, hfirst, hrest⟩ := Option.bind_eq_some_iff.mp hsteps
    exact ih (hrun.step hfirst) hrest

theorem sampleZeroError_reached :
    ∃ s, sampleQueue.Reaches .init s ∧
      s.workers 0 = .returned (sampleWorkKey 1) (newWorkItem 2 sampleWork) (.error [0]) :=
  ⟨_, WorkQueue.reaches_steps sampleZeroError .refl rfl, rfl⟩

/-- The failed item keeps its attempts and is the next to be claimed again. -/
theorem work_zero_error_blocks :
    ∃ s s' item, sampleQueue.Reaches .init s ∧
      s.workers 0 = .returned (sampleWorkKey 1) item (.error [0]) ∧
      sampleQueue.step s (.finish 0 9 .committed) = some s' ∧
      s'.items (sampleWorkKey 1) = some item ∧ item.attempts = 0 ∧
      s'.claimDueWork 10 (fun _ => false) = some (sampleWorkKey 1, item) := by
  exact ⟨_, _, newWorkItem 2 sampleWork,
    WorkQueue.reaches_steps sampleZeroError .refl rfl, rfl, rfl, rfl, rfl, rfl⟩

theorem work_until_success_zero_error :
    ∃ s, sampleQueue.Reaches .init s ∧
      ¬ ∃ s' item', sampleQueue.step s (.finish 0 9 .committed) = some s' ∧
        s'.items (sampleWorkKey 1) = some item' ∧ item'.attempts = 1 := by
  obtain ⟨s, hreached, hreturned⟩ := sampleZeroError_reached
  refine ⟨s, hreached, fun hadvanced => ?_⟩
  have hearly := ((work_until_success sampleQueue s hreached).2.2.2.2.2 0 _ _ _ 9 .committed
    hreturned (by decide)).mp hadvanced
  exact absurd (hearly [] [] rfl) (by decide)

end PowerManage.Store
