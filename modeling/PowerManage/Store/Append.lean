import PowerManage.Store.Event

/-!
# The append paths

The six ways in which the store appends events, as transaction bodies of a
READ COMMITTED client: `AppendEvent`, `AppendEventWithVersion`,
`AppendEvents`, `AppendEventsWithVersion`,
`AppendEventBeforeCommit` and the append inside
`WithDeviceLifecycleLock`.  Each body inserts its events one by one and runs
the registered projector of each event right after its insertion.
-/

namespace PowerManage.Store

open Relational

variable {B T W K : Type}

/-- Transaction bodies of the store. -/
abbrev StoreProg (B T W K α : Type) : Type :=
  Prog (Database B T) (StoreWrite B W) (StoreKey K) StoreError α

/-! ## Statements -/

/-- The row that `InsertEvent` stores. -/
def persisted (event : Event B) (streamVersion : Nat) : PersistedEvent B :=
  { event with streamVersion }

/-- The check constraints of the `events` table. -/
def eventsCheck (e : PersistedEvent B) : Except StoreError Unit :=
  if e.streamType = "" then .error (checkViolation "events_stream_type_check")
  else if ¬ (ulidCheck e.streamID || isRotationClassID e.streamType e.streamID) then
    .error (checkViolation "events_stream_id_check")
  -- A version past the bigint range wraps to a negative number.
  else if e.streamVersion = 0 ∨ maxInt64 < e.streamVersion then
    .error (checkViolation "events_stream_version_check")
  else if e.payloadVersion ≤ 0 then .error (checkViolation "events_payload_version_check")
  else .ok ()

/-- The lock that the unique index entry of an event row takes. -/
def versionKey (e : PersistedEvent B) : StoreKey K :=
  .version e.streamType e.streamID e.streamVersion

/-- Two rows with the same unique index entry. -/
def sameVersion (e e' : PersistedEvent B) : Bool :=
  e.stream == e'.stream && e.streamVersion == e'.streamVersion

def insertEvent (event : Event B) (streamVersion : Nat) : StoreProg B T W K (PersistedEvent B) :=
  .statement (fun _ => [versionKey (persisted event streamVersion)]) fun d => do
    let row := persisted event streamVersion
    eventsCheck row
    if d.events.any (sameVersion row) then
      .error (uniqueViolation eventsStreamVersionConstraint)
    .ok ([.event row], row)

/-- `CurrentStreamVersion`. -/
def readStreamVersion (stream : String × String) : StoreProg B T W K Nat :=
  .query fun d => .ok (currentStreamVersion d stream)

/-- Take a transaction-level advisory lock. -/
def acquireLock (key : StoreKey K) : StoreProg B T W K Unit :=
  .statement (fun _ => [key]) fun _ => .ok ([], ())

section paths

variable (R : Registry B T W K)

/-- `CountEnabledAdmins`. -/
def countAdmins : StoreProg B T W K Nat :=
  .query fun d => .ok (R.countEnabledAdmins d)

def protectLastAdminMutation (protect : Bool) (mutate : StoreProg B T W K Unit) :
    StoreProg B T W K Unit :=
  if protect then do
    acquireLock .lastAdmin
    let before ← countAdmins R
    mutate
    if before = 0 then
      pure ()
    else do
      let after ← countAdmins R
      Prog.require (after ≠ 0) .lastAdmin
  else mutate

/-- A registered projector, run inside an append transaction. -/
def runProjector (skipWork : Bool) (e : PersistedEvent B) : StoreProg B T W K Unit :=
  (R.project skipWork e).embed .row .row

/-- The mutation of `appendPrepared`: insert the event, then project it. -/
def insertAndProject (event : Event B) (streamVersion : Nat) : StoreProg B T W K Unit := do
  let row ← (insertEvent event streamVersion).mapError (.wrapped "insert event")
  (runProjector R false row).mapError
    (.wrapped ("project event " ++ quote (R.eventType event.body)))

def appendPrepared (event : Event B) (streamVersion : Nat) : StoreProg B T W K Unit :=
  protectLastAdminMutation R (R.protectLastAdmin event.body)
    (insertAndProject R event streamVersion)

/-! ## Batches -/

/-- Keep a stream-version conflict recognizable, or describe another failure. -/
def unlessConflict (conflict other : StoreError → StoreError) (e : StoreError) : StoreError :=
  if isStreamVersionConflict e then conflict e else other e

/-- One event of an auto-numbered batch. -/
def appendAuto (event : Event B) (index : Nat) : StoreProg B T W K Unit := do
  let current ← readStreamVersion event.stream
  (appendPrepared R event (current + 1)).mapError
    (unlessConflict id (.wrapped ("event " ++ toString index)))

/-- `appendAutoBatchOnce` up to its commit. -/
def appendAutoBatch : List (Event B) → Nat → StoreProg B T W K Unit
  | [], _ => pure ()
  | event :: events, index => do
      appendAuto R event index
      appendAutoBatch events (index + 1)

/-- The events of a version-pinned batch, from one version on. -/
def appendPinnedBatch (describe : Nat → StoreError → StoreError) :
    List (Event B) → Nat → Nat → StoreProg B T W K Unit
  | [], _, _ => pure ()
  | event :: events, version, index => do
      (appendPrepared R event (version + 1)).mapError (describe index)
      appendPinnedBatch describe events (version + 1) (index + 1)

/-- The conflict that a version-pinned append reports when its insert loses the race. -/
def pinnedConflict (expected : Nat) : StoreError :=
  .annotated .versionConflict ("expected " ++ toString expected)

/-- Append to one stream only when it is still at the expected version. -/
def appendAtVersion (describe : Nat → StoreError → StoreError) (stream : String × String)
    (events : List (Event B)) (expected : Nat) : StoreProg B T W K Unit := do
  let current ← readStreamVersion stream
  Prog.require (current = expected) (.annotated .versionConflict
    ("expected " ++ toString expected ++ ", current " ++ toString current))
  appendPinnedBatch R (fun index => unlessConflict (fun _ => pinnedConflict expected)
    (describe index)) events expected 0

/-! ## Calls -/

/-- An expected version as a natural number. -/
def expectedVersion (expected : Int) : Except StoreError Nat :=
  if expected < 0 then .error (.message "store: expected version must not be negative")
  else .ok expected.toNat

/-- Prepare every event of a batch. -/
def prepareBatch : List (Event B) → Nat → Except StoreError (List (Event B))
  | [], _ => .ok []
  | event :: events, index => do
      let head ← (R.prepareEvent event).mapError
        (.wrapped ("store: prepare batch event " ++ toString index))
      let tail ← prepareBatch events (index + 1)
      .ok (head :: tail)

/-- `AppendEventWithVersion` up to its commit. -/
def appendEventWithVersion (event : Event B) (expected : Int) : StoreProg B T W K Unit := do
  let version ← Prog.ofExcept (expectedVersion expected)
  let prepared ← Prog.ofExcept (R.prepareEvent event)
  appendAtVersion R (fun _ => .wrapped "store: version-pinned append") prepared.stream
    [prepared] version

/-- Prepare a batch whose events must all share the first one's stream. -/
def preparePinnedBatch : Option (String × String) → List (Event B) → Nat →
    Except StoreError (List (Event B))
  | _, [], _ => .ok []
  | first, event :: events, index => do
      let head ← (R.prepareEvent event).mapError
        (.wrapped ("store: prepare version-pinned batch event " ++ toString index))
      if first.any (· ≠ head.stream) then
        .error (.message "store: version-pinned batch events must share one stream")
      let tail ← preparePinnedBatch (some head.stream) events (index + 1)
      .ok (head :: tail)

/-- `AppendEventsWithVersion` up to its commit. -/
def appendEventsWithVersion (events : List (Event B)) (expected : Int) :
    StoreProg B T W K Unit := do
  let version ← Prog.ofExcept (expectedVersion expected)
  Prog.require (events.isEmpty || events.length ≤ maxInt64 - version)
    (.annotated .versionOverflow "version-pinned batch")
  let prepared ← Prog.ofExcept (preparePinnedBatch R none events 0)
  match prepared with
  | [] => pure ()
  | first :: _ =>
    appendAtVersion R
      (fun i => .wrapped ("store: version-pinned batch event " ++ toString i))
      first.stream prepared version

/-- What a device lifecycle operation appends. -/
structure LifecycleAppend (B : Type) where
  event : Event B
  expected : Int
  gateway : Bool

def appendEventFor (deviceID : String) (append : LifecycleAppend B) : StoreProg B T W K Unit := do
  let version ← Prog.ofExcept (expectedVersion append.expected)
  let prepared ← Prog.ofExcept (R.prepareEvent append.event)
  let streamType := if append.gateway then "gateway" else "device"
  let rebuildTarget := if append.gateway then "gateways" else "devices"
  Prog.require (prepared.stream = (streamType, deviceID) &&
      (R.targetOf prepared.body).any (·.name == rebuildTarget))
    (.message "store: device lifecycle event does not belong to the locked device")
  appendAtVersion R (fun _ => .wrapped "store: append locked device lifecycle event")
    prepared.stream [prepared] version

def canonicalDeviceID (deviceID : String) : Except StoreError String :=
  (canonicalULID deviceID).mapError fun reason =>
    .wrapped "store: invalid device ID" (.message reason)

/-- `WithDeviceLifecycleLock` up to its commit.  The operation reads the
locked projection and decides what to append, or refuses. -/
def withDeviceLifecycleLock (deviceID : String)
    (operation : Database B T → Except StoreError (Option (LifecycleAppend B))) :
    StoreProg B T W K Unit := do
  let deviceID ← Prog.ofExcept (canonicalDeviceID deviceID)
  acquireLock (.device deviceID)
  let decision ← Prog.query operation
  match decision with
  | none => pure ()
  | some append => appendEventFor R deviceID append

/-- A call of one of the append APIs. -/
inductive AppendCall (B T : Type) : Type where
  | appendEvent (event : Event B)
  | appendEventWithVersion (event : Event B) (expected : Int)
  | appendEvents (events : List (Event B))
  | appendEventsWithVersion (events : List (Event B)) (expected : Int)
  /-- The callback's failure, if it fails. -/
  | appendEventBeforeCommit (event : Event B) (callback : Option StoreError)
  | deviceLifecycle (deviceID : String)
      (operation : Database B T → Except StoreError (Option (LifecycleAppend B)))

/-- The transaction body of a call, with the checks made before it begins. -/
def AppendCall.body : AppendCall B T → StoreProg B T W K Unit
  | .appendEvent event => do
      let prepared ← Prog.ofExcept (R.prepareEvent event)
      (appendAutoBatch R [prepared] 0).mapError
        (unlessConflict id (.wrapped "store: append event"))
  | .appendEventWithVersion event expected => Store.appendEventWithVersion R event expected
  | .appendEvents events => do
      let prepared ← Prog.ofExcept (prepareBatch R events 0)
      (appendAutoBatch R prepared 0).mapError
        (unlessConflict
          (fun _ => .annotated .versionConflict "batch stream changed concurrently")
          (.wrapped "store: append events"))
  | .appendEventsWithVersion events expected => Store.appendEventsWithVersion R events expected
  | .appendEventBeforeCommit event callback => do
      let prepared ← Prog.ofExcept (R.prepareEvent event)
      let current ← readStreamVersion prepared.stream
      (appendPrepared R prepared (current + 1)).mapError (.wrapped "store: callback append")
      match callback with
      | none => pure ()
      | some e => Prog.fail (.wrapped "store: before-commit callback" e)
  | .deviceLifecycle deviceID operation => withDeviceLifecycleLock R deviceID operation

/-- The error that a failed attempt reports; only `AppendEvent` tries again,
and only after an exact stream-version conflict. -/
def AppendCall.onFail : AppendCall B T → StoreError → Option StoreError
  | .appendEvent _, e => if isStreamVersionConflict e then none else some e
  | _, e => some e

/-- The error that a refused commit reports. -/
def AppendCall.onRefused : AppendCall B T → StoreError → StoreError
  | .appendEvent _, e => .wrapped "store: append event" (.wrapped "commit append transaction" e)
  | .appendEventWithVersion _ _, e =>
    .wrapped "store: commit version-pinned append transaction" e
  | .appendEvents _, e =>
    .wrapped "store: append events" (.wrapped "commit append transaction" e)
  | .appendEventsWithVersion _ _, e =>
    .wrapped "store: commit version-pinned batch transaction" e
  | .appendEventBeforeCommit _ _, e =>
    .wrapped "store: commit callback append transaction" e
  | .deviceLifecycle _ _, e => .wrapped "store: commit device lifecycle transaction" e

/-- The store as a client of READ COMMITTED transactions. -/
def client : Client (Database B T) (StoreWrite B W) (StoreKey K) StoreError Unit where
  Call := AppendCall B T
  body := AppendCall.body R
  onFail := AppendCall.onFail
  deferred d := R.deferred d.tables
  onRefused := AppendCall.onRefused

end paths

end PowerManage.Store
