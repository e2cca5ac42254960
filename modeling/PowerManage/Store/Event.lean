import Mathlib.Algebra.Group.Nat.Defs
import PowerManage.Relational.RelyGuarantee
import PowerManage.Store.Text

/-!
# Events, the events table and the projector registry

The store keeps one append-only table of events and the projection tables that
registered projectors maintain in the same transaction.  This module fixes the
event record, the error values, the database the transactions run on, and the
registry that maps an event to its projector and its rebuild target.

A projector is a statement program over row writes only, so it cannot write the
events table; the append paths embed it into the store's own writes.
-/

namespace PowerManage.Store

open Relational

/-! ## Errors -/

/-- Error values of the store and the sentinels that callers test for. -/
inductive StoreError : Type where
  | message (text : String)
  /-- `fmt.Errorf("text: %w", cause)`. -/
  | wrapped (text : String) (cause : StoreError)
  /-- `fmt.Errorf("%w: text", cause)`. -/
  | annotated (cause : StoreError) (text : String)
  | postgres (code constraint : String)
  | versionConflict
  | versionOverflow
  | lastAdmin
  | noRows
  deriving DecidableEq, Repr

namespace StoreError

/-- The text of an error. -/
def text : StoreError → String
  | message t => t
  | wrapped t cause => t ++ ": " ++ cause.text
  | annotated cause t => cause.text ++ ": " ++ t
  | postgres code constraint => "postgres " ++ code ++ " " ++ constraint
  | versionConflict => "store: version conflict"
  | versionOverflow => "store: version overflow"
  | lastAdmin => "store: at least one enabled administrator is required"
  | noRows => "no rows in result set"

/-- The innermost cause of an error chain. -/
def root : StoreError → StoreError
  | wrapped _ cause => cause.root
  | annotated cause _ => cause.root
  | e => e

def isVersionConflict (e : StoreError) : Bool :=
  e.root == versionConflict

def isNotFound (e : StoreError) : Bool :=
  e.root == noRows

end StoreError

/-- The unique constraint behind optimistic concurrency. -/
def eventsStreamVersionConstraint : String := "events_stream_version_key"

/-- Postgres `unique_violation`. -/
def uniqueViolation (constraint : String) : StoreError :=
  .postgres "23505" constraint

/-- Postgres `foreign_key_violation`. -/
def foreignKeyViolation (constraint : String) : StoreError :=
  .postgres "23503" constraint

/-- Postgres `check_violation`. -/
def checkViolation (constraint : String) : StoreError :=
  .postgres "23514" constraint

def isStreamVersionConflict (e : StoreError) : Bool :=
  e.root == uniqueViolation eventsStreamVersionConstraint

/-! ## Events -/

/-- An unpersisted event.  The body stands for the event type together with its
decoded payload; `createdAt` is the transaction clock that Postgres stamps on
the row, supplied with the event as an input. -/
structure Event (B : Type) : Type where
  streamType : String
  streamID : String
  payloadVersion : Int
  body : B
  createdAt : Nat
  deriving DecidableEq

/-- The event shape passed to a projector. -/
structure PersistedEvent (B : Type) extends Event B where
  streamVersion : Nat
  deriving DecidableEq

/-- The identity of a stream. -/
def Event.stream {B : Type} (e : Event B) : String × String :=
  (e.streamType, e.streamID)

/-- The stream type whose streams are named by certificate class. -/
def caRotationStreamType : String := "ca-rotation"

/-- A stream ID that only a CA rotation stream may have. -/
def isRotationClassID (streamType streamID : String) : Bool :=
  streamType == caRotationStreamType && (streamID == "agent" || streamID == "gateway")

def validateEvent {B : Type} (event : Event B) : Except StoreError Unit :=
  if trimSpace event.streamType == "" then
    .error (.message "store: stream type is empty")
  else
    match ulidPathID event.streamID with
    | .error reason =>
      if isRotationClassID event.streamType event.streamID then positive
      else .error (.wrapped "store: invalid stream ID" (.message reason))
    | .ok _ => positive
where
  positive : Except StoreError Unit :=
    if event.payloadVersion ≤ 0 then
      .error (.message "store: payload version must be positive")
    else .ok ()

/-! ## Payloads -/

/-- What the strict JSON decoder makes of an event's payload. -/
inductive Payload (P : Type) : Type where
  | decoded (payload : P)
  | undecodable (reason : String)
  | trailing
  deriving DecidableEq, Repr

/-- Quote a name as `%q` does for plain text. -/
def quote (s : String) : String :=
  "\"" ++ s ++ "\""

def decodeEventPayload {B P : Type} (eventType : String) (event : Event B)
    (payloadVersion : Int) : Payload P → Except StoreError P
  | payload =>
    if event.payloadVersion ≠ payloadVersion then
      .error (.message ("store: event type " ++ quote eventType ++ " payload version is " ++
        toString event.payloadVersion ++ "; want " ++ toString payloadVersion))
    else
      match payload with
      | .decoded payload => .ok payload
      | .undecodable reason =>
        .error (.wrapped ("store: decode event type " ++ quote eventType ++ " payload")
          (.message reason))
      | .trailing =>
        .error (.message ("store: event type " ++ quote eventType ++ " payload has trailing data"))

/-- What is decoded was in the payload. -/
theorem decodeEventPayload_ok {B P : Type} {eventType : String} {event : Event B}
    {payloadVersion : Int} {payload : Payload P} {p : P}
    (h : decodeEventPayload eventType event payloadVersion payload = .ok p) :
    payload = .decoded p := by
  simp only [decodeEventPayload, ite_error_eq_ok] at h
  cases payload with
  | decoded p' => rw [Except.ok.inj h.2]
  | undecodable reason => cases h.2
  | trailing => cases h.2

/-! ## The database -/

/-- The events table, in commit order, and the projection tables. -/
structure Database (B T : Type) : Type where
  events : List (PersistedEvent B)
  tables : T

/-- One write of an append transaction. -/
inductive StoreWrite (B W : Type) : Type where
  | event (e : PersistedEvent B)
  | row (w : W)

/-- What an append transaction can hold a lock on. -/
inductive StoreKey (K : Type) : Type where
  | version (streamType streamID : String) (streamVersion : Nat)
  | lastAdmin
  | device (deviceID : String)
  | row (k : K)
  deriving DecidableEq

variable {B T W K : Type}

instance [Applies W T] : Applies W (Database B T) where
  apply w d := { d with tables := Applies.apply w d.tables }

instance [Applies W T] : Applies (StoreWrite B W) (Database B T) where
  apply
    | .event e, d => { d with events := d.events ++ [e] }
    | .row w, d => Applies.apply w d

@[simp]
theorem apply_row [Applies W T] (w : W) (d : Database B T) :
    Applies.apply (StoreWrite.row w : StoreWrite B W) d =
      { d with tables := Applies.apply w d.tables } :=
  rfl

@[simp]
theorem apply_event [Applies W T] (e : PersistedEvent B) (d : Database B T) :
    Applies.apply (StoreWrite.event e : StoreWrite B W) d =
      { d with events := d.events ++ [e] } :=
  rfl

@[simp]
theorem apply_tables [Applies W T] (w : W) (d : Database B T) :
    Applies.apply w d = { d with tables := Applies.apply w d.tables } :=
  rfl

/-- `CurrentStreamVersion`: the greatest version of a stream, or zero. -/
def currentStreamVersion (d : Database B T) (stream : String × String) : Nat :=
  ((d.events.filter fun e => e.stream = stream).map (·.streamVersion)).foldr max 0

/-- The greatest value of a Postgres `bigint`. -/
def maxInt64 : Nat := 2 ^ 63 - 1

/-! ## The registry -/

/-- A rebuild target: the tables it owns and the events that reproduce them. -/
structure RebuildTarget (B T : Type) where
  name : String
  tables : List String
  sharedTables : List String
  streamTypes : List String
  /-- `slices.Contains(target.EventTypes, event.EventType)`. -/
  ownsEvent : B → Bool
  reset : T → T

/-- No stream type belongs to two targets. -/
def StreamOwners (targets : List (RebuildTarget B T)) : Prop :=
  ∀ t ∈ targets, ∀ t' ∈ targets, ∀ streamType ∈ t.streamTypes,
    streamType ∈ t'.streamTypes → t = t'

theorem streamOwners_nil : StreamOwners ([] : List (RebuildTarget B T)) := by
  simp [StreamOwners]

/-- Targets of other domains keep to stream types of their own. -/
theorem streamOwners_append {O X : Type} {targets : List (RebuildTarget B T)}
    {others : List (RebuildTarget O X)} {lift : RebuildTarget O X → RebuildTarget B T}
    (types : List String) (howners : StreamOwners targets) (hothers : StreamOwners others)
    (hlift : ∀ o, (lift o).streamTypes = o.streamTypes)
    (htypes : ∀ t ∈ targets, ∀ streamType ∈ t.streamTypes, streamType ∈ types)
    (hapart : ∀ o ∈ others, ∀ streamType ∈ o.streamTypes, streamType ∉ types) :
    StreamOwners (targets ++ others.map lift) := by
  intro t ht t' ht' streamType h h'
  rcases List.mem_append.mp ht with ht | ht <;> rcases List.mem_append.mp ht' with ht' | ht'
  · exact howners t ht t' ht' streamType h h'
  · obtain ⟨o', ho', rfl⟩ := List.mem_map.mp ht'
    exact absurd (htypes t ht streamType h) (hapart o' ho' streamType (hlift o' ▸ h'))
  · obtain ⟨o, ho, rfl⟩ := List.mem_map.mp ht
    exact absurd (htypes t' ht' streamType h') (hapart o ho streamType (hlift o ▸ h))
  · obtain ⟨o, ho, rfl⟩ := List.mem_map.mp ht
    obtain ⟨o', ho', rfl⟩ := List.mem_map.mp ht'
    rw [hothers o ho o' ho' streamType (hlift o ▸ h) (hlift o' ▸ h')]

/-- The table names of the database and the child and parent of each foreign key. -/
structure Schema where
  tables : List String
  references : List (String × String)

/-- The registered projectors, their rebuild targets and the last-administrator policy. -/
structure Registry (B T W K : Type) where
  eventType : B → String
  targets : List (RebuildTarget B T)
  /-- `New` refuses two targets that claim one stream type. -/
  stream_owner : StreamOwners targets
  schema : Schema
  /-- The projector of an event; the flag is `skipWork`, set during a rebuild. -/
  project : Bool → PersistedEvent B → Prog (Database B T) W K StoreError Unit
  /-- `lastAdminReductionEvents`. -/
  protectLastAdmin : B → Bool
  countEnabledAdmins : Database B T → Nat
  /-- The first deferred foreign key that the tables violate. -/
  deferred : T → Option StoreError

/-- The rebuild target that owns an event's type. -/
def Registry.targetOf (R : Registry B T W K) (body : B) : Option (RebuildTarget B T) :=
  R.targets.find? (·.ownsEvent body)

/-- Stream IDs are stored in upper case, except those of CA rotation streams. -/
def foldStreamID (event : Event B) : Event B :=
  if event.streamType = caRotationStreamType then event
  else { event with streamID := toUpper event.streamID }

variable {raw event : Event B}

theorem foldStreamID_streamType (h : event = foldStreamID raw) :
    event.streamType = raw.streamType := by
  rw [h, foldStreamID]
  split <;> rfl

theorem foldStreamID_body (h : event = foldStreamID raw) : event.body = raw.body := by
  rw [h, foldStreamID]
  split <;> rfl

/-- `prepareEvent`: validate, fold the stream ID and check the target's stream types. -/
def Registry.prepareEvent (R : Registry B T W K) (event : Event B) :
    Except StoreError (Event B) := do
  validateEvent event
  let event := foldStreamID event
  match R.targetOf event.body with
  | none =>
    .error (.message ("store: no projector registered for event type " ++
      quote (R.eventType event.body)))
  | some target =>
    if target.streamTypes.contains event.streamType then .ok event
    else .error (.message ("store: stream type " ++ quote event.streamType ++
      " is outside rebuild target " ++ quote target.name ++ " for event type " ++
      quote (R.eventType event.body)))

/-- What `prepareEvent` has checked. -/
theorem Registry.prepareEvent_ok {R : Registry B T W K} (h : R.prepareEvent raw = .ok event) :
    validateEvent raw = .ok () ∧ event = foldStreamID raw ∧
      ∃ target, R.targetOf event.body = some target ∧ event.streamType ∈ target.streamTypes := by
  rw [prepareEvent, bind_eq_ok] at h
  obtain ⟨_, hvalid, h⟩ := h
  cases htarget : R.targetOf (foldStreamID raw).body with
  | none => simp [htarget] at h
  | some target =>
    simp only [htarget] at h
    split at h
    · rename_i hcontains
      have heq := Except.ok.inj h
      subst heq
      exact ⟨hvalid, rfl, target, htarget, by simpa using hcontains⟩
    · simp at h

end PowerManage.Store
