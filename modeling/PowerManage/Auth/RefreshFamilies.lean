import PowerManage.Relational.Table
import PowerManage.Store.Log
import PowerManage.Store.Rebuild

/-!
# Refresh-token families in the store

A session is a family of refresh tokens of which one is active.  An exchange
supersedes the active token by its successor; the reuse of a superseded token
revokes the family.  Tokens are stored by their digests.

No other domain writes the two tables or appends to these streams, so the
registry of this module has no other target.

Main results:

- `accept_cases`: what a stored event does to the tables.
- `FamilyInv.accept`: every stored event keeps the invariant of the
  families.
-/

namespace PowerManage.Auth

open Relational Store
open Table (find_put ne_of_find)
open Prog

/-! ## Rows and events -/

/-- A SHA-256 digest. -/
structure TokenHash where
  digest : String
  deriving DecidableEq, Repr

/-- The hash of tokens; what is proved holds of any. -/
class TokenHashing where
  /-- `sha256.Sum256` of a token. -/
  tokenHash : String → TokenHash

export TokenHashing (tokenHash)

/-- The hash of the samples: a digest is the token itself. -/
@[reducible]
def TokenHashing.verbatim : TokenHashing := ⟨TokenHash.mk⟩

/-- A row of `refresh_families`, under its family ID. -/
structure FamilyRow where
  subject : String
  projectionVersion : Nat
  activeTokenHash : TokenHash
  revoked : Bool
  updatedAt : Nat
  deriving DecidableEq, Repr

/-- A row of `refresh_tokens`, under its digest. -/
structure TokenRow where
  familyID : String
  expiresAt : Int
  superseded : Bool
  deriving DecidableEq, Repr

structure Tables where
  families : Table String FamilyRow
  tokens : Table TokenHash TokenRow

/-- One statement's effect on one table. -/
inductive Write where
  | family (w : RowWrite String FamilyRow)
  | token (w : RowWrite TokenHash TokenRow)

instance : Applies Write Tables where
  apply
    | .family w, t => { t with families := w.apply t.families }
    | .token w, t => { t with tokens := w.apply t.tokens }

/-- What a projector can hold a lock on: a row, or an entry of a unique index. -/
inductive Key where
  | family (familyID : String)
  | token (hash : TokenHash)
  | activeToken (hash : TokenHash)
  deriving DecidableEq, Repr

structure RefreshFamilyStartedPayload where
  subject : String
  tokenHash : TokenHash
  expiresAt : Int
  deriving DecidableEq, Repr

structure RefreshTokenRotatedPayload where
  previousTokenHash : TokenHash
  nextTokenHash : TokenHash
  expiresAt : Int
  deriving DecidableEq, Repr

structure RefreshFamilyRevokedPayload where
  replayedTokenHash : TokenHash
  deriving DecidableEq, Repr

/-- Events of the refresh-families target. -/
inductive Body where
  | familyStarted (payload : Payload RefreshFamilyStartedPayload)
  | tokenRotated (payload : Payload RefreshTokenRotatedPayload)
  | familyRevoked (payload : Payload RefreshFamilyRevokedPayload)
  deriving DecidableEq, Repr

def Body.eventType : Body → String
  | familyStarted _ => "RefreshFamilyStarted"
  | tokenRotated _ => "RefreshTokenRotated"
  | familyRevoked _ => "RefreshFamilyRevoked"

abbrev Db : Type := Database Body Tables

abbrev Ev : Type := PersistedEvent Body

abbrev ProjProg (α : Type) : Type := Prog Db Write Key StoreError α

def refreshFamilyStreamType : String := "refresh-family"

def refreshFamilyPayloadVersion : Int := 1

def maxRefreshSubjectBytes : Nat := 1024

/-! ## Checks -/

def canonicalRefreshFamilyID (familyID : String) : Except StoreError String :=
  (canonicalULID familyID).mapError fun reason =>
    .wrapped "store: invalid refresh-family ID" (.message reason)

def validateRefreshSubject (subject : String) : Except StoreError Unit :=
  if byteLen subject = 0 ∨ maxRefreshSubjectBytes < byteLen subject ∨
      subject.toList.contains '\x00' then
    .error (.message "store: refresh-family subject is invalid")
  else .ok ()

/-- `validateRefreshExpiry`; the zero time lies before the epoch. -/
def validateRefreshExpiry (expiresAt : Int) : Except StoreError Unit :=
  if expiresAt ≤ 0 then .error (.message "store: refresh-token expiry is invalid") else .ok ()

/-! ## Event constructors -/

def refreshFamilyEvent (familyID : String) (createdAt : Nat) (body : Body) : Event Body where
  streamType := refreshFamilyStreamType
  streamID := familyID
  payloadVersion := refreshFamilyPayloadVersion
  body := body
  createdAt := createdAt

def refreshFamilyStartedEvent (familyID subject : String) (hash : TokenHash) (expiresAt : Int)
    (createdAt : Nat) : Except StoreError (Event Body) := do
  let familyID ← canonicalRefreshFamilyID familyID
  validateRefreshSubject subject
  validateRefreshExpiry expiresAt
  .ok (refreshFamilyEvent familyID createdAt (.familyStarted (.decoded ⟨subject, hash, expiresAt⟩)))

def refreshTokenRotatedEvent (familyID : String) (previous next : TokenHash) (expiresAt : Int)
    (createdAt : Nat) : Except StoreError (Event Body) := do
  let familyID ← canonicalRefreshFamilyID familyID
  if previous = next then
    .error (.message "store: refresh-token rotation hashes are identical")
  else do
    validateRefreshExpiry expiresAt
    .ok (refreshFamilyEvent familyID createdAt
      (.tokenRotated (.decoded ⟨previous, next, expiresAt⟩)))

def refreshFamilyRevokedEvent (familyID : String) (replayed : TokenHash) (createdAt : Nat) :
    Except StoreError (Event Body) := do
  let familyID ← canonicalRefreshFamilyID familyID
  .ok (refreshFamilyEvent familyID createdAt (.familyRevoked (.decoded ⟨replayed⟩)))

/-! ## Statements -/

/-- The check constraints of `refresh_families`. -/
def checkFamily (familyID : String) (row : FamilyRow) : Except StoreError Unit :=
  if ¬ ulidCheck familyID then .error (checkViolation "refresh_families_family_id_ulid_check")
  else if ¬ octetsBetween 1 1024 row.subject then
    .error (checkViolation "refresh_families_subject_len_check")
  else if row.projectionVersion = 0 then
    .error (checkViolation "refresh_families_projection_version_check")
  else .ok ()

/-- The unique index on the active token, for a family's new row. -/
def activeTokenKey (d : Db) (familyID : String) (hash : TokenHash) : Except StoreError Unit :=
  if d.tables.families.anyRow fun id row => id != familyID && row.activeTokenHash == hash then
    .error (uniqueViolation "refresh_families_active_token_hash_key")
  else .ok ()

def insertRefreshFamily (familyID : String) (row : FamilyRow) : ProjProg Nat :=
  .statement (fun _ => [.family familyID, .activeToken row.activeTokenHash]) fun d => do
    checkFamily familyID row
    if (d.tables.families.find familyID).isSome then
      .error (uniqueViolation "refresh_families_pkey")
    else do
      activeTokenKey d familyID row.activeTokenHash
      .ok ([.family (.insert familyID row)], 1)

def insertRefreshToken (hash : TokenHash) (familyID : String) (expiresAt : Int) : ProjProg Nat :=
  .statement (fun _ => [.token hash]) fun d =>
    if (d.tables.tokens.find hash).isSome then .error (uniqueViolation "refresh_tokens_pkey")
    else if (d.tables.families.find familyID).isNone then
      .error (foreignKeyViolation "refresh_tokens_family_id_fkey")
    else .ok ([.token (.insert hash ⟨familyID, expiresAt, false⟩)], 1)

def projectRefreshFamilyRotation (familyID : String) (version updatedAt : Nat)
    (previous next : TokenHash) : ProjProg Nat :=
  .affect (fun _ => [.family familyID, .activeToken next])
    (fun d => (d.tables.families.find familyID).filter fun row =>
      row.projectionVersion < version && row.activeTokenHash == previous && !row.revoked)
    fun d _ => do
      activeTokenKey d familyID next
      .ok [.family (.update {familyID} fun row =>
        { row with projectionVersion := version, activeTokenHash := next, updatedAt })]

def projectRefreshTokenSuperseded (familyID : String) (hash : TokenHash) : ProjProg Nat :=
  .affect (fun _ => [.token hash])
    (fun d => (d.tables.tokens.find hash).filter fun row =>
      row.familyID == familyID && !row.superseded)
    fun _ _ => .ok [.token (.update {hash} fun row => { row with superseded := true })]

/-- `ProjectRefreshFamilyRevocation`. -/
def projectRefreshFamilyRevocationRow (familyID : String) (version updatedAt : Nat) :
    ProjProg Nat :=
  .affect (fun _ => [.family familyID])
    (fun d => (d.tables.families.find familyID).filter fun row =>
      row.projectionVersion < version && !row.revoked)
    fun _ _ => .ok [.family (.update {familyID} fun row =>
      { row with projectionVersion := version, revoked := true, updatedAt })]

def getRefreshFamily (familyID : String) : ProjProg (Option FamilyRow) :=
  .query fun d => .ok (d.tables.families.find familyID)

/-- A token joined with its family. -/
structure RefreshFamilyToken where
  familyID : String
  family : FamilyRow
  token : TokenRow
  deriving DecidableEq, Repr

/-- `GetRefreshFamilyToken`. -/
def findRefreshFamilyToken (d : Db) (hash : TokenHash) : Option RefreshFamilyToken := do
  let token ← d.tables.tokens.find hash
  let family ← d.tables.families.find token.familyID
  some ⟨token.familyID, family, token⟩

def refreshFamilyTokenFromRow (row : RefreshFamilyToken) :
    Except StoreError RefreshFamilyToken := do
  let _ ← (canonicalRefreshFamilyID row.familyID).mapError fun _ =>
    .message "store: refresh-family projection has an invalid family ID"
  (validateRefreshSubject row.family.subject).mapError
    (.wrapped "store: invalid refresh-family projection")
  if row.family.projectionVersion = 0 then
    .error (.message "store: refresh-family projection has an invalid version")
  else do
    (validateRefreshExpiry row.token.expiresAt).mapError
      (.wrapped "store: invalid refresh-token projection")
    .ok row

def refreshFamilyToken (hash : TokenHash) (d : Db) : Except StoreError RefreshFamilyToken :=
  match findRefreshFamilyToken d hash with
  | none => .error (.wrapped "store: read refresh-family token" .noRows)
  | some row => refreshFamilyTokenFromRow row

/-! ## Projectors -/

/-- Go's `fmt.Errorf("subject affected %d rows; want one")`, as a check. -/
def requireOne (subject rows : String) (affected : Nat) : ProjProg Unit :=
  require (affected == 1)
    (.message ("store: " ++ subject ++ " affected " ++ toString affected ++ " " ++ rows ++
      "; want one"))

def projectRefreshFamilyStart (e : Ev) (payload : Payload RefreshFamilyStartedPayload) :
    ProjProg Unit := do
  require (e.streamVersion == 1)
    (.message ("store: refresh-family start must be stream version 1, got " ++
      toString e.streamVersion))
  let p ← ofExcept (decodeEventPayload "RefreshFamilyStarted" e.toEvent
    refreshFamilyPayloadVersion payload)
  ofExcept (validateRefreshSubject p.subject)
  ofExcept (validateRefreshExpiry p.expiresAt)
  let families ← (insertRefreshFamily e.streamID
    { subject := p.subject
      projectionVersion := e.streamVersion
      activeTokenHash := p.tokenHash
      revoked := false
      updatedAt := e.createdAt }).mapError (.wrapped "store: project refresh-family start")
  requireOne "refresh-family start" "families" families
  let tokens ← (insertRefreshToken p.tokenHash e.streamID p.expiresAt).mapError
    (.wrapped "store: project initial refresh token")
  requireOne "refresh-family start" "tokens" tokens

/-- The family of an event, at the version before it and not revoked. -/
def inspectFamily (e : Ev) (missing revoked : String) : ProjProg FamilyRow := do
  let family ← getRefreshFamily e.streamID
  match family with
  | none => .fail (.message missing)
  | some row => do
      require (row.projectionVersion + 1 == e.streamVersion)
        (.message "store: refresh-family projection version is inconsistent")
      require (!row.revoked) (.message revoked)
      pure row

def projectRefreshTokenRotation (e : Ev) (payload : Payload RefreshTokenRotatedPayload) :
    ProjProg Unit := do
  let missing := "store: refresh-token rotation requires a prior family start"
  require (1 < e.streamVersion) (.message missing)
  let p ← ofExcept (decodeEventPayload "RefreshTokenRotated" e.toEvent
    refreshFamilyPayloadVersion payload)
  require (p.previousTokenHash != p.nextTokenHash)
    (.message "store: refresh-token rotation hashes are identical")
  ofExcept (validateRefreshExpiry p.expiresAt)
  let family ← inspectFamily e missing "store: cannot rotate a revoked refresh family"
  require (family.activeTokenHash == p.previousTokenHash)
    (.message "store: refresh-token rotation does not match the active token")
  let families ← (projectRefreshFamilyRotation e.streamID e.streamVersion e.createdAt
    p.previousTokenHash p.nextTokenHash).mapError
      (.wrapped "store: project refresh-family rotation")
  requireOne "refresh-token rotation" "families" families
  let prior ← (projectRefreshTokenSuperseded e.streamID p.previousTokenHash).mapError
    (.wrapped "store: supersede refresh token")
  requireOne "refresh-token rotation" "prior tokens" prior
  let next ← (insertRefreshToken p.nextTokenHash e.streamID p.expiresAt).mapError
    (.wrapped "store: project rotated refresh token")
  requireOne "refresh-token rotation" "next tokens" next

def projectRefreshFamilyRevocation (e : Ev) (payload : Payload RefreshFamilyRevokedPayload) :
    ProjProg Unit := do
  let missing := "store: refresh-family revocation requires a prior family start"
  require (1 < e.streamVersion) (.message missing)
  let p ← ofExcept (decodeEventPayload "RefreshFamilyRevoked" e.toEvent
    refreshFamilyPayloadVersion payload)
  let _ ← inspectFamily e missing "store: refresh family is already revoked"
  let replayed ← query fun d =>
    (findRefreshFamilyToken d p.replayedTokenHash).elim
      (.error (.message "store: refresh-family revocation token is not in the family")) .ok
  require (replayed.familyID == e.streamID)
    (.message "store: refresh-family revocation token belongs to another family")
  require replayed.token.superseded
    (.message "store: refresh-family revocation token is not superseded")
  let families ← (projectRefreshFamilyRevocationRow e.streamID e.streamVersion e.createdAt).mapError
    (.wrapped "store: project refresh-family revocation")
  requireOne "refresh-family revocation" "families" families

/-- The projector of an event. -/
def project (e : Ev) : ProjProg Unit :=
  match e.body with
  | .familyStarted payload => projectRefreshFamilyStart e payload
  | .tokenRotated payload => projectRefreshTokenRotation e payload
  | .familyRevoked payload => projectRefreshFamilyRevocation e payload

/-- `RefreshFamilyRebuildTarget`. -/
def refreshFamiliesTarget : RebuildTarget Body Tables where
  name := "refresh-families"
  tables := ["refresh_families", "refresh_tokens"]
  sharedTables := []
  streamTypes := [refreshFamilyStreamType]
  ownsEvent _ := true
  reset _ := ⟨∅, ∅⟩

/-- The registry of the refresh families. -/
def registry : Registry Body Tables Write Key where
  eventType := Body.eventType
  targets := [refreshFamiliesTarget]
  stream_owner := by
    intro t ht t' ht' _ _ _
    rw [List.mem_singleton.mp ht, List.mem_singleton.mp ht']
  schema := productionSchema
  project _ := project
  protectLastAdmin _ := false
  countEnabledAdmins _ := 0
  deferred _ := none

/-! ## What stored events do -/

variable {d d' : Db} {e : Ev}

/-- A started family and its first token. -/
structure Started (d : Db) (e : Ev) (p : RefreshFamilyStartedPayload) (d' : Db) : Prop where
  body : e.body = .familyStarted (.decoded p)
  familyID : ulidCheck e.streamID = true
  version : e.streamVersion = 1
  subject : validateRefreshSubject p.subject = .ok ()
  expires : 0 < p.expiresAt
  newFamily : d.tables.families.find e.streamID = none
  newToken : d.tables.tokens.find p.tokenHash = none
  families : d'.tables.families = d.tables.families.put e.streamID
    (some ⟨p.subject, e.streamVersion, p.tokenHash, false, e.createdAt⟩)
  tokens : d'.tables.tokens = d.tables.tokens.put p.tokenHash
    (some ⟨e.streamID, p.expiresAt, false⟩)

/-- An exchange of a family's active token. -/
structure Rotated (d : Db) (e : Ev) (p : RefreshTokenRotatedPayload) (d' : Db) : Prop where
  body : e.body = .tokenRotated (.decoded p)
  expires : 0 < p.expiresAt
  differ : p.previousTokenHash ≠ p.nextTokenHash
  newToken : d.tables.tokens.find p.nextTokenHash = none
  rows : ∃ family token, d.tables.families.find e.streamID = some family ∧
    family.projectionVersion + 1 = e.streamVersion ∧ family.revoked = false ∧
    family.activeTokenHash = p.previousTokenHash ∧
    d.tables.tokens.find p.previousTokenHash = some token ∧ token.familyID = e.streamID ∧
    token.superseded = false ∧
    d'.tables.families = d.tables.families.put e.streamID
      (some { family with
        projectionVersion := e.streamVersion
        activeTokenHash := p.nextTokenHash
        updatedAt := e.createdAt }) ∧
    d'.tables.tokens = (d.tables.tokens.put p.previousTokenHash
      (some { token with superseded := true })).put p.nextTokenHash
        (some ⟨e.streamID, p.expiresAt, false⟩)

/-- A revocation of a family because of a superseded token. -/
structure FamilyRevoked (d : Db) (e : Ev) (p : RefreshFamilyRevokedPayload) (d' : Db) : Prop where
  body : e.body = .familyRevoked (.decoded p)
  rows : ∃ family token, d.tables.families.find e.streamID = some family ∧
    family.projectionVersion + 1 = e.streamVersion ∧ family.revoked = false ∧
    d.tables.tokens.find p.replayedTokenHash = some token ∧ token.familyID = e.streamID ∧
    token.superseded = true ∧
    d'.tables.families = d.tables.families.put e.streamID
      (some { family with
        projectionVersion := e.streamVersion, revoked := true, updatedAt := e.createdAt }) ∧
    d'.tables.tokens = d.tables.tokens

/-- The database with one family's row replaced. -/
def putFamily (d : Db) (familyID : String) (row : FamilyRow) : Db :=
  { d with tables := { d.tables with families := d.tables.families.put familyID (some row) } }

/-- The database with one token's row replaced. -/
def putToken (d : Db) (hash : TokenHash) (row : TokenRow) : Db :=
  { d with tables := { d.tables with tokens := d.tables.tokens.put hash (some row) } }

@[simp]
theorem putFamily_tokens (d : Db) (familyID : String) (row : FamilyRow) :
    (putFamily d familyID row).tables.tokens = d.tables.tokens :=
  rfl

@[simp]
theorem putToken_tokens (d : Db) (hash : TokenHash) (row : TokenRow) :
    (putToken d hash row).tables.tokens = d.tables.tokens.put hash (some row) :=
  rfl

variable {u : Unit} {familyID : String} {hash : TokenHash} {family : FamilyRow}

theorem run_requireOne {subject rows : String} {affected : Nat}
    (h : (requireOne subject rows affected).run d = .ok (u, d')) : affected = 1 ∧ d' = d := by
  simpa only [requireOne, run_require_ok, beq_iff_eq] using h

variable {n : Nat}

theorem run_insertRefreshFamily {row : FamilyRow}
    (h : (insertRefreshFamily familyID row).run d = .ok (n, d')) :
    ulidCheck familyID = true ∧ d.tables.families.find familyID = none ∧
      d' = putFamily d familyID row := by
  obtain ⟨ws, hexec, rfl⟩ := run_statement_ok.mp h
  simp only [checkFamily, bind_eq_ok, ite_error_eq_ok, Except.ok.injEq, Prod.mk.injEq] at hexec
  obtain ⟨_, ⟨hid, -⟩, hnone, _, -, rfl, -⟩ := hexec
  have hnone : d.tables.families.find familyID = none := by simpa using hnone
  refine ⟨by simpa using hid, hnone, ?_⟩
  rw [putFamily, ← Table.insert_eq_put hnone]
  rfl

theorem run_insertRefreshToken {expiresAt : Int}
    (h : (insertRefreshToken hash familyID expiresAt).run d = .ok (n, d')) :
    d.tables.tokens.find hash = none ∧
      d' = putToken d hash ⟨familyID, expiresAt, false⟩ := by
  obtain ⟨ws, hexec, rfl⟩ := run_statement_ok.mp h
  simp at hexec
  obtain ⟨hnone, -, rfl, -⟩ := hexec
  have hnone : d.tables.tokens.find hash = none := by simpa using hnone
  refine ⟨hnone, ?_⟩
  rw [putToken, ← Table.insert_eq_put hnone]
  rfl

/-- The inspected family is at the version before the event. -/
theorem run_inspectFamily {missing revoked : String}
    (h : (inspectFamily e missing revoked).run d = .ok (family, d')) :
    d.tables.families.find e.streamID = some family ∧
      family.projectionVersion + 1 = e.streamVersion ∧ family.revoked = false ∧ d' = d := by
  simp only [inspectFamily, getRefreshFamily, bind_eq, run_bind_ok,
    run_query_ok, Except.ok.injEq] at h
  obtain ⟨found, d₁, ⟨rfl, rfl⟩, h⟩ := h
  cases hfind : d₁.tables.families.find e.streamID with
  | none => simp [hfind] at h
  | some row =>
    simp only [hfind, run_bind_ok, run_require_ok, beq_iff_eq,
      Bool.not_eq_true', pure_eq, run_ret_ok] at h
    obtain ⟨_, _, ⟨hversion, rfl⟩, _, _, ⟨hrevoked, rfl⟩, rfl, rfl⟩ := h
    exact ⟨rfl, hversion, hrevoked, rfl⟩

variable {version updatedAt n : Nat}

theorem run_projectRefreshFamilyRotation {previous next : TokenHash}
    (hfind : d.tables.families.find familyID = some family)
    (h : (projectRefreshFamilyRotation familyID version updatedAt previous next).run d =
      .ok (n, d')) (hn : n = 1) :
    d' = putFamily d familyID { family with
      projectionVersion := version, activeTokenHash := next, updatedAt } := by
  rcases run_affect_ok.mp h with ⟨-, hzero, -⟩ | ⟨row, ws, -, hchange, -, rfl⟩
  · omega
  · simp [bind_eq_ok] at hchange
    obtain ⟨_, -, rfl⟩ := hchange
    have hput := Table.update_eq_put hfind fun row =>
      { row with projectionVersion := version, activeTokenHash := next, updatedAt }
    rw [putFamily, ← hput]
    rfl

theorem run_projectRefreshTokenSuperseded
    (h : (projectRefreshTokenSuperseded familyID hash).run d = .ok (n, d')) (hn : n = 1) :
    ∃ token, d.tables.tokens.find hash = some token ∧ token.familyID = familyID ∧
      token.superseded = false ∧ d' = putToken d hash { token with superseded := true } := by
  rcases run_affect_ok.mp h with ⟨-, hzero, -⟩ | ⟨token, ws, hrow, hchange, -, rfl⟩
  · omega
  · obtain ⟨hfind, hselected⟩ := Option.filter_eq_some_iff.mp hrow
    simp only [Bool.and_eq_true, beq_iff_eq, Bool.not_eq_true'] at hselected
    simp at hchange
    subst hchange
    refine ⟨token, hfind, hselected.1, hselected.2, ?_⟩
    have hput := Table.update_eq_put hfind fun row => { row with superseded := true }
    rw [putToken, ← hput]
    rfl

theorem run_projectRefreshFamilyRevocationRow
    (hfind : d.tables.families.find familyID = some family)
    (h : (projectRefreshFamilyRevocationRow familyID version updatedAt).run d = .ok (n, d'))
    (hn : n = 1) :
    d' = putFamily d familyID { family with
      projectionVersion := version, revoked := true, updatedAt } := by
  rcases run_affect_ok.mp h with ⟨-, hzero, -⟩ | ⟨row, ws, -, hchange, -, rfl⟩
  · omega
  · simp at hchange
    subst hchange
    have hput := Table.update_eq_put hfind fun row =>
      { row with projectionVersion := version, revoked := true, updatedAt }
    rw [putFamily, ← hput]
    rfl

theorem validateRefreshExpiry_ok {expiresAt : Int} (h : validateRefreshExpiry expiresAt = .ok u) :
    0 < expiresAt := by
  simp [validateRefreshExpiry] at h
  omega

theorem run_projectRefreshFamilyStart {payload : Payload RefreshFamilyStartedPayload}
    (hbody : e.body = .familyStarted payload)
    (h : (projectRefreshFamilyStart e payload).run d = .ok (u, d')) : ∃ p, Started d e p d' := by
  simp only [projectRefreshFamilyStart, bind_eq, run_bind_ok, run_require_ok,
    run_ofExcept_ok, run_mapError_ok, beq_iff_eq] at h
  obtain ⟨_, _, ⟨hversion, rfl⟩, p, _, ⟨hdecode, rfl⟩, _, _, ⟨hsubject, rfl⟩, _, _,
    ⟨hexpires, rfl⟩, families, _, hfamily, _, _, hone, tokens, _, htoken, hone'⟩ := h
  obtain ⟨hid, hnone, rfl⟩ := run_insertRefreshFamily hfamily
  obtain ⟨-, rfl⟩ := run_requireOne hone
  obtain ⟨hnone', rfl⟩ := run_insertRefreshToken htoken
  obtain ⟨-, rfl⟩ := run_requireOne hone'
  refine ⟨p, ?_, hid, hversion, hsubject, validateRefreshExpiry_ok hexpires, hnone, hnone', rfl,
    rfl⟩
  rw [hbody, decodeEventPayload_ok hdecode]

theorem run_projectRefreshTokenRotation {payload : Payload RefreshTokenRotatedPayload}
    (hbody : e.body = .tokenRotated payload)
    (h : (projectRefreshTokenRotation e payload).run d = .ok (u, d')) : ∃ p, Rotated d e p d' := by
  simp only [projectRefreshTokenRotation, bind_eq, run_bind_ok, run_require_ok,
    run_ofExcept_ok, run_mapError_ok, beq_iff_eq, bne_iff_ne] at h
  obtain ⟨_, _, ⟨-, rfl⟩, p, _, ⟨hdecode, rfl⟩, _, _, ⟨hdiffer, rfl⟩, _, _, ⟨hexpires, rfl⟩,
    family, _, hinspect, _, _, ⟨hactive, rfl⟩, n, _, hfamily, _, _, hone, n', _, hprior, _, _,
    hone', n'', _, hnext, hone''⟩ := h
  obtain ⟨hfind, hversion, hrevoked, rfl⟩ := run_inspectFamily hinspect
  obtain ⟨hn, rfl⟩ := run_requireOne hone
  obtain rfl := run_projectRefreshFamilyRotation hfind hfamily hn
  obtain ⟨hn', rfl⟩ := run_requireOne hone'
  obtain ⟨token, htoken, howner, hcurrent, rfl⟩ := run_projectRefreshTokenSuperseded hprior hn'
  obtain ⟨-, rfl⟩ := run_requireOne hone''
  obtain ⟨hnew, rfl⟩ := run_insertRefreshToken hnext
  simp only [putToken_tokens, putFamily_tokens, find_put, if_neg (Ne.symm hdiffer)] at hnew
  refine ⟨p, ?_, validateRefreshExpiry_ok hexpires, hdiffer, hnew, family, token, hfind, hversion,
    hrevoked, hactive, htoken, howner, hcurrent, rfl, rfl⟩
  rw [hbody, decodeEventPayload_ok hdecode]

theorem elim_error_eq_ok {α : Type} {o : Option α} {error : StoreError} {a : α} :
    o.elim (.error error) .ok = (.ok a : Except StoreError α) ↔ o = some a := by
  cases o <;> simp

theorem run_projectRefreshFamilyRevocation {payload : Payload RefreshFamilyRevokedPayload}
    (hbody : e.body = .familyRevoked payload)
    (h : (projectRefreshFamilyRevocation e payload).run d = .ok (u, d')) :
    ∃ p, FamilyRevoked d e p d' := by
  simp only [projectRefreshFamilyRevocation, bind_eq, run_bind_ok, run_require_ok,
    run_ofExcept_ok, run_mapError_ok, run_query_ok, beq_iff_eq] at h
  obtain ⟨_, _, ⟨-, rfl⟩, p, _, ⟨hdecode, rfl⟩, family, _, hinspect, replayed, d₁, ⟨hread, rfl⟩,
    _, _, ⟨howner, rfl⟩, _, _, ⟨hsuperseded, rfl⟩, n, _, hfamily, hone⟩ := h
  obtain ⟨hfind, hversion, hrevoked, rfl⟩ := run_inspectFamily hinspect
  obtain ⟨hn, rfl⟩ := run_requireOne hone
  obtain rfl := run_projectRefreshFamilyRevocationRow hfind hfamily hn
  have hfound := elim_error_eq_ok.mp hread
  simp [findRefreshFamilyToken, Option.bind_eq_some_iff] at hfound
  obtain ⟨token, htoken, family', -, rfl⟩ := hfound
  refine ⟨p, ?_, family, token, hfind, hversion, hrevoked, htoken, howner, hsuperseded, rfl, rfl⟩
  rw [hbody, decodeEventPayload_ok hdecode]

/-- What a stored event does to the tables. -/
theorem accept_cases (h : acceptEvent registry d e = .ok d') :
    (∃ p, Started d e p d') ∨ (∃ p, Rotated d e p d') ∨ ∃ p, FamilyRevoked d e p d' := by
  have hrun : (project e).run { d with events := d.events ++ [e] } = .ok ((), d') :=
    projectEvent_ok.mp h
  unfold project at hrun
  split at hrun
  · rename_i payload hbody
    obtain ⟨p, hp⟩ := run_projectRefreshFamilyStart hbody hrun
    exact .inl ⟨p, hp.body, hp.familyID, hp.version, hp.subject, hp.expires, hp.newFamily,
      hp.newToken, hp.families, hp.tokens⟩
  · rename_i payload hbody
    obtain ⟨p, hp⟩ := run_projectRefreshTokenRotation hbody hrun
    exact .inr (.inl ⟨p, hp.body, hp.expires, hp.differ, hp.newToken, hp.rows⟩)
  · rename_i payload hbody
    obtain ⟨p, hp⟩ := run_projectRefreshFamilyRevocation hbody hrun
    exact .inr (.inr ⟨p, hp.body, hp.rows⟩)

variable {event : Event Body} {createdAt : Nat}

theorem refreshFamilyStartedEvent_ok {subject : String} {expiresAt : Int}
    (h : refreshFamilyStartedEvent familyID subject hash expiresAt createdAt = .ok event) :
    event.body = .familyStarted (.decoded ⟨subject, hash, expiresAt⟩) := by
  simp [refreshFamilyStartedEvent, bind_eq_ok] at h
  obtain ⟨_, -, _, -, _, -, rfl⟩ := h
  rfl

theorem refreshTokenRotatedEvent_ok {previous next : TokenHash} {expiresAt : Int}
    (h : refreshTokenRotatedEvent familyID previous next expiresAt createdAt = .ok event) :
    event.body = .tokenRotated (.decoded ⟨previous, next, expiresAt⟩) := by
  simp [refreshTokenRotatedEvent, bind_eq_ok] at h
  obtain ⟨_, -, -, _, -, rfl⟩ := h
  rfl

theorem refreshFamilyRevokedEvent_ok {replayed : TokenHash}
    (h : refreshFamilyRevokedEvent familyID replayed createdAt = .ok event) :
    event.body = .familyRevoked (.decoded ⟨replayed⟩) := by
  simp [refreshFamilyRevokedEvent, bind_eq_ok] at h
  obtain ⟨_, -, rfl⟩ := h
  rfl

theorem refreshFamilyToken_ok {state : RefreshFamilyToken}
    (h : refreshFamilyToken hash d = .ok state) :
    d.tables.tokens.find hash = some state.token ∧ state.token.familyID = state.familyID ∧
      d.tables.families.find state.familyID = some state.family := by
  unfold refreshFamilyToken at h
  cases hrow : findRefreshFamilyToken d hash with
  | none => simp [hrow] at h
  | some row =>
    simp [hrow, refreshFamilyTokenFromRow, bind_eq_ok] at h
    obtain ⟨_, -, _, -, -, _, -, rfl⟩ := h
    simp [findRefreshFamilyToken, Option.bind_eq_some_iff] at hrow
    obtain ⟨token, htoken, family, hfamily, rfl⟩ := hrow
    exact ⟨htoken, rfl, hfamily⟩

/-! ## The invariant of the families -/

/-- The successor that an event exchanges a token for. -/
def successorOf (hash : TokenHash) (e : Ev) : Option TokenHash :=
  match e.body with
  | .tokenRotated (.decoded p) => if p.previousTokenHash = hash then some p.nextTokenHash else none
  | _ => none

/-- The successors that a token was exchanged for. -/
def exchanges (d : Db) (hash : TokenHash) : List TokenHash :=
  d.events.filterMap (successorOf hash)

/-- The token is stored as superseded. -/
def Superseded (hash : TokenHash) (d : Db) : Prop :=
  ∃ token, d.tables.tokens.find hash = some token ∧ token.superseded = true

/-- The token is one of a family's. -/
def Belongs (familyID : String) (hash : TokenHash) (d : Db) : Prop :=
  ∃ token, d.tables.tokens.find hash = some token ∧ token.familyID = familyID

/-- The family is stored as revoked. -/
def Revoked (familyID : String) (d : Db) : Prop :=
  ∃ family, d.tables.families.find familyID = some family ∧ family.revoked = true

/-- A family's row as the projectors write it. -/
def FamilyRow.Stored (familyID : String) (row : FamilyRow) : Prop :=
  ulidCheck familyID = true ∧ validateRefreshSubject row.subject = .ok () ∧
    0 < row.projectionVersion

/-- What holds of the families in every reachable state. -/
structure FamilyInv (d : Db) : Prop where
  stored : d.tables.families.AllRows fun familyID family => family.Stored familyID
  owned : ∀ hash token, d.tables.tokens.find hash = some token →
    ∃ family, d.tables.families.find token.familyID = some family
  active : ∀ familyID family, d.tables.families.find familyID = some family →
    ∃ token, d.tables.tokens.find family.activeTokenHash = some token ∧
      token.familyID = familyID ∧ token.superseded = false
  single : ∀ hash token family, d.tables.tokens.find hash = some token →
    d.tables.families.find token.familyID = some family → token.superseded = false →
      hash = family.activeTokenHash
  spent : ∀ hash next, next ∈ exchanges d hash → Superseded hash d
  once : ∀ hash, (exchanges d hash).length ≤ 1

theorem Started.successorOf {p : RefreshFamilyStartedPayload} (h : Started d e p d')
    (hash : TokenHash) : successorOf hash e = none := by
  simp [Auth.successorOf, h.body]

theorem FamilyRevoked.successorOf {p : RefreshFamilyRevokedPayload} (h : FamilyRevoked d e p d')
    (hash : TokenHash) : successorOf hash e = none := by
  simp [Auth.successorOf, h.body]

theorem Rotated.successorOf {p : RefreshTokenRotatedPayload} (h : Rotated d e p d')
    (hash : TokenHash) :
    successorOf hash e = if p.previousTokenHash = hash then some p.nextTokenHash else none := by
  simp [Auth.successorOf, h.body]

/-- A family in use is not a revoked one. -/
theorem ne_of_revoked {id : String} (hrevoked : Revoked familyID d)
    (hfind : d.tables.families.find id = some family) (hlive : family.revoked = false) :
    familyID ≠ id := by
  rintro rfl
  obtain ⟨row, hrow, hrevoked⟩ := hrevoked
  rw [hfind] at hrow
  cases hrow
  simp [hlive] at hrevoked

section accepted

variable (h : acceptEvent registry d e = .ok d')
include h

theorem exchanges_accept (hash : TokenHash) :
    exchanges d' hash = exchanges d hash ++ (successorOf hash e).toList := by
  rw [exchanges, acceptEvent_events h, List.filterMap_append, exchanges]
  cases hnext : successorOf hash e <;> simp [hnext]

/-- A stored event keeps every token in its family, and a superseded one superseded. -/
theorem accept_token {token : TokenRow} (hfind : d.tables.tokens.find hash = some token) :
    ∃ token', d'.tables.tokens.find hash = some token' ∧ token'.familyID = token.familyID ∧
      (token.superseded = true → token'.superseded = true) := by
  rcases accept_cases h with ⟨p, hp⟩ | ⟨p, hp⟩ | ⟨p, hp⟩
  · have hne := ne_of_find hp.newToken hfind
    exact ⟨token, by rw [hp.tokens, find_put, if_neg hne, hfind], rfl, id⟩
  · obtain ⟨family, previous, -, -, -, -, hprevious, -, -, -, htokens⟩ := hp.rows
    have hne := ne_of_find hp.newToken hfind
    by_cases hsame : hash = p.previousTokenHash
    · subst hsame
      rw [hprevious] at hfind
      cases hfind
      exact ⟨{ token with superseded := true },
        by rw [htokens, find_put, if_neg hne, find_put, if_pos rfl], rfl, fun _ => rfl⟩
    · exact ⟨token, by rw [htokens, find_put, if_neg hne, find_put, if_neg hsame, hfind], rfl, id⟩
  · obtain ⟨_, _, -, -, -, -, -, -, -, htokens⟩ := hp.rows
    exact ⟨token, by rw [htokens, hfind], rfl, id⟩

/-- A stored event keeps a revoked family revoked. -/
theorem accept_revoked (hrevoked : Revoked familyID d) : Revoked familyID d' := by
  obtain ⟨family, hfind, hfamily⟩ := id hrevoked
  refine ⟨family, ?_, hfamily⟩
  rcases accept_cases h with ⟨p, hp⟩ | ⟨p, hp⟩ | ⟨p, hp⟩
  · rw [hp.families, find_put, if_neg (ne_of_find hp.newFamily hfind), hfind]
  · obtain ⟨row, _, hrow, -, hlive, -, -, -, -, hfamilies, -⟩ := hp.rows
    rw [hfamilies, find_put, if_neg (ne_of_revoked hrevoked hrow hlive), hfind]
  · obtain ⟨row, _, hrow, -, hlive, -, -, -, hfamilies, -⟩ := hp.rows
    rw [hfamilies, find_put, if_neg (ne_of_revoked hrevoked hrow hlive), hfind]

theorem accept_superseded (hsuperseded : Superseded hash d) : Superseded hash d' := by
  obtain ⟨token, hfind, hold⟩ := hsuperseded
  obtain ⟨token', hfind', -, hnew⟩ := accept_token h hfind
  exact ⟨token', hfind', hnew hold⟩

theorem accept_belongs (hbelongs : Belongs familyID hash d) : Belongs familyID hash d' := by
  obtain ⟨token, hfind, hold⟩ := hbelongs
  obtain ⟨token', hfind', hsame, -⟩ := accept_token h hfind
  exact ⟨token', hfind', hsame.trans hold⟩

/-- A stored event adds no token to a revoked family. -/
theorem belongs_of_accept (hrevoked : Revoked familyID d)
    (hbelongs : Belongs familyID hash d') : Belongs familyID hash d := by
  obtain ⟨token, hfind, hfamily⟩ := hbelongs
  rcases accept_cases h with ⟨p, hp⟩ | ⟨p, hp⟩ | ⟨p, hp⟩
  · rw [hp.tokens, find_put] at hfind
    split at hfind
    · cases hfind
      obtain ⟨row, hrow, -⟩ := hrevoked
      exact absurd hfamily.symm (ne_of_find hp.newFamily hrow)
    · exact ⟨token, hfind, hfamily⟩
  · obtain ⟨family, previous, hfind', -, hlive, -, hprevious, howner, -, -, htokens⟩ := hp.rows
    rw [htokens, find_put] at hfind
    split at hfind
    · cases hfind
      exact absurd hfamily.symm (ne_of_revoked hrevoked hfind' hlive)
    · rw [find_put] at hfind
      split at hfind
      · rename_i hsame
        cases hfind
        exact ⟨previous, hsame ▸ hprevious, hfamily⟩
      · exact ⟨token, hfind, hfamily⟩
  · obtain ⟨_, _, -, -, -, -, -, -, -, htokens⟩ := hp.rows
    exact ⟨token, htokens ▸ hfind, hfamily⟩

/-- A stored event exchanges no token of a revoked family. -/
theorem accept_exchanges_of_revoked (hrevoked : Revoked familyID d)
    (hbelongs : Belongs familyID hash d') : exchanges d' hash = exchanges d hash := by
  rw [exchanges_accept h]
  rcases accept_cases h with ⟨p, hp⟩ | ⟨p, hp⟩ | ⟨p, hp⟩
  · rw [hp.successorOf, Option.toList_none, List.append_nil]
  · rw [hp.successorOf]
    split
    · rename_i hsame
      subst hsame
      obtain ⟨row, previous, hrow, -, hlive, -, hprevious, howner, -, -, htokens⟩ := hp.rows
      obtain ⟨token, hfind, hfamily⟩ := hbelongs
      rw [htokens, find_put, if_neg hp.differ, find_put, if_pos rfl] at hfind
      cases hfind
      exact absurd (hfamily.symm.trans howner) (ne_of_revoked hrevoked hrow hlive)
    · rw [Option.toList_none, List.append_nil]
  · rw [hp.successorOf, Option.toList_none, List.append_nil]

end accepted

namespace FamilyInv

/-- An event that exchanges nothing leaves every exchange as it was. -/
theorem unexchanged (hinv : FamilyInv d) (h : acceptEvent registry d e = .ok d')
    (hnone : ∀ hash, successorOf hash e = none) :
    (∀ hash next, next ∈ exchanges d' hash → Superseded hash d') ∧
      ∀ hash, (exchanges d' hash).length ≤ 1 := by
  have hsame : ∀ hash, exchanges d' hash = exchanges d hash := by
    intro hash
    simp [exchanges_accept h, hnone]
  simp only [hsame]
  exact ⟨fun hash next hnext => accept_superseded h (hinv.spent hash next hnext), hinv.once⟩

/-- A started family is new, and so is its token. -/
theorem started (hinv : FamilyInv d) {p : RefreshFamilyStartedPayload} (hp : Started d e p d')
    (h : acceptEvent registry d e = .ok d') : FamilyInv d' where
  stored := by
    rw [hp.families]
    exact hinv.stored.put ⟨hp.familyID, hp.subject, hp.version ▸ Nat.one_pos⟩
  owned := by
    intro hash token hfind
    rw [hp.tokens, find_put] at hfind
    rw [hp.families, find_put]
    split at hfind
    · cases hfind
      exact ⟨_, if_pos rfl⟩
    · obtain ⟨family, hfamily⟩ := hinv.owned hash token hfind
      split
      · exact ⟨_, rfl⟩
      · exact ⟨family, hfamily⟩
  active := by
    intro familyID family hfind
    rw [hp.families, find_put] at hfind
    rw [hp.tokens, find_put]
    split at hfind
    · rename_i hsame
      cases hfind
      exact ⟨_, if_pos rfl, hsame.symm, rfl⟩
    · obtain ⟨token, htoken, hfamily, hlive⟩ := hinv.active familyID family hfind
      rw [if_neg (ne_of_find hp.newToken htoken)]
      exact ⟨token, htoken, hfamily, hlive⟩
  single := by
    intro hash token family hfind hfamily hlive
    rw [hp.tokens, find_put] at hfind
    rw [hp.families, find_put] at hfamily
    split at hfind
    · rename_i hsame
      cases hfind
      rw [if_pos rfl] at hfamily
      cases hfamily
      exact hsame
    · split at hfamily
      · rename_i hold
        obtain ⟨old, hfind'⟩ := hinv.owned hash token hfind
        exact absurd hold (ne_of_find hp.newFamily hfind')
      · exact hinv.single hash token family hfind hfamily hlive
  spent := (hinv.unexchanged h hp.successorOf).1
  once := (hinv.unexchanged h hp.successorOf).2

variable {p : RefreshTokenRotatedPayload}

/-- The exchanged token was not exchanged before. -/
theorem unspent (hinv : FamilyInv d) (hp : Rotated d e p d') :
    exchanges d p.previousTokenHash = [] := by
  obtain ⟨_, previous, -, -, -, -, hprevious, -, hlive, -, -⟩ := hp.rows
  rw [List.eq_nil_iff_forall_not_mem]
  intro next hnext
  obtain ⟨token, hfind, hspent⟩ := hinv.spent _ next hnext
  rw [hprevious] at hfind
  cases hfind
  rw [hlive] at hspent
  cases hspent

/-- The exchanged token was the family's only one in use, and its successor is new. -/
theorem rotated (hinv : FamilyInv d) (hp : Rotated d e p d')
    (h : acceptEvent registry d e = .ok d') : FamilyInv d' := by
  obtain ⟨row, previous, hrow, hversion, -, hactive, hprevious, howner, hlive, hfamilies,
    htokens⟩ := hp.rows
  refine ⟨?_, ?_, ?_, ?_, ?_, ?_⟩
  · rw [hfamilies]
    obtain ⟨hid, hsubject, -⟩ := hinv.stored e.streamID row hrow
    exact hinv.stored.put ⟨hid, hsubject, hversion ▸ Nat.succ_pos _⟩
  · intro hash token hfind
    rw [hfamilies, find_put]
    by_cases hfamily : token.familyID = e.streamID
    · exact ⟨_, if_pos hfamily⟩
    · rw [if_neg hfamily]
      rw [htokens, find_put] at hfind
      split at hfind
      · cases hfind
        exact absurd rfl hfamily
      · rw [find_put] at hfind
        split at hfind
        · cases hfind
          exact absurd howner hfamily
        · exact hinv.owned hash token hfind
  · intro familyID family hfind
    rw [hfamilies, find_put] at hfind
    rw [htokens, find_put]
    split at hfind
    · rename_i hsame
      cases hfind
      exact ⟨_, if_pos rfl, hsame.symm, rfl⟩
    · rename_i hother
      obtain ⟨token, htoken, hfamily, hcurrent⟩ := hinv.active familyID family hfind
      have hne := ne_of_find hp.newToken htoken
      have hne' : family.activeTokenHash ≠ p.previousTokenHash := by
        intro heq
        rw [heq, hprevious] at htoken
        cases htoken
        exact hother (hfamily.symm.trans howner)
      rw [if_neg hne, find_put, if_neg hne']
      exact ⟨token, htoken, hfamily, hcurrent⟩
  · intro hash token family hfind hfamily hcurrent
    rw [htokens, find_put] at hfind
    rw [hfamilies, find_put] at hfamily
    split at hfind
    · rename_i hsame
      cases hfind
      rw [if_pos rfl] at hfamily
      cases hfamily
      exact hsame
    · rw [find_put] at hfind
      split at hfind
      · cases hfind
        cases hcurrent
      · rename_i hother
        split at hfamily
        · rename_i hsame
          -- Another unsuperseded token of this family would have been the active one.
          have hrow' : d.tables.families.find token.familyID = some row := by rw [hsame, hrow]
          have heq := hinv.single hash token row hfind hrow' hcurrent
          exact absurd (heq.trans hactive) hother
        · exact hinv.single hash token family hfind hfamily hcurrent
  · intro hash next hnext
    rw [exchanges_accept h, List.mem_append] at hnext
    rcases hnext with hold | hnew
    · exact accept_superseded h (hinv.spent hash next hold)
    · rw [hp.successorOf] at hnew
      split at hnew
      · rename_i hsame
        subst hsame
        refine ⟨{ previous with superseded := true }, ?_, rfl⟩
        rw [htokens, find_put, if_neg hp.differ, find_put, if_pos rfl]
      · cases hnew
  · intro hash
    rw [exchanges_accept h, hp.successorOf]
    split
    · rename_i hsame
      subst hsame
      simp [hinv.unspent hp]
    · simpa using hinv.once hash

/-- A revocation leaves the tokens alone. -/
theorem familyRevoked (hinv : FamilyInv d) {p : RefreshFamilyRevokedPayload}
    (hp : FamilyRevoked d e p d') (h : acceptEvent registry d e = .ok d') : FamilyInv d' := by
  obtain ⟨row, _, hrow, hversion, -, -, -, -, hfamilies, htokens⟩ := hp.rows
  obtain ⟨hspent, honce⟩ := hinv.unexchanged h hp.successorOf
  refine ⟨?_, ?_, ?_, ?_, hspent, honce⟩
  · rw [hfamilies]
    obtain ⟨hid, hsubject, -⟩ := hinv.stored e.streamID row hrow
    exact hinv.stored.put ⟨hid, hsubject, hversion ▸ Nat.succ_pos _⟩
  · intro hash token hfind
    rw [htokens] at hfind
    rw [hfamilies, find_put]
    split
    · exact ⟨_, rfl⟩
    · exact hinv.owned hash token hfind
  · intro familyID family hfind
    rw [hfamilies, find_put] at hfind
    rw [htokens]
    split at hfind
    · rename_i hsame
      cases hfind
      rw [hsame]
      exact hinv.active e.streamID row hrow
    · exact hinv.active familyID family hfind
  · intro hash token family hfind hfamily hcurrent
    rw [htokens] at hfind
    rw [hfamilies, find_put] at hfamily
    split at hfamily
    · rename_i hsame
      cases hfamily
      exact hinv.single hash token row hfind (by rw [hsame, hrow]) hcurrent
    · exact hinv.single hash token family hfind hfamily hcurrent

/-- Every stored event keeps the invariant. -/
theorem accept (hinv : FamilyInv d) (h : acceptEvent registry d e = .ok d') : FamilyInv d' := by
  rcases accept_cases h with ⟨p, hp⟩ | ⟨p, hp⟩ | ⟨p, hp⟩
  · exact hinv.started hp h
  · exact hinv.rotated hp h
  · exact hinv.familyRevoked hp h

theorem empty : FamilyInv ⟨[], ∅, ∅⟩ :=
  ⟨nofun, nofun, nofun, nofun, nofun, fun _ => Nat.zero_le 1⟩

end FamilyInv

end PowerManage.Auth
