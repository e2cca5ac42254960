import PowerManage.Identity.Users

/-!
# Projectors of the bootstrap logins target

A bootstrap login is minted for an existing user and consumed once.
-/

namespace PowerManage.Identity

open Relational Store

variable {O X V : Type}

/-! ## Statements -/

/-- The check constraints of `bootstrap_logins`. -/
def checkLogin (loginID : String) (row : LoginRow) : Except StoreError Unit :=
  if ¬ ulidCheck loginID then
    .error (checkViolation "bootstrap_logins_login_id_ulid_check")
  else if ¬ ulidCheck row.userID then
    .error (checkViolation "bootstrap_logins_user_id_ulid_check")
  else if row.tokenHash.length ≠ 32 then
    .error (checkViolation "bootstrap_logins_token_hash_len_check")
  else if row.projectionVersion = 0 then
    .error (checkViolation "bootstrap_logins_projection_version_check")
  else .ok ()

def insertBootstrapLogin (loginID : String) (row : LoginRow) : ProjProg O X V Unit :=
  .write (fun _ => [.login loginID, .loginHash row.tokenHash])
    (fun d => do
      checkLogin loginID row
      if (d.tables.bootstrapLogins.find loginID).isSome then
        .error (uniqueViolation "bootstrap_logins_pkey")
      else if d.tables.bootstrapLogins.anyRow fun _ other => other.tokenHash == row.tokenHash then
        .error (uniqueViolation "bootstrap_logins_token_hash_key")
      else .ok ())
    fun _ => [.bootstrapLogins (.insert loginID row)]

def getBootstrapLoginByID (loginID : String) : ProjProg O X V LoginRow :=
  .query fun d =>
    match d.tables.bootstrapLogins.find loginID with
    | some row => .ok row
    | none => .error .noRows

/-- A login row after its consumption. -/
def consumedLogin (e : Ev O) (row : LoginRow) : LoginRow :=
  { row with consumed := true, projectionVersion := e.streamVersion, updatedAt := e.createdAt }

def consumeBootstrapLogin (e : Ev O) (context : StoreError → StoreError) (none : StoreError) :
    ProjProg O X V Unit :=
  .affectOne (fun _ => [.login e.streamID])
    (fun d => (d.tables.bootstrapLogins.find e.streamID).filter fun row =>
      !row.consumed && row.projectionVersion == e.streamVersion - 1)
    (fun _ row => do
      checkLogin e.streamID (consumedLogin e row)
      .ok [.bootstrapLogins (.update {e.streamID} (consumedLogin e))])
    context none

/-! ## Projectors -/

def bootstrapLoginPayloadVersion : Int := 1

section projectors

variable (e : Ev O)

/-- The checks of `projectBootstrapLoginMint` before its first read. -/
def validateBootstrapLoginMint (payload : Payload BootstrapLoginMintedPayload) :
    Except StoreError BootstrapLoginMintedPayload := do
  requireThat (e.streamVersion == 1)
    ("store: bootstrap login mint must be stream version 1, got " ++ toString e.streamVersion)
  requireThat (isCanonicalID e.streamID) "store: bootstrap login stream ID is not canonical"
  let payload ← decodePayload "BootstrapLoginMinted" e bootstrapLoginPayloadVersion payload
  requireThat (payload.tokenHash.length == 32) "store: bootstrap login mint hash is invalid"
  requireThat (isCanonicalID payload.userID) "store: bootstrap login user ID is not canonical"
  requireThat (0 < payload.expiresAt) "store: bootstrap login expiry is invalid"
  .ok payload

/-- The row of a minted login. -/
def mintedLogin (payload : BootstrapLoginMintedPayload) : LoginRow where
  tokenHash := payload.tokenHash
  userID := payload.userID
  expiresAt := payload.expiresAt
  consumed := false
  projectionVersion := e.streamVersion
  updatedAt := e.createdAt

def projectBootstrapLoginMint (payload : Payload BootstrapLoginMintedPayload) :
    ProjProg O X V Unit := do
  let payload ← Prog.ofExcept (validateBootstrapLoginMint e payload)
  let _ ← (getUserByID payload.userID).mapError
    (.wrapped "store: bootstrap login requires a user")
  (insertBootstrapLogin e.streamID (mintedLogin e payload)).mapError
    (.wrapped "store: project bootstrap login mint")

/-- The checks of `projectBootstrapLoginConsume` before its first read. -/
def validateBootstrapLoginConsume (payload : Payload Unit) : Except StoreError Unit := do
  requireThat (1 < e.streamVersion) "store: bootstrap login consume requires a prior mint"
  decodePayload "BootstrapLoginConsumed" e bootstrapLoginPayloadVersion payload

def projectBootstrapLoginConsume (payload : Payload Unit) : ProjProg O X V Unit := do
  Prog.ofExcept (validateBootstrapLoginConsume e payload)
  let current ← (getBootstrapLoginByID e.streamID).mapError
    (.wrapped "store: bootstrap login consume requires a prior mint")
  Prog.require (current.projectionVersion == e.streamVersion - 1)
    (.message "store: bootstrap login projection version is inconsistent")
  consumeBootstrapLogin e (.wrapped "store: project bootstrap login consume")
    (.message "store: bootstrap login consume affected 0 rows; want one")

/-- The projector of a bootstrap login event. -/
def projectBootstrapLogin : BootstrapLoginBody → ProjProg O X V Unit
  | .minted payload => projectBootstrapLoginMint e payload
  | .consumed payload => projectBootstrapLoginConsume e payload

end projectors

def resetBootstrapLogins (t : Tables X) : Tables X :=
  { t with bootstrapLogins := ∅ }

end PowerManage.Identity
