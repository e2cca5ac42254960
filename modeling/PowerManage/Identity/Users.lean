import PowerManage.Identity.Schema

/-!
# Projectors of the users target

User streams own the rows of `users`, `oidc_identities` and
`scim_identities`.  Every projector first validates its event, then issues
its statements in the source's order; each statement carries the constraints
that Postgres checks for it.
-/

namespace PowerManage.Identity

open Relational Store

variable {O X V : Type}

/-! ## Validators -/

/-- Fail with an error unless a check passes. -/
def requireElse (ok : Bool) (err : StoreError) : Except StoreError Unit :=
  if ok then .ok () else .error err

/-- Fail with a message unless a check passes. -/
def requireThat (ok : Bool) (text : String) : Except StoreError Unit :=
  requireElse ok (.message text)

@[simp]
theorem requireElse_eq_ok {ok : Bool} {err : StoreError} {u : Unit} :
    requireElse ok err = .ok u ↔ ok = true := by
  cases ok <;> simp [requireElse]

@[simp]
theorem requireThat_eq_ok {ok : Bool} {text : String} {u : Unit} :
    requireThat ok text = .ok u ↔ ok = true := by
  simp [requireThat]

def canonicalUserID (userID : String) : Except StoreError String :=
  (canonicalULID userID).mapError fun reason =>
    .wrapped "store: user ID is invalid" (.message reason)

def canonicalUserEmail (x : Externals) (email : String) : Except StoreError String :=
  let email := x.toLower (trimSpace email)
  let chars := email.toList
  let localPart := chars.takeWhile (· ≠ '@')
  let domain := (chars.dropWhile (· ≠ '@')).drop 1
  if byteLen email < 3 || 320 < byteLen email || chars.count '@' ≠ 1 ||
      localPart.isEmpty || domain.isEmpty || domain.head? = some '.' ||
      domain.getLast? = some '.' || chars.any fun c => isControl c || isSpace c then
    .error (.message "store: user email is invalid")
  else .ok email

def canonicalOIDCIssuer (x : Externals) (issuer : String) : Except StoreError String :=
  if ¬ validBoundedText issuer 2048 then .error (.message "store: OIDC issuer is invalid")
  else
    match x.parseURL issuer with
    | none => .error (.message "store: OIDC issuer is invalid")
    | some (scheme, host, hasUser, rawQuery, fragment, text) =>
      if scheme ≠ "https" || host = "" || hasUser || rawQuery ≠ "" || fragment ≠ "" then
        .error (.message "store: OIDC issuer is invalid")
      else .ok text

/-- The stored form of an e-mail is its canonical form. -/
def isCanonicalEmail (x : Externals) (email : String) : Bool :=
  match canonicalUserEmail x email with
  | .ok canonical => canonical == email
  | .error _ => false

/-- The stored form of an issuer is its canonical form. -/
def isCanonicalIssuer (x : Externals) (issuer : String) : Bool :=
  match canonicalOIDCIssuer x issuer with
  | .ok canonical => canonical == issuer
  | .error _ => false

def userPayloadVersion : Int := 1

def scimPayloadVersion : Int := 1

/-- Decode an identity event's payload. -/
def decodePayload {P : Type} (eventType : String) (e : Ev O) (payloadVersion : Int)
    (payload : Payload P) : Except StoreError P :=
  decodeEventPayload eventType e.toEvent payloadVersion payload

def errUserExists : StoreError := .message "store: user already exists"

/-! ## Statements on users -/

/-- The check constraints of `users`. -/
def checkUser (userID : String) (row : UserRow) : Except StoreError Unit :=
  if ¬ ulidCheck userID then .error (checkViolation "users_user_id_ulid_check")
  else if ¬ octetsBetween 3 320 row.email then .error (checkViolation "users_email_len_check")
  else if row.projectionVersion = 0 then
    .error (checkViolation "users_projection_version_check")
  else if row.sessionVersion = 0 then .error (checkViolation "users_session_version_check")
  else .ok ()

/-- The unique e-mail of `users`. -/
def uniqueEmail (t : Tables X) (userID email : String) : Except StoreError Unit :=
  if t.users.anyRow fun id row => id ≠ userID && row.email == email then
    .error (uniqueViolation "users_email_key")
  else .ok ()

def insertUser (userID : String) (row : UserRow) : ProjProg O X V Unit :=
  .write (fun _ => [.user userID, .userEmail row.email])
    (fun d => do
      checkUser userID row
      if (d.tables.users.find userID).isSome then .error (uniqueViolation "users_pkey")
      else uniqueEmail d.tables userID row.email)
    fun _ => [.users (.insert userID row)]

def getUserByID (userID : String) : ProjProg O X V UserRow :=
  .query fun d =>
    match d.tables.users.find userID with
    | some row => .ok row
    | none => .error .noRows

/-- An update that leaves the e-mail of the one user row that its condition selects. -/
def updateUser (userID : String) (selects : UserRow → Bool) (change : UserRow → UserRow)
    (context : StoreError → StoreError) (none : StoreError) : ProjProg O X V Unit :=
  .affectOne (fun _ => [.user userID])
    (fun d => (d.tables.users.find userID).filter selects)
    (fun _ row => do
      checkUser userID (change row)
      .ok [.users (.update {userID} change)])
    context none

/-- A deletion of the one user row that its condition selects; linked identities
cascade. -/
def deleteUser (userID : String) (selects : UserRow → Bool)
    (context : StoreError → StoreError) (none : StoreError) : ProjProg O X V Unit :=
  .affectOne (fun _ => [.user userID])
    (fun d => (d.tables.users.find userID).filter selects)
    (fun d _ => .ok
      [.users (.delete {userID}),
        .oidcIdentities (.delete (d.tables.oidcIdentities.keysWhere fun _ row =>
          row.userID == userID)),
        .scimIdentities (.delete (d.tables.scimIdentities.keysWhere fun _ row =>
          row.userID == userID))])
    context none

/-- The projection version that an event's predecessor left. -/
def atVersion (version : Nat) (row : UserRow) : Bool :=
  row.projectionVersion == version

/-- Move a user row to an event's version. -/
def advanceTo (e : Ev O) (row : UserRow) : UserRow :=
  { row with projectionVersion := e.streamVersion, updatedAt := e.createdAt }

def replaceManagedUser (e : Ev O) (email : String) (context : StoreError → StoreError)
    (none : StoreError) : ProjProg O X V Unit :=
  let change (row : UserRow) : UserRow := { advanceTo e row with email }
  .affectOne (fun _ => [.user e.streamID, .userEmail email])
    (fun d => (d.tables.users.find e.streamID).filter (atVersion (e.streamVersion - 1)))
    (fun d row => do
      checkUser e.streamID (change row)
      uniqueEmail d.tables e.streamID email
      .ok [.users (.update {e.streamID} change)])
    context none

/-! ## Statements on linked identities -/

/-- The check constraints that both identity tables share, by constraint name. -/
def checkIdentity (subjectCheck emailCheck slugCheck versionCheck : String)
    (subject email slug : String) (version : Nat) : Except StoreError Unit :=
  if ¬ octetsBetween 1 1024 subject then .error (checkViolation subjectCheck)
  else if ¬ octetsBetween 3 320 email then .error (checkViolation emailCheck)
  else if ¬ validProviderSlug slug then .error (checkViolation slugCheck)
  else if version ≤ 1 then .error (checkViolation versionCheck)
  else .ok ()

/-- The check constraints of `oidc_identities`. -/
def checkOIDCIdentity (issuer subject : String) (row : OIDCIdentityRow) : Except StoreError Unit :=
  if ¬ octetsBetween 1 2048 issuer then
    .error (checkViolation "oidc_identities_issuer_len_check")
  else
    checkIdentity "oidc_identities_subject_len_check" "oidc_identities_email_len_check"
      "oidc_identities_provider_slug_check" "oidc_identities_projection_version_check"
      subject row.email row.providerSlug row.projectionVersion

def insertOIDCIdentity (issuer subject : String) (row : OIDCIdentityRow) : ProjProg O X V Unit :=
  .write (fun _ => [.oidcIdentity issuer subject, .oidcProvider row.userID row.providerSlug])
    (fun d => do
      checkOIDCIdentity issuer subject row
      if (d.tables.oidcIdentities.find (issuer, subject)).isSome then
        .error (uniqueViolation "oidc_identities_pkey")
      else if d.tables.oidcIdentities.anyRow fun _ other =>
          other.userID == row.userID && other.providerSlug == row.providerSlug then
        .error (uniqueViolation "oidc_identities_user_provider_key")
      else if (d.tables.users.find row.userID).isNone then
        .error (foreignKeyViolation "oidc_identities_user_id_fkey")
      else .ok ())
    fun _ => [.oidcIdentities (.insert (issuer, subject) row)]

/-- `DeleteOIDCIdentityForInvalidation`. -/
def deleteOIDCIdentity (issuer subject slug userID : String)
    (context : StoreError → StoreError) (none : StoreError) : ProjProg O X V Unit :=
  .affectOne (fun _ => [.oidcIdentity issuer subject])
    (fun d => (d.tables.oidcIdentities.find (issuer, subject)).filter fun row =>
      row.providerSlug == slug && row.userID == userID)
    (fun _ _ => .ok [.oidcIdentities (.delete {(issuer, subject)})])
    context none

/-- The check constraints of `scim_identities`. -/
def checkSCIMIdentity (slug externalID : String) (row : SCIMIdentityRow) : Except StoreError Unit :=
  checkIdentity "scim_identities_external_id_len_check" "scim_identities_email_len_check"
    "scim_identities_slug_check" "scim_identities_projection_version_check"
    externalID row.email slug row.projectionVersion

def insertSCIMIdentity (slug externalID : String) (row : SCIMIdentityRow) : ProjProg O X V Unit :=
  .write (fun _ => [.scimIdentity slug externalID, .scimProvider row.userID slug])
    (fun d => do
      checkSCIMIdentity slug externalID row
      if (d.tables.scimIdentities.find (slug, externalID)).isSome then
        .error (uniqueViolation "scim_identities_pkey")
      else if d.tables.scimIdentities.anyRow fun key other =>
          other.userID == row.userID && key.1 == slug then
        .error (uniqueViolation "scim_identities_user_provider_key")
      else if (d.tables.users.find row.userID).isNone then
        .error (foreignKeyViolation "scim_identities_user_id_fkey")
      else .ok ())
    fun _ => [.scimIdentities (.insert (slug, externalID) row)]

def deleteSCIMIdentity (slug externalID userID : String)
    (context : StoreError → StoreError) (none : StoreError) : ProjProg O X V Unit :=
  .affectOne (fun _ => [.scimIdentity slug externalID])
    (fun d => (d.tables.scimIdentities.find (slug, externalID)).filter fun row =>
      row.userID == userID)
    (fun _ _ => .ok [.scimIdentities (.delete {(slug, externalID)})])
    context none

/-- `ReplaceOIDCIdentityEmailsForManagedUser`. -/
def replaceOIDCIdentityEmails (userID email : String) (updatedAt : Nat) : ProjProg O X V Unit :=
  .write (fun _ => []) (fun _ => .ok ()) fun d =>
    [.oidcIdentities (.update
      (d.tables.oidcIdentities.keysWhere fun _ row => row.userID == userID)
      fun row => { row with email, updatedAt })]

/-- `ReplaceSCIMIdentityEmailsForManagedUser`. -/
def replaceSCIMIdentityEmails (userID email : String) (updatedAt : Nat) : ProjProg O X V Unit :=
  .write (fun _ => []) (fun _ => .ok ()) fun d =>
    [.scimIdentities (.update
      (d.tables.scimIdentities.keysWhere fun _ row => row.userID == userID)
      fun row => { row with email, updatedAt })]

/-- `DeleteManagedUserGroupMembershipsForUser`. -/
def deleteUserGroupMemberships (userID : String) : ProjProg O X V Unit :=
  .write (fun _ => []) (fun _ => .ok ()) fun d =>
    [.managedUserGroupMembers (.delete
      (d.tables.managedUserGroupMembers.keysWhere fun key _ => key.2 == userID))]

/-- `DeleteSCIMGroupMembershipsForUser`. -/
def deleteSCIMGroupMemberships (userID : String) : ProjProg O X V Unit :=
  .write (fun _ => []) (fun _ => .ok ()) fun d =>
    [.scimGroupMembers (.delete (d.tables.scimGroupMembers.keysWhere fun key _ => key.2 == userID))]

def countUserIdentityLinks (userID : String) : ProjProg O X V Nat :=
  .query fun d => .ok
    ((d.tables.oidcIdentities.count fun _ row => row.userID == userID) +
      d.tables.scimIdentities.count fun _ row => row.userID == userID)

/-! ## User projectors -/

section projectors

variable (x : Externals) (e : Ev O)

/-- The row that `InsertUser` stores. -/
def newUser (email : String) : UserRow where
  email := email
  sessionVersion := 1
  disabled := false
  projectionVersion := e.streamVersion
  updatedAt := e.createdAt

/-- The checks of `projectUserCreation`. -/
def validateUserCreation (payload : Payload UserCreatedPayload) :
    Except StoreError UserCreatedPayload := do
  requireElse (e.streamVersion == 1) errUserExists
  requireThat (isCanonicalID e.streamID) "store: user creation stream ID is not canonical"
  let payload ← decodePayload "UserCreated" e userPayloadVersion payload
  requireThat (isCanonicalEmail x payload.email) "store: user creation email is not canonical"
  .ok payload

def projectUserCreation (payload : Payload UserCreatedPayload) : ProjProg O X V Unit := do
  let payload ← Prog.ofExcept (validateUserCreation x e payload)
  (insertUser e.streamID (newUser e payload.email)).mapError
    (.wrapped "store: project user creation")

/-- The checks of `projectManagedUserUpdate`. -/
def validateManagedUserUpdate (payload : Payload UserCreatedPayload) :
    Except StoreError UserCreatedPayload := do
  requireThat (2 ≤ e.streamVersion) "store: managed user update version is invalid"
  requireThat (isCanonicalID e.streamID) "store: managed user update stream ID is not canonical"
  let payload ← decodePayload "UserManagedUpdated" e userPayloadVersion payload
  requireThat (isCanonicalEmail x payload.email) "store: managed user email is not canonical"
  .ok payload

def projectManagedUserUpdate (payload : Payload UserCreatedPayload) : ProjProg O X V Unit := do
  let payload ← Prog.ofExcept (validateManagedUserUpdate x e payload)
  replaceManagedUser e payload.email (.wrapped "store: project managed user update")
    (.message "store: managed user update projection version mismatch")
  (replaceOIDCIdentityEmails e.streamID payload.email e.createdAt).mapError
    (.wrapped "store: update managed user's OIDC identities")
  (replaceSCIMIdentityEmails e.streamID payload.email e.createdAt).mapError
    (.wrapped "store: update managed user's SCIM identities")

/-- The checks of `projectManagedUserDeletion`. -/
def validateManagedUserDeletion (payload : Payload Unit) : Except StoreError Unit := do
  requireThat (2 ≤ e.streamVersion) "store: managed user deletion version is invalid"
  decodePayload "UserManagedDeleted" e userPayloadVersion payload
  requireThat (isCanonicalID e.streamID)
    "store: managed user deletion stream ID is not canonical"

def projectManagedUserDeletion (payload : Payload Unit) : ProjProg O X V Unit := do
  Prog.ofExcept (validateManagedUserDeletion e payload)
  (deleteUserGroupMemberships e.streamID).mapError
    (.wrapped "store: delete managed user-group memberships")
  (deleteSCIMGroupMemberships e.streamID).mapError
    (.wrapped "store: delete SCIM group memberships for managed user")
  deleteUser e.streamID (atVersion (e.streamVersion - 1))
    (.wrapped "store: project managed user deletion")
    (.message "store: managed user deletion projection version mismatch")

/-- The checks of `projectBootstrapAdminRoleGrant` before its first read. -/
def validateBootstrapAdminRoleGrant (payload : Payload RolePayload) : Except StoreError Unit := do
  requireThat (e.streamVersion == 2)
    ("store: bootstrap admin role grant must be stream version 2, got " ++ toString e.streamVersion)
  requireThat (isCanonicalID e.streamID)
    "store: bootstrap admin role grant stream ID is not canonical"
  let payload ← decodePayload "BootstrapAdminRoleGranted" e userPayloadVersion payload
  requireThat (payload.role == "admin") "store: bootstrap admin role grant is invalid"

def projectBootstrapAdminRoleGrant (payload : Payload RolePayload) : ProjProg O X V Unit := do
  Prog.ofExcept (validateBootstrapAdminRoleGrant e payload)
  let user ← (getUserByID e.streamID).mapError
    (.wrapped "store: bootstrap admin role grant requires a prior user")
  Prog.require (atVersion (e.streamVersion - 1) user)
    (.message "store: user projection version is inconsistent")
  updateUser e.streamID (atVersion (e.streamVersion - 1)) (advanceTo e)
    (.wrapped "store: project bootstrap admin role grant")
    (.message "store: bootstrap admin role grant affected 0 users; want one")

/-- The checks of `projectOIDCIdentityLink` before its first read. -/
def validateOIDCIdentityLink (payload : Payload OIDCIdentityLinkedPayload) :
    Except StoreError OIDCIdentityLinkedPayload := do
  requireThat (1 < e.streamVersion) "store: OIDC identity link requires a prior user"
  requireThat (isCanonicalID e.streamID) "store: OIDC identity link stream ID is not canonical"
  let payload ← decodePayload "OIDCIdentityLinked" e userPayloadVersion payload
  requireThat (validProviderSlug payload.providerSlug) "store: OIDC provider slug is invalid"
  requireThat (isCanonicalIssuer x payload.issuer) "store: OIDC issuer is not canonical"
  requireThat (validBoundedText payload.externalSubject 1024)
    "store: OIDC external subject is invalid"
  requireThat (isCanonicalEmail x payload.email) "store: OIDC identity email is not canonical"
  .ok payload

def projectOIDCIdentityLink (payload : Payload OIDCIdentityLinkedPayload) :
    ProjProg O X V Unit := do
  let payload ← Prog.ofExcept (validateOIDCIdentityLink x e payload)
  let user ← (getUserByID e.streamID).mapError fun err =>
    if err.isNotFound then .message "store: OIDC identity link requires a prior user"
    else .wrapped "store: inspect user before OIDC identity link" err
  Prog.require (atVersion (e.streamVersion - 1) user)
    (.message "store: user projection version is inconsistent")
  Prog.require (user.email == payload.email)
    (.message "store: OIDC identity email does not match user")
  (insertOIDCIdentity payload.issuer payload.externalSubject
    { providerSlug := payload.providerSlug, userID := e.streamID, email := payload.email,
      projectionVersion := e.streamVersion, updatedAt := e.createdAt }).mapError
    (.wrapped "store: project OIDC identity link")
  updateUser e.streamID
    (fun row => row.email == payload.email && atVersion (e.streamVersion - 1) row) (advanceTo e)
    (.wrapped "store: advance user after OIDC identity link")
    (.message "store: OIDC identity link advanced 0 users; want one")

def advanceSCIMUser (email : String) : ProjProg O X V Unit :=
  updateUser e.streamID
    (fun row => row.email == email && atVersion (e.streamVersion - 1) row) (advanceTo e)
    (.wrapped "store: advance user after SCIM identity change")
    (.message "store: SCIM identity change affected 0 users; want one")

/-- The checks of `projectSCIMIdentityLinked` before its first read. -/
def validateSCIMIdentityLink (payload : Payload SCIMIdentityLinkedPayload) :
    Except StoreError SCIMIdentityLinkedPayload := do
  requireThat (1 < e.streamVersion) "store: SCIM identity link requires a prior user"
  requireThat (isCanonicalID e.streamID) "store: SCIM identity stream ID is invalid"
  let payload ← decodePayload "SCIMIdentityLinked" e scimPayloadVersion payload
  requireThat (isCanonicalEmail x payload.email && validProviderSlug payload.providerSlug &&
    validBoundedText payload.externalID 1024) "store: SCIM identity link is invalid"
  .ok payload

def projectSCIMIdentityLinked (payload : Payload SCIMIdentityLinkedPayload) :
    ProjProg O X V Unit := do
  let payload ← Prog.ofExcept (validateSCIMIdentityLink x e payload)
  let user ← (getUserByID e.streamID).mapError
    (.wrapped "store: SCIM identity link requires a prior user")
  Prog.require (user.email == payload.email && atVersion (e.streamVersion - 1) user)
    (.message "store: SCIM identity link user is inconsistent")
  (insertSCIMIdentity payload.providerSlug payload.externalID
    { userID := e.streamID, email := payload.email, projectionVersion := e.streamVersion,
      updatedAt := e.createdAt }).mapError (.wrapped "store: project SCIM identity link")
  advanceSCIMUser e payload.email

/-- The checks of `projectSCIMIdentityUnlinked` before its first read. -/
def validateSCIMIdentityUnlink (payload : Payload SCIMIdentityUnlinkedPayload) :
    Except StoreError SCIMIdentityUnlinkedPayload := do
  requireThat (1 < e.streamVersion) "store: SCIM identity unlink requires a prior user"
  requireThat (isCanonicalID e.streamID) "store: SCIM identity stream ID is invalid"
  let payload ← decodePayload "SCIMIdentityUnlinked" e scimPayloadVersion payload
  requireThat (validProviderSlug payload.providerSlug &&
    validBoundedText payload.externalID 1024) "store: SCIM identity unlink is invalid"
  .ok payload

def projectSCIMIdentityUnlinked (payload : Payload SCIMIdentityUnlinkedPayload) :
    ProjProg O X V Unit := do
  let payload ← Prog.ofExcept (validateSCIMIdentityUnlink e payload)
  let user ← (getUserByID e.streamID).mapError
    (.wrapped "store: SCIM identity unlink requires a prior user")
  Prog.require (atVersion (e.streamVersion - 1) user)
    (.message "store: SCIM identity unlink user version is inconsistent")
  deleteSCIMIdentity payload.providerSlug payload.externalID e.streamID
    (.wrapped "store: project SCIM identity unlink")
    (.message "store: SCIM identity unlink affected 0 identities; want one")
  advanceSCIMUser e user.email

/-! ## Session invalidation -/

/-- The part of `projectSessionInvalidation` before its switch. -/
def inspectSessionUser : ProjProg O X V UserRow := do
  Prog.require (1 < e.streamVersion)
    (.message "store: session invalidation requires a prior user")
  Prog.require (isCanonicalID e.streamID)
    (.message "store: session invalidation user ID is invalid")
  let user ← (getUserByID e.streamID).mapError
    (.wrapped "store: session invalidation requires a prior user")
  Prog.require (atVersion (e.streamVersion - 1) user)
    (.message "store: session invalidation user version is inconsistent")
  pure user

def invalidateUserSession (disableUser : Bool) : ProjProg O X V Unit :=
  updateUser e.streamID
    (fun row => atVersion (e.streamVersion - 1) row && row.sessionVersion < maxInt64)
    (fun row => { advanceTo e row with
      sessionVersion := row.sessionVersion + 1, disabled := row.disabled || disableUser })
    (.wrapped "store: invalidate user session")
    (.message "store: session invalidation affected 0 users; want one")

/-- `projectSessionInvalidation` of a disable. -/
def projectUserDisabled (payload : Payload Unit) : ProjProg O X V Unit := do
  let _ ← inspectSessionUser e
  Prog.ofExcept (decodePayload "UserDisabled" e userPayloadVersion payload)
  invalidateUserSession e true

/-- The payload checks of a role revocation. -/
def validateRoleRevocation (payload : Payload RolePayload) : Except StoreError Unit := do
  let payload ← decodePayload "RoleRevoked" e userPayloadVersion payload
  requireThat (validRoleName payload.role) "store: revoked role is invalid"

/-- `projectSessionInvalidation` of a role revocation. -/
def projectRoleRevoked (payload : Payload RolePayload) : ProjProg O X V Unit := do
  let _ ← inspectSessionUser e
  Prog.ofExcept (validateRoleRevocation e payload)
  invalidateUserSession e false

def validateOIDCIdentityUnlink (payload : Payload OIDCIdentityUnlinkedPayload) :
    Except StoreError OIDCIdentityUnlinkedPayload := do
  let payload ← decodePayload "OIDCIdentityUnlinked" e userPayloadVersion payload
  requireThat (isCanonicalIssuer x payload.issuer && validProviderSlug payload.providerSlug &&
    validBoundedText payload.externalSubject 1024) "store: OIDC identity unlink is invalid"
  .ok payload

/-- `projectSessionInvalidation` of an OIDC unlink. -/
def projectOIDCIdentityUnlinked (payload : Payload OIDCIdentityUnlinkedPayload) :
    ProjProg O X V Unit := do
  let _ ← inspectSessionUser e
  let payload ← Prog.ofExcept (validateOIDCIdentityUnlink x e payload)
  invalidateUserSession e false
  deleteOIDCIdentity payload.issuer payload.externalSubject payload.providerSlug e.streamID
    (.wrapped "store: project OIDC identity unlink")
    (.message "store: OIDC identity unlink affected 0 identities; want one")

/-- `projectSessionInvalidation` of a SCIM deprovision, which removes the
user's SCIM memberships but not its managed ones. -/
def projectSCIMUserDeprovisioned (payload : Payload Unit) : ProjProg O X V Unit := do
  let _ ← inspectSessionUser e
  Prog.ofExcept (decodePayload "SCIMUserDeprovisioned" e scimPayloadVersion payload)
  let count ← countUserIdentityLinks e.streamID
  Prog.require (count == 0)
    (.message "store: SCIM user deprovision requires zero remaining links")
  invalidateUserSession e false
  (deleteSCIMGroupMemberships e.streamID).mapError
    (.wrapped "store: delete SCIM memberships for deprovisioned user")
  deleteUser e.streamID (atVersion e.streamVersion)
    (.wrapped "store: project SCIM user deprovision")
    (.message "store: SCIM user deprovision affected 0 users; want one")

/-- The projector of a user event. -/
def projectUser : UserBody → ProjProg O X V Unit
  | .created payload => projectUserCreation x e payload
  | .managedUpdated payload => projectManagedUserUpdate x e payload
  | .managedDeleted payload => projectManagedUserDeletion e payload
  | .bootstrapAdminRoleGranted payload => projectBootstrapAdminRoleGrant e payload
  | .oidcIdentityLinked payload => projectOIDCIdentityLink x e payload
  | .oidcIdentityUnlinked payload => projectOIDCIdentityUnlinked x e payload
  | .scimIdentityLinked payload => projectSCIMIdentityLinked x e payload
  | .scimIdentityUnlinked payload => projectSCIMIdentityUnlinked e payload
  | .scimUserDeprovisioned payload => projectSCIMUserDeprovisioned e payload
  | .disabled payload => projectUserDisabled e payload
  | .roleRevoked payload _ => projectRoleRevoked e payload

end projectors

def resetUsers (t : Tables X) : Tables X :=
  { t with users := ∅, oidcIdentities := ∅, scimIdentities := ∅ }

end PowerManage.Identity
