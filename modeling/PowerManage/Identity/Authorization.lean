import PowerManage.Identity.Groups

/-!
# Projectors of the authorization target

Roles and grants live in streams of their own.  A grant names its role by a
foreign key that is checked at commit only, and its principal without any
foreign key; both are looked up by live appends and not by a rebuild.
-/

namespace PowerManage.Identity

open Relational Store

variable {O X V : Type}

/-! ## Permissions, roles and scopes -/

/-- The permission names of `authz.permissionCatalog`. -/
def permissionCatalog : List String :=
  ["action_sets.manage", "actions.manage", "audit.read", "audit_retention.manage",
    "devices.manage", "executions.read", "identity_providers.manage", "logs.read",
    "pki.manage", "roles.manage", "scim_configuration.manage", "server_settings.manage",
    "user_group_memberships.manage", "user_groups.manage", "users.manage"]

def validPermissionName (name : String) : Bool :=
  let segments := name.toList.splitOn '.'
  let last := segments.getLast?
  0 < byteLen name && byteLen name ≤ 128 && 2 ≤ segments.length &&
    last ≠ some "self".toList && last ≠ some "assigned".toList &&
    segments.all fun segment =>
      startsLowerThen (fun c => charBetween 'a' 'z' c || charBetween '0' '9' c || c == '_')
        (String.ofList segment)

/-- `authz.Lookup` finds an entry. -/
def lookupPermission (name : String) : Bool :=
  validPermissionName name && permissionCatalog.contains name

/-- The loop of `normalizePermissions` over sorted permissions. -/
def checkPermissions : Option String → List String → Except String Unit
  | _, [] => .ok ()
  | previous, permission :: permissions =>
    if ¬ lookupPermission permission then .error ("unknown permission " ++ quote permission)
    else if previous = some permission then
      .error ("duplicate permission " ++ quote permission)
    else checkPermissions (some permission) permissions

def normalizePermissions (permissions : List String) : Except String (List String) :=
  if permissions.isEmpty then .error "permission set is empty"
  else
    let normalized := sortText permissions
    (checkPermissions none normalized).map fun _ => normalized

def errInvalidRole : StoreError := .message "authz: invalid role"

def errInvalidGrant : StoreError := .message "authz: invalid grant"

structure Role where
  id : String
  name : String
  permissions : List String
  deriving DecidableEq, Repr

def normalizeRole (role : Role) : Except StoreError Role := do
  let id ← (canonicalULID role.id).mapError fun reason =>
    .annotated errInvalidRole ("ID: " ++ reason)
  requireElse (validRoleName role.name) (.annotated errInvalidRole "name")
  let permissions ← (normalizePermissions role.permissions).mapError (.annotated errInvalidRole)
  .ok { id, name := role.name, permissions }

/-- Normalizing the role succeeds and changes nothing. -/
def isNormalRole (role : Role) : Bool :=
  match normalizeRole role with
  | .ok normal => normal == role
  | .error _ => false

/-- The wire form of a principal type. -/
def PrincipalType.parse : String → Option PrincipalType
  | "user" => some .user
  | "user-group" => some .userGroup
  | _ => none

def normalizePrincipal (kind id : String) : Except StoreError (PrincipalType × String) :=
  match PrincipalType.parse kind with
  | none => .error (.annotated errInvalidGrant ("principal type " ++ quote kind))
  | some principalType =>
    match canonicalULID id with
    | .error reason => .error (.annotated errInvalidGrant ("principal ID: " ++ reason))
    | .ok id => .ok (principalType, id)

/-- The wire form of a scope kind. -/
def ScopeKind.parse : String → Option ScopeKind
  | "global" => some .global
  | "device-groups" => some .deviceGroups
  | "user-groups" => some .userGroups
  | "self" => some .self
  | _ => none

structure Scope where
  kind : ScopeKind
  ids : List String
  deriving DecidableEq, Repr

/-- `NormalizeScope` of a scope that names groups. -/
def normalizeScopeIDs (kind : String) (ids : List String) : Except StoreError (List String) := do
  requireElse (!ids.isEmpty && ids.length ≤ 1000)
    (.annotated errInvalidGrant (kind ++ " scope must carry 1..1000 IDs"))
  let ids ← (ids.mapM canonicalULID).mapError fun reason =>
    .annotated errInvalidGrant ("scope ID: " ++ reason)
  let ids := sortText ids
  requireElse (noDuplicates ids) (.annotated errInvalidGrant "duplicate scope ID")
  .ok ids

def normalizeScope (kind : String) (ids : List String) : Except StoreError Scope :=
  match ScopeKind.parse kind with
  | none => .error (.annotated errInvalidGrant ("scope kind " ++ quote kind))
  | some .global => unscoped .global
  | some .self => unscoped .self
  | some .deviceGroups => (normalizeScopeIDs kind ids).map (⟨.deviceGroups, ·⟩)
  | some .userGroups => (normalizeScopeIDs kind ids).map (⟨.userGroups, ·⟩)
where
  unscoped (parsed : ScopeKind) : Except StoreError Scope :=
    if ids.isEmpty then .ok ⟨parsed, []⟩
    else .error (.annotated errInvalidGrant (kind ++ " scope carries IDs"))

/-! ## Statements -/

/-- The check constraints of `authorization_roles`. -/
def checkRole (roleID : String) (row : RoleRow) : Except StoreError Unit :=
  if ¬ ulidCheck roleID then .error (checkViolation "authorization_roles_role_id_ulid_check")
  else if ¬ validRoleName row.name then
    .error (checkViolation "authorization_roles_name_check")
  else if row.permissions.isEmpty || 256 < row.permissions.length then
    .error (checkViolation "authorization_roles_permissions_check")
  else if row.projectionVersion = 0 then
    .error (checkViolation "authorization_roles_projection_version_check")
  else .ok ()

/-- The unique name of `authorization_roles`. -/
def uniqueRoleName (t : Tables X) (roleID name : String) : Except StoreError Unit :=
  if t.authorizationRoles.anyRow fun id row => id ≠ roleID && row.name == name then
    .error (uniqueViolation "authorization_roles_name_key")
  else .ok ()

/-- `InsertAuthorizationRole`. -/
def insertRole (roleID : String) (row : RoleRow) : ProjProg O X V Unit :=
  .write (fun _ => [.role roleID, .roleName row.name])
    (fun d => do
      checkRole roleID row
      if (d.tables.authorizationRoles.find roleID).isSome then
        .error (uniqueViolation "authorization_roles_pkey")
      else uniqueRoleName d.tables roleID row.name)
    fun _ => [.authorizationRoles (.insert roleID row)]

/-- `ReplaceAuthorizationRole`. -/
def replaceRole (roleID : String) (row : RoleRow) (version : Nat)
    (context : StoreError → StoreError) (none : StoreError) : ProjProg O X V Unit :=
  .affectOne (fun _ => [.role roleID, .roleName row.name])
    (fun d => (d.tables.authorizationRoles.find roleID).filter fun row =>
      row.projectionVersion == version)
    (fun d _ => do
      checkRole roleID row
      uniqueRoleName d.tables roleID row.name
      .ok [.authorizationRoles (.update {roleID} fun _ => row)])
    context none

/-- `DeleteAuthorizationRole`; grants that name the role are checked at commit. -/
def deleteRole (roleID : String) (version : Nat)
    (context : StoreError → StoreError) (none : StoreError) : ProjProg O X V Unit :=
  .affectOne (fun _ => [.role roleID])
    (fun d => (d.tables.authorizationRoles.find roleID).filter fun row =>
      row.projectionVersion == version)
    (fun _ _ => .ok [.authorizationRoles (.delete {roleID})])
    context none

/-- The check constraints of `authorization_grants`. -/
def checkGrant (grantID : String) (row : GrantRow) : Except StoreError Unit :=
  if ¬ ulidCheck grantID then
    .error (checkViolation "authorization_grants_grant_id_ulid_check")
  else if ¬ ulidCheck row.principalID then
    .error (checkViolation "authorization_grants_principal_id_ulid_check")
  else if ¬ scopeShape row.scopeKind row.scopeIDs then
    .error (checkViolation "authorization_grants_scope_shape_check")
  else if row.projectionVersion = 0 then
    .error (checkViolation "authorization_grants_projection_version_check")
  else .ok ()
where
  scopeShape (kind : ScopeKind) (ids : List String) : Bool :=
    match kind with
    | .global | .self => ids.isEmpty
    | .deviceGroups | .userGroups => 1 ≤ ids.length && ids.length ≤ 1000

/-- `InsertAuthorizationGrant`. -/
def insertGrant (grantID : String) (row : GrantRow) : ProjProg O X V Unit :=
  .write (fun _ => [.grant grantID])
    (fun d => do
      checkGrant grantID row
      if (d.tables.authorizationGrants.find grantID).isSome then
        .error (uniqueViolation "authorization_grants_pkey")
      else .ok ())
    fun _ => [.authorizationGrants (.insert grantID row)]

/-- `ReplaceAuthorizationGrant`. -/
def replaceGrant (grantID : String) (row : GrantRow) (version : Nat)
    (context : StoreError → StoreError) (none : StoreError) : ProjProg O X V Unit :=
  .affectOne (fun _ => [.grant grantID])
    (fun d => (d.tables.authorizationGrants.find grantID).filter fun row =>
      row.projectionVersion == version)
    (fun _ _ => do
      checkGrant grantID row
      .ok [.authorizationGrants (.update {grantID} fun _ => row)])
    context none

/-- `DeleteAuthorizationGrant`. -/
def deleteGrant (grantID : String) (version : Nat)
    (context : StoreError → StoreError) (none : StoreError) : ProjProg O X V Unit :=
  .affectOne (fun _ => [.grant grantID])
    (fun d => (d.tables.authorizationGrants.find grantID).filter fun row =>
      row.projectionVersion == version)
    (fun _ _ => .ok [.authorizationGrants (.delete {grantID})])
    context none

/-- `GetAuthorizationRole`, whose row only its callers outside projectors read. -/
def getAuthorizationRole (roleID : String) : ProjProg O X V Unit :=
  .query fun d =>
    if (d.tables.authorizationRoles.find roleID).isSome then .ok () else .error .noRows

def authorizationPrincipalExists (principalType : PrincipalType) (principalID : String) :
    ProjProg O X V Bool :=
  .query fun d => .ok <|
    match principalType with
    | .user => (d.tables.users.find principalID).isSome
    | .userGroup => (d.tables.scimGroups.find principalID).isSome ||
        (d.tables.managedUserGroups.find principalID).isSome

/-! ## Projectors -/

def authorizationPayloadVersion : Int := 1

def errAuthorizationRoleExists : StoreError :=
  .message "store: authorization role already exists"

def errAuthorizationGrantExists : StoreError :=
  .message "store: authorization grant already exists"

def errAuthorizationRoleMissing : StoreError :=
  .message "store: authorization role is missing"

def errAuthorizationPrincipalMissing : StoreError :=
  .message "store: authorization principal is missing"

section projectors

variable (e : Ev O)

/-- The decoded and normalized role of a role event. -/
def decodeRole (eventType : String) (payload : Payload AuthorizationRolePayload) :
    Except StoreError RoleRow := do
  let payload ← decodePayload eventType e authorizationPayloadVersion payload
  let role : Role := ⟨e.streamID, payload.name, payload.permissions⟩
  requireThat (isNormalRole role) "store: authorization role payload is invalid"
  .ok { name := payload.name, permissions := payload.permissions,
        projectionVersion := e.streamVersion, updatedAt := e.createdAt }

/-- The checks of `projectAuthorizationRoleCreated`. -/
def validateRoleCreation (payload : Payload AuthorizationRolePayload) :
    Except StoreError RoleRow := do
  requireElse (e.streamVersion == 1) errAuthorizationRoleExists
  decodeRole e "AuthorizationRoleCreated" payload

def projectAuthorizationRoleCreated (payload : Payload AuthorizationRolePayload) :
    ProjProg O X V Unit := do
  let row ← Prog.ofExcept (validateRoleCreation e payload)
  (insertRole e.streamID row).mapError (.wrapped "store: project authorization role creation")

/-- The checks of `projectAuthorizationRoleUpdated`. -/
def validateRoleUpdate (payload : Payload AuthorizationRolePayload) :
    Except StoreError RoleRow := do
  requireThat (2 ≤ e.streamVersion) "store: authorization role update version is invalid"
  decodeRole e "AuthorizationRoleUpdated" payload

def projectAuthorizationRoleUpdated (payload : Payload AuthorizationRolePayload) :
    ProjProg O X V Unit := do
  let row ← Prog.ofExcept (validateRoleUpdate e payload)
  replaceRole e.streamID row (e.streamVersion - 1)
    (.wrapped "store: project authorization role update")
    (.message "store: authorization role update projection version mismatch")

/-- The checks of `projectAuthorizationRoleDeleted`. -/
def validateRoleDeletion (payload : Payload Unit) : Except StoreError Unit := do
  requireThat (2 ≤ e.streamVersion) "store: authorization role deletion version is invalid"
  decodePayload "AuthorizationRoleDeleted" e authorizationPayloadVersion payload
  requireThat (isCanonicalID e.streamID) "store: authorization role stream ID is invalid"

def projectAuthorizationRoleDeleted (payload : Payload Unit) : ProjProg O X V Unit := do
  Prog.ofExcept (validateRoleDeletion e payload)
  deleteRole e.streamID (e.streamVersion - 1)
    (.wrapped "store: project authorization role deletion")
    (.message "store: authorization role deletion projection version mismatch")

/-- The row of a decoded grant, with the messages of the caller. -/
def grantRow (principalText roleText scopeText : String)
    (payload : AuthorizationGrantPayload) : Except StoreError GrantRow := do
  let principal ← (normalizePrincipal payload.principalType payload.principalID).mapError
    fun _ => .message principalText
  requireThat (principal.2 == payload.principalID) principalText
  requireThat (isCanonicalID payload.roleID) roleText
  let scope ← (normalizeScope payload.scopeKind payload.scopeIDs).mapError
    fun _ => .message scopeText
  requireThat (scope.ids == payload.scopeIDs) scopeText
  .ok { principalType := principal.1, principalID := payload.principalID, roleID := payload.roleID,
        scopeKind := scope.kind, scopeIDs := scope.ids,
        projectionVersion := e.streamVersion, updatedAt := e.createdAt }

/-- The checks of `projectAuthorizationGrantCreated` before its first read. -/
def validateGrantCreation (payload : Payload AuthorizationGrantPayload) :
    Except StoreError GrantRow := do
  requireElse (e.streamVersion == 1) errAuthorizationGrantExists
  requireThat (isCanonicalID e.streamID) "store: authorization grant stream ID is invalid"
  let payload ←
    decodePayload "AuthorizationGrantCreated" e authorizationPayloadVersion payload
  grantRow e "store: authorization grant principal is invalid"
    "store: authorization grant role ID is invalid"
    "store: authorization grant scope is invalid" payload

/-- The role lookup of a grant, which a rebuild leaves out. -/
def requireRole (skipWork : Bool) (roleID : String) : ProjProg O X V Unit :=
  if skipWork then pure ()
  else (getAuthorizationRole roleID).mapError fun err =>
    .annotated errAuthorizationRoleMissing err.text

def projectAuthorizationGrantCreated (skipWork : Bool)
    (payload : Payload AuthorizationGrantPayload) : ProjProg O X V Unit := do
  let row ← Prog.ofExcept (validateGrantCreation e payload)
  requireRole skipWork row.roleID
  let principalExists ← authorizationPrincipalExists row.principalType row.principalID
  Prog.require (principalExists || skipWork) errAuthorizationPrincipalMissing
  (insertGrant e.streamID row).mapError (.wrapped "store: project authorization grant creation")

/-- `validateAuthorizationGrantProjection`, as `projectAuthorizationGrantUpdated`
calls it. -/
def validateGrantUpdate (payload : Payload AuthorizationGrantPayload) :
    Except StoreError GrantRow := do
  requireThat (2 ≤ e.streamVersion) "store: authorization grant update version is invalid"
  let payload ←
    decodePayload "AuthorizationGrantUpdated" e authorizationPayloadVersion payload
  requireThat (isCanonicalID e.streamID) "store: authorization grant projection ID is invalid"
  grantRow e "store: authorization grant projection principal is invalid"
    "store: authorization grant projection role ID is invalid"
    "store: authorization grant projection scope is invalid" payload

/-- The principal lookup of a grant update, which a rebuild leaves out. -/
def requirePrincipal (skipWork : Bool) (row : GrantRow) : ProjProg O X V Unit :=
  if skipWork then pure ()
  else do
    let principalExists ← authorizationPrincipalExists row.principalType row.principalID
    Prog.require principalExists errAuthorizationPrincipalMissing

def projectAuthorizationGrantUpdated (skipWork : Bool)
    (payload : Payload AuthorizationGrantPayload) : ProjProg O X V Unit := do
  let row ← Prog.ofExcept (validateGrantUpdate e payload)
  requireRole skipWork row.roleID
  requirePrincipal skipWork row
  replaceGrant e.streamID row (e.streamVersion - 1)
    (.wrapped "store: project authorization grant update")
    (.message "store: authorization grant update projection version mismatch")

/-- The checks of `projectAuthorizationGrantDeleted`. -/
def validateGrantDeletion (payload : Payload Unit) : Except StoreError Unit := do
  requireThat (2 ≤ e.streamVersion) "store: authorization grant deletion version is invalid"
  decodePayload "AuthorizationGrantDeleted" e authorizationPayloadVersion payload
  requireThat (isCanonicalID e.streamID) "store: authorization grant stream ID is invalid"

def projectAuthorizationGrantDeleted (payload : Payload Unit) : ProjProg O X V Unit := do
  Prog.ofExcept (validateGrantDeletion e payload)
  deleteGrant e.streamID (e.streamVersion - 1)
    (.wrapped "store: project authorization grant deletion")
    (.message "store: authorization grant deletion projection version mismatch")

/-- The projector of an authorization event. -/
def projectAuthorization (skipWork : Bool) : AuthorizationBody → ProjProg O X V Unit
  | .roleCreated payload => projectAuthorizationRoleCreated e payload
  | .roleUpdated payload => projectAuthorizationRoleUpdated e payload
  | .roleDeleted payload => projectAuthorizationRoleDeleted e payload
  | .grantCreated payload => projectAuthorizationGrantCreated e skipWork payload
  | .grantUpdated payload => projectAuthorizationGrantUpdated e skipWork payload
  | .grantDeleted payload => projectAuthorizationGrantDeleted e payload

end projectors

def resetAuthorization (t : Tables X) : Tables X :=
  { t with authorizationGrants := ∅, authorizationRoles := ∅ }

/-- The deferred foreign key from grants to roles. -/
def deferredViolation (t : Tables X) : Option StoreError :=
  if t.authorizationGrants.anyRow fun _ grant =>
      (t.authorizationRoles.find grant.roleID).isNone then
    some (foreignKeyViolation "authorization_grants_role_id_fkey")
  else none

end PowerManage.Identity
