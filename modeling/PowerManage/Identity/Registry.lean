import Mathlib.Data.Finset.Sort
import PowerManage.Identity.Authorization
import PowerManage.Identity.Bootstrap
import PowerManage.Store.AppendRuns
import PowerManage.Store.Rebuild

/-!
# The registry of the server

The five identity targets, the targets of all other domains, the
last-administrator policy and the deferred foreign key.
-/

namespace PowerManage.Identity

open Relational Store

variable {O X V : Type}

/-! ## Targets -/

/-- `UserRebuildTarget`. -/
def usersTarget : RebuildTarget (Body O) (Tables X) where
  name := "users"
  tables := ["users", "oidc_identities", "scim_identities"]
  sharedTables := []
  streamTypes := ["user"]
  ownsEvent
    | .user _ => true
    | _ => false
  reset := resetUsers

/-- `UserGroupRebuildTarget`. -/
def userGroupsTarget : RebuildTarget (Body O) (Tables X) where
  name := "managed-user-groups"
  tables := ["managed_user_groups", "managed_user_group_members"]
  sharedTables := []
  streamTypes := ["managed-user-group"]
  ownsEvent
    | .userGroup _ => true
    | _ => false
  reset := resetUserGroups

/-- `SCIMGroupRebuildTarget`. -/
def scimGroupsTarget : RebuildTarget (Body O) (Tables X) where
  name := "scim-groups"
  tables := ["scim_groups", "scim_group_members"]
  sharedTables := []
  streamTypes := ["scim-group"]
  ownsEvent
    | .scimGroup _ => true
    | _ => false
  reset := resetSCIMGroups

/-- `AuthorizationRebuildTarget`. -/
def authorizationTarget : RebuildTarget (Body O) (Tables X) where
  name := "authorization"
  tables := ["authorization_grants", "authorization_roles"]
  sharedTables := []
  streamTypes := ["authorization-grant", "authorization-role"]
  ownsEvent
    | .authorization _ => true
    | _ => false
  reset := resetAuthorization

/-- `BootstrapLoginRebuildTarget`. -/
def bootstrapLoginsTarget : RebuildTarget (Body O) (Tables X) where
  name := "bootstrap-logins"
  tables := ["bootstrap_logins"]
  sharedTables := []
  streamTypes := ["bootstrap-login"]
  ownsEvent
    | .bootstrapLogin _ => true
    | _ => false
  reset := resetBootstrapLogins

def identityTargets : List (RebuildTarget (Body O) (Tables X)) :=
  [usersTarget, userGroupsTarget, scimGroupsTarget, authorizationTarget, bootstrapLoginsTarget]

/-- The stream types of the identity targets. -/
def identityStreamTypes : List String :=
  ["user", "managed-user-group", "scim-group", "authorization-grant", "authorization-role",
    "bootstrap-login"]

/-- The other domains: their events and targets, whose projectors may read every
table and write only their own. -/
structure OtherDomains (O X V : Type) where
  eventType : O → String
  targets : List (RebuildTarget O X)
  stream_owner : StreamOwners targets
  stream_types : ∀ t ∈ targets, ∀ streamType ∈ t.streamTypes, streamType ∉ identityStreamTypes
  project : Bool → Ev O → O → ProjProg O X V Unit
  writes : ∀ skipWork e body, (project skipWork e body).Writes fun w => ∃ v, w = .rest v

/-- A target of another domain, among all tables and events. -/
def otherTarget (target : RebuildTarget O X) : RebuildTarget (Body O) (Tables X) where
  name := target.name
  tables := target.tables
  sharedTables := target.sharedTables
  streamTypes := target.streamTypes
  ownsEvent
    | .other body => target.ownsEvent body
    | _ => false
  reset t := { t with rest := target.reset t.rest }

/-! ## The last-administrator policy -/

/-- `lastAdminReductionEvents`: the event types declared able to reduce the
set of enabled administrators. -/
def mayReduceAdmins : Body O → Bool
  | .user (.managedDeleted _) | .user (.disabled _) | .user (.roleRevoked _ _)
  | .user (.scimUserDeprovisioned _) => true
  | .userGroup (.updated _) | .userGroup (.deleted _) => true
  | .scimGroup (.membershipsReplaced _) | .scimGroup (.deleted _) => true
  | .authorization (.roleUpdated _) | .authorization (.roleDeleted _)
  | .authorization (.grantUpdated _) | .authorization (.grantDeleted _) => true
  | _ => false

def lastAdminPermission : String := "roles.manage"

/-- A membership row of either kind. -/
def isMember (t : Tables X) (groupID userID : String) : Bool :=
  (t.scimGroupMembers.find (groupID, userID)).isSome ||
    (t.managedUserGroupMembers.find (groupID, userID)).isSome

/-- A grant reaches a user, as its principal or as a member of it. -/
def reachesUser (t : Tables X) (userID : String) (grant : GrantRow) : Bool :=
  match grant.principalType with
  | .user => grant.principalID == userID
  | .userGroup => isMember t grant.principalID userID

/-- A row of `ListResolvedAuthorizationGrants`. -/
structure ResolvedGrant where
  grantID : String
  principalType : PrincipalType
  principalID : String
  roleID : String
  permissions : List String
  scopeKind : ScopeKind
  scopeIDs : List String
  deriving DecidableEq, Repr

/-- A grant joined with its role. -/
def resolveGrant (t : Tables X) (grantID : String) : Option ResolvedGrant := do
  let grant ← t.authorizationGrants.find grantID
  let role ← t.authorizationRoles.find grant.roleID
  some { grantID, principalType := grant.principalType, principalID := grant.principalID,
         roleID := grant.roleID, permissions := role.permissions, scopeKind := grant.scopeKind,
         scopeIDs := grant.scopeIDs }

def listResolvedAuthorizationGrants (t : Tables X) (userID : String) : List ResolvedGrant :=
  ((t.authorizationGrants.keysWhere fun _ grant => reachesUser t userID grant).sort
    (· ≤ ·)).filterMap (resolveGrant t)

/-- A grant of global scope, to a role with the administrator permission, that
reaches a user. -/
def grantsAdmin (t : Tables X) (userID : String) (grant : GrantRow) : Bool :=
  grant.scopeKind == .global &&
    ((t.authorizationRoles.find grant.roleID).any fun role =>
      role.permissions.contains lastAdminPermission) &&
    reachesUser t userID grant

/-- An event on a user's own stream. -/
def onUserStream (userID : String) (e : Ev O) : Bool :=
  e.streamType == "user" && e.streamID == userID

/-- The canonical bytes of a revocation of the administrator role. -/
def adminRevocation : String := "\x7b\"role\":\"admin\"\x7d"

def isBootstrapGrant (e : Ev O) : Bool :=
  match e.body with
  | .user (.bootstrapAdminRoleGranted _) => true
  | _ => false

def isAdminRevocation (e : Ev O) : Bool :=
  match e.body with
  | .user (.roleRevoked _ bytes) => bytes == adminRevocation
  | _ => false

/-- A bootstrap grant that no later revocation on the same stream has undone. -/
def isBootstrapAdmin (events : List (Ev O)) (userID : String) : Bool :=
  events.any fun granted => onUserStream userID granted && isBootstrapGrant granted &&
    !events.any fun revoked => onUserStream userID revoked && isAdminRevocation revoked &&
      granted.streamVersion < revoked.streamVersion

/-- A user row counts as an enabled administrator. -/
def isEnabledAdmin (d : Db O X) (userID : String) (row : UserRow) : Bool :=
  !row.disabled &&
    ((d.tables.authorizationGrants.anyRow fun _ grant => grantsAdmin d.tables userID grant) ||
      isBootstrapAdmin d.events userID)

def countEnabledAdmins (d : Db O X) : Nat :=
  d.tables.users.count fun userID row => isEnabledAdmin d userID row

/-! ## The registry -/

/-- The projector of an event. -/
def project (x : Externals) (others : OtherDomains O X V) (skipWork : Bool) (e : Ev O) :
    ProjProg O X V Unit :=
  match e.body with
  | .user body => projectUser x e body
  | .userGroup body => projectUserGroup e body
  | .scimGroup body => projectSCIMGroup e skipWork body
  | .authorization body => projectAuthorization e skipWork body
  | .bootstrapLogin body => projectBootstrapLogin e body
  | .other body => others.project skipWork e body

/-- The production registry. -/
def registry (x : Externals) (others : OtherDomains O X V) :
    Registry (Body O) (Tables X) (Write V) Key where
  eventType := Body.eventType others.eventType
  targets := identityTargets ++ others.targets.map otherTarget
  stream_owner := by
    refine streamOwners_append identityStreamTypes ?_ others.stream_owner (fun _ => rfl) ?_
      others.stream_types
    · simp [StreamOwners, identityTargets, usersTarget, userGroupsTarget, scimGroupsTarget,
        authorizationTarget, bootstrapLoginsTarget]
    · simp [identityTargets, identityStreamTypes, usersTarget, userGroupsTarget,
        scimGroupsTarget, authorizationTarget, bootstrapLoginsTarget]
  schema := productionSchema
  project := project x others
  protectLastAdmin := mayReduceAdmins
  countEnabledAdmins := countEnabledAdmins
  deferred := deferredViolation

/-! ## Targets and streams -/

section streams

variable {x : Externals} {others : OtherDomains O X V}

/-- An event stands on a stream of the target that owns its type. -/
def Body.OnStream (streamType : String) : Body O → Prop
  | .user _ => streamType = "user"
  | .userGroup _ => streamType = "managed-user-group"
  | .scimGroup _ => streamType = "scim-group"
  | .authorization _ => streamType = "authorization-grant" ∨ streamType = "authorization-role"
  | .bootstrapLogin _ => streamType = "bootstrap-login"
  | .other _ => streamType ∉ identityStreamTypes

theorem onStream_of_owner {t : RebuildTarget (Body O) (Tables X)}
    (ht : t ∈ (registry x others).targets) {body : Body O} (howns : t.ownsEvent body = true)
    {streamType : String} (htype : streamType ∈ t.streamTypes) : body.OnStream streamType := by
  rcases List.mem_append.mp ht with ht | ht
  · simp [identityTargets] at ht
    rcases ht with rfl | rfl | rfl | rfl | rfl <;> cases body <;>
      simp_all [usersTarget, userGroupsTarget, scimGroupsTarget, authorizationTarget,
        bootstrapLoginsTarget, Body.OnStream]
  · obtain ⟨o, ho, rfl⟩ := List.mem_map.mp ht
    cases body with
    | other body => exact others.stream_types o ho streamType htype
    | _ => simp [otherTarget] at howns

variable {built : Event (Body O) → Prop}

theorem onStream_of_admissible [Applies V X] {d : Db O X} {e : Ev O}
    (h : Admissible (registry x others) built d e) : e.body.OnStream e.streamType := by
  obtain ⟨t, ht, howns, htype⟩ := h.owner
  exact onStream_of_owner ht howns htype

theorem deferredViolation_init (rest : X) : deferredViolation (Tables.init rest) = none := by
  have hnone : ¬ ((Tables.init rest).authorizationGrants.anyRow fun _ grant =>
      ((Tables.init rest).authorizationRoles.find grant.roleID).isNone) = true := by
    simp [Table.anyRow_iff, Tables.init]
  simp [deferredViolation, hnone]

/-- Every grant of an accepted database names a role that exists. -/
theorem registry_deferred [Applies V X] {rest : X} {d : Db O X}
    (hacc : Accepted (registry x others) built (Tables.init rest) d) :
    deferredViolation d.tables = none :=
  hacc.deferred (deferredViolation_init rest)

end streams

/-! ## A server without other domains -/

/-- No domain besides identity and authorization. -/
def noOthers : OtherDomains Empty Unit Empty where
  eventType := Empty.elim
  targets := []
  stream_owner := streamOwners_nil
  stream_types := by simp
  project _ _ := Empty.elim
  writes _ _ := Empty.rec

instance : Applies Empty Unit where
  apply := Empty.elim

/-- Lower-casing of ASCII text, and issuers that are a bare host. -/
def asciiExternals : Externals where
  toLower s := String.ofList (s.toList.map Char.toLower)
  parseURL s := some ("https", s, false, "", "", s)

/-- The registry of a server with the identity domains only. -/
def identityRegistry : Registry (Body Empty) (Tables Unit) (Write Empty) Key :=
  registry asciiExternals noOthers

/-- Append identity events one after another to an empty database. -/
def appendInOrder (events : List (Event (Body Empty))) : Option (Db Empty Unit) :=
  commitAll (client identityRegistry) (events.map .appendEvent) ⟨[], Tables.init ()⟩

/-- An event on a stream, with the payload version of the identity domains. -/
def eventOn (streamType streamID : String) (body : Body Empty) : Event (Body Empty) where
  streamType := streamType
  streamID := streamID
  payloadVersion := 1
  body := body
  createdAt := 0

/-- A canonical identifier that ends in the given character. -/
def sampleID (last : Char) : String :=
  String.ofList (List.replicate 25 '0' ++ [last])

def userCreated (userID email : String) : Event (Body Empty) :=
  eventOn "user" userID (.user (.created (.decoded ⟨email⟩)))

def userManagedUpdated (userID email : String) : Event (Body Empty) :=
  eventOn "user" userID (.user (.managedUpdated (.decoded ⟨email⟩)))

def userManagedDeleted (userID : String) : Event (Body Empty) :=
  eventOn "user" userID (.user (.managedDeleted (.decoded ())))

def bootstrapAdminRoleGranted (userID : String) : Event (Body Empty) :=
  eventOn "user" userID (.user (.bootstrapAdminRoleGranted (.decoded ⟨"admin"⟩)))

def roleCreated (roleID name : String) : Event (Body Empty) :=
  eventOn "authorization-role" roleID
    (.authorization (.roleCreated (.decoded ⟨name, ["roles.manage"]⟩)))

def roleUpdated (roleID name : String) : Event (Body Empty) :=
  eventOn "authorization-role" roleID
    (.authorization (.roleUpdated (.decoded ⟨name, ["roles.manage"]⟩)))

theorem appendInOrder_accepted {built : Event (Body Empty) → Prop}
    {events : List (Event (Body Empty))} {d : Db Empty Unit} (hbuilt : ∀ e ∈ events, built e)
    (h : appendInOrder events = some d) :
    Accepted (registry asciiExternals noOthers) built (Tables.init ()) d := by
  refine Serial.start.commitAll ?_ h
  intro call hcall
  obtain ⟨e, he, rfl⟩ := List.mem_map.mp hcall
  exact hbuilt e he

/-- A history whose rebuild, run on its last state, fails. -/
theorem rebuild_refused (events : List (Event (Body Empty))) (name : String)
    (built : Event (Body Empty) → Prop) (hbuilt : ∀ e ∈ events, built e)
    (h : ((appendInOrder events).any fun d => !(rebuildAll identityRegistry name d).isOk) = true) :
    ∃ d, Accepted (registry asciiExternals noOthers) built (Tables.init ()) d ∧
      ∀ d', rebuildAll (registry asciiExternals noOthers) name d ≠ .ok d' := by
  obtain ⟨d, hd, hrefused⟩ := (Option.any_eq_true _ _).mp h
  refine ⟨d, appendInOrder_accepted hbuilt hd, ?_⟩
  intro d' hok
  rw [identityRegistry, hok] at hrefused
  cases hrefused

/-! ## Interleaved appends -/

open ReadCommitted

/-- The machine of identity appends on an empty database. -/
abbrev emptyServer : Sys (client identityRegistry) :=
  Sys.init (client identityRegistry) ⟨[], Tables.init ()⟩

def userGroupCreated (groupID name : String) (members : List String) : Event (Body Empty) :=
  eventOn "managed-user-group" groupID (.userGroup (.created (.decoded ⟨name, members⟩)))

/-- A session that makes one append without interruption. -/
def appendAlone (session statements : Nat) (e : Event (Body Empty)) :
    List (Action (client identityRegistry)) :=
  [.invoke session (.appendEvent e), .begin session] ++
    List.replicate statements (.exec session) ++ [.commit session]

end PowerManage.Identity
