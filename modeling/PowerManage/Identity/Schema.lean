import PowerManage.Relational.Table
import PowerManage.Store.Append
import PowerManage.Text.Utf8

/-!
# The identity and authorization tables

Users and their linked identities, managed and SCIM groups, roles, grants and
bootstrap logins, as keyed tables, with the events that change them.  All other
domains of the server share the same database; they appear here as one opaque
table `rest` with its own writes and events.
-/

namespace PowerManage.Identity

open Relational Store

/-! ## Rows -/

/-- A row of `users`, under its user ID. -/
structure UserRow where
  email : String
  sessionVersion : Nat
  disabled : Bool
  projectionVersion : Nat
  updatedAt : Nat
  deriving DecidableEq, Repr

/-- A row of `oidc_identities`, under its issuer and external subject. -/
structure OIDCIdentityRow where
  providerSlug : String
  userID : String
  email : String
  projectionVersion : Nat
  updatedAt : Nat
  deriving DecidableEq, Repr

/-- A row of `scim_identities`, under its provider slug and external ID. -/
structure SCIMIdentityRow where
  userID : String
  email : String
  projectionVersion : Nat
  updatedAt : Nat
  deriving DecidableEq, Repr

/-- A row of `managed_user_groups`, under its group ID. -/
structure UserGroupRow where
  name : String
  projectionVersion : Nat
  updatedAt : Nat
  deriving DecidableEq, Repr

/-- A row of `scim_groups`, under its group ID. -/
structure SCIMGroupRow where
  providerSlug : String
  externalID : String
  displayName : String
  projectionVersion : Nat
  updatedAt : Nat
  deriving DecidableEq, Repr

/-- A row of either membership table, under its group and user ID. -/
structure MemberRow where
  projectionVersion : Nat
  deriving DecidableEq, Repr

/-- A row of `authorization_roles`, under its role ID. -/
structure RoleRow where
  name : String
  permissions : List String
  projectionVersion : Nat
  updatedAt : Nat
  deriving DecidableEq, Repr

inductive PrincipalType where
  | user
  | userGroup
  deriving DecidableEq, Repr

inductive ScopeKind where
  | global
  | deviceGroups
  | userGroups
  | self
  deriving DecidableEq, Repr

/-- A row of `authorization_grants`, under its grant ID. -/
structure GrantRow where
  principalType : PrincipalType
  principalID : String
  roleID : String
  scopeKind : ScopeKind
  scopeIDs : List String
  projectionVersion : Nat
  updatedAt : Nat
  deriving DecidableEq, Repr

/-- A row of `bootstrap_logins`, under its login ID. -/
structure LoginRow where
  tokenHash : Bytes
  userID : String
  expiresAt : Int
  consumed : Bool
  projectionVersion : Nat
  updatedAt : Nat
  deriving DecidableEq, Repr

/-! ## Tables and writes -/

/-- The projection tables; `X` stands for those of the other domains. -/
structure Tables (X : Type) where
  users : Table String UserRow
  oidcIdentities : Table (String × String) OIDCIdentityRow
  scimIdentities : Table (String × String) SCIMIdentityRow
  managedUserGroups : Table String UserGroupRow
  managedUserGroupMembers : Table (String × String) MemberRow
  scimGroups : Table String SCIMGroupRow
  scimGroupMembers : Table (String × String) MemberRow
  authorizationRoles : Table String RoleRow
  authorizationGrants : Table String GrantRow
  bootstrapLogins : Table String LoginRow
  rest : X

/-- The tables of a freshly migrated database. -/
def Tables.init {X : Type} (rest : X) : Tables X where
  users := ∅
  oidcIdentities := ∅
  scimIdentities := ∅
  managedUserGroups := ∅
  managedUserGroupMembers := ∅
  scimGroups := ∅
  scimGroupMembers := ∅
  authorizationRoles := ∅
  authorizationGrants := ∅
  bootstrapLogins := ∅
  rest := rest

/-- One statement's effect on one table. -/
inductive Write (V : Type) where
  | users (w : RowWrite String UserRow)
  | oidcIdentities (w : RowWrite (String × String) OIDCIdentityRow)
  | scimIdentities (w : RowWrite (String × String) SCIMIdentityRow)
  | managedUserGroups (w : RowWrite String UserGroupRow)
  | managedUserGroupMembers (w : RowWrite (String × String) MemberRow)
  | scimGroups (w : RowWrite String SCIMGroupRow)
  | scimGroupMembers (w : RowWrite (String × String) MemberRow)
  | authorizationRoles (w : RowWrite String RoleRow)
  | authorizationGrants (w : RowWrite String GrantRow)
  | bootstrapLogins (w : RowWrite String LoginRow)
  | rest (v : V)

variable {O X V : Type}

/-- Apply a write to its table. -/
def Write.apply [Applies V X] (w : Write V) (t : Tables X) : Tables X :=
  match w with
  | users w => { t with users := w.apply t.users }
  | oidcIdentities w => { t with oidcIdentities := w.apply t.oidcIdentities }
  | scimIdentities w => { t with scimIdentities := w.apply t.scimIdentities }
  | managedUserGroups w => { t with managedUserGroups := w.apply t.managedUserGroups }
  | managedUserGroupMembers w =>
    { t with managedUserGroupMembers := w.apply t.managedUserGroupMembers }
  | scimGroups w => { t with scimGroups := w.apply t.scimGroups }
  | scimGroupMembers w => { t with scimGroupMembers := w.apply t.scimGroupMembers }
  | authorizationRoles w => { t with authorizationRoles := w.apply t.authorizationRoles }
  | authorizationGrants w => { t with authorizationGrants := w.apply t.authorizationGrants }
  | bootstrapLogins w => { t with bootstrapLogins := w.apply t.bootstrapLogins }
  | rest v => { t with rest := Applies.apply v t.rest }

instance [Applies V X] : Applies (Write V) (Tables X) where
  apply := Write.apply

@[simp]
theorem apply_eq [Applies V X] (w : Write V) (t : Tables X) : Applies.apply w t = w.apply t :=
  rfl

/-- What a projector can hold a lock on: a row, or an entry of a unique index. -/
inductive Key where
  | user (userID : String)
  | userEmail (email : String)
  | oidcIdentity (issuer subject : String)
  | oidcProvider (userID slug : String)
  | scimIdentity (slug externalID : String)
  | scimProvider (userID slug : String)
  | userGroup (groupID : String)
  | userGroupName (name : String)
  | userGroupMember (groupID userID : String)
  | scimGroup (groupID : String)
  | scimGroupExternal (slug externalID : String)
  | scimGroupMember (groupID userID : String)
  | role (roleID : String)
  | roleName (name : String)
  | grant (grantID : String)
  | login (loginID : String)
  | loginHash (hash : Bytes)
  | other (name : String)
  deriving DecidableEq, Repr

/-! ## Events -/

structure UserCreatedPayload where
  email : String
  deriving DecidableEq, Repr

structure OIDCIdentityLinkedPayload where
  providerSlug : String
  issuer : String
  externalSubject : String
  email : String
  deriving DecidableEq, Repr

structure OIDCIdentityUnlinkedPayload where
  providerSlug : String
  issuer : String
  externalSubject : String
  deriving DecidableEq, Repr

structure SCIMIdentityLinkedPayload where
  providerSlug : String
  externalID : String
  email : String
  deriving DecidableEq, Repr

structure SCIMIdentityUnlinkedPayload where
  providerSlug : String
  externalID : String
  deriving DecidableEq, Repr

/-- A payload with a single role name. -/
structure RolePayload where
  role : String
  deriving DecidableEq, Repr

structure UserGroupPayload where
  name : String
  memberUserIDs : List String
  deriving DecidableEq, Repr

structure SCIMGroupPayload where
  providerSlug : String
  externalID : String
  displayName : String
  deriving DecidableEq, Repr

structure SCIMGroupMembershipsPayload where
  userIDs : List String
  deriving DecidableEq, Repr

structure SCIMGroupDeletedPayload where
  providerSlug : String
  deriving DecidableEq, Repr

structure AuthorizationRolePayload where
  name : String
  permissions : List String
  deriving DecidableEq, Repr

structure AuthorizationGrantPayload where
  principalType : String
  principalID : String
  roleID : String
  scopeKind : String
  scopeIDs : List String
  deriving DecidableEq, Repr

structure BootstrapLoginMintedPayload where
  tokenHash : Bytes
  userID : String
  /-- Unix seconds. -/
  expiresAt : Int
  deriving DecidableEq, Repr

/-- Events of the users target. -/
inductive UserBody where
  | created (payload : Payload UserCreatedPayload)
  | managedUpdated (payload : Payload UserCreatedPayload)
  | managedDeleted (payload : Payload Unit)
  | bootstrapAdminRoleGranted (payload : Payload RolePayload)
  | oidcIdentityLinked (payload : Payload OIDCIdentityLinkedPayload)
  | oidcIdentityUnlinked (payload : Payload OIDCIdentityUnlinkedPayload)
  | scimIdentityLinked (payload : Payload SCIMIdentityLinkedPayload)
  | scimIdentityUnlinked (payload : Payload SCIMIdentityUnlinkedPayload)
  | scimUserDeprovisioned (payload : Payload Unit)
  | disabled (payload : Payload Unit)
  /-- With the payload's bytes, which the administrator count compares. -/
  | roleRevoked (payload : Payload RolePayload) (bytes : String)
  deriving DecidableEq, Repr

/-- Events of the managed user groups target. -/
inductive UserGroupBody where
  | created (payload : Payload UserGroupPayload)
  | updated (payload : Payload UserGroupPayload)
  | metadataUpdated (payload : Payload UserGroupPayload)
  | deleted (payload : Payload Unit)
  deriving DecidableEq, Repr

/-- Events of the SCIM groups target. -/
inductive SCIMGroupBody where
  | created (payload : Payload SCIMGroupPayload)
  | updated (payload : Payload SCIMGroupPayload)
  | membershipsReplaced (payload : Payload SCIMGroupMembershipsPayload)
  | deleted (payload : Payload SCIMGroupDeletedPayload)
  deriving DecidableEq, Repr

/-- Events of the authorization target. -/
inductive AuthorizationBody where
  | roleCreated (payload : Payload AuthorizationRolePayload)
  | roleUpdated (payload : Payload AuthorizationRolePayload)
  | roleDeleted (payload : Payload Unit)
  | grantCreated (payload : Payload AuthorizationGrantPayload)
  | grantUpdated (payload : Payload AuthorizationGrantPayload)
  | grantDeleted (payload : Payload Unit)
  deriving DecidableEq, Repr

/-- Events of the bootstrap logins target. -/
inductive BootstrapLoginBody where
  | minted (payload : Payload BootstrapLoginMintedPayload)
  | consumed (payload : Payload Unit)
  deriving DecidableEq, Repr

/-- Every event, by the target that owns its type; `O` stands for those of
the other domains. -/
inductive Body (O : Type) where
  | user (body : UserBody)
  | userGroup (body : UserGroupBody)
  | scimGroup (body : SCIMGroupBody)
  | authorization (body : AuthorizationBody)
  | bootstrapLogin (body : BootstrapLoginBody)
  | other (body : O)
  deriving DecidableEq

/-- The event type of an identity event. -/
def Body.eventType (otherType : O → String) : Body O → String
  | user (.created _) => "UserCreated"
  | user (.managedUpdated _) => "UserManagedUpdated"
  | user (.managedDeleted _) => "UserManagedDeleted"
  | user (.bootstrapAdminRoleGranted _) => "BootstrapAdminRoleGranted"
  | user (.oidcIdentityLinked _) => "OIDCIdentityLinked"
  | user (.oidcIdentityUnlinked _) => "OIDCIdentityUnlinked"
  | user (.scimIdentityLinked _) => "SCIMIdentityLinked"
  | user (.scimIdentityUnlinked _) => "SCIMIdentityUnlinked"
  | user (.scimUserDeprovisioned _) => "SCIMUserDeprovisioned"
  | user (.disabled _) => "UserDisabled"
  | user (.roleRevoked _ _) => "RoleRevoked"
  | userGroup (.created _) => "ManagedUserGroupCreated"
  | userGroup (.updated _) => "ManagedUserGroupUpdated"
  | userGroup (.metadataUpdated _) => "ManagedUserGroupMetadataUpdated"
  | userGroup (.deleted _) => "ManagedUserGroupDeleted"
  | scimGroup (.created _) => "SCIMGroupCreated"
  | scimGroup (.updated _) => "SCIMGroupUpdated"
  | scimGroup (.membershipsReplaced _) => "SCIMGroupMembershipsReplaced"
  | scimGroup (.deleted _) => "SCIMGroupDeleted"
  | authorization (.roleCreated _) => "AuthorizationRoleCreated"
  | authorization (.roleUpdated _) => "AuthorizationRoleUpdated"
  | authorization (.roleDeleted _) => "AuthorizationRoleDeleted"
  | authorization (.grantCreated _) => "AuthorizationGrantCreated"
  | authorization (.grantUpdated _) => "AuthorizationGrantUpdated"
  | authorization (.grantDeleted _) => "AuthorizationGrantDeleted"
  | bootstrapLogin (.minted _) => "BootstrapLoginMinted"
  | bootstrapLogin (.consumed _) => "BootstrapLoginConsumed"
  | other body => otherType body

/-! ## Projector programs -/

/-- The database of the server. -/
abbrev Db (O X : Type) : Type := Database (Body O) (Tables X)

/-- A stored event. -/
abbrev Ev (O : Type) : Type := PersistedEvent (Body O)

/-- Projector programs. -/
abbrev ProjProg (O X V α : Type) : Type := Prog (Db O X) (Write V) Key StoreError α

/-- Go's standard library functions that validators call. -/
structure Externals where
  /-- `strings.ToLower`. -/
  toLower : String → String
  /-- `url.Parse`: scheme, host, user information, query, fragment and the
  reassembled text, or a parse error. -/
  parseURL : String → Option (String × String × Bool × String × String × String)

end PowerManage.Identity
