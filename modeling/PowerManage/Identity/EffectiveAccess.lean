import Mathlib.Data.List.Destutter
import PowerManage.Identity.Effects

/-!
# Effective access

`authz.Resolve` folds the grants that reach a user into one reach per
permission; the last-administrator guard counts administrators by a query of its
own.  The two read the same grants, but the query also counts users whose
administrator role comes from a bootstrap event, and no grant row stands for that
role.

Main results:

- `resolve_global_iff`: a permission is resolved with global reach
  when some global grant carries it.
- `hasGlobalReach_iff`: in a valid state a user resolves to a
  permission with global reach exactly through such a grant.
- `admin_definitions_agree`: the query and the resolver agree exactly
  when every enabled bootstrap administrator also holds such a grant, and what the
  last-administrator guard then lets through leaves somebody who can administer roles.
-/

namespace PowerManage.Identity

open Relational Store ReadCommitted

variable {O X V : Type}

/-! ## Resolving grants -/

inductive ScopeClass where
  | confinable
  | globalOnly
  deriving DecidableEq, Repr

/-- The catalog entries of class `GlobalOnly`. -/
def globalOnlyPermissions : List String :=
  ["audit_retention.manage", "identity_providers.manage", "pki.manage", "roles.manage",
    "scim_configuration.manage", "server_settings.manage", "user_group_memberships.manage"]

/-- The class of a catalog entry. -/
def permissionClass (permission : String) : ScopeClass :=
  if globalOnlyPermissions.contains permission then .globalOnly else .confinable

structure Grant where
  id : String
  principalType : PrincipalType
  principalID : String
  roleID : String
  permissions : List String
  scope : Scope
  deriving DecidableEq, Repr

def normalizeGrant (grant : Grant) : Except StoreError Grant := do
  let id ← (canonicalULID grant.id).mapError fun reason =>
    .annotated errInvalidGrant ("ID: " ++ reason)
  let principal ← normalizePrincipal grant.principalType.text grant.principalID
  let roleID ← (canonicalULID grant.roleID).mapError fun reason =>
    .annotated errInvalidGrant ("role ID: " ++ reason)
  let permissions ← (normalizePermissions grant.permissions).mapError (.annotated errInvalidGrant)
  let scope ← normalizeScope grant.scope.kind.text grant.scope.ids
  .ok { id, principalType := grant.principalType, principalID := principal.2, roleID,
        permissions, scope }

structure GrantAccess where
  grantID : String
  activePermissions : List String
  strippedPermissions : List String
  deriving DecidableEq, Repr

structure Reach where
  global : Bool
  deviceGroupIDs : List String
  userGroupIDs : List String
  self : Bool
  deriving DecidableEq, Repr

/-- The zero value of `Reach`, which a map lookup gives for an absent permission. -/
def Reach.none : Reach :=
  ⟨false, [], [], false⟩

def unionStrings (existing additions : List String) : List String :=
  (sortText (existing ++ additions)).destutter (· ≠ ·)

/-- One scope's contribution to a reach. -/
def Reach.extend (reach : Reach) (scope : Scope) : Reach :=
  match scope.kind with
  | .global => { Reach.none with global := true }
  | .deviceGroups =>
    if reach.global then reach
    else { reach with deviceGroupIDs := unionStrings reach.deviceGroupIDs scope.ids }
  | .userGroups =>
    if reach.global then reach
    else { reach with userGroupIDs := unionStrings reach.userGroupIDs scope.ids }
  | .self => if reach.global then reach else { reach with self := true }

/-- `authz.EffectiveAccess`; the map of reaches is a lookup function. -/
structure EffectiveAccess where
  grants : List GrantAccess
  permissions : String → Option Reach

/-- A grant that is not global does not activate a global-only permission. -/
def strips (scope : Scope) (permission : String) : Bool :=
  scope.kind ≠ .global && permissionClass permission == .globalOnly

/-- One step of the inner loop of `Resolve`. -/
def addPermission (scope : Scope) (state : GrantAccess × (String → Option Reach))
    (permission : String) : GrantAccess × (String → Option Reach) :=
  let (access, reaches) := state
  if strips scope permission then
    ({ access with strippedPermissions := access.strippedPermissions ++ [permission] }, reaches)
  else
    ({ access with activePermissions := access.activePermissions ++ [permission] },
      Function.update reaches permission
        (some (((reaches permission).getD Reach.none).extend scope)))

/-- One step of the outer loop of `Resolve`. -/
def addGrant (effective : EffectiveAccess) (grant : Grant) : EffectiveAccess :=
  let state := grant.permissions.foldl (addPermission grant.scope)
    (⟨grant.id, [], []⟩, effective.permissions)
  { grants := effective.grants ++ [state.1], permissions := state.2 }

def resolve (grants : List Grant) : Except StoreError EffectiveAccess := do
  let normalized ← grants.mapM normalizeGrant
  .ok ((normalized.insertionSort fun left right => left.id ≤ right.id).foldl addGrant
    ⟨[], fun _ => none⟩)

/-! ## The effective access of a user -/

def validateUserProjection (x : Externals) (userID : String) (row : UserRow) :
    Except StoreError UserRow := do
  requireThat (isCanonicalID userID) "store: user projection has an invalid user ID"
  requireThat (isCanonicalEmail x row.email) "store: user projection has an invalid email"
  requireThat (0 < row.sessionVersion && 0 < row.projectionVersion)
    "store: user projection has an invalid version"
  .ok row

/-- `UserByID`: the canonical ID and the row. -/
def userByID (x : Externals) (t : Tables X) (userID : String) :
    Except StoreError (String × UserRow) := do
  let userID ← canonicalUserID userID
  match t.users.find userID with
  | none => .error (.wrapped "store: read user by ID" .noRows)
  | some row => (validateUserProjection x userID row).map (userID, ·)

def errUserDisabled : StoreError := .message "store: user is disabled"

/-- The grant that a result row describes. -/
def ResolvedGrant.toGrant (row : ResolvedGrant) : Grant where
  id := row.grantID
  principalType := row.principalType
  principalID := row.principalID
  roleID := row.roleID
  permissions := row.permissions
  scope := ⟨row.scopeKind, row.scopeIDs⟩

def resolveEffectiveAccess (x : Externals) (t : Tables X) (userID : String) :
    Except StoreError EffectiveAccess := do
  let user ← userByID x t userID
  requireElse (!user.2.disabled) errUserDisabled
  (resolve ((listResolvedAuthorizationGrants t user.1).map ResolvedGrant.toGrant)).mapError
    (.wrapped "store: resolve authorization grants")

/-- The user resolves to a permission with global reach. -/
def hasGlobalReach (x : Externals) (t : Tables X) (userID permission : String) : Bool :=
  match resolveEffectiveAccess x t userID with
  | .ok effective => (effective.permissions permission).any (·.global)
  | .error _ => false

/-- The user can administer roles. -/
def administers (x : Externals) (t : Tables X) (userID : String) : Bool :=
  hasGlobalReach x t userID lastAdminPermission

/-! ## Global reach -/

section resolve

/-- A permission has global reach. -/
def isGlobal (reaches : String → Option Reach) (permission : String) : Prop :=
  ∃ reach, reaches permission = some reach ∧ reach.global = true

variable {scope : Scope} {permission : String}

theorem extend_global {reach : Reach} :
    (reach.extend scope).global = true ↔ reach.global = true ∨ scope.kind = .global := by
  unfold Reach.extend
  split <;> rename_i hkind <;> rw [hkind]
  · simp
  all_goals cases hreach : reach.global <;> simp [hreach]

/-- A step of the inner loop adds global reach for its own permission only, and
only from a global scope. -/
theorem addPermission_isGlobal {state : GrantAccess × (String → Option Reach)} {added : String} :
    isGlobal (addPermission scope state added).2 permission ↔
      isGlobal state.2 permission ∨ scope.kind = .global ∧ permission = added := by
  obtain ⟨access, reaches⟩ := state
  unfold addPermission
  by_cases hstrip : strips scope added = true
  · have hkind : scope.kind ≠ .global := by
      simp [strips] at hstrip
      exact hstrip.1
    simp [hstrip, hkind]
  · simp only [hstrip, Bool.false_eq_true, if_false]
    by_cases hp : permission = added
    · subst hp
      simp only [isGlobal, Function.update_self, Option.some.injEq, exists_eq_left',
        extend_global, and_true]
      cases hreach : reaches permission with
      | none => simp [Reach.none]
      | some reach => simp
    · simp [isGlobal, hp]

theorem foldl_addPermission_isGlobal (permissions : List String)
    (state : GrantAccess × (String → Option Reach)) :
    isGlobal (permissions.foldl (addPermission scope) state).2 permission ↔
      isGlobal state.2 permission ∨ scope.kind = .global ∧ permission ∈ permissions := by
  induction permissions generalizing state with
  | nil => simp
  | cons added permissions ih =>
    rw [List.foldl_cons, ih, addPermission_isGlobal, List.mem_cons]
    tauto

/-- The grant carries a permission globally. -/
def Grant.givesGlobally (grant : Grant) (permission : String) : Prop :=
  grant.scope.kind = .global ∧ permission ∈ grant.permissions

theorem foldl_addGrant_isGlobal (grants : List Grant) (effective : EffectiveAccess) :
    isGlobal (grants.foldl addGrant effective).permissions permission ↔
      isGlobal effective.permissions permission ∨
        ∃ grant ∈ grants, grant.givesGlobally permission := by
  induction grants generalizing effective with
  | nil => simp
  | cons grant grants ih =>
    rw [List.foldl_cons, ih, addGrant, foldl_addPermission_isGlobal]
    simp only [List.mem_cons, exists_eq_or_imp, Grant.givesGlobally]
    tauto

/-- A list of grants that normalization leaves as they are resolves, and a
permission has global reach when some global grant carries it. -/
theorem resolve_global_iff {grants : List Grant}
    (hnormal : ∀ grant ∈ grants, normalizeGrant grant = .ok grant) :
    ∃ effective, resolve grants = .ok effective ∧ ∀ permission,
      isGlobal effective.permissions permission ↔
        ∃ grant ∈ grants, grant.givesGlobally permission := by
  have hmap : grants.mapM normalizeGrant = .ok grants := by
    induction grants with
    | nil => rfl
    | cons grant grants ih =>
      rw [List.mapM_cons, hnormal grant List.mem_cons_self, ih (List.forall_mem_cons.mp hnormal).2]
      rfl
  refine ⟨_, by rw [resolve, hmap]; rfl, ?_⟩
  intro permission
  rw [foldl_addGrant_isGlobal]
  simp only [isGlobal, reduceCtorEq, false_and, exists_false, false_or, List.mem_insertionSort]

end resolve

/-! ## Grants of valid states -/

section states

variable {x : Externals} {t : Tables X}

theorem canonicalULID_of_isCanonicalID {id : String} (h : isCanonicalID id = true) :
    canonicalULID id = .ok id := by
  unfold isCanonicalID at h
  cases hid : canonicalULID id with
  | error reason => rw [hid] at h; cases h
  | ok canonical =>
    rw [hid] at h
    rw [beq_iff_eq.mp h]

theorem normalizePermissions_of_isNormalRole {role : Role} (h : isNormalRole role = true) :
    normalizePermissions role.permissions = .ok role.permissions := by
  unfold isNormalRole at h
  cases hrole : normalizeRole role with
  | error e => rw [hrole] at h; cases h
  | ok normal =>
    rw [hrole] at h
    have hsame : normal = role := beq_iff_eq.mp h
    simp only [normalizeRole, bind_eq_ok, mapError_eq_ok] at hrole
    obtain ⟨_, -, _, -, permissions, hpermissions, hnormal⟩ := hrole
    cases hnormal
    rw [hpermissions]
    exact congrArg (Except.ok ∘ Role.permissions) hsame

variable {row : ResolvedGrant} {userID : String}

theorem resolveGrant_eq_some {grantID : String} :
    resolveGrant t grantID = some row ↔
      ∃ grant role, t.authorizationGrants.find grantID = some grant ∧
        t.authorizationRoles.find grant.roleID = some role ∧
        row = ⟨grantID, grant.principalType, grant.principalID, grant.roleID, role.permissions,
          grant.scopeKind, grant.scopeIDs⟩ := by
  simp only [resolveGrant, bind, Option.bind_eq_some_iff, Option.some.injEq]
  constructor
  · rintro ⟨grant, hgrant, role, hrole, hrow⟩
    exact ⟨grant, role, hgrant, hrole, hrow.symm⟩
  · rintro ⟨grant, role, hgrant, hrole, hrow⟩
    exact ⟨grant, hgrant, role, hrole, hrow.symm⟩

/-- Every grant that the query returns is in normal form. -/
theorem resolveGrant_normal (hrows : AccessRows x t) {grantID : String}
    (h : resolveGrant t grantID = some row) : normalizeGrant row.toGrant = .ok row.toGrant := by
  obtain ⟨grant, role, hgrant, hrole, rfl⟩ := resolveGrant_eq_some.mp h
  have hvalid := hrows.grants grantID grant hgrant
  have hpermissions := normalizePermissions_of_isNormalRole (hrows.roles _ role hrole)
  have hprincipal : normalizePrincipal grant.principalType.text grant.principalID =
      .ok (grant.principalType, grant.principalID) := by
    simp only [normalizePrincipal, PrincipalType.parse_text,
      canonicalULID_of_isCanonicalID hvalid.principalID]
  simp only [ResolvedGrant.toGrant, normalizeGrant, hprincipal, hvalid.scope, hpermissions,
    canonicalULID_of_isCanonicalID hvalid.grantID, canonicalULID_of_isCanonicalID hvalid.roleID,
    Except.mapError, bind, Except.bind]

theorem mem_listResolvedAuthorizationGrants :
    row ∈ listResolvedAuthorizationGrants t userID ↔
      ∃ grantID grant, t.authorizationGrants.find grantID = some grant ∧
        reachesUser t userID grant = true ∧ resolveGrant t grantID = some row := by
  simp only [listResolvedAuthorizationGrants, List.mem_filterMap, Finset.mem_sort,
    Table.mem_keysWhere]
  constructor
  · rintro ⟨grantID, ⟨grant, hgrant, hreaches⟩, hrow⟩
    exact ⟨grantID, grant, hgrant, hreaches, hrow⟩
  · rintro ⟨grantID, grant, hgrant, hreaches, hrow⟩
    exact ⟨grantID, ⟨grant, hgrant, hreaches⟩, hrow⟩

/-- Some global grant of a role with a permission reaches the user. -/
def grantedGlobally (t : Tables X) (userID permission : String) : Prop :=
  ∃ grantID grant role, t.authorizationGrants.find grantID = some grant ∧
    t.authorizationRoles.find grant.roleID = some role ∧ grant.scopeKind = .global ∧
    permission ∈ role.permissions ∧ reachesUser t userID grant = true

variable {row : UserRow}

theorem userByID_of_find (hrows : AccessRows x t) (hfind : t.users.find userID = some row) :
    userByID x t userID = .ok (userID, row) := by
  have hvalid := hrows.users userID row hfind
  have hpositive : (0 < row.sessionVersion && 0 < row.projectionVersion) = true := by
    simp [hvalid.session, hvalid.version]
  have hprojection : validateUserProjection x userID row = .ok row := by
    simp [validateUserProjection, requireThat, requireElse, hvalid.userID, hvalid.email,
      hpositive, bind, Except.bind]
  simp [userByID, canonicalUserID, canonicalULID_of_isCanonicalID hvalid.userID, Except.mapError,
    bind, Except.bind, hfind, hprojection, Except.map]

/-- In a valid state an enabled user resolves, with global reach for exactly the
permissions that a global grant gives. -/
theorem hasGlobalReach_iff (hrows : AccessRows x t) (hfind : t.users.find userID = some row)
    (permission : String) :
    hasGlobalReach x t userID permission = true ↔
      row.disabled = false ∧ grantedGlobally t userID permission := by
  have huser := userByID_of_find hrows hfind
  cases hdisabled : row.disabled with
  | true =>
    simp [hasGlobalReach, resolveEffectiveAccess, huser, hdisabled, requireElse, bind, Except.bind]
  | false =>
    have hnormal : ∀ grant ∈ (listResolvedAuthorizationGrants t userID).map
        ResolvedGrant.toGrant, normalizeGrant grant = .ok grant := by
      intro grant hgrant
      obtain ⟨resolved, hresolved, rfl⟩ := List.mem_map.mp hgrant
      obtain ⟨grantID, _, -, -, hrow⟩ := mem_listResolvedAuthorizationGrants.mp hresolved
      exact resolveGrant_normal hrows hrow
    obtain ⟨effective, hresolve, hglobal⟩ := resolve_global_iff hnormal
    have haccess : resolveEffectiveAccess x t userID = .ok effective := by
      simp [resolveEffectiveAccess, huser, hdisabled, requireElse, hresolve, bind, Except.bind,
        Except.mapError]
    have hany : hasGlobalReach x t userID permission = true ↔
        isGlobal effective.permissions permission := by
      rw [hasGlobalReach, haccess, Option.any_eq_true]
      rfl
    rw [hany, hglobal]
    simp only [true_and, List.mem_map, exists_exists_and_eq_and,
      mem_listResolvedAuthorizationGrants, Grant.givesGlobally, ResolvedGrant.toGrant,
      grantedGlobally]
    constructor
    · rintro ⟨resolved, ⟨grantID, grant, hgrant, hreaches, hrow⟩, hkind, hmem⟩
      obtain ⟨grant', role, hgrant', hrole, rfl⟩ := resolveGrant_eq_some.mp hrow
      cases hgrant.symm.trans hgrant'
      exact ⟨grantID, grant, role, hgrant, hrole, hkind, hmem, hreaches⟩
    · rintro ⟨grantID, grant, role, hgrant, hrole, hkind, hmem, hreaches⟩
      exact ⟨_, ⟨grantID, grant, hgrant, hreaches,
        resolveGrant_eq_some.mpr ⟨grant, role, hgrant, hrole, rfl⟩⟩, hkind, hmem⟩

/-- The condition of the administrator query on grants. -/
theorem anyRow_grantsAdmin (t : Tables X) (userID : String) :
    (t.authorizationGrants.anyRow fun _ grant => grantsAdmin t userID grant) = true ↔
      grantedGlobally t userID lastAdminPermission := by
  simp only [Table.anyRow_iff, grantsAdmin, grantedGlobally, Bool.and_eq_true, beq_iff_eq,
    Option.any_eq_true, List.contains_iff_mem]
  constructor
  · rintro ⟨grantID, grant, hgrant, ⟨hkind, role, hrole, hmem⟩, hreaches⟩
    exact ⟨grantID, grant, role, hgrant, hrole, hkind, hmem, hreaches⟩
  · rintro ⟨grantID, grant, role, hgrant, hrole, hkind, hmem, hreaches⟩
    exact ⟨grantID, grant, hgrant, ⟨hkind, role, hrole, hmem⟩, hreaches⟩

end states

/-! ## Two definitions of administrator -/

section admins

variable (x : Externals) (d : Db O X)

/-- The counted users are those who can administer roles. -/
def AdminsAgree : Prop :=
  ∀ userID row, d.tables.users.find userID = some row →
    (isEnabledAdmin d userID row = true ↔
      row.disabled = false ∧ administers x d.tables userID = true)

/-- Some user can administer roles. -/
def SomebodyAdministers : Prop :=
  ∃ userID row, d.tables.users.find userID = some row ∧ administers x d.tables userID = true

/-- Every enabled bootstrap administrator also holds a global grant of a role with
the administrator permission. -/
def BootstrapAdminsGranted : Prop :=
  ∀ userID row, d.tables.users.find userID = some row → row.disabled = false →
    isBootstrapAdmin d.events userID = true →
    (d.tables.authorizationGrants.anyRow fun _ grant => grantsAdmin d.tables userID grant) = true

variable {x d}

/-- In a valid state only bootstrap administrators can make a difference. -/
theorem adminsAgree_iff (hrows : AccessRows x d.tables) :
    AdminsAgree x d ↔ BootstrapAdminsGranted d := by
  have hadmin : ∀ userID row, isEnabledAdmin d userID row = true ↔ row.disabled = false ∧
      (grantedGlobally d.tables userID lastAdminPermission ∨
        isBootstrapAdmin d.events userID = true) := by
    intro userID row
    rw [isEnabledAdmin, Bool.and_eq_true, Bool.or_eq_true, anyRow_grantsAdmin, Bool.not_eq_true']
  constructor
  · intro hagree userID row hfind henabled hbootstrap
    rw [anyRow_grantsAdmin]
    have hcounted := (hadmin userID row).mpr ⟨henabled, .inr hbootstrap⟩
    have hadministers := ((hagree userID row hfind).mp hcounted).2
    exact ((hasGlobalReach_iff hrows hfind _).mp hadministers).2
  · intro hgranted userID row hfind
    rw [hadmin, administers, hasGlobalReach_iff hrows hfind]
    constructor
    · rintro ⟨henabled, hgrant | hbootstrap⟩
      · exact ⟨henabled, henabled, hgrant⟩
      · have hany := hgranted userID row hfind henabled hbootstrap
        exact ⟨henabled, henabled, (anyRow_grantsAdmin _ _).mp hany⟩
    · rintro ⟨henabled, -, hgrant⟩
      exact ⟨henabled, .inl hgrant⟩

/-- If the definitions agree, some counted user can administer roles. -/
theorem AdminsAgree.somebody (h : AdminsAgree x d) (hcount : countEnabledAdmins d ≠ 0) :
    SomebodyAdministers x d := by
  obtain ⟨userID, row, hfind, hcounted⟩ :=
    (Table.count_pos_iff _ _).mp (Nat.pos_of_ne_zero hcount)
  exact ⟨userID, row, hfind, ((h userID row hfind).mp hcounted).2⟩

/-- In every reachable state the query and the resolver agree on administrators
exactly when no enabled bootstrap administrator lacks a grant; and when the
last-administrator guard lets the append of an event through in a state where it
counts administrators, and afterwards no enabled bootstrap administrator lacks a
grant, somebody can administer roles. -/
theorem admin_definitions_agree [Applies V X] (x : Externals) (others : OtherDomains O X V)
    (rest : X) (as : List (Action (client (registry x others))))
    (s : Sys (client (registry x others)))
    (hrun : runActions (Sys.init (client (registry x others)) ⟨[], Tables.init rest⟩) as = some s) :
    (AdminsAgree x s.committed ↔ BootstrapAdminsGranted s.committed) ∧
    ∀ (event : Event (Body O)) (version : Nat) (after : Db O X),
      (protectLastAdminMutation (registry x others) true
        (insertAndProject (registry x others) event version)).run s.committed = .ok ((), after) →
      countEnabledAdmins s.committed ≠ 0 → BootstrapAdminsGranted after →
      SomebodyAdministers x after := by
  have hkeeps : ∀ skipWork (e : Ev O),
      (project x others skipWork e).Writes (Write.KeepsRows x) := fun skipWork e =>
    (project_writes x e others skipWork).mono fun _ => And.right
  have hrows : AccessRows x s.committed.tables :=
    Exec.tables_invariant hkeeps (fun _ _ hw ht => ht.apply hw) (exec_of_runActions hrun)
      (AccessRows.init x rest)
  refine ⟨adminsAgree_iff hrows, fun event version after hguard hbefore hgranted => ?_⟩
  obtain ⟨hmutate, hafter⟩ := run_protectLastAdminMutation hguard
  -- The mutation stores valid rows only, so the definitions agree after it.
  obtain ⟨ws, hws, hstate⟩ := Prog.run_eq_applyAll
    (insertAndProject_writes hkeeps event version) hmutate
  have hrows' : AccessRows x after.tables := by
    rw [hstate]
    refine applyAll_induction (P := fun d : Db O X => AccessRows x d.tables) ?_ hrows
    intro w hw d hd
    cases w with
    | event e => exact hd
    | row w => exact hd.apply (hws _ hw)
  exact ((adminsAgree_iff hrows').mpr hgranted).somebody (hafter rfl hbefore)

/-- The first administrator of a fresh server: a user, and its bootstrap role. -/
def firstBootActions : List (Action (client identityRegistry)) :=
  appendAlone 0 3 (userCreated (sampleID '1') "ada@example.com") ++
    appendAlone 1 4 (bootstrapAdminRoleGranted (sampleID '1'))

/-- After first boot one administrator is counted and nobody can administer roles. -/
theorem firstBoot_disagrees :
    ∃ s, runActions emptyServer firstBootActions = some s ∧ countEnabledAdmins s.committed = 1 ∧
      ¬ AdminsAgree asciiExternals s.committed := by
  have hrun : (runActions emptyServer firstBootActions).any (fun s =>
      countEnabledAdmins s.committed == 1 && !s.committed.tables.users.anyRow fun userID _ =>
        administers asciiExternals s.committed.tables userID) = true := by
    decide +kernel
  obtain ⟨s, hs, hstate⟩ := (Option.any_eq_true _ _).mp hrun
  simp only [Bool.and_eq_true, beq_iff_eq, Bool.not_eq_true'] at hstate
  refine ⟨s, hs, hstate.1, ?_⟩
  intro hagree
  have hsome := hagree.somebody (by rw [hstate.1]; exact Nat.one_ne_zero)
  have hany := (Table.anyRow_iff s.committed.tables.users fun userID _ =>
    administers asciiExternals s.committed.tables userID).mpr hsome
  rw [hstate.2] at hany
  cases hany

/-- A global grant of a role to a user. -/
def globalGrantCreated (grantID userID roleID : String) : Event (Body Empty) :=
  eventOn "authorization-grant" grantID
    (.authorization (.grantCreated (.decoded ⟨"user", userID, roleID, "global", []⟩)))

/-- The bootstrap administrator, granted a role with the administrator permission. -/
def grantedAdminActions : List (Action (client identityRegistry)) :=
  firstBootActions ++ appendAlone 2 3 (roleCreated (sampleID '2') "administrator") ++
    appendAlone 3 5 (globalGrantCreated (sampleID '3') (sampleID '1') (sampleID '2'))

/-- No user lacks a grant with the administrator permission. -/
def allGranted (d : Db O X) : Bool :=
  !d.tables.users.anyRow fun userID _ =>
    !d.tables.authorizationGrants.anyRow fun _ grant => grantsAdmin d.tables userID grant

theorem bootstrapAdminsGranted_of_all {d : Db O X} (h : allGranted d = true) :
    BootstrapAdminsGranted d := by
  intro userID row hfind _ _
  by_contra hnone
  have hany := (Table.anyRow_iff d.tables.users fun userID _ =>
    !d.tables.authorizationGrants.anyRow fun _ grant =>
      grantsAdmin d.tables userID grant).mpr ⟨userID, row, hfind, by simpa using hnone⟩
  rw [allGranted, hany] at h
  cases h

/-- Another role, under the guard. -/
def auditorGuarded : StoreProg (Body Empty) (Tables Unit) (Write Empty) Key Unit :=
  protectLastAdminMutation identityRegistry true
    (insertAndProject identityRegistry (roleCreated (sampleID '4') "auditor") 1)

/-- With the grant the one counted administrator can administer roles, also after the
guard has let another event through. -/
theorem grantedAdmin_agrees :
    ∃ s after, runActions emptyServer grantedAdminActions = some s ∧
      countEnabledAdmins s.committed = 1 ∧ AdminsAgree asciiExternals s.committed ∧
      auditorGuarded.run s.committed = .ok ((), after) ∧
      SomebodyAdministers asciiExternals after := by
  have hrun : (runActions emptyServer grantedAdminActions).any (fun s =>
      countEnabledAdmins s.committed == 1 && allGranted s.committed &&
        match auditorGuarded.run s.committed with
        | .ok (_, after) => allGranted after
        | .error _ => false) = true := by
    decide +kernel
  obtain ⟨s, hs, hstate⟩ := (Option.any_eq_true _ _).mp hrun
  simp only [Bool.and_eq_true, beq_iff_eq] at hstate
  obtain ⟨⟨hcount, hall⟩, hafter⟩ := hstate
  obtain ⟨hagree, hsomebody⟩ :=
    admin_definitions_agree asciiExternals noOthers () grantedAdminActions s hs
  cases hguard : auditorGuarded.run s.committed with
  | error e => simp [hguard] at hafter
  | ok r =>
    rw [hguard] at hafter
    exact ⟨s, r.2, hs, hcount, hagree.mpr (bootstrapAdminsGranted_of_all hall), hguard,
      hsomebody _ _ r.2 hguard (by rw [hcount]; exact Nat.one_ne_zero)
        (bootstrapAdminsGranted_of_all hafter)⟩

end admins

end PowerManage.Identity
