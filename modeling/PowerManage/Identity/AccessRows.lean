import PowerManage.Identity.Registry

/-!
# Rows that pass their own reads

The reads of users, roles and grants validate what they find.  What an event
stores has passed the same checks in the event's projector.
-/

namespace PowerManage.Identity

open Relational Store

variable {O X V : Type}

/-! ## Valid rows -/

/-- The wire form of a principal type. -/
def PrincipalType.text : PrincipalType → String
  | .user => "user"
  | .userGroup => "user-group"

/-- The wire form of a scope kind. -/
def ScopeKind.text : ScopeKind → String
  | .global => "global"
  | .deviceGroups => "device-groups"
  | .userGroups => "user-groups"
  | .self => "self"

/-- Printed kinds are read back. -/
@[simp]
theorem PrincipalType.parse_text (kind : PrincipalType) : parse kind.text = some kind := by
  cases kind <;> rfl

/-- Only its own text is read as a kind. -/
theorem ScopeKind.text_of_parse {value : String} {kind : ScopeKind}
    (h : parse value = some kind) : kind.text = value := by
  unfold parse at h
  split at h <;> cases h <;> rfl

/-- What `validateUserProjection` accepts. -/
structure ValidUser (x : Externals) (userID : String) (row : UserRow) : Prop where
  userID : isCanonicalID userID = true
  email : isCanonicalEmail x row.email = true
  session : 0 < row.sessionVersion
  version : 0 < row.projectionVersion

/-- A role that `NormalizeRole` leaves as it is. -/
def ValidRole (roleID : String) (row : RoleRow) : Prop :=
  isNormalRole ⟨roleID, row.name, row.permissions⟩ = true

/-- A grant that `NormalizeGrant` leaves as it is, its permissions apart. -/
structure ValidGrant (grantID : String) (row : GrantRow) : Prop where
  grantID : isCanonicalID grantID = true
  principalID : isCanonicalID row.principalID = true
  roleID : isCanonicalID row.roleID = true
  scope : normalizeScope row.scopeKind.text row.scopeIDs = .ok ⟨row.scopeKind, row.scopeIDs⟩

/-- The users, roles and grants are valid. -/
structure AccessRows (x : Externals) (t : Tables X) : Prop where
  users : t.users.AllRows (ValidUser x)
  roles : t.authorizationRoles.AllRows ValidRole
  grants : t.authorizationGrants.AllRows ValidGrant

/-- The write stores only valid users, roles and grants. -/
def Write.KeepsRows (x : Externals) : Write V → Prop
  | .users w => w.Respects (ValidUser x)
  | .authorizationRoles w => w.Respects ValidRole
  | .authorizationGrants w => w.Respects ValidGrant
  | _ => True

/-- A new database has no access rows. -/
theorem AccessRows.init (x : Externals) (rest : X) : AccessRows x (Tables.init rest) :=
  ⟨Table.AllRows.empty, Table.AllRows.empty, Table.AllRows.empty⟩

variable {x : Externals}

/-- Writes of valid rows keep all rows valid. -/
theorem AccessRows.apply [Applies V X] {t : Tables X} (h : AccessRows x t) {w : Write V}
    (hw : w.KeepsRows x) : AccessRows x (w.apply t) := by
  cases w with
  | users w => exact ⟨h.users.apply hw, h.roles, h.grants⟩
  | authorizationRoles w => exact ⟨h.users, h.roles.apply hw, h.grants⟩
  | authorizationGrants w => exact ⟨h.users, h.roles, h.grants.apply hw⟩
  | _ => exact ⟨h.users, h.roles, h.grants⟩

/-! ## Users -/

section users

variable {e : Ev O} {userID : String}

/-- An update keeps users valid when it keeps the e-mail canonical and the session
version positive; its check keeps the row version positive. -/
theorem update_keepsRows {change : UserRow → UserRow} {row : UserRow} {version : Nat}
    (hcheck : checkUser userID (change row) = .ok ())
    (hversion : ∀ row, (change row).projectionVersion = version)
    (hemail : ∀ row, (change row).email = row.email)
    (hsession : ∀ row, row.sessionVersion ≤ (change row).sessionVersion) :
    (Write.users (.update {userID} change) : Write V).KeepsRows x := by
  have hpos : 0 < version := by
    simp [checkUser, hversion] at hcheck
    omega
  intro id _ old hold
  refine ⟨hold.userID, ?_, Nat.lt_of_lt_of_le hold.session (hsession old), ?_⟩
  · rw [hemail]
    exact hold.email
  · rw [hversion]
    exact hpos

variable {payload : Payload UserCreatedPayload}

/-- What a created user was checked for. -/
theorem validateUserCreation_checked {p : UserCreatedPayload}
    (h : validateUserCreation x e payload = .ok p) :
    e.streamVersion = 1 ∧ isCanonicalID e.streamID = true ∧
      isCanonicalEmail x p.email = true ∧ payload = .decoded p := by
  simp only [validateUserCreation, bind_eq_ok, requireElse_eq_ok, requireThat_eq_ok,
    beq_iff_eq] at h
  obtain ⟨_, hversion, _, hid, p', hdecoded, _, hemail, hp⟩ := h
  cases hp
  exact ⟨hversion, hid, hemail, decodeEventPayload_ok hdecoded⟩

/-- What an updated user was checked for. -/
theorem validateManagedUserUpdate_checked {p : UserCreatedPayload}
    (h : validateManagedUserUpdate x e payload = .ok p) :
    2 ≤ e.streamVersion ∧ isCanonicalEmail x p.email = true ∧ payload = .decoded p := by
  simp only [validateManagedUserUpdate, bind_eq_ok, requireThat_eq_ok, decide_eq_true_eq] at h
  obtain ⟨_, hversion, _, -, p', hdecoded, _, hemail, hp⟩ := h
  cases hp
  exact ⟨hversion, hemail, decodeEventPayload_ok hdecoded⟩

end users

/-! ## Roles and grants -/

section authorization

variable {e : Ev O}

/-- Decoded roles are valid rows. -/
theorem decodeRole_valid {eventType : String} {payload : Payload AuthorizationRolePayload}
    {row : RoleRow} (h : decodeRole e eventType payload = .ok row) : ValidRole e.streamID row := by
  simp only [decodeRole, bind_eq_ok, requireThat_eq_ok] at h
  obtain ⟨p, -, _, hnormal, hrow⟩ := h
  cases hrow
  exact hnormal

/-- A principal that normalizes to itself is canonical. -/
theorem normalizePrincipal_canonical {kind id : String} {principal : PrincipalType × String}
    (h : normalizePrincipal kind id = .ok principal) (hid : principal.2 = id) :
    isCanonicalID id = true := by
  unfold normalizePrincipal at h
  cases hkind : PrincipalType.parse kind with
  | none => rw [hkind] at h; cases h
  | some principalType =>
    rw [hkind] at h
    cases hcanonical : canonicalULID id with
    | error reason => rw [hcanonical] at h; cases h
    | ok canonical =>
      rw [hcanonical] at h
      cases h
      have hself : canonical = id := hid
      simp [isCanonicalID, hcanonical, hself]

/-- Normalizing keeps the kind of a scope. -/
theorem normalizeScope_kind {kind : String} {ids : List String} {scope : Scope}
    (h : normalizeScope kind ids = .ok scope) : ScopeKind.parse kind = some scope.kind := by
  have hunscoped : ∀ parsed, normalizeScope.unscoped kind ids parsed = .ok scope →
      scope.kind = parsed := by
    intro parsed hok
    simp only [normalizeScope.unscoped] at hok
    split at hok
    · cases hok
      rfl
    · cases hok
  unfold normalizeScope at h
  split at h
  next => cases h
  next hparse => rw [hparse, hunscoped _ h]
  next hparse => rw [hparse, hunscoped _ h]
  next hparse =>
    obtain ⟨ids', -, hscope⟩ := map_eq_ok.mp h
    cases hscope
    exact hparse
  next hparse =>
    obtain ⟨ids', -, hscope⟩ := map_eq_ok.mp h
    cases hscope
    exact hparse

variable {row : GrantRow}

/-- Grants that pass the checks are valid rows. -/
theorem grantRow_valid {principalText roleText scopeText grantID : String}
    {payload : AuthorizationGrantPayload} (hid : isCanonicalID grantID = true)
    (h : grantRow e principalText roleText scopeText payload = .ok row) :
    ValidGrant grantID row := by
  simp only [grantRow, bind_eq_ok, requireThat_eq_ok, mapError_eq_ok, beq_iff_eq] at h
  obtain ⟨principal, hprincipal, _, hsame, _, hrole, scope, hscope, _, hids, hrow⟩ := h
  cases hrow
  refine ⟨hid, normalizePrincipal_canonical hprincipal hsame, hrole, ?_⟩
  rw [ScopeKind.text_of_parse (normalizeScope_kind hscope), hids, hscope, ← hids]

variable {payload : Payload AuthorizationGrantPayload}

/-- A created grant is a valid row. -/
theorem validateGrantCreation_valid (h : validateGrantCreation e payload = .ok row) :
    ValidGrant e.streamID row := by
  simp only [validateGrantCreation, bind_eq_ok, requireThat_eq_ok] at h
  obtain ⟨_, -, _, hid, p, -, hrow⟩ := h
  exact grantRow_valid hid hrow

/-- An updated grant is a valid row. -/
theorem validateGrantUpdate_valid (h : validateGrantUpdate e payload = .ok row) :
    ValidGrant e.streamID row := by
  simp only [validateGrantUpdate, bind_eq_ok, requireThat_eq_ok] at h
  obtain ⟨_, -, p, -, _, hid, hrow⟩ := h
  exact grantRow_valid hid hrow

end authorization

end PowerManage.Identity
