import PowerManage.Identity.AccessRows

/-!
# What projectors write

The effect of a write is the table it changes and whether it inserts, updates or
deletes rows there.  Each statement has its effects, and each event's projector
those of its statements; every table that is not among them keeps its rows, and no
row is stored that its readers reject.

Main results:

- `project_writes`: the effects of an event's projector.
- `run_frame`: what depends on other tables only is unchanged.
-/

namespace PowerManage.Identity

open Relational Store

variable {O X V : Type}

/-! ## Effects -/

/-- The tables, as the writes name them. -/
inductive TableName where
  | users
  | oidcIdentities
  | scimIdentities
  | managedUserGroups
  | managedUserGroupMembers
  | scimGroups
  | scimGroupMembers
  | authorizationRoles
  | authorizationGrants
  | bootstrapLogins
  | rest
  deriving DecidableEq

/-- What a write may do to a table. -/
inductive Effect where
  | insert (table : TableName)
  /-- An update; one of a user row leaves the user enabled or disabled. -/
  | update (table : TableName)
  | delete (table : TableName)
  /-- An update of a user row that may disable the user. -/
  | disable
  | rest
  deriving DecidableEq

def Effect.table : Effect → TableName
  | insert table | update table | delete table => table
  | disable => .users
  | rest => .rest

/-- The effect of a row write on its table. -/
def rowEffect {κ ρ : Type} (table : TableName) : RowWrite κ ρ → Effect
  | .insert _ _ => .insert table
  | .update _ _ => .update table
  | .delete _ => .delete table

/-- The write has an effect. -/
def Write.Does : Write V → Effect → Prop
  | .users (.update _ change), eff =>
    eff = .disable ∨ eff = .update .users ∧ ∀ row, (change row).disabled = row.disabled
  | .users w, eff => eff = rowEffect .users w
  | .oidcIdentities w, eff => eff = rowEffect .oidcIdentities w
  | .scimIdentities w, eff => eff = rowEffect .scimIdentities w
  | .managedUserGroups w, eff => eff = rowEffect .managedUserGroups w
  | .managedUserGroupMembers w, eff => eff = rowEffect .managedUserGroupMembers w
  | .scimGroups w, eff => eff = rowEffect .scimGroups w
  | .scimGroupMembers w, eff => eff = rowEffect .scimGroupMembers w
  | .authorizationRoles w, eff => eff = rowEffect .authorizationRoles w
  | .authorizationGrants w, eff => eff = rowEffect .authorizationGrants w
  | .bootstrapLogins w, eff => eff = rowEffect .bootstrapLogins w
  | .rest _, eff => eff = .rest

/-- The table that a write changes. -/
def Write.table : Write V → TableName
  | .users _ => .users
  | .oidcIdentities _ => .oidcIdentities
  | .scimIdentities _ => .scimIdentities
  | .managedUserGroups _ => .managedUserGroups
  | .managedUserGroupMembers _ => .managedUserGroupMembers
  | .scimGroups _ => .scimGroups
  | .scimGroupMembers _ => .scimGroupMembers
  | .authorizationRoles _ => .authorizationRoles
  | .authorizationGrants _ => .authorizationGrants
  | .bootstrapLogins _ => .bootstrapLogins
  | .rest _ => .rest

/-- The write has one of these effects. -/
def Write.Within (effects : List Effect) (w : Write V) : Prop :=
  ∃ eff ∈ effects, w.Does eff

/-- The write has one of these effects and stores only valid users, roles and grants. -/
def Write.Sound (x : Externals) (effects : List Effect) (w : Write V) : Prop :=
  w.Within effects ∧ w.KeepsRows x

variable {eff : Effect}

/-- A write within a list has its first effect or one of the others. -/
theorem Write.within_cons {effects : List Effect} {w : Write V} :
    w.Within (eff :: effects) ↔ w.Does eff ∨ w.Within effects := by
  simp [Within]

theorem rowEffect_table {κ ρ : Type} (table : TableName) (w : RowWrite κ ρ) :
    (rowEffect table w).table = table := by
  cases w <;> rfl

/-- An effect is one on the write's own table. -/
theorem Write.Does.table {w : Write V} (h : w.Does eff) : eff.table = w.table := by
  cases w with
  | users w =>
    cases w with
    | insert k row => rw [show eff = _ from h]; rfl
    | delete ks => rw [show eff = _ from h]; rfl
    | update ks f =>
      rcases h with rfl | ⟨rfl, -⟩
      · rfl
      · rfl
  | rest v => rw [show eff = _ from h]; rfl
  | _ => rw [show eff = _ from h]; exact rowEffect_table _ _

/-- The effects of an event's projector. -/
def Body.effects : Body O → List Effect
  | user (.created _) => [.insert .users]
  | user (.managedUpdated _) =>
    [.update .users, .update .oidcIdentities, .update .scimIdentities]
  | user (.managedDeleted _) =>
    [.delete .managedUserGroupMembers, .delete .scimGroupMembers, .delete .users,
      .delete .oidcIdentities, .delete .scimIdentities]
  | user (.bootstrapAdminRoleGranted _) => [.update .users]
  | user (.oidcIdentityLinked _) => [.insert .oidcIdentities, .update .users]
  | user (.oidcIdentityUnlinked _) => [.update .users, .delete .oidcIdentities]
  | user (.scimIdentityLinked _) => [.insert .scimIdentities, .update .users]
  | user (.scimIdentityUnlinked _) => [.delete .scimIdentities, .update .users]
  | user (.scimUserDeprovisioned _) =>
    [.update .users, .delete .scimGroupMembers, .delete .users, .delete .oidcIdentities,
      .delete .scimIdentities]
  | user (.disabled _) => [.disable]
  | user (.roleRevoked _ _) => [.update .users]
  | userGroup (.created _) => [.insert .managedUserGroups, .insert .managedUserGroupMembers]
  | userGroup (.updated _) =>
    [.update .managedUserGroups, .delete .managedUserGroupMembers, .insert .managedUserGroupMembers]
  | userGroup (.metadataUpdated _) => [.update .managedUserGroups]
  | userGroup (.deleted _) => [.delete .managedUserGroups, .delete .managedUserGroupMembers]
  | scimGroup (.created _) => [.insert .scimGroups]
  | scimGroup (.updated _) => [.update .scimGroups]
  | scimGroup (.membershipsReplaced _) =>
    [.delete .scimGroupMembers, .insert .scimGroupMembers, .update .scimGroups]
  | scimGroup (.deleted _) => [.delete .scimGroups, .delete .scimGroupMembers]
  | authorization (.roleCreated _) => [.insert .authorizationRoles]
  | authorization (.roleUpdated _) => [.update .authorizationRoles]
  | authorization (.roleDeleted _) => [.delete .authorizationRoles]
  | authorization (.grantCreated _) => [.insert .authorizationGrants]
  | authorization (.grantUpdated _) => [.update .authorizationGrants]
  | authorization (.grantDeleted _) => [.delete .authorizationGrants]
  | bootstrapLogin (.minted _) => [.insert .bootstrapLogins]
  | bootstrapLogin (.consumed _) => [.update .bootstrapLogins]
  | other _ => [.rest]

/-- The tables that the events of a domain may change. -/
def Body.tables : Body O → List TableName
  | user _ =>
    [.users, .oidcIdentities, .scimIdentities, .managedUserGroupMembers, .scimGroupMembers]
  | userGroup _ => [.managedUserGroups, .managedUserGroupMembers]
  | scimGroup _ => [.scimGroups, .scimGroupMembers]
  | authorization _ => [.authorizationRoles, .authorizationGrants]
  | bootstrapLogin _ => [.bootstrapLogins]
  | other _ => [.rest]

/-- An event has its effects on the tables of its domain. -/
theorem Body.table_mem_tables {body : Body O} (h : eff ∈ body.effects) :
    eff.table ∈ body.tables := by
  have hall : ∀ eff' ∈ body.effects, eff'.table ∈ body.tables := by
    cases body with
    | user body => cases body <;> simp only [effects, tables] <;> decide
    | userGroup body => cases body <;> simp only [effects, tables] <;> decide
    | scimGroup body => cases body <;> simp only [effects, tables] <;> decide
    | authorization body => cases body <;> simp only [effects, tables] <;> decide
    | bootstrapLogin body => cases body <;> simp only [effects, tables] <;> decide
    | other body => simp only [effects, tables]; decide
  exact hall eff h

/-! ## Statements -/

section statements

variable {x : Externals} {effects : List Effect} {context : StoreError → StoreError}
variable {none : StoreError} {P : Write V → Prop} {e : Ev O}

open Prog.Writes

/-- An update of a user writes only what has passed the table's checks. -/
theorem updateUser_writes {userID : String} {selects : UserRow → Bool} {change : UserRow → UserRow}
    (h : ∀ row, checkUser userID (change row) = .ok () → P (.users (.update {userID} change))) :
    (updateUser userID selects change context none : ProjProg O X V Unit).Writes P := by
  apply affectOne
  grind [bind_eq_ok]

/-- Moving a user to an event's version does not disable it. -/
theorem advanceUser_writes {userID : String} {selects : UserRow → Bool}
    (h : .update .users ∈ effects) :
    (updateUser userID selects (advanceTo e) context none : ProjProg O X V Unit).Writes
      (Write.Sound x effects) :=
  updateUser_writes fun _ hcheck => ⟨⟨_, h, .inr ⟨rfl, fun _ => rfl⟩⟩,
    update_keepsRows hcheck (fun _ => rfl) (fun _ => rfl) fun _ => Nat.le_refl _⟩

/-- Invalidating a user's sessions disables it only on demand. -/
theorem invalidateUserSession_writes {disableUser : Bool}
    (h : (if disableUser then .disable else .update .users) ∈ effects) :
    (invalidateUserSession e disableUser : ProjProg O X V Unit).Writes
      (Write.Sound x effects) := by
  refine updateUser_writes fun _ hcheck => ⟨⟨_, h, ?_⟩,
    update_keepsRows hcheck (fun _ => rfl) (fun _ => rfl) fun _ => Nat.le_succ _⟩
  cases disableUser with
  | true => exact .inl rfl
  | false => exact .inr ⟨rfl, fun row => Bool.or_false row.disabled⟩

/-- Replacing a managed user keeps it enabled or disabled. -/
theorem replaceManagedUser_writes {email : String} (h : .update .users ∈ effects)
    (hemail : isCanonicalEmail x email = true) (hversion : 0 < e.streamVersion) :
    (replaceManagedUser e email context none : ProjProg O X V Unit).Writes
      (Write.Sound x effects) := by
  apply affectOne
  intro d row ws _ hchange w hw
  simp only [check_bind_eq_ok, Except.ok.injEq] at hchange
  rw [← hchange.2.2, List.mem_singleton] at hw
  subst hw
  exact ⟨⟨_, h, .inr ⟨rfl, fun _ => rfl⟩⟩,
    fun _ _ _ hold => ⟨hold.userID, hemail, hold.session, hversion⟩⟩

end statements

/-! ## Projectors -/

section projectors

variable (x : Externals) (e : Ev O)

open Prog.Writes

attribute [local simp] Body.effects
attribute [local grind =] Write.Sound Write.within_cons Write.Does rowEffect Body.effects
  Write.KeepsRows RowWrite.Respects bind_eq_ok

variable {effects : List Effect} {skipWork : Bool} {P : Write V → Prop}

theorem inspectSessionUser_writes : (inspectSessionUser e : ProjProg O X V UserRow).Writes P :=
  bind require fun _ => bind require fun _ => bind (mapError query) fun _ =>
    bind require fun _ => ret _

theorem projectUser_writes (body : UserBody) :
    (projectUser x e body : ProjProg O X V Unit).Writes
      (Write.Sound x (Body.user body : Body O).effects) := by
  cases body with
  | created payload =>
    refine ofExcept_bind fun p hp => mapError (write ?_)
    obtain ⟨hversion, hid, hemail, -⟩ := validateUserCreation_checked hp
    have hvalid : ValidUser x e.streamID (newUser e p.email) :=
      ⟨hid, hemail, Nat.one_pos, by simp [newUser, hversion]⟩
    grind
  | managedUpdated payload =>
    refine ofExcept_bind fun p hp => ?_
    obtain ⟨hversion, hemail, -⟩ := validateManagedUserUpdate_checked hp
    exact bind (replaceManagedUser_writes (by simp) hemail (by omega)) fun _ =>
      bind (mapError (write (by grind))) fun _ =>
      mapError (write (by grind))
  | managedDeleted payload =>
    exact bind ofExcept fun _ =>
      bind (mapError (write (by grind))) fun _ =>
      bind (mapError (write (by grind))) fun _ =>
      affectOne (by grind)
  | bootstrapAdminRoleGranted payload =>
    exact bind ofExcept fun _ => bind (mapError query) fun _ =>
      bind require fun _ => advanceUser_writes (by simp)
  | oidcIdentityLinked payload =>
    exact bind ofExcept fun _ => bind (mapError query) fun _ =>
      bind require fun _ => bind require fun _ =>
      bind (mapError (write (by grind))) fun _ => advanceUser_writes (by simp)
  | oidcIdentityUnlinked payload =>
    exact bind (inspectSessionUser_writes e) fun _ => bind ofExcept fun _ =>
      bind (invalidateUserSession_writes (by simp)) fun _ =>
      affectOne (by grind)
  | scimIdentityLinked payload =>
    exact bind ofExcept fun _ => bind (mapError query) fun _ =>
      bind require fun _ => bind (mapError (write (by grind))) fun _ =>
      advanceUser_writes (by simp)
  | scimIdentityUnlinked payload =>
    exact bind ofExcept fun _ => bind (mapError query) fun _ =>
      bind require fun _ => bind (affectOne (by grind)) fun _ => advanceUser_writes (by simp)
  | scimUserDeprovisioned payload =>
    exact bind (inspectSessionUser_writes e) fun _ => bind ofExcept fun _ =>
      bind query fun _ => bind require fun _ =>
      bind (invalidateUserSession_writes (by simp)) fun _ =>
      bind (mapError (write (by grind))) fun _ =>
      affectOne (by grind)
  | disabled payload =>
    exact bind (inspectSessionUser_writes e) fun _ => bind ofExcept fun _ =>
      invalidateUserSession_writes (by simp)
  | roleRevoked payload bytes =>
    exact bind (inspectSessionUser_writes e) fun _ => bind ofExcept fun _ =>
      invalidateUserSession_writes (by simp)

theorem projectUserGroup_writes (body : UserGroupBody) :
    (projectUserGroup e body : ProjProg O X V Unit).Writes
      (Write.Sound x (Body.userGroup body : Body O).effects) := by
  cases body with
  | created payload =>
    exact bind ofExcept fun _ => bind (mapError (write (by grind))) fun _ =>
      forEach (fun _ => affectOne (by grind)) _
  | updated payload =>
    exact bind ofExcept fun _ => bind (affectOne (by grind)) fun _ =>
      bind (mapError (write (by grind))) fun _ =>
      forEach (fun _ => affectOne (by grind)) _
  | metadataUpdated payload => exact bind ofExcept fun _ => affectOne (by grind)
  | deleted payload => exact bind ofExcept fun _ => affectOne (by grind)

/-- Replacing one member inserts at most its row. -/
theorem replaceSCIMGroupMember_writes {userID : String} (h : .insert .scimGroupMembers ∈ effects) :
    (replaceSCIMGroupMember e skipWork userID : ProjProg O X V Unit).Writes
      (Write.Sound x effects) := by
  refine bind require fun _ => bind (mapError (statement ?_)) fun _ => require
  grind [map_eq_ok, Write.Within]

theorem projectSCIMGroup_writes (skipWork : Bool) (body : SCIMGroupBody) :
    (projectSCIMGroup e skipWork body : ProjProg O X V Unit).Writes
      (Write.Sound x (Body.scimGroup body : Body O).effects) := by
  cases body with
  | created payload => exact bind ofExcept fun _ => mapError (write (by grind))
  | updated payload => exact bind ofExcept fun _ => affectOne (by grind)
  | membershipsReplaced payload =>
    exact bind ofExcept fun _ =>
      bind (mapError (write (by grind))) fun _ =>
      bind (forEach (fun _ => replaceSCIMGroupMember_writes x e (by simp)) _) fun _ =>
      affectOne (by grind)
  | deleted payload => exact bind ofExcept fun _ => affectOne (by grind)

theorem requireRole_writes {roleID : String} :
    (requireRole skipWork roleID : ProjProg O X V Unit).Writes P := by
  cases skipWork with
  | true => exact ret _
  | false => exact mapError query

theorem requirePrincipal_writes {row : GrantRow} :
    (requirePrincipal skipWork row : ProjProg O X V Unit).Writes P := by
  cases skipWork with
  | true => exact ret _
  | false => exact bind query fun _ => require

theorem projectAuthorization_writes (skipWork : Bool) (body : AuthorizationBody) :
    (projectAuthorization e skipWork body : ProjProg O X V Unit).Writes
      (Write.Sound x (Body.authorization body : Body O).effects) := by
  cases body with
  | roleCreated payload =>
    refine ofExcept_bind fun row hrow => mapError (write ?_)
    have hrole := decodeRole_valid (check_bind_eq_ok.mp hrow).2
    grind
  | roleUpdated payload =>
    refine ofExcept_bind fun row hrow => affectOne ?_
    have hrole := decodeRole_valid (check_bind_eq_ok.mp hrow).2
    grind
  | roleDeleted payload => exact bind ofExcept fun _ => affectOne (by grind)
  | grantCreated payload =>
    exact ofExcept_bind fun row hrow => bind requireRole_writes fun _ =>
      bind query fun _ => bind require fun _ =>
      mapError (write (by grind [validateGrantCreation_valid]))
  | grantUpdated payload =>
    exact ofExcept_bind fun row hrow => bind requireRole_writes fun _ =>
      bind requirePrincipal_writes fun _ => affectOne (by grind [validateGrantUpdate_valid])
  | grantDeleted payload => exact bind ofExcept fun _ => affectOne (by grind)

theorem projectBootstrapLogin_writes (body : BootstrapLoginBody) :
    (projectBootstrapLogin e body : ProjProg O X V Unit).Writes
      (Write.Sound x (Body.bootstrapLogin body : Body O).effects) := by
  cases body with
  | minted payload =>
    exact bind ofExcept fun _ => bind (mapError query) fun _ =>
      mapError (write (by grind))
  | consumed payload =>
    exact bind ofExcept fun _ => bind (mapError query) fun _ =>
      bind require fun _ => affectOne (by grind)

/-- An event's projector has the effects of the event, and no projector stores an invalid
user, role or grant. -/
theorem project_writes (others : OtherDomains O X V) (skipWork : Bool) :
    (project x others skipWork e).Writes (Write.Sound x e.body.effects) := by
  rw [project]
  cases e.body with
  | user body => exact projectUser_writes x e body
  | userGroup body => exact projectUserGroup_writes x e body
  | scimGroup body => exact projectSCIMGroup_writes x e skipWork body
  | authorization body => exact projectAuthorization_writes x e skipWork body
  | bootstrapLogin body => exact projectBootstrapLogin_writes x e body
  | other body =>
    refine (others.writes skipWork e body).mono ?_
    rintro _ ⟨v, rfl⟩
    exact ⟨⟨.rest, List.mem_singleton_self _, rfl⟩, trivial⟩

variable {x e}

/-- Whatever depends only on tables without an effect of a program is unchanged. -/
theorem run_frame [Applies V X] {α β : Type} {p : ProjProg O X V β}
    (hp : p.Writes (Write.Sound x effects)) {names : List TableName} {f : Tables X → α}
    (hf : ∀ (w : Write V) t, w.table ∉ names → f (w.apply t) = f t)
    (hnames : ∀ eff ∈ effects, eff.table ∉ names) {d d' : Db O X} {b : β}
    (hrun : p.run d = .ok (b, d')) : f d'.tables = f d.tables := by
  obtain ⟨ws, hws, rfl⟩ := Prog.run_eq_applyAll hp hrun
  have hframe : f (applyAll ws d.tables) = f d.tables := by
    refine applyAll_induction (P := fun t => f t = f d.tables) ?_ rfl
    intro w hw t ht
    obtain ⟨⟨eff, heff, hdoes⟩, -⟩ := hws w hw
    exact (hf w t (hdoes.table ▸ hnames eff heff)).trans ht
  rwa [applyAll_tables]

theorem run_project_frame [Applies V X] {others : OtherDomains O X V} {names : List TableName}
    {α : Type} {f : Tables X → α} (hf : ∀ (w : Write V) t, w.table ∉ names → f (w.apply t) = f t)
    (hnames : e.body.tables.Disjoint names) {d d' : Db O X}
    (hrun : (project x others skipWork e).run d = .ok ((), d')) : f d'.tables = f d.tables :=
  run_frame (project_writes x e others skipWork) hf
    (fun _ heff hname => hnames (Body.table_mem_tables heff) hname) hrun

end projectors
end PowerManage.Identity
