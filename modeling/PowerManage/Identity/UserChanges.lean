import PowerManage.Identity.UsersReplay

/-!
# What user events do to sessions

An accepted user event changes the row of its own stream's user and no other: it stores a
new row, keeps the session version, raises it, or removes the row.  All other events leave
every user's row alone.

Main results:

- `UserChange`: the ways in which an event may change a user's row.
- `projectUser_changes`: a projector that succeeds makes such a change.
- `accept_changes`: what an accepted event of any type does to every user's row.
-/

namespace PowerManage.Identity

open Relational Store

variable {O X V : Type} [Applies V X]

/-- The events that end every session of their user. -/
def killsSessions : UserBody → Bool
  | .disabled _ | .roleRevoked _ _ | .oidcIdentityUnlinked _ | .scimUserDeprovisioned _
  | .managedDeleted _ => true
  | _ => false

/-- The event ends every session of a user. -/
def Kills (userID : String) (e : Ev O) : Prop :=
  ∃ body, e.body = .user body ∧ killsSessions body = true ∧ e.streamID = userID

/-- The change that an accepted event makes to the row of its stream's user.  Only events
that end sessions raise the session version or remove the row, and those always do. -/
inductive UserChange (e : Ev O) (body : UserBody) : Option UserRow → Option UserRow → Prop where
  | created {row : UserRow} (hversion : e.streamVersion = 1)
      (hbody : killsSessions body = false) : UserChange e body none (some row)
  | kept {row row' : UserRow} (hsession : row'.sessionVersion = row.sessionVersion)
      (hbody : killsSessions body = false) : UserChange e body (some row) (some row')
  | invalidated {row row' : UserRow} (hsession : row'.sessionVersion = row.sessionVersion + 1) :
      UserChange e body (some row) (some row')
  | removed {row : UserRow} : UserChange e body (some row) none

/-! ## Statements -/

section statements

variable {u : String} {context : StoreError → StoreError} {none : StoreError}
variable {d d' : Db O X} {r : Unit}

attribute [local simp] Write.apply

/-- A program that writes to other tables leaves the users alone. -/
theorem users_eq {α : Type} {a : α} {p : ProjProg O X V α}
    (hp : p.Writes fun w => w.table ≠ .users) (h : p.run d = .ok (a, d')) :
    d'.tables.users = d.tables.users := by
  obtain ⟨ws, hws, rfl⟩ := Prog.run_eq_applyAll hp h
  rw [applyAll_tables]
  refine applyAll_induction (P := fun t : Tables X => t.users = d.tables.users) ?_ rfl
  intro w hw t ht
  have hother := hws w hw
  cases w with
  | users w => exact absurd rfl hother
  | _ => exact ht

/-- A new user was absent before. -/
theorem insertUser_row {row : UserRow}
    (h : (insertUser u row : ProjProg O X V Unit).run d = .ok (r, d')) :
    d.tables.users.find u = Option.none ∧ d'.tables.users.find u = some row := by
  obtain ⟨hcheck, rfl⟩ := Prog.run_write_ok.mp h
  simp only [bind_eq_ok, ite_error_eq_ok, Option.not_isSome_iff_eq_none] at hcheck
  obtain ⟨_, -, hnew, -⟩ := hcheck
  refine ⟨hnew, ?_⟩
  simp [RowWrite.leaves, hnew]

/-- A read returns the stored row. -/
theorem getUserByID_row {row : UserRow}
    (h : (getUserByID u : ProjProg O X V UserRow).run d = .ok (row, d')) :
    d.tables.users.find u = some row ∧ d' = d := by
  obtain ⟨hread, rfl⟩ := Prog.run_query_ok.mp h
  cases hfind : d'.tables.users.find u with
  | none => simp [hfind] at hread
  | some row' =>
    simp [hfind] at hread
    exact ⟨hread ▸ rfl, rfl⟩

variable {selects : UserRow → Bool}

/-- An update changes the stored row. -/
theorem updateUser_row {change : UserRow → UserRow}
    (h : (updateUser u selects change context none : ProjProg O X V Unit).run d = .ok (r, d')) :
    ∃ row, d.tables.users.find u = some row ∧ d'.tables.users.find u = some (change row) := by
  obtain ⟨row, ws, hrow, hchange, rfl⟩ := Prog.run_affectOne_ok.mp h
  simp [bind_eq_ok] at hchange
  obtain ⟨_, -, rfl⟩ := hchange
  obtain ⟨hfind, -⟩ := Option.filter_eq_some_iff.mp hrow
  refine ⟨row, hfind, ?_⟩
  simp [hfind]

/-- A replacement takes the stored row to the event and its address. -/
theorem replaceManagedUser_row {e : Ev O} {email : String}
    (h : (replaceManagedUser e email context none : ProjProg O X V Unit).run d = .ok (r, d')) :
    ∃ row, d.tables.users.find e.streamID = some row ∧
      d'.tables.users.find e.streamID = some { advanceTo e row with email } := by
  obtain ⟨row, ws, hrow, hchange, rfl⟩ := Prog.run_affectOne_ok.mp h
  simp [bind_eq_ok] at hchange
  obtain ⟨_, -, _, -, rfl⟩ := hchange
  obtain ⟨hfind, -⟩ := Option.filter_eq_some_iff.mp hrow
  refine ⟨row, hfind, ?_⟩
  simp [hfind]

/-- Only a stored user is deleted. -/
theorem deleteUser_row
    (h : (deleteUser u selects context none : ProjProg O X V Unit).run d = .ok (r, d')) :
    ∃ row, d.tables.users.find u = some row ∧ d'.tables.users.find u = Option.none := by
  obtain ⟨row, ws, hrow, hchange, rfl⟩ := Prog.run_affectOne_ok.mp h
  cases hchange
  obtain ⟨hfind, -⟩ := Option.filter_eq_some_iff.mp hrow
  refine ⟨row, hfind, ?_⟩
  simp

end statements

/-! ## Projectors -/

section projectors

variable {x : Externals} {e : Ev O} {d d' : Db O X}

attribute [local simp] Prog.run_bind_ok Prog.run_mapError map_eq_ok mapError_eq_ok ite_ok_eq_ok

open Prog.Writes

/-- An inspection returns the stored row. -/
theorem inspectSessionUser_row {row : UserRow}
    (h : (inspectSessionUser e : ProjProg O X V UserRow).run d = .ok (row, d')) :
    d.tables.users.find e.streamID = some row ∧ d' = d := by
  simp [inspectSessionUser] at h
  obtain ⟨-, -, hget, -⟩ := h
  exact getUserByID_row hget

/-- An event that ends sessions raises the session version of the row it inspected. -/
theorem invalidateUserSession_changes {body : UserBody} {disableUser : Bool} {r : Unit}
    (h : (invalidateUserSession e disableUser : ProjProg O X V Unit).run d = .ok (r, d')) :
    UserChange e body (d.tables.users.find e.streamID) (d'.tables.users.find e.streamID) := by
  obtain ⟨row, hrow, hrow'⟩ := updateUser_row h
  rw [hrow, hrow']
  exact .invalidated rfl

/-- A projector that succeeds makes one of the changes. -/
theorem projectUser_changes {body : UserBody}
    (h : (projectUser x e body : ProjProg O X V Unit).run d = .ok ((), d')) :
    UserChange e body (d.tables.users.find e.streamID) (d'.tables.users.find e.streamID) := by
  cases body with
  | created payload =>
    simp [projectUser, projectUserCreation] at h
    obtain ⟨p, hp, hinsert⟩ := h
    obtain ⟨hnew, hrow⟩ := insertUser_row hinsert
    simp only [validateUserCreation, bind_eq_ok, requireElse_eq_ok] at hp
    obtain ⟨_, hversion, -⟩ := hp
    rw [hnew, hrow]
    exact .created (beq_iff_eq.mp hversion) rfl
  | managedUpdated payload =>
    simp [projectUser, projectManagedUserUpdate] at h
    obtain ⟨p, hp, _, d₁, hreplace, _, d₂, hoidc, hscim⟩ := h
    obtain ⟨row, hrow, hrow'⟩ := replaceManagedUser_row hreplace
    rw [users_eq (write (by grind [Write.table])) hscim,
      users_eq (write (by grind [Write.table])) hoidc, hrow, hrow']
    exact .kept rfl rfl
  | managedDeleted payload =>
    simp [projectUser, projectManagedUserDeletion] at h
    obtain ⟨-, _, d₁, hmanaged, _, d₂, hscim, hdelete⟩ := h
    obtain ⟨row, hrow, hnone⟩ := deleteUser_row hdelete
    rw [users_eq (write (by grind [Write.table])) hscim,
      users_eq (write (by grind [Write.table])) hmanaged] at hrow
    rw [hrow, hnone]
    exact .removed
  | bootstrapAdminRoleGranted payload =>
    simp [projectUser, projectBootstrapAdminRoleGrant] at h
    obtain ⟨-, user, _, hget, -, hupdate⟩ := h
    obtain ⟨-, rfl⟩ := getUserByID_row hget
    obtain ⟨row, hrow, hrow'⟩ := updateUser_row hupdate
    rw [hrow, hrow']
    exact .kept rfl rfl
  | oidcIdentityLinked payload =>
    simp [projectUser, projectOIDCIdentityLink] at h
    obtain ⟨p, hp, user, _, hget, -, -, _, d₁, hinsert, hupdate⟩ := h
    obtain ⟨-, rfl⟩ := getUserByID_row hget
    obtain ⟨row, hrow, hrow'⟩ := updateUser_row hupdate
    rw [users_eq (write (by grind [Write.table])) hinsert] at hrow
    rw [hrow, hrow']
    exact .kept rfl rfl
  | oidcIdentityUnlinked payload =>
    simp [projectUser, projectOIDCIdentityUnlinked] at h
    obtain ⟨row, _, hinspect, p, hp, _, d₁, hinvalidate, hdelete⟩ := h
    obtain ⟨-, rfl⟩ := inspectSessionUser_row hinspect
    rw [users_eq (affectOne (by grind [Write.table])) hdelete]
    exact invalidateUserSession_changes hinvalidate
  | scimIdentityLinked payload =>
    simp [projectUser, projectSCIMIdentityLinked, advanceSCIMUser] at h
    obtain ⟨p, hp, user, _, hget, -, _, d₁, hinsert, hupdate⟩ := h
    obtain ⟨-, rfl⟩ := getUserByID_row hget
    obtain ⟨row, hrow, hrow'⟩ := updateUser_row hupdate
    rw [users_eq (write (by grind [Write.table])) hinsert] at hrow
    rw [hrow, hrow']
    exact .kept rfl rfl
  | scimIdentityUnlinked payload =>
    simp [projectUser, projectSCIMIdentityUnlinked, advanceSCIMUser] at h
    obtain ⟨p, hp, user, _, hget, -, _, d₁, hdelete, hupdate⟩ := h
    obtain ⟨-, rfl⟩ := getUserByID_row hget
    obtain ⟨row, hrow, hrow'⟩ := updateUser_row hupdate
    rw [users_eq (affectOne (by grind [Write.table])) hdelete] at hrow
    rw [hrow, hrow']
    exact .kept rfl rfl
  | scimUserDeprovisioned payload =>
    simp [projectUser, projectSCIMUserDeprovisioned] at h
    obtain ⟨row, _, hinspect, -, _, hcount, _, d₁, hinvalidate, _, d₂, hgroups, hdelete⟩ := h
    obtain ⟨-, rfl⟩ := inspectSessionUser_row hinspect
    obtain ⟨-, rfl⟩ := Prog.run_query_ok.mp hcount
    obtain ⟨row, hrow, -⟩ := updateUser_row hinvalidate
    obtain ⟨-, -, hnone⟩ := deleteUser_row hdelete
    rw [hrow, hnone]
    exact .removed
  | disabled payload =>
    simp [projectUser, projectUserDisabled] at h
    obtain ⟨row, _, hinspect, -, hinvalidate⟩ := h
    obtain ⟨-, rfl⟩ := inspectSessionUser_row hinspect
    exact invalidateUserSession_changes hinvalidate
  | roleRevoked payload bytes =>
    simp [projectUser, projectRoleRevoked] at h
    obtain ⟨row, _, hinspect, -, hinvalidate⟩ := h
    obtain ⟨-, rfl⟩ := inspectSessionUser_row hinspect
    exact invalidateUserSession_changes hinvalidate

end projectors

/-! ## Accepted events -/

section accepted

variable {x : Externals} {others : OtherDomains O X V} {d d' : Db O X} {e : Ev O}

/-- An accepted event leaves a user's row alone, or is a user event of its stream and
makes one of the changes. -/
theorem accept_changes (h : acceptEvent (registry x others) d e = .ok d') (u : String) :
    d'.tables.users.find u = d.tables.users.find u ∧
        (∀ body, e.body = .user body → e.streamID ≠ u) ∨
      ∃ body, e.body = .user body ∧ e.streamID = u ∧
        UserChange e body (d.tables.users.find u) (d'.tables.users.find u) := by
  have hrun := projectEvent_ok.mp h
  by_cases huser : ∃ body, e.body = .user body
  · obtain ⟨body, hbody⟩ := huser
    rw [project_user x others hbody] at hrun
    by_cases hu : u = e.streamID
    · subst hu
      have hchange := projectUser_changes hrun
      exact .inr ⟨body, hbody, rfl, hchange⟩
    · have hothers := ((projectUser_local x e body).confined hrun).view_eq u hu
      exact .inl ⟨congrArg UserShare.user hothers, fun _ _ h => hu h.symm⟩
  · have hbody : ∀ body, e.body ≠ .user body := fun body hbody => huser ⟨body, hbody⟩
    have hframe := run_project_users hbody hrun u
    exact .inl ⟨congrArg UserShare.user hframe, fun body h => absurd h (hbody body)⟩

end accepted

end PowerManage.Identity
