import PowerManage.Identity.Effects
import PowerManage.Relational.RowShares
import PowerManage.Store.RebuildLaws

/-!
# Rebuilding the authorization target

Grants and roles are streams of two types; a rebuild visits all grants before
all roles.  A rebuild does not look up the role or the principal of a grant, so
the only demand between streams is the unique name of a role.

Main results:

- `projectAuthorization_local`: in a rebuild, authorization events
  are local.
- `authorization_rebuild_iff`: when a rebuild restores the target.
-/

namespace PowerManage.Identity

open Relational Store

variable {O X V : Type} [Applies V X]

/-! ## The share of a grant or a role -/

/-- The row of one authorization stream: a grant or a role. -/
structure AuthorizationShare where
  grant : Option GrantRow
  role : Option RoleRow

/-- The streams of the target; those of grants come before those of roles. -/
abbrev AuthorizationStream : Type := Bool ×ₗ String

def grantStream (grantID : String) : AuthorizationStream :=
  toLex (false, grantID)

def roleStream (roleID : String) : AuthorizationStream :=
  toLex (true, roleID)

/-- The share of one stream in the tables. -/
def authorizationShare (t : Tables X) (s : AuthorizationStream) : AuthorizationShare :=
  if (ofLex s).1 then ⟨none, t.authorizationRoles.find (ofLex s).2⟩
  else ⟨t.authorizationGrants.find (ofLex s).2, none⟩

/-- A role holds its name. -/
def AuthorizationShare.Holds (share : AuthorizationShare) : Key → Prop
  | .roleName name => ∃ role, share.role = some role ∧ role.name = name
  | _ => False

/-- The tables beside grants and roles. -/
def besidesAuthorization (t : Tables X) : Tables X :=
  { t with authorizationGrants := ∅, authorizationRoles := ∅ }

/-- The tables, split by authorization stream. -/
def authorizationShares :
    Shares AuthorizationStream (Tables X) AuthorizationShare Key (Db O X) where
  ctx d := besidesAuthorization d.tables
  view d := authorizationShare d.tables
  holds := AuthorizationShare.Holds

@[simp]
theorem authorizationShare_grant (t : Tables X) (grantID : String) :
    authorizationShare t (grantStream grantID) = ⟨t.authorizationGrants.find grantID, none⟩ :=
  rfl

@[simp]
theorem authorizationShare_role (t : Tables X) (roleID : String) :
    authorizationShare t (roleStream roleID) = ⟨none, t.authorizationRoles.find roleID⟩ :=
  rfl

/-- Every stream is a grant's or a role's. -/
theorem authorizationStream_cases (s : AuthorizationStream) :
    (∃ grantID, s = grantStream grantID) ∨ ∃ roleID, s = roleStream roleID := by
  obtain ⟨isRole, id⟩ := s
  cases isRole with
  | false => exact .inl ⟨id, rfl⟩
  | true => exact .inr ⟨id, rfl⟩

/-- The row of a role stream. -/
def roleRow : RowShare (authorizationShares (O := O) (X := X)) (Write V) String RoleRow where
  table d := d.tables.authorizationRoles
  write := .authorizationRoles
  stream := roleStream
  get := AuthorizationShare.role
  put row share := { share with role := row }
  get_view _ _ := rfl
  view_write d w k _ := by
    simp [authorizationShares, Write.apply]
  confined d w k hw := by
    refine ⟨rfl, ?_⟩
    intro s hs
    rcases authorizationStream_cases s with ⟨grantID, rfl⟩ | ⟨roleID, rfl⟩
    · rfl
    · have hne : roleID ≠ k := fun h => hs (by rw [h])
      simp only [authorizationShares, authorizationShare_role, AuthorizationShare.mk.injEq,
        true_and]
      exact hw.find_of_ne hne _

/-- The row of a grant stream. -/
def grantRowShare : RowShare (authorizationShares (O := O) (X := X)) (Write V) String GrantRow where
  table d := d.tables.authorizationGrants
  write := .authorizationGrants
  stream := grantStream
  get := AuthorizationShare.grant
  put row share := { share with grant := row }
  get_view _ _ := rfl
  view_write d w k _ := by
    simp [authorizationShares, Write.apply]
  confined d w k hw := by
    refine ⟨rfl, ?_⟩
    intro s hs
    rcases authorizationStream_cases s with ⟨grantID, rfl⟩ | ⟨roleID, rfl⟩
    · have hne : grantID ≠ k := fun h => hs (by rw [h])
      simp only [authorizationShares, authorizationShare_grant, AuthorizationShare.mk.injEq,
        and_true]
      exact hw.find_of_ne hne _
    · rfl

/-! ## Statements -/

section statements

variable {context : StoreError → StoreError} {none : StoreError}

/-- The unique name of a role, as the other streams see it. -/
theorem uniqueRoleName_ok (d : Db O X) (roleID name : String) :
    uniqueRoleName d.tables roleID name = .ok () ↔
      authorizationShares.Meets (roleStream roleID) (.key (.roleName name))
        d := by
  rw [Shares.meets_key]
  simp only [uniqueRoleName, ite_error_eq_ok, and_true, Table.anyRow_iff]
  constructor
  · intro h s hs
    rcases authorizationStream_cases s with ⟨grantID, rfl⟩ | ⟨otherID, rfl⟩
    · rintro ⟨role, hrole, -⟩
      cases hrole
    · rintro ⟨role, hrole, hname⟩
      have hne : otherID ≠ roleID := fun h => hs (by rw [h])
      exact h ⟨otherID, role, hrole, by simp [hne, hname]⟩
  · rintro h ⟨otherID, role, hrole, hother⟩
    simp at hother
    exact h (roleStream otherID) (fun heq => hother.1 (Prod.mk.inj heq).2)
      ⟨role, hrole, hother.2⟩

theorem insertRole_local (roleID : String) (row : RoleRow) :
    authorizationShares.Local (roleStream roleID) Eq Eq
      (.key (.roleName row.name)) (insertRole roleID row : ProjProg O X V Unit) := by
  refine (RowShare.respects_eq (T := roleRow) (RowWrite.onlyAt_insert roleID row)).write_local
    (fun old => checkRole roleID row = .ok () ∧ old = .none) fun d => ?_
  simp only [check_bind_eq_ok, ite_error_eq_ok, Option.not_isSome_iff_eq_none]
  rw [uniqueRoleName_ok, and_assoc]
  rfl

theorem replaceRole_local (roleID : String) (row : RoleRow) (version : Nat) :
    authorizationShares.Local (roleStream roleID) Eq Eq
      (.key (.roleName row.name))
      (replaceRole roleID row version context none : ProjProg O X V Unit) := by
  refine (RowShare.respects_eq (T := roleRow)
    (RowWrite.onlyAt_update roleID fun _ => row)).affectOne_local
    (fun _ => checkRole roleID row = .ok ()) fun d old ws _ => ?_
  simp only [check_bind_eq_ok, Except.ok.injEq]
  rw [uniqueRoleName_ok, eq_comm (a := ws)]
  rfl

theorem deleteRole_local (roleID : String) (version : Nat) :
    authorizationShares.Local (roleStream roleID) Eq Eq .none
      (deleteRole roleID version context none : ProjProg O X V Unit) := by
  refine (RowShare.respects_eq (T := roleRow) (RowWrite.onlyAt_delete roleID)).affectOne_local
    (fun _ => True) fun d old ws _ => ?_
  simp only [Except.ok.injEq, Shares.meets_none, true_and, eq_comm (a := ws)]
  rfl

theorem insertGrant_local (grantID : String) (row : GrantRow) :
    authorizationShares.Local (grantStream grantID) Eq Eq .none
      (insertGrant grantID row : ProjProg O X V Unit) := by
  refine (RowShare.respects_eq (T := grantRowShare)
    (RowWrite.onlyAt_insert grantID row)).write_local
    (fun old => checkGrant grantID row = .ok () ∧ old = .none) fun d => ?_
  simp only [check_bind_eq_ok, ite_error_eq_ok, Option.not_isSome_iff_eq_none, and_true,
    Shares.meets_none]
  rfl

theorem replaceGrant_local (grantID : String) (row : GrantRow) (version : Nat) :
    authorizationShares.Local (grantStream grantID) Eq Eq .none
      (replaceGrant grantID row version context none : ProjProg O X V Unit) := by
  refine (RowShare.respects_eq (T := grantRowShare)
    (RowWrite.onlyAt_update grantID fun _ => row)).affectOne_local
    (fun _ => checkGrant grantID row = .ok ()) fun d old ws _ => ?_
  simp only [check_bind_eq_ok, Except.ok.injEq, Shares.meets_none, true_and, eq_comm (a := ws)]
  rfl

theorem deleteGrant_local (grantID : String) (version : Nat) :
    authorizationShares.Local (grantStream grantID) Eq Eq .none
      (deleteGrant grantID version context none : ProjProg O X V Unit) := by
  refine (RowShare.respects_eq (T := grantRowShare)
    (RowWrite.onlyAt_delete grantID)).affectOne_local
    (fun _ => True) fun d old ws _ => ?_
  simp only [Except.ok.injEq, Shares.meets_none, true_and, eq_comm (a := ws)]
  rfl

end statements

/-! ## Projectors -/

/-- The stream type that the constructor of an authorization event sets. -/
def AuthorizationBody.streamType : AuthorizationBody → String
  | .roleCreated _ | .roleUpdated _ | .roleDeleted _ => "authorization-role"
  | .grantCreated _ | .grantUpdated _ | .grantDeleted _ => "authorization-grant"

/-- The stream of an authorization event. -/
def AuthorizationBody.stream (streamID : String) : AuthorizationBody → AuthorizationStream
  | .roleCreated _ | .roleUpdated _ | .roleDeleted _ => roleStream streamID
  | .grantCreated _ | .grantUpdated _ | .grantDeleted _ => grantStream streamID

/-- What an authorization event demands of the other streams in a rebuild. -/
def authorizationDemand : AuthorizationBody → Demand (Tables X) Key
  | .roleCreated (.decoded payload) => .key (.roleName payload.name)
  | .roleUpdated (.decoded payload) => .key (.roleName payload.name)
  | _ => .none

theorem authorizationDemand_admits (body : AuthorizationBody) (c : Tables X) :
    (authorizationDemand body).admits c := by
  cases body with
  | roleCreated payload => cases payload <;> trivial
  | roleUpdated payload => cases payload <;> trivial
  | _ => trivial

section projectors

variable {e : Ev O}

variable {payload : Payload AuthorizationRolePayload} {row : RoleRow} {d d' : Db O X}

theorem decodeRole_ok {eventType : String} (h : decodeRole e eventType payload = .ok row) :
    ∃ p, payload = .decoded p ∧ row.name = p.name := by
  simp [decodeRole, bind_eq_ok] at h
  obtain ⟨p, hp, _, -, rfl⟩ := h
  exact ⟨p, decodeEventPayload_ok hp, rfl⟩

open Shares.Local in
/-- In a rebuild every authorization event is local to its stream. -/
theorem projectAuthorization_local (body : AuthorizationBody) :
    authorizationShares.Local (body.stream e.streamID) Eq Eq
      (authorizationDemand body) (projectAuthorization e true body : ProjProg O X V Unit) := by
  cases body with
  | roleCreated payload =>
    refine ofExcept_bind fun row hrow => ?_
    obtain ⟨p, rfl, hname⟩ := decodeRole_ok (check_bind_eq_ok.mp hrow).2
    rw [authorizationDemand, ← hname]
    exact mapError (insertRole_local e.streamID row)
  | roleUpdated payload =>
    refine ofExcept_bind fun row hrow => ?_
    obtain ⟨p, rfl, hname⟩ := decodeRole_ok (check_bind_eq_ok.mp hrow).2
    rw [authorizationDemand, ← hname]
    exact replaceRole_local e.streamID row _
  | roleDeleted payload =>
    exact seq ofExcept fun _ => deleteRole_local e.streamID _
  | grantCreated payload =>
    refine seq ofExcept fun row => seq (ret _) fun _ => ?_
    -- A rebuild reads whether the principal exists and goes on either way.
    simp only [Bool.or_true]
    exact skip (fun _ => ⟨_, Prog.run_query_ok.mpr ⟨rfl, rfl⟩⟩) <|
      seq require fun _ => mapError (insertGrant_local e.streamID row)
  | grantUpdated payload =>
    exact seq ofExcept fun row => seq (ret _) fun _ =>
      seq (ret _) fun _ => replaceGrant_local e.streamID row _
  | grantDeleted payload =>
    exact seq ofExcept fun _ => deleteGrant_local e.streamID _

/-- A lookup of the role that succeeds changes nothing. -/
theorem run_requireRole_ok {skipWork : Bool} {roleID : String}
    (h : (requireRole skipWork roleID : ProjProg O X V Unit).run d = .ok ((), d')) : d' = d := by
  cases skipWork with
  | true => exact (Prog.run_ret_ok.mp h).2
  | false => exact (Prog.run_query_ok.mp (Prog.run_mapError_ok.mp h)).2

theorem run_requirePrincipal_ok {skipWork : Bool} {row : GrantRow}
    (h : (requirePrincipal skipWork row : ProjProg O X V Unit).run d = .ok ((), d')) : d' = d := by
  cases skipWork with
  | true => exact (Prog.run_ret_ok.mp h).2
  | false =>
    obtain ⟨found, d₁, hread, hrequire⟩ := Prog.run_bind_ok.mp h
    rw [(Prog.run_require_ok.mp hrequire).2, (Prog.run_query_ok.mp hread).2]

/-- A rebuild accepts, with the same effect, what a live append accepted. -/
theorem run_projectAuthorization_replays {body : AuthorizationBody}
    (h : (projectAuthorization e false body : ProjProg O X V Unit).run d = .ok ((), d')) :
    (projectAuthorization e true body : ProjProg O X V Unit).run d = .ok ((), d') := by
  cases body with
  | grantCreated payload =>
    obtain ⟨row, d₁, hrow, h⟩ := Prog.run_bind_ok.mp h
    obtain ⟨_, d₂, hrole, h⟩ := Prog.run_bind_ok.mp h
    obtain ⟨found, d₃, hfound, h⟩ := Prog.run_bind_ok.mp h
    obtain ⟨_, d₄, hrequire, hinsert⟩ := Prog.run_bind_ok.mp h
    obtain rfl := run_requireRole_ok hrole
    obtain ⟨-, rfl⟩ := Prog.run_require_ok.mp hrequire
    refine Prog.run_bind_ok.mpr ⟨row, _, hrow, Prog.run_bind_ok.mpr ⟨(), _, rfl, ?_⟩⟩
    refine Prog.run_bind_ok.mpr ⟨found, _, hfound, Prog.run_bind_ok.mpr ⟨(), _, ?_, hinsert⟩⟩
    exact Prog.run_require_ok.mpr ⟨Bool.or_true _, rfl⟩
  | grantUpdated payload =>
    obtain ⟨row, d₁, hrow, h⟩ := Prog.run_bind_ok.mp h
    obtain ⟨_, d₂, hrole, h⟩ := Prog.run_bind_ok.mp h
    obtain ⟨_, d₃, hprincipal, hreplace⟩ := Prog.run_bind_ok.mp h
    obtain rfl := run_requireRole_ok hrole
    obtain rfl := run_requirePrincipal_ok hprincipal
    refine Prog.run_bind_ok.mpr ⟨row, _, hrow, Prog.run_bind_ok.mpr ⟨(), _, rfl, ?_⟩⟩
    exact Prog.run_bind_ok.mpr ⟨(), _, rfl, hreplace⟩
  | roleCreated payload => exact h
  | roleUpdated payload => exact h
  | roleDeleted payload => exact h
  | grantDeleted payload => exact h

end projectors

/-! ## The rebuild model -/

section model

variable (x : Externals) (others : OtherDomains O X V) (rest : X)

/-- Callers put role events on role streams and grant events on grant streams. -/
def OnAuthorizationStreams (event : Event (Body O)) : Prop :=
  ∀ body, event.body = .authorization body → event.streamType = body.streamType

/-- A database with one authorization row. -/
def loneAuthorization (s : AuthorizationStream) (share : AuthorizationShare) : Db O X where
  events := []
  tables :=
    { Tables.init rest with
      authorizationGrants := Table.ofRow (ofLex s).2 share.grant
      authorizationRoles := Table.ofRow (ofLex s).2 share.role }

/-- A share has a row of its stream's kind only. -/
def AuthorizationShare.WellFormed (s : AuthorizationStream) (share : AuthorizationShare) : Prop :=
  if (ofLex s).1 then share.grant = none else share.role = none

theorem authorizationShare_lone {s : AuthorizationStream} {share : AuthorizationShare}
    (hwf : share.WellFormed s) (s' : AuthorizationStream) :
    authorizationShare (loneAuthorization rest s share : Db O X).tables s' =
      if s' = s then share else ⟨none, none⟩ := by
  obtain ⟨grant, role⟩ := share
  rcases authorizationStream_cases s with ⟨id, rfl⟩ | ⟨id, rfl⟩ <;>
    rcases authorizationStream_cases s' with ⟨id', rfl⟩ | ⟨id', rfl⟩ <;>
    simp_all [AuthorizationShare.WellFormed, loneAuthorization, grantStream, roleStream,
      authorizationShare, Tables.init] <;>
    split <;> simp_all

variable {e : Ev O}

theorem isAuthorization_iff_onStream (h : e.body.OnStream e.streamType) :
    e.streamType ∈ ["authorization-grant", "authorization-role"] ↔
      ∃ body, e.body = .authorization body := by
  cases hbody : e.body <;> grind [Body.OnStream, identityStreamTypes]

/-- Only authorization events write grants and roles. -/
theorem run_project_authorization {x : Externals} {others : OtherDomains O X V}
    (hbody : ∀ body, e.body ≠ .authorization body) {skipWork : Bool} {d d' : Db O X}
    (hrun : (project x others skipWork e).run d = .ok ((), d')) :
    d'.tables.authorizationGrants = d.tables.authorizationGrants ∧
      d'.tables.authorizationRoles = d.tables.authorizationRoles := by
  have hnames : e.body.tables.Disjoint [.authorizationGrants, .authorizationRoles] := by
    cases he : e.body <;> grind [Body.tables, List.Disjoint]
  have hframe := run_project_frame (f := fun t => (t.authorizationGrants, t.authorizationRoles))
    ?_ hnames hrun
  · exact Prod.mk.inj hframe
  · intro w t hw
    cases w <;> simp_all [Write.table, Write.apply]

variable {body : AuthorizationBody}

omit [Applies V X] in
theorem project_authorization {skipWork : Bool} (he : e.body = .authorization body) :
    (registry x others).project skipWork e = projectAuthorization e skipWork body := by
  change project x others skipWork e = _
  rw [project, he]

omit [Applies V X] in
/-- An accepted authorization event stands on a stream of its own kind. -/
theorem streamType_of_admissible {x : Externals} {others : OtherDomains O X V} {d : Db O X}
    (hadm : Admissible (registry x others) OnAuthorizationStreams d e)
    (hbody : e.body = .authorization body) : e.streamType = body.streamType := by
  obtain ⟨raw, hbuilt, hprep⟩ := hadm.prepared
  obtain ⟨-, hfold, -⟩ := Registry.prepareEvent_ok hprep
  rw [foldStreamID_streamType hfold]
  exact hbuilt body (by rw [← foldStreamID_body hfold, hbody])

/-- The stream that a share belongs to. -/
def authorizationKey (s : AuthorizationStream) : String × String :=
  (if (ofLex s).1 then "authorization-role" else "authorization-grant", (ofLex s).2)

theorem AuthorizationBody.stream_eq_iff (body : AuthorizationBody) (id : String)
    (s : AuthorizationStream) :
    body.stream id = s ↔ (body.streamType, id) = authorizationKey s := by
  rcases authorizationStream_cases s with ⟨id', rfl⟩ | ⟨id', rfl⟩ <;> cases body <;>
    simp [stream, streamType, authorizationKey, grantStream, roleStream]

/-- Replay visits grants before roles, and each kind by identifier. -/
theorem AuthorizationBody.stream_le {a b : AuthorizationBody} {i j : String}
    (h : a.streamType < b.streamType ∨ a.streamType = b.streamType ∧ i ≤ j) :
    a.stream i ≤ b.stream j := by
  have hswap : ¬ "authorization-role" < "authorization-grant" := by decide
  cases a <;> cases b <;>
    simp_all [streamType, stream, grantStream, roleStream, Prod.Lex.toLex_le_toLex]

/-- The authorization target as a rebuild model. -/
def authorizationModel : RebuildModel (registry x others) OnAuthorizationStreams
    AuthorizationStream (Tables X) AuthorizationShare Key where
  toShares := authorizationShares
  stream e :=
    match e.body with
    | .authorization body => body.stream e.streamID
    | _ => grantStream e.streamID
  owned e := ∃ body, e.body = .authorization body ∧ e.streamType = body.streamType
  project := (registry x others).project true
  demand e :=
    match e.body with
    | .authorization body => authorizationDemand body
    | _ => .none
  WellFormed := fun s share => share.WellFormed s
  same := Eq
  empty := ⟨none, none⟩
  ideal e share :=
    match e.body with
    | .authorization body => loneAuthorization rest (body.stream e.streamID) share
    | _ => loneAuthorization rest (grantStream e.streamID) share
  same_empty := rfl
  same_symm _ _ h := h.symm
  same_holds _ _ h _ := by rw [h]
  empty_free k := by cases k <;> simp [authorizationShares, AuthorizationShare.Holds]
  wellFormed_view d s := by
    rcases authorizationStream_cases s with ⟨id, rfl⟩ | ⟨id, rfl⟩ <;> rfl
  wellFormed_empty s := by
    rcases authorizationStream_cases s with ⟨id, rfl⟩ | ⟨id, rfl⟩ <;> rfl
  ideal_view := by
    rintro e share ⟨body, hbody, -⟩ hwf
    simp only [hbody] at hwf ⊢
    exact (authorizationShare_lone rest hwf _).trans (if_pos rfl)
  ideal_meets := by
    rintro e share ⟨body, hbody, -⟩ hwf
    simp only [hbody] at hwf ⊢
    refine ⟨authorizationDemand_admits body _, ?_⟩
    intro k _ s hs
    have hother := (authorizationShare_lone (O := O) rest hwf s).trans (if_neg hs)
    simp only [authorizationShares, hother]
    cases k <;> simp [AuthorizationShare.Holds]
  project_local := by
    rintro e ⟨body, hbody, -⟩
    simp only [hbody, project_authorization x others hbody]
    exact projectAuthorization_local body
  target := authorizationTarget
  registered :=
    { named := show trimSpace "authorization" ≠ "" by decide
      found := rfl
      closed := validateRebuildClosure_ok <|
        show isClosed productionSchema ["authorization_grants", "authorization_roles"] = true by
          decide
      types_named := show "" ∉ ["authorization-grant", "authorization-role"] by decide }
  key := authorizationKey
  key_type s := by
    rcases authorizationStream_cases s with ⟨id, rfl⟩ | ⟨id, rfl⟩
    · exact List.mem_cons_self
    · exact List.mem_cons_of_mem _ List.mem_cons_self
  stream_iff := by
    rintro e ⟨body, hbody, htype⟩ s
    simp only [hbody]
    rw [AuthorizationBody.stream_eq_iff, ← htype]
    rfl
  stream_mono := by
    rintro a b ⟨body, hbody, htype⟩ ⟨body', hbody', htype'⟩ hab
    simp only [hbody, hbody']
    apply AuthorizationBody.stream_le
    rw [position_lt_iff, htype, htype'] at hab
    rcases hab with hlt | ⟨heq, hlt | ⟨hid, -⟩⟩
    · exact .inl hlt
    · exact .inr ⟨heq, hlt.le⟩
    · exact .inr ⟨heq, hid.le⟩
  owned_of_admissible d e hadm htype := by
    obtain ⟨body, hbody⟩ := (isAuthorization_iff_onStream (onStream_of_admissible hadm)).mp htype
    exact ⟨body, hbody, streamType_of_admissible hadm hbody⟩
  project_eq _ _ := rfl
  live_replays := by
    rintro e d d' ⟨body, hbody, -⟩ hrun
    rw [project_authorization x others hbody] at hrun ⊢
    exact run_projectAuthorization_replays hrun
  foreign := by
    intro d₀ e d d' hadm htype hrun s share hshare
    have hbody : ∀ body, e.body ≠ .authorization body := by
      intro body hbody
      have hiff := isAuthorization_iff_onStream (onStream_of_admissible hadm)
      exact htype (hiff.mpr ⟨body, hbody⟩)
    obtain ⟨hgrants, hroles⟩ := run_project_authorization hbody hrun
    rw [← hshare]
    simp only [authorizationShares, authorizationShare, hgrants, hroles]
  view_events d es s := rfl
  reset_view d s := by
    rcases authorizationStream_cases s with ⟨id, rfl⟩ | ⟨id, rfl⟩ <;>
      simp [authorizationShares, authorizationTarget, resetAuthorization]
  reset_ctx d := rfl

end model

/-! ## Restoring grants and roles -/

/-- A name that no earlier stream holds is one that no role with a smaller ID has. -/
theorem roleName_free_iff (t : Tables X) (id name : String) :
    (∀ s, s < roleStream id → ¬ (authorizationShare t s).Holds (.roleName name)) ↔
      ∀ roleID, roleID < id → ∀ role, t.authorizationRoles.find roleID = some role →
        role.name ≠ name := by
  constructor
  · intro h roleID hlt role hrole hname
    refine h (roleStream roleID) ?_ ⟨role, hrole, hname⟩
    simpa [roleStream, Prod.Lex.toLex_lt_toLex] using hlt
  · rintro h s hs ⟨role, hrole, hname⟩
    rcases authorizationStream_cases s with ⟨grantID, rfl⟩ | ⟨roleID, rfl⟩
    · cases hrole
    · have hlt : roleID < id := by simpa [roleStream, Prod.Lex.toLex_lt_toLex] using hs
      exact h roleID hlt role hrole hname

/-- A rebuild of the authorization target succeeds and restores roles, grants and
the grants resolved for every user exactly when no role event gives a name that a
role with a smaller ID now has. -/
theorem authorization_rebuild_iff (x : Externals) (others : OtherDomains O X V) (rest : X)
    (d : Db O X) (hacc : Accepted (registry x others) OnAuthorizationStreams (Tables.init rest) d) :
    (∃ d', rebuildAll (registry x others) "authorization" d = .ok d' ∧
        d'.tables.authorizationRoles = d.tables.authorizationRoles ∧
        d'.tables.authorizationGrants = d.tables.authorizationGrants ∧
        ∀ userID, listResolvedAuthorizationGrants d'.tables userID =
          listResolvedAuthorizationGrants d.tables userID) ↔
      ∀ e ∈ d.events, ∀ payload,
        (e.body = .authorization (.roleCreated (.decoded payload)) ∨
          e.body = .authorization (.roleUpdated (.decoded payload))) →
        ∀ roleID, roleID < e.streamID → ∀ role,
          d.tables.authorizationRoles.find roleID = some role → role.name ≠ payload.name := by
  have hempty : ∀ s, (authorizationModel x others rest).view
      (⟨[], Tables.init rest⟩ : Db O X) s = ⟨none, none⟩ := by
    intro s
    rcases authorizationStream_cases s with ⟨id, rfl⟩ | ⟨id, rfl⟩ <;>
      simp [authorizationModel, authorizationShares, Tables.init]
  have hreached := RebuildModel.reached (M := authorizationModel x others rest) hempty hacc
  have hiff := RebuildModel.rebuild_exact_iff (M := authorizationModel x others rest)
    (P := fun d' => d'.tables.authorizationRoles = d.tables.authorizationRoles ∧
      d'.tables.authorizationGrants = d.tables.authorizationGrants ∧
      ∀ userID, listResolvedAuthorizationGrants d'.tables userID =
        listResolvedAuthorizationGrants d.tables userID) hempty hacc ?_
  · refine hiff.trans (forall_congr' fun e => forall_congr' fun he => ?_)
    obtain ⟨d₁, hadm⟩ := hacc.extends.admissible e he
    have hstream := isAuthorization_iff_onStream (onStream_of_admissible hadm)
    constructor
    · rintro h payload (hbody | hbody) <;>
      · have hclaims := (h (hstream.mpr ⟨_, hbody⟩)).2
        simp only [authorizationModel, hbody] at hclaims
        exact (roleName_free_iff d.tables e.streamID payload.name).mp (hclaims _ rfl)
    · intro h htype
      obtain ⟨body, hbody⟩ := hstream.mp htype
      simp only [authorizationModel, hbody]
      refine ⟨authorizationDemand_admits body _, ?_⟩
      intro k hk
      have hrole := fun payload => (roleName_free_iff d.tables e.streamID payload.name).mpr ∘
        h payload
      cases body with
      | roleCreated payload =>
        cases payload with
        | decoded payload =>
          cases hk
          exact hrole payload (.inl hbody)
        | undecodable reason => exact hk.elim
        | trailing => exact hk.elim
      | roleUpdated payload =>
        cases payload with
        | decoded payload =>
          cases hk
          exact hrole payload (.inr hbody)
        | undecodable reason => exact hk.elim
        | trailing => exact hk.elim
      | roleDeleted payload => exact hk.elim
      | grantCreated payload => exact hk.elim
      | grantUpdated payload => exact hk.elim
      | grantDeleted payload => exact hk.elim
  · intro d' hctx hreached'
    have hshare : ∀ s, authorizationShare d'.tables s = authorizationShare d.tables s := by
      intro s
      obtain ⟨share, hshare', hshare⟩ := hreached'.agree hreached s
      exact hshare'.trans hshare.symm
    have hroles : d'.tables.authorizationRoles = d.tables.authorizationRoles :=
      Table.ext_find fun roleID => (AuthorizationShare.mk.inj (hshare (roleStream roleID))).2
    have hgrants : d'.tables.authorizationGrants = d.tables.authorizationGrants :=
      Table.ext_find fun grantID => (AuthorizationShare.mk.inj (hshare (grantStream grantID))).1
    have htables : d'.tables = d.tables := by
      have hrest : besidesAuthorization d'.tables = besidesAuthorization d.tables := hctx
      clear hctx hshare hreached'
      cases htables : d'.tables
      simp_all [besidesAuthorization]
    refine ⟨⟨hroles, hgrants, fun _ => by rw [htables]⟩, ?_⟩
    have hsame : deferredViolation d'.tables = deferredViolation d.tables := by
      simp only [deferredViolation, hroles, hgrants]
    exact hsame.trans (registry_deferred hacc)

/-- A role created with a name, renamed, and another role given the name. -/
def roleNameMoved : List (Event (Body Empty)) :=
  [roleCreated (sampleID '1') "auditor", roleCreated (sampleID '2') "operator",
    roleUpdated (sampleID '2') "supporter", roleUpdated (sampleID '1') "operator"]

/-- Replay visits the first role to its end before the second gives the name up. -/
theorem authorization_rebuild_refused :
    ∃ d, Accepted (registry asciiExternals noOthers) OnAuthorizationStreams (Tables.init ()) d ∧
      ∀ d', rebuildAll (registry asciiExternals noOthers) "authorization" d ≠ .ok d' :=
  rebuild_refused roleNameMoved "authorization" OnAuthorizationStreams
    (by simp [roleNameMoved, OnAuthorizationStreams, roleCreated, roleUpdated, eventOn,
      AuthorizationBody.streamType])
    (by decide +kernel)

theorem authorization_rebuild_iff_nameMoved :
    ∃ d, Accepted (registry asciiExternals noOthers) OnAuthorizationStreams (Tables.init ()) d ∧
      ∃ e ∈ d.events, ∃ payload,
        (e.body = .authorization (.roleCreated (.decoded payload)) ∨
          e.body = .authorization (.roleUpdated (.decoded payload))) ∧
        ∃ roleID, roleID < e.streamID ∧ ∃ role,
          d.tables.authorizationRoles.find roleID = some role ∧ role.name = payload.name := by
  obtain ⟨d, hacc, hrefused⟩ := rebuild_refused roleNameMoved "authorization"
    OnAuthorizationStreams
    (by simp [roleNameMoved, OnAuthorizationStreams, roleCreated, roleUpdated, eventOn,
      AuthorizationBody.streamType])
    (by decide)
  refine ⟨d, hacc, ?_⟩
  by_contra hnone
  push Not at hnone
  obtain ⟨d', hok, -⟩ := (authorization_rebuild_iff _ _ _ d hacc).mpr hnone
  exact hrefused d' hok

end PowerManage.Identity
