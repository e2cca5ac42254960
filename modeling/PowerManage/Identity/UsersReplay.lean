import PowerManage.Identity.Effects
import PowerManage.Relational.RowShares
import PowerManage.Store.RebuildLaws

/-!
# Rebuilding the users target

A user's share of the tables is its own row and the identities linked to it.
Every user event is local to its stream's share; what it claims from the other
users is an e-mail, an OIDC issuer and subject, or a SCIM provider and external
ID.
-/

namespace PowerManage.Identity

open Relational Store

variable {O X V : Type} [Applies V X]

/-! ## The share of a user -/

/-- A user's row and the identities linked to it. -/
structure UserShare where
  user : Option UserRow
  oidc : Table (String × String) OIDCIdentityRow
  scim : Table (String × String) SCIMIdentityRow

/-- The share of one user in the tables. -/
def userShare (t : Tables X) (userID : String) : UserShare where
  user := t.users.find userID
  oidc := t.oidcIdentities.ownedBy (·.userID) userID
  scim := t.scimIdentities.ownedBy (·.userID) userID

/-- The unique keys that a share holds. -/
def UserShare.Holds (share : UserShare) : Key → Prop
  | .userEmail email => ∃ row, share.user = some row ∧ row.email = email
  | .oidcIdentity issuer subject => share.oidc.find (issuer, subject) ≠ none
  | .scimIdentity slug externalID => share.scim.find (slug, externalID) ≠ none
  | _ => False

/-- The tables that no user event writes. -/
def besidesUsers (t : Tables X) : Tables X :=
  { t with
    users := ∅, oidcIdentities := ∅, scimIdentities := ∅, managedUserGroupMembers := ∅,
    scimGroupMembers := ∅ }

/-- The tables, split by user. -/
def userShares : Shares String (Tables X) UserShare Key (Db O X) where
  ctx d := besidesUsers d.tables
  view d := userShare d.tables
  holds := UserShare.Holds

/-- The row of a user. -/
def userRow : RowShare (userShares (O := O) (X := X)) (Write V) String UserRow where
  table d := d.tables.users
  write := .users
  stream := id
  get := UserShare.user
  put row share := { share with user := row }
  get_view _ _ := rfl
  view_write d w k _ := by
    simp [userShares, userShare, Write.apply]
  confined d w k hw := by
    refine ⟨rfl, ?_⟩
    intro u' hu'
    simp only [userShares, userShare, UserShare.mk.injEq]
    exact ⟨hw.find_of_ne hu' _, rfl, rfl⟩

/-- The OIDC identities of a user. -/
def oidcRows : OwnedShare (userShares (O := O) (X := X)) (Write V) (String × String)
    OIDCIdentityRow where
  table d := d.tables.oidcIdentities
  write := .oidcIdentities
  owner := OIDCIdentityRow.userID
  get := UserShare.oidc
  put rows share := { share with oidc := rows }
  get_view _ _ := rfl
  put_get _ := rfl
  view_write _ _ _ := rfl
  ctx_write _ _ := rfl

/-- The SCIM identities of a user. -/
def scimRows : OwnedShare (userShares (O := O) (X := X)) (Write V) (String × String)
    SCIMIdentityRow where
  table d := d.tables.scimIdentities
  write := .scimIdentities
  owner := SCIMIdentityRow.userID
  get := UserShare.scim
  put rows share := { share with scim := rows }
  get_view _ _ := rfl
  put_get _ := rfl
  view_write _ _ _ := rfl
  ctx_write _ _ := rfl

/-- The unique e-mail, as the other users' shares see it. -/
theorem uniqueEmail_ok {d : Db O X} {u email : String} :
    uniqueEmail d.tables u email = .ok () ↔ userShares.Meets u (.key (.userEmail email)) d := by
  rw [Shares.meets_key]
  simp only [uniqueEmail, ite_error_eq_ok, and_true, Table.anyRow_iff, userShares,
    UserShare.Holds, userShare]
  grind

/-- A program that stays within the share of one user. -/
abbrev UserLocal {α : Type} (u : String) (q : Demand (Tables X) Key) (p : ProjProg O X V α) :
    Prop :=
  userShares.Local u Eq Eq q p

/-! ## Statements -/

section statements

variable {u : String} {context : StoreError → StoreError} {none : StoreError}

attribute [local simp] userShares userShare Write.apply

theorem insertUser_local (row : UserRow) :
    UserLocal u (.key (.userEmail row.email)) (insertUser u row : ProjProg O X V Unit) := by
  refine (RowShare.respects_eq (T := userRow) (RowWrite.onlyAt_insert u row)).write_local
    (fun old => checkUser u row = .ok () ∧ old = .none) fun d => ?_
  simp only [check_bind_eq_ok, ite_error_eq_ok, Option.not_isSome_iff_eq_none]
  rw [uniqueEmail_ok, and_assoc]
  rfl

theorem getUserByID_local : UserLocal u .none (getUserByID u : ProjProg O X V UserRow) := by
  apply Shares.Local.query
  · exact fun _ _ h => h
  · intro d d₀ row hview hread
    rwa [← (UserShare.mk.inj hview).1]

variable {selects : UserRow → Bool}

theorem updateUser_local {change : UserRow → UserRow} :
    UserLocal u .none (updateUser u selects change context none : ProjProg O X V Unit) := by
  refine (RowShare.respects_eq (T := userRow) (RowWrite.onlyAt_update u change)).affectOne_local
    (fun row => checkUser u (change row) = .ok ()) fun d row ws _ => ?_
  simp only [check_bind_eq_ok, Except.ok.injEq, Shares.meets_none, true_and, eq_comm (a := ws)]
  rfl

variable {email slug : String}

theorem replaceManagedUser_local {e : Ev O} :
    UserLocal e.streamID (.key (.userEmail email))
      (replaceManagedUser e email context none : ProjProg O X V Unit) := by
  refine (RowShare.respects_eq (T := userRow) (RowWrite.onlyAt_update e.streamID
    fun row => { advanceTo e row with email })).affectOne_local
    (fun row => checkUser e.streamID { advanceTo e row with email } = .ok ())
    fun d row ws _ => ?_
  simp only [check_bind_eq_ok, Except.ok.injEq]
  rw [uniqueEmail_ok, eq_comm (a := ws)]
  rfl

theorem deleteUser_local :
    UserLocal u .none (deleteUser u selects context none : ProjProg O X V Unit) := by
  apply Shares.Local.affectOne
  · intro d row ws _ hchange
    cases hchange
    refine ⟨rfl, ?_⟩
    intro u' hu'
    simp [Table.ownedBy_deleteOwned, hu']
  · intro d row ws _ _
    exact Shares.meets_none d
  · intro d d₀ row ws hview _ hrow hchange
    cases hchange
    obtain ⟨huser, -, -⟩ := UserShare.mk.inj hview
    refine ⟨row, _, huser ▸ hrow, rfl, ?_⟩
    simp [Table.ownedBy_deleteOwned]

/-- A linked identity is new among all users'. -/
theorem insertOIDCIdentity_local {issuer subject : String} {row : OIDCIdentityRow}
    (howner : row.userID = u) :
    UserLocal u (.key (.oidcIdentity issuer subject))
      (insertOIDCIdentity issuer subject row : ProjProg O X V Unit) := by
  subst howner
  refine oidcRows.insert_local (fun share => checkOIDCIdentity issuer subject row = .ok () ∧
    ¬ share.oidc.anyRow (fun _ other => other.providerSlug == row.providerSlug) = true ∧
      ¬ share.user.isNone = true) (fun _ => Iff.rfl) fun d => ?_
  simp only [check_bind_eq_ok, ite_error_eq_ok, Option.not_isSome_iff_eq_none,
    Table.anyRow_owned, and_true]
  exact and_left_comm

theorem insertSCIMIdentity_local {externalID : String} {row : SCIMIdentityRow}
    (howner : row.userID = u) :
    UserLocal u (.key (.scimIdentity slug externalID))
      (insertSCIMIdentity slug externalID row : ProjProg O X V Unit) := by
  subst howner
  refine scimRows.insert_local (fun share => checkSCIMIdentity slug externalID row = .ok () ∧
    ¬ share.scim.anyRow (fun key _ => key.1 == slug) = true ∧
      ¬ share.user.isNone = true) (fun _ => Iff.rfl) fun d => ?_
  simp only [check_bind_eq_ok, ite_error_eq_ok, Option.not_isSome_iff_eq_none,
    Table.anyRow_owned, and_true]
  exact and_left_comm

/-- A write that no share sees. -/
theorem write_local {locks : Db O X → List Key} {ws : Db O X → List (Write V)}
    (hctx : ∀ d, besidesUsers (applyAll (ws d) d.tables) = besidesUsers d.tables)
    (hviews : ∀ d u', userShare (applyAll (ws d) d.tables) u' = userShare d.tables u') :
    UserLocal u .none (.write locks (fun _ => .ok ()) ws : ProjProg O X V Unit) := by
  apply Shares.Local.write
  · intro d _
    rw [applyAll_tables]
    exact ⟨hctx d, fun u' _ => hviews d u'⟩
  · intro d _
    exact Shares.meets_none d
  · intro d d₀ hview _ _
    refine ⟨rfl, ?_⟩
    rw [applyAll_tables, applyAll_tables (ws d₀)]
    exact (hviews d u).trans (hview.trans (hviews d₀ u).symm)

theorem countUserIdentityLinks_local :
    UserLocal u .none (countUserIdentityLinks u : ProjProg O X V Nat) := by
  apply Shares.Local.query
  · exact fun _ _ h => h
  · intro d d₀ count hview hread
    obtain ⟨-, hoidc, hscim⟩ := UserShare.mk.inj hview
    rwa [Table.count_owned, Table.count_owned, hoidc, hscim, ← Table.count_owned,
      ← Table.count_owned] at hread

end statements

/-! ## Projectors -/

/-- What a user event claims from the other users. -/
def userDemand : UserBody → Demand (Tables X) Key
  | .created (.decoded payload) => .key (.userEmail payload.email)
  | .managedUpdated (.decoded payload) => .key (.userEmail payload.email)
  | .oidcIdentityLinked (.decoded payload) =>
    .key (.oidcIdentity payload.issuer payload.externalSubject)
  | .scimIdentityLinked (.decoded payload) =>
    .key (.scimIdentity payload.providerSlug payload.externalID)
  | _ => .none

theorem userDemand_admits (body : UserBody) (c : Tables X) : (userDemand body).admits c := by
  cases body with
  | created payload => cases payload <;> trivial
  | managedUpdated payload => cases payload <;> trivial
  | oidcIdentityLinked payload => cases payload <;> trivial
  | scimIdentityLinked payload => cases payload <;> trivial
  | _ => trivial

section projectors

variable {x : Externals} {e : Ev O}

theorem validateOIDCIdentityLink_ok {payload : Payload OIDCIdentityLinkedPayload}
    {p : OIDCIdentityLinkedPayload} (h : validateOIDCIdentityLink x e payload = .ok p) :
    payload = .decoded p := by
  simp only [validateOIDCIdentityLink, bind_eq_ok, Except.ok.injEq] at h
  obtain ⟨_, -, _, -, p', hp, _, -, _, -, _, -, _, -, rfl⟩ := h
  exact decodeEventPayload_ok hp

theorem validateSCIMIdentityLink_ok {payload : Payload SCIMIdentityLinkedPayload}
    {p : SCIMIdentityLinkedPayload} (h : validateSCIMIdentityLink x e payload = .ok p) :
    payload = .decoded p := by
  simp only [validateSCIMIdentityLink, bind_eq_ok, Except.ok.injEq] at h
  obtain ⟨_, -, _, -, p', hp, _, -, rfl⟩ := h
  exact decodeEventPayload_ok hp

variable (x e)

open Shares.Local

theorem inspectSessionUser_local :
    UserLocal e.streamID .none (inspectSessionUser e : ProjProg O X V UserRow) :=
  seq require fun _ => seq require fun _ =>
    seq (mapError getUserByID_local) fun _ => seq require fun _ =>
    ret _

/-- Every user event is local to its stream. -/
theorem projectUser_local (body : UserBody) :
    UserLocal e.streamID (userDemand body) (projectUser x e body : ProjProg O X V Unit) := by
  cases body with
  | created payload =>
    refine ofExcept_bind fun p hp => ?_
    rw [(validateUserCreation_checked hp).2.2.2]
    exact mapError (insertUser_local (newUser e p.email))
  | managedUpdated payload =>
    refine ofExcept_bind fun p hp => ?_
    rw [(validateManagedUserUpdate_checked hp).2.2]
    exact seq_none replaceManagedUser_local fun _ =>
      seq (mapError (oidcRows.update_local fun _ => rfl)) fun _ =>
      mapError (scimRows.update_local fun _ => rfl)
  | managedDeleted payload =>
    exact seq ofExcept fun _ =>
      seq (mapError (write_local (fun _ => rfl) fun _ _ => rfl)) fun _ =>
      seq (mapError (write_local (fun _ => rfl) fun _ _ => rfl)) fun _ => deleteUser_local
  | bootstrapAdminRoleGranted payload =>
    exact seq ofExcept fun _ => seq (mapError getUserByID_local) fun _ =>
      seq require fun _ => updateUser_local
  | oidcIdentityLinked payload =>
    refine ofExcept_bind fun p hp => ?_
    rw [validateOIDCIdentityLink_ok hp]
    exact seq (mapError getUserByID_local) fun _ => seq require fun _ =>
      seq require fun _ => seq_none (mapError (insertOIDCIdentity_local rfl))
      fun _ => updateUser_local
  | oidcIdentityUnlinked payload =>
    exact seq (inspectSessionUser_local e) fun _ => seq ofExcept fun _ =>
      seq updateUser_local fun _ => oidcRows.delete_local (by simp [oidcRows])
  | scimIdentityLinked payload =>
    refine ofExcept_bind fun p hp => ?_
    rw [validateSCIMIdentityLink_ok hp]
    exact seq (mapError getUserByID_local) fun _ => seq require fun _ =>
      seq_none (mapError (insertSCIMIdentity_local rfl)) fun _ => updateUser_local
  | scimIdentityUnlinked payload =>
    exact seq ofExcept fun _ => seq (mapError getUserByID_local) fun _ =>
      seq require fun _ => seq (scimRows.delete_local (by simp [scimRows])) fun _ =>
      updateUser_local
  | scimUserDeprovisioned payload =>
    exact seq (inspectSessionUser_local e) fun _ => seq ofExcept fun _ =>
      seq countUserIdentityLinks_local fun _ => seq require fun _ =>
      seq updateUser_local fun _ =>
      seq (mapError (write_local (fun _ => rfl) fun _ _ => rfl)) fun _ => deleteUser_local
  | disabled payload =>
    exact seq (inspectSessionUser_local e) fun _ => seq ofExcept fun _ =>
      updateUser_local
  | roleRevoked payload bytes =>
    exact seq (inspectSessionUser_local e) fun _ => seq ofExcept fun _ =>
      updateUser_local

end projectors

/-! ## The rebuild model -/

section model

variable (x : Externals) (others : OtherDomains O X V) (built : Event (Body O) → Prop) (rest : X)

/-- A database with one user's share and nothing else. -/
def loneUser (userID : String) (share : UserShare) : Db O X where
  events := []
  tables :=
    { Tables.init rest with
      users := Table.ofRow userID share.user
      oidcIdentities := share.oidc
      scimIdentities := share.scim }

/-- The share of a user that does not exist. -/
def UserShare.absent : UserShare where
  user := none
  oidc := ∅
  scim := ∅

/-- Every linked identity of a share belongs to its user. -/
structure UserShare.WellFormed (userID : String) (share : UserShare) : Prop where
  oidc : share.oidc.ownedBy (·.userID) userID = share.oidc
  scim : share.scim.ownedBy (·.userID) userID = share.scim

theorem userShare_loneUser_of_ne {userID u : String} {share : UserShare}
    (hwf : share.WellFormed userID) (hu : u ≠ userID) :
    userShare (loneUser rest userID share : Db O X).tables u = UserShare.absent := by
  simp only [userShare, loneUser, UserShare.absent, Table.find_ofRow, hu, if_false,
    UserShare.mk.injEq, true_and]
  rw [← hwf.oidc, ← hwf.scim]
  exact ⟨Table.ownedBy_ownedBy_of_ne (Ne.symm hu), Table.ownedBy_ownedBy_of_ne (Ne.symm hu)⟩

theorem UserShare.absent_free (k : Key) : ¬ UserShare.absent.Holds k := by
  cases k <;> simp [UserShare.Holds, UserShare.absent]

variable {e : Ev O}

omit [Applies V X] in
theorem project_user {skipWork : Bool} {body : UserBody} (he : e.body = .user body) :
    (registry x others).project skipWork e = projectUser x e body := by
  change project x others skipWork e = _
  rw [project, he]

theorem isUser_of_onStream (h : e.body.OnStream e.streamType) (htype : e.streamType = "user") :
    ∃ body, e.body = .user body := by
  cases hbody : e.body <;> grind [Body.OnStream, identityStreamTypes]

/-- Only user events write a user's rows. -/
theorem run_project_users {x : Externals} {others : OtherDomains O X V}
    (hbody : ∀ body, e.body ≠ .user body) {skipWork : Bool} {d d' : Db O X}
    (hrun : (project x others skipWork e).run d = .ok ((), d')) (u : String) :
    userShare d'.tables u = userShare d.tables u := by
  have hnames : e.body.tables.Disjoint [.users, .oidcIdentities, .scimIdentities] := by
    cases he : e.body <;> grind [Body.tables, List.Disjoint]
  refine run_project_frame (f := fun t => userShare t u) ?_ hnames hrun
  intro w t hw
  cases w <;> simp_all [Write.table, Write.apply, userShare]

/-- The users target as a rebuild model. -/
def usersModel : RebuildModel (registry x others) built String (Tables X) UserShare Key where
  toShares := userShares
  stream e := e.streamID
  owned e := e.streamType = "user" ∧ ∃ body, e.body = .user body
  project := (registry x others).project true
  demand e :=
    match e.body with
    | .user body => userDemand body
    | _ => .none
  WellFormed := fun u share => share.WellFormed u
  same := Eq
  empty := UserShare.absent
  ideal e share := loneUser rest e.streamID share
  same_empty := rfl
  same_symm _ _ h := h.symm
  same_holds _ _ h _ := by rw [h]
  empty_free := UserShare.absent_free
  wellFormed_view d u := ⟨Table.ownedBy_ownedBy, Table.ownedBy_ownedBy⟩
  wellFormed_empty u := ⟨Table.ownedBy_empty, Table.ownedBy_empty⟩
  ideal_view e share howned hwf := by
    simp [userShares, userShare, loneUser, hwf.oidc, hwf.scim]
  ideal_meets := by
    rintro e share ⟨-, body, hbody⟩ hwf
    simp only [hbody]
    refine ⟨userDemand_admits body _, ?_⟩
    intro k _ u hu
    change ¬ (userShare (loneUser rest e.streamID share).tables u).Holds k
    rw [userShare_loneUser_of_ne rest hwf hu]
    exact UserShare.absent_free k
  project_local := by
    rintro e ⟨-, body, hbody⟩
    simp only [hbody, project_user x others hbody]
    exact projectUser_local x e body
  target := usersTarget
  registered :=
    { named := show trimSpace "users" ≠ "" by decide
      found := rfl
      closed := validateRebuildClosure_ok <|
        show isClosed productionSchema ["users", "oidc_identities", "scim_identities"] = true by
          decide
      types_named := show "" ∉ ["user"] by decide }
  key u := ("user", u)
  key_type u := List.mem_singleton_self "user"
  stream_iff e howned u := streamID_eq_iff howned.1 u
  stream_mono a b ha hb hab := streamID_mono ha.1 hb.1 hab
  owned_of_admissible d e hadm htype := by
    have htype : e.streamType = "user" := List.mem_singleton.mp htype
    exact ⟨htype, isUser_of_onStream (onStream_of_admissible hadm) htype⟩
  project_eq _ _ := rfl
  live_replays := by
    rintro e d d' ⟨-, body, hbody⟩ hrun
    rwa [project_user x others hbody] at hrun ⊢
  foreign := by
    intro d₀ e d d' hadm htype hrun u share hshare
    have hbody : ∀ body, e.body ≠ .user body := by
      intro body hbody
      have hstream := onStream_of_admissible hadm
      rw [hbody] at hstream
      exact htype (List.mem_singleton.mpr hstream)
    exact (run_project_users hbody hrun u).trans hshare
  view_events d es s := by
    rfl
  reset_view d u := by
    change userShare (resetUsers d.tables) u = UserShare.absent
    simp [userShare, resetUsers, UserShare.absent]
  reset_ctx d := by
    rfl

end model

/-! ## Restoring the users target -/

section restores

variable {x : Externals} {others : OtherDomains O X V} {built : Event (Body O) → Prop} {rest : X}
variable {d d' : Db O X}

/-- The tables of the target are made of the users' shares. -/
theorem eq_of_userShare {t t' : Tables X} (h : ∀ u, userShare t u = userShare t' u) :
    t.users = t'.users ∧ t.oidcIdentities = t'.oidcIdentities ∧
      t.scimIdentities = t'.scimIdentities := by
  have hparts := fun u => UserShare.mk.inj (h u)
  exact ⟨Table.ext_find fun u => (hparts u).1, Table.ext_ownedBy _ fun u => (hparts u).2.1,
    Table.ext_ownedBy _ fun u => (hparts u).2.2⟩

/-- The deferred foreign key reads no table of the target. -/
theorem deferredViolation_besidesUsers (t : Tables X) :
    deferredViolation (besidesUsers t) = deferredViolation t :=
  rfl

/-- A rebuild of the users target succeeds and restores its three tables exactly
when no user event claims an e-mail, an OIDC subject or a SCIM external ID that a
user with a smaller ID now holds. -/
theorem users_rebuild_iff (x : Externals) (others : OtherDomains O X V)
    (built : Event (Body O) → Prop) (rest : X) (d : Db O X)
    (hacc : Accepted (registry x others) built (Tables.init rest) d) :
    (∃ d', rebuildAll (registry x others) "users" d = .ok d' ∧
        d'.tables.users = d.tables.users ∧
        d'.tables.oidcIdentities = d.tables.oidcIdentities ∧
        d'.tables.scimIdentities = d.tables.scimIdentities) ↔
      ∀ e ∈ d.events, ∀ body, e.body = .user body →
        ∀ k, (userDemand body : Demand (Tables X) Key).claims k →
          ∀ u, u < e.streamID → ¬ (userShare d.tables u).Holds k := by
  have hempty : ∀ u, userShare (Tables.init rest) u = UserShare.absent := fun u => by
    simp [userShare, Tables.init, UserShare.absent]
  have hreached := RebuildModel.reached (M := usersModel x others built rest) hempty hacc
  have hiff := RebuildModel.rebuild_exact_iff (M := usersModel x others built rest)
    (P := fun d' => d'.tables.users = d.tables.users ∧
      d'.tables.oidcIdentities = d.tables.oidcIdentities ∧
      d'.tables.scimIdentities = d.tables.scimIdentities) hempty hacc ?_
  · refine hiff.trans (forall_congr' fun e => forall_congr' fun he => ?_)
    obtain ⟨d₁, hadm⟩ := hacc.extends.admissible e he
    have hstream := onStream_of_admissible hadm
    constructor
    · intro h body hbody k hk
      rw [hbody] at hstream
      have hclaims := (h (List.mem_singleton.mpr hstream)).2 k
      simp only [usersModel, hbody] at hclaims
      exact hclaims hk
    · intro h htype
      obtain ⟨body, hbody⟩ := isUser_of_onStream hstream (List.mem_singleton.mp htype)
      simp only [usersModel, hbody]
      exact ⟨userDemand_admits body _, h body hbody⟩
  · intro d' hctx hreached'
    constructor
    · apply eq_of_userShare
      intro u
      obtain ⟨share, hshare', hshare⟩ := hreached'.agree hreached u
      exact hshare'.trans hshare.symm
    · have hsame : deferredViolation d'.tables = deferredViolation d.tables := by
        rw [← deferredViolation_besidesUsers, ← deferredViolation_besidesUsers d.tables]
        exact congrArg deferredViolation hctx
      exact hsame.trans (registry_deferred hacc)

end restores

/-- Two users whose e-mail moves from the second to the first. -/
def emailMoved : List (Event (Body Empty)) :=
  [userCreated (sampleID '1') "a@example", userCreated (sampleID '2') "b@example",
    userManagedUpdated (sampleID '2') "c@example", userManagedUpdated (sampleID '1') "b@example"]

/-- Replay visits the first user to its end before the second gives the e-mail up. -/
theorem users_rebuild_refused :
    ∃ d, Accepted (registry asciiExternals noOthers) (fun _ => True) (Tables.init ()) d ∧
      ∀ d', rebuildAll (registry asciiExternals noOthers) "users" d ≠ .ok d' :=
  rebuild_refused emailMoved "users" (fun _ => True) (fun _ _ => trivial) (by decide +kernel)

theorem users_rebuild_iff_emailMoved :
    ∃ d, Accepted (registry asciiExternals noOthers) (fun _ => True) (Tables.init ()) d ∧
      ∃ e ∈ d.events, ∃ body, e.body = .user body ∧
        ∃ k, (userDemand body : Demand (Tables Unit) Key).claims k ∧
          ∃ u, u < e.streamID ∧ (userShare d.tables u).Holds k := by
  obtain ⟨d, hacc, hrefused⟩ := rebuild_refused emailMoved "users" (fun _ => True)
    (fun _ _ => trivial) (by decide +kernel)
  refine ⟨d, hacc, ?_⟩
  by_contra hnone
  push Not at hnone
  obtain ⟨d', hok, -⟩ := (users_rebuild_iff _ _ _ _ d hacc).mpr hnone
  exact hrefused d' hok

end PowerManage.Identity
