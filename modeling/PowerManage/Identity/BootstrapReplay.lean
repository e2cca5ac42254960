import PowerManage.Identity.Effects
import PowerManage.Relational.RowShares
import PowerManage.Store.RebuildLaws

/-!
# Rebuilding the bootstrap logins target

A login's share is its row.  A mint demands that its user exists, in the users
table as it is when the mint is projected, and that no other login has its token
hash.  Login rows are never deleted and keep their hash, so the second demand
always holds in a rebuild; the first fails as soon as the user is gone.

Main results:

- `projectBootstrapLogin_local`: login events are local.
- `bootstrapLogins_rebuild_iff`: when a rebuild restores the logins.
-/

namespace PowerManage.Identity

open Relational Store

variable {O X V : Type} [Applies V X]

/-! ## The share of a login -/

/-- The tables beside the logins. -/
def besidesLogins (t : Tables X) : Tables X :=
  { t with bootstrapLogins := ∅ }

/-- A login holds its token hash. -/
def HoldsLoginKey (row : Option LoginRow) : Key → Prop
  | .loginHash hash => ∃ login, row = some login ∧ login.tokenHash = hash
  | _ => False

/-- The logins, split by login. -/
def loginShares : Shares String (Tables X) (Option LoginRow) Key (Db O X) where
  ctx d := besidesLogins d.tables
  view d := d.tables.bootstrapLogins.find
  holds := HoldsLoginKey

/-- The login's row is its whole share. -/
def loginRow : RowShare (loginShares (O := O) (X := X)) (Write V) String LoginRow where
  table d := d.tables.bootstrapLogins
  write := .bootstrapLogins
  stream := id
  get := id
  put row _ := row
  get_view _ _ := rfl
  view_write _ _ _ _ := RowWrite.find_apply ..
  confined _ _ _ hw := ⟨rfl, fun _ hs => hw.find_of_ne hs _⟩

/-! ## Statements -/

section statements

variable {e : Ev O} {context : StoreError → StoreError} {none : StoreError}

/-- The unique hash of a new login, as the other logins see it. -/
theorem newLogin_ok (d : Db O X) (loginID : String) (hash : Bytes) :
    (d.tables.bootstrapLogins.find loginID = .none ∧
        ¬ (d.tables.bootstrapLogins.anyRow fun _ other => other.tokenHash == hash) = true) ↔
      d.tables.bootstrapLogins.find loginID = .none ∧
        loginShares.Meets loginID (.key (.loginHash hash)) d := by
  refine and_congr_right fun hnew => ?_
  rw [Shares.meets_key, Table.anyRow_iff]
  simp only [loginShares, HoldsLoginKey, beq_iff_eq]
  grind

theorem insertBootstrapLogin_local (loginID : String) (row : LoginRow) :
    loginShares.Local loginID Eq Eq (.key (.loginHash row.tokenHash))
      (insertBootstrapLogin loginID row : ProjProg O X V Unit) := by
  refine (RowShare.respects_eq (T := loginRow) (RowWrite.onlyAt_insert loginID row)).write_local
    (fun old => checkLogin loginID row = .ok () ∧ old = .none) fun d => ?_
  simp only [check_bind_eq_ok, ite_error_eq_ok, Option.not_isSome_iff_eq_none, and_true]
  rw [newLogin_ok, and_assoc]
  rfl

theorem getBootstrapLoginByID_local (loginID : String) :
    loginShares.Local loginID Eq Eq .none
      (getBootstrapLoginByID loginID : ProjProg O X V LoginRow) := by
  refine Shares.Local.query (fun _ _ h => h) ?_
  intro d d₀ row hview hread
  have hfind : d.tables.bootstrapLogins.find loginID = d₀.tables.bootstrapLogins.find loginID :=
    hview
  rwa [hfind] at hread

theorem consumeBootstrapLogin_local :
    loginShares.Local e.streamID Eq Eq .none
      (consumeBootstrapLogin e context none : ProjProg O X V Unit) := by
  refine (RowShare.respects_eq (T := loginRow)
    (RowWrite.onlyAt_update e.streamID (consumedLogin e))).affectOne_local
    (fun row => checkLogin e.streamID (consumedLogin e row) = .ok ()) fun d row ws _ => ?_
  simp only [check_bind_eq_ok, Except.ok.injEq, Shares.meets_none, true_and]
  rw [eq_comm (a := ws)]
  rfl

end statements

/-! ## Projectors -/

/-- What a login event demands: a mint needs its user, and its hash to be new. -/
def loginDemand : BootstrapLoginBody → Demand (Tables X) Key
  | .minted (.decoded payload) =>
    (Demand.context fun t => t.users.find payload.userID ≠ none).and
      (.key (.loginHash payload.tokenHash))
  | _ => .none

theorem validateBootstrapLoginMint_ok {e : Ev O} {payload : Payload BootstrapLoginMintedPayload}
    {p : BootstrapLoginMintedPayload} (h : validateBootstrapLoginMint e payload = .ok p) :
    payload = .decoded p := by
  simp only [validateBootstrapLoginMint, bind_eq_ok, Except.ok.injEq] at h
  obtain ⟨_, -, _, -, p', hp, _, -, _, -, _, -, rfl⟩ := h
  exact decodeEventPayload_ok hp

theorem run_getUserByID_ok {userID : String} {d d' : Db O X} {row : UserRow} :
    (getUserByID userID : ProjProg O X V UserRow).run d = .ok (row, d') ↔
      d.tables.users.find userID = some row ∧ d' = d := by
  rw [getUserByID, Prog.run_query_ok]
  cases d.tables.users.find userID <;> simp

open Shares.Local in
/-- Every login event is local to its stream. -/
theorem projectBootstrapLogin_local (e : Ev O) (body : BootstrapLoginBody) :
    loginShares.Local e.streamID Eq Eq (loginDemand body)
      (projectBootstrapLogin e body : ProjProg O X V Unit) := by
  cases body with
  | minted payload =>
    refine ofExcept_bind fun p hp => ?_
    rw [validateBootstrapLoginMint_ok hp]
    refine probe ?_ ?_ (mapError (insertBootstrapLogin_local e.streamID (mintedLogin e p)))
    · intro d row d' hrun
      have hrow := run_getUserByID_ok.mp (Prog.run_mapError_ok.mp hrun)
      exact ⟨hrow.2, Shares.meets_context.mpr (by simp [loginShares, besidesLogins, hrow.1])⟩
    · intro d hmeets
      obtain ⟨row, hrow⟩ := Option.ne_none_iff_exists'.mp (Shares.meets_context.mp hmeets)
      exact ⟨row, Prog.run_mapError_ok.mpr (run_getUserByID_ok.mpr ⟨hrow, rfl⟩)⟩
  | consumed payload =>
    exact seq ofExcept fun _ =>
      seq (mapError (getBootstrapLoginByID_local e.streamID)) fun _ =>
      seq require fun _ => consumeBootstrapLogin_local

/-! ## The rebuild model -/

section model

variable (x : Externals) (others : OtherDomains O X V) (built : Event (Body O) → Prop) (rest : X)

/-- A user that a mint can name. -/
def anyUser : UserRow where
  email := ""
  sessionVersion := 1
  disabled := false
  projectionVersion := 1
  updatedAt := 0

/-- The users that a login event demands. -/
def demandedUsers : Body O → Table String UserRow
  | .bootstrapLogin (.minted (.decoded payload)) => Table.ofRow payload.userID (some anyUser)
  | _ => ∅

/-- A database with one login and the user that an event demands. -/
def loneLogin (e : Ev O) (row : Option LoginRow) : Db O X where
  events := []
  tables :=
    { Tables.init rest with
      users := demandedUsers e.body
      bootstrapLogins := Table.ofRow e.streamID row }

variable {e : Ev O}
variable {body : BootstrapLoginBody}

theorem loneLogin_meets {row : Option LoginRow} (hbody : e.body = .bootstrapLogin body) :
    loginShares.Meets e.streamID (loginDemand body)
      (loneLogin rest e row) := by
  cases body with
  | consumed payload => exact Shares.meets_none _
  | minted payload =>
    cases payload with
    | undecodable reason => exact Shares.meets_none _
    | trailing => exact Shares.meets_none _
    | decoded payload =>
      refine Shares.meets_and.mpr ⟨Shares.meets_context.mpr ?_, Shares.meets_key.mpr ?_⟩
      · simp [loginShares, besidesLogins, loneLogin, demandedUsers, hbody]
      · intro loginID hne
        simp [loginShares, loneLogin, HoldsLoginKey, hne]

theorem isLogin_iff_onStream (h : e.body.OnStream e.streamType) :
    e.streamType = "bootstrap-login" ↔ ∃ body, e.body = .bootstrapLogin body := by
  cases hbody : e.body <;> grind [Body.OnStream, identityStreamTypes]

/-- Only login events write the logins. -/
theorem run_project_logins {x : Externals} {others : OtherDomains O X V}
    (hbody : ∀ body, e.body ≠ .bootstrapLogin body) {skipWork : Bool} {d d' : Db O X}
    (hrun : (project x others skipWork e).run d = .ok ((), d')) :
    d'.tables.bootstrapLogins = d.tables.bootstrapLogins := by
  have hnames : e.body.tables.Disjoint [.bootstrapLogins] := by
    cases he : e.body <;> grind [Body.tables, List.Disjoint]
  refine run_project_frame (f := fun t => t.bootstrapLogins) ?_ hnames hrun
  intro w t hw
  cases w <;> simp_all [Write.table, Write.apply]

omit [Applies V X] in
theorem project_login {skipWork : Bool} (he : e.body = .bootstrapLogin body) :
    (registry x others).project skipWork e = projectBootstrapLogin e body := by
  change project x others skipWork e = _
  rw [project, he]

omit [Applies V X] in
theorem bootstrapLoginsTarget_registered :
    Registered (registry x others) bootstrapLoginsTarget where
  named := show trimSpace "bootstrap-logins" ≠ "" by decide
  found := rfl
  closed := validateRebuildClosure_ok <|
    show isClosed productionSchema ["bootstrap_logins"] = true by decide +kernel
  types_named := show "" ∉ ["bootstrap-login"] by decide

/-- The bootstrap logins target as a rebuild model. -/
def loginsModel :
    RebuildModel (registry x others) built String (Tables X) (Option LoginRow) Key where
  toShares := loginShares
  stream e := e.streamID
  owned e := e.streamType = "bootstrap-login" ∧ ∃ body, e.body = .bootstrapLogin body
  project := (registry x others).project true
  demand e :=
    match e.body with
    | .bootstrapLogin body => loginDemand body
    | _ => .none
  WellFormed _ _ := True
  same := Eq
  empty := none
  ideal e row := loneLogin rest e row
  same_empty := rfl
  same_symm _ _ h := h.symm
  same_holds _ _ h _ := by rw [h]
  empty_free k := by cases k <;> simp [loginShares, HoldsLoginKey]
  wellFormed_view _ _ := trivial
  wellFormed_empty _ := trivial
  ideal_view e row _ _ := by simp [loginShares, loneLogin]
  ideal_meets := by
    rintro e row ⟨-, body, hbody⟩ -
    simp only [hbody]
    exact loneLogin_meets rest hbody
  project_local := by
    rintro e ⟨-, body, hbody⟩
    simp only [hbody, project_login x others hbody]
    exact projectBootstrapLogin_local e body
  target := bootstrapLoginsTarget
  registered := bootstrapLoginsTarget_registered x others
  key loginID := ("bootstrap-login", loginID)
  key_type loginID := List.mem_singleton_self "bootstrap-login"
  stream_iff e howned loginID := streamID_eq_iff howned.1 loginID
  stream_mono a b ha hb hab := streamID_mono ha.1 hb.1 hab
  owned_of_admissible d e hadm htype := by
    have htype : e.streamType = "bootstrap-login" := List.mem_singleton.mp htype
    exact ⟨htype, (isLogin_iff_onStream (onStream_of_admissible hadm)).mp htype⟩
  project_eq _ _ := rfl
  live_replays := by
    rintro e d d' ⟨-, body, hbody⟩ hrun
    rwa [project_login x others hbody] at hrun ⊢
  foreign := by
    intro d₀ e d d' hadm htype hrun loginID row hrow
    have hbody : ∀ body, e.body ≠ .bootstrapLogin body := by
      intro body hbody
      have hiff := isLogin_iff_onStream (onStream_of_admissible hadm)
      exact htype (List.mem_singleton.mpr (hiff.mpr ⟨body, hbody⟩))
    have hframe := run_project_logins hbody hrun
    exact (congrArg (Table.find · loginID) hframe).trans hrow
  view_events d es s := rfl
  reset_view d s := Table.find_empty s
  reset_ctx d := rfl

end model

/-! ## Restoring the logins -/

section restores

variable {x : Externals} {others : OtherDomains O X V} {built : Event (Body O) → Prop} {rest : X}

/-- Minted logins stay, with the hash of their mint, and no two share a hash. -/
structure LoginsKept (d : Db O X) : Prop where
  minted : ∀ e ∈ d.events, ∀ payload, e.body = .bootstrapLogin (.minted (.decoded payload)) →
    ∃ row, d.tables.bootstrapLogins.find e.streamID = some row ∧
      row.tokenHash = payload.tokenHash
  unique : ∀ i j row row', d.tables.bootstrapLogins.find i = some row →
    d.tables.bootstrapLogins.find j = some row' → row.tokenHash = row'.tokenHash → i = j

variable {e : Ev O} {d d' : Db O X}

theorem run_mint_ok {payload : Payload BootstrapLoginMintedPayload}
    (hrun : (projectBootstrapLoginMint e payload : ProjProg O X V Unit).run d = .ok ((), d')) :
    ∃ p, payload = .decoded p ∧ d.tables.bootstrapLogins.find e.streamID = none ∧
      (∀ i row, d.tables.bootstrapLogins.find i = some row → row.tokenHash ≠ p.tokenHash) ∧
      d'.tables.bootstrapLogins =
        d.tables.bootstrapLogins.put e.streamID (some (mintedLogin e p)) := by
  simp only [projectBootstrapLoginMint, Prog.bind_eq, Prog.run_bind_ok, Prog.run_ofExcept_ok,
    Prog.run_mapError_ok, run_getUserByID_ok] at hrun
  obtain ⟨p, d₁, ⟨hvalid, rfl⟩, _, d₂, ⟨-, rfl⟩, hinsert⟩ := hrun
  obtain ⟨hcheck, rfl⟩ := Prog.run_write_ok.mp hinsert
  simp only [check_bind_eq_ok, ite_error_eq_ok, Option.not_isSome_iff_eq_none, and_true,
    Table.anyRow_iff] at hcheck
  refine ⟨p, validateBootstrapLoginMint_ok hvalid, hcheck.2.1, ?_, Table.insert_eq_put hcheck.2.1 _⟩
  intro i row hrow hhash
  exact hcheck.2.2 ⟨i, row, hrow, by simp [mintedLogin, hhash]⟩

/-- What a consumption does to the logins. -/
theorem run_consume_ok {payload : Payload Unit}
    (hrun : (projectBootstrapLoginConsume e payload : ProjProg O X V Unit).run d = .ok ((), d')) :
    ∃ row, d.tables.bootstrapLogins.find e.streamID = some row ∧ row.consumed = false ∧
      d'.tables.bootstrapLogins =
        d.tables.bootstrapLogins.put e.streamID (some (consumedLogin e row)) := by
  simp only [projectBootstrapLoginConsume, Prog.bind_eq, Prog.run_bind_ok, Prog.run_ofExcept_ok,
    Prog.run_mapError_ok, getBootstrapLoginByID, Prog.run_query_ok, Prog.run_require_ok] at hrun
  obtain ⟨_, d₁, ⟨-, rfl⟩, _, d₂, ⟨-, rfl⟩, _, d₃, ⟨-, rfl⟩, hconsume⟩ := hrun
  obtain ⟨row, ws, hrow, hchange, rfl⟩ := Prog.run_affectOne_ok.mp hconsume
  obtain ⟨hfind, hselected⟩ := Option.filter_eq_some_iff.mp hrow
  simp only [check_bind_eq_ok, Except.ok.injEq] at hchange
  rw [← hchange.2]
  exact ⟨row, hfind, by simp_all, Table.update_eq_put hfind _⟩

/-- What an accepted event does to the logins. -/
theorem accept_logins (haccept : acceptEvent (registry x others) d e = .ok d') :
    (∃ p, e.body = .bootstrapLogin (.minted (.decoded p)) ∧
      d.tables.bootstrapLogins.find e.streamID = none ∧
      (∀ i row, d.tables.bootstrapLogins.find i = some row → row.tokenHash ≠ p.tokenHash) ∧
      d'.tables.bootstrapLogins =
        d.tables.bootstrapLogins.put e.streamID (some (mintedLogin e p))) ∨
    (∃ payload row, e.body = .bootstrapLogin (.consumed payload) ∧
      d.tables.bootstrapLogins.find e.streamID = some row ∧ row.consumed = false ∧
      d'.tables.bootstrapLogins =
        d.tables.bootstrapLogins.put e.streamID (some (consumedLogin e row))) ∨
    (∀ body, e.body ≠ .bootstrapLogin body) ∧
      d'.tables.bootstrapLogins = d.tables.bootstrapLogins := by
  have hrun := projectEvent_ok.mp haccept
  by_cases hbody : ∃ body, e.body = .bootstrapLogin body
  · obtain ⟨body, hbody⟩ := hbody
    rw [project_login x others hbody] at hrun
    cases body with
    | minted payload =>
      obtain ⟨p, rfl, hminted⟩ := run_mint_ok hrun
      exact .inl ⟨p, hbody, hminted⟩
    | consumed payload =>
      obtain ⟨row, hconsumed⟩ := run_consume_ok hrun
      exact .inr (.inl ⟨payload, row, hbody, hconsumed⟩)
  · have hother := not_exists.mp hbody
    have hframe := run_project_logins hother hrun
    exact .inr (.inr ⟨hother, hframe⟩)

/-- A stored login keeps its digest and expiry, and stays consumed. -/
theorem accept_login (haccept : acceptEvent (registry x others) d e = .ok d') {i : String}
    {row : LoginRow} (hrow : d.tables.bootstrapLogins.find i = some row) :
    ∃ row', d'.tables.bootstrapLogins.find i = some row' ∧ row'.tokenHash = row.tokenHash ∧
      row'.expiresAt = row.expiresAt ∧ (row.consumed = true → row'.consumed = true) := by
  rcases accept_logins haccept with ⟨p, -, hnew, -, htable⟩ | ⟨_, old, -, hold, -, htable⟩ |
    ⟨-, htable⟩
  · exact ⟨row, by rw [htable, Table.find_put, if_neg (Table.ne_of_find hnew hrow), hrow], rfl, rfl,
      id⟩
  · rw [htable, Table.find_put]
    split
    · rename_i hi
      rw [hi, hold] at hrow
      cases hrow
      exact ⟨_, rfl, rfl, rfl, fun _ => rfl⟩
    · exact ⟨row, hrow, rfl, rfl, id⟩
  · exact ⟨row, htable ▸ hrow, rfl, rfl, id⟩

theorem LoginsKept.accept (h : LoginsKept d)
    (haccept : acceptEvent (registry x others) d e = .ok d') : LoginsKept d' where
  minted := by
    intro e' he' payload hbody
    rw [acceptEvent_events haccept, List.mem_append, List.mem_singleton] at he'
    rcases he' with he' | rfl
    · obtain ⟨row, hrow, hhash⟩ := h.minted e' he' payload hbody
      obtain ⟨row', hrow', hhash', -⟩ := accept_login haccept hrow
      exact ⟨row', hrow', hhash'.trans hhash⟩
    · rcases accept_logins haccept with ⟨p, hp, -, -, htable⟩ | ⟨_, _, hp, -⟩ | ⟨hother, -⟩
      · cases hp.symm.trans hbody
        exact ⟨mintedLogin e' payload, by rw [htable, Table.find_put, if_pos rfl], rfl⟩
      · cases hp.symm.trans hbody
      · exact absurd hbody (hother _)
  unique := by
    intro i j row row' hrow hrow' hhash
    rcases accept_logins haccept with ⟨p, -, -, hfresh, htable⟩ | ⟨_, old, -, hold, -, htable⟩ |
      ⟨-, htable⟩
    · rw [htable, Table.find_put] at hrow hrow'
      -- The new hash differs from every old one.
      split at hrow <;> split at hrow'
      · rename_i hi hj
        rw [hi, hj]
      · cases hrow
        exact absurd hhash.symm (hfresh j row' hrow')
      · cases hrow'
        exact absurd hhash (hfresh i row hrow)
      · exact h.unique i j row row' hrow hrow' hhash
    · have hsame : ∀ k (new : LoginRow), d'.tables.bootstrapLogins.find k = some new →
          ∃ row, d.tables.bootstrapLogins.find k = some row ∧ new.tokenHash = row.tokenHash := by
        intro k new hnew
        rw [htable, Table.find_put] at hnew
        split at hnew
        · rename_i hk
          cases hnew
          exact ⟨old, hk ▸ hold, rfl⟩
        · exact ⟨new, hnew, rfl⟩
      obtain ⟨first, hfirst, hfirst'⟩ := hsame i row hrow
      obtain ⟨second, hsecond, hsecond'⟩ := hsame j row' hrow'
      exact h.unique i j first second hfirst hsecond (hfirst' ▸ hsecond' ▸ hhash)
    · rw [htable] at hrow hrow'
      exact h.unique i j row row' hrow hrow' hhash

theorem loginsKept {es : List (Ev O)}
    (hext : Extends (registry x others) built ⟨[], Tables.init rest⟩ es d) : LoginsKept d := by
  refine hext.induction (P := LoginsKept) ?_ ?_
  · intro d e d' hd _ haccept
    exact hd.accept haccept
  · exact ⟨by simp, by simp [Tables.init]⟩

/-- The deferred foreign key does not read the logins. -/
theorem deferredViolation_besidesLogins (t : Tables X) :
    deferredViolation (besidesLogins t) = deferredViolation t :=
  rfl

/-- A rebuild of the bootstrap logins target succeeds and restores its table
exactly when every user that a mint ever named still exists. -/
theorem bootstrapLogins_rebuild_iff (x : Externals) (others : OtherDomains O X V)
    (built : Event (Body O) → Prop) (rest : X) (d : Db O X)
    (hacc : Accepted (registry x others) built (Tables.init rest) d) :
    (∃ d', rebuildAll (registry x others) "bootstrap-logins" d = .ok d' ∧
        d'.tables.bootstrapLogins = d.tables.bootstrapLogins) ↔
      ∀ e ∈ d.events, ∀ payload, e.body = .bootstrapLogin (.minted (.decoded payload)) →
        d.tables.users.find payload.userID ≠ none := by
  have hempty : ∀ loginID, (loginsModel x others built rest).view
      (⟨[], Tables.init rest⟩ : Db O X) loginID = none :=
    Table.find_empty (κ := String) (ρ := LoginRow)
  have hreached := RebuildModel.reached (M := loginsModel x others built rest) hempty hacc
  have hiff := RebuildModel.rebuild_exact_iff (M := loginsModel x others built rest)
    (P := fun d' => d'.tables.bootstrapLogins = d.tables.bootstrapLogins) hempty hacc ?_
  · refine hiff.trans (forall_congr' fun e => forall_congr' fun he => ?_)
    obtain ⟨d₁, hadm⟩ := hacc.extends.admissible e he
    have hstream := isLogin_iff_onStream (onStream_of_admissible hadm)
    constructor
    · intro h payload hbody
      have hadmits := (h (List.mem_singleton.mpr (hstream.mpr ⟨_, hbody⟩))).1
      simp only [loginsModel, hbody] at hadmits
      exact hadmits.1
    · intro h htype
      obtain ⟨body, hbody⟩ := hstream.mp (List.mem_singleton.mp htype)
      simp only [loginsModel, hbody]
      cases body with
      | consumed payload => exact ⟨trivial, fun _ hk => hk.elim⟩
      | minted payload =>
        cases payload with
        | undecodable reason => exact ⟨trivial, fun _ hk => hk.elim⟩
        | trailing => exact ⟨trivial, fun _ hk => hk.elim⟩
        | decoded payload =>
          refine ⟨⟨h payload hbody, trivial⟩, ?_⟩
          rintro k (hk | rfl) loginID hlt
          · exact hk.elim
          · have hkept := loginsKept hacc.extends
            rintro ⟨other, hother, hhash⟩
            obtain ⟨row, hrow, hminted⟩ := hkept.minted e he payload hbody
            exact hlt.ne (hkept.unique _ _ other row hother hrow (hhash.trans hminted.symm))
  · intro d' hctx hreached'
    constructor
    · apply Table.ext_find
      intro loginID
      obtain ⟨row, hrow', hrow⟩ := hreached'.agree hreached loginID
      exact hrow'.trans hrow.symm
    · have hsame : deferredViolation d'.tables = deferredViolation d.tables := by
        rw [← deferredViolation_besidesLogins, ← deferredViolation_besidesLogins d.tables]
        exact congrArg deferredViolation hctx
      exact hsame.trans (registry_deferred hacc)

end restores

/-- A login minted for an administrator who is deleted later. -/
def bootstrapUserDeleted : List (Event (Body Empty)) :=
  [userCreated (sampleID '1') "a@example", bootstrapAdminRoleGranted (sampleID '1'),
    eventOn "bootstrap-login" (sampleID '5') (.bootstrapLogin (.minted (.decoded
      { tokenHash := List.replicate 32 7, userID := sampleID '1', expiresAt := 1 }))),
    userCreated (sampleID '2') "b@example", bootstrapAdminRoleGranted (sampleID '2'),
    userManagedDeleted (sampleID '1')]

/-- Replay looks for the deleted user. -/
theorem bootstrapLogins_rebuild_refused :
    ∃ d, Accepted (registry asciiExternals noOthers) (fun _ => True) (Tables.init ()) d ∧
      ∀ d', rebuildAll (registry asciiExternals noOthers) "bootstrap-logins" d ≠ .ok d' :=
  rebuild_refused bootstrapUserDeleted "bootstrap-logins" (fun _ => True) (fun _ _ => trivial)
    (by decide +kernel)

theorem bootstrapLogins_rebuild_iff_userDeleted :
    ∃ d, Accepted (registry asciiExternals noOthers) (fun _ => True) (Tables.init ()) d ∧
      ∃ e ∈ d.events, ∃ payload, e.body = .bootstrapLogin (.minted (.decoded payload)) ∧
        d.tables.users.find payload.userID = none := by
  obtain ⟨d, hacc, hrefused⟩ := rebuild_refused bootstrapUserDeleted "bootstrap-logins"
    (fun _ => True) (fun _ _ => trivial) (by decide +kernel)
  refine ⟨d, hacc, ?_⟩
  by_contra hnone
  push Not at hnone
  obtain ⟨d', hok, -⟩ := (bootstrapLogins_rebuild_iff _ _ _ _ d hacc).mpr hnone
  exact hrefused d' hok

end PowerManage.Identity
