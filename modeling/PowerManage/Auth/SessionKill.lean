import Mathlib.Data.ENat.Basic
import PowerManage.Auth.Tokens
import PowerManage.Identity.EffectiveAccess
import PowerManage.Identity.UserChanges
import PowerManage.Store.Transactions

/-!
# Killing sessions

Session starts, exchanges and access checks read the user's row on their own,
between transactions of any kind on the identity tables.  A token carries the
session version of the row it was minted from, and is accepted only against a
row with that version.

What a call answers is decided when it reads its user.  Transactions are atomic:
two of them on one user's stream contend for the same version of it.

Main results:

- `sessionEpoch_accept`: no event lowers a user's session version, and
  every killing event raises it or removes the user for good.
- `undecided_opens`: the tokens of an answer speak for the session version
  that the user has when the call reads it.
- `session_kill`: no token of a chain of exchanges that began before a
  killing event is accepted after it.
-/

namespace PowerManage.Auth

open Relational Store
open Identity (Externals Kills OtherDomains UserRow canonicalUserID userByID)
open Service (Action Session Sys)

variable {O X V : Type}

/-- The identity tables and the refresh families. -/
structure World (O X : Type) where
  identity : Identity.Db O X
  families : Db

/-- The world of a freshly migrated database. -/
def World.init (rest : X) : World O X where
  identity := ⟨[], Identity.Tables.init rest⟩
  families := emptyDb

/-! ## Calls -/

section calls

variable [TokenHashing] (x : Externals) (key : SigningKey)

/-- What the service reads of a user. -/
def sessionUser (row : UserRow) : SessionUser where
  sessionVersion := row.sessionVersion
  disabled := row.disabled

/-- One read of `UserByID`. -/
def readUser (subject : String) : Routine (World O X) Empty (Except StoreError SessionUser) :=
  .attempt fun w =>
    (userByID x w.identity.tables subject).map fun found => (sessionUser found.2, w)

/-- Steps on the refresh families. -/
def onFamilies {α : Type} (p : Call α) : Routine (World O X) Empty α :=
  p.zoom World.families fun w families => { w with families }

/-- The inputs of `StartSession`. -/
structure SessionStart where
  subject : String
  now : Int
  familyID : Option String
  minting : Minting
  createdAt : Nat

/-- The tokens that a session start mints for a user. -/
def SessionStart.minted (r : SessionStart) (user : SessionUser) : Option SessionTokens :=
  (mintTokens key r.minting ⟨r.subject, user.sessionVersion⟩).toOption

/-- The session start, once the user has been read. -/
def SessionStart.request (r : SessionStart) (user : Except StoreError SessionUser) :
    StartRequest where
  subject := r.subject
  now := r.now
  user := user
  familyID := r.familyID
  minted := user.toOption.bind (r.minted key)
  createdAt := r.createdAt

/-- `StartSession`. -/
def startSessionCall (r : SessionStart) :
    Routine (World O X) Empty (Except RefreshError SessionTokens) :=
  if !validSubject r.subject || !validTime r.now then pure (.error (.unavailable "")) else do
    let user ← readUser x r.subject
    onFamilies (startSession (r.request key user))

/-- The inputs of `Rotate`. -/
structure Rotation where
  presented : String
  verifiedAt : Int
  now : Int
  elapsed : Nat
  minting : Minting
  createdAt : Nat
  revokedAt : Nat → Nat
  backoffInterrupted : Nat → Bool
  rejectionInterrupted : Bool

/-- The presented token. -/
def Rotation.token (r : Rotation) : String :=
  trimSpace r.presented

/-- What `VerifyRefresh` answers. -/
def Rotation.claims (r : Rotation) : Option Claims :=
  (verify key r.verifiedAt .refresh r.token).toOption

/-- The tokens that an exchange mints for a user. -/
def Rotation.minted (r : Rotation) (subject : String) (user : SessionUser) : Option SessionTokens :=
  (mintTokens key r.minting ⟨subject, user.sessionVersion⟩).toOption

/-- The exchange, once the user has been read. -/
def Rotation.request (r : Rotation) (subject : String) (user : Except StoreError SessionUser) :
    RotateRequest where
  presented := r.presented
  claims := r.claims key
  user := user
  now := r.now
  elapsed := r.elapsed
  minted := user.toOption.bind (r.minted key subject)
  createdAt := r.createdAt
  revokedAt := r.revokedAt
  backoffInterrupted := r.backoffInterrupted
  rejectionInterrupted := r.rejectionInterrupted

/-- `Rotate` once the token has been found; the user is read only when the
token speaks for the family's subject. -/
def rotateKnown (r : Rotation) (state : RefreshFamilyToken) :
    Routine (World O X) Empty (Except RefreshError SessionTokens) :=
  if (r.claims key).any (·.subject == state.family.subject) then do
    let user ← readUser x state.family.subject
    onFamilies (rotateFound (r.request key state.family.subject user) state)
  else
    onFamilies (rotateFound (r.request key state.family.subject (.error .noRows)) state)

/-- `Rotate`. -/
def rotateCall (r : Rotation) : Routine (World O X) Empty (Except RefreshError SessionTokens) := do
  match ← onFamilies (readToken (tokenHash r.token)) with
  | .error e =>
    if e.isNotFound then pure (.error (rejectRefresh (r.request key "" (.error .noRows))))
    else pure (.error (.unavailable "read refresh family"))
  | .ok state => rotateKnown x key r state

/-- The inputs of `AuthenticateAccess`. -/
structure AccessCheck where
  token : String
  now : Int

/-- The errors of an access check. -/
inductive AccessError where
  | unavailable (doing : String)
  | token (e : TokenError)
  deriving DecidableEq, Repr

/-- The decision of `AuthenticateAccess` on a user. -/
def accessDecision (claims : Claims) (user : SessionUser) : Except AccessError Claims :=
  if user.disabled || user.sessionVersion != claims.sessionVersion then .error (.token .invalid)
  else .ok claims

def authenticateAccess (r : AccessCheck) : Routine (World O X) Empty (Except AccessError Claims) :=
  match verify key r.now .access r.token with
  | .error e => pure (.error (.token e))
  | .ok claims => do
      match ← readUser x claims.subject with
      | .error e =>
        if e.isNotFound then pure (.error (.token .invalid))
        else pure (.error (.unavailable "read user session"))
      | .ok user => pure (accessDecision claims user)

/-- A transaction on the identity tables. -/
def commitAppend [Applies V X] (others : OtherDomains O X V)
    (call : AppendCall (Identity.Body O) (Identity.Tables X)) :
    Routine (World O X) Empty (Except StoreError Unit) :=
  .attempt fun w =>
    (transact (Identity.registry x others) call w.identity).map fun d =>
      ((), { w with identity := d })

end calls

/-- The calls whose steps interleave. -/
inductive SessionOp (O X : Type) where
  | startSession (r : SessionStart)
  | rotate (r : Rotation)
  | authenticateAccess (r : AccessCheck)
  | append (call : AppendCall (Identity.Body O) (Identity.Tables X))

/-- What the calls answer. -/
inductive SessionAnswer where
  | tokens (r : Except RefreshError SessionTokens)
  | claims (r : Except AccessError Claims)
  | appended (r : Except StoreError Unit)
  deriving DecidableEq

/-- The token that a call presents. -/
def SessionOp.presented : SessionOp O X → Option String
  | .rotate r => some r.token
  | .authenticateAccess r => some r.token
  | _ => none

/-- The call has let its token pass, or started a session. -/
def SessionAnswer.accepts : SessionAnswer → Bool
  | .tokens r => r.isOk
  | .claims r => r.isOk
  | .appended _ => false

/-- The tokens that an answer hands out. -/
def SessionAnswer.handsOut : SessionAnswer → List String
  | .tokens (.ok pair) => [pair.accessToken, pair.refreshToken]
  | _ => []

/-- Only accepting answers hand out tokens. -/
theorem SessionAnswer.accepts_of_handsOut {a : SessionAnswer} {token : String}
    (h : token ∈ a.handsOut) : a.accepts = true := by
  unfold handsOut at h
  split at h
  · rfl
  · simp at h

/-- The calls of one server; they hold no lock between their steps. -/
def sessionService [TokenHashing] [Applies V X] (x : Externals)
    (others : OtherDomains O X V) (key : SigningKey) :
    Service (World O X) Empty Empty SessionAnswer where
  Op := SessionOp O X
  body
    | .startSession r => (startSessionCall x key r).bind fun a => .ret (.tokens a)
    | .rotate r => (rotateCall x key r).bind fun a => .ret (.tokens a)
    | .authenticateAccess r => (authenticateAccess x key r).bind fun a => .ret (.claims a)
    | .append call => (commitAppend x others call).bind fun a => .ret (.appended a)
  fences _ := []

/-! ## Session versions -/

/-- One past the session version of a user, beyond all versions once the user is gone. -/
def rowEpoch (known : Bool) : Option UserRow → ℕ∞
  | some row => (row.sessionVersion + 1 : Nat)
  | none => if known then ⊤ else 0

/-- Events move a user's session version up, and killing events move it strictly. -/
theorem rowEpoch_change {e : Identity.Ev O} {body : Identity.UserBody}
    {user user' : Option UserRow} {known : Bool}
    (hknown : e.streamVersion = 1 → known = false) (h : Identity.UserChange e body user user') :
    rowEpoch known user ≤ rowEpoch true user' ∧
      (Identity.killsSessions body = true → rowEpoch known user < rowEpoch true user') := by
  cases h with
  | created hversion hbody => simp [rowEpoch, hknown hversion, hbody]
  | kept hsession hbody => simp [rowEpoch, hsession, hbody]
  | invalidated hsession =>
    simp only [rowEpoch, hsession, Nat.cast_le, Nat.cast_lt]
    omega
  | removed => simp [rowEpoch]

/-- How far the sessions of a user have advanced: nowhere before its first event,
and beyond all versions once it is gone. -/
def sessionEpoch (d : Identity.Db O X) (userID : String) : ℕ∞ :=
  rowEpoch (decide (0 < streamLength d.events ("user", userID))) (d.tables.users.find userID)

theorem sessionEpoch_of_find {d : Identity.Db O X} {userID : String} {row : UserRow}
    (h : d.tables.users.find userID = some row) :
    sessionEpoch d userID = (row.sessionVersion + 1 : Nat) := by
  simp [sessionEpoch, rowEpoch, h]

theorem sessionEpoch_of_none {d : Identity.Db O X} {userID : String}
    (h : d.tables.users.find userID = none) :
    sessionEpoch d userID = 0 ∨ sessionEpoch d userID = ⊤ := by
  simp only [sessionEpoch, rowEpoch, h]
  split
  · exact .inr rfl
  · exact .inl rfl

variable [Applies V X] {x : Externals} {others : OtherDomains O X V}
variable {built : Event (Identity.Body O) → Prop} {d d' : Identity.Db O X} {e : Identity.Ev O}

/-- No event lowers a user's session version, and every killing event raises it
or removes the user for good. -/
theorem sessionEpoch_accept (hadm : Admissible (Identity.registry x others) built d e)
    (h : acceptEvent (Identity.registry x others) d e = .ok d') (userID : String) :
    sessionEpoch d userID ≤ sessionEpoch d' userID ∧
      (Kills userID e → sessionEpoch d userID < sessionEpoch d' userID) := by
  have hevents := acceptEvent_events h
  rcases Identity.accept_changes h userID with ⟨hsame, hother⟩ | ⟨body, hbody, rfl, hchange⟩
  · refine ⟨?_, fun ⟨body, hbody, _, hstream⟩ => absurd hstream (hother body hbody)⟩
    have hlength : streamLength d.events ("user", userID) ≤
        streamLength d'.events ("user", userID) := by
      rw [hevents, streamLength_append]
      exact Nat.le_add_right _ _
    rw [sessionEpoch, sessionEpoch, hsame]
    cases d.tables.users.find userID with
    | some row => exact le_refl _
    | none =>
      by_cases hzero : 0 < streamLength d.events ("user", userID)
      · simp [rowEpoch, hzero, Nat.lt_of_lt_of_le hzero hlength]
      · simp [rowEpoch, hzero]
  · have hstream : e.stream = ("user", e.streamID) := by
      have htype := Identity.onStream_of_admissible hadm
      rw [hbody] at htype
      exact Prod.ext htype rfl
    have hlater : 0 < streamLength d'.events ("user", e.streamID) := by
      rw [hevents, streamLength_append, ← hstream]
      simp [streamLength, versionsOf_singleton]
    have hknown : e.streamVersion = 1 →
        decide (0 < streamLength d.events ("user", e.streamID)) = false := by
      intro hversion
      have hnext := hadm.next
      rw [hstream, hversion] at hnext
      simp only [decide_eq_false_iff_not]
      omega
    obtain ⟨hmono, hkills⟩ := rowEpoch_change hknown hchange
    have hafter : sessionEpoch d' e.streamID = rowEpoch true (d'.tables.users.find e.streamID) := by
      rw [sessionEpoch, decide_eq_true hlater]
    rw [hafter]
    refine ⟨hmono, ?_⟩
    rintro ⟨body', hbody', hkill, -⟩
    rw [hbody, Identity.Body.user.injEq] at hbody'
    exact hkills (hbody' ▸ hkill)

/-! ## What answers say about their tokens -/

section steps

variable [TokenHashing] (x others) (key : SigningKey)

/-- A step leaves the identity tables alone, or is a transaction on them. -/
def WorldStep (w w' : World O X) : Prop :=
  w'.identity = w.identity ∨
    ∃ call : AppendCall (Identity.Body O) (Identity.Tables X),
      transact (Identity.registry x others) call w.identity = .ok w'.identity

/-- Every step of every call is one of the changes. -/
theorem sessionService_within (op : SessionOp O X) :
    ((sessionService x others key).body op).Within (WorldStep x others) := by
  have hread : ∀ subject, (readUser x subject : Routine (World O X) Empty _).Within
      (WorldStep x others) := by
    intro subject
    apply Routine.Within.attempt (fun w => .inl rfl)
    intro w user w' hfound
    obtain ⟨found, -, hresult⟩ := map_eq_ok.mp hfound
    cases hresult
    exact .inl rfl
  have hfamilies : ∀ {α : Type} (p : Call α), (onFamilies p : Routine (World O X) Empty α).Within
      (WorldStep x others) :=
    fun p => Routine.Within.zoom (fun _ _ => .inl rfl) p
  cases op with
  | startSession r =>
    refine Routine.Within.bind ?_ fun _ => trivial
    unfold startSessionCall
    split
    · trivial
    · exact (hread _).bind fun user => hfamilies _
  | rotate r =>
    refine Routine.Within.bind ((hfamilies _).bind fun found => ?_) fun _ => trivial
    cases found with
    | error e =>
      dsimp only
      split <;> trivial
    | ok state =>
      dsimp only [rotateKnown]
      split
      · exact (hread _).bind fun user => hfamilies _
      · exact hfamilies _
  | authenticateAccess r =>
    refine Routine.Within.bind ?_ fun _ => trivial
    unfold authenticateAccess
    split
    · trivial
    · refine (hread _).bind fun user => ?_
      cases user with
      | error e =>
        dsimp only
        split <;> trivial
      | ok user => trivial
  | append call =>
    refine Routine.Within.bind (.attempt (fun w => .inl rfl) ?_) fun _ => trivial
    intro w _ w' hrun
    obtain ⟨d, hcommit, hresult⟩ := map_eq_ok.mp hrun
    cases hresult
    exact .inr ⟨call, hcommit⟩

/-- What is left of a call before it reads its user: all of it, or of an exchange what
follows the look-up of its token. -/
def Undecided (op : SessionOp O X) (rest : Routine (World O X) Empty SessionAnswer) : Prop :=
  rest = (sessionService x others key).body op ∨
    ∃ r state, op = .rotate r ∧
      rest = (rotateKnown x key r state).bind fun a => .ret (.tokens a)

/-- The call has not read its user yet. -/
def Unread : Session (sessionService x others key) → Prop
  | .idle => True
  | .running op rest => Undecided x others key op rest
  | _ => False

end steps

section tokens

variable {key : SigningKey}

/-- The tokens of a user at a session version. -/
def Speaks (key : SigningKey) (userID subject : String) (version : Nat) (token : String) : Prop :=
  key.carried token = some ⟨subject, version⟩ ∧ canonicalUserID subject = .ok userID

/-- A token speaks for one user at one version. -/
theorem Speaks.unique {userID userID' subject subject' : String} {version version' : Nat}
    {token : String} (h : Speaks key userID subject version token)
    (h' : Speaks key userID' subject' version' token) : userID = userID' ∧ version = version' := by
  have hcarried := h.1.symm.trans h'.1
  rw [Option.some.injEq, Claims.mk.injEq] at hcarried
  have hcanonical := h'.2
  rw [← hcarried.1, h.2] at hcanonical
  exact ⟨Except.ok.inj hcanonical, Int.ofNat.inj hcarried.2⟩

/-- The tokens of an accepting answer, presented and handed out, speak for one user at one
session version, within bounds. -/
def Justified (key : SigningKey) (bounds : String → ℕ∞ → Prop) (op : SessionOp O X)
    (a : SessionAnswer) : Prop :=
  a.accepts = true → ∃ (userID subject : String) (version : Nat),
    bounds userID (version + 1 : Nat) ∧
      ∀ token ∈ op.presented.toList ++ a.handsOut, Speaks key userID subject version token

theorem Justified.mono {bounds bounds' : String → ℕ∞ → Prop} {op : SessionOp O X}
    {a : SessionAnswer} (hbounds : ∀ userID n, bounds userID n → bounds' userID n)
    (h : Justified key bounds op a) : Justified key bounds' op a := by
  intro haccepts
  obtain ⟨userID, subject, version, hbound, hspeaks⟩ := h haccepts
  exact ⟨userID, subject, version, hbounds _ _ hbound, hspeaks⟩

/-- The row that a user ID or its canonical form finds. -/
theorem userByID_ok {t : Identity.Tables X} {subject userID : String} {row : UserRow}
    (h : userByID x t subject = .ok (userID, row)) :
    canonicalUserID subject = .ok userID ∧ t.users.find userID = some row := by
  simp only [userByID, bind_eq_ok] at h
  obtain ⟨canonical, hcanonical, h⟩ := h
  cases hfind : t.users.find canonical with
  | none => simp [hfind] at h
  | some found =>
    simp only [hfind, map_eq_ok, Prod.mk.injEq] at h
    obtain ⟨row', hvalid, rfl, rfl⟩ := h
    have hrow : row' = found := by
      simp only [Identity.validateUserProjection, bind_eq_ok, Except.ok.injEq] at hvalid
      obtain ⟨_, -, _, -, _, -, rfl⟩ := hvalid
      rfl
    exact ⟨hcanonical, hrow ▸ hfind⟩

/-- A user as one state shows it: its row, and how far its sessions have advanced. -/
def SeenIn (d : Identity.Db O X) (subject : String) (user : SessionUser) : Prop :=
  ∃ userID version, canonicalUserID subject = .ok userID ∧
    user.sessionVersion = (version : Nat) ∧ sessionEpoch d userID = (version + 1 : Nat)

/-- A read of the user is followed by what the call does with its answer. -/
theorem readUser_opens {α : Type} {subject : String}
    {f : Except StoreError SessionUser → Routine (World O X) Empty α}
    {R : Routine (World O X) Empty α → Prop} {Q : World O X → α → Prop}
    (herror : ∀ w e, (f (.error e)).Returns (Q w))
    (hok : ∀ w user, SeenIn w.identity subject user → (f (.ok user)).Returns (Q w)) :
    ((readUser x subject).bind f).Opens R Q := by
  intro w
  refine .inr ?_
  cases hfound : userByID x w.identity.tables subject with
  | error e => simpa [hfound, Except.map, Routine.bind] using herror w e
  | ok found =>
    obtain ⟨hcanonical, hfind⟩ := userByID_ok hfound
    simpa [hfound, Except.map, Routine.bind] using
      hok w (sessionUser found.2) ⟨found.1, found.2.sessionVersion, hcanonical, rfl,
        sessionEpoch_of_find hfind⟩

variable {α : Type}

/-- A refusal hands out nothing. -/
theorem returns_error {ε : Type} {e : ε} {Q : α → Prop} :
    (pure (.error e) : Call (Except ε α)).Returns fun a => ∀ tokens, a = .ok tokens → Q tokens := by
  intro tokens h
  cases h

/-- What was minted for a user speaks for the user's current version. -/
theorem SeenIn.minted {d : Identity.Db O X} {subject : String} {user : SessionUser}
    {m : Minting} {tokens : SessionTokens} (h : SeenIn d subject user)
    (hminted : (mintTokens key m ⟨subject, user.sessionVersion⟩).toOption = some tokens) :
    ∃ (userID : String) (version : Nat), ((version + 1 : Nat) : ℕ∞) = sessionEpoch d userID ∧
      user.sessionVersion = version ∧ canonicalUserID subject = .ok userID ∧
      Speaks key userID subject version tokens.accessToken ∧
      Speaks key userID subject version tokens.refreshToken := by
  obtain ⟨userID, version, hcanonical, hversion, hepoch⟩ := h
  cases hmint : mintTokens key m ⟨subject, user.sessionVersion⟩ with
  | error e => simp [hmint, Except.toOption] at hminted
  | ok minted =>
    simp only [hmint, Except.toOption, Option.some.injEq] at hminted
    subst hminted
    obtain ⟨haccess, hrefresh⟩ := mintTokens_carried hmint
    rw [hversion] at haccess hrefresh
    exact ⟨userID, version, hepoch.symm, hversion, hcanonical, ⟨haccess, hcanonical⟩,
      ⟨hrefresh, hcanonical⟩⟩

/-- Answers of tokens that are handed out for good reasons are justified. -/
theorem justified_tokens {p : Call (Except RefreshError SessionTokens)}
    {bounds : String → ℕ∞ → Prop} {op : SessionOp O X} {Q : SessionTokens → Prop}
    (hp : p.Returns fun a => ∀ pair, a = .ok pair → Q pair)
    (hQ : ∀ pair, Q pair → Justified key bounds op (.tokens (.ok pair))) :
    ((onFamilies p : Routine (World O X) Empty _).bind fun a => .ret (.tokens a)).Returns
      (Justified key bounds op) := by
  refine Routine.Returns.bind (Routine.Returns.zoom hp) fun a ha => ?_
  cases a with
  | error e => exact fun h => by cases h
  | ok pair => exact hQ pair (ha pair rfl)

variable [TokenHashing]

/-- A session start answers the tokens that it was given, for the user that it was given. -/
theorem startSession_returns (r : StartRequest) : (startSession r).Returns fun a =>
    ∀ tokens, a = .ok tokens → r.minted = some tokens ∧ ∃ user, r.user = .ok user := by
  unfold startSession
  split
  · exact returns_error
  split
  · split <;> exact returns_error
  rename_i user huser
  split
  · exact returns_error
  split
  · exact returns_error
  · exact returns_error
  rename_i tokens _ hminted
  split
  · exact returns_error
  refine Routine.Returns.bind (.top _) fun result _ => ?_
  cases result with
  | error e => exact returns_error
  | ok u =>
    intro answered hanswered
    cases hanswered
    exact ⟨hminted, user, huser⟩

/-- An exchange answers the tokens that it was given, if it permits. -/
theorem rotateFound_returns (r : RotateRequest) (state : RefreshFamilyToken) :
    (rotateFound r state).Returns fun a => ∀ tokens, a = .ok tokens →
      r.minted = some tokens ∧ ∃ user, permits r state = some user := by
  have hreplayed : (rejectReplayed r).Returns fun a => ∀ tokens, a = .ok tokens →
      r.minted = some tokens ∧ ∃ user, permits r state = some user := by
    refine Routine.Returns.bind (.top _) fun result _ => ?_
    cases result <;> exact returns_error
  unfold rotateFound
  split
  · exact returns_error
  split
  · split
    · exact hreplayed
    · exact returns_error
  rename_i user hpermits
  split
  · exact returns_error
  rename_i tokens hminted
  split
  · exact returns_error
  refine Routine.Returns.bind (.top _) fun result _ => ?_
  cases result with
  | error e =>
    dsimp only
    split
    · exact hreplayed
    · exact returns_error
  | ok u =>
    intro answered hanswered
    cases hanswered
    exact ⟨hminted, user, hpermits⟩

/-- An exchange is permitted only for a token that speaks for the user's current version. -/
theorem permits_speaks {r : Rotation} {state : RefreshFamilyToken} {user user' : SessionUser}
    (h : permits (r.request key state.family.subject (.ok user)) state = some user') :
    key.carried r.token = some ⟨state.family.subject, user.sessionVersion⟩ := by
  simp only [permits, Rotation.request] at h
  cases hclaims : r.claims key with
  | none => simp [hclaims] at h
  | some claims =>
    simp only [hclaims, Option.ite_none_right_eq_some, Bool.and_eq_true, beq_iff_eq] at h
    obtain ⟨⟨⟨⟨⟨hsubject, hversion⟩, -⟩, -⟩, -⟩, -⟩ := h
    have hverify : verify key r.verifiedAt .refresh r.token = .ok claims := by
      unfold Rotation.claims at hclaims
      cases hresult : verify key r.verifiedAt .refresh r.token with
      | error e => simp [hresult, Except.toOption] at hclaims
      | ok c =>
        rw [hresult] at hclaims
        exact congrArg Except.ok (Option.some.inj hclaims)
    rw [verify_ok hverify, ← hsubject, ← hversion]

/-- The session version that a user has in a world. -/
def Current (w : World O X) (userID : String) (n : ℕ∞) : Prop :=
  n = sessionEpoch w.identity userID

-- The calls are sequenced without looking into their checks.
attribute [local irreducible] Rotation.claims Rotation.request rotateFound startSession

/-- The step at which an exchange reads its user decides what it answers. -/
theorem rotateKnown_opens {r : Rotation} {state : RefreshFamilyToken}
    {R : Routine (World O X) Empty SessionAnswer → Prop} :
    ((rotateKnown x key r state : Routine (World O X) Empty _).bind fun a =>
      .ret (.tokens a)).Opens R fun w => Justified key (Current w) (.rotate r : SessionOp O X) := by
  have hnobody : ∀ (w : World O X) e, ((onFamilies (rotateFound
      (r.request key state.family.subject (.error e)) state) : Routine (World O X) Empty _).bind
      fun a => .ret (.tokens a)).Returns
        (Justified key (Current w) (.rotate r : SessionOp O X)) := by
    intro w e
    refine justified_tokens (rotateFound_returns _ _) ?_
    rintro pair ⟨-, user, hpermits⟩
    simp [permits, Rotation.request] at hpermits
  unfold rotateKnown
  split
  · rw [Routine.bind_eq, Routine.bind_assoc]
    refine readUser_opens hnobody fun w user hseen => ?_
    refine justified_tokens (rotateFound_returns _ _) ?_
    rintro pair ⟨hminted, user', hpermits⟩ -
    have hpresented := permits_speaks hpermits
    unfold Rotation.request at hminted
    obtain ⟨userID, version, hepoch, hversion, hcanonical, haccess, hrefresh⟩ :=
      hseen.minted hminted
    rw [hversion] at hpresented
    refine ⟨userID, state.family.subject, version, hepoch, ?_⟩
    simpa [SessionAnswer.handsOut, SessionOp.presented] using
      ⟨⟨hpresented, hcanonical⟩, haccess, hrefresh⟩
  · exact Routine.Returns.opens fun w => hnobody w .noRows

/-- The step at which a call reads its user decides what it answers. -/
theorem undecided_opens {op : SessionOp O X} {rest : Routine (World O X) Empty SessionAnswer}
    (h : Undecided x others key op rest) :
    rest.Opens (Undecided x others key op) fun w => Justified key (Current w) op := by
  rcases h with rfl | ⟨r, state, rfl, rfl⟩
  · cases op with
    | startSession r =>
      have hrefused : ∀ (w : World O X) e, ((onFamilies (startSession (r.request key (.error e))) :
          Routine (World O X) Empty _).bind fun a => .ret (.tokens a)).Returns
            (Justified key (Current w) (.startSession r : SessionOp O X)) := by
        intro w e
        refine justified_tokens (startSession_returns _) ?_
        rintro pair ⟨-, user, huser⟩
        cases huser
      simp only [sessionService, startSessionCall]
      split
      · exact fun w h => by cases h
      · rw [Routine.bind_eq, Routine.bind_assoc]
        refine readUser_opens hrefused fun w user hseen => ?_
        refine justified_tokens (startSession_returns _) ?_
        rintro pair ⟨hminted, -⟩ -
        obtain ⟨userID, version, hepoch, -, -, haccess, hrefresh⟩ := hseen.minted hminted
        refine ⟨userID, r.subject, version, hepoch, ?_⟩
        simpa [SessionAnswer.handsOut, SessionOp.presented] using ⟨haccess, hrefresh⟩
    | rotate r =>
      intro w
      cases hfound : refreshFamilyToken (tokenHash r.token) w.families with
      | error e =>
        refine .inr ?_
        simp only [hfound, Except.map, Routine.zoom, Routine.bind]
        split <;> exact fun h => by cases h
      | ok state =>
        refine .inl (.inr ⟨r, state, rfl, ?_⟩)
        simp only [hfound, Except.map, Routine.zoom, Routine.bind]
    | authenticateAccess r =>
      simp only [sessionService, authenticateAccess]
      split
      · exact fun w h => by cases h
      · rename_i claims hverify
        rw [Routine.bind_eq, Routine.bind_assoc]
        refine readUser_opens (fun w e => ?_) fun w user hseen => ?_
        · dsimp only
          split <;> exact fun h => by cases h
        · intro haccepts
          obtain ⟨userID, version, hcanonical, hversion, hepoch⟩ := hseen
          refine ⟨userID, claims.subject, version, hepoch.symm, ?_⟩
          have hsame : user.sessionVersion = claims.sessionVersion := by
            by_contra hne
            simp [SessionAnswer.accepts, accessDecision, hne, Except.isOk, Except.toBool]
              at haccepts
          have hcarried := verify_ok hverify
          rw [show claims = ⟨claims.subject, version⟩ by rw [← hversion, hsame]] at hcarried
          simpa [SessionOp.presented, SessionAnswer.handsOut] using ⟨hcarried, hcanonical⟩
    | append call =>
      refine Routine.Returns.opens fun w => Routine.Returns.bind (.top _) fun a _ => ?_
      exact fun h => by cases h
  · exact rotateKnown_opens

end tokens

/-! ## Runs -/

section runs

/-- Between two databases of a run sessions only advance, past every killing event. -/
structure Advances (d d' : Identity.Db O X) : Prop where
  contiguous : Contiguous d'.events
  events : ∃ es, d'.events = d.events ++ es ∧ ∀ userID,
    sessionEpoch d userID ≤ sessionEpoch d' userID ∧
      ∀ e ∈ es, Kills userID e →
        sessionEpoch d userID < sessionEpoch d' userID ∨ sessionEpoch d' userID = ⊤

theorem Advances.refl (h : Contiguous d.events) : Advances d d :=
  ⟨h, [], by simp, fun _ => ⟨le_refl _, by simp⟩⟩

theorem Advances.trans {d'' : Identity.Db O X} (h : Advances d d') (h' : Advances d' d'') :
    Advances d d'' := by
  obtain ⟨-, es, hevents, hepoch⟩ := h
  obtain ⟨hcont, es', hevents', hepoch'⟩ := h'
  refine ⟨hcont, es ++ es', by rw [hevents', hevents, List.append_assoc], ?_⟩
  intro userID
  obtain ⟨hle, hkills⟩ := hepoch userID
  obtain ⟨hle', hkills'⟩ := hepoch' userID
  refine ⟨hle.trans hle', ?_⟩
  intro e he hkill
  rcases List.mem_append.mp he with he | he
  · rcases hkills e he hkill with hlt | htop
    · exact .inl (hlt.trans_le hle')
    · rw [htop, top_le_iff] at hle'
      exact .inr hle'
  · rcases hkills' e he hkill with hlt | htop
    · exact .inl (hle.trans_lt hlt)
    · exact .inr htop

/-- The events of a transaction advance sessions. -/
theorem advances_extend {es : List (Identity.Ev O)} (hcont : Contiguous d.events)
    (hext : Extends (Identity.registry x others) built d es d') : Advances d d' := by
  induction hext with
  | nil d => exact .refl hcont
  | @cons d d₁ d' e es hadm haccept _ ih =>
    have hevents := acceptEvent_events haccept
    have hcont₁ : Contiguous d₁.events := by
      rw [hevents]
      exact hadm.contiguous hcont
    have hfirst : Advances d d₁ := by
      refine ⟨hcont₁, [e], hevents, fun userID => ?_⟩
      obtain ⟨hle, hkills⟩ := sessionEpoch_accept hadm haccept userID
      refine ⟨hle, fun e' he' hkill => .inl (hkills ?_)⟩
      exact List.mem_singleton.mp he' ▸ hkill
    exact hfirst.trans (ih hcont₁)

variable {w w' : World O X}

/-- A step of a call advances sessions. -/
theorem WorldStep.advances (h : WorldStep x others w w')
    (hcont : Contiguous w.identity.events) : Advances w.identity w'.identity := by
  rcases h with hsame | ⟨call, hcommit⟩
  · rw [hsame]
    exact .refl hcont
  · obtain ⟨es, hext⟩ := transact_extends hcont hcommit
    exact advances_extend hcont hext

variable [TokenHashing] {key : SigningKey}

/-- What holds in every state of a run: no answer speaks for a session version that its user
has not reached. -/
structure Reached (s : Sys (sessionService x others key)) : Prop where
  contiguous : Contiguous s.state.identity.events
  within : ∀ i op rest, s.sessions i = .running op rest → rest.Within (WorldStep x others)
  bounded : ∀ i, (s.sessions i).Answers (Undecided x others key)
    (Justified key fun userID n => n ≤ sessionEpoch s.state.identity userID)

variable {s s' : Sys (sessionService x others key)}
variable {as : List (Action (sessionService x others key))}

/-- The answers of a session stay within bounds that hold of every later read. -/
theorem Reached.answers {B : World O X → String → ℕ∞ → Prop} {i : Nat}
    {undecided : SessionOp O X → Routine (World O X) Empty SessionAnswer → Prop}
    (h : Reached s) (hrun : Service.run s as = some s')
    (hkeep : ∀ w w' userID n, Advances w.identity w'.identity → B w userID n →
      B w' userID n)
    (hopens : ∀ op rest, undecided op rest → rest.Opens (undecided op) fun w a =>
      Advances s.state.identity w.identity → Justified key (B w) op a)
    (hstart : i < s.opened ∨ ∀ op, undecided op ((sessionService x others key).body op))
    (hi : (s.sessions i).Answers undecided (Justified key (B s.state))) :
    (s'.sessions i).Answers undecided (Justified key (B s'.state)) :=
  Service.run_answers (I := fun w => Advances s.state.identity w.identity)
    (P := fun w => Justified key (B w)) (sessionService_within x others key)
    (fun _ _ hw hstep => hw.trans (hstep.advances hw.contiguous))
    (fun _ _ _ _ hw hstep => .mono fun _ _ => hkeep _ _ _ _ (hstep.advances hw.contiguous))
    hopens hrun (.refl h.contiguous) h.within hstart hi

/-- Every run keeps what is known of its states, and advances sessions. -/
theorem Reached.run (h : Reached s) (hrun : Service.run s as = some s') :
    Reached s' ∧ Advances s.state.identity s'.state.identity := by
  obtain ⟨hadvances, hwithin⟩ := Service.run_within
    (I := fun w => Advances s.state.identity w.identity) (sessionService_within x others key)
    (fun w w' hw hstep => hw.trans (hstep.advances hw.contiguous)) hrun
    (.refl h.contiguous) h.within
  refine ⟨⟨hadvances.contiguous, hwithin, fun i => ?_⟩, hadvances⟩
  refine h.answers (B := fun w userID n => n ≤ sessionEpoch w.identity userID) hrun ?_ ?_
    (.inr fun op => .inl rfl) (h.bounded i)
  · rintro w w' userID n ⟨-, es, -, hepoch⟩ hn
    exact hn.trans (hepoch userID).1
  · intro op rest hundecided
    exact (undecided_opens hundecided).mono fun w a ha _ => ha.mono fun _ _ hn => hn.le

/-- What a call that has read its user will answer speaks for a version of the user until
then. -/
theorem Reached.early {i : Nat} {op : SessionOp O X} {a : SessionAnswer} (h : Reached s)
    (hopened : i < s.opened)
    (hread : ¬ Unread x others key (s.sessions i)) (hrun : Service.run s as = some s')
    (hended : s'.sessions i = .ended op (.ok a)) :
    Justified key (fun userID n => n ≤ sessionEpoch s.state.identity userID) op a := by
  have hi : (s.sessions i).Answers (fun _ _ => False)
      (Justified key fun userID n => n ≤ sessionEpoch s.state.identity userID) := by
    have hbounded := h.bounded i
    cases hsession : s.sessions i with
    | idle => trivial
    | running op rest =>
      rw [hsession] at hbounded hread
      exact .inr (hbounded.resolve_left hread)
    | ended op result =>
      rw [hsession] at hbounded
      cases result with
      | error e => trivial
      | ok a => exact hbounded
    | crashed op => trivial
  have hlater := h.answers (B := fun _ userID n => n ≤ sessionEpoch s.state.identity userID)
    hrun (fun _ _ _ _ _ hn => hn) (fun _ _ hfalse => hfalse.elim) (.inl hopened) hi
  rw [hended] at hlater
  exact hlater

/-- What a call that has not read its user yet will answer speaks for the user's version by
then. -/
theorem Reached.late {i : Nat} {op : SessionOp O X} {a : SessionAnswer} (h : Reached s)
    (hunread : Unread x others key (s.sessions i)) (hrun : Service.run s as = some s')
    (hended : s'.sessions i = .ended op (.ok a)) :
    Justified key (fun userID n => sessionEpoch s.state.identity userID ≤ n) op a := by
  have hi : (s.sessions i).Answers (Undecided x others key)
      (Justified key fun userID n => sessionEpoch s.state.identity userID ≤ n) := by
    cases hsession : s.sessions i with
    | idle => trivial
    | running op rest =>
      rw [hsession] at hunread
      exact .inl hunread
    | ended op result =>
      rw [hsession] at hunread
      exact hunread.elim
    | crashed op => trivial
  have hlater := h.answers (B := fun _ userID n => sessionEpoch s.state.identity userID ≤ n)
    hrun (fun _ _ _ _ _ hn => hn) ?_ (.inr fun op => .inl rfl) hi
  · rw [hended] at hlater
    exact hlater
  · intro op rest hundecided
    refine (undecided_opens hundecided).mono fun w a ha hadvances => ha.mono ?_
    rintro userID n rfl
    obtain ⟨-, es, -, hepoch⟩ := hadvances
    exact (hepoch userID).1

/-- A token of the user. -/
def SpeaksFor (key : SigningKey) (userID token : String) : Prop :=
  ∃ subject version, Speaks key userID subject version token

/-- Some exchange has answered a token with another. -/
def Exchanged (s : Sys (sessionService x others key)) (token token' : String) : Prop :=
  ∃ i r a, s.sessions i = .ended (.rotate r) (.ok a) ∧ r.token = token ∧ token' ∈ a.handsOut

/-- Exchanges leave what a token says as it is. -/
theorem Reached.exchanged_carried (h : Reached s) {token token' : String}
    (hchain : Relation.ReflTransGen (Exchanged s) token token') :
    key.carried token' = key.carried token := by
  induction hchain with
  | refl => rfl
  | tail _ hstep ih =>
    obtain ⟨i, r, a, hended, rfl, hmem⟩ := hstep
    have hbounded := h.bounded i
    rw [hended] at hbounded
    obtain ⟨userID, subject, version, -, hspeaks⟩ :=
      hbounded (SessionAnswer.accepts_of_handsOut hmem)
    rw [← ih, (hspeaks _ (List.mem_append_right _ hmem)).1,
      (hspeaks r.token (by simp [SessionOp.presented])).1]

/-- In every run of session starts, exchanges, access checks and identity transactions, with a
killing event of a user committed between two of its states: of a call that has read its user
by the first state, no token and no token of a chain of exchanges from it is accepted by a call
that has not read its user by the second; and a user's session version never falls, is higher
after every killing event, and belongs to nobody once the user is gone. -/
theorem session_kill (x : Externals) (others : OtherDomains O X V)
    (key : SigningKey) (rest : X) (as : List (Action (sessionService x others key)))
    (s : Sys (sessionService x others key))
    (hrun : Service.run (Sys.init (sessionService x others key) (World.init rest)) as =
      some s) :
    ∀ as₁ s₁, Service.run s as₁ = some s₁ →
    ∃ es, s₁.state.identity.events = s.state.identity.events ++ es ∧
    (∀ e ∈ es, ∀ userID, Kills userID e → ∀ as₂ s₂, Service.run s₁ as₂ = some s₂ →
      ∀ i op a token, i < s.opened → ¬ Unread x others key (s.sessions i) →
        s₂.sessions i = .ended op (.ok a) → token ∈ a.handsOut → SpeaksFor key userID token →
      ∀ token', Relation.ReflTransGen (Exchanged s₂) token token' →
      ∀ j op' a', Unread x others key (s₁.sessions j) → s₂.sessions j = .ended op' (.ok a') →
        op'.presented = some token' → a'.accepts = false) ∧
    ∀ userID row, s.state.identity.tables.users.find userID = some row →
      (∀ row₁, s₁.state.identity.tables.users.find userID = some row₁ →
        row.sessionVersion ≤ row₁.sessionVersion ∧
        ∀ e ∈ es, Kills userID e → row.sessionVersion < row₁.sessionVersion) ∧
      (s₁.state.identity.tables.users.find userID = none →
        ∀ as₂ s₂, Service.run s₁ as₂ = some s₂ →
          s₂.state.identity.tables.users.find userID = none) := by
  intro as₁ s₁ hrun₁
  have hinit : Reached (Sys.init (sessionService x others key) (World.init rest)) :=
    ⟨contiguous_nil, by simp [Sys.init], fun _ => trivial⟩
  have hreached := (hinit.run hrun).1
  obtain ⟨hreached₁, -, es, hevents, hepoch⟩ := hreached.run hrun₁
  refine ⟨es, hevents, ?_, ?_⟩
  · intro e he userID hkills as₂ s₂ hrun₂ i op a token hopened hread hended htoken
    rintro ⟨subject, version, hspeaks⟩ token' hchain j op' a' hunread hended' hpresented
    have hrun₁₂ : Service.run s (as₁ ++ as₂) = some s₂ := by
      rw [Service.run_append, hrun₁]
      exact hrun₂
    have haccepts : a.accepts = true := SessionAnswer.accepts_of_handsOut htoken
    obtain ⟨userID₀, subject₀, version₀, hearly, hspeaks₀⟩ :=
      hreached.early hopened hread hrun₁₂ hended haccepts
    obtain ⟨rfl, rfl⟩ := hspeaks.unique (hspeaks₀ _ (List.mem_append_right _ htoken))
    by_contra haccepted
    obtain ⟨userID', subject', version', hlate, hspeaks'⟩ :=
      hreached₁.late hunread hrun₂ hended' (Bool.eq_true_of_not_eq_false haccepted)
    have hsame : Speaks key userID subject version token' := by
      have hcarried := (hreached₁.run hrun₂).1.exchanged_carried hchain
      exact ⟨hcarried.trans hspeaks.1, hspeaks.2⟩
    obtain ⟨rfl, rfl⟩ := hsame.unique (hspeaks' token' (by simp [hpresented]))
    -- The killing event has taken the user past the version of the token.
    rcases (hepoch userID).2 e he hkills with hlt | htop
    · exact absurd (hlate.trans hearly) (not_le_of_gt hlt)
    · rw [htop, top_le_iff] at hlate
      exact absurd hlate (ENat.natCast_ne_top _)
  · intro userID row hfind
    obtain ⟨hle, hkills⟩ := hepoch userID
    rw [sessionEpoch_of_find hfind] at hle hkills
    refine ⟨?_, ?_⟩
    · intro row₁ hfind₁
      rw [sessionEpoch_of_find hfind₁] at hle hkills
      refine ⟨by simpa using hle, ?_⟩
      intro e he hkill
      rcases hkills e he hkill with hlt | htop
      · simpa using hlt
      · exact absurd htop (ENat.natCast_ne_top _)
    · intro hnone as₂ s₂ hrun₂
      have htop : sessionEpoch s₁.state.identity userID = ⊤ := by
        rcases sessionEpoch_of_none hnone with hzero | htop
        · rw [hzero] at hle
          simp at hle
        · exact htop
      obtain ⟨-, -, es₂, -, hepoch₂⟩ := hreached₁.run hrun₂
      have hle₂ := (hepoch₂ userID).1
      rw [htop, top_le_iff] at hle₂
      cases hfind₂ : s₂.state.identity.tables.users.find userID with
      | none => rfl
      | some row₂ =>
        rw [sessionEpoch_of_find hfind₂] at hle₂
        exact absurd hle₂ (ENat.natCast_ne_top _)

end runs

/-! ### A user with two links -/

section samples

open Identity

attribute [local instance] TokenHashing.verbatim

/-- A user, and the two tokens that its first session start mints. -/
def killedUser : String := sampleID '1'

def killedClaims (tokenType : TokenType) : TokenClaims :=
  mintedClaims (10 * second) tokenType ⟨killedUser, 1⟩

/-- A key that signs those two tokens only. -/
def sampleKey : SigningKey where
  sign raw _ :=
    if raw = killedClaims .access then some "access"
    else if raw = killedClaims .refresh then some "refresh"
    else none
  signed token :=
    if token = "access" then some (killedClaims .access)
    else if token = "refresh" then some (killedClaims .refresh)
    else none
  signed_sign := by
    intro raw nonce token h
    split at h
    · rename_i hraw
      cases h
      simp [hraw]
    · split at h
      · rename_i hraw
        cases h
        simp [hraw]
      · cases h
  nonempty := by
    intro raw nonce token h
    split at h
    · cases h
      decide
    · split at h
      · cases h
        decide
      · cases h
  trimmed := by
    intro raw nonce token h
    split at h
    · cases h
      decide +kernel
    · split at h
      · cases h
        decide +kernel
      · cases h

def killedTokens : SessionTokens := ⟨"access", "refresh", by decide⟩

/-- The user links an OIDC and a SCIM identity. -/
def oidcLinked : Event (Identity.Body Empty) :=
  eventOn "user" killedUser
    (.user (.oidcIdentityLinked (.decoded ⟨"corp", "https://id", "ada", "ada@example.com"⟩)))

def scimLinked : Event (Identity.Body Empty) :=
  eventOn "user" killedUser
    (.user (.scimIdentityLinked (.decoded ⟨"corp", "ada", "ada@example.com"⟩)))

def scimUnlinked : Event (Identity.Body Empty) :=
  eventOn "user" killedUser (.user (.scimIdentityUnlinked (.decoded ⟨"corp", "ada"⟩)))

def userDisabled : Event (Identity.Body Empty) :=
  eventOn "user" killedUser (.user (.disabled (.decoded ())))

/-- The service of a server with the identity domains only. -/
abbrev sampleService : Service (World Empty Unit) Empty Empty SessionAnswer :=
  sessionService asciiExternals noOthers sampleKey

/-- One call without interruption. -/
def callAlone (session steps : Nat) (op : SessionOp Empty Unit) : List (Action sampleService) :=
  .start op :: List.replicate steps (.step session)

def sampleSessionStart : SessionStart where
  subject := killedUser
  now := 10 * second
  familyID := some sampleFamily
  minting := ⟨10 * second, 0, 10 * second, 0⟩
  createdAt := 10

/-- A user with two links, and a session of it. -/
def sessionStarted : List (Action sampleService) :=
  callAlone 0 2 (.append (.appendEvent (userCreated killedUser "ada@example.com"))) ++
    callAlone 1 2 (.append (.appendEvent oidcLinked)) ++
    callAlone 2 2 (.append (.appendEvent scimLinked)) ++
    callAlone 3 3 (.startSession sampleSessionStart)

/-- What a session has answered, with the token that its call presented. -/
def answered (s : Sys sampleService) (i : Nat) : Option (Option String × SessionAnswer) :=
  match s.sessions i with
  | .ended op (.ok a) => some (SessionOp.presented op, a)
  | _ => none

theorem answered_some {s : Sys sampleService} {i : Nat} {presented : Option String}
    {a : SessionAnswer} (h : answered s i = some (presented, a)) :
    ∃ op, s.sessions i = .ended op (.ok a) ∧ SessionOp.presented op = presented := by
  unfold answered at h
  split at h
  · rename_i op _ hsession
    cases h
    exact ⟨op, hsession, rfl⟩
  · cases h

/-- The session is started, an event of its user commits, and its access token is used. -/
structure UsedAfter (event : Event (Identity.Body Empty)) (result : Except AccessError Claims)
    (s s₁ s₂ : Sys sampleService) : Prop where
  started : Service.run (Sys.init sampleService (World.init ())) sessionStarted = some s
  committed : Service.run s (callAlone 4 2 (.append (.appendEvent event))) = some s₁
  used : Service.run s₁ (callAlone 5 2 (.authenticateAccess ⟨"access", 20 * second⟩)) = some s₂
  opened : 3 < s.opened
  events : s₁.state.identity.events = s.state.identity.events ++ [persisted event 4]
  tokens : answered s 3 = some (none, .tokens (.ok killedTokens))
  tokens₂ : answered s₂ 3 = some (none, .tokens (.ok killedTokens))
  unread : Unread asciiExternals noOthers sampleKey (s₁.sessions 5)
  claims : answered s₂ 5 = some (some "access", .claims result)

/-- The session has no call yet. -/
def isIdle : Session sampleService → Bool
  | .idle => true
  | _ => false

/-- The run of a use after an event, checked by evaluation. -/
def usedAfter (event : Event (Identity.Body Empty)) (result : Except AccessError Claims) : Bool :=
  (Service.run (Sys.init sampleService (World.init ())) sessionStarted).any fun s =>
    (Service.run s (callAlone 4 2 (.append (.appendEvent event)))).any fun s₁ =>
      (Service.run s₁ (callAlone 5 2 (.authenticateAccess ⟨"access", 20 * second⟩))).any fun s₂ =>
        decide (3 < s.opened) &&
        decide (s₁.state.identity.events = s.state.identity.events ++ [persisted event 4]) &&
        decide (answered s 3 = some (none, .tokens (.ok killedTokens))) &&
        decide (answered s₂ 3 = some (none, .tokens (.ok killedTokens))) &&
        isIdle (s₁.sessions 5) &&
        decide (answered s₂ 5 = some (some "access", .claims result))

theorem exists_usedAfter (event : Event (Identity.Body Empty))
    (result : Except AccessError Claims) (h : usedAfter event result = true) :
    ∃ s s₁ s₂, UsedAfter event result s s₁ s₂ := by
  simp only [usedAfter, Option.any_eq_true, Bool.and_eq_true, decide_eq_true_eq] at h
  obtain ⟨s, hs, s₁, hs₁, s₂, hs₂, ⟨⟨⟨⟨hopened, hevents⟩, htokens⟩, htokens₂⟩, hidle⟩, hclaims⟩ := h
  refine ⟨s, s₁, s₂, hs, hs₁, hs₂, hopened, hevents, htokens, htokens₂, ?_, hclaims⟩
  unfold isIdle at hidle
  split at hidle
  · rename_i hsession
    rw [hsession]
    trivial
  · cases hidle

/-- The removal of a SCIM link leaves a session of its user alive. -/
theorem scimUnlinked_keeps_session :
    ∃ s s₁ s₂, UsedAfter scimUnlinked (.ok ⟨killedUser, 1⟩) s s₁ s₂ :=
  exists_usedAfter _ _ (by decide +kernel)

/-- The same session does not survive a disable. -/
theorem session_kill_userDisabled :
    ∃ s s₁ s₂ result, UsedAfter userDisabled result s s₁ s₂ ∧
      (SessionAnswer.claims result).accepts = false := by
  obtain ⟨s, s₁, s₂, h⟩ :=
    exists_usedAfter userDisabled (.error (.token .invalid)) (by decide +kernel)
  obtain ⟨op, hended, -⟩ := answered_some h.tokens₂
  obtain ⟨op', hended', hpresented⟩ := answered_some h.claims
  have hread : ¬ Unread asciiExternals noOthers sampleKey (s.sessions 3) := by
    obtain ⟨op₀, hended₀, -⟩ := answered_some h.tokens
    rw [hended₀]
    exact id
  have hspeaks : SpeaksFor sampleKey killedUser killedTokens.accessToken :=
    ⟨killedUser, 1, by decide, by decide +kernel⟩
  obtain ⟨es, hevents, hkill, -⟩ := session_kill asciiExternals noOthers sampleKey () _ s h.started
    _ s₁ h.committed
  obtain rfl : [persisted userDisabled 4] = es :=
    List.append_cancel_left (h.events.symm.trans hevents)
  exact ⟨s, s₁, s₂, _, h, hkill _ (List.mem_singleton_self _) killedUser ⟨_, rfl, rfl, rfl⟩ _ s₂
    h.used 3 op _ killedTokens.accessToken h.opened hread hended (by simp [SessionAnswer.handsOut])
    hspeaks _ .refl 5 op' _ h.unread hended' hpresented⟩

end samples

end PowerManage.Auth
