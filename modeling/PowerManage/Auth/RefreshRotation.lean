import PowerManage.Auth.RefreshFamilies
import PowerManage.Relational.FenceLogic

/-!
# Exchange of refresh tokens

The service that starts sessions and exchanges refresh tokens, as calls that
interleave in any order.  A call's atomic steps are its reads of a token with
its family and its version-pinned appends: an append holds the unique index
entry of its stream version from its insert to its commit, so of two appends
to one family at one version the second finds a conflict.

Signatures, users, clocks, minted tokens and interrupted waits are inputs of
each call.

Main results:

- `triple_rotate`: what the answer of a call says about the tokens,
  whatever other calls do meanwhile.
- `refresh_theft_containment`: what holds of the tokens and families
  in every run.
-/

namespace PowerManage.Auth

open Relational Store

section rotation

variable [TokenHashing]

/-! ## Calls -/

/-- `SessionTokens`; a signed token has no space at its ends. -/
structure SessionTokens where
  accessToken : String
  refreshToken : String
  trimmed : trimSpace refreshToken = refreshToken
  deriving DecidableEq, Repr

/-- The errors of the service, with what could not be done. -/
inductive RefreshError where
  | rejected
  | unavailable (doing : String)
  deriving DecidableEq, Repr

/-- What a verified token says. -/
structure Claims where
  subject : String
  sessionVersion : Int
  deriving DecidableEq, Repr

/-- What the service reads of a user. -/
structure SessionUser where
  sessionVersion : Int
  disabled : Bool
  deriving DecidableEq, Repr

abbrev Call (α : Type) : Type := Routine Db Empty α

/-- Nanoseconds in a second. -/
def second : Int := 1000000000

/-- `refreshTokenLifetime`, seven days. -/
def refreshTokenLifetime : Int := 7 * 24 * 3600 * second

/-- `Time.Unix` of a time in nanoseconds. -/
def unix (time : Int) : Int := time / second

/-- `validTime`; the zero time lies before the epoch. -/
def validTime (time : Int) : Bool := 0 < unix time

def maxSubjectBytes : Nat := 1024

def validSubject (subject : String) : Bool :=
  0 < byteLen subject && byteLen subject ≤ maxSubjectBytes

/-- One read of `RefreshFamilyToken`. -/
def readToken (hash : TokenHash) : Call (Except StoreError RefreshFamilyToken) :=
  .attempt fun d => (refreshFamilyToken hash d).map (·, d)

/-- One version-pinned append. -/
def appendEvent (event : Event Body) (version : Nat) : Call (Except StoreError Unit) :=
  .attempt (appendEventWithVersion registry event version).run

/-- The inputs of `StartSession`. -/
structure StartRequest where
  subject : String
  now : Int
  user : Except StoreError SessionUser
  familyID : Option String
  minted : Option SessionTokens
  createdAt : Nat

def startSession (r : StartRequest) : Call (Except RefreshError SessionTokens) :=
  if !validSubject r.subject || !validTime r.now then pure (.error (.unavailable "")) else
  match r.user with
  | .error e =>
    if e.isNotFound then pure (.error .rejected)
    else pure (.error (.unavailable "read session user"))
  | .ok user =>
    if user.disabled then pure (.error .rejected) else
    match r.familyID, r.minted with
    | none, _ => pure (.error (.unavailable "mint family ID"))
    | some _, none => pure (.error (.unavailable "mint session tokens"))
    | some familyID, some tokens =>
      match refreshFamilyStartedEvent familyID r.subject (tokenHash tokens.refreshToken)
          (unix (r.now + refreshTokenLifetime)) r.createdAt with
      | .error _ => pure (.error (.unavailable "create family start"))
      | .ok event => do
          match ← appendEvent event 0 with
          | .ok _ => pure (.ok tokens)
          | .error _ => pure (.error (.unavailable "persist family start"))

/-- The inputs of `Rotate`. -/
structure RotateRequest where
  presented : String
  /-- What `VerifyRefresh` answers. -/
  claims : Option Claims
  /-- What `UserByID` answers. -/
  user : Except StoreError SessionUser
  now : Int
  /-- The clock is read again to mint; it does not go back. -/
  elapsed : Nat
  minted : Option SessionTokens
  createdAt : Nat
  /-- Creation times of the revocations, by the attempts left after them. -/
  revokedAt : Nat → Nat
  /-- Whether the context ends in the backoff, by the attempts left after it. -/
  backoffInterrupted : Nat → Bool
  rejectionInterrupted : Bool

/-- The digest of the presented token. -/
def RotateRequest.presentedHash (r : RotateRequest) : TokenHash :=
  tokenHash (trimSpace r.presented)

def activeAt (now : Int) (state : RefreshFamilyToken) (presentedHash : TokenHash) : Bool :=
  !state.token.superseded && validTime now && decide (now < state.token.expiresAt * second) &&
    presentedHash == state.family.activeTokenHash

/-- The check that `Rotate` makes before it mints; gives the user it mints for. -/
def permits (r : RotateRequest) (state : RefreshFamilyToken) : Option SessionUser :=
  match r.claims, r.user with
  | some claims, .ok user =>
    if claims.subject == state.family.subject && claims.sessionVersion == user.sessionVersion &&
        !user.disabled && !state.family.revoked && activeAt r.now state r.presentedHash then
      some user
    else none
  | _, _ => none

/-- The user is looked up, and neither found nor found missing. -/
def userUnavailable (r : RotateRequest) (state : RefreshFamilyToken) : Bool :=
  r.claims.any (·.subject == state.family.subject) &&
    match r.user with
    | .error e => !e.isNotFound
    | .ok _ => false

def refreshRevocationAttempts : Nat := 8

/-- The rounds of `revokeReplayed` that are left; it fails as unavailable only. -/
def revokeReplayed (r : RotateRequest) (hash : TokenHash) : Nat → Call (Except String Unit)
  | 0 => pure (.error "refresh-family revocation contention")
  | left + 1 => do
      match ← readToken hash with
      | .error e =>
        if e.isNotFound then pure (.ok ())
        else pure (.error "reread replayed refresh token")
      | .ok state =>
        if state.family.revoked || !state.token.superseded then pure (.ok ()) else
        match refreshFamilyRevokedEvent state.familyID hash (r.revokedAt left) with
        | .error _ => pure (.error "create refresh-family revocation")
        | .ok event => do
            match ← appendEvent event state.family.projectionVersion with
            | .ok _ => pure (.ok ())
            | .error e =>
              if e.isVersionConflict then
                -- The last round has no backoff.
                if left != 0 && r.backoffInterrupted left then
                  pure (.error "revocation backoff interrupted")
                else revokeReplayed r hash left
              else pure (.error "persist refresh-family revocation")

def rejectRefresh (r : RotateRequest) : RefreshError :=
  if r.rejectionInterrupted then .unavailable "rejection wait interrupted" else .rejected

/-- Revoke the family of a reused token, then reject. -/
def rejectReplayed (r : RotateRequest) : Call (Except RefreshError SessionTokens) := do
  match ← revokeReplayed r r.presentedHash refreshRevocationAttempts with
  | .error doing => pure (.error (.unavailable doing))
  | .ok _ => pure (.error (rejectRefresh r))

/-- `Rotate` once the token has been found. -/
def rotateFound (r : RotateRequest) (state : RefreshFamilyToken) :
    Call (Except RefreshError SessionTokens) :=
  if userUnavailable r state then
    pure (.error (.unavailable "read refresh session user"))
  else
    match permits r state with
    | none =>
      if state.token.superseded && !state.family.revoked then rejectReplayed r
      else pure (.error (rejectRefresh r))
    | some _ =>
      match r.minted with
      | none => pure (.error (.unavailable "mint rotated session tokens"))
      | some tokens =>
        match refreshTokenRotatedEvent state.familyID r.presentedHash
            (tokenHash tokens.refreshToken)
            (unix (r.now + r.elapsed + refreshTokenLifetime)) r.createdAt with
        | .error _ => pure (.error (.unavailable "create refresh rotation"))
        | .ok event => do
            match ← appendEvent event state.family.projectionVersion with
            | .ok _ => pure (.ok tokens)
            | .error e =>
              if e.isVersionConflict then rejectReplayed r
              else pure (.error (.unavailable "persist refresh rotation"))

def rotate (r : RotateRequest) : Call (Except RefreshError SessionTokens) := do
  match ← readToken r.presentedHash with
  | .error e =>
    if e.isNotFound then pure (.error (rejectRefresh r))
    else pure (.error (.unavailable "read refresh family"))
  | .ok state => rotateFound r state

/-- The calls of the service. -/
inductive Op where
  | startSession (r : StartRequest)
  | rotate (r : RotateRequest)

/-- The service; its calls hold no lock between their steps. -/
def refreshService : Service Db Empty Empty (Except RefreshError SessionTokens) where
  Op := Op
  body
    | .startSession r => startSession r
    | .rotate r => rotate r
  fences _ := []

/-! ## What the calls store -/

/-- A token with this digest and expiry can be presented before it expires. -/
def Presentable (hash : TokenHash) (expiresAt : Int) : Prop :=
  (∃ token, trimSpace token = token ∧ tokenHash token = hash) ∧ 1 < expiresAt

/-- The token that an event adds is presentable. -/
def Body.Presentable : Body → Prop
  | .familyStarted (.decoded p) => Auth.Presentable p.tokenHash p.expiresAt
  | .tokenRotated (.decoded p) => Auth.Presentable p.nextTokenHash p.expiresAt
  | _ => True

/-- The invariant of the service. -/
structure ServiceInv (d : Db) : Prop where
  families : FamilyInv d
  presentable : d.tables.tokens.AllRows fun hash token => Presentable hash token.expiresAt

/-- A step stores nothing or one event. -/
def Stores (d d' : Db) : Prop :=
  d' = d ∨ ∃ e, e.body.Presentable ∧ acceptEvent registry d e = .ok d'

variable {d d' : Db} {e : Ev}

theorem ServiceInv.accept (hinv : ServiceInv d) (hbody : e.body.Presentable)
    (h : acceptEvent registry d e = .ok d') : ServiceInv d' := by
  refine ⟨hinv.families.accept h, ?_⟩
  rcases accept_cases h with ⟨p, hp⟩ | ⟨p, hp⟩ | ⟨p, hp⟩
  · rw [hp.body] at hbody
    rw [hp.tokens]
    exact hinv.presentable.put hbody
  · obtain ⟨_, previous, -, -, -, -, hprevious, -, -, -, htokens⟩ := hp.rows
    rw [hp.body] at hbody
    rw [htokens]
    refine Table.AllRows.put (Table.AllRows.put hinv.presentable ?_) ?_
    exacts [hinv.presentable _ previous hprevious, hbody]
  · obtain ⟨_, _, -, -, -, -, -, -, -, htokens⟩ := hp.rows
    rw [htokens]
    exact hinv.presentable

theorem ServiceInv.stores (hinv : ServiceInv d) (h : Stores d d') : ServiceInv d' := by
  rcases h with rfl | ⟨e, hbody, h⟩
  · exact hinv
  · exact hinv.accept hbody h

/-- A stored token is read together with its family. -/
theorem ServiceInv.refreshFamilyToken (hinv : ServiceInv d) {hash : TokenHash}
    {token : TokenRow} (hfind : d.tables.tokens.find hash = some token) :
    ∃ family, d.tables.families.find token.familyID = some family ∧
      Auth.refreshFamilyToken hash d = .ok ⟨token.familyID, family, token⟩ := by
  obtain ⟨family, hfamily⟩ := hinv.families.owned hash token hfind
  refine ⟨family, hfamily, ?_⟩
  obtain ⟨hid, hsubject, hversion⟩ := hinv.families.stored token.familyID family hfamily
  have hexpires : 1 < token.expiresAt := (hinv.presentable hash token hfind).2
  have hrow : findRefreshFamilyToken d hash = some ⟨token.familyID, family, token⟩ := by
    simp [findRefreshFamilyToken, hfind, hfamily]
  have hvalid : validateRefreshExpiry token.expiresAt = .ok () := by
    rw [validateRefreshExpiry, if_neg (by omega)]
  simp [Auth.refreshFamilyToken, hrow, refreshFamilyTokenFromRow, canonicalRefreshFamilyID,
    canonicalULID, ulidPathID_of_ulidCheck hid, hsubject, hvalid, Nat.ne_of_gt hversion,
    Except.map, Except.mapError, bind, Except.bind]

/-! ## The service in the logic -/

/-- What every step of the service guarantees. -/
def refreshGuarantees : Guarantees refreshService where
  inv := ServiceInv
  guar _ := Stores
  guar_refl _ _ := .inl rfl
  keeps_inv _ _ _ hinv h := hinv.stores h

/-- The token's family is revoked. -/
def Contained (hash : TokenHash) (d : Db) : Prop :=
  ∃ familyID, Belongs familyID hash d ∧ Revoked familyID d

/-- The token was exchanged for one successor. -/
def ExchangedFor (hash next : TokenHash) (d : Db) : Prop :=
  exchanges d hash = [next]

theorem lasting_of_accept {A : Db → Prop}
    (h : ∀ d e d', ServiceInv d → acceptEvent registry d e = .ok d' → A d → A d') :
    refreshGuarantees.Lasting A := by
  intro op d d' hinv hA hstores
  rcases hstores with rfl | ⟨e, -, haccept⟩
  · exact hA
  · exact h d e d' hinv haccept hA

theorem superseded_lasting (hash : TokenHash) : refreshGuarantees.Lasting (Superseded hash) :=
  lasting_of_accept fun _ _ _ _ h => accept_superseded h

theorem contained_lasting (hash : TokenHash) : refreshGuarantees.Lasting (Contained hash) :=
  lasting_of_accept fun _ _ _ _ h hcontained => by
    obtain ⟨familyID, hbelongs, hrevoked⟩ := hcontained
    exact ⟨familyID, accept_belongs h hbelongs, accept_revoked h hrevoked⟩

theorem exchangedFor_lasting (hash next : TokenHash) :
    refreshGuarantees.Lasting (ExchangedFor hash next) :=
  lasting_of_accept fun _ e d' hinv h hexchanged => by
    have honce := (hinv.families.accept h).once hash
    rw [ExchangedFor] at hexchanged ⊢
    rw [exchanges_accept h, hexchanged] at honce ⊢
    cases hnext : successorOf hash e with
    | none => rfl
    | some next' => simp [hnext] at honce

section triples

variable {op : refreshService.Op} {A : Db → Prop}

variable {event : Event Body} {hash : TokenHash} {familyID : String} {createdAt : Nat}
variable {r : RotateRequest}

/-- An append stores its event, or changes nothing. -/
theorem triple_appendEvent {version : Nat} {B : Except StoreError Unit → Db → Prop}
    (hbody : event.body.Presentable) (hA : refreshGuarantees.Stable op A)
    (hB : ∀ r, refreshGuarantees.Stable op (B r))
    (hok : ∀ d e d', ServiceInv d → A d → e.body = event.body →
      acceptEvent registry d e = .ok d' → B (.ok ()) d')
    (herror : ∀ d e, A d → B (.error e) d) :
    refreshGuarantees.Triple op A (appendEvent event version) B := by
  refine Guarantees.Triple.attempt hA hB ?_ fun d e _ hd _ => herror d e hd
  intro d _ d' hinv hd hrun
  obtain ⟨e, hevent, haccept⟩ := run_appendEventWithVersion hrun
  have hsame : e.body = event.body := foldStreamID_body hevent
  exact ⟨.inr ⟨e, hsame ▸ hbody, haccept⟩, hok d e d' hinv hd hsame haccept⟩

theorem triple_readToken {B : Except StoreError RefreshFamilyToken → Db → Prop}
    (hA : refreshGuarantees.Stable op A) (hB : ∀ r, refreshGuarantees.Stable op (B r))
    (h : ∀ d, ServiceInv d → A d → B (refreshFamilyToken hash d) d) :
    refreshGuarantees.Triple op A (readToken hash) B := by
  refine Guarantees.Triple.attempt hA hB ?_ ?_
  · intro d state d' hinv hd hread
    cases hfound : refreshFamilyToken hash d with
    | error e => simp [hfound, Except.map] at hread
    | ok state' =>
      simp [hfound, Except.map] at hread
      obtain ⟨rfl, rfl⟩ := hread
      exact ⟨.inl rfl, hfound ▸ h d hinv hd⟩
  · intro d e hinv hd hread
    cases hfound : refreshFamilyToken hash d with
    | error e' =>
      simp [hfound, Except.map] at hread
      subst hread
      exact hfound ▸ h d hinv hd
    | ok state' => simp [hfound, Except.map] at hread

omit [TokenHashing] in
/-- A token minted at a valid time expires after the epoch's first second. -/
theorem one_lt_expiry {now : Int} (hnow : validTime now = true) (elapsed : Nat) :
    1 < unix (now + elapsed + refreshTokenLifetime) := by
  have hpositive : 0 < unix now := of_decide_eq_true hnow
  simp only [unix, second, refreshTokenLifetime] at hpositive ⊢
  omega

theorem presentable_tokens (tokens : SessionTokens) {now : Int} (hnow : validTime now = true)
    (elapsed : Nat) : Presentable (tokenHash tokens.refreshToken)
      (unix (now + elapsed + refreshTokenLifetime)) :=
  ⟨⟨_, tokens.trimmed, rfl⟩, one_lt_expiry hnow elapsed⟩

/-- What a stored exchange establishes. -/
theorem exchangedFor_accept (hinv : ServiceInv d) {p : RefreshTokenRotatedPayload}
    (hbody : e.body = .tokenRotated (.decoded p)) (h : acceptEvent registry d e = .ok d') :
    ExchangedFor p.previousTokenHash p.nextTokenHash d' := by
  rcases accept_cases h with ⟨p', hp⟩ | ⟨p', hp⟩ | ⟨p', hp⟩
  · rw [hp.body] at hbody
    cases hbody
  · have hsame := hp.body.symm.trans hbody
    simp at hsame
    subst hsame
    change exchanges d' _ = _
    simp [exchanges_accept h, hinv.families.unspent hp, hp.successorOf]
  · rw [hp.body] at hbody
    cases hbody

omit [TokenHashing] in
/-- What a stored revocation establishes. -/
theorem contained_accept {p : RefreshFamilyRevokedPayload}
    (hbody : e.body = .familyRevoked (.decoded p)) (h : acceptEvent registry d e = .ok d') :
    Contained p.replayedTokenHash d' := by
  rcases accept_cases h with ⟨p', hp⟩ | ⟨p', hp⟩ | ⟨p', hp⟩
  · rw [hp.body] at hbody
    cases hbody
  · rw [hp.body] at hbody
    cases hbody
  · have hsame := hp.body.symm.trans hbody
    simp at hsame
    subst hsame
    obtain ⟨family, token, -, -, -, htoken, howner, -, hfamilies, htokens⟩ := hp.rows
    exact ⟨e.streamID, ⟨token, htokens ▸ htoken, howner⟩, _,
      by rw [hfamilies, Table.find_put, if_pos rfl], rfl⟩

/-- The read of a superseded token finds it. -/
theorem superseded_read (hinv : ServiceInv d) (h : Superseded hash d) :
    ∃ state, refreshFamilyToken hash d = .ok state ∧ state.token.superseded = true ∧
      (state.family.revoked = true → Contained hash d) := by
  obtain ⟨token, hfind, hsuperseded⟩ := h
  obtain ⟨family, hfamily, hread⟩ := hinv.refreshFamilyToken hfind
  exact ⟨_, hread, hsuperseded, fun hrevoked =>
    ⟨token.familyID, ⟨token, hfind, rfl⟩, family, hfamily, hrevoked⟩⟩

/-- What the read of a superseded token is known to have found. -/
def SupersededRead (hash : TokenHash) : Except StoreError RefreshFamilyToken → Db → Prop
  | .error _, _ => False
  | .ok state, d => Superseded hash d ∧ state.token.superseded = true ∧
      (state.family.revoked = true → Contained hash d)

theorem supersededRead_stable (hash : TokenHash) (r : Except StoreError RefreshFamilyToken) :
    refreshGuarantees.Stable op (SupersededRead hash r) := by
  cases r with
  | error e => exact Guarantees.stable_pure False
  | ok state =>
    exact (superseded_lasting hash).stable.and
      ((Guarantees.stable_pure _).and ((contained_lasting hash).stable.imp _))

/-- The calls that only answer keep what is stable. -/
theorem triple_pure {β : Type} {b : β} {B : β → Db → Prop} (hA : refreshGuarantees.Stable op A)
    (h : ∀ d, A d → B b d) : refreshGuarantees.Triple op A (pure b) B :=
  Guarantees.Triple.ret hA fun d _ hd => h d hd

/-! The proposition `p` says that the presented token was superseded to begin with. -/

variable (p : Prop)

theorem triple_readSuperseded (hash : TokenHash) :
    refreshGuarantees.Triple op (fun d => p → Superseded hash d) (readToken hash)
      fun found d => p → SupersededRead hash found d := by
  refine triple_readToken ((superseded_lasting hash).stable.imp p)
    (fun found => (supersededRead_stable hash found).imp p) ?_
  intro d hinv hd hp
  obtain ⟨state, hread, hstate⟩ := superseded_read hinv (hd hp)
  rw [hread]
  exact ⟨hd hp, hstate⟩

/-- What is known after an attempt to revoke the family of a superseded token. -/
def RevocationTried (hash : TokenHash) (answer : Except StoreError Unit) (d : Db) : Prop :=
  (p → Superseded hash d) ∧ (p → answer = .ok () → Contained hash d)

theorem revocationTried_stable (hash : TokenHash) (answer : Except StoreError Unit) :
    refreshGuarantees.Stable op (RevocationTried p hash answer) :=
  ((superseded_lasting hash).stable.imp p).and (((contained_lasting hash).stable.imp _).imp p)

/-- A revocation that reports success has left the family of a superseded token revoked. -/
theorem triple_revokeReplayed (r : RotateRequest) (hash : TokenHash) (left : Nat) :
    refreshGuarantees.Triple op (fun d => p → Superseded hash d) (revokeReplayed r hash left)
      fun answer d => p → answer = .ok () → Contained hash d := by
  induction left with
  | zero =>
    exact triple_pure ((superseded_lasting hash).stable.imp p) fun d _ _ h => by cases h
  | succ left ih =>
    refine Guarantees.Triple.bind (triple_readSuperseded p hash) ?_
    intro found
    have hread : refreshGuarantees.Stable op (SupersededRead hash found) :=
      supersededRead_stable hash found
    have hstable := hread.imp p
    cases found with
    | error e =>
      dsimp only
      split
      · exact triple_pure hstable fun d hd hp => (hd hp).elim
      · exact triple_pure hstable fun d hd hp => (hd hp).elim
    | ok state =>
      dsimp only
      split
      · rename_i hdone
        refine triple_pure hstable fun d hd hp _ => ?_
        obtain ⟨-, hsuperseded, hcontained⟩ := hd hp
        exact hcontained (by simpa [hsuperseded] using hdone)
      · split
        · exact triple_pure hstable fun d _ _ h => by cases h
        · rename_i event hevent
          have hbody := refreshFamilyRevokedEvent_ok hevent
          -- The append either stores the revocation or leaves the token superseded.
          refine Guarantees.Triple.bind (B := RevocationTried p hash)
            (triple_appendEvent ?_ hstable (revocationTried_stable p hash) ?_ ?_) ?_
          · rw [hbody]
            exact trivial
          · intro d e d' hinv hd hsame haccept
            exact ⟨fun hp => accept_superseded haccept (hd hp).1,
              fun _ _ => contained_accept (hsame.trans hbody) haccept⟩
          · intro d e hd
            exact ⟨fun hp => (hd hp).1, fun _ h => by cases h⟩
          · intro answer
            have htried : refreshGuarantees.Stable op (RevocationTried p hash answer) :=
              revocationTried_stable p hash answer
            cases answer with
            | ok u => exact triple_pure htried fun d hd hp _ => hd.2 hp rfl
            | error e =>
              dsimp only
              split
              · split
                · exact triple_pure htried fun d _ _ h => by cases h
                · exact ih.conseq (fun d _ hd => hd.1) fun _ _ _ h => h
              · exact triple_pure htried fun d _ _ h => by cases h

/-- What a call's answer says: tokens are the successor of the presented one, and
a rejection of a superseded token comes after the revocation of its family. -/
structure Answered (r : RotateRequest) (answer : Except RefreshError SessionTokens) (d : Db) :
    Prop where
  exchanged : ∀ tokens, answer = .ok tokens →
    ExchangedFor r.presentedHash (tokenHash tokens.refreshToken) d
  contained : p → answer = .error .rejected → Contained r.presentedHash d

theorem answered_unavailable {doing : String} :
    Answered p r (.error (.unavailable doing)) d where
  exchanged := by
    intro tokens h
    cases h
  contained := by
    intro _ h
    cases h

theorem answered_rejected {reason : RefreshError} (h : p → Contained r.presentedHash d) :
    Answered p r (.error reason) d where
  exchanged := by
    intro tokens h
    cases h
  contained hp _ := h hp

theorem triple_rejectReplayed (r : RotateRequest) :
    refreshGuarantees.Triple op (fun d => p → Superseded r.presentedHash d) (rejectReplayed r)
      (Answered p r) := by
  refine Guarantees.Triple.bind (triple_revokeReplayed p r r.presentedHash _) ?_
  intro answer
  have hstable : refreshGuarantees.Stable op fun d =>
      p → answer = .ok () → Contained r.presentedHash d :=
    ((contained_lasting r.presentedHash).stable.imp _).imp p
  cases answer with
  | error doing => exact triple_pure hstable fun d _ => answered_unavailable p
  | ok u => exact triple_pure hstable fun d hd => answered_rejected p fun hp => hd hp rfl

/-- A permitted exchange is of the family's active token. -/
theorem permits_some {state : RefreshFamilyToken} {user : SessionUser}
    (h : permits r state = some user) :
    state.family.revoked = false ∧ state.token.superseded = false ∧ validTime r.now = true ∧
      r.presentedHash = state.family.activeTokenHash := by
  unfold permits at h
  split at h
  · split at h
    · rename_i hcheck
      simp only [activeAt, Bool.and_eq_true, Bool.not_eq_true', beq_iff_eq] at hcheck
      obtain ⟨⟨-, hlive⟩, ⟨⟨hcurrent, hvalid⟩, -⟩, hactive⟩ := hcheck
      exact ⟨hlive, hcurrent, hvalid, hactive⟩
    · cases h
  · cases h

theorem triple_rotateFound (r : RotateRequest) (state : RefreshFamilyToken) :
    refreshGuarantees.Triple op (fun d => p → SupersededRead r.presentedHash (.ok state) d)
      (rotateFound r state) (Answered p r) := by
  have hread : refreshGuarantees.Stable op (SupersededRead r.presentedHash (.ok state)) :=
    supersededRead_stable r.presentedHash (.ok state)
  have hstable := hread.imp p
  unfold rotateFound
  split
  · exact triple_pure hstable fun d _ => answered_unavailable p
  · split
    · split
      · exact (triple_rejectReplayed p r).conseq (fun d _ hd hp => (hd hp).1) fun _ _ _ h => h
      · rename_i hdone
        refine triple_pure hstable fun d hd => answered_rejected p fun hp => ?_
        obtain ⟨-, hsuperseded, hcontained⟩ := hd hp
        exact hcontained (by simpa [hsuperseded] using hdone)
    · rename_i user hpermits
      obtain ⟨-, hcurrent, hvalid, -⟩ := permits_some hpermits
      split
      · exact triple_pure hstable fun d _ => answered_unavailable p
      · rename_i tokens _
        split
        · exact triple_pure hstable fun d _ => answered_unavailable p
        · rename_i event hevent
          have hbody := refreshTokenRotatedEvent_ok hevent
          -- A permitted token was not superseded to begin with.
          have hfresh : ∀ d, (p → SupersededRead r.presentedHash (.ok state) d) → ¬ p := by
            intro d hd hp
            have hsuperseded := (hd hp).2.1
            rw [hcurrent] at hsuperseded
            cases hsuperseded
          refine Guarantees.Triple.bind (B := fun answer d => ¬ p ∧
            (answer = .ok () → ExchangedFor r.presentedHash (tokenHash tokens.refreshToken) d))
            (triple_appendEvent ?_ hstable ?_ ?_ ?_) ?_
          · have hpresentable := presentable_tokens tokens hvalid r.elapsed
            rwa [hbody, Body.Presentable]
          · exact fun answer => (Guarantees.stable_pure _).and
              ((exchangedFor_lasting _ _).stable.imp _)
          · intro d e d' hinv hd hsame haccept
            have hexchanged := exchangedFor_accept hinv (hsame.trans hbody) haccept
            exact ⟨hfresh d hd, fun _ => hexchanged⟩
          · intro d e hd
            exact ⟨hfresh d hd, fun h => by cases h⟩
          · intro answer
            have htried : refreshGuarantees.Stable op fun d => ¬ p ∧ (answer = .ok () →
                ExchangedFor r.presentedHash (tokenHash tokens.refreshToken) d) :=
              (Guarantees.stable_pure _).and ((exchangedFor_lasting _ _).stable.imp _)
            cases answer with
            | ok u =>
              refine triple_pure htried fun d hd => ⟨?_, fun hp => absurd hp hd.1⟩
              intro tokens' h
              cases h
              exact hd.2 rfl
            | error e =>
              dsimp only
              split
              · exact (triple_rejectReplayed p r).conseq (fun d _ hd hp => absurd hp hd.1)
                  fun _ _ _ h => h
              · exact triple_pure htried fun d _ => answered_unavailable p

theorem triple_rotate (r : RotateRequest) :
    refreshGuarantees.Triple op (fun d => p → Superseded r.presentedHash d) (rotate r)
      (Answered p r) := by
  refine Guarantees.Triple.bind (triple_readSuperseded p r.presentedHash) ?_
  intro found
  have hread : refreshGuarantees.Stable op (SupersededRead r.presentedHash found) :=
    supersededRead_stable r.presentedHash found
  have hstable := hread.imp p
  cases found with
  | error e =>
    dsimp only
    split
    · exact triple_pure hstable fun d hd => answered_rejected p fun hp => (hd hp).elim
    · exact triple_pure hstable fun d _ => answered_unavailable p
  | ok state => exact triple_rotateFound p r state

theorem triple_startSession (r : StartRequest) :
    refreshGuarantees.Triple op (fun _ => True) (startSession r) fun _ _ => True := by
  have hstable : refreshGuarantees.Stable op fun _ => True := Guarantees.stable_pure True
  unfold startSession
  split
  · exact triple_pure hstable fun _ => id
  · rename_i hchecked
    simp only [Bool.or_eq_true, Bool.not_eq_true', not_or, Bool.not_eq_false] at hchecked
    split
    · split
      · exact triple_pure hstable fun _ => id
      · exact triple_pure hstable fun _ => id
    · split
      · exact triple_pure hstable fun _ => id
      · split
        · exact triple_pure hstable fun _ => id
        · exact triple_pure hstable fun _ => id
        · rename_i tokens _ _
          split
          · exact triple_pure hstable fun _ => id
          · rename_i event hevent
            have hbody := refreshFamilyStartedEvent_ok hevent
            have hpresentable := presentable_tokens tokens hchecked.2 0
            refine Guarantees.Triple.bind (B := fun _ _ => True)
              (triple_appendEvent ?_ hstable (fun _ => hstable) (fun _ _ _ _ _ _ _ => trivial)
                fun _ _ _ => trivial) ?_
            · rw [Int.natCast_zero, Int.add_zero] at hpresentable
              rwa [hbody, Body.Presentable]
            · intro answer
              cases answer with
              | ok u => exact triple_pure hstable fun _ => id
              | error e => exact triple_pure hstable fun _ => id

end triples

/-! ## Runs of the service -/

/-- Some call that presents the token passes every check of `Rotate`. -/
def Exchangeable (familyID : String) (hash : TokenHash) (d : Db) : Prop :=
  ∃ r state, r.presentedHash = hash ∧ refreshFamilyToken hash d = .ok state ∧
    state.familyID = familyID ∧ (permits r state).isSome = true

/-- A call for a token, by its enabled owner, in the last moment before its expiry. -/
def presenting (token : String) (state : RefreshFamilyToken) : RotateRequest where
  presented := token
  claims := some ⟨state.family.subject, 0⟩
  user := .ok ⟨0, false⟩
  now := state.token.expiresAt * second - 1
  elapsed := 0
  minted := none
  createdAt := 0
  revokedAt _ := 0
  backoffInterrupted _ := false
  rejectionInterrupted := false

theorem exchangeable_iff (hinv : ServiceInv d) {familyID : String} {family : FamilyRow}
    (hfamily : d.tables.families.find familyID = some family) (hlive : family.revoked = false)
    (hash : TokenHash) : Exchangeable familyID hash d ↔ hash = family.activeTokenHash := by
  constructor
  · intro h
    obtain ⟨r, state, hhash, hread, hid, hpermits⟩ := h
    obtain ⟨user, hpermits⟩ := Option.isSome_iff_exists.mp hpermits
    obtain ⟨-, -, -, hactive⟩ := permits_some hpermits
    obtain ⟨-, -, hfound⟩ := refreshFamilyToken_ok hread
    rw [hid, hfamily] at hfound
    cases hfound
    exact hhash.symm.trans hactive
  · rintro rfl
    obtain ⟨token, htoken, howner, hcurrent⟩ := hinv.families.active familyID family hfamily
    obtain ⟨family', hfamily', hread⟩ := hinv.refreshFamilyToken htoken
    rw [howner, hfamily] at hfamily'
    cases hfamily'
    obtain ⟨⟨text, htrimmed, hhash⟩, hexpires⟩ := hinv.presentable _ token htoken
    have hpresented : (presenting text ⟨token.familyID, family, token⟩).presentedHash =
        family.activeTokenHash := by
      rw [RotateRequest.presentedHash, presenting, htrimmed, hhash]
    have hvalid : validTime (token.expiresAt * second - 1) = true := by
      apply decide_eq_true
      simp only [unix, second]
      omega
    have hbefore : token.expiresAt * second - 1 < token.expiresAt * second := by omega
    refine ⟨presenting text ⟨token.familyID, family, token⟩, _, hpresented, hread, howner, ?_⟩
    rw [permits]
    simp only [activeAt, hpresented]
    simp [presenting, hlive, hcurrent, hvalid, hbefore]

theorem answered_lasting (p : Prop) (r : RotateRequest)
    (answer : Except RefreshError SessionTokens) :
    refreshGuarantees.Lasting (Answered p r answer) := by
  intro op d d' hinv hanswered hstores
  constructor
  · intro tokens h
    exact exchangedFor_lasting _ _ op d d' hinv (hanswered.exchanged tokens h) hstores
  · intro hp h
    exact contained_lasting _ op d d' hinv (hanswered.contained hp h) hstores

/-- What the answers of all calls say. -/
def ServicePost : refreshService.Op → Except RefreshError SessionTokens → Db → Prop
  | .startSession _, _, _ => True
  | .rotate r, answer, d => Answered False r answer d

theorem servicePost_lasting (op : refreshService.Op) (answer : Except RefreshError SessionTokens) :
    refreshGuarantees.Lasting (ServicePost op answer) := by
  cases op with
  | startSession r => exact fun _ _ _ _ _ _ => trivial
  | rotate r => exact answered_lasting False r answer

theorem triple_service (op : refreshService.Op) :
    refreshGuarantees.Triple op (fun _ => True) (refreshService.body op) (ServicePost op) := by
  cases op with
  | startSession r => exact triple_startSession r
  | rotate r => exact (triple_rotate False r).conseq (fun _ _ _ h => h.elim) fun _ _ _ h => h

/-- The database before the first session. -/
def emptyDb : Db := ⟨[], ∅, ∅⟩

theorem serviceInv_empty : ServiceInv emptyDb :=
  ⟨FamilyInv.empty, fun _ _ h => by cases h⟩

section runs

open Service

variable {as : List (Action refreshService)} {s s' : Sys refreshService}

/-- From a revocation on, the tokens of the family are never exchanged. -/
theorem exchanges_of_revoked (hs : (refreshGuarantees.contract ServicePost triple_service).Holds s)
    {familyID : String} (hrevoked : Revoked familyID s.state) (hrun : Service.run s as = some s') :
    ∀ hash, Belongs familyID hash s'.state →
      exchanges s'.state hash = exchanges s.state hash := by
  -- The family stays revoked and gains no token along the run.
  have hall : (refreshGuarantees.contract ServicePost triple_service).Holds s' ∧
      Revoked familyID s'.state ∧ ∀ hash, Belongs familyID hash s'.state →
        exchanges s'.state hash = exchanges s.state hash := by
    refine run_induction (P := fun s' =>
      (refreshGuarantees.contract ServicePost triple_service).Holds s' ∧
        Revoked familyID s'.state ∧ ∀ hash, Belongs familyID hash s'.state →
          exchanges s'.state hash = exchanges s.state hash) ?_ hrun
      ⟨hs, hrevoked, fun _ _ => rfl⟩
    intro s₁ a s₂ hprev hnext
    obtain ⟨hholds, hrevoked₁, hsame⟩ := hprev
    refine ⟨hholds.next hnext, ?_⟩
    have hstate : s₂.state = s₁.state ∨ ∃ e, acceptEvent registry s₁.state e = .ok s₂.state := by
      rcases Guarantees.next_guar hholds hnext with hstate | ⟨op, hstate | ⟨e, -, haccept⟩⟩
      · exact .inl hstate
      · exact .inl hstate
      · exact .inr ⟨e, haccept⟩
    rcases hstate with hstate | ⟨e, haccept⟩
    · rw [hstate]
      exact ⟨hrevoked₁, hsame⟩
    · refine ⟨accept_revoked haccept hrevoked₁, ?_⟩
      intro hash hbelongs
      rw [accept_exchanges_of_revoked haccept hrevoked₁ hbelongs]
      exact hsame hash (belongs_of_accept haccept hrevoked₁ hbelongs)
  exact hall.2.2

omit [TokenHashing] in
theorem Contained.revoked {hash : TokenHash} (h : Contained hash d) {familyID : String}
    (hbelongs : Belongs familyID hash d) : Revoked familyID d := by
  obtain ⟨familyID', ⟨token, hfind, howner⟩, hrevoked⟩ := h
  obtain ⟨token', hfind', howner'⟩ := hbelongs
  rw [hfind] at hfind'
  cases hfind'
  rwa [← howner', howner]

/-- In every run of concurrent calls: a token is exchanged for at most one
successor, which is the one that the call answered; a family that is not revoked
has exactly one token that a call can still exchange; a call that presents a
superseded token and answers the rejection has its family revoked; and no token
of a revoked family is exchanged afterwards. -/
theorem refresh_theft_containment
    (hrun : Service.run (Sys.init refreshService emptyDb) as = some s) :
    (∀ hash, (exchanges s.state hash).length ≤ 1) ∧
      (∀ i r tokens, s.sessions i = .ended (.rotate r) (.ok (.ok tokens)) →
        exchanges s.state r.presentedHash = [tokenHash tokens.refreshToken]) ∧
      (∀ familyID family, s.state.tables.families.find familyID = some family →
        family.revoked = false → ∃! hash, Exchangeable familyID hash s.state) ∧
      ∀ as' s', Service.run s as' = some s' →
        (∀ i r, s.sessions i = .running (.rotate r) (rotate r) →
          Superseded r.presentedHash s.state →
          s'.sessions i = .ended (.rotate r) (.ok (.error .rejected)) →
          ∀ familyID, Belongs familyID r.presentedHash s'.state → Revoked familyID s'.state) ∧
        (∀ familyID, Revoked familyID s.state → ∀ hash, Belongs familyID hash s'.state →
          exchanges s'.state hash = exchanges s.state hash) := by
  have hs : (refreshGuarantees.contract ServicePost triple_service).Holds s :=
    Guarantees.sound serviceInv_empty hrun
  have hinv : ServiceInv s.state := hs.inv
  refine ⟨hinv.families.once, ?_, ?_, ?_⟩
  · intro i r tokens hended
    have hpost := Guarantees.ended servicePost_lasting serviceInv_empty triple_service hrun hended
    exact hpost.exchanged tokens rfl
  · intro familyID family hfamily hlive
    have hiff := exchangeable_iff hinv hfamily hlive
    exact ⟨family.activeTokenHash, (hiff _).mpr rfl, fun hash h => (hiff hash).mp h⟩
  · intro as' s' hrun'
    refine ⟨?_, fun familyID hrevoked => exchanges_of_revoked hs hrevoked hrun'⟩
    intro i r hrunning hsuperseded hended familyID hbelongs
    have htriple : refreshGuarantees.Triple (.rotate r)
        (fun d => True → Superseded r.presentedHash d) (rotate r) (Answered True r) :=
      triple_rotate True r
    have hrest := htriple s.state hinv fun _ => hsuperseded
    have hanswered := Guarantees.resumed (answered_lasting True r) hs hrunning hrest hrun' hended
    exact (hanswered.contained trivial rfl).revoked hbelongs

end runs

end rotation

/-! ### A reused token -/

open Service (Action Sys)

attribute [local instance] TokenHashing.verbatim

def sampleFamily : String := "01K0QJ3E5E8R4M0D8EV3Y4N6J7"

def firstTokens : SessionTokens := ⟨"access", "first", by decide⟩

def secondTokens : SessionTokens := ⟨"access", "second", by decide⟩

def thirdTokens : SessionTokens := ⟨"access", "third", by decide⟩

def sampleStart : StartRequest where
  subject := "alice"
  now := 10 * second
  user := .ok ⟨1, false⟩
  familyID := some sampleFamily
  minted := some firstTokens
  createdAt := 10

/-- An exchange of the first token. -/
def sampleRotate (next : SessionTokens) : RotateRequest where
  presented := "first"
  claims := some ⟨"alice", 1⟩
  user := .ok ⟨1, false⟩
  now := 20 * second
  elapsed := 0
  minted := some next
  createdAt := 20
  revokedAt _ := 30
  backoffInterrupted _ := false
  rejectionInterrupted := false

/-- The first token is exchanged, and presented again by a call that has not begun. -/
def firstExchanged : List (Action refreshService) :=
  [.start (.startSession sampleStart), .step 0, .step 0,
    .start (.rotate (sampleRotate secondTokens)), .step 1, .step 1, .step 1,
    .start (.rotate (sampleRotate thirdTokens))]

/-- The second call reads the token twice, revokes the family and answers. -/
def firstReused : List (Action refreshService) :=
  [.step 2, .step 2, .step 2, .step 2]

theorem firstReused_revokes :
    ∃ s s', Service.run (Sys.init refreshService emptyDb) firstExchanged = some s ∧
      Service.run s firstReused = some s' ∧ Superseded (tokenHash "first") s.state ∧
      s'.sessions 2 = .ended (.rotate (sampleRotate thirdTokens)) (.ok (.error .rejected)) ∧
      (exchanges s'.state (tokenHash "first")).length = 1 ∧ Revoked sampleFamily s'.state := by
  have hsuperseded : ∃ s s', Service.run (Sys.init refreshService emptyDb) firstExchanged = some s ∧
      Service.run s firstReused = some s' ∧ Superseded (tokenHash "first") s.state ∧
      s.sessions 2 = .running (.rotate (sampleRotate thirdTokens))
        (rotate (sampleRotate thirdTokens)) ∧
      s'.sessions 2 = .ended (.rotate (sampleRotate thirdTokens)) (.ok (.error .rejected)) ∧
      (exchanges s'.state (tokenHash "first")).length = 1 ∧
      Belongs sampleFamily (tokenHash "first") s'.state :=
    ⟨_, _, rfl, rfl, ⟨⟨sampleFamily, 604810, true⟩, by decide, rfl⟩, rfl, rfl,
      by decide, ⟨sampleFamily, 604810, true⟩, by decide, rfl⟩
  obtain ⟨s, s', hrun, hrun', hfirst, hrunning, hended, hlength, hbelongs⟩ := hsuperseded
  obtain ⟨-, -, -, hlater⟩ := refresh_theft_containment hrun
  have hpresented : (sampleRotate thirdTokens).presentedHash = tokenHash "first" := by
    decide
  exact ⟨s, s', hrun, hrun', hfirst, hended, hlength,
    (hlater _ s' hrun').1 2 _ hrunning (hpresented ▸ hfirst) hended sampleFamily
      (hpresented ▸ hbelongs)⟩

end PowerManage.Auth
