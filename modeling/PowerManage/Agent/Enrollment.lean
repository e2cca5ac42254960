import PowerManage.Agent.Credentials
import PowerManage.Interaction.Script

/-!
# Enrolment and renewal on the agent

`Enroll` and `Renew` read the clock, the credential file, the sealing key kept
in memory and the answers of the server, and write the file and the key.  A
stored claim that the server has not acknowledged is repeated before a renewal.

The environment answers as the file store does; what the server answers is left
to a relation, so that it can be any server, honest or not.

Main results:

- `undisturbed_allowed`: surroundings in which nothing fails are among those
  considered.
-/

namespace PowerManage.Agent

open Interaction Pki Relational

/-! ## Messages -/

structure EnrollAgentRequest where
  registrationToken : String
  csrDER : Bytes
  sealingPublicKey : Bytes
  deriving DecidableEq, Repr

/-- What the client asks of its surroundings. -/
inductive Query where
  | now
  | load
  | create (bundle : CredentialBundle)
  | replace (bundle : CredentialBundle)
  | pendingRenewalSealingKey
  | setPendingRenewalSealingKey (key : Option SealingKey)
  | generateKey
  | generateSealingKey
  | enrollAgent (request : EnrollAgentRequest)
  | renewAgent (request : RenewAgentRequest)
  | confirmAgentTrustState (request : ConfirmTrustStateRequest)

/-- The answers; a call of the server may return an empty response. -/
abbrev Answer : Query → Type
  | .now => Int
  | .load => Except String CredentialBundle
  | .create _ => Except String Unit
  | .replace _ => Except String Unit
  | .pendingRenewalSealingKey => Option SealingKey
  | .setPendingRenewalSealingKey _ => Unit
  | .generateKey => Except String Signer
  | .generateSealingKey => Except String SealingKey
  | .enrollAgent _ => Except String (Option IdentityResponse)
  | .renewAgent _ => Except String (Option IdentityResponse)
  | .confirmAgentTrustState _ => Except String Unit

/-- Operations of the client. -/
abbrev AgentScript (α : Type) : Type := Script Query Answer String α

open Script

/-- `c.now`. -/
abbrev clock : AgentScript Int :=
  query Query.now

abbrev load : AgentScript (Except String CredentialBundle) :=
  query Query.load

abbrev replace (b : CredentialBundle) : AgentScript (Except String Unit) :=
  query (Query.replace b)

abbrev confirmAgentTrustState (request : ConfirmTrustStateRequest) :
    AgentScript (Except String Unit) :=
  query (Query.confirmAgentTrustState request)

abbrev pendingRenewalSealingKey : AgentScript (Option SealingKey) :=
  query Query.pendingRenewalSealingKey

/-- An assignment to `c.pendingRenewalSealingKey`. -/
abbrev setPendingRenewalSealingKey (key : Option SealingKey) : AgentScript Unit :=
  query (Query.setPendingRenewalSealingKey key)

/-! ## Confirmations -/

section client

variable [Sha256] (x : ClientX509)

/-- One round of the loop of `sendPendingConfirmations`: the bundle afterwards, and
the error if there was one. -/
def sendPending (claimed : CertificateClass) (b : CredentialBundle) :
    AgentScript (CredentialBundle × Option String) :=
  match b.pending claimed with
  | none => pure (b, none)
  | some pending =>
    match pendingTrustRequest x b claimed pending with
    | .error e =>
      pure (b, some ("enroll: validate pending " ++ claimed.text ++ " trust confirmation: " ++ e))
    | .ok request => do
        match ← confirmAgentTrustState request with
        | .error e => pure (b, some e)
        | .ok () =>
          match ← replace (b.clearPending claimed) with
          | .error e =>
            pure (b, some ("enroll: clear acknowledged " ++ claimed.text ++
              " trust confirmation: " ++ e))
          | .ok () => pure (b.clearPending claimed, none)

def sendPendingConfirmations (b : CredentialBundle) : AgentScript CredentialBundle := do
  let (b, agentErr) ← sendPending x .agent b
  -- The second claim is sent even if the first was refused.
  let (b, gatewayErr) ← sendPending x .gateway b
  match agentErr.or gatewayErr with
  | none => pure b
  | some e => .fail e

/-! ## Enrolment -/

def maxRegistrationTokenBytes : Nat := 512

/-- The bundle that `Enroll` stores for a response with published bundles. -/
def enrolledBundle (response : IdentityResponse) (key : Signer) (sealingKey : SealingKey)
    (pin : Option Fingerprint) (now : Int) : Except String CredentialBundle := do
  let agentTrust ← storedTrustBundle x response.agentTrustBundle
    response.certificateAuthorityDER .empty now
  let gatewayTrust ← storedTrustBundle x response.gatewayTrustBundle
    response.gatewayCertificateAuthorityDER .empty now
  validateSeparatedTrustBundles x agentTrust gatewayTrust
  if pin.any (· ≠ sha256 (agentTrust.rootCertificateDER.headD [])) then
    .error "enroll: certificate authority fingerprint mismatch"
  else do
    let issuingRoot ← selectIssuingRoot x response.certificateDER agentTrust
    let deviceID ← validateEnrollmentResponse x response.certificateDER issuingRoot
      key.publicKey none now
    let b : CredentialBundle :=
      { deviceID
        certificateDER := response.certificateDER
        certificateAuthorityDER := issuingRoot
        gatewayCertificateAuthorityDER := gatewayTrust.rootCertificateDER.headD []
        privateKey := key
        sealingPrivateKey := sealingKey
        agentTrustBundle := agentTrust
        gatewayTrustBundle := gatewayTrust
        pendingAgentTrustConfirmation := none
        pendingGatewayTrustConfirmation := none }
    let agentClaim ← newPendingTrustConfirmation x b .agent agentTrust
    let gatewayClaim ← newPendingTrustConfirmation x b .gateway gatewayTrust
    .ok { b with pendingAgentTrustConfirmation := some agentClaim,
                 pendingGatewayTrustConfirmation := some gatewayClaim }

/-- A bundle without published trust bundles. -/
def legacyBundle (deviceID : String) (response : IdentityResponse) (key : Signer)
    (sealingKey : SealingKey) : CredentialBundle where
  deviceID := deviceID
  certificateDER := response.certificateDER
  certificateAuthorityDER := response.certificateAuthorityDER
  gatewayCertificateAuthorityDER := response.gatewayCertificateAuthorityDER
  privateKey := key
  sealingPrivateKey := sealingKey
  agentTrustBundle := .empty
  gatewayTrustBundle := .empty
  pendingAgentTrustConfirmation := none
  pendingGatewayTrustConfirmation := none

def storeLegacyEnrollment (response : IdentityResponse) (key : Signer) (sealingKey : SealingKey)
    (pin : Option Fingerprint) : AgentScript String := do
  let now ← clock
  let deviceID ← ofExcept (validateEnrollmentResponse x response.certificateDER
    response.certificateAuthorityDER key.publicKey pin now)
  let now ← clock
  ofExcept (validateGatewayTrustAnchor x response.gatewayCertificateAuthorityDER
    response.certificateAuthorityDER now)
  asking ("enroll: store credentials: " ++ ·)
    (.create (legacyBundle deviceID response key sealingKey)) id
  pure deviceID

/-- The part of `Enroll` after the server has answered. -/
def storeEnrollment (response : Option IdentityResponse) (key : Signer) (sealingKey : SealingKey)
    (pin : Option Fingerprint) : AgentScript String :=
  match response with
  | none => .fail "enroll: PkiService returned an empty response"
  | some response =>
    if response.agentTrustBundle.isSome ≠ response.gatewayTrustBundle.isSome then
      .fail "enroll: agent and gateway CA bundles must be published atomically"
    else if response.agentTrustBundle.isNone then
      storeLegacyEnrollment x response key sealingKey pin
    else do
      let now ← clock
      let b ← ofExcept (enrolledBundle x response key sealingKey pin now)
      asking ("enroll: store credentials: " ++ ·) (.create b) id
      let b ← sendPendingConfirmations x b
      pure b.deviceID

/-- A fresh enrolment. -/
def enrollFresh (token fingerprint : String) : AgentScript String := do
  require (token ≠ "" && token.utf8ByteSize ≤ maxRegistrationTokenBytes)
    "enroll: registration token is invalid"
  let pin ← ofExcept (x.parseCAFingerprint fingerprint)
  let key ← asking ("enroll: generate mTLS private key: " ++ ·) .generateKey id
  let csrDER ← ofExcept ((x.createCSR key).mapError
    ("enroll: create certificate signing request: " ++ ·))
  let sealingKey ← asking ("enroll: generate sealing private key: " ++ ·) .generateSealingKey id
  let response ← asking ("enroll: PkiService enrollment: " ++ ·)
    (.enrollAgent ⟨token, csrDER, sealingKey.publicKey⟩) id
  storeEnrollment x response key sealingKey pin

/-- `Enroll`: the device ID.  Credentials with unacknowledged claims are not
enrolled again. -/
def enroll (token fingerprint : String) : AgentScript String := do
  match ← load with
  | .error _ => enrollFresh x token fingerprint
  | .ok existing =>
    if existing.certificateDER = [] then enrollFresh x token fingerprint
    else do
      let now ← clock
      ofExcept ((validateStoredCredentialBundle x existing now).mapError
        ("enroll: validate locally committed enrollment: " ++ ·))
      if existing.pendingAgentTrustConfirmation.isSome ||
          existing.pendingGatewayTrustConfirmation.isSome then do
        let b ← sendPendingConfirmations x existing
        pure b.deviceID
      else enrollFresh x token fingerprint

/-! ## Renewal -/

/-- The gateway claim of a renewal, which is made only for a new gateway bundle. -/
def renewedGatewayClaim (current b : CredentialBundle) :
    Except String (Option PendingTrustConfirmation) :=
  if current.gatewayTrustBundle = b.gatewayTrustBundle then .ok none
  else (newPendingTrustConfirmation x b .gateway b.gatewayTrustBundle).map some

/-- The bundle that `Renew` stores for a response with published bundles. -/
def renewedBundle (current : CredentialBundle) (sealingKey : SealingKey)
    (response : IdentityResponse) (now : Int) : Except String CredentialBundle := do
  let agentTrust ← (storedTrustBundle x response.agentTrustBundle
    response.certificateAuthorityDER current.agentTrustBundle now).mapError
      ("enroll: validate renewal agent trust bundle: " ++ ·)
  let gatewayTrust ← (storedTrustBundle x response.gatewayTrustBundle
    response.gatewayCertificateAuthorityDER current.gatewayTrustBundle now).mapError
      ("enroll: validate renewal gateway trust bundle: " ++ ·)
  validateSeparatedTrustBundles x agentTrust gatewayTrust
  let issuingRoot ← selectIssuingRoot x response.certificateDER agentTrust
  let deviceID ← (validateEnrollmentResponse x response.certificateDER issuingRoot
    current.privateKey.publicKey none now).mapError ("enroll: validate renewal response: " ++ ·)
  if deviceID ≠ current.deviceID then .error "enroll: renewed certificate device ID mismatch"
  else do
    let b : CredentialBundle :=
      { deviceID := current.deviceID
        certificateDER := response.certificateDER
        certificateAuthorityDER := issuingRoot
        gatewayCertificateAuthorityDER := gatewayTrust.rootCertificateDER.headD []
        privateKey := current.privateKey
        sealingPrivateKey := sealingKey
        agentTrustBundle := agentTrust
        gatewayTrustBundle := gatewayTrust
        pendingAgentTrustConfirmation := none
        pendingGatewayTrustConfirmation := none }
    let agentClaim ← newPendingTrustConfirmation x b .agent agentTrust
    let gatewayClaim ← renewedGatewayClaim x current b
    .ok { b with pendingAgentTrustConfirmation := some agentClaim,
                 pendingGatewayTrustConfirmation := gatewayClaim }

def replaceLegacyRenewal (current : CredentialBundle) (sealingKey : SealingKey)
    (response : IdentityResponse) : AgentScript Unit := do
  let now ← clock
  let deviceID ← ofExcept ((validateEnrollmentResponse x response.certificateDER
    response.certificateAuthorityDER current.privateKey.publicKey none now).mapError
      ("enroll: validate renewal response: " ++ ·))
  require (deviceID = current.deviceID) "enroll: renewed certificate device ID mismatch"
  require (response.certificateAuthorityDER = current.certificateAuthorityDER)
    "enroll: renewed certificate authority differs from enrolled authority"
  let now ← clock
  ofExcept ((validateGatewayTrustAnchor x response.gatewayCertificateAuthorityDER
    response.certificateAuthorityDER now).mapError
      ("enroll: validate renewal gateway certificate authority: " ++ ·))
  require (response.gatewayCertificateAuthorityDER = current.gatewayCertificateAuthorityDER)
    "enroll: renewed gateway certificate authority differs from enrolled authority"
  asking ("enroll: replace renewed credentials: " ++ ·)
    (.replace (legacyBundle current.deviceID response current.privateKey sealingKey)) id
  setPendingRenewalSealingKey none

/-- The part of `Renew` after the server has answered. -/
def storeRenewal (current : CredentialBundle) (sealingKey : SealingKey)
    (response : Option IdentityResponse) : AgentScript Unit :=
  match response with
  | none => .fail "enroll: PkiService returned an empty renewal response"
  | some response =>
    if response.agentTrustBundle.isSome ≠ response.gatewayTrustBundle.isSome then
      .fail "enroll: agent and gateway CA bundles must be published atomically"
    else if response.agentTrustBundle.isNone then
      if current.agentTrustBundle.generation ≠ 0 ∨ current.gatewayTrustBundle.generation ≠ 0 then
        .fail "enroll: renewal omitted previously adopted CA trust bundles"
      else replaceLegacyRenewal x current sealingKey response
    else do
      let now ← clock
      let b ← ofExcept (renewedBundle x current sealingKey response now)
      asking ("enroll: replace renewed credentials: " ++ ·) (.replace b) id
      setPendingRenewalSealingKey none
      let _ ← sendPendingConfirmations x b
      pure ()

/-- The sealing key of a renewal: the one that an earlier attempt left in memory, or
a fresh one, which is left there. -/
def renewalSealingKey : AgentScript SealingKey := do
  match ← pendingRenewalSealingKey with
  | some key => pure key
  | none => do
      let key ← asking ("enroll: generate renewed sealing private key: " ++ ·)
        .generateSealingKey id
      setPendingRenewalSealingKey (some key)
      pure key

/-- The part of `Renew` before the server is asked: the credentials, their claims
acknowledged. -/
def loadForRenewal : AgentScript CredentialBundle := do
  let current ← asking ("enroll: load credentials for renewal: " ++ ·) .load id
  let now ← clock
  ofExcept ((validateStoredCredentialBundle x current now).mapError
    ("enroll: validate credentials for renewal: " ++ ·))
  sendPendingConfirmations x current

def renew : AgentScript Unit := do
  let current ← loadForRenewal x
  let csrDER ← ofExcept ((x.createCSR current.privateKey).mapError
    ("enroll: create renewal certificate signing request: " ++ ·))
  let sealingKey ← renewalSealingKey
  let response ← asking ("enroll: PkiService renewal: " ++ ·)
    (.renewAgent ⟨current.certificateDER, csrDER, sealingKey.publicKey⟩) id
  storeRenewal x current sealingKey response

/-! ## The file store and the server -/

/-- What a server may answer in a state, and the state it leaves. -/
structure Remote (S : Type) where
  enrollAgent : S → EnrollAgentRequest → Except String (Option IdentityResponse) → S → Prop
  renewAgent : S → RenewAgentRequest → Except String (Option IdentityResponse) → S → Prop
  confirmAgentTrustState : S → ConfirmTrustStateRequest → Except String Unit → S → Prop

/-- The credential file, the sealing key in memory, and the server.  The last two
fields record what was ever stored, newest first, and every sealing key generated. -/
structure AgentState (S : Type) where
  disk : Option CredentialBundle
  pendingRenewalSealingKey : Option SealingKey
  remote : S
  history : List CredentialBundle
  generated : List SealingKey

namespace AgentState

variable {S : Type}

/-- An agent that was never enrolled. -/
def init (remote : S) : AgentState S :=
  ⟨none, none, remote, [], []⟩

/-- Write the credential file. -/
def store (s : AgentState S) (b : CredentialBundle) : AgentState S :=
  { s with disk := some b, history := b :: s.history }

/-- A restart forgets the sealing key in memory. -/
def crash (s : AgentState S) : AgentState S :=
  { s with pendingRenewalSealingKey := none }

end AgentState

variable {S : Type}

/-- A write of a bundle that the store has validated, where it may write.  It may
report an error after it has written the file. -/
def Writes (allowed : Prop) (b : CredentialBundle) (s : AgentState S) (a : Except String Unit)
    (s' : AgentState S) : Prop :=
  (s' = s ∧ a ≠ .ok ()) ∨
    (allowed ∧ s' = s.store b ∧ ∃ now, validateCredentialBundle x b now = .ok ())

/-- The surroundings of the client, with the `FileCredentialStore` and any server. -/
def agentEnv (R : Remote S) :
    (q : Query) → AgentState S → Answer q → AgentState S → Prop
  | .now, s, _, s' => s' = s
  | .load, s, a, s' =>
    s' = s ∧ ∀ b, a = .ok b →
      s.disk = some b ∧ ∃ now, validateStoredCredentialBundle x b now = .ok ()
  | .create b, s, a, s' => Writes x (s.disk = none) b s a s'
  | .replace b, s, a, s' => Writes x True b s a s'
  | .pendingRenewalSealingKey, s, a, s' => s' = s ∧ a = s.pendingRenewalSealingKey
  | .setPendingRenewalSealingKey key, s, _, s' =>
    s' = { s with pendingRenewalSealingKey := key }
  | .generateKey, s, _, s' => s' = s
  | .generateSealingKey, s, a, s' =>
    s' = { s with generated := (Except.toOption a).toList ++ s.generated }
  | .enrollAgent request, s, a, s' =>
    ∃ remote, R.enrollAgent s.remote request a remote ∧ s' = { s with remote }
  | .renewAgent request, s, a, s' =>
    ∃ remote, R.renewAgent s.remote request a remote ∧ s' = { s with remote }
  | .confirmAgentTrustState request, s, a, s' =>
    ∃ remote, R.confirmAgentTrustState s.remote request a remote ∧ s' = { s with remote }

/-- A server that answers in one way. -/
structure Server (S : Type) where
  enrollAgent : EnrollAgentRequest → S → Except String (Option IdentityResponse) × S
  renewAgent : RenewAgentRequest → S → Except String (Option IdentityResponse) × S
  confirmAgentTrustState : ConfirmTrustStateRequest → S → Except String Unit × S

/-- A server may answer as another does. -/
def Remote.Allows (R : Remote S) (server : Server S) : Prop :=
  (∀ request s, R.enrollAgent s request (server.enrollAgent request s).1
      (server.enrollAgent request s).2) ∧
    (∀ request s, R.renewAgent s request (server.renewAgent request s).1
      (server.renewAgent request s).2) ∧
    ∀ request s, R.confirmAgentTrustState s request (server.confirmAgentTrustState request s).1
      (server.confirmAgentTrustState request s).2

/-- A write that is not disturbed. -/
def write (allowed : Bool) (invalid refused : String) (now : Int) (b : CredentialBundle)
    (s : AgentState S) : Except String Unit × AgentState S :=
  match validateCredentialBundle x b now with
  | .error e => (.error (invalid ++ e), s)
  | .ok () => if allowed then (.ok (), s.store b) else (.error refused, s)

/-- Undisturbed surroundings: no read or write fails, no message is lost, and the
clock stands still during a call. -/
def undisturbed (server : Server S) (now : Int) (key : Signer) (fresh : SealingKey) :
    (q : Query) → AgentState S → Answer q × AgentState S
  | .now, s => (now, s)
  | .load, s =>
    (match s.disk with
      | none => .error "enroll: read credential bundle"
      | some b =>
        match validateStoredCredentialBundle x b now with
        | .error e => .error ("enroll: validate stored credential bundle: " ++ e)
        | .ok () => .ok b, s)
  | .create b, s =>
    write x s.disk.isNone "enroll: validate credential bundle: "
      "enroll: create credential bundle" now b s
  | .replace b, s =>
    write x true "enroll: validate renewed credential bundle: "
      "enroll: replace credential bundle" now b s
  | .pendingRenewalSealingKey, s => (s.pendingRenewalSealingKey, s)
  | .setPendingRenewalSealingKey key, s => ((), { s with pendingRenewalSealingKey := key })
  | .generateKey, s => (.ok key, s)
  | .generateSealingKey, s => (.ok fresh, { s with generated := fresh :: s.generated })
  | .enrollAgent request, s =>
    ((server.enrollAgent request s.remote).1,
      { s with remote := (server.enrollAgent request s.remote).2 })
  | .renewAgent request, s =>
    ((server.renewAgent request s.remote).1,
      { s with remote := (server.renewAgent request s.remote).2 })
  | .confirmAgentTrustState request, s =>
    ((server.confirmAgentTrustState request s.remote).1,
      { s with remote := (server.confirmAgentTrustState request s.remote).2 })

/-- The calls of the client. -/
inductive AgentOp where
  | enroll (token fingerprint : String)
  | renew
  deriving DecidableEq, Repr

/-- The client.  `Renew` holds `renewalMu`; the relay calls `Enroll` for each
connection, without a lock. -/
def agentProcess : Process Query Answer String (AgentState S) where
  Op := AgentOp
  body
    | .enroll token fingerprint => do
        let _ ← enroll x token fingerprint
        pure ()
    | .renew => renew x
  excludes op op' := op = .renew ∧ op' = .renew
  crash := AgentState.crash

variable {x}

theorem write_allowed {allowed : Bool} {P : Prop} (hP : allowed = true → P)
    (invalid refused : String) (now : Int) (b : CredentialBundle) (s : AgentState S) :
    Writes x P b s (write x allowed invalid refused now b s).1
      (write x allowed invalid refused now b s).2 := by
  unfold write
  split
  · exact .inl ⟨rfl, nofun⟩
  · rename_i hvalid
    split
    · rename_i hallowed
      exact .inr ⟨hP hallowed, rfl, now, hvalid⟩
    · exact .inl ⟨rfl, nofun⟩

/-- Undisturbed surroundings are among those considered. -/
theorem undisturbed_allowed {R : Remote S} {server : Server S} (hR : R.Allows server) (now : Int)
    (key : Signer) (fresh : SealingKey) (q : Query) (s : AgentState S) :
    agentEnv x R q s (undisturbed x server now key fresh q s).1
      (undisturbed x server now key fresh q s).2 := by
  cases q with
  | now => rfl
  | load =>
    refine ⟨rfl, fun b hb => ?_⟩
    simp only [undisturbed] at hb
    split at hb
    · cases hb
    · rename_i b' hdisk
      split at hb
      · cases hb
      · rename_i hvalid
        cases hb
        exact ⟨hdisk, now, hvalid⟩
  | create b => exact write_allowed Option.isNone_iff_eq_none.mp _ _ now b s
  | replace b => exact write_allowed (fun _ => trivial) _ _ now b s
  | pendingRenewalSealingKey => exact ⟨rfl, rfl⟩
  | setPendingRenewalSealingKey key => rfl
  | generateKey => rfl
  | generateSealingKey => rfl
  | enrollAgent request => exact ⟨_, hR.1 request s.remote, rfl⟩
  | renewAgent request => exact ⟨_, hR.2.1 request s.remote, rfl⟩
  | confirmAgentTrustState request => exact ⟨_, hR.2.2 request s.remote, rfl⟩

end client

end PowerManage.Agent
