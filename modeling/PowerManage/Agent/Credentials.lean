import PowerManage.Pki.TrustClaims

/-!
# The agent's credentials

The credential bundle that an agent stores, and the checks that it makes of a
response, of a bundle before it stores it, and of a bundle that it has loaded.
-/

namespace PowerManage.Agent

open Pki Relational

/-- An X25519 private key, by its public key. -/
structure SealingKey where
  publicKey : Bytes
  deriving DecidableEq, Repr

structure CredentialBundle where
  deviceID : String
  certificateDER : Bytes
  certificateAuthorityDER : Bytes
  gatewayCertificateAuthorityDER : Bytes
  privateKey : Signer
  sealingPrivateKey : SealingKey
  agentTrustBundle : TrustBundle
  gatewayTrustBundle : TrustBundle
  pendingAgentTrustConfirmation : Option PendingTrustConfirmation
  pendingGatewayTrustConfirmation : Option PendingTrustConfirmation
  deriving DecidableEq, Repr

namespace CredentialBundle

/-- The certificate authority of a class. -/
def authorityDER (b : CredentialBundle) : CertificateClass → Bytes
  | .agent => b.certificateAuthorityDER
  | .gateway => b.gatewayCertificateAuthorityDER

/-- The trust bundle of a class. -/
def trustBundle (b : CredentialBundle) : CertificateClass → TrustBundle
  | .agent => b.agentTrustBundle
  | .gateway => b.gatewayTrustBundle

/-- The unacknowledged claim about a class. -/
def pending (b : CredentialBundle) : CertificateClass → Option PendingTrustConfirmation
  | .agent => b.pendingAgentTrustConfirmation
  | .gateway => b.pendingGatewayTrustConfirmation

/-- Forget an acknowledged claim. -/
def clearPending (b : CredentialBundle) : CertificateClass → CredentialBundle
  | .agent => { b with pendingAgentTrustConfirmation := none }
  | .gateway => { b with pendingGatewayTrustConfirmation := none }

end CredentialBundle

/-- `agentCertificateLifetime`, in seconds. -/
def agentCertificateLifetime : Int := 365 * 24 * 3600

/-! ## Certificates of a response -/

section checks

variable [Sha256] (x : ClientX509)

/-- The profile of a certificate authority. -/
def isAuthority (c : Certificate) : Bool :=
  c.isCA && c.basicConstraintsValid && c.signsCertificates

/-- The profile of an agent certificate. -/
def isAgentProfile (c : LeafCertificate) : Bool :=
  !c.isCA && c.basicConstraintsValid && c.keyUsage &&& keyUsageDigitalSignature != 0 &&
    c.extKeyUsage == [.clientAuth] && c.notAfter - c.notBefore == agentCertificateLifetime

/-- `validateEnrollmentResponse`: the device ID. -/
def validateEnrollmentResponse (certificateDER authorityDER publicKey : Bytes)
    (pin : Option Fingerprint) (now : Int) : Except String String :=
  match x.parse authorityDER with
  | .error e => .error ("enroll: parse certificate authority: " ++ e)
  | .ok authority =>
    if ¬ isAuthority authority then
      .error "enroll: certificate authority has an invalid profile"
    else if ¬ authority.signingKey then .error "enroll: validate certificate authority key"
    else if ¬ authority.validAt now then
      .error "enroll: certificate authority is not currently valid"
    else if pin.any (· ≠ sha256 authorityDER) then
      .error "enroll: certificate authority fingerprint mismatch"
    else
      match x.parseLeaf certificateDER with
      | .error e => .error ("enroll: parse issued certificate: " ++ e)
      | .ok certificate =>
        if certificate.publicKey ≠ publicKey then
          .error "enroll: issued certificate public key mismatch"
        else
          match certificate.identity with
          | .error e => .error ("enroll: parse issued certificate identity: " ++ e)
          | .ok (cls, deviceID) =>
            if cls ≠ .agent then
              .error ("enroll: issued certificate class \"" ++ cls.text ++ "\" is not agent")
            else if ¬ isAgentProfile certificate then
              .error "enroll: issued certificate has an invalid agent profile"
            else if ¬ x.verifyChain .clientAuth "" certificateDER authorityDER now then
              .error "enroll: verify issued certificate"
            else .ok deviceID

/-- `validateGatewayTrustAnchor`, which all callers ask for a current one. -/
def validateGatewayTrustAnchor (gatewayDER agentDER : Bytes) (now : Int) : Except String Unit :=
  match x.parse gatewayDER with
  | .error e => .error ("enroll: parse gateway certificate authority: " ++ e)
  | .ok gatewayCA =>
    if ¬ isAuthority gatewayCA then
      .error "enroll: gateway certificate authority has an invalid profile"
    else if ¬ gatewayCA.signingKey then
      .error "enroll: validate gateway certificate authority key"
    else if ¬ gatewayCA.validAt now then
      .error "enroll: gateway certificate authority is not currently valid"
    else
      match x.parse agentDER with
      | .error e =>
        .error ("enroll: parse agent certificate authority for gateway separation: " ++ e)
      | .ok agentCA =>
        if gatewayDER = agentDER ∨ gatewayCA.publicKey = agentCA.publicKey then
          .error "enroll: agent and gateway certificate authorities are not distinct"
        else .ok ()

/-! ## Bundles of a response -/

/-- The bundle that a message publishes; without one, it has the legacy root alone. -/
def publishedBundle (message : Option CATrustBundle) (legacyRoot : Bytes)
    (current : TrustBundle) : Except String TrustBundle :=
  match message with
  | some message => .ok message.toTrustBundle
  | none =>
    if legacyRoot = [] then .error "enroll: CA root bundle is absent"
    else if current.generation = 0 then .ok ⟨1, 1, [legacyRoot], []⟩
    else .ok ⟨current.generation, current.revision, [legacyRoot], []⟩

def storedTrustBundle (message : Option CATrustBundle) (legacyRoot : Bytes)
    (current : TrustBundle) (now : Int) : Except String TrustBundle := do
  let bundle ← publishedBundle message legacyRoot current
  validateTrustBundle .agent x.toX509 now current bundle
  .ok bundle

/-- `selectIssuingRoot`: the first root that signed the certificate. -/
def selectIssuingRoot (certificateDER : Bytes) (bundle : TrustBundle) : Except String Bytes :=
  match x.parseLeaf certificateDER with
  | .error e => .error ("enroll: parse issued certificate: " ++ e)
  | .ok _ =>
    match bundle.rootCertificateDER.find? fun der =>
        (x.parse der).isOk && x.checkSignatureFrom certificateDER der with
    | some der => .ok der
    | none =>
      .error "enroll: issued certificate is not signed by the published agent root bundle"

def validateSeparatedTrustBundles (agent gateway : TrustBundle) : Except String Unit :=
  agent.rootCertificateDER.forM fun agentDER => do
    let agentRoot ← x.parse agentDER
    gateway.rootCertificateDER.forM fun gatewayDER => do
      let gatewayRoot ← x.parse gatewayDER
      if agentDER = gatewayDER ∨ agentRoot.publicKey = gatewayRoot.publicKey then
        .error "enroll: agent and gateway certificate authorities are not distinct"
      else .ok ()

/-! ## Stored bundles -/

/-- No bundle is stored. -/
def isAbsent (bundle : TrustBundle) : Bool :=
  bundle.generation == 0 && bundle.rootCertificateDER.isEmpty

def validateCredentialContinuity (b : CredentialBundle) (now : Int) : Except String Unit :=
  if isAbsent b.agentTrustBundle && isAbsent b.gatewayTrustBundle then
    if b.pendingAgentTrustConfirmation.isSome || b.pendingGatewayTrustConfirmation.isSome then
      .error "enroll: pending trust confirmation has no stored CA bundle"
    else .ok ()
  else if isAbsent b.agentTrustBundle || isAbsent b.gatewayTrustBundle then
    .error "enroll: agent and gateway CA bundles must be stored atomically"
  else do
    (validateTrustBundle .agent x.toX509 now .empty b.agentTrustBundle).mapError
      ("agent trust bundle: " ++ ·)
    (validateTrustBundle .agent x.toX509 now .empty b.gatewayTrustBundle).mapError
      ("gateway trust bundle: " ++ ·)
    if b.certificateAuthorityDER ∉ b.agentTrustBundle.rootCertificateDER then
      .error "enroll: active agent issuer is absent from the stored trust bundle"
    else if b.gatewayCertificateAuthorityDER ∉ b.gatewayTrustBundle.rootCertificateDER then
      .error "enroll: compatibility gateway root is absent from the stored trust bundle"
    else validateSeparatedTrustBundles x b.agentTrustBundle b.gatewayTrustBundle

/-- `newPendingTrustConfirmation`, which makes no claim about revocation lists. -/
def newPendingTrustConfirmation (b : CredentialBundle) (claimed : CertificateClass)
    (trust : TrustBundle) : Except String PendingTrustConfirmation :=
  newPendingConfirmation x .agent b.certificateDER b.privateKey claimed
    { trust with crlIssuerFingerprint := none, crlSequence := 0 }

def pendingTrustRequest (b : CredentialBundle) (claimed : CertificateClass)
    (pending : PendingTrustConfirmation) : Except String ConfirmTrustStateRequest :=
  pendingRequest x .agent b.certificateDER claimed pending

def validatePendingTrustConfirmations (b : CredentialBundle) : Except String Unit :=
  [CertificateClass.agent, .gateway].forM fun claimed =>
    match b.pending claimed with
    | none => .ok ()
    | some pending => (pendingTrustRequest x b claimed pending).map fun _ => ()

/-- The checks of the agent's own keys that both validations of a bundle begin with;
the nil checks hold by type. -/
def validatePrivateKey (b : CredentialBundle) : Except String Unit :=
  if ¬ b.privateKey.signingKey then .error "enroll: validate credential private key" else .ok ()

def validateCredentialBundle (b : CredentialBundle) (now : Int) : Except String Unit := do
  validatePrivateKey b
  let deviceID ← validateEnrollmentResponse x b.certificateDER b.certificateAuthorityDER
    b.privateKey.publicKey none now
  if deviceID ≠ b.deviceID then .error "enroll: credential bundle device ID mismatch"
  else do
    validateGatewayTrustAnchor x b.gatewayCertificateAuthorityDER b.certificateAuthorityDER now
    (x.validateX25519PublicKey b.sealingPrivateKey.publicKey).mapError
      ("enroll: validate sealing private key: " ++ ·)
    validateCredentialContinuity x b now
    (validatePendingTrustConfirmations x b).mapError
      ("enroll: pending trust confirmation is invalid: " ++ ·)

/-- The checks of `validateStoredCredentialBundle` on the stored certificate. -/
def validateStoredCertificate (b : CredentialBundle) : Except String Unit :=
  match x.parseLeaf b.certificateDER with
  | .error e => .error ("enroll: parse stored certificate: " ++ e)
  | .ok certificate =>
    if certificate.publicKey ≠ b.privateKey.publicKey then
      .error "enroll: stored certificate public key mismatch"
    else
      match certificate.identity with
      | .error e => .error ("enroll: parse stored certificate identity: " ++ e)
      | .ok (cls, deviceID) =>
        if cls ≠ .agent ∨ deviceID ≠ b.deviceID then
          .error "enroll: stored certificate identity mismatch"
        else if ¬ isAgentProfile certificate then
          .error "enroll: stored certificate has an invalid agent profile"
        else if ¬ x.checkSignatureFrom b.certificateDER b.certificateAuthorityDER then
          .error "enroll: verify stored certificate authority"
        else .ok ()

/-- `validateStoredCredentialBundle`, which accepts an expired certificate. -/
def validateStoredCredentialBundle (b : CredentialBundle) (now : Int) : Except String Unit :=
  if now = zeroTime then .error "enroll: stored credential validation clock is zero"
  else do
    validatePrivateKey b
    match x.parse b.certificateAuthorityDER with
    | .error e => .error ("enroll: parse stored certificate authority: " ++ e)
    | .ok authority =>
      if ¬ isAuthority authority then
        .error "enroll: stored certificate authority has an invalid profile"
      else if ¬ authority.signingKey then
        .error "enroll: validate stored certificate authority key"
      else do
        validateGatewayTrustAnchor x b.gatewayCertificateAuthorityDER b.certificateAuthorityDER
          now
        validateStoredCertificate x b
        (x.validateX25519PublicKey b.sealingPrivateKey.publicKey).mapError
          ("enroll: validate stored sealing private key: " ++ ·)
        validateCredentialContinuity x b now

end checks

end PowerManage.Agent
