import PowerManage.Pki.TrustClaims

/-!
# Renewals of a gateway

A gateway records, with the agent roots, the issuer and the sequence number of the revocation
list that it must enforce.  Whatever it is answered, it checks the number only against the
record that it holds, and only if the version of the roots is the same.

Main results:

- `renew_adopts`: what one renewal does to the record.
- `crl_sequence_monotone`: over all renewals whose answers respect the numbers
  recorded before them, numbers never decrease for an issuer.
-/

namespace PowerManage.Gateway

open Pki Relational

/-- `gatewayCertificateLifetime`, in seconds. -/
def gatewayCertificateLifetime : Int := 45 * 24 * 3600

structure Identity where
  gatewayID : String
  certificateDER : Bytes
  certificateAuthorityDER : Bytes
  dnsNames : List String
  privateKey : Signer
  agentTrustBundle : CATrustBundle
  gatewayTrustBundle : CATrustBundle
  pendingAgentTrustConfirmation : Option PendingTrustConfirmation
  pendingGatewayTrustConfirmation : Option PendingTrustConfirmation
  deriving DecidableEq, Repr

/-- The unacknowledged claim about a class. -/
def Identity.pending (value : Identity) : CertificateClass → Option PendingTrustConfirmation
  | .agent => value.pendingAgentTrustConfirmation
  | .gateway => value.pendingGatewayTrustConfirmation

structure RenewGatewayResponse where
  certificateDER : Bytes
  agentTrustBundle : Option CATrustBundle
  gatewayTrustBundle : Option CATrustBundle
  deriving DecidableEq, Repr

/-! ## Checks -/

section checks

variable [Sha256] (x : ClientX509) (expectedDNSNames : List String) (now : Int)

def exactGatewayEKUs (usages : List ExtKeyUsage) : Bool :=
  usages.length == 2 && usages.contains .serverAuth && usages.contains .clientAuth

/-- The part of the leaf's profile that both checks of it make. -/
def isGatewayProfile (c : LeafCertificate) : Bool :=
  !c.isCA && c.basicConstraintsValid && c.keyUsage &&& keyUsageDigitalSignature != 0 &&
    c.notAfter - c.notBefore == gatewayCertificateLifetime && exactGatewayEKUs c.extKeyUsage

/-- `validateEnrollmentResponse`: the gateway ID. -/
def validateEnrollmentResponse (certificateDER authorityDER publicKey : Bytes) :
    Except String String :=
  match x.parse authorityDER with
  | .error e => .error ("gateway: parse certificate authority: " ++ e)
  | .ok authority =>
    if ¬ (authority.isCA && authority.basicConstraintsValid && authority.signsCertificates) then
      .error "gateway: certificate authority profile is invalid"
    else if ¬ authority.signingKey then .error "gateway: validate certificate authority key"
    else if ¬ authority.validAt now then
      .error "gateway: certificate authority is not currently valid"
    else
      match x.parseLeaf certificateDER with
      | .error e => .error ("gateway: parse issued certificate: " ++ e)
      | .ok certificate =>
        if certificate.publicKey ≠ publicKey then
          .error "gateway: issued certificate public key mismatch"
        else
          match certificate.identity with
          | .ok (.gateway, gatewayID) =>
            if ¬ isGatewayProfile certificate ∨ certificate.unknownExtKeyUsage ≠ 0 ∨
                certificate.emailAddresses ≠ 0 ∨ certificate.ipAddresses ≠ 0 then
              .error "gateway: issued certificate profile is invalid"
            else do
              certificate.dnsAndURISANs.mapError
                ("gateway: issued certificate profile is invalid: " ++ ·)
              if certificate.dnsNames ≠ expectedDNSNames then
                .error "gateway: issued certificate DNS names differ from configured identity"
              else if ¬ x.verifyChain .serverAuth (expectedDNSNames.headD "") certificateDER
                  authorityDER now then
                .error "gateway: verify issued certificate"
              else .ok gatewayID
          | _ => .error "gateway: issued certificate identity is not gateway"

/-- `validateRenewedGatewayCertificate`: the root that issued the certificate. -/
def validateRenewedGatewayCertificate (certificateDER : Bytes) (key : Signer)
    (expectedGatewayID : String) (bundle : TrustBundle) : Except String Bytes :=
  match x.parseLeaf certificateDER with
  | .error e => .error ("gateway: parse issued certificate: " ++ e)
  | .ok certificate =>
    if certificate.publicKey ≠ key.publicKey then
      .error "gateway: issued certificate public key mismatch"
    else
      match certificate.identity with
      | .error e => .error ("gateway: issued certificate identity is invalid: " ++ e)
      | .ok (cls, gatewayID) =>
        if cls ≠ .gateway then .error "gateway: issued certificate class is not gateway"
        else if gatewayID ≠ expectedGatewayID then
          .error "gateway: issued certificate identity changed"
        else if now < certificate.notBefore then
          .error "gateway: issued certificate is not yet valid"
        else if certificate.notAfter < now then .error "gateway: issued certificate is expired"
        else if ¬ isGatewayProfile certificate then
          .error "gateway: issued certificate usage or profile is invalid"
        else do
          certificate.dnsAndURISANs.mapError
            ("gateway: issued certificate profile is invalid: " ++ ·)
          if certificate.dnsNames ≠ expectedDNSNames then
            .error "gateway: issued certificate DNS names differ from configured identity"
          else
            match bundle.rootCertificateDER.find? fun der =>
                (x.parse der).isOk && x.checkSignatureFrom certificateDER der with
            | some der => .ok der
            | none => .error ("gateway: issued certificate issuer is outside the published " ++
                "gateway root bundle")

def validateGatewayCRLReceipt (bundle : CATrustBundle) (required : Bool) : Except String Unit :=
  let hasIssuer := bundle.crlIssuerFingerprint.isSome
  if hasIssuer ≠ (bundle.crlSequence != 0) then
    .error "gateway: agent CRL receipt requires an exact issuer fingerprint and sequence"
  else if required && !hasIssuer then
    .error "gateway: agent trust bundle is missing its CRL receipt"
  else if !required && hasIssuer then
    .error "gateway: gateway trust bundle carries a forbidden CRL receipt"
  else .ok ()

/-- The issuer of the receipt is one of the roots. -/
def IssuerPublished (bundle : CATrustBundle) : Prop :=
  ∃ root ∈ bundle.rootCertificateDER, bundle.crlIssuerFingerprint = some (sha256 root)

instance (bundle : CATrustBundle) : Decidable (IssuerPublished bundle) :=
  inferInstanceAs (Decidable (∃ _ ∈ _, _))

def validateGatewayCRLIssuerPublished (bundle : CATrustBundle) : Except String Unit :=
  if ¬ IssuerPublished bundle then
    .error "gateway: agent CRL issuer is absent from the published root bundle"
  else .ok ()

/-- Both bundles have the same version. -/
def SameVersion (current next : CATrustBundle) : Prop :=
  current.generation = next.generation ∧ current.revision = next.revision

instance (current next : CATrustBundle) : Decidable (SameVersion current next) :=
  inferInstanceAs (Decidable (_ ∧ _))

def gatewayStoredTrustBundle (message current : CATrustBundle) : Except String CATrustBundle := do
  validateTrustBundle .gateway x.toX509 now current.toTrustBundle message.toTrustBundle
  if SameVersion current message ∧ current.crlIssuerFingerprint.isSome then
    if current.crlIssuerFingerprint ≠ message.crlIssuerFingerprint then
      .error "crl issuer changed without a trust-bundle version change"
    else if message.crlSequence < current.crlSequence then .error "crl sequence rollback"
    else .ok message
  else .ok message

/-- `validateCurrentGatewayIdentity`; the key is there by type. -/
def validateCurrentGatewayIdentity (value : Identity) : Except String Unit :=
  if value.gatewayID = "" ∨ value.dnsNames ≠ expectedDNSNames then
    .error "gateway identity does not match configured identity"
  else do
    let _ ← validateEnrollmentResponse x expectedDNSNames now value.certificateDER
      value.certificateAuthorityDER value.privateKey.publicKey
    (validateTrustBundle .gateway x.toX509 now .empty value.agentTrustBundle.toTrustBundle).mapError
      ("agent trust bundle: " ++ ·)
    (validateTrustBundle .gateway x.toX509 now .empty
      value.gatewayTrustBundle.toTrustBundle).mapError ("gateway trust bundle: " ++ ·)
    validateGatewayCRLReceipt value.agentTrustBundle true
    validateGatewayCRLReceipt value.gatewayTrustBundle false
    [CertificateClass.agent, .gateway].forM fun claimed =>
      match value.pending claimed with
      | none => .ok ()
      | some pending =>
        ((pendingRequest x .gateway value.certificateDER claimed pending).map fun _ =>
          ()).mapError (("pending " ++ claimed.text ++ " confirmation: ") ++ ·)

end checks

/-! ## Renewals -/

/-- What the server and the publisher answer while claims are sent. -/
structure Confirming where
  confirm : CertificateClass → Except String Unit
  publish : Except String Unit

/-- The clock, and what the server and the publisher answer, during one renewal. -/
structure Round where
  now : Int
  before : Confirming
  response : Except String (Option RenewGatewayResponse)
  received : Int
  publish : Except String Unit
  after : Confirming

section renewals

variable [Sha256] (x : ClientX509) (expectedDNSNames : List String)

/-- `resumeGatewayConfirmations`: all claims are sent before the first failure counts. -/
def resumeGatewayConfirmations (answers : Confirming) (value : Identity) : Except String Identity :=
  let claims := [CertificateClass.gateway, .agent].filter fun claimed =>
    (value.pending claimed).isSome
  do
    claims.forM fun claimed =>
      match value.pending claimed with
      | none => .ok ()
      | some pending =>
        ((pendingRequest x .gateway value.certificateDER claimed pending).map fun _ =>
          ()).mapError (("gateway: validate pending " ++ claimed.text ++
            " trust confirmation: ") ++ ·)
    if claims = [] then .ok value
    else do
      claims.forM answers.confirm
      answers.publish.mapError ("gateway: clear acknowledged trust confirmations: " ++ ·)
      .ok { value with
            pendingAgentTrustConfirmation := none
            pendingGatewayTrustConfirmation := none }

/-- The part of `Renew` from the request to the new identity. -/
def replacement (round : Round) (current : Identity) : Except String Identity := do
  let _ ← (x.createCSR current.privateKey).mapError
    ("gateway: create renewal certificate signing request: " ++ ·)
  match ← round.response.mapError ("gateway: PkiService renewal: " ++ ·) with
  | none => .error "gateway: PkiService returned an empty renewal response"
  | some response =>
    match response.agentTrustBundle, response.gatewayTrustBundle with
    | none, _ => .error "gateway: renewal response is missing the agent trust bundle"
    | _, none => .error "gateway: renewal response is missing the gateway trust bundle"
    | some agentMessage, some gatewayMessage =>
      let agentTrust ← (gatewayStoredTrustBundle x round.received agentMessage
        current.agentTrustBundle).mapError ("gateway: validate agent trust bundle: " ++ ·)
      validateGatewayCRLReceipt agentTrust true
      validateGatewayCRLIssuerPublished agentTrust
      let gatewayTrust ← (gatewayStoredTrustBundle x round.received gatewayMessage
        current.gatewayTrustBundle).mapError ("gateway: validate gateway trust bundle: " ++ ·)
      validateGatewayCRLReceipt gatewayTrust false
      let issuerDER ← validateRenewedGatewayCertificate x expectedDNSNames round.received
        response.certificateDER current.privateKey current.gatewayID gatewayTrust.toTrustBundle
      let gatewayClaim ← newPendingConfirmation x .gateway response.certificateDER
        current.privateKey .gateway gatewayTrust
      let agentClaim ← newPendingConfirmation x .gateway response.certificateDER
        current.privateKey .agent agentTrust
      .ok { current with
            certificateDER := response.certificateDER
            certificateAuthorityDER := issuerDER
            dnsNames := expectedDNSNames
            agentTrustBundle := agentTrust
            gatewayTrustBundle := gatewayTrust
            pendingAgentTrustConfirmation := some agentClaim
            pendingGatewayTrustConfirmation := some gatewayClaim }

/-- `Renew`: the identity that is kept, and the error. -/
def renew (round : Round) (current : Identity) : Identity × Except String Unit :=
  match validateCurrentGatewayIdentity x expectedDNSNames round.now current with
  | .error e => (current, .error ("gateway: validate current identity: " ++ e))
  | .ok () =>
    match resumeGatewayConfirmations x round.before current with
    | .error e => (current, .error e)
    | .ok current =>
      match replacement x expectedDNSNames round current with
      | .error e => (current, .error e)
      | .ok next =>
        match round.publish with
        | .error e =>
          (current, .error ("gateway: publish renewed serving identity: " ++ e))
        | .ok () =>
          match resumeGatewayConfirmations x round.after next with
          | .error e => (next, .error e)
          | .ok cleared => (cleared, .ok ())

/-- The agent bundles that a gateway records over some renewals, from the first one on. -/
def recorded : List Round → Identity → List CATrustBundle
  | [], current => [current.agentTrustBundle]
  | round :: rest, current =>
    current.agentTrustBundle :: recorded rest (renew x expectedDNSNames round current).1

/-! ## What one renewal records -/

/-- The agent bundle that the server answers. -/
def Round.agentMessage (round : Round) : Option CATrustBundle :=
  match round.response with
  | .ok (some response) => response.agentTrustBundle
  | _ => none

/-- A new record: it was answered, is published with its issuer, and goes on from one of the
same version. -/
structure Adopts (round : Round) (current next : CATrustBundle) : Prop where
  answered : round.agentMessage = some next
  published : IssuerPublished next
  sameVersion : SameVersion current next →
    current.crlIssuerFingerprint = next.crlIssuerFingerprint ∧
      current.crlSequence ≤ next.crlSequence

variable {x expectedDNSNames} {round : Round} {current next : Identity}

/-- Sending claims leaves the record alone. -/
theorem resumeGatewayConfirmations_bundle {answers : Confirming}
    (h : resumeGatewayConfirmations x answers current = .ok next) :
    next.agentTrustBundle = current.agentTrustBundle := by
  simp only [resumeGatewayConfirmations, check_bind_eq_ok] at h
  obtain ⟨-, h⟩ := h
  split at h
  · cases h
    rfl
  · simp only [check_bind_eq_ok] at h
    obtain ⟨-, -, h⟩ := h
    cases h
    rfl

omit [Sha256] in
/-- A required receipt is there. -/
theorem validateGatewayCRLReceipt_required {bundle : CATrustBundle}
    (h : validateGatewayCRLReceipt bundle true = .ok ()) :
    bundle.crlIssuerFingerprint.isSome = true := by
  simp only [validateGatewayCRLReceipt, ite_error_eq_ok] at h
  simpa [Option.isSome_iff_ne_none] using h.2.1

omit [Sha256] in
/-- The bundle that is stored is the one received, and goes on from one of the same version. -/
theorem gatewayStoredTrustBundle_ok {now : Int} {message current next : CATrustBundle}
    (hcurrent : current.crlIssuerFingerprint.isSome = true)
    (h : gatewayStoredTrustBundle x now message current = .ok next) :
    message = next ∧ (SameVersion current next →
      current.crlIssuerFingerprint = next.crlIssuerFingerprint ∧
        current.crlSequence ≤ next.crlSequence) := by
  simp only [gatewayStoredTrustBundle, check_bind_eq_ok] at h
  obtain ⟨-, h⟩ := h
  split at h
  · simp only [ite_error_eq_ok, not_not, not_lt] at h
    obtain ⟨hissuer, hsequence, h⟩ := h
    cases h
    exact ⟨rfl, fun _ => ⟨hissuer, hsequence⟩⟩
  · rename_i hnot
    cases h
    exact ⟨rfl, fun hsame => absurd ⟨hsame, hcurrent⟩ hnot⟩

/-- A replacement adopts the agent bundle of the answer. -/
theorem replacement_adopts (hcurrent : current.agentTrustBundle.crlIssuerFingerprint.isSome = true)
    (h : replacement x expectedDNSNames round current = .ok next) :
    Adopts round current.agentTrustBundle next.agentTrustBundle := by
  simp only [replacement, bind_eq_ok, mapError_eq_ok] at h
  obtain ⟨_, -, response, hresponse, h⟩ := h
  split at h
  · cases h
  · split at h
    · cases h
    · cases h
    · rename_i message _ hmessage _
      simp only [bind_eq_ok, mapError_eq_ok] at h
      obtain ⟨agentTrust, hagent, _, -, _, hpublished, _, -, _, -, _, -, _, -, _, -, h⟩ := h
      cases h
      obtain ⟨rfl, hversion⟩ := gatewayStoredTrustBundle_ok hcurrent hagent
      refine ⟨by simp [Round.agentMessage, hresponse, hmessage], ?_, hversion⟩
      simp only [validateGatewayCRLIssuerPublished, ite_error_eq_ok, not_not] at hpublished
      exact hpublished.1

/-- A renewal leaves the record as it is, or adopts a new one. -/
theorem renew_adopts (x : ClientX509) (expectedDNSNames : List String) (round : Round)
    (current : Identity) :
    (renew x expectedDNSNames round current).1.agentTrustBundle = current.agentTrustBundle ∨
      Adopts round current.agentTrustBundle
        (renew x expectedDNSNames round current).1.agentTrustBundle := by
  unfold renew
  split
  · exact .inl rfl
  · rename_i hvalid
    split
    · exact .inl rfl
    · rename_i resumed hresume
      have hbundle := resumeGatewayConfirmations_bundle hresume
      split
      · exact .inl hbundle
      · rename_i next hnext
        have hreceipt : resumed.agentTrustBundle.crlIssuerFingerprint.isSome = true := by
          simp only [validateCurrentGatewayIdentity, ite_error_eq_ok, bind_eq_ok] at hvalid
          obtain ⟨-, _, -, _, -, _, -, _, hreceipt, -⟩ := hvalid
          rw [hbundle]
          exact validateGatewayCRLReceipt_required hreceipt
        have hadopts := replacement_adopts hreceipt hnext
        rw [hbundle] at hadopts
        split
        · exact .inl hbundle
        · split
          · exact .inr hadopts
          · rename_i cleared hcleared
            rw [resumeGatewayConfirmations_bundle hcleared]
            exact .inr hadopts

/-! ## Over all renewals -/

/-- The number recorded for an issuer never decreases. -/
def NeverDecreases (bundles : List CATrustBundle) : Prop :=
  bundles.Pairwise fun earlier later =>
    earlier.crlIssuerFingerprint = later.crlIssuerFingerprint →
      earlier.crlSequence ≤ later.crlSequence

/-- No record of the issuer has a larger number. -/
def NoneAbove (records : List CATrustBundle) (bundle : CATrustBundle) : Prop :=
  ∀ b ∈ records, b.crlIssuerFingerprint = bundle.crlIssuerFingerprint →
    b.crlSequence ≤ bundle.crlSequence

/-- Every answer whose version is not that of the record it meets carries a number that is
no smaller than any recorded for its issuer before; `earlier` are the records before the
current one. -/
def AnswersRespect (x : ClientX509) (expectedDNSNames : List String) :
    List CATrustBundle → List Round → Identity → Prop
  | _, [], _ => True
  | earlier, round :: rest, current =>
    (∀ message, round.agentMessage = some message →
      ¬ SameVersion current.agentTrustBundle message →
        NoneAbove (current.agentTrustBundle :: earlier) message) ∧
    AnswersRespect x expectedDNSNames (current.agentTrustBundle :: earlier) rest
      (renew x expectedDNSNames round current).1

/-- One renewal: if no earlier record is above the current one, none is above the next. -/
theorem renew_noneAbove {earlier : List CATrustBundle}
    (hcurrent : NoneAbove earlier current.agentTrustBundle)
    (hanswer : ∀ message, round.agentMessage = some message →
      ¬ SameVersion current.agentTrustBundle message →
        NoneAbove (current.agentTrustBundle :: earlier) message) :
    NoneAbove (current.agentTrustBundle :: earlier)
      (renew x expectedDNSNames round current).1.agentTrustBundle := by
  rcases renew_adopts x expectedDNSNames round current with hsame | hadopts
  · rw [hsame]
    exact List.forall_mem_cons.mpr ⟨fun _ => Nat.le_refl _, hcurrent⟩
  · by_cases hversion : SameVersion current.agentTrustBundle
        (renew x expectedDNSNames round current).1.agentTrustBundle
    · -- The receipt check carries what was known of the current record over to the next.
      obtain ⟨hissuer, hsequence⟩ := hadopts.sameVersion hversion
      refine List.forall_mem_cons.mpr ⟨fun _ => hsequence, fun b hb hsame => ?_⟩
      exact Nat.le_trans (hcurrent b hb (hsame.trans hissuer.symm)) hsequence
    · exact hanswer _ hadopts.answered hversion

/-- All renewals: the records are in order among themselves and after the earlier ones. -/
theorem recorded_neverDecreases {earlier : List CATrustBundle} {rounds : List Round}
    (hcurrent : NoneAbove earlier current.agentTrustBundle)
    (hanswers : AnswersRespect x expectedDNSNames earlier rounds current) :
    NeverDecreases (recorded x expectedDNSNames rounds current) ∧
      ∀ b ∈ recorded x expectedDNSNames rounds current, NoneAbove earlier b := by
  induction rounds generalizing earlier current with
  | nil => exact ⟨List.pairwise_singleton _ _, by simpa [recorded] using hcurrent⟩
  | cons round rounds ih =>
    obtain ⟨horder, hlater⟩ := ih (renew_noneAbove hcurrent hanswers.1) hanswers.2
    simp only [NoneAbove, List.forall_mem_cons] at hlater
    refine ⟨List.pairwise_cons.mpr ⟨fun b hb => (hlater b hb).1, horder⟩, ?_⟩
    exact List.forall_mem_cons.mpr ⟨hcurrent, fun b hb => (hlater b hb).2⟩

end renewals

/-- Over all renewals: numbers never decrease for an issuer if every answer of a new version
respects the numbers recorded before it; and, whatever is answered, all records after the first
one name one of their own roots as issuer. -/
theorem crl_sequence_monotone [Sha256] (x : ClientX509) (expectedDNSNames : List String)
    (rounds : List Round) (first : Identity) :
    (AnswersRespect x expectedDNSNames [] rounds first →
      NeverDecreases (recorded x expectedDNSNames rounds first)) ∧
    ∀ b ∈ recorded x expectedDNSNames rounds first,
      b = first.agentTrustBundle ∨ IssuerPublished b := by
  refine ⟨fun h => (recorded_neverDecreases (List.forall_mem_nil _) h).1, ?_⟩
  induction rounds generalizing first with
  | nil => exact fun b hb => .inl (List.mem_singleton.mp hb)
  | cons round rounds ih =>
    intro b hb
    rcases List.mem_cons.mp hb with rfl | hb
    · exact .inl rfl
    · rcases ih _ b hb with rfl | hpublished
      · rcases renew_adopts x expectedDNSNames round first with heq | hadopts
        · exact .inl heq
        · exact .inr hadopts.published
      · exact .inr hpublished

/-! ## A decrease -/

/-- The sample encoding, whose leaves are certificates of one gateway. -/
def sampleGatewayX509 : ClientX509 :=
  { sampleClientX509 with
    parseLeaf := fun
      | [0, serial, _, key] => .ok { sampleDeviceCertificate serial key with
          identity := .ok (.gateway, sampleInstance)
          extKeyUsage := [.serverAuth, .clientAuth]
          dnsNames := ["gateway"]
          notAfter := gatewayCertificateLifetime }
      | _ => .error "malformed certificate" }

attribute [local instance] Sha256.verbatim

/-- An agent bundle whose list is issued by the root of key 1. -/
def sampleBundle (version : UInt64) (roots : List Bytes) (proof : Bytes) (sequence : Nat) :
    CATrustBundle where
  generation := version
  revision := 1
  rootCertificateDER := roots
  transitionCertificateDER := proof
  crlIssuerFingerprint := some (sha256 [1])
  crlSequence := sequence

/-- The bundle of gateway roots. -/
def sampleGatewayBundle : CATrustBundle :=
  ⟨⟨1, 1, [[3]], []⟩, none, 0⟩

def sampleIdentity : Identity where
  gatewayID := sampleInstance
  certificateDER := sampleLeafDER 1 3 4
  certificateAuthorityDER := [3]
  dnsNames := ["gateway"]
  privateKey := sampleSigner 4
  agentTrustBundle := sampleBundle 1 [[1]] [] 5
  gatewayTrustBundle := sampleGatewayBundle
  pendingAgentTrustConfirmation := none
  pendingGatewayTrustConfirmation := none

/-- Everything is answered, the renewal with a new generation of agent roots. -/
def sampleRound (sequence : Nat) : Round where
  now := 5
  before := ⟨fun _ => .ok (), .ok ()⟩
  response := .ok (some ⟨sampleLeafDER 2 3 4, some (sampleBundle 2 [[1], [2]] [1, 2] sequence),
    some sampleGatewayBundle⟩)
  received := 5
  publish := .ok ()
  after := ⟨fun _ => .ok (), .ok ()⟩

/-- An answer of a new generation that goes on from number 5 is adopted with its number. -/
theorem crl_sequence_monotone_generation :
    recorded sampleGatewayX509 ["gateway"] [sampleRound 6] sampleIdentity =
      [sampleBundle 1 [[1]] [] 5, sampleBundle 2 [[1], [2]] [1, 2] 6] ∧
    NeverDecreases (recorded sampleGatewayX509 ["gateway"] [sampleRound 6] sampleIdentity) := by
  refine ⟨by decide, (crl_sequence_monotone sampleGatewayX509 ["gateway"] [sampleRound 6]
    sampleIdentity).1 ⟨fun message hmessage _ => ?_, trivial⟩⟩
  cases hmessage
  exact List.forall_mem_cons.mpr ⟨fun _ => by decide, List.forall_mem_nil _⟩

/-- A new generation takes the number of one and the same issuer from 5 back to 3. -/
theorem crl_sequence_rolled_back :
    recorded sampleGatewayX509 ["gateway"] [sampleRound 3] sampleIdentity =
      [sampleBundle 1 [[1]] [] 5, sampleBundle 2 [[1], [2]] [1, 2] 3] ∧
    (renew sampleGatewayX509 ["gateway"] (sampleRound 3) sampleIdentity).2 = .ok () ∧
    ¬ NeverDecreases (recorded sampleGatewayX509 ["gateway"] [sampleRound 3] sampleIdentity) := by
  have hrecorded : recorded sampleGatewayX509 ["gateway"] [sampleRound 3] sampleIdentity =
      [sampleBundle 1 [[1]] [] 5, sampleBundle 2 [[1], [2]] [1, 2] 3] := by
    decide
  refine ⟨hrecorded, by decide, ?_⟩
  rw [hrecorded, NeverDecreases]
  decide

end PowerManage.Gateway
