import PowerManage.Pki.TrustBundles

/-!
# Signed trust-state claims

A consumer reports the bundle that it has stored by a signed claim, and keeps the
claim until the server has acknowledged it.  Agents and gateways build, store and
repeat their claims alike.
-/

namespace PowerManage.Pki

open Relational

/-- `sign.TrustStateClaim`; no fingerprint stands for empty bytes. -/
structure TrustStateClaim where
  reporterClass : String
  claimedClass : String
  reporterCertificateFingerprint : Fingerprint
  generation : UInt64
  revision : UInt64
  rootFingerprints : List Fingerprint
  crlIssuerFingerprint : Option Fingerprint
  crlSequence : Nat
  deriving DecidableEq, Repr

structure PendingTrustConfirmation where
  generation : UInt64
  revision : UInt64
  rootFingerprints : List Fingerprint
  crlIssuerFingerprint : Option Fingerprint
  crlSequence : Nat
  signature : Bytes
  deriving DecidableEq, Repr

structure ConfirmTrustStateRequest where
  certificateDER : Bytes
  claimedClass : String
  generation : UInt64
  revision : UInt64
  rootFingerprints : List Fingerprint
  crlIssuerFingerprint : Option Fingerprint
  crlSequence : Nat
  signature : Bytes
  deriving DecidableEq, Repr

/-- `CATrustBundle`, the published form of a bundle. -/
structure CATrustBundle extends TrustBundle where
  crlIssuerFingerprint : Option Fingerprint
  crlSequence : Nat
  deriving DecidableEq, Repr

structure RenewAgentRequest where
  certificateDER : Bytes
  csrDER : Bytes
  sealingPublicKey : Bytes
  deriving DecidableEq, Repr

/-- `EnrollAgentResponse` and `RenewAgentResponse`. -/
structure IdentityResponse where
  certificateDER : Bytes
  certificateAuthorityDER : Bytes
  gatewayCertificateAuthorityDER : Bytes
  agentTrustBundle : Option CATrustBundle
  gatewayTrustBundle : Option CATrustBundle
  deriving DecidableEq, Repr

/-- Go's library functions that the clients call. -/
structure ClientX509 extends LeafX509 where
  /-- `Certificate.Verify` against one root, for a usage and a host name that may
  be empty. -/
  verifyChain : ExtKeyUsage → String → Bytes → Bytes → Int → Bool
  /-- `parseCAFingerprint`: the digest that a text writes out, none if it is empty. -/
  parseCAFingerprint : String → Except String (Option Fingerprint)
  /-- `x509.CreateCertificateRequest` without names. -/
  createCSR : Signer → Except String Bytes
  /-- `sign.SignTrustState`. -/
  signTrustState : Signer → TrustStateClaim → Except String Bytes
  /-- `sign.VerifyTrustState`, by the public key. -/
  verifyTrustState : Bytes → TrustStateClaim → Bytes → Except String Unit

variable [Sha256]

/-- The claim that a stored confirmation makes for a certificate. -/
def PendingTrustConfirmation.claim (pending : PendingTrustConfirmation)
    (reporter claimed : CertificateClass) (certificateDER : Bytes) : TrustStateClaim where
  reporterClass := reporter.text
  claimedClass := claimed.text
  reporterCertificateFingerprint := sha256 certificateDER
  generation := pending.generation
  revision := pending.revision
  rootFingerprints := pending.rootFingerprints
  crlIssuerFingerprint := pending.crlIssuerFingerprint
  crlSequence := pending.crlSequence

/-- The prefix of a client's errors. -/
def CertificateClass.clientText : CertificateClass → String
  | agent => "enroll: "
  | gateway => "gateway: "

/-- What a client adds to an error of a stored claim; a gateway adds nothing. -/
def CertificateClass.claimText (text : String) : CertificateClass → String
  | agent => text
  | gateway => ""

section claims

variable (x : ClientX509) (reporter : CertificateClass)

/-- `newPendingTrustConfirmation` and `newGatewayPendingConfirmation`. -/
def newPendingConfirmation (certificateDER : Bytes) (key : Signer) (claimed : CertificateClass)
    (bundle : CATrustBundle) : Except String PendingTrustConfirmation :=
  let unsigned : PendingTrustConfirmation :=
    { generation := bundle.generation
      revision := bundle.revision
      rootFingerprints := bundle.rootCertificateDER.map sha256
      crlIssuerFingerprint := bundle.crlIssuerFingerprint
      crlSequence := bundle.crlSequence
      signature := [] }
  match x.signTrustState key (unsigned.claim reporter claimed certificateDER) with
  | .error e =>
    .error (reporter.clientText ++ "sign " ++ claimed.text ++ " trust-state confirmation: " ++ e)
  | .ok signature => .ok { unsigned with signature }

/-- `pendingTrustRequest` and `gatewayPendingRequest`. -/
def pendingRequest (certificateDER : Bytes) (claimed : CertificateClass)
    (pending : PendingTrustConfirmation) : Except String ConfirmTrustStateRequest :=
  match x.parseLeaf certificateDER with
  | .error e => .error (reporter.claimText "pending reporter certificate: " ++ e)
  | .ok certificate =>
    match x.verifyTrustState certificate.publicKey
        (pending.claim reporter claimed certificateDER) pending.signature with
    | .error e => .error (reporter.claimText "pending trust-state signature: " ++ e)
    | .ok () =>
      .ok { certificateDER, claimedClass := claimed.text
            generation := pending.generation
            revision := pending.revision
            rootFingerprints := pending.rootFingerprints
            crlIssuerFingerprint := pending.crlIssuerFingerprint
            crlSequence := pending.crlSequence
            signature := pending.signature }

end claims

/-! ## A sample encoding of leaves -/

def sampleInstance : String := "01K0QJ3E5E8R4M0D8EV3Y4N6J7"

/-- A device's certificate, by its serial number and the keys of issuer and device. -/
def sampleLeafDER (serial issuer key : UInt8) : Bytes :=
  [0, serial, issuer, key]

/-- The certificate of a device's key. -/
def sampleDeviceCertificate (serial key : UInt8) : LeafCertificate where
  identity := .ok (.agent, sampleInstance)
  serialNumber := serial.toNat
  authorityKeyID := []
  publicKey := [key]
  signingKey := .ok ()
  isCA := false
  basicConstraintsValid := true
  keyUsage := keyUsageDigitalSignature
  extKeyUsage := [.clientAuth]
  unknownExtKeyUsage := 0
  dnsNames := []
  emailAddresses := 0
  ipAddresses := 0
  dnsAndURISANs := .ok ()
  notBefore := 0
  notAfter := 365 * 24 * 3600

/-- The sample encoding with leaves; a signature is the signer's public key. -/
def sampleClientX509 : ClientX509 where
  parse := sampleX509.parse
  checkSignatureFrom
    | [0, _, issuer, _], [root] => issuer = root
    | child, parent => sampleX509.checkSignatureFrom child parent
  parseLeaf
    | [0, serial, _, key] => .ok (sampleDeviceCertificate serial key)
    | _ => .error "malformed certificate"
  validateX25519PublicKey _ := .ok ()
  parseIP _ := false
  verifyChain _ _ leaf root _ :=
    match leaf, root with
    | [0, _, issuer, _], [root] => issuer = root
    | _, _ => false
  parseCAFingerprint _ := .ok none
  createCSR key := .ok key.publicKey
  signTrustState key _ := .ok key.publicKey
  verifyTrustState key _ signature := if signature = key then .ok () else .error "bad signature"

end PowerManage.Pki
