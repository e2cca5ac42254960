import PowerManage.Pki.Certificates
import PowerManage.Relational.Table
import PowerManage.Store.Event
import PowerManage.Store.Append
import PowerManage.Store.Work

/-!
# Leaf certificates, their tables and their events

Agents and gateways hold leaf certificates.  The two projection tables
`devices` and `gateways` differ in one column, so they are one table per
certificate class here; certificates that must no longer be trusted are entered
in `certificate_revocations`, which both classes share.
-/

namespace PowerManage.Pki

open Relational Store

/-! ## Leaf certificates -/

/-- `identity.Class`. -/
inductive IdentityClass where
  | agent
  | gateway
  | control
  deriving DecidableEq, Repr

def IdentityClass.text : IdentityClass → String
  | agent => "agent"
  | gateway => "gateway"
  | control => "control"

inductive ExtKeyUsage where
  | clientAuth
  | serverAuth
  | other (code : Nat)
  deriving DecidableEq, Repr

/-- The fields of `x509.Certificate` that are inspected of a leaf. -/
structure LeafCertificate where
  /-- `identity.ParseCertificateIdentity`. -/
  identity : Except String (IdentityClass × String)
  serialNumber : Nat
  authorityKeyID : Bytes
  /-- The PKIX encoding of the public key. -/
  publicKey : Bytes
  /-- `sign.ValidateSigningKey`. -/
  signingKey : Except String Unit
  isCA : Bool
  basicConstraintsValid : Bool
  keyUsage : Nat
  extKeyUsage : List ExtKeyUsage
  unknownExtKeyUsage : Nat
  dnsNames : List String
  emailAddresses : Nat
  ipAddresses : Nat
  /-- `identity.RequireDNSAndURISANs`. -/
  dnsAndURISANs : Except String Unit
  notBefore : Int
  notAfter : Int

def keyUsageDigitalSignature : Nat := 1

/-- Go's library functions that the checks of leaves call.

`x509.ParseCertificate` refuses trailing bytes, so what it parses is the
whole input and the comparison with `certificate.Raw` never fails. -/
structure LeafX509 extends X509 where
  parseLeaf : Bytes → Except String LeafCertificate
  /-- `seal.ValidateX25519PublicKey`. -/
  validateX25519PublicKey : Bytes → Except String Unit
  /-- `net.ParseIP` recognizes the text. -/
  parseIP : String → Bool

/-- The instance that a certificate names. -/
def LeafX509.instanceID (x : LeafX509) (der : Bytes) : Option String :=
  match x.parseLeaf der with
  | .error _ => none
  | .ok c => c.identity.toOption.map Prod.snd

/-! ## Rows -/

/-- `DeviceLifecycleState`; a gateway is never in `force_renewal`. -/
inductive LifecycleState where
  | active
  | forceRenewal
  | revoked
  deriving DecidableEq, Repr

/-- The column of one class only: a device's sealing key, a gateway's DNS names. -/
def LeafExtra : CertificateClass → Type
  | .agent => Bytes
  | .gateway => List String

instance : (cls : CertificateClass) → DecidableEq (LeafExtra cls)
  | .agent => inferInstanceAs (DecidableEq Bytes)
  | .gateway => inferInstanceAs (DecidableEq (List String))

/-- A row of `devices` or `gateways`, under its device or gateway ID. -/
structure LeafRow (cls : CertificateClass) where
  projectionVersion : Nat
  certificateDER : Bytes
  certificateFingerprint : Fingerprint
  previousCertificateDER : Option Bytes
  registrationTokenID : String
  owner : String
  lifecycleState : LifecycleState
  updatedAt : Nat
  extra : LeafExtra cls
  deriving DecidableEq

def reasonCodeUnspecified : Nat := 0

def reasonCodeSuperseded : Nat := 4

/-- A row of `certificate_revocations`, under its class and fingerprint. -/
structure RevocationRow where
  certificateDER : Bytes
  issuerIdentifier : Bytes
  serialNumber : Nat
  revokedAt : Nat
  reasonCode : Nat
  sourceStreamType : String
  sourceStreamID : String
  sourceStreamVersion : Nat
  deriving DecidableEq, Repr

/-- The primary key of `certificate_revocations`. -/
abbrev RevocationKey : Type := CertificateClass × Fingerprint

/-! ## Tables and writes -/

/-- The projection tables of the leaves and the work queue; `X` stands for
the tables of the other domains. -/
structure Tables (X : Type) where
  leaves : (cls : CertificateClass) → Table String (LeafRow cls)
  certificateRevocations : Table RevocationKey RevocationRow
  workItems : Table WorkKey WorkItem
  rest : X

namespace Tables

variable {X : Type}

/-- The tables of a freshly migrated database. -/
def init (rest : X) : Tables X where
  leaves _ := ∅
  certificateRevocations := ∅
  workItems := ∅
  rest := rest

end Tables

/-- One statement's effect on one table. -/
inductive Write (V : Type) where
  | leaf (cls : CertificateClass) (w : RowWrite String (LeafRow cls))
  | certificateRevocations (w : RowWrite RevocationKey RevocationRow)
  | workItems (w : RowWrite WorkKey WorkItem)
  | rest (v : V)

variable {O X V : Type}

/-- Apply a write to its table. -/
def Write.apply [Applies V X] (w : Write V) (t : Tables X) : Tables X :=
  match w with
  | leaf cls w => { t with leaves := Function.update t.leaves cls (w.apply (t.leaves cls)) }
  | certificateRevocations w =>
    { t with certificateRevocations := w.apply t.certificateRevocations }
  | workItems w => { t with workItems := w.apply t.workItems }
  | rest v => { t with rest := Applies.apply v t.rest }

instance [Applies V X] : Applies (Write V) (Tables X) where
  apply := Write.apply

@[simp]
theorem apply_eq [Applies V X] (w : Write V) (t : Tables X) : Applies.apply w t = w.apply t :=
  rfl

/-- What a projector can hold a lock on: a row, or an entry of a unique index. -/
inductive Key where
  | leaf (cls : CertificateClass) (instanceID : String)
  | revocation (key : RevocationKey)
  | issuerSerial (cls : CertificateClass) (issuer : Bytes) (serial : Nat)
  | revocationSource (streamType streamID : String) (streamVersion : Nat)
  | work (key : WorkKey)
  | other (name : String)
  deriving DecidableEq, Repr

/-! ## Events -/

structure AgentEnrolledPayload where
  certificateDER : Bytes
  sealingPublicKey : Bytes
  registrationTokenID : String
  owner : String
  deriving DecidableEq, Repr

structure AgentCertificateRenewedPayload where
  certificateDER : Bytes
  sealingPublicKey : Bytes
  supersededCertificateDER : Bytes
  deriving DecidableEq, Repr

/-- The payload of an event about the current certificate. -/
structure CertificatePayload where
  certificateDER : Bytes
  deriving DecidableEq, Repr

structure AgentOwnerUpdatedPayload where
  owner : String
  deriving DecidableEq, Repr

structure GatewayEnrolledPayload where
  certificateDER : Bytes
  registrationTokenID : String
  owner : String
  dnsNames : List String
  deriving DecidableEq, Repr

structure GatewayCertificateRenewedPayload where
  certificateDER : Bytes
  supersededCertificateDER : Bytes
  deriving DecidableEq, Repr

/-- Events of the devices target. -/
inductive DeviceBody where
  | enrolled (payload : Payload AgentEnrolledPayload)
  | certificateRenewed (payload : Payload AgentCertificateRenewedPayload)
  | certificateRevoked (payload : Payload CertificatePayload)
  | forceRenewalRequired (payload : Payload CertificatePayload)
  | ownerUpdated (payload : Payload AgentOwnerUpdatedPayload)
  | deleted (payload : Payload CertificatePayload)
  deriving DecidableEq, Repr

/-- Events of the gateways target. -/
inductive GatewayBody where
  | enrolled (payload : Payload GatewayEnrolledPayload)
  | certificateRenewed (payload : Payload GatewayCertificateRenewedPayload)
  | certificateRevoked (payload : Payload CertificatePayload)
  deriving DecidableEq, Repr

/-- Every event, by the target that owns its type; `O` stands for those of
the other domains. -/
inductive Body (O : Type) where
  | device (body : DeviceBody)
  | gateway (body : GatewayBody)
  | other (body : O)
  deriving DecidableEq

/-- The event type of a device event. -/
def DeviceBody.eventType : DeviceBody → String
  | enrolled _ => "AgentEnrolled"
  | certificateRenewed _ => "AgentCertificateRenewed"
  | certificateRevoked _ => "AgentCertificateRevoked"
  | forceRenewalRequired _ => "AgentCertificateForceRenewalRequired"
  | ownerUpdated _ => "AgentOwnerUpdated"
  | deleted _ => "AgentDeleted"

/-- The event type of a gateway event. -/
def GatewayBody.eventType : GatewayBody → String
  | enrolled _ => "GatewayEnrolled"
  | certificateRenewed _ => "GatewayCertificateRenewed"
  | certificateRevoked _ => "GatewayCertificateRevoked"

/-- The event type of an event. -/
def Body.eventType (otherType : O → String) : Body O → String
  | device body => body.eventType
  | gateway body => body.eventType
  | other body => otherType body

/-- `devicePayloadVersion` and `gatewayPayloadVersion`. -/
def leafPayloadVersion : Int := 1

/-- The database of the server. -/
abbrev Db (O X : Type) : Type := Database (Body O) (Tables X)

/-- A stored event. -/
abbrev Ev (O : Type) : Type := PersistedEvent (Body O)

/-- Projector programs. -/
abbrev ProjProg (O X V α : Type) : Type := Prog (Db O X) (Write V) Key StoreError α

/-! ## Registration data -/

def canonicalGatewayID (gatewayID : String) : Except StoreError String :=
  (canonicalULID gatewayID).mapError fun reason =>
    .wrapped "store: invalid gateway ID" (.message reason)

def canonicalRegistrationTokenID (tokenID : String) : Except StoreError String :=
  (canonicalULID tokenID).mapError fun reason =>
    .wrapped "store: invalid registration-token ID" (.message reason)

def maxRegistrationTokenOwnerBytes : Nat := 256

def validateRegistrationTokenOwner (owner : String) : Except StoreError Unit :=
  if owner.toList.contains '\x00' then
    .error (.message "store: registration-token owner is invalid")
  else if maxRegistrationTokenOwnerBytes < byteLen owner then
    .error (.message ("store: registration-token owner exceeds " ++
      toString maxRegistrationTokenOwnerBytes ++ " bytes"))
  else .ok ()

/-- Seconds from year one, Go's zero time, to the Unix epoch. -/
def zeroTime : Int := -62135596800

def validateRegistrationTokenMetadata (maxUses expiresAt : Int) (owner : String) :
    Except StoreError Unit :=
  if maxUses ≤ 0 then
    .error (.message "store: registration-token max uses must be positive")
  else if expiresAt = zeroTime then
    .error (.message "store: registration-token expiry is zero")
  else validateRegistrationTokenOwner owner

def maxGatewayDNSNames : Nat := 16

def maxDNSNameBytes : Nat := 253

/-- Go's `strings.TrimSuffix(name, ".")`. -/
def trimDot (name : String) : List Char :=
  if name.toList.getLast? = some '.' then name.toList.dropLast else name.toList

/-- One label of a DNS name. -/
def validDNSLabel (label : List Char) : Bool :=
  0 < label.length && label.length ≤ 63 && label.head? != some '-' &&
    label.getLast? != some '-' &&
    label.all fun c => charBetween 'a' 'z' c || charBetween 'A' 'Z' c ||
      charBetween '0' '9' c || c == '-'

def validGatewayDNSName (x : LeafX509) (name : String) : Bool :=
  name != "" && byteLen name ≤ maxDNSNameBytes && !x.parseIP name &&
    !(trimDot name).isEmpty && ((trimDot name).splitOn '.').all validDNSLabel

/-- The loop of `validateRegistrationTokenPurpose` over the DNS names. -/
def validateDNSNames (x : LeafX509) : List (List Char) → List String → Except StoreError Unit
  | _, [] => .ok ()
  | seen, name :: names =>
    let key := (trimDot name).map Char.toLower
    if ¬ validGatewayDNSName x name then
      .error (.message ("store: invalid gateway DNS name " ++ quote name))
    else if seen.contains key then
      .error (.message ("store: duplicate gateway DNS name " ++ quote name))
    else validateDNSNames x (key :: seen) names

/-- `validateRegistrationTokenPurpose`, for gateways. -/
def validateGatewayPurpose (x : LeafX509) (dnsNames : List String) : Except StoreError Unit :=
  if dnsNames.isEmpty || maxGatewayDNSNames < dnsNames.length then
    .error (.message ("store: gateway registration token must contain 1.." ++
      toString maxGatewayDNSNames ++ " DNS names"))
  else validateDNSNames x [] dnsNames

/-! ## Checks of agent certificates -/

def validateAgentCertificate (x : LeafX509) (deviceID : String) (der : Bytes) :
    Except StoreError (String × LeafCertificate) := do
  let deviceID ← canonicalDeviceID deviceID
  if der.isEmpty || maxCertificateDERBytes < der.length then
    .error (.message ("store: certificate DER must contain 1.." ++
      toString maxCertificateDERBytes ++ " bytes"))
  else
    let c ← (x.parseLeaf der).mapError fun reason =>
      .wrapped "store: parse certificate DER" (.message reason)
    let (cls, certificateID) ← c.identity.mapError fun reason =>
      .wrapped "store: parse certificate identity" (.message reason)
    if cls ≠ .agent then
      .error (.message ("store: certificate class " ++ quote cls.text ++ " is not agent"))
    else if certificateID ≠ deviceID then
      .error (.message "store: certificate identity is mismatched with device ID")
    else if c.isCA || !c.basicConstraintsValid ||
        c.keyUsage &&& keyUsageDigitalSignature == 0 || c.extKeyUsage != [.clientAuth] ||
        c.notAfter ≤ c.notBefore then
      .error (.message "store: certificate DER has an invalid agent profile")
    else
      c.signingKey.mapError fun reason =>
        StoreError.wrapped "store: validate certificate public key" (.message reason)
      .ok (deviceID, c)

/-- `seal.ValidateX25519PublicKey`, as a store error. -/
def validateSealingKey (x : LeafX509) (key : Bytes) : Except StoreError Unit :=
  (x.validateX25519PublicKey key).mapError .message

/-- `validateAgentEnrollment`: the device ID and the folded token ID. -/
def validateAgentEnrollment (x : LeafX509) (deviceID : String) (p : AgentEnrolledPayload) :
    Except StoreError (String × String) := do
  let (deviceID, c) ← validateAgentCertificate x deviceID p.certificateDER
  validateSealingKey x p.sealingPublicKey
  let tokenID ← (canonicalRegistrationTokenID p.registrationTokenID).mapError
    (.wrapped "store: invalid registration token ID")
  (validateRegistrationTokenMetadata 1 c.notAfter p.owner).mapError
    (.wrapped "store: invalid device owner")
  .ok (deviceID, tokenID)

def validateAgentCertificateRenewal (x : LeafX509) (deviceID : String)
    (p : AgentCertificateRenewedPayload) : Except StoreError String := do
  let (deviceID, c) ← validateAgentCertificate x deviceID p.certificateDER
  let (_, superseded) ← (validateAgentCertificate x deviceID p.supersededCertificateDER).mapError
    (.wrapped "store: invalid superseded certificate")
  if p.certificateDER = p.supersededCertificateDER then
    .error (.message "store: renewed certificate equals the superseded certificate")
  else if c.publicKey ≠ superseded.publicKey then
    .error (.message "store: renewed certificate public key differs from superseded certificate")
  else
    validateSealingKey x p.sealingPublicKey
    .ok deviceID

def validateDeviceOwner (owner : String) : Except StoreError Unit :=
  (validateRegistrationTokenOwner owner).mapError fun _ =>
    .message "store: device owner is invalid"

/-! ## Checks of gateway certificates -/

/-- `gatewayCertificateLifetime`, in seconds. -/
def gatewayCertificateLifetime : Int := 45 * 24 * 3600

def exactGatewayExtendedKeyUsage (usages : List ExtKeyUsage) : Bool :=
  usages.length == 2 && usages.contains .serverAuth && usages.contains .clientAuth

def validateGatewayCertificate (x : LeafX509) (gatewayID : String) (der : Bytes) :
    Except StoreError (String × LeafCertificate) := do
  let gatewayID ← canonicalGatewayID gatewayID
  if der.isEmpty || maxCertificateDERBytes < der.length then
    .error (.message "store: gateway certificate DER size is invalid")
  else
    let c ← (x.parseLeaf der).mapError fun _ =>
      .message "store: gateway certificate DER is invalid"
    if c.identity.toOption ≠ some (.gateway, gatewayID) then
      .error (.message "store: gateway certificate identity is invalid")
    else if c.isCA || !c.basicConstraintsValid ||
        c.keyUsage &&& keyUsageDigitalSignature == 0 ||
        c.notAfter - c.notBefore != gatewayCertificateLifetime ||
        !exactGatewayExtendedKeyUsage c.extKeyUsage || c.unknownExtKeyUsage != 0 ||
        c.emailAddresses != 0 || c.ipAddresses != 0 then
      .error (.message "store: gateway certificate profile is invalid")
    else
      c.dnsAndURISANs.mapError fun reason =>
        StoreError.wrapped "store: gateway certificate profile is invalid" (.message reason)
      validateGatewayPurpose x c.dnsNames
      c.signingKey.mapError fun reason =>
        StoreError.wrapped "store: validate gateway certificate key" (.message reason)
      .ok (gatewayID, c)

/-- `validateGatewayEnrollment`: the gateway ID and the folded token ID. -/
def validateGatewayEnrollment (x : LeafX509) (gatewayID : String) (p : GatewayEnrolledPayload) :
    Except StoreError (String × String) := do
  let (gatewayID, c) ← validateGatewayCertificate x gatewayID p.certificateDER
  validateGatewayPurpose x p.dnsNames
  if c.dnsNames ≠ p.dnsNames then
    .error (.message "store: gateway certificate DNS names differ from token metadata")
  else
    let tokenID ← canonicalRegistrationTokenID p.registrationTokenID
    validateRegistrationTokenMetadata 1 c.notAfter p.owner
    .ok (gatewayID, tokenID)

def validateGatewayRenewal (x : LeafX509) (gatewayID : String)
    (p : GatewayCertificateRenewedPayload) : Except StoreError String := do
  let (gatewayID, c) ← validateGatewayCertificate x gatewayID p.certificateDER
  let (_, superseded) ←
    (validateGatewayCertificate x gatewayID p.supersededCertificateDER).mapError
      (.wrapped "store: invalid superseded gateway certificate")
  if p.certificateDER = p.supersededCertificateDER ∨ c.dnsNames ≠ superseded.dnsNames then
    .error (.message "store: gateway renewal certificate continuity is invalid")
  else if c.publicKey ≠ superseded.publicKey then
    .error (.message "store: renewed gateway public key differs from predecessor")
  else .ok gatewayID

/-- `gatewayFromRow`, which may require the fingerprint to be derived. -/
def gatewayFromRow [Sha256] (x : LeafX509) (gatewayID : String) (row : LeafRow .gateway)
    (requireDerivedFingerprint : Bool) : Except StoreError Unit := do
  if row.projectionVersion = 0 then
    .error (.message "store: gateway projection has an invalid version")
  else
    let p : GatewayEnrolledPayload := ⟨row.certificateDER, row.registrationTokenID, row.owner,
      row.extra⟩
    let (canonicalID, _) ← (validateGatewayEnrollment x gatewayID p).mapError
      (.wrapped "store: invalid gateway projection")
    if canonicalID ≠ gatewayID then
      .error (.message "store: gateway projection identity or fingerprint is invalid")
    else if requireDerivedFingerprint ∧ row.certificateFingerprint ≠ sha256 row.certificateDER then
      .error (.message "store: gateway projection has a mismatched certificate fingerprint")
    else if row.lifecycleState = .forceRenewal then
      .error (.message "store: gateway projection has an invalid lifecycle state")
    else
      match row.previousCertificateDER with
      | none => .ok ()
      | some previous =>
        (validateGatewayRenewal x canonicalID ⟨row.certificateDER, previous⟩).mapError
          (.wrapped "store: invalid previous gateway certificate") |>.map fun _ => ()

/-! ## What the checks leave -/

section accepted

variable {x : LeafX509} {id id' : String} {der : Bytes} {c : LeafCertificate}

theorem canonicalULID_eq {id id' : String} (h : canonicalULID id = .ok id') : id' = toUpper id := by
  rw [canonicalULID, map_eq_ok] at h
  obtain ⟨_, -, h⟩ := h
  exact h.symm

/-- An accepted agent certificate names the device. -/
theorem validateAgentCertificate_ok (h : validateAgentCertificate x id der = .ok (id', c)) :
    id' = toUpper id ∧ x.parseLeaf der = .ok c ∧ c.identity = .ok (.agent, id') := by
  simp only [validateAgentCertificate, bind_eq_ok, ite_error_eq_ok, mapError_eq_ok,
    canonicalDeviceID] at h
  obtain ⟨canonical, hcanonical, -, c', hparse, ⟨cls, named⟩, hidentity, hcls, hnamed, -, -, -,
    hresult⟩ := h
  have hpair := Prod.mk.inj (Except.ok.inj hresult)
  rw [← hpair.1, ← hpair.2]
  have hagent : cls = .agent := not_not.mp hcls
  have hnames : named = canonical := not_not.mp hnamed
  exact ⟨canonicalULID_eq hcanonical, hparse, by rw [hidentity, hagent, hnames]⟩

/-- An accepted gateway certificate names the gateway. -/
theorem validateGatewayCertificate_ok (h : validateGatewayCertificate x id der = .ok (id', c)) :
    id' = toUpper id ∧ x.parseLeaf der = .ok c ∧ c.identity = .ok (.gateway, id') := by
  simp only [validateGatewayCertificate, bind_eq_ok, ite_error_eq_ok, mapError_eq_ok,
    canonicalGatewayID] at h
  obtain ⟨canonical, hcanonical, -, c', hparse, hidentity, -, -, -, -, -, -, -, hresult⟩ := h
  have hpair := Prod.mk.inj (Except.ok.inj hresult)
  rw [← hpair.1, ← hpair.2]
  refine ⟨canonicalULID_eq hcanonical, hparse, ?_⟩
  have hsome := not_not.mp hidentity
  cases hid : c'.identity with
  | error reason => simp [hid, Except.toOption] at hsome
  | ok named => simpa [hid, Except.toOption] using hsome

end accepted

end PowerManage.Pki
