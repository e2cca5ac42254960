import PowerManage.Pki.Leaves
import PowerManage.Store.Rebuild

/-!
# Projectors of the devices and gateways targets

Every projector first checks its event and settles what it will do, its plan:
enter a row, update the one row that a condition selects, or delete it.  Carrying
a plan out reads and writes the leaf's row and enters the certificate that the
event takes out of use in `certificate_revocations`, which schedules the
publication of a revocation list.

An update that selects no row is accepted if the row already is what the event
would make of it, so a repeated projection does no harm.
-/

namespace PowerManage.Pki

open Relational Store

variable [Sha256] {O X V : Type}

/-! ## Statements on leaves -/

/-- The stream type of a class's leaves. -/
def CertificateClass.streamType : CertificateClass → String
  | agent => "device"
  | gateway => "gateway"

/-- The name of a class's projection table, which is also its rebuild target. -/
def CertificateClass.leafTable : CertificateClass → String
  | agent => "devices"
  | gateway => "gateways"

/-- The check of the column that only one class has. -/
def checkLeafExtra : (cls : CertificateClass) → LeafExtra cls → Except StoreError Unit
  | .agent, (sealingPublicKey : Bytes) =>
    if sealingPublicKey.length ≠ 32 then
      .error (checkViolation "devices_sealing_public_key_check")
    else .ok ()
  | .gateway, (dnsNames : List String) =>
    if dnsNames.isEmpty then .error (checkViolation "gateways_dns_names_check") else .ok ()

/-- Postgres `octet_length(der) BETWEEN 1 AND 65536`. -/
def derLengthCheck (der : Bytes) : Bool :=
  0 < der.length && der.length ≤ maxCertificateDERBytes

/-- The check constraints of `devices` and `gateways`. -/
def checkLeaf (cls : CertificateClass) (id : String) (row : LeafRow cls) : Except StoreError Unit :=
  let violates (column : String) := checkViolation (cls.leafTable ++ "_" ++ column ++ "_check")
  if ¬ ulidCheck id then .error (violates (cls.streamType ++ "_id"))
  else if row.projectionVersion = 0 then .error (violates "projection_version")
  else if ¬ derLengthCheck row.certificateDER then .error (violates "certificate_der")
  else if ¬ row.previousCertificateDER.all derLengthCheck then
    .error (violates "previous_certificate_der")
  else if ¬ ulidCheck row.registrationTokenID then .error (violates "registration_token_id")
  else if maxRegistrationTokenOwnerBytes < byteLen row.owner then .error (violates "owner")
  else if cls = .gateway ∧ row.lifecycleState = .forceRenewal then
    .error (violates "lifecycle_state")
  else checkLeafExtra cls row.extra

section leafStatements

variable (cls : CertificateClass) (id : String)

/-- `UpsertDeviceEnrollment` and `UpsertGatewayEnrollment`: check
constraints are enforced before the conflict is noticed. -/
def upsertEnrollment (row : LeafRow cls) : ProjProg O X V Nat :=
  .statement (fun _ => [.leaf cls id]) fun d => do
    checkLeaf cls id row
    if ((d.tables.leaves cls).find id).isSome then .ok ([], 0)
    else .ok ([.leaf cls (.insert id row)], 1)

/-- `GetDevice` and `GetGateway`. -/
def getLeaf : ProjProg O X V (LeafRow cls) :=
  .query fun d =>
    match (d.tables.leaves cls).find id with
    | some row => .ok row
    | none => .error .noRows

/-- An update of the one row that its condition selects. -/
def updateLeaf (selects : LeafRow cls → Bool) (change : LeafRow cls → LeafRow cls) :
    ProjProg O X V Nat :=
  .affect (fun _ => [.leaf cls id]) (fun d => ((d.tables.leaves cls).find id).filter selects)
    fun _ row => do
      checkLeaf cls id (change row)
      .ok [.leaf cls (.update {id} change)]

/-- `DeleteDeviceProjection`. -/
def deleteLeaf (selects : LeafRow cls → Bool) : ProjProg O X V Nat :=
  .affect (fun _ => [.leaf cls id]) (fun d => ((d.tables.leaves cls).find id).filter selects)
    fun _ _ => .ok [.leaf cls (.delete {id})]

end leafStatements

/-! ## Revocations -/

/-- The work that publishes a class's revocation list. -/
def CertificateClass.crlWorkKind : CertificateClass → String
  | agent => "publish-agent-crl"
  | gateway => "publish-gateway-crl"

def insertWork (e : Ev O) (work : Work) : ProjProg O X V Unit :=
  let key : WorkKey := ⟨e.streamType, e.streamID, e.streamVersion, work.kind⟩
  .write (fun _ => [.work key])
    (fun d =>
      if (d.tables.workItems.find key).isSome then .error (uniqueViolation "work_items_pkey")
      else if ¬ d.events.any (sameVersion e) then
        .error (foreignKeyViolation "work_items_source_event_fkey")
      else .ok ())
    fun _ => [.workItems (.insert key (newWorkItem e.createdAt work))]

/-- `EnqueueWork`, of the event being projected. -/
def enqueueWork (skipWork : Bool) (e : Ev O) (work : Work) : ProjProg O X V Unit :=
  if skipWork then .ret ()
  else do
    Prog.ofExcept ((validateWork work).mapError .message)
    (insertWork e work).mapError (.wrapped ("store: enqueue work kind " ++ quote work.kind))

/-- The work of a revocation. -/
def crlWork (cls : CertificateClass) (e : Ev O) : Work where
  kind := cls.crlWorkKind
  payloadVersion := 1
  payload := some [0x7B, 0x7D]
  runAt := some e.createdAt
  maxAttempts := maxWorkAttempts

def compatibleRevocationReason (existing next : Nat) : Bool :=
  existing == next || (existing == reasonCodeSuperseded && next == reasonCodeUnspecified)

/-- The row that revokes a certificate because of an event. -/
def revocationRow (e : Ev O) (c : LeafCertificate) (der : Bytes) (reasonCode : Nat) :
    RevocationRow where
  certificateDER := der
  issuerIdentifier := c.authorityKeyID
  serialNumber := c.serialNumber
  revokedAt := e.createdAt
  reasonCode := reasonCode
  sourceStreamType := e.streamType
  sourceStreamID := e.streamID
  sourceStreamVersion := e.streamVersion

namespace RevocationRow

/-- The stored material is the one that is to be revoked, for a compatible reason. -/
def agrees (existing row : RevocationRow) : Bool :=
  existing.certificateDER == row.certificateDER &&
    existing.issuerIdentifier == row.issuerIdentifier &&
    existing.serialNumber == row.serialNumber &&
    compatibleRevocationReason existing.reasonCode row.reasonCode

/-- Both rows stem from one event. -/
def sameSource (a b : RevocationRow) : Bool :=
  a.sourceStreamType == b.sourceStreamType && a.sourceStreamID == b.sourceStreamID &&
    a.sourceStreamVersion == b.sourceStreamVersion

/-- Both rows name one certificate to the relying parties. -/
def sameIssuerSerial (a b : RevocationRow) : Bool :=
  a.issuerIdentifier == b.issuerIdentifier && a.serialNumber == b.serialNumber

end RevocationRow

/-- The check constraints of `certificate_revocations`.  A serial number of 1 to
20 bytes is one below 2 to the 160. -/
def checkRevocation (row : RevocationRow) : Except StoreError Unit :=
  if ¬ derLengthCheck row.certificateDER then
    .error (checkViolation "certificate_revocations_certificate_der_check")
  else if row.serialNumber = 0 ∨ 2 ^ 160 ≤ row.serialNumber then
    .error (checkViolation "certificate_revocations_serial_number_check")
  else if row.issuerIdentifier.isEmpty || 64 < row.issuerIdentifier.length then
    .error (checkViolation "certificate_revocations_issuer_identifier_length_check")
  else if ¬ [0, 1, 2, 3, 4, 5, 6, 8, 9, 10].contains row.reasonCode then
    .error (checkViolation "certificate_revocations_reason_code_check")
  else .ok ()

/-- The unique keys and the foreign key of a new row. -/
def revocationKeys (d : Db O X) (e : Ev O) (cls : CertificateClass) (row : RevocationRow) :
    Except StoreError Unit :=
  if d.tables.certificateRevocations.anyRow fun key other =>
      key.1 == cls && other.sameIssuerSerial row then
    .error (uniqueViolation "certificate_revocations_issuer_serial_key")
  else if d.tables.certificateRevocations.anyRow fun _ other => other.sameSource row then
    .error (uniqueViolation "certificate_revocations_source_event_key")
  else if ¬ d.events.any (sameVersion e) then
    .error (foreignKeyViolation "certificate_revocations_source_event_fkey")
  else .ok ()

def insertCertificateRevocation (e : Ev O) (cls : CertificateClass) (row : RevocationRow) :
    ProjProg O X V Nat :=
  let key : RevocationKey := (cls, sha256 row.certificateDER)
  .statement
    (fun _ => [.revocation key, .issuerSerial cls row.issuerIdentifier row.serialNumber,
      .revocationSource row.sourceStreamType row.sourceStreamID row.sourceStreamVersion])
    fun d => do
      checkRevocation row
      if (d.tables.certificateRevocations.find key).isSome then .ok ([], 0)
      else
        revocationKeys d e cls row
        .ok ([.certificateRevocations (.insert key row)], 1)

def getCertificateRevocation (key : RevocationKey) : ProjProg O X V RevocationRow :=
  .query fun d =>
    match d.tables.certificateRevocations.find key with
    | some row => .ok row
    | none => .error .noRows

/-- The certificate to revoke, with the data that names it on a revocation list. -/
def revokedCertificate (x : LeafX509) (der : Bytes) : Except StoreError LeafCertificate :=
  match x.parseLeaf der with
  | .error _ => .error (.message "store: revoked certificate DER is invalid")
  | .ok c =>
    if c.serialNumber = 0 || c.authorityKeyID.isEmpty then
      .error (.message "store: revoked certificate DER is invalid")
    else .ok c

/-- What `projectCertificateRevocation` does after its insert. -/
def settleRevocation (skipWork : Bool) (e : Ev O) (cls : CertificateClass) (row : RevocationRow) :
    Nat → ProjProg O X V Unit
  | 0 => do
      let existing ← (getCertificateRevocation (cls, sha256 row.certificateDER)).mapError
        (.wrapped "store: inspect certificate revocation")
      Prog.require (existing.agrees row)
        (.message "store: certificate revocation conflicts with existing material")
      if existing.sameSource row then
        Prog.require (existing.reasonCode == row.reasonCode)
          (.message "store: certificate revocation source event has a mismatched reason")
      else enqueueWork skipWork e (crlWork cls e)
  | 1 => enqueueWork skipWork e (crlWork cls e)
  | affected => .fail (.message ("store: certificate revocation affected " ++
      toString affected ++ " rows; want one"))

/-- `projectCertificateRevocation`, with the work kind of the class. -/
def projectCertificateRevocation (x : LeafX509) (skipWork : Bool) (e : Ev O)
    (cls : CertificateClass) (der : Bytes) (reasonCode : Nat) : ProjProg O X V Unit := do
  let c ← Prog.ofExcept (revokedCertificate x der)
  let affected ← (insertCertificateRevocation e cls (revocationRow e c der reasonCode)).mapError
    (.wrapped "store: project certificate revocation")
  settleRevocation skipWork e cls (revocationRow e c der reasonCode) affected

/-! ## Plans -/

/-- A certificate that an event takes out of use, and why. -/
structure Revocation where
  certificateDER : Bytes
  reasonCode : Nat
  deriving DecidableEq, Repr

/-- What an event does to its leaf, once its own data has been checked. -/
inductive Action (cls : CertificateClass) where
  /-- Enter a row; the condition says which stored row is the same enrollment. -/
  | enroll (row : LeafRow cls) (repeats : LeafRow cls → Bool)
  /-- Update the selected row; the condition says which stored row is already updated. -/
  | update (selects : LeafRow cls → Bool) (change : LeafRow cls → LeafRow cls)
      (repeats : LeafRow cls → Bool) (revokes : Option Revocation)
  /-- Delete the row with this version and certificate. -/
  | delete (version : Nat) (certificateDER : Bytes)

/-- The errors that a projector reports around its statements. -/
structure Reports where
  failed : StoreError → StoreError
  unread : StoreError → StoreError
  conflict : StoreError
  /-- More than one row was affected. -/
  many : Nat → StoreError

/-- The checked form of an event. -/
structure Plan (cls : CertificateClass) where
  id : String
  action : Action cls
  reports : Reports

section plans

variable {cls : CertificateClass} (x : LeafX509) (skipWork : Bool) (e : Ev O)

/-- The revocation that an update brings with it. -/
def projectRevocation (cls : CertificateClass) : Option Revocation → ProjProg O X V Unit
  | none => .ret ()
  | some r => projectCertificateRevocation x skipWork e cls r.certificateDER r.reasonCode

/-- Accept an affected row, or a stored row that already is what was wanted. -/
def settle (id : String) (reports : Reports) (repeats : LeafRow cls → Bool) :
    Nat → ProjProg O X V Unit
  | 0 => do
      let row ← (getLeaf cls id).mapError reports.unread
      Prog.require (repeats row) reports.conflict
  | 1 => .ret ()
  | affected => .fail (reports.many affected)

/-- The revocation that a deletion brings with it, for a stored row. -/
def deletionRevokes (row : LeafRow cls) (der : Bytes) : Option Revocation :=
  if row.lifecycleState = .revoked then none else some ⟨der, reasonCodeUnspecified⟩

/-- Carry out a plan. -/
def Plan.prog (plan : Plan cls) : ProjProg O X V Unit :=
  match plan.action with
  | .enroll row repeats => do
      let affected ← (upsertEnrollment cls plan.id row).mapError plan.reports.failed
      settle plan.id plan.reports repeats affected
  | .update selects change repeats revokes => do
      let affected ← (updateLeaf cls plan.id selects change).mapError plan.reports.failed
      settle plan.id plan.reports repeats affected
      projectRevocation x skipWork e cls revokes
  | .delete version der => do
      let row ← (getLeaf cls plan.id).mapError plan.reports.unread
      Prog.require (row.projectionVersion == version && row.certificateDER == der)
        plan.reports.conflict
      projectRevocation x skipWork e cls (deletionRevokes row der)
      let affected ← (deleteLeaf cls plan.id fun row => row.projectionVersion == version).mapError
        plan.reports.failed
      Prog.require (affected == 1) (plan.reports.many affected)

end plans

/-- Go's `fmt.Errorf("subject affected %d rows; want one", affected)`. -/
def affectedRows (subject : String) (affected : Nat) : StoreError :=
  .message (subject ++ " affected " ++ toString affected ++ " rows; want one")

/-- Fail unless a check passes. -/
def requireThat (ok : Bool) (text : String) : Except StoreError Unit :=
  if ok then .ok () else .error (.message text)

/-! ## Devices -/

section devices

variable (x : LeafX509) (e : Ev O)

/-- What `projectAgentEnrollment` will do. -/
def agentEnrollment (payload : Payload AgentEnrolledPayload) : Except StoreError (Plan .agent) := do
  requireThat (e.streamVersion == 1) ("store: agent enrollment must be stream version 1, got " ++
    toString e.streamVersion)
  let p ← decodeEventPayload "AgentEnrolled" e.toEvent leafPayloadVersion payload
  let (deviceID, tokenID) ← validateAgentEnrollment x e.streamID p
  let row : LeafRow .agent :=
    { projectionVersion := e.streamVersion
      certificateDER := p.certificateDER
      certificateFingerprint := sha256 p.certificateDER
      previousCertificateDER := none
      registrationTokenID := tokenID
      owner := p.owner
      lifecycleState := .active
      updatedAt := e.createdAt
      extra := p.sealingPublicKey }
  .ok
    { id := deviceID
      -- The stored row may have another time, and no other difference.
      action := .enroll row fun old => decide ({ old with updatedAt := e.createdAt } = row)
      reports :=
        { failed := .wrapped "store: project agent enrollment"
          unread := .wrapped "store: inspect agent enrollment projection"
          conflict := .message
            "store: agent enrollment conflicts with the current device projection"
          many := affectedRows "store: agent enrollment" } }

/-- What `projectAgentCertificateRenewal` will do. -/
def agentCertificateRenewal (payload : Payload AgentCertificateRenewedPayload) :
    Except StoreError (Plan .agent) := do
  requireThat (1 < e.streamVersion)
    ("store: agent certificate renewal must follow enrollment, got stream version " ++
      toString e.streamVersion)
  let p ← decodeEventPayload "AgentCertificateRenewed" e.toEvent leafPayloadVersion payload
  let deviceID ← validateAgentCertificateRenewal x e.streamID p
  .ok
    { id := deviceID
      action := .update
        (fun row => row.projectionVersion == e.streamVersion - 1 &&
          row.certificateDER == p.supersededCertificateDER && row.lifecycleState != .revoked)
        (fun row =>
          { row with
            projectionVersion := e.streamVersion
            certificateDER := p.certificateDER
            certificateFingerprint := sha256 p.certificateDER
            extra := p.sealingPublicKey
            previousCertificateDER := some p.supersededCertificateDER
            lifecycleState := .active
            updatedAt := e.createdAt })
        (fun row => row.projectionVersion == e.streamVersion &&
          row.certificateDER == p.certificateDER &&
          row.certificateFingerprint == sha256 p.certificateDER &&
          (row.extra : Bytes) == p.sealingPublicKey &&
          row.previousCertificateDER == some p.supersededCertificateDER &&
          row.lifecycleState == .active)
        (some ⟨p.supersededCertificateDER, reasonCodeSuperseded⟩)
      reports :=
        { failed := .wrapped "store: project agent certificate renewal"
          unread := .wrapped "store: inspect agent certificate renewal projection"
          conflict := .message
            "store: agent certificate renewal conflicts with the current device projection"
          many := affectedRows "store: agent certificate renewal" } }

/-- What `projectAgentLifecycleState` will do. -/
def agentLifecycleState (eventType : String) (payload : Payload CertificatePayload)
    (nextState : LifecycleState) (reasonCode : Nat) (allowForceRenewal : Bool) :
    Except StoreError (Plan .agent) := do
  requireThat (1 < e.streamVersion)
    ("store: agent certificate lifecycle event must follow enrollment, got stream version " ++
      toString e.streamVersion)
  let p ← decodeEventPayload eventType e.toEvent leafPayloadVersion payload
  let (deviceID, _) ← validateAgentCertificate x e.streamID p.certificateDER
  .ok
    { id := deviceID
      action := .update
        (fun row => row.projectionVersion == e.streamVersion - 1 &&
          row.certificateDER == p.certificateDER &&
          (row.lifecycleState == .active ||
            (allowForceRenewal && row.lifecycleState == .forceRenewal)))
        (fun row =>
          { row with
            projectionVersion := e.streamVersion
            lifecycleState := nextState
            updatedAt := e.createdAt })
        (fun row => row.projectionVersion == e.streamVersion &&
          row.lifecycleState == nextState && row.certificateDER == p.certificateDER)
        (some ⟨p.certificateDER, reasonCode⟩)
      reports :=
        { failed := .wrapped "store: project agent lifecycle state"
          unread := .wrapped "store: inspect agent lifecycle projection"
          conflict := .message
            ("store: agent certificate lifecycle event conflicts with the current device " ++
              "projection")
          many := affectedRows "store: agent lifecycle state" } }

/-- What `projectAgentCertificateRevocation` will do. -/
def agentCertificateRevocation (payload : Payload CertificatePayload) :
    Except StoreError (Plan .agent) :=
  agentLifecycleState x e "AgentCertificateRevoked" payload .revoked reasonCodeUnspecified true

/-- What `projectAgentForceRenewal` will do. -/
def agentForceRenewal (payload : Payload CertificatePayload) : Except StoreError (Plan .agent) :=
  agentLifecycleState x e "AgentCertificateForceRenewalRequired" payload .forceRenewal
    reasonCodeSuperseded false

/-- What `projectAgentOwnerUpdate` will do. -/
def agentOwnerUpdate (payload : Payload AgentOwnerUpdatedPayload) :
    Except StoreError (Plan .agent) := do
  requireThat (1 < e.streamVersion) "store: device owner update must follow enrollment"
  let p ← decodeEventPayload "AgentOwnerUpdated" e.toEvent leafPayloadVersion payload
  let deviceID ← canonicalDeviceID e.streamID
  validateDeviceOwner p.owner
  .ok
    { id := deviceID
      action := .update
        (fun row => row.projectionVersion == e.streamVersion - 1)
        (fun row =>
          { row with
            owner := p.owner
            projectionVersion := e.streamVersion
            updatedAt := e.createdAt })
        (fun row => row.projectionVersion == e.streamVersion && row.owner == p.owner)
        none
      reports :=
        { failed := .wrapped "store: project device owner update"
          unread := .wrapped "store: inspect device owner update"
          conflict := .message
            "store: device owner update conflicts with the current projection"
          many := affectedRows "store: device owner update" } }

/-- What `projectAgentDeletion` will do. -/
def agentDeletion (payload : Payload CertificatePayload) : Except StoreError (Plan .agent) := do
  requireThat (1 < e.streamVersion) "store: device deletion must follow enrollment"
  let p ← decodeEventPayload "AgentDeleted" e.toEvent leafPayloadVersion payload
  let (deviceID, _) ← validateAgentCertificate x e.streamID p.certificateDER
  .ok
    { id := deviceID
      action := .delete (e.streamVersion - 1) p.certificateDER
      reports :=
        { failed := .wrapped "store: project device deletion"
          unread := .wrapped "store: read device for deletion"
          conflict := .message "store: device deletion conflicts with the current projection"
          many := affectedRows "store: device deletion" } }

/-- The plan of a device event. -/
def DeviceBody.plan : DeviceBody → Except StoreError (Plan .agent)
  | enrolled payload => agentEnrollment x e payload
  | certificateRenewed payload => agentCertificateRenewal x e payload
  | certificateRevoked payload => agentCertificateRevocation x e payload
  | forceRenewalRequired payload => agentForceRenewal x e payload
  | ownerUpdated payload => agentOwnerUpdate e payload
  | deleted payload => agentDeletion x e payload

end devices

/-! ## Gateways -/

section gateways

variable (x : LeafX509) (e : Ev O)

/-- What `projectGatewayEnrollment` will do. -/
def gatewayEnrollment (payload : Payload GatewayEnrolledPayload) :
    Except StoreError (Plan .gateway) := do
  requireThat (e.streamVersion == 1)
    ("store: gateway enrollment must be stream version 1, got " ++ toString e.streamVersion)
  let p ← decodeEventPayload "GatewayEnrolled" e.toEvent leafPayloadVersion payload
  let (gatewayID, tokenID) ← validateGatewayEnrollment x e.streamID p
  let row : LeafRow .gateway :=
    { projectionVersion := e.streamVersion
      certificateDER := p.certificateDER
      certificateFingerprint := sha256 p.certificateDER
      previousCertificateDER := none
      registrationTokenID := tokenID
      owner := p.owner
      lifecycleState := .active
      updatedAt := e.createdAt
      extra := p.dnsNames }
  let conflict :=
    StoreError.message "store: gateway enrollment conflicts with the current projection"
  .ok
    { id := gatewayID
      action := .enroll row fun old =>
        (gatewayFromRow x gatewayID old true).isOk && decide (old = row)
      reports :=
        { failed := .wrapped "store: project gateway enrollment"
          unread := .wrapped "store: inspect gateway enrollment projection"
          conflict
          many := affectedRows "store: gateway enrollment" } }

/-- What `projectGatewayRenewal` will do. -/
def gatewayRenewal (payload : Payload GatewayCertificateRenewedPayload) :
    Except StoreError (Plan .gateway) := do
  requireThat (1 < e.streamVersion) "store: gateway renewal requires prior enrollment"
  let p ← decodeEventPayload "GatewayCertificateRenewed" e.toEvent leafPayloadVersion payload
  let gatewayID ← validateGatewayRenewal x e.streamID p
  let conflict := StoreError.message "store: gateway renewal conflicts with the current projection"
  .ok
    { id := gatewayID
      action := .update
        (fun row => row.projectionVersion == e.streamVersion - 1 &&
          row.certificateDER == p.supersededCertificateDER && row.lifecycleState == .active)
        (fun row =>
          { row with
            projectionVersion := e.streamVersion
            certificateDER := p.certificateDER
            certificateFingerprint := sha256 p.certificateDER
            previousCertificateDER := some p.supersededCertificateDER
            updatedAt := e.createdAt })
        (fun row => (gatewayFromRow x gatewayID row true).isOk &&
          row.projectionVersion == e.streamVersion &&
          row.certificateDER == p.certificateDER &&
          row.certificateFingerprint == sha256 p.certificateDER &&
          row.previousCertificateDER == some p.supersededCertificateDER &&
          row.lifecycleState == .active && row.updatedAt == e.createdAt)
        (some ⟨p.supersededCertificateDER, reasonCodeSuperseded⟩)
      reports :=
        { failed := .wrapped "store: project gateway renewal"
          unread := fun _ => conflict
          conflict
          many := affectedRows "store: gateway renewal" } }

/-- What `projectGatewayRevocation` will do. -/
def gatewayRevocation (payload : Payload CertificatePayload) :
    Except StoreError (Plan .gateway) := do
  requireThat (1 < e.streamVersion) "store: gateway revocation requires prior enrollment"
  let p ← decodeEventPayload "GatewayCertificateRevoked" e.toEvent leafPayloadVersion payload
  let (gatewayID, _) ← validateGatewayCertificate x e.streamID p.certificateDER
  let conflict :=
    StoreError.message "store: gateway revocation conflicts with the current projection"
  .ok
    { id := gatewayID
      action := .update
        (fun row => row.projectionVersion == e.streamVersion - 1 &&
          row.certificateDER == p.certificateDER && row.lifecycleState == .active)
        (fun row =>
          { row with
            projectionVersion := e.streamVersion
            lifecycleState := .revoked
            updatedAt := e.createdAt })
        (fun row => (gatewayFromRow x gatewayID row true).isOk &&
          row.projectionVersion == e.streamVersion && row.lifecycleState == .revoked &&
          row.certificateDER == p.certificateDER &&
          row.certificateFingerprint == sha256 p.certificateDER && row.updatedAt == e.createdAt)
        (some ⟨p.certificateDER, reasonCodeUnspecified⟩)
      reports :=
        { failed := .wrapped "store: project gateway revocation"
          unread := fun _ => conflict
          conflict
          many := affectedRows "store: gateway revocation" } }

/-- The plan of a gateway event. -/
def GatewayBody.plan : GatewayBody → Except StoreError (Plan .gateway)
  | enrolled payload => gatewayEnrollment x e payload
  | certificateRenewed payload => gatewayRenewal x e payload
  | certificateRevoked payload => gatewayRevocation x e payload

end gateways

/-! ## Registry -/

/-- Plan an event and carry the plan out. -/
def projectLeaf {cls : CertificateClass} (x : LeafX509) (skipWork : Bool) (e : Ev O)
    (plan : Except StoreError (Plan cls)) : ProjProg O X V Unit :=
  (Prog.ofExcept plan).bind fun plan => plan.prog x skipWork e

/-- `resetDevices` and `resetGateways`. -/
def resetLeaves (cls : CertificateClass) (t : Tables X) : Tables X :=
  { t with
    certificateRevocations := t.certificateRevocations.filter fun key _ => key.1 != cls
    leaves := Function.update t.leaves cls ∅ }

/-- `DeviceRebuildTarget`. -/
def devicesTarget : RebuildTarget (Body O) (Tables X) where
  name := "devices"
  tables := ["devices"]
  sharedTables := ["certificate_revocations"]
  streamTypes := ["device"]
  ownsEvent
    | .device _ => true
    | _ => false
  reset := resetLeaves .agent

/-- `GatewayRebuildTarget`. -/
def gatewaysTarget : RebuildTarget (Body O) (Tables X) where
  name := "gateways"
  tables := ["gateways"]
  sharedTables := ["certificate_revocations"]
  streamTypes := ["gateway"]
  ownsEvent
    | .gateway _ => true
    | _ => false
  reset := resetLeaves .gateway

/-- The target of a class's leaves. -/
def leavesTarget : CertificateClass → RebuildTarget (Body O) (Tables X)
  | .agent => devicesTarget
  | .gateway => gatewaysTarget

/-- The other domains: their events and targets, whose projectors may read every
table, write their own and enqueue work. -/
structure OtherDomains (O X V : Type) where
  eventType : O → String
  targets : List (RebuildTarget O X)
  stream_owner : StreamOwners targets
  stream_types : ∀ t ∈ targets, ∀ streamType ∈ t.streamTypes,
    streamType ∉ ["device", "gateway"]
  project : Bool → Ev O → O → ProjProg O X V Unit
  writes : ∀ skipWork e body, (project skipWork e body).Writes fun w =>
    (∃ v, w = .rest v) ∨ ∃ w', w = .workItems w'
  protectLastAdmin : O → Bool
  countEnabledAdmins : Db O X → Nat
  /-- The first deferred foreign key among the other domains' tables that is violated. -/
  deferred : X → Option StoreError

/-- A target of another domain, among all tables and events. -/
def otherTarget (target : RebuildTarget O X) : RebuildTarget (Body O) (Tables X) where
  name := target.name
  tables := target.tables
  sharedTables := target.sharedTables
  streamTypes := target.streamTypes
  ownsEvent
    | .other body => target.ownsEvent body
    | _ => false
  reset t := { t with rest := target.reset t.rest }

/-- The projector of an event. -/
def project (x : LeafX509) (others : OtherDomains O X V) (skipWork : Bool) (e : Ev O) :
    ProjProg O X V Unit :=
  match e.body with
  | .device body => projectLeaf x skipWork e (body.plan x e)
  | .gateway body => projectLeaf x skipWork e (body.plan x e)
  | .other body => others.project skipWork e body

/-- The registry of a server, with the leaves' targets. -/
def registry (x : LeafX509) (others : OtherDomains O X V) :
    Registry (Body O) (Tables X) (Write V) Key where
  eventType := Body.eventType others.eventType
  targets := [devicesTarget, gatewaysTarget] ++ others.targets.map otherTarget
  stream_owner := by
    refine streamOwners_append ["device", "gateway"] ?_ others.stream_owner (fun _ => rfl) ?_
      others.stream_types
    · simp [StreamOwners, devicesTarget, gatewaysTarget]
    · simp [devicesTarget, gatewaysTarget]
  schema := productionSchema
  project := project x others
  protectLastAdmin
    | .other body => others.protectLastAdmin body
    | _ => false
  countEnabledAdmins := others.countEnabledAdmins
  deferred t := others.deferred t.rest

end PowerManage.Pki
