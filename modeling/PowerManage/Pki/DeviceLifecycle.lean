import PowerManage.Pki.LifecycleReplay

/-!
# The life of a device

Six kinds of events change a device's row and enter revocations of its
certificates, some for a reason that an earlier entry must be compatible with.
What one event does to the row is said once, by `DeviceStep`; the life of a
device is an invariant of its own events.

Main results:

- `deviceStep_of_plan`: what an accepted device event does.
- `Lifecycle.step`: an event keeps the invariant.
- `device_lifecycle`: the invariant holds in every accepted log, and
  what it leaves for the next event.
-/

namespace PowerManage.Pki

open Relational Store
open Prog (run_bind_error run_mapError_error)

variable {O X V : Type}

/-! ## Events of a device -/

/-- The certificate that an event issues. -/
def Body.issues : Body O → Option Bytes
  | device (.enrolled (.decoded p)) => some p.certificateDER
  | device (.certificateRenewed (.decoded p)) => some p.certificateDER
  | _ => none

/-- The event deletes its device. -/
def Body.deletes : Body O → Bool
  | device (.deleted _) => true
  | _ => false

/-- The event changes its device's owner. -/
def Body.changesOwner : Body O → Bool
  | device (.ownerUpdated _) => true
  | _ => false

/-- What an event does to its device's row, and the revocation it brings with it. -/
inductive DeviceStep (e : Ev O) :
    Option (LeafRow .agent) → Option (LeafRow .agent) → Option Revocation → Prop where
  | enrolled {row : LeafRow .agent} (hbody : e.body.issues = some row.certificateDER)
      (hkept : e.body.deletes = false) (hfirst : e.streamVersion = 1)
      (hversion : row.projectionVersion = e.streamVersion)
      (hactive : row.lifecycleState = .active) : DeviceStep e none (some row) none
  | renewed {row row' : LeafRow .agent} (hbody : e.body.issues = some row'.certificateDER)
      (hkept : e.body.deletes = false) (hstate : row.lifecycleState ≠ .revoked)
      (hversion : row'.projectionVersion = e.streamVersion)
      (hactive : row'.lifecycleState = .active) :
      DeviceStep e (some row) (some row') (some ⟨row.certificateDER, reasonCodeSuperseded⟩)
  | stopped {row row' : LeafRow .agent} {reasonCode : Nat} (hbody : e.body.issues = none)
      (hkept : e.body.deletes = false) (hstate : row.lifecycleState ≠ .revoked)
      (hversion : row'.projectionVersion = e.streamVersion)
      (hcertificate : row'.certificateDER = row.certificateDER)
      (hnext : row'.lifecycleState = .forceRenewal ∧ reasonCode = reasonCodeSuperseded ∨
        row'.lifecycleState = .revoked ∧ reasonCode = reasonCodeUnspecified) :
      DeviceStep e (some row) (some row') (some ⟨row.certificateDER, reasonCode⟩)
  | owned {row row' : LeafRow .agent} (hbody : e.body.issues = none)
      (hkept : e.body.deletes = false) (howner : e.body.changesOwner = true)
      (hversion : row'.projectionVersion = e.streamVersion)
      (hcertificate : row'.certificateDER = row.certificateDER)
      (hstate : row'.lifecycleState = row.lifecycleState) :
      DeviceStep e (some row) (some row') none
  | deleted {row : LeafRow .agent} (hbody : e.body.issues = none)
      (hdeletes : e.body.deletes = true) :
      DeviceStep e (some row) none (deletionRevokes row row.certificateDER)

section steps

variable {x : LeafX509} {e : Ev O} {plan : Plan .agent} {old new : Option (LeafRow .agent)}
variable {due : Option Revocation}

theorem requireThat_ok {ok : Bool} {text : String} {u : Unit} (h : requireThat ok text = .ok u) :
    ok = true := by
  cases ok with
  | true => rfl
  | false => cases h

/-- An update whose repetition would show its own version is made for the first time. -/
theorem rowStep_updated {cls : CertificateClass} {id : String}
    {selects repeats : LeafRow cls → Bool} {change : LeafRow cls → LeafRow cls}
    {revokes : Option Revocation} {old new : Option (LeafRow cls)}
    (hnext : ∀ row, old = some row → row.projectionVersion + 1 = e.streamVersion)
    (hrepeats : ∀ row, repeats row = true → row.projectionVersion = e.streamVersion)
    (h : (Action.update selects change repeats revokes).rowStep id old = some (new, due)) :
    ∃ row, old = some row ∧ selects row = true ∧ new = some (change row) ∧ due = revokes := by
  obtain ⟨rfl, row, rfl, ⟨hselects, -, rfl⟩ | ⟨-, hrepeated, -⟩⟩ := rowStep_update.mp h
  · exact ⟨row, rfl, hselects, rfl, rfl⟩
  · have hversion := hnext row rfl
    have hsame := hrepeats row hrepeated
    omega

variable (hnext : ∀ row, old = some row → row.projectionVersion + 1 = e.streamVersion)
variable (hrow : plan.action.rowStep plan.id old = some (new, due))

include hnext hrow

theorem enrollment_step [Sha256] {payload : Payload AgentEnrolledPayload}
    (hbody : e.body = .device (.enrolled payload))
    (hpositive : ∀ row, old = some row → 0 < row.projectionVersion)
    (hplan : agentEnrollment x e payload = .ok plan) : DeviceStep e old new due := by
  simp only [agentEnrollment, bind_eq_ok, Except.ok.injEq] at hplan
  obtain ⟨_, hfirst, p, hdecode, ⟨deviceID, tokenID⟩, hvalid, rfl⟩ := hplan
  rw [decodeEventPayload_ok hdecode] at hbody
  have hfirst : e.streamVersion = 1 := beq_iff_eq.mp (requireThat_ok hfirst)
  obtain ⟨-, rfl, ⟨rfl, rfl⟩ | ⟨row, hold, -⟩⟩ := rowStep_enroll.mp hrow
  · exact .enrolled (by simp [hbody, Body.issues]) (by simp [hbody, Body.deletes]) hfirst rfl rfl
  · have hversion := hnext row hold
    have hzero := hpositive row hold
    omega

theorem renewal_step [Sha256] {payload : Payload AgentCertificateRenewedPayload}
    (hbody : e.body = .device (.certificateRenewed payload))
    (hplan : agentCertificateRenewal x e payload = .ok plan) : DeviceStep e old new due := by
  simp only [agentCertificateRenewal, bind_eq_ok, Except.ok.injEq] at hplan
  obtain ⟨_, -, p, hdecode, deviceID, -, rfl⟩ := hplan
  rw [decodeEventPayload_ok hdecode] at hbody
  obtain ⟨row, rfl, hselects, rfl, rfl⟩ := rowStep_updated hnext (by
    intro row hrepeats
    simp only [Bool.and_eq_true, beq_iff_eq] at hrepeats
    exact hrepeats.1.1.1.1.1) hrow
  simp only [Bool.and_eq_true, beq_iff_eq, bne_iff_ne] at hselects
  rw [← hselects.1.2]
  exact .renewed (by simp [hbody, Body.issues]) (by simp [hbody, Body.deletes]) hselects.2 rfl rfl

variable {payload : Payload CertificatePayload}

theorem lifecycleState_step {eventType : String} {next : LifecycleState} {reasonCode : Nat}
    {allow : Bool} (hbody : e.body.issues = none) (hkept : e.body.deletes = false)
    (hreason : next = .forceRenewal ∧ reasonCode = reasonCodeSuperseded ∨
      next = .revoked ∧ reasonCode = reasonCodeUnspecified)
    (hplan : agentLifecycleState x e eventType payload next reasonCode allow = .ok plan) :
    DeviceStep e old new due := by
  simp only [agentLifecycleState, bind_eq_ok, Except.ok.injEq] at hplan
  obtain ⟨_, -, p, -, ⟨deviceID, c⟩, -, rfl⟩ := hplan
  obtain ⟨row, rfl, hselects, rfl, rfl⟩ := rowStep_updated hnext (by
    intro row hrepeats
    simp only [Bool.and_eq_true, beq_iff_eq] at hrepeats
    exact hrepeats.1.1) hrow
  simp only [Bool.and_eq_true, Bool.or_eq_true, beq_iff_eq] at hselects
  have hstate : row.lifecycleState ≠ .revoked := by
    rcases hselects.2 with hactive | ⟨-, hforced⟩
    · rw [hactive]
      decide
    · rw [hforced]
      decide
  rw [← hselects.1.2]
  exact .stopped hbody hkept hstate rfl rfl hreason

theorem ownerUpdate_step {payload : Payload AgentOwnerUpdatedPayload}
    (hbody : e.body = .device (.ownerUpdated payload))
    (hplan : agentOwnerUpdate e payload = .ok plan) : DeviceStep e old new due := by
  simp only [agentOwnerUpdate, bind_eq_ok, Except.ok.injEq] at hplan
  obtain ⟨_, -, p, -, deviceID, -, _, -, rfl⟩ := hplan
  obtain ⟨row, rfl, -, rfl, rfl⟩ := rowStep_updated hnext (by
    intro row hrepeats
    simp only [Bool.and_eq_true, beq_iff_eq] at hrepeats
    exact hrepeats.1) hrow
  exact .owned (by simp [hbody, Body.issues]) (by simp [hbody, Body.deletes])
    (by simp [hbody, Body.changesOwner]) rfl rfl rfl

omit hnext in
theorem deletion_step (hbody : e.body = .device (.deleted payload))
    (hplan : agentDeletion x e payload = .ok plan) : DeviceStep e old new due := by
  simp only [agentDeletion, bind_eq_ok, Except.ok.injEq] at hplan
  obtain ⟨_, -, p, -, ⟨deviceID, c⟩, -, rfl⟩ := hplan
  obtain ⟨row, rfl, hmatch, rfl, rfl⟩ := rowStep_delete.mp hrow
  simp only [Bool.and_eq_true, beq_iff_eq] at hmatch
  rw [← hmatch.2]
  exact .deleted (by simp [hbody, Body.issues]) (by simp [hbody, Body.deletes])

/-- What an event does to the row of a device that has come to the version before it. -/
theorem deviceStep_of_plan [Sha256]
    (hpositive : ∀ row, old = some row → 0 < row.projectionVersion)
    (hplan : planOf x e .agent = .ok plan) : DeviceStep e old new due := by
  simp only [planOf] at hplan
  split at hplan
  · rename_i body hbody
    cases body with
    | enrolled payload => exact enrollment_step hnext hrow hbody hpositive hplan
    | certificateRenewed payload => exact renewal_step hnext hrow hbody hplan
    | certificateRevoked payload =>
      exact lifecycleState_step hnext hrow (by simp [hbody, Body.issues])
        (by simp [hbody, Body.deletes]) (.inr ⟨rfl, rfl⟩) hplan
    | forceRenewalRequired payload =>
      exact lifecycleState_step hnext hrow (by simp [hbody, Body.issues])
        (by simp [hbody, Body.deletes]) (.inl ⟨rfl, rfl⟩) hplan
    | ownerUpdated payload => exact ownerUpdate_step hnext hrow hbody hplan
    | deleted payload => exact deletion_step hrow hbody hplan
  · cases hplan

end steps

namespace DeviceStep

variable {e : Ev O} {old new : Option (LeafRow .agent)} {due : Option Revocation}
variable {row row' : LeafRow .agent}

/-- A certificate that does not stay current is revoked by the event, or was before. -/
theorem gone (h : DeviceStep e (some row) new due)
    (hgone : ∀ row', new = some row' → row'.certificateDER ≠ row.certificateDER) :
    row.lifecycleState = .revoked ∨ ∃ r ∈ due, r.certificateDER = row.certificateDER := by
  cases h with
  | renewed => exact .inr ⟨_, rfl, rfl⟩
  | stopped => exact .inr ⟨_, rfl, rfl⟩
  | owned _ _ _ _ hcertificate => exact absurd hcertificate (hgone _ rfl)
  | deleted =>
    by_cases hrevoked : row.lifecycleState = .revoked
    · exact .inl hrevoked
    · exact .inr ⟨⟨row.certificateDER, reasonCodeUnspecified⟩,
        by simp [deletionRevokes, hrevoked], rfl⟩

theorem first (h : DeviceStep e none new due) : e.streamVersion = 1 := by
  cases h with
  | enrolled _ _ hfirst => exact hfirst

/-- A revoked device accepts a new owner and its deletion. -/
theorem of_revoked (h : DeviceStep e (some row) new due)
    (hrevoked : row.lifecycleState = .revoked) :
    e.body.changesOwner = true ∨ e.body.deletes = true := by
  cases h with
  | renewed _ _ hstate => exact absurd hrevoked hstate
  | stopped _ _ hstate => exact absurd hrevoked hstate
  | owned _ _ howner => exact .inl howner
  | deleted _ hdeletes => exact .inr hdeletes

variable (h : DeviceStep e old new due)

include h

/-- An event revokes the current certificate, and for good only if the device is
revoked or gone. -/
theorem due_current {r : Revocation} (hr : r ∈ due) :
    ∃ row, old = some row ∧ r.certificateDER = row.certificateDER ∧
      row.lifecycleState ≠ .revoked ∧
      (r.reasonCode = reasonCodeSuperseded ∨ r.reasonCode = reasonCodeUnspecified ∧
        ∀ row', new = some row' → row'.lifecycleState = .revoked) := by
  cases h with
  | enrolled => cases hr
  | @renewed row row' _ _ hstate =>
    cases hr
    exact ⟨row, rfl, rfl, hstate, .inl rfl⟩
  | @stopped row row' _ _ _ hstate _ _ hnext =>
    cases hr
    refine ⟨row, rfl, rfl, hstate, ?_⟩
    rcases hnext with ⟨-, hreason⟩ | ⟨hrevoked, hreason⟩
    · exact .inl hreason
    · refine .inr ⟨hreason, fun row'' hnew => ?_⟩
      cases hnew
      exact hrevoked
  | owned => cases hr
  | @deleted row =>
    unfold deletionRevokes at hr
    split at hr
    · cases hr
    · rename_i hstate
      cases hr
      exact ⟨row, rfl, rfl, hstate, .inr ⟨rfl, by simp⟩⟩

theorem issued {der : Bytes} (hissues : e.body.issues = some der) :
    ∃ row', new = some row' ∧ row'.certificateDER = der := by
  cases h with
  | @enrolled row hbody =>
    rw [hbody] at hissues
    exact ⟨row, rfl, Option.some.inj hissues⟩
  | @renewed _ row' hbody =>
    rw [hbody] at hissues
    exact ⟨row', rfl, Option.some.inj hissues⟩
  | stopped hbody => simp [hbody] at hissues
  | owned hbody => simp [hbody] at hissues
  | deleted hbody => simp [hbody] at hissues

theorem deletes (hdeletes : e.body.deletes = true) : new = none := by
  cases h <;> simp_all

variable (hnew : new = some row')

include hnew

theorem version : row'.projectionVersion = e.streamVersion := by
  cases h <;> cases hnew <;> assumption

/-- The certificate after an event is a new one or the one before it. -/
theorem certificate :
    (e.body.issues = some row'.certificateDER ∧ row'.lifecycleState = .active) ∨
      e.body.issues = none ∧ ∃ row, old = some row ∧ row'.certificateDER = row.certificateDER := by
  cases h with
  | enrolled hbody _ _ _ hactive =>
    cases hnew
    exact .inl ⟨hbody, hactive⟩
  | renewed hbody _ _ _ hactive =>
    cases hnew
    exact .inl ⟨hbody, hactive⟩
  | @stopped row _ _ hbody _ _ _ hcertificate =>
    cases hnew
    exact .inr ⟨hbody, row, rfl, hcertificate⟩
  | @owned row _ hbody _ _ _ hcertificate =>
    cases hnew
    exact .inr ⟨hbody, row, rfl, hcertificate⟩
  | deleted => cases hnew

/-- A device is stopped together with its current certificate. -/
theorem stops (hstate : row'.lifecycleState ≠ .active) :
    (∃ r ∈ due, r.certificateDER = row'.certificateDER) ∨
      ∃ row, old = some row ∧ row'.certificateDER = row.certificateDER ∧
        row'.lifecycleState = row.lifecycleState := by
  cases h with
  | enrolled _ _ _ _ hactive =>
    cases hnew
    exact absurd hactive hstate
  | renewed _ _ _ _ hactive =>
    cases hnew
    exact absurd hactive hstate
  | stopped _ _ _ _ hcertificate =>
    cases hnew
    exact .inl ⟨_, rfl, hcertificate.symm⟩
  | @owned row _ _ _ _ _ hcertificate hsame =>
    cases hnew
    exact .inr ⟨row, rfl, hcertificate, hsame⟩
  | deleted => cases hnew

/-- An active device has a new certificate, or was active with the same one. -/
theorem stays (hissues : e.body.issues = none) (hactive : row'.lifecycleState = .active) :
    due = none ∧ ∃ row, old = some row ∧ row'.certificateDER = row.certificateDER ∧
      row.lifecycleState = .active := by
  cases h with
  | enrolled hbody => simp [hbody] at hissues
  | renewed hbody => simp [hbody] at hissues
  | stopped _ _ _ _ _ hnext =>
    cases hnew
    simp [hactive] at hnext
  | @owned row _ _ _ _ _ hcertificate hsame =>
    cases hnew
    exact ⟨rfl, row, rfl, hcertificate, hsame ▸ hactive⟩
  | deleted => cases hnew

/-- A device that is not revoked after an event was not before. -/
theorem unrevoked (hstate : row'.lifecycleState ≠ .revoked) :
    e.streamVersion = 1 ∨ ∃ row, old = some row ∧ row.lifecycleState ≠ .revoked := by
  cases h with
  | enrolled _ _ hfirst => exact .inl hfirst
  | @renewed row _ _ _ hbefore => exact .inr ⟨row, rfl, hbefore⟩
  | @stopped row _ _ _ _ hbefore => exact .inr ⟨row, rfl, hbefore⟩
  | @owned row _ _ _ _ _ _ hsame =>
    cases hnew
    exact .inr ⟨row, rfl, hsame ▸ hstate⟩
  | deleted => cases hnew

end DeviceStep

/-! ## Revocations that an event brings with it -/

section due

variable [Sha256] {x : LeafX509} {e : Ev O} {cls : CertificateClass} {due : Option Revocation}
variable {t t' : Table RevocationKey RevocationRow} {key : RevocationKey} {row : RevocationRow}
variable (h : enterDue x e cls due t = some t')

include h

theorem enterDue_isSome {r : Revocation} (hr : r ∈ due) :
    (t'.find (cls, sha256 r.certificateDER)).isSome = true := by
  cases hr
  obtain ⟨c, row, -, hfind, -⟩ := enter_listed h
  exact Option.isSome_iff_exists.mpr ⟨row, hfind⟩

theorem isSome_enterDue (hsome : (t.find key).isSome = true) : (t'.find key).isSome = true := by
  obtain ⟨row, hrow⟩ := Option.isSome_iff_exists.mp hsome
  exact Option.isSome_iff_exists.mpr ⟨row, enterDue_find h hrow⟩

end due

/-! ## The invariant -/

/-- The certificates that events issue, in order. -/
def issued (es : List (Ev O)) : List Bytes :=
  es.filterMap (·.body.issues)

/-- A revocation row says what it revokes, and stems from one of the first events. -/
structure StoredRevocation [Sha256] (x : LeafX509) (es : List (Ev O)) (key : RevocationKey)
    (row : RevocationRow) : Prop where
  key_eq : key = (.agent, sha256 row.certificateDER)
  issued : row.certificateDER ∈ issued es
  source : row.sourceStreamVersion ≤ es.length
  material : ∃ c, revokedCertificate x row.certificateDER = .ok c ∧
    row.issuerIdentifier = c.authorityKeyID ∧ row.serialNumber = c.serialNumber

/-- What a device's own events leave of its row and its revocations. -/
structure Lifecycle [Sha256] (x : LeafX509) (es : List (Ev O)) (l : LeafShare .agent) :
    Prop where
  version : ∀ row, l.row = some row → row.projectionVersion = es.length ∧ 0 < es.length
  current : ∀ row, l.row = some row → row.certificateDER ∈ issued es
  stored : ∀ key row, l.revocations.find key = some row → StoredRevocation x es key row
  reasons : ∀ row, l.row = some row → row.lifecycleState ≠ .revoked → ∀ key stored,
    l.revocations.find key = some stored → stored.reasonCode = reasonCodeSuperseded
  superseded : ∀ der ∈ issued es, (∀ row, l.row = some row → row.certificateDER ≠ der) →
    (l.revocations.find (.agent, sha256 der)).isSome = true
  stopped : ∀ row, l.row = some row → row.lifecycleState ≠ .active →
    (l.revocations.find (.agent, sha256 row.certificateDER)).isSome = true
  active : (issued es).Nodup → ∀ row, l.row = some row → row.lifecycleState = .active →
    l.revocations.find (.agent, sha256 row.certificateDER) = none
  deleted : ∀ e ∈ es, e.body.deletes = true → l.row = none

section invariant

variable {x : LeafX509} {e : Ev O} {es : List (Ev O)} {l l' : LeafShare .agent}
variable {due : Option Revocation}

theorem issued_append (es : List (Ev O)) (e : Ev O) :
    issued (es ++ [e]) = issued es ++ e.body.issues.toList := by
  cases h : e.body.issues <;> simp [issued, h]

theorem mem_issued_append {der : Bytes} (h : der ∈ issued es) : der ∈ issued (es ++ [e]) := by
  rw [issued_append]
  exact List.mem_append_left _ h

variable [Sha256] (h : Lifecycle x es l) (hversion : e.streamVersion = es.length + 1)

include h hversion

/-- The next event meets no stored revocation that it does not agree with. -/
theorem Lifecycle.keeps {new : Option (LeafRow .agent)} (hstep : DeviceStep e l.row new due)
    {r : Revocation} (hr : r ∈ due) {c : LeafCertificate}
    (hcert : revokedCertificate x r.certificateDER = .ok c) {stored : RevocationRow}
    (hfind : l.revocations.find (.agent, sha256 r.certificateDER) = some stored) :
    stored.keeps (revocationRow e c r.certificateDER r.reasonCode) = true := by
  have hrow := h.stored _ stored hfind
  obtain ⟨row, hold, -, hstate, hreason⟩ := hstep.due_current hr
  have hsuperseded := h.reasons row hold hstate _ stored hfind
  have hsame : r.certificateDER = stored.certificateDER := by simpa using hrow.key_eq
  obtain ⟨c', hcert', hissuer, hserial⟩ := hrow.material
  rw [← hsame, hcert] at hcert'
  cases hcert'
  have hcompatible : compatibleRevocationReason stored.reasonCode r.reasonCode = true := by
    rw [hsuperseded]
    rcases hreason with hreason | ⟨hreason, -⟩
    · simp [compatibleRevocationReason, hreason]
    · simp [compatibleRevocationReason, hreason]
  have hother : stored.sourceStreamVersion ≠ e.streamVersion := by
    have hsource := hrow.source
    omega
  simp [RevocationRow.keeps, RevocationRow.agrees, RevocationRow.sameSource, revocationRow, hsame,
    hissuer, hserial, hcompatible, hother]

variable (hstep : DeviceStep e l.row l'.row due)
variable (hdue : enterDue x e .agent due l.revocations = some l'.revocations)

include hstep hdue

theorem Lifecycle.stored_step (key : RevocationKey) (row : RevocationRow)
    (hrow : l'.revocations.find key = some row) : StoredRevocation x (es ++ [e]) key row := by
  rcases enterDue_find_cases hdue hrow with hold | ⟨r, hr, rfl, c, hcert, rfl⟩
  · have hstored := h.stored key row hold
    refine ⟨hstored.key_eq, mem_issued_append hstored.issued, ?_, hstored.material⟩
    have hsource := hstored.source
    simp only [List.length_append, List.length_singleton]
    omega
  · obtain ⟨row₀, hold, hcurrent, -⟩ := hstep.due_current hr
    refine ⟨rfl, ?_, ?_, c, hcert, rfl, rfl⟩
    · change r.certificateDER ∈ _
      rw [hcurrent]
      exact mem_issued_append (h.current row₀ hold)
    · change e.streamVersion ≤ _
      simp [hversion]

/-- An event keeps the invariant. -/
theorem Lifecycle.step : Lifecycle x (es ++ [e]) l' where
  version row' hnew := by
    rw [hstep.version hnew, hversion]
    simp
  current row' hnew := by
    rw [issued_append]
    rcases hstep.certificate hnew with ⟨hissues, -⟩ | ⟨-, row, hold, hsame⟩
    · simp [hissues]
    · rw [hsame]
      exact List.mem_append_left _ (h.current row hold)
  stored := h.stored_step hversion hstep hdue
  reasons row' hnew hstate key stored hfind := by
    rcases enterDue_find_cases hdue hfind with hold | ⟨r, hr, -, c, -, rfl⟩
    · rcases hstep.unrevoked hnew hstate with hfirst | ⟨row, hrow, hbefore⟩
      · -- Before the first event nothing is revoked.
        have hempty : es = [] := List.length_eq_zero_iff.mp (by omega)
        have hissued := (h.stored key stored hold).issued
        simp [hempty, issued] at hissued
      · exact h.reasons row hrow hbefore key stored hold
    · obtain ⟨-, -, -, -, hreason⟩ := hstep.due_current hr
      rcases hreason with hreason | ⟨-, hrevoked⟩
      · exact hreason
      · exact absurd (hrevoked row' hnew) hstate
  superseded der hder hgone := by
    rw [issued_append] at hder
    rcases List.mem_append.mp hder with hbefore | hnew
    · by_cases hcurrent : ∃ row, l.row = some row ∧ row.certificateDER = der
      · obtain ⟨row, hrow, rfl⟩ := hcurrent
        rw [hrow] at hstep
        rcases hstep.gone hgone with hrevoked | ⟨r, hr, hsame⟩
        · exact isSome_enterDue hdue (h.stopped row hrow (by simp [hrevoked]))
        · rw [← hsame]
          exact enterDue_isSome hdue hr
      · push Not at hcurrent
        exact isSome_enterDue hdue (h.superseded der hbefore hcurrent)
    · have hissues : e.body.issues = some der := by simpa using hnew
      obtain ⟨row', hrow', hsame⟩ := hstep.issued hissues
      exact absurd hsame (hgone row' hrow')
  stopped row' hnew hstate := by
    rcases hstep.stops hnew hstate with ⟨r, hr, hsame⟩ | ⟨row, hrow, hsame, hsameState⟩
    · rw [← hsame]
      exact enterDue_isSome hdue hr
    · rw [hsame]
      exact isSome_enterDue hdue (h.stopped row hrow (hsameState ▸ hstate))
  active hfresh row' hnew hactive := by
    rw [issued_append] at hfresh
    rcases hstep.certificate hnew with ⟨hissues, -⟩ | ⟨hissues, -⟩
    · -- A new certificate is none of the certificates that were revoked.
      by_contra hsome
      obtain ⟨stored, hstored⟩ := Option.ne_none_iff_exists'.mp hsome
      have hnotissued : row'.certificateDER ∉ issued es := by
        intro hmem
        rw [hissues] at hfresh
        exact (List.nodup_append.mp hfresh).2.2 _ hmem _ (by simp) rfl
      rcases enterDue_find_cases hdue hstored with hold | ⟨r, hr, hkey, -⟩
      · have hrow := h.stored _ stored hold
        have hsame : row'.certificateDER = stored.certificateDER := by
          simpa using hrow.key_eq
        exact hnotissued (hsame ▸ hrow.issued)
      · obtain ⟨row, hrow, hcurrent, -⟩ := hstep.due_current hr
        have hsame : row'.certificateDER = r.certificateDER := by simpa using hkey
        exact hnotissued (hsame ▸ hcurrent ▸ h.current row hrow)
    · obtain ⟨rfl, row, hrow, hsame, hbefore⟩ := hstep.stays hnew hissues hactive
      have htable : l.revocations = l'.revocations := Option.some.inj hdue
      rw [← htable, hsame]
      exact h.active (List.nodup_append.mp hfresh).1 row hrow hbefore
  deleted e' he' hdeletes := by
    rcases List.mem_append.mp he' with hbefore | hlast
    · have hnone := h.deleted e' hbefore hdeletes
      have hlength := List.length_pos_of_mem hbefore
      rw [hnone] at hstep
      have hfirst := hstep.first
      omega
    · rw [List.mem_singleton] at hlast
      exact hstep.deletes (hlast ▸ hdeletes)

end invariant

/-! ## Refused revocations -/

/-- How a revocation fails that does not agree with the stored one. -/
def revocationRefusals : List StoreError :=
  [.message "store: certificate revocation conflicts with existing material",
    .message "store: certificate revocation source event has a mismatched reason"]

/-- The reports of a plan are not those of a refused revocation. -/
structure Reports.Apart (reports : Reports) : Prop where
  failed : ∀ err, reports.failed err ∉ revocationRefusals
  unread : ∀ err, reports.unread err ∉ revocationRefusals
  conflict : reports.conflict ∉ revocationRefusals
  many : reports.many 0 ∉ revocationRefusals

section refusals

variable [Applies V X] {x : LeafX509} {e : Ev O} {cls : CertificateClass} {d : Db O X}
variable {err : StoreError}

theorem wrapped_apart (text : String) (err : StoreError) :
    StoreError.wrapped text err ∉ revocationRefusals := by
  simp [revocationRefusals]

theorem enqueueWork_apart
    (h : (enqueueWork false e (crlWork cls e) : ProjProg O X V Unit).run d = .error err) :
    err ∉ revocationRefusals := by
  have hkind : validateWorkKind cls.crlWorkKind = .ok () := by cases cls <;> decide
  have hvalid : validateWork (crlWork cls e) = .ok () := by
    simp [validateWork, crlWork, hkind, bind, Except.bind, maxWorkPayloadBytes, maxWorkAttempts]
  simp [enqueueWork, hvalid] at h
  rcases run_bind_error h with hinvalid | ⟨_, d', -, hinsert⟩
  · cases hinvalid
  · obtain ⟨err', rfl⟩ := run_mapError_error hinsert
    exact wrapped_apart _ _

theorem settle_apart {id : String} {reports : Reports} {repeats : LeafRow cls → Bool} {n : Nat}
    (hapart : reports.Apart) (hn : n = 0 ∨ n = 1)
    (h : (settle id reports repeats n : ProjProg O X V Unit).run d = .error err) :
    err ∉ revocationRefusals := by
  rcases hn with rfl | rfl
  · simp [settle] at h
    rcases run_bind_error h with hfail | ⟨row, d₁, -, hrequire⟩
    · obtain ⟨err', rfl⟩ := run_mapError_error hfail
      exact hapart.unread err'
    · rw [← (Prog.run_require_error hrequire).2]
      exact hapart.conflict
  · cases h

theorem apart_of_texts {failed unread conflict subject : String}
    (hconflict : StoreError.message conflict ∉ revocationRefusals)
    (hmany : affectedRows subject 0 ∉ revocationRefusals) :
    Reports.Apart ⟨.wrapped failed, .wrapped unread, .message conflict, affectedRows subject⟩ :=
  ⟨wrapped_apart failed, wrapped_apart unread, hconflict, hmany⟩

variable [Sha256]

theorem settleRevocation_refused {row : RevocationRow} {n : Nat} (hn : n = 0 ∨ n = 1)
    (h : (settleRevocation false e cls row n : ProjProg O X V Unit).run d = .error err)
    (herr : err ∈ revocationRefusals) :
    ∃ stored, d.tables.certificateRevocations.find (cls, sha256 row.certificateDER) =
      some stored ∧ stored.keeps row = false := by
  rcases hn with rfl | rfl
  · simp [settleRevocation] at h
    rcases run_bind_error h with hfail | ⟨stored, d₁, hread, hchecks⟩
    · obtain ⟨err', rfl⟩ := run_mapError_error hfail
      exact absurd herr (wrapped_apart _ _)
    have hfind := run_getCertificateRevocation_ok.mp (Prog.run_mapError_ok.mp hread)
    refine ⟨stored, hfind.1, ?_⟩
    rcases run_bind_error hchecks with hfail | ⟨_, d₂, -, hsource⟩
    · rw [RevocationRow.keeps, (Prog.run_require_error hfail).1]
      rfl
    split at hsource
    · rename_i hsame
      simp [RevocationRow.keeps, hsame, (Prog.run_require_error hsource).1]
    · exact absurd herr (enqueueWork_apart hsource)
  · exact absurd herr (enqueueWork_apart h)

/-- A revocation is due and does not agree with the stored one. -/
def Disagrees (x : LeafX509) (e : Ev O) (cls : CertificateClass) (d : Db O X)
    (due : Option Revocation) : Prop :=
  ∃ r ∈ due, ∃ c stored, revokedCertificate x r.certificateDER = .ok c ∧
    d.tables.certificateRevocations.find (cls, sha256 r.certificateDER) = some stored ∧
    stored.keeps (revocationRow e c r.certificateDER r.reasonCode) = false

/-- A refused revocation has met a stored one that it does not agree with. -/
theorem projectRevocation_refused {due : Option Revocation}
    (h : (projectRevocation x false e cls due : ProjProg O X V Unit).run d = .error err)
    (herr : err ∈ revocationRefusals) : Disagrees x e cls d due := by
  cases due with
  | none => cases h
  | some r =>
    simp [projectRevocation, projectCertificateRevocation] at h
    rcases run_bind_error h with hfail | ⟨c, d₁, hread, hentry⟩
    · exfalso
      unfold revokedCertificate at hfail
      split at hfail
      · cases hfail
        simp [revocationRefusals] at herr
      · split at hfail
        · cases hfail
          simp [revocationRefusals] at herr
        · cases hfail
    have hcert := Prog.run_ofExcept_ok.mp hread
    rw [hcert.2] at hentry
    rcases run_bind_error hentry with hfail | ⟨n, d₂, hinsert, hsettle⟩
    · obtain ⟨err', rfl⟩ := run_mapError_error hfail
      exact absurd herr (wrapped_apart _ _)
    have hcase := (run_insertCertificateRevocation_ok.mp (Prog.run_mapError_ok.mp hinsert)).2
    rcases hcase with ⟨old, -, rfl, rfl⟩ | ⟨-, -, rfl, rfl⟩
    · obtain ⟨stored, hstored, hkeeps⟩ := settleRevocation_refused (.inl rfl) hsettle herr
      exact ⟨r, rfl, c, stored, hcert.1, hstored, hkeeps⟩
    · exact absurd herr (enqueueWork_apart hsettle)

/-- A plan fails that way only for the revocation it brings with it. -/
theorem prog_refused {plan : Plan cls} (hapart : plan.reports.Apart)
    (h : (plan.prog x false e : ProjProg O X V Unit).run d = .error err)
    (herr : err ∈ revocationRefusals) :
    ∃ row due, plan.action.rowStep plan.id ((d.tables.leaves cls).find plan.id) =
      some (row, due) ∧ Disagrees x e cls d due := by
  unfold Plan.prog at h
  cases haction : plan.action with
  | enroll row repeats =>
    simp [haction] at h
    rcases run_bind_error h with hfail | ⟨n, d₁, hupsert, hsettle⟩
    · obtain ⟨err', rfl⟩ := run_mapError_error hfail
      exact absurd herr (hapart.failed err')
    have hcase := (run_upsertEnrollment_ok.mp (Prog.run_mapError_ok.mp hupsert)).2
    have hn : n = 0 ∨ n = 1 := by
      rcases hcase with ⟨_, -, hn, -⟩ | ⟨-, hn, -⟩
      · exact .inl hn
      · exact .inr hn
    exact absurd herr (settle_apart hapart hn hsettle)
  | update selects change repeats revokes =>
    simp [haction] at h
    rcases run_bind_error h with hfail | ⟨n, d₁, hupdate, hrest⟩
    · obtain ⟨err', rfl⟩ := run_mapError_error hfail
      exact absurd herr (hapart.failed err')
    have hcase := run_updateLeaf_ok.mp (Prog.run_mapError_ok.mp hupdate)
    have hn : n = 0 ∨ n = 1 := by
      rcases hcase with ⟨-, hn, -⟩ | ⟨_, -, -, -, hn, -⟩
      · exact .inl hn
      · exact .inr hn
    rcases run_bind_error hrest with hfail | ⟨_, d₂, hsettle, hrevocation⟩
    · exact absurd herr (settle_apart hapart hn hfail)
    obtain ⟨rfl, hsettled⟩ := run_settle_ok.mp hsettle
    have hdisagrees := projectRevocation_refused hrevocation herr
    rcases hcase with ⟨hnone, rfl, rfl⟩ | ⟨old, hold, hselects, hcheck, rfl, rfl⟩
    · rcases hsettled with hone | ⟨-, row, hrow, hrepeats⟩
      · cases hone
      have hnot : selects row = false := by
        rw [hrow] at hnone
        simpa using hnone
      exact ⟨some row, revokes, rowStep_update.mpr ⟨rfl, row, hrow, .inr ⟨hnot, hrepeats, rfl⟩⟩,
        hdisagrees⟩
    · exact ⟨some (change old), revokes, rowStep_update.mpr
        ⟨rfl, old, hold, .inl ⟨hselects, hcheck, rfl⟩⟩, hdisagrees⟩
  | delete version der =>
    simp [haction] at h
    rcases run_bind_error h with hfail | ⟨row, d₁, hread, hrest⟩
    · obtain ⟨err', rfl⟩ := run_mapError_error hfail
      exact absurd herr (hapart.unread err')
    obtain ⟨hrow, rfl⟩ := run_getLeaf_ok.mp (Prog.run_mapError_ok.mp hread)
    rcases run_bind_error hrest with hfail | ⟨_, d₂, hrequire, hrevocation⟩
    · rw [← (Prog.run_require_error hfail).2] at herr
      exact absurd herr hapart.conflict
    obtain ⟨hmatch, rfl⟩ := Prog.run_require_ok.mp hrequire
    rcases run_bind_error hrevocation with hfail | ⟨_, d₃, -, hdeletion⟩
    · exact ⟨none, _, rowStep_delete.mpr ⟨row, hrow, hmatch, rfl, rfl⟩,
        projectRevocation_refused hfail herr⟩
    · exfalso
      rcases run_bind_error hdeletion with hfail | ⟨n, d₄, hdelete, hone⟩
      · obtain ⟨err', rfl⟩ := run_mapError_error hfail
        exact hapart.failed err' herr
      rcases run_deleteLeaf_ok.mp (Prog.run_mapError_ok.mp hdelete) with
        ⟨-, rfl, -⟩ | ⟨_, -, -, rfl, -⟩
      · rw [← (Prog.run_require_error hone).2] at herr
        exact hapart.many herr
      · cases hone

theorem planOf_apart {plan : Plan .agent} (h : planOf x e .agent = .ok plan) :
    plan.reports.Apart := by
  simp only [planOf] at h
  split at h
  · rename_i body hbody
    cases body with
    | enrolled payload =>
      simp [DeviceBody.plan, agentEnrollment, bind_eq_ok] at h
      obtain ⟨_, -, p, -, ⟨deviceID, tokenID⟩, -, rfl⟩ := h
      exact apart_of_texts (by decide) (by decide)
    | certificateRenewed payload =>
      simp [DeviceBody.plan, agentCertificateRenewal, bind_eq_ok] at h
      obtain ⟨_, -, p, -, deviceID, -, rfl⟩ := h
      exact apart_of_texts (by decide) (by decide)
    | certificateRevoked payload =>
      simp [DeviceBody.plan, agentCertificateRevocation, agentLifecycleState, bind_eq_ok] at h
      obtain ⟨_, -, p, -, ⟨deviceID, c⟩, -, rfl⟩ := h
      exact apart_of_texts (by decide) (by decide)
    | forceRenewalRequired payload =>
      simp [DeviceBody.plan, agentForceRenewal, agentLifecycleState, bind_eq_ok] at h
      obtain ⟨_, -, p, -, ⟨deviceID, c⟩, -, rfl⟩ := h
      exact apart_of_texts (by decide) (by decide)
    | ownerUpdated payload =>
      simp [DeviceBody.plan, agentOwnerUpdate, bind_eq_ok] at h
      obtain ⟨_, -, p, -, deviceID, -, _, -, rfl⟩ := h
      exact apart_of_texts (by decide) (by decide)
    | deleted payload =>
      simp [DeviceBody.plan, agentDeletion, bind_eq_ok] at h
      obtain ⟨_, -, p, -, ⟨deviceID, c⟩, -, rfl⟩ := h
      exact apart_of_texts (by decide) (by decide)
  · cases h

end refusals

/-! ## Accepted logs -/

section accepted

variable [Sha256] {x : LeafX509} {others : OtherDomains O X V} {d d' : Db O X} {e : Ev O}
variable {built : Event (Body O) → Prop} {rest : X} {id : String} {plan : Plan .agent}

/-- The events of a device, in order. -/
def deviceEvents (d : Db O X) (id : String) : List (Ev O) :=
  d.events.filter fun e => e.stream = ("device", id)

theorem version_of_admissible (hadm : Admissible (registry x others) built d e)
    (hstream : e.stream = ("device", id)) : e.streamVersion = (deviceEvents d id).length + 1 := by
  rw [hadm.next, hstream]
  simp [streamLength, versionsOf, deviceEvents]

theorem deviceOwned_of_admissible (hadm : Admissible (registry x others) built d e)
    (hstream : e.stream = ("device", id)) : LeafOwned .agent e ∧ e.streamID = id := by
  have htype : e.streamType = "device" := congrArg Prod.fst hstream
  exact ⟨leafOwned_of_admissible hadm htype, congrArg Prod.snd hstream⟩

/-- A device's next event takes the row of its invariant one step on. -/
theorem Lifecycle.deviceStep {es : List (Ev O)} {l : LeafShare .agent}
    {new : Option (LeafRow .agent)} {due : Option Revocation} (h : Lifecycle x es l)
    (hversion : e.streamVersion = es.length + 1) (hplan : planOf x e .agent = .ok plan)
    (hrow : plan.action.rowStep plan.id l.row = some (new, due)) : DeviceStep e l.row new due := by
  refine deviceStep_of_plan (fun row hold => ?_) hrow (fun row hold => ?_) hplan
  · rw [(h.version row hold).1, hversion]
  · have hpositive := h.version row hold
    omega

theorem issues_named {der : Bytes} (hplan : planOf x e .agent = .ok plan)
    (hissues : e.body.issues = some der) : x.instanceID der = some plan.id := by
  simp only [planOf] at hplan
  split at hplan
  · rename_i body hbody
    rw [hbody] at hissues
    unfold Body.issues at hissues
    split at hissues
    · rename_i p hbody'
      cases hbody'
      cases hissues
      simp only [DeviceBody.plan, agentEnrollment, bind_eq_ok, Except.ok.injEq] at hplan
      obtain ⟨_, -, p', hdecode, ⟨deviceID, tokenID⟩, hvalid, rfl⟩ := hplan
      cases decodeEventPayload_ok hdecode
      obtain ⟨c, hcert⟩ := validateAgentEnrollment_ok hvalid
      exact agent_named hcert
    · rename_i p hbody'
      cases hbody'
      cases hissues
      simp only [DeviceBody.plan, agentCertificateRenewal, bind_eq_ok, Except.ok.injEq] at hplan
      obtain ⟨_, -, p', hdecode, deviceID, hvalid, rfl⟩ := hplan
      cases decodeEventPayload_ok hdecode
      exact (validateAgentCertificateRenewal_ok hvalid).2.2
    · cases hissues
  · cases hplan

/-- The invariant of every device, and the name on its certificates. -/
structure DeviceInvariant (x : LeafX509) (d : Db O X) (id : String) : Prop where
  lifecycle : Lifecycle x (deviceEvents d id) ((leafShares x .agent).view d id)
  named : ∀ der ∈ issued (deviceEvents d id), x.instanceID der = some id

/-- The certificate has a revocation row. -/
def Revoked (d : Db O X) (der : Bytes) : Prop :=
  (d.tables.certificateRevocations.find (.agent, sha256 der)).isSome = true

theorem revoked_of_view {der : Bytes}
    (h : (((leafShares x .agent).view d id).revocations.find (.agent, sha256 der)).isSome =
      true) : Revoked d der := by
  obtain ⟨row, hrow⟩ := Option.isSome_iff_exists.mp h
  simp [leafShares] at hrow
  exact Option.isSome_iff_exists.mpr ⟨row, hrow.2⟩

variable [Applies V X]

theorem DeviceInvariant.accept (h : DeviceInvariant x d id)
    (hadm : Admissible (registry x others) built d e)
    (haccept : acceptEvent (registry x others) d e = .ok d') : DeviceInvariant x d' id := by
  have hrun : (project x others false e).run { d with events := d.events ++ [e] } =
      .ok ((), d') := projectEvent_ok.mp haccept
  have hevents : d'.events = d.events ++ [e] := acceptEvent_events haccept
  by_cases hstream : e.stream = ("device", id)
  · obtain ⟨howned, rfl⟩ := deviceOwned_of_admissible hadm hstream
    have hlog : deviceEvents d' e.streamID = deviceEvents d e.streamID ++ [e] := by
      simp [deviceEvents, hevents, List.filter_append, hstream]
    have hversion := version_of_admissible hadm hstream
    obtain ⟨hlive, -⟩ := leaf_live howned hrun
    obtain ⟨plan, hplan, hstep⟩ := leafStep_ok hlive
    obtain ⟨due, hrow, hdue⟩ := step_ok hstep
    constructor
    · rw [hlog]
      exact h.lifecycle.step hversion (h.lifecycle.deviceStep hversion hplan hrow) hdue
    · intro der hder
      rw [hlog, issued_append] at hder
      rcases List.mem_append.mp hder with hbefore | hnew
      · exact h.named der hbefore
      · have hissues : e.body.issues = some der := by simpa using hnew
        rw [← howned.id_eq hplan]
        exact issues_named hplan hissues
  · have hlog : deviceEvents d' id = deviceEvents d id := by
      simp [deviceEvents, hevents, List.filter_append, hstream]
    have hview : (leafShares x .agent).view d' id = (leafShares x .agent).view d id := by
      by_cases htype : e.streamType = "device"
      · have howned : LeafOwned .agent e := leafOwned_of_admissible hadm htype
        refine (leaf_live howned hrun).2 id ?_
        rintro rfl
        exact hstream (by simp [Event.stream, htype])
      · have hforeign : e.streamType ≠ CertificateClass.agent.streamType := htype
        exact leaf_foreign hadm hforeign hrun id
    exact ⟨by rw [hlog, hview]; exact h.lifecycle, by rw [hlog]; exact h.named⟩

theorem deviceInvariant (h : Accepted (registry x others) built (Tables.init rest) d)
    (id : String) : DeviceInvariant x d id := by
  refine h.extends.induction (P := fun d => DeviceInvariant x d id) ?_ ?_
  · intro d e d' hd hadm haccept
    exact hd.accept hadm haccept
  · have hempty : (leavesModel x others built .agent).view (⟨[], Tables.init rest⟩ : Db O X) id =
        (leavesModel x others built .agent).empty := init_view .agent id
    have hview : (leafShares x .agent).view (⟨[], Tables.init rest⟩ : Db O X) id = ⟨none, ∅⟩ :=
      hempty
    refine ⟨?_, by simp [deviceEvents, issued]⟩
    rw [hview]
    exact ⟨by simp, by simp, by simp, by simp, by simp [deviceEvents, issued], by simp, by simp,
      by simp [deviceEvents]⟩

/-- What holds of a device, and of its next event. -/
structure DeviceLife (x : LeafX509) (others : OtherDomains O X V) (built : Event (Body O) → Prop)
    (d : Db O X) (id : String) : Prop where
  superseded : ∀ der ∈ issued (deviceEvents d id),
    (∀ row, (d.tables.leaves .agent).find id = some row → row.certificateDER ≠ der) →
      Revoked d der
  stopped : ∀ row, (d.tables.leaves .agent).find id = some row →
    row.lifecycleState = .revoked ∨ row.lifecycleState = .forceRenewal →
      Revoked d row.certificateDER
  active : ∀ row, (d.tables.leaves .agent).find id = some row → row.lifecycleState = .active →
    ¬ Revoked d row.certificateDER
  revoked : ∀ row, (d.tables.leaves .agent).find id = some row → row.lifecycleState = .revoked →
    ∀ e d', Admissible (registry x others) built d e → e.stream = ("device", id) →
      acceptEvent (registry x others) d e = .ok d' →
        e.body.changesOwner = true ∨ e.body.deletes = true
  deleted : ∀ e ∈ deviceEvents d id, e.body.deletes = true →
    (d.tables.leaves .agent).find id = none ∧
      (∀ der ∈ issued (deviceEvents d id), Revoked d der) ∧
      ∀ e' d', Admissible (registry x others) built d e' → e'.stream = ("device", id) →
        acceptEvent (registry x others) d e' ≠ .ok d'
  /-- The projector of a next event does not fail over a stored revocation. -/
  unrefused : ∀ e plan, Admissible (registry x others) built d e → e.stream = ("device", id) →
    planOf x e .agent = .ok plan → ∀ err ∈ revocationRefusals,
      (plan.prog x false e : ProjProg O X V Unit).run { d with events := d.events ++ [e] } ≠
        .error err

/-- An accepted event of a device is a step of its row. -/
theorem DeviceInvariant.accepted_step (h : DeviceInvariant x d id)
    (hadm : Admissible (registry x others) built d e) (hstream : e.stream = ("device", id))
    (haccept : acceptEvent (registry x others) d e = .ok d') :
    ∃ new due, DeviceStep e ((d.tables.leaves .agent).find id) new due := by
  have hrun : (project x others false e).run { d with events := d.events ++ [e] } =
      .ok ((), d') := projectEvent_ok.mp haccept
  obtain ⟨howned, rfl⟩ := deviceOwned_of_admissible hadm hstream
  obtain ⟨plan, hplan, hstep⟩ := leafStep_ok (leaf_live howned hrun).1
  obtain ⟨due, hrow, -⟩ := step_ok hstep
  exact ⟨_, due, h.lifecycle.deviceStep (version_of_admissible hadm hstream) hplan hrow⟩

/-- In every accepted log, a device lives through its certificates one after another. -/
theorem device_lifecycle (h : Accepted (registry x others) built (Tables.init rest) d)
    (id : String) (hfresh : (issued (deviceEvents d id)).Nodup) :
    DeviceLife x others built d id := by
  have hinv := deviceInvariant h id
  have hlife := hinv.lifecycle
  refine ⟨?_, ?_, ?_, ?_, ?_, ?_⟩
  · intro der hder hgone
    exact revoked_of_view (hlife.superseded der hder hgone)
  · intro row hrow hstate
    have hinactive : row.lifecycleState ≠ .active := by
      rcases hstate with hstate | hstate <;> simp [hstate]
    exact revoked_of_view (hlife.stopped row hrow hinactive)
  · intro row hrow hactive hrevoked
    have hnone := hlife.active hfresh row hrow hactive
    have hown : ownKey x .agent id (.agent, sha256 row.certificateDER) = true :=
      ownKey_sha256 (hinv.named _ (hlife.current row hrow))
    simp [leafShares, hown] at hnone
    simp [Revoked, hnone] at hrevoked
  · intro row hrow hrevoked e d' hadm hstream haccept
    obtain ⟨new, due, hstep⟩ := hinv.accepted_step hadm hstream haccept
    rw [hrow] at hstep
    exact hstep.of_revoked hrevoked
  · intro e he hdeletes
    have hnone : (d.tables.leaves .agent).find id = none := hlife.deleted e he hdeletes
    refine ⟨hnone, fun der hder => ?_, fun e' d' hadm hstream haccept => ?_⟩
    · refine revoked_of_view (hlife.superseded der hder fun row hrow => ?_)
      exact absurd (hnone.symm.trans hrow) (by simp)
    · obtain ⟨new, due, hstep⟩ := hinv.accepted_step hadm hstream haccept
      rw [hnone] at hstep
      have hfirst := hstep.first
      have hversion := version_of_admissible hadm hstream
      have hlength := List.length_pos_of_mem he
      omega
  · intro e plan hadm hstream hplan err herr hfails
    obtain ⟨howned, rfl⟩ := deviceOwned_of_admissible hadm hstream
    have hid := howned.id_eq hplan
    obtain ⟨new, due, hrow, r, hr, c, stored, hcert, hfind, hkeeps⟩ :=
      prog_refused (planOf_apart hplan) hfails herr
    have hversion := version_of_admissible hadm hstream
    have hrow' : plan.action.rowStep plan.id
        ((leafShares x .agent).view d e.streamID).row = some (new, due) := by
      rw [← hid]
      exact hrow
    have hstored : ((leafShares x .agent).view d e.streamID).revocations.find
        (.agent, sha256 r.certificateDER) = some stored := by
      have hown : ownKey x .agent e.streamID (.agent, sha256 r.certificateDER) = true :=
        hid ▸ due_ownKey (planOf_sound hplan) hrow r hr
      simp only [leafShares, Table.find_onKeys, hown, if_true]
      exact hfind
    rw [hlife.keeps hversion (hlife.deviceStep hversion hplan hrow') hr hcert hstored] at hkeeps
    cases hkeeps

end accepted

attribute [local instance] Sha256.verbatim

theorem device_lifecycle_deleted :
    ∃ d, Accepted (registry sampleLeafX509 noOthers) (fun _ => True) (Tables.init ()) d ∧
      issued (deviceEvents d (sampleID 'B')) = [[0, 66, 1], [0, 66, 2], [0, 66, 3]] ∧
      DeviceLife sampleLeafX509 noOthers (fun _ => True) d (sampleID 'B') := by
  have hrun : ((appendInOrder interleavedLifecycles).any fun d =>
      issued (deviceEvents d (sampleID 'B')) == [[0, 66, 1], [0, 66, 2], [0, 66, 3]]) = true := by
    decide +kernel
  obtain ⟨d, hd, hissued⟩ := (Option.any_eq_true _ _).mp hrun
  have hcertificates := beq_iff_eq.mp hissued
  have hacc := appendInOrder_accepted hd
  exact ⟨d, hacc, hcertificates, device_lifecycle hacc _ (by rw [hcertificates]; decide)⟩

end PowerManage.Pki
