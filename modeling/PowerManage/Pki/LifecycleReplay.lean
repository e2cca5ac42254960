import PowerManage.Pki.LeafShares
import PowerManage.Store.StreamFolds

/-!
# Rebuilding devices and gateways

Live appends interleave the streams of all leaves, and a rebuild takes them one
after another.  A leaf's events touch its own row and the revocations of its own
certificates, so the order of the streams does not matter, with one exception: no
two revoked certificates of a class may share issuer and serial number.
Revocations are never taken back, so two streams that could meet in a rebuild
have already met in the live tables.

Main results:

- `leaves_rebuild`: a rebuild of either class restores the database.
-/

namespace PowerManage.Pki

open Relational Store

variable {O X V : Type}

/-! ## Plans of events -/

/-- The class of the leaves that an event is about. -/
def Body.leafClass : Body O → Option CertificateClass
  | device _ => some .agent
  | gateway _ => some .gateway
  | other _ => none

/-- The plan of an event, for the leaves of one class. -/
def planOf [Sha256] (x : LeafX509) (e : Ev O) :
    (cls : CertificateClass) → Except StoreError (Plan cls)
  | .agent =>
    match e.body with
    | .device body => body.plan x e
    | _ => .error (.message "store: not a device event")
  | .gateway =>
    match e.body with
    | .gateway body => body.plan x e
    | _ => .error (.message "store: not a gateway event")

theorem project_leaf [Sha256] {x : LeafX509} {others : OtherDomains O X V} {skipWork : Bool}
    {e : Ev O} {cls : CertificateClass} (h : e.body.leafClass = some cls) :
    project x others skipWork e = projectLeaf x skipWork e (planOf x e cls) := by
  cases hbody : e.body with
  | device body =>
    obtain rfl : CertificateClass.agent = cls := by simpa [hbody, Body.leafClass] using h
    simp only [project, planOf, hbody]
  | gateway body =>
    obtain rfl : CertificateClass.gateway = cls := by simpa [hbody, Body.leafClass] using h
    simp only [project, planOf, hbody]
  | other body => simp [hbody, Body.leafClass] at h

/-- The revocations that an action may bring with it. -/
def Action.due {cls : CertificateClass} : Action cls → Option Revocation
  | .enroll .. => none
  | .update _ _ _ revokes => revokes
  | .delete _ der => some ⟨der, reasonCodeUnspecified⟩

/-- A row becomes revoked only together with its certificate. -/
def Action.Revokes {cls : CertificateClass} : Action cls → Prop
  | .enroll row _ => row.lifecycleState ≠ .revoked
  | .update selects change _ revokes => ∀ old, selects old = true →
      (change old).lifecycleState = .revoked →
        (old.lifecycleState = .revoked ∧ (change old).certificateDER = old.certificateDER) ∨
          ∃ r ∈ revokes, r.certificateDER = (change old).certificateDER
  | .delete .. => True

/-- What the checks of an event leave of its plan. -/
structure Plan.Sound {cls : CertificateClass} (x : LeafX509) (e : Ev O) (plan : Plan cls) :
    Prop where
  id_eq : plan.id = toUpper e.streamID
  named : ∀ r ∈ plan.action.due, x.instanceID r.certificateDER = some plan.id
  revokes : plan.action.Revokes

section sound

variable {x : LeafX509} {e : Ev O} {id id' : String} {der : Bytes} {c : LeafCertificate}

theorem agent_named (h : validateAgentCertificate x id der = .ok (id', c)) :
    x.instanceID der = some id' := by
  obtain ⟨-, hparse, hidentity⟩ := validateAgentCertificate_ok h
  simp [LeafX509.instanceID, hparse, hidentity, Except.toOption]

theorem gateway_named (h : validateGatewayCertificate x id der = .ok (id', c)) :
    x.instanceID der = some id' := by
  obtain ⟨-, hparse, hidentity⟩ := validateGatewayCertificate_ok h
  simp [LeafX509.instanceID, hparse, hidentity, Except.toOption]

theorem validateAgentEnrollment_ok {p : AgentEnrolledPayload} {tokenID : String}
    (h : validateAgentEnrollment x id p = .ok (id', tokenID)) :
    ∃ c, validateAgentCertificate x id p.certificateDER = .ok (id', c) := by
  simp only [validateAgentEnrollment, bind_eq_ok] at h
  obtain ⟨⟨named, c⟩, hcert, _, -, _, -, _, -, hresult⟩ := h
  have hid := (Prod.mk.inj (Except.ok.inj hresult)).1
  exact ⟨c, by rw [hcert, ← hid]⟩

theorem validateAgentCertificateRenewal_ok {p : AgentCertificateRenewedPayload}
    (h : validateAgentCertificateRenewal x id p = .ok id') :
    id' = toUpper id ∧ x.instanceID p.supersededCertificateDER = some id' ∧
      x.instanceID p.certificateDER = some id' := by
  simp only [validateAgentCertificateRenewal, bind_eq_ok, mapError_eq_ok, ite_error_eq_ok] at h
  obtain ⟨⟨named, c⟩, hcert, ⟨named', c'⟩, hold, -, -, _, -, hresult⟩ := h
  have hid : named = id' := Except.ok.inj hresult
  have hnamed := (validateAgentCertificate_ok hcert).1
  have hnamed' : named' = named := by
    rw [(validateAgentCertificate_ok hold).1]
    rw [hnamed, toUpper_toUpper]
  exact ⟨hid ▸ hnamed, by rw [agent_named hold, hnamed', hid], by rw [agent_named hcert, hid]⟩

theorem validateGatewayEnrollment_ok {p : GatewayEnrolledPayload} {tokenID : String}
    (h : validateGatewayEnrollment x id p = .ok (id', tokenID)) : id' = toUpper id := by
  simp only [validateGatewayEnrollment, bind_eq_ok, ite_error_eq_ok] at h
  obtain ⟨⟨named, c⟩, hcert, _, -, -, _, -, _, -, hresult⟩ := h
  rw [← (Prod.mk.inj (Except.ok.inj hresult)).1]
  exact (validateGatewayCertificate_ok hcert).1

theorem validateGatewayRenewal_ok {p : GatewayCertificateRenewedPayload}
    (h : validateGatewayRenewal x id p = .ok id') :
    id' = toUpper id ∧ x.instanceID p.supersededCertificateDER = some id' := by
  simp only [validateGatewayRenewal, bind_eq_ok, mapError_eq_ok, ite_error_eq_ok] at h
  obtain ⟨⟨named, c⟩, hcert, ⟨named', c'⟩, hold, -, -, hresult⟩ := h
  have hid : named = id' := Except.ok.inj hresult
  have hnamed := (validateGatewayCertificate_ok hcert).1
  have hnamed' : named' = named := by
    rw [(validateGatewayCertificate_ok hold).1]
    rw [hnamed, toUpper_toUpper]
  exact ⟨hid ▸ hnamed, by rw [gateway_named hold, hnamed', hid]⟩

variable {plan : Plan .agent} {payload : Payload CertificatePayload}

theorem agentLifecycleState_sound {eventType : String} {next : LifecycleState} {reasonCode : Nat}
    {allow : Bool}
    (h : agentLifecycleState x e eventType payload next reasonCode allow = .ok plan) :
    plan.Sound x e := by
  simp only [agentLifecycleState, bind_eq_ok, Except.ok.injEq] at h
  obtain ⟨_, -, p, -, ⟨deviceID, c⟩, hcert, rfl⟩ := h
  refine ⟨(validateAgentCertificate_ok hcert).1, by simp [Action.due, agent_named hcert], ?_⟩
  intro old hselects _
  simp only [Bool.and_eq_true, beq_iff_eq] at hselects
  exact .inr ⟨_, rfl, hselects.1.2.symm⟩

theorem agentOwnerUpdate_sound {payload : Payload AgentOwnerUpdatedPayload}
    (h : agentOwnerUpdate e payload = .ok plan) : plan.Sound x e := by
  simp only [agentOwnerUpdate, bind_eq_ok, Except.ok.injEq] at h
  obtain ⟨_, -, p, -, deviceID, hid, _, -, rfl⟩ := h
  rw [canonicalDeviceID, mapError_eq_ok] at hid
  exact ⟨canonicalULID_eq hid, by simp [Action.due], fun old _ hrevoked => .inl ⟨hrevoked, rfl⟩⟩

theorem agentDeletion_sound (h : agentDeletion x e payload = .ok plan) : plan.Sound x e := by
  simp only [agentDeletion, bind_eq_ok, Except.ok.injEq] at h
  obtain ⟨_, -, p, -, ⟨deviceID, c⟩, hcert, rfl⟩ := h
  exact ⟨(validateAgentCertificate_ok hcert).1, by simp [Action.due, agent_named hcert], trivial⟩

variable [Sha256]

theorem agentEnrollment_sound {payload : Payload AgentEnrolledPayload}
    (h : agentEnrollment x e payload = .ok plan) : plan.Sound x e := by
  simp only [agentEnrollment, bind_eq_ok, Except.ok.injEq] at h
  obtain ⟨_, -, p, -, ⟨deviceID, tokenID⟩, hvalid, rfl⟩ := h
  obtain ⟨c, hcert⟩ := validateAgentEnrollment_ok hvalid
  exact ⟨(validateAgentCertificate_ok hcert).1, by simp [Action.due], by simp [Action.Revokes]⟩

theorem agentCertificateRenewal_sound {payload : Payload AgentCertificateRenewedPayload}
    (h : agentCertificateRenewal x e payload = .ok plan) : plan.Sound x e := by
  simp only [agentCertificateRenewal, bind_eq_ok, Except.ok.injEq] at h
  obtain ⟨_, -, p, -, deviceID, hvalid, rfl⟩ := h
  obtain ⟨hid, hnamed, -⟩ := validateAgentCertificateRenewal_ok hvalid
  exact ⟨hid, by simp [Action.due, hnamed], by simp [Action.Revokes]⟩

variable {plan : Plan .gateway}

theorem gatewayEnrollment_sound {payload : Payload GatewayEnrolledPayload}
    (h : gatewayEnrollment x e payload = .ok plan) : plan.Sound x e := by
  simp only [gatewayEnrollment, bind_eq_ok, Except.ok.injEq] at h
  obtain ⟨_, -, p, -, ⟨gatewayID, tokenID⟩, hvalid, rfl⟩ := h
  exact ⟨validateGatewayEnrollment_ok hvalid, by simp [Action.due], by simp [Action.Revokes]⟩

theorem gatewayRenewal_sound {payload : Payload GatewayCertificateRenewedPayload}
    (h : gatewayRenewal x e payload = .ok plan) : plan.Sound x e := by
  simp only [gatewayRenewal, bind_eq_ok, Except.ok.injEq] at h
  obtain ⟨_, -, p, -, gatewayID, hvalid, rfl⟩ := h
  obtain ⟨hid, hnamed⟩ := validateGatewayRenewal_ok hvalid
  refine ⟨hid, by simp [Action.due, hnamed], ?_⟩
  intro old hselects hrevoked
  simp only [Bool.and_eq_true, beq_iff_eq] at hselects
  exact absurd hrevoked (by simp [hselects.2])

theorem gatewayRevocation_sound (h : gatewayRevocation x e payload = .ok plan) :
    plan.Sound x e := by
  simp only [gatewayRevocation, bind_eq_ok, Except.ok.injEq] at h
  obtain ⟨_, -, p, -, ⟨gatewayID, c⟩, hcert, rfl⟩ := h
  refine ⟨(validateGatewayCertificate_ok hcert).1, by simp [Action.due, gateway_named hcert], ?_⟩
  intro old hselects _
  simp only [Bool.and_eq_true, beq_iff_eq] at hselects
  exact .inr ⟨_, rfl, hselects.1.2.symm⟩

/-- The plan of every event that passes its checks is sound. -/
theorem planOf_sound {cls : CertificateClass} {plan : Plan cls}
    (h : planOf x e cls = .ok plan) : plan.Sound x e := by
  cases cls with
  | agent =>
    cases hbody : e.body with
    | device body =>
      simp only [planOf, hbody] at h
      cases body with
      | enrolled payload => exact agentEnrollment_sound h
      | certificateRenewed payload => exact agentCertificateRenewal_sound h
      | certificateRevoked payload => exact agentLifecycleState_sound h
      | forceRenewalRequired payload => exact agentLifecycleState_sound h
      | ownerUpdated payload => exact agentOwnerUpdate_sound h
      | deleted payload => exact agentDeletion_sound h
    | gateway body => simp [planOf, hbody] at h
    | other body => simp [planOf, hbody] at h
  | gateway =>
    cases hbody : e.body with
    | gateway body =>
      simp only [planOf, hbody] at h
      cases body with
      | enrolled payload => exact gatewayEnrollment_sound h
      | certificateRenewed payload => exact gatewayRenewal_sound h
      | certificateRevoked payload => exact gatewayRevocation_sound h
    | device body => simp [planOf, hbody] at h
    | other body => simp [planOf, hbody] at h

end sound

/-! ## Entering revocations -/

section entering

variable {x : LeafX509} {e : Ev O} {cls : CertificateClass} {r : Revocation}
variable {due : Option Revocation} {t t' : Table RevocationKey RevocationRow}
variable {key : RevocationKey} {row stored : RevocationRow} {p : RevocationKey → Bool}

theorem entered_eq_some : entered t key row = some stored ↔
    (t.find key = some stored ∧ stored.keeps row = true) ∨
      t.find key = none ∧ stored = row ∧
        (∀ k other, t.find k = some other → ¬ (k.1 = key.1 ∧ other.sameIssuerSerial row = true)) ∧
        ∀ k other, t.find k = some other → ¬ other.sameSource row = true := by
  unfold entered
  cases t.find key with
  | some existing => grind
  | none =>
    simp only [Option.ite_none_left_eq_some, Bool.or_eq_true, not_or, Table.anyRow_iff,
      Bool.and_eq_true, beq_iff_eq]
    grind

variable [Sha256]

/-- A certificate is entered with the data that names it on a revocation list. -/
def Listed (x : LeafX509) (cls : CertificateClass) (t : Table RevocationKey RevocationRow)
    (der : Bytes) : Prop :=
  ∃ c row, revokedCertificate x der = .ok c ∧ t.find (cls, sha256 der) = some row ∧
    row.issuerIdentifier = c.authorityKeyID ∧ row.serialNumber = c.serialNumber

theorem enter_eq_some : enter x e cls r t = some t' ↔
    ∃ c, revokedCertificate x r.certificateDER = .ok c ∧
      (checkRevocation (revocationRow e c r.certificateDER r.reasonCode)).isOk = true ∧
      ∃ stored, entered t (cls, sha256 r.certificateDER)
          (revocationRow e c r.certificateDER r.reasonCode) = some stored ∧
        t.put (cls, sha256 r.certificateDER) (some stored) = t' := by
  unfold enter
  cases revokedCertificate x r.certificateDER <;> simp

theorem enterDue_find (h : enterDue x e cls due t = some t') (hfind : t.find key = some row) :
    t'.find key = some row := by
  cases due with
  | none =>
    cases h
    exact hfind
  | some r =>
    obtain ⟨c, -, -, stored, hstored, rfl⟩ := enter_eq_some.mp h
    rw [Table.find_put]
    split
    · rename_i hkey
      rcases entered_eq_some.mp hstored with ⟨hold, -⟩ | ⟨hnone, -⟩
      · rw [← hkey, hfind] at hold
        exact hold.symm
      · rw [← hkey, hfind] at hnone
        cases hnone
    · exact hfind

/-- Every revocation was there before or stems from the event. -/
theorem enterDue_find_cases (h : enterDue x e cls due t = some t')
    (hfind : t'.find key = some row) :
    t.find key = some row ∨ ∃ r ∈ due, key = (cls, sha256 r.certificateDER) ∧
      ∃ c, revokedCertificate x r.certificateDER = .ok c ∧
        row = revocationRow e c r.certificateDER r.reasonCode := by
  cases due with
  | none =>
    cases h
    exact .inl hfind
  | some r =>
    obtain ⟨c, hcert, -, stored, hstored, rfl⟩ := enter_eq_some.mp h
    rw [Table.find_put] at hfind
    split at hfind
    · rename_i hkey
      cases hfind
      rcases entered_eq_some.mp hstored with ⟨hold, -⟩ | ⟨-, rfl, -⟩
      · exact .inl (hkey ▸ hold)
      · exact .inr ⟨r, rfl, hkey, c, hcert, rfl⟩
    · exact .inl hfind

theorem enter_listed (h : enter x e cls r t = some t') : Listed x cls t' r.certificateDER := by
  obtain ⟨c, hcert, -, stored, hstored, rfl⟩ := enter_eq_some.mp h
  refine ⟨c, stored, hcert, by simp, ?_⟩
  rcases entered_eq_some.mp hstored with ⟨-, hkeeps⟩ | ⟨-, rfl, -⟩
  · simp [RevocationRow.keeps, RevocationRow.agrees] at hkeeps
    exact ⟨hkeeps.1.1.1.2, hkeeps.1.1.2⟩
  · exact ⟨rfl, rfl⟩

theorem Listed.enterDue {der : Bytes} (hlisted : Listed x cls t der)
    (h : enterDue x e cls due t = some t') : Listed x cls t' der := by
  obtain ⟨c, row, hcert, hfind, hnames⟩ := hlisted
  exact ⟨c, row, hcert, enterDue_find h hfind, hnames⟩

/-! ### A part of the table -/

/-- Entering a revocation under a key of a part does to the part what it does to
the whole. -/
theorem enterDue_onKeys (h : enterDue x e cls due t = some t')
    (hp : ∀ r ∈ due, p (cls, sha256 r.certificateDER) = true) :
    enterDue x e cls due (t.onKeys p) = some (t'.onKeys p) := by
  cases due with
  | none =>
    cases h
    rfl
  | some r =>
    have hp := hp r rfl
    obtain ⟨c, hcert, hcheck, stored, hstored, rfl⟩ := enter_eq_some.mp h
    refine enter_eq_some.mpr ⟨c, hcert, hcheck, stored, ?_, (Table.onKeys_put_self hp _).symm⟩
    have hpart : ∀ k other, (t.onKeys p).find k = some other → t.find k = some other := by
      simp
    rw [entered_eq_some, Table.find_onKeys, if_pos hp]
    rcases entered_eq_some.mp hstored with hold | ⟨hnone, hrow, hserial, hsource⟩
    · exact .inl hold
    · exact .inr ⟨hnone, hrow, fun k other hk => hserial k other (hpart k other hk),
        fun k other hk => hsource k other (hpart k other hk)⟩

/-- What is entered under a key outside a part leaves the part alone. -/
theorem enterDue_onKeys_other (h : enterDue x e cls due t = some t')
    (hp : ∀ r ∈ due, p (cls, sha256 r.certificateDER) = false) : t'.onKeys p = t.onKeys p := by
  cases due with
  | none =>
    cases h
    rfl
  | some r =>
    obtain ⟨c, -, -, stored, -, rfl⟩ := enter_eq_some.mp h
    exact Table.onKeys_put_other (hp r rfl) _

/-- What can be entered in a part can be entered in the whole if no row outside the
part is in the way. -/
theorem enterDue_of_onKeys (h : enterDue x e cls due (t.onKeys p) = some t')
    (hp : ∀ r ∈ due, p (cls, sha256 r.certificateDER) = true)
    (hserial : ∀ r ∈ due, ∀ c, revokedCertificate x r.certificateDER = .ok c → ∀ k other,
      t.find k = some other → p k = false → k.1 = cls →
        ¬ (other.issuerIdentifier = c.authorityKeyID ∧ other.serialNumber = c.serialNumber))
    (hsource : ∀ k other, t.find k = some other → p k = false →
      ¬ (other.sourceStreamType = e.streamType ∧ other.sourceStreamID = e.streamID ∧
        other.sourceStreamVersion = e.streamVersion)) :
    ∃ t'', enterDue x e cls due t = some t'' ∧ t''.onKeys p = t' := by
  cases due with
  | none => exact ⟨t, rfl, Option.some.inj h⟩
  | some r =>
    have hp := hp r rfl
    obtain ⟨c, hcert, hcheck, stored, hstored, rfl⟩ := enter_eq_some.mp h
    refine ⟨_, enter_eq_some.mpr ⟨c, hcert, hcheck, stored, ?_, rfl⟩, Table.onKeys_put_self hp _⟩
    rw [entered_eq_some, Table.find_onKeys, if_pos hp] at hstored
    rw [entered_eq_some]
    rcases hstored with hold | ⟨hnone, rfl, hserial', hsource'⟩
    · exact .inl hold
    · refine .inr ⟨hnone, rfl, ?_, ?_⟩
      · rintro k other hk ⟨hcls, hsame⟩
        cases hpk : p k with
        | true => exact hserial' k other (by simp [hpk, hk]) ⟨hcls, hsame⟩
        | false =>
          simp only [RevocationRow.sameIssuerSerial, Bool.and_eq_true, beq_iff_eq] at hsame
          exact hserial r rfl c hcert k other hk hpk hcls hsame
      · intro k other hk hsame
        cases hpk : p k with
        | true => exact hsource' k other (by simp [hpk, hk]) hsame
        | false =>
          simp only [RevocationRow.sameSource, Bool.and_eq_true, beq_iff_eq] at hsame
          exact hsource k other hk hpk ⟨hsame.1.1, hsame.1.2, hsame.2⟩

end entering

/-! ## Shares -/

/-- The instance that owns a revocation. -/
noncomputable def LeafX509.owner [Sha256] (x : LeafX509) (key : RevocationKey) : String :=
  (x.instanceID (Function.invFun sha256 key.2)).getD ""

/-- The revocations of one leaf. -/
noncomputable def ownKey [Sha256] (x : LeafX509) (cls : CertificateClass) (id : String)
    (key : RevocationKey) : Bool :=
  key.1 == cls && x.owner key == id

/-- A leaf holds the issuer and serial number of its revoked certificates. -/
def LeafShare.Holds {cls : CertificateClass} (l : LeafShare cls) (k : Key) : Prop :=
  ∃ key row, l.revocations.find key = some row ∧
    k = .issuerSerial cls row.issuerIdentifier row.serialNumber

/-- The database, split by leaves of one class; the rest of it is what a reset leaves. -/
noncomputable def leafShares [Sha256] (x : LeafX509) (cls : CertificateClass) :
    Shares String (Db O X) (LeafShare cls) Key (Db O X) where
  ctx d := { d with tables := resetLeaves cls d.tables }
  view d id := ⟨(d.tables.leaves cls).find id,
    d.tables.certificateRevocations.onKeys (ownKey x cls id)⟩
  holds := LeafShare.Holds

/-- What every share of a leaf looks like. -/
structure LeafShare.WellFormed [Sha256] {cls : CertificateClass} (x : LeafX509)
    (id : String) (l : LeafShare cls) : Prop where
  source : ∀ key row, l.revocations.find key = some row →
    row.sourceStreamType = cls.streamType ∧ row.sourceStreamID = id
  revoked : ∀ row, l.row = some row → row.lifecycleState = .revoked →
    Listed x cls l.revocations row.certificateDER

section shares

variable {x : LeafX509} {e : Ev O} {cls : CertificateClass} {plan : Plan cls}
variable {l l' : LeafShare cls} {row : Option (LeafRow cls)} {due : Option Revocation}

variable {id : String}
variable {old : Option (LeafRow cls)}

/-- An event brings the revocation that its plan names, or, for a revoked leaf that
is deleted, none. -/
theorem rowStep_due {a : Action cls} (h : a.rowStep id old = some (row, due)) :
    due = a.due ∨ due = none ∧ ∃ row₀ version der, a = .delete version der ∧
      old = some row₀ ∧ row₀.lifecycleState = .revoked ∧ row₀.certificateDER = der := by
  cases a with
  | enroll new repeats => exact .inl (rowStep_enroll.mp h).2.1
  | update selects change repeats revokes => exact .inl (rowStep_update.mp h).1
  | delete version der =>
    obtain ⟨row₀, rfl, hmatch, -, rfl⟩ := rowStep_delete.mp h
    unfold deletionRevokes
    split
    · rename_i hrevoked
      simp at hmatch
      exact .inr ⟨rfl, row₀, version, der, rfl, rfl, hrevoked, hmatch.2⟩
    · exact .inl rfl

/-- What an event leaves of the row that it does not delete. -/
theorem rowStep_row {a : Action cls} {new : LeafRow cls}
    (h : a.rowStep id old = some (some new, due)) :
    (∃ repeats, a = .enroll new repeats) ∨ old = some new ∨
      ∃ selects change repeats row₀, a = .update selects change repeats due ∧
        old = some row₀ ∧ selects row₀ = true ∧ new = change row₀ := by
  cases a with
  | enroll row repeats =>
    obtain ⟨-, -, ⟨-, hrow⟩ | ⟨row₀, rfl, -, hrow⟩⟩ := rowStep_enroll.mp h
    · exact .inl ⟨repeats, by rw [Option.some.inj hrow]⟩
    · exact .inr (.inl hrow.symm)
  | update selects change repeats revokes =>
    obtain ⟨rfl, row₀, rfl, ⟨hselects, -, hrow⟩ | ⟨-, -, hrow⟩⟩ := rowStep_update.mp h
    · exact .inr (.inr ⟨selects, change, repeats, row₀, rfl, rfl, hselects, Option.some.inj hrow⟩)
    · exact .inr (.inl hrow.symm)
  | delete version der =>
    obtain ⟨-, -, -, hrow, -⟩ := rowStep_delete.mp h
    cases hrow

variable [Sha256]

theorem step_ok (h : plan.step x e l = some l') :
    ∃ due, plan.action.rowStep plan.id l.row = some (l'.row, due) ∧
      enterDue x e cls due l.revocations = some l'.revocations := by
  simp only [Plan.step, Option.bind_eq_some_iff, Option.map_eq_some_iff] at h
  obtain ⟨⟨row, due⟩, hrow, t, ht, rfl⟩ := h
  exact ⟨due, hrow, ht⟩

theorem step_holds (h : plan.step x e l = some l') (k : Key) (hk : l.Holds k) : l'.Holds k := by
  obtain ⟨due, -, hdue⟩ := step_ok h
  obtain ⟨key, row, hrow, rfl⟩ := hk
  exact ⟨key, row, enterDue_find hdue hrow, rfl⟩

theorem Listed.holds {der : Bytes} {c : LeafCertificate} (h : Listed x cls l.revocations der)
    (hcert : revokedCertificate x der = .ok c) :
    l.Holds (.issuerSerial cls c.authorityKeyID c.serialNumber) := by
  obtain ⟨c', row, hcert', hfind, hissuer, hserial⟩ := h
  rw [hcert] at hcert'
  cases hcert'
  exact ⟨_, row, hfind, by rw [hissuer, hserial]⟩

/-- After an event its leaf holds the certificate that the event revokes. -/
theorem step_claims (hwf : l.WellFormed x id) (h : plan.step x e l = some l') {r : Revocation}
    (hr : r ∈ plan.action.due) : Listed x cls l'.revocations r.certificateDER := by
  obtain ⟨due, hrow, hdue⟩ := step_ok h
  rcases rowStep_due hrow with rfl | ⟨rfl, row₀, version, der, haction, hold, hrevoked, rfl⟩
  · rw [Option.mem_def.mp hr] at hdue
    exact enter_listed hdue
  · have hsame : r.certificateDER = row₀.certificateDER := by
      rw [haction, Action.due, Option.mem_some_iff] at hr
      rw [← hr]
    rw [hsame]
    exact (hwf.revoked row₀ hold hrevoked).enterDue hdue

theorem step_wellFormed (hsound : plan.Sound x e) (htype : e.streamType = cls.streamType)
    (hid : e.streamID = id) (hwf : l.WellFormed x id) (h : plan.step x e l = some l') :
    l'.WellFormed x id := by
  obtain ⟨due, hrow, hdue⟩ := step_ok h
  constructor
  · intro key row hfind
    rcases enterDue_find_cases hdue hfind with hold | ⟨r, -, -, c, -, rfl⟩
    · exact hwf.source key row hold
    · exact ⟨htype, hid⟩
  · intro new hnew hrevoked
    rw [hnew] at hrow
    have hsound' := hsound.revokes
    rcases rowStep_row hrow with ⟨repeats, haction⟩ | hold |
      ⟨selects, change, repeats, row₀, haction, hold, hselects, rfl⟩
    · rw [haction] at hsound'
      exact absurd hrevoked hsound'
    · exact (hwf.revoked new hold hrevoked).enterDue hdue
    · rw [haction] at hsound'
      rcases hsound' row₀ hselects hrevoked with ⟨hbefore, hsame⟩ | ⟨r, hr, hder⟩
      · rw [hsame]
        exact (hwf.revoked row₀ hold hbefore).enterDue hdue
      · rw [Option.mem_def.mp hr] at hdue
        rw [← hder]
        exact enter_listed hdue

end shares

/-! ## The targets as fold models -/

section model

variable {x : LeafX509} {others : OtherDomains O X V} {e : Ev O}
variable {cls : CertificateClass} {plan : Plan cls} {d d' : Db O X}
variable {row : Option (LeafRow cls)} {due : Option Revocation}
variable {t : Table RevocationKey RevocationRow}

theorem mem_leavesTarget {streamType : String} :
    streamType ∈ (leavesTarget cls : RebuildTarget (Body O) (Tables X)).streamTypes ↔
      streamType = cls.streamType := by
  cases cls <;> exact List.mem_singleton

theorem leavesTarget_reset :
    (leavesTarget cls : RebuildTarget (Body O) (Tables X)).reset = resetLeaves cls := by
  cases cls <;> rfl

theorem resetLeaves_resetLeaves (t : Tables X) :
    resetLeaves cls (resetLeaves cls t) = resetLeaves cls t := by
  have hkeys : ((t.certificateRevocations.onKeys fun key => key.1 != cls).onKeys
      fun key => key.1 != cls) = t.certificateRevocations.onKeys fun key => key.1 != cls := by
    apply Table.ext_find
    intro key
    by_cases hcls : key.1 = cls
    · simp [hcls]
    · simp [hcls]
  have hfilter : ((t.certificateRevocations.filter fun key _ => key.1 != cls).filter
      fun key _ => key.1 != cls) = t.certificateRevocations.filter fun key _ => key.1 != cls :=
    hkeys
  simp [resetLeaves, hfilter]

variable [Sha256]

theorem run_project_leaf [Applies V X] (hclass : e.body.leafClass = some cls)
    (hrun : (project x others false e).run d = .ok ((), d')) :
    ∃ plan row due t w, planOf x e cls = .ok plan ∧
      plan.action.rowStep plan.id ((d.tables.leaves cls).find plan.id) = some (row, due) ∧
      enterDue x e cls due d.tables.certificateRevocations = some t ∧
      d' = withWork (afterPlan d plan row t) w := by
  rw [project_leaf hclass, projectLeaf, Prog.run_bind_ok] at hrun
  obtain ⟨plan, d₁, hread, hprog⟩ := hrun
  have hplan := Prog.run_ofExcept_ok.mp hread
  rw [hplan.2] at hprog
  obtain ⟨d₂, w, hwork, hreplay⟩ := run_prog_skipWork hprog
  obtain ⟨row, due, t, hrow, -, hdue, hafter⟩ := run_prog_ok.mp hreplay
  exact ⟨plan, row, due, t, w, hplan.1, hrow, hdue, by rw [hwork, hafter]⟩

/-- The other domains leave leaves and revocations alone. -/
theorem run_project_other [Applies V X] {skipWork : Bool} (hclass : e.body.leafClass = none)
    (hrun : (project x others skipWork e).run d = .ok ((), d')) :
    d'.tables.leaves = d.tables.leaves ∧
      d'.tables.certificateRevocations = d.tables.certificateRevocations := by
  unfold project at hrun
  split at hrun
  · rename_i body hbody
    simp [hbody, Body.leafClass] at hclass
  · rename_i body hbody
    simp [hbody, Body.leafClass] at hclass
  · rename_i body hbody
    obtain ⟨ws, hws, rfl⟩ := Prog.run_eq_applyAll (others.writes skipWork e body) hrun
    rw [applyAll_tables]
    refine applyAll_induction (P := fun t : Tables X => t.leaves = d.tables.leaves ∧
      t.certificateRevocations = d.tables.certificateRevocations) ?_ ⟨rfl, rfl⟩
    intro w hw t ht
    rcases hws w hw with ⟨v, rfl⟩ | ⟨w', rfl⟩
    · exact ht
    · exact ht

theorem ownKey_iff {id : String} {key : RevocationKey} :
    ownKey x cls id key = true ↔ key.1 = cls ∧ x.owner key = id := by
  simp [ownKey]

/-- A certificate's digest leads back to the instance it names. -/
theorem ownKey_sha256 {id : String} {der : Bytes} (h : x.instanceID der = some id) :
    ownKey x cls id (cls, sha256 der) = true := by
  refine ownKey_iff.mpr ⟨rfl, ?_⟩
  rw [LeafX509.owner, Function.leftInverse_invFun sha256_injective, h]
  rfl

variable {old : Option (LeafRow cls)}

/-- The revocation that an event brings is its own leaf's. -/
theorem due_ownKey (hsound : plan.Sound x e)
    (hrow : plan.action.rowStep plan.id old = some (row, due)) :
    ∀ r ∈ due, ownKey x cls plan.id (cls, sha256 r.certificateDER) = true := by
  intro r hr
  rcases rowStep_due hrow with rfl | ⟨rfl, -⟩
  · exact ownKey_sha256 (hsound.named r hr)
  · cases hr

theorem view_withWork (w : Table WorkKey WorkItem) (id : String) :
    (leafShares x cls).view (withWork d w) id = (leafShares x cls).view d id :=
  rfl

theorem view_afterPlan_self :
    (leafShares x cls).view (afterPlan d plan row t) plan.id =
      ⟨row, t.onKeys (ownKey x cls plan.id)⟩ := by
  simp [leafShares, afterPlan, putRevocations, putLeaf]

theorem view_afterPlan_other (hsound : plan.Sound x e)
    (hrow : plan.action.rowStep plan.id old = some (row, due))
    (hdue : enterDue x e cls due d.tables.certificateRevocations = some t) {id : String}
    (hid : id ≠ plan.id) :
    (leafShares x cls).view (afterPlan d plan row t) id = (leafShares x cls).view d id := by
  have hkeys : t.onKeys (ownKey x cls id) =
      d.tables.certificateRevocations.onKeys (ownKey x cls id) := by
    refine enterDue_onKeys_other hdue fun r hr => Bool.eq_false_iff.mpr fun hown => ?_
    have howner := (ownKey_iff.mp (due_ownKey hsound hrow r hr)).2
    exact hid ((ownKey_iff.mp hown).2.symm.trans howner)
  simp [leafShares, afterPlan, putRevocations, putLeaf, hkeys, hid]

/-- A plan of one class leaves the shares of the other class alone. -/
theorem view_afterPlan_class {cls' : CertificateClass} (hcls : cls' ≠ cls)
    (hdue : enterDue x e cls due d.tables.certificateRevocations = some t) (id : String) :
    (leafShares x cls').view (afterPlan d plan row t) id = (leafShares x cls').view d id := by
  have hkeys : t.onKeys (ownKey x cls' id) =
      d.tables.certificateRevocations.onKeys (ownKey x cls' id) := by
    refine enterDue_onKeys_other hdue fun r hr => Bool.eq_false_iff.mpr fun hown => ?_
    exact hcls (ownKey_iff.mp hown).1.symm
  simp [leafShares, afterPlan, putRevocations, putLeaf, hkeys, hcls]

theorem ctx_afterPlan (hdue : enterDue x e cls due d.tables.certificateRevocations = some t) :
    (leafShares x cls).ctx (afterPlan d plan row t) = (leafShares x cls).ctx d := by
  have hkeys : t.onKeys (fun key => key.1 != cls) =
      d.tables.certificateRevocations.onKeys fun key => key.1 != cls :=
    enterDue_onKeys_other hdue fun r hr => by simp
  have hfilter : (t.filter fun key _ => key.1 != cls) =
      d.tables.certificateRevocations.filter fun key _ => key.1 != cls := hkeys
  simp [leafShares, afterPlan, putRevocations, putLeaf, resetLeaves, hfilter]

/-- An event needs itself in the log, no revocation by it in the other class, and
its revoked certificates under its own leaf. -/
def leafDemand (x : LeafX509) (cls : CertificateClass) (e : Ev O) : Demand (Db O X) Key where
  admits c := c.events.any (sameVersion e) = true ∧
    ∀ key row, c.tables.certificateRevocations.find key = some row →
      ¬ (row.sourceStreamType = e.streamType ∧ row.sourceStreamID = e.streamID ∧
        row.sourceStreamVersion = e.streamVersion)
  claims k := ∃ plan, planOf x e cls = .ok plan ∧ ∃ r ∈ plan.action.due, ∃ c,
    revokedCertificate x r.certificateDER = .ok c ∧
      k = .issuerSerial cls c.authorityKeyID c.serialNumber

/-- What an event makes of its leaf's share. -/
def leafStep (x : LeafX509) (cls : CertificateClass) (e : Ev O) (l : LeafShare cls) :
    Option (LeafShare cls) :=
  (planOf x e cls).toOption.bind fun plan => plan.step x e l

/-- The events of a class, on folded streams. -/
structure LeafOwned (cls : CertificateClass) (e : Ev O) : Prop where
  streamType : e.streamType = cls.streamType
  leafClass : e.body.leafClass = some cls
  folded : toUpper e.streamID = e.streamID

theorem leafStep_ok {l l' : LeafShare cls} (h : leafStep x cls e l = some l') :
    ∃ plan, planOf x e cls = .ok plan ∧ plan.step x e l = some l' := by
  obtain ⟨plan, hplan, hstep⟩ := Option.bind_eq_some_iff.mp h
  cases hcase : planOf x e cls with
  | error err => simp [hcase, Except.toOption] at hplan
  | ok plan' =>
    rw [hcase] at hplan
    cases hplan
    exact ⟨plan, rfl, hstep⟩

theorem LeafOwned.id_eq (howned : LeafOwned cls e) (hplan : planOf x e cls = .ok plan) :
    plan.id = e.streamID :=
  (planOf_sound hplan).id_eq.trans howned.folded

theorem leaf_live [Applies V X] (howned : LeafOwned cls e)
    (hrun : (project x others false e).run d = .ok ((), d')) :
    leafStep x cls e ((leafShares x cls).view d e.streamID) =
        some ((leafShares x cls).view d' e.streamID) ∧
      ∀ id, id ≠ e.streamID → (leafShares x cls).view d' id = (leafShares x cls).view d id := by
  obtain ⟨plan, row, due, t, w, hplan, hrow, hdue, rfl⟩ := run_project_leaf howned.leafClass hrun
  have hsound := planOf_sound hplan
  have hid := howned.id_eq hplan
  have hown := due_ownKey hsound hrow
  constructor
  · rw [leafStep, hplan, ← hid, view_withWork, view_afterPlan_self]
    simp only [Except.toOption, Option.bind_some, Plan.step, leafShares, hrow,
      enterDue_onKeys hdue hown, Option.map_some]
  · intro id hne
    rw [view_withWork]
    exact view_afterPlan_other hsound hrow hdue (hid ▸ hne)

theorem leaf_replay [Applies V X] {l : LeafShare cls} (howned : LeafOwned cls e)
    (hwf : ∀ id, ((leafShares x cls).view d id).WellFormed x id)
    (hstep : leafStep x cls e ((leafShares x cls).view d e.streamID) = some l)
    (hmeets : (leafShares x cls).Meets e.streamID (leafDemand x cls e) d) :
    ∃ d', (project x others true e).run d = .ok ((), d') ∧
      (leafShares x cls).view d' e.streamID = l ∧
      (leafShares x cls).Confined e.streamID d d' := by
  obtain ⟨plan, hplan, hstep⟩ := leafStep_ok hstep
  have hsound := planOf_sound hplan
  have hid := howned.id_eq hplan
  rw [← hid] at hstep hmeets ⊢
  obtain ⟨due, hrow, hdue⟩ := step_ok hstep
  have hown := due_ownKey hsound hrow
  -- A row of the class that is not the leaf's own belongs to another leaf.
  have hother : ∀ key other, d.tables.certificateRevocations.find key = some other →
      key.1 = cls →
      ((leafShares x cls).view d (x.owner key)).revocations.find key = some other := by
    intro key other hfind hcls
    have hkey : ownKey x cls (x.owner key) key = true := ownKey_iff.mpr ⟨hcls, rfl⟩
    simp [leafShares, hkey, hfind]
  have hne : ∀ key, ownKey x cls plan.id key = false → key.1 = cls → x.owner key ≠ plan.id := by
    intro key hkey hcls howner
    rw [ownKey_iff.mpr ⟨hcls, howner⟩] at hkey
    cases hkey
  obtain ⟨t, hdue', hview⟩ := enterDue_of_onKeys hdue hown (by
    intro r hr c hcert key other hfind hkey hcls hsame
    have hclaims : (leafDemand (X := X) x cls e).claims
        (.issuerSerial cls c.authorityKeyID c.serialNumber) := by
      refine ⟨plan, hplan, r, ?_, c, hcert, rfl⟩
      rcases rowStep_due hrow with rfl | ⟨rfl, -⟩
      · exact hr
      · cases hr
    refine hmeets.free _ hclaims (x.owner key) (hne key hkey hcls) ?_
    exact ⟨key, other, hother key other hfind hcls, by rw [hsame.1, hsame.2]⟩) (by
    intro key other hfind hkey hsame
    by_cases hcls : key.1 = cls
    · have hsource := (hwf (x.owner key)).source key other (hother key other hfind hcls)
      exact hne key hkey hcls (hsource.2.symm.trans (hsame.2.1.trans hid.symm))
    · refine hmeets.admits.2 key other ?_ hsame
      have hkept : (key.1 != cls) = true := by simpa using hcls
      change (d.tables.certificateRevocations.onKeys fun key => key.1 != cls).find key = _
      simp [hkept, hfind])
  refine ⟨afterPlan d plan l.row t, ?_, ?_, ?_⟩
  · rw [project_leaf howned.leafClass, projectLeaf, hplan]
    have hevent : d.events.any (sameVersion e) = true := hmeets.admits.1
    exact run_prog_ok.mpr ⟨_, due, t, hrow, fun _ _ _ => hevent, hdue', rfl⟩
  · rw [view_afterPlan_self, hview]
  · exact ⟨ctx_afterPlan hdue', fun id hne => view_afterPlan_other hsound hrow hdue' hne⟩

variable {built : Event (Body O) → Prop}

/-- An event is on a stream of the leaves that it is about. -/
theorem leafClass_iff (hadm : Admissible (registry x others) built d e) (cls : CertificateClass) :
    e.body.leafClass = some cls ↔ e.streamType = cls.streamType := by
  obtain ⟨target, htarget, howns, htype⟩ := hadm.owner
  simp only [registry, List.mem_append, List.mem_cons, List.not_mem_nil, or_false,
    List.mem_map] at htarget
  rcases htarget with (rfl | rfl) | ⟨other, hother, rfl⟩
  · have htype : e.streamType = "device" := List.mem_singleton.mp htype
    cases hbody : e.body <;> cases cls <;>
      simp_all [devicesTarget, Body.leafClass, CertificateClass.streamType]
  · have htype : e.streamType = "gateway" := List.mem_singleton.mp htype
    cases hbody : e.body <;> cases cls <;>
      simp_all [gatewaysTarget, Body.leafClass, CertificateClass.streamType]
  · have hnot := others.stream_types other hother e.streamType htype
    cases hbody : e.body <;> cases cls <;>
      simp_all [otherTarget, Body.leafClass, CertificateClass.streamType]

theorem leafOwned_of_admissible (hadm : Admissible (registry x others) built d e)
    (htype : e.streamType = cls.streamType) : LeafOwned cls e :=
  ⟨htype, (leafClass_iff hadm cls).mpr htype, hadm.folded (by rw [htype]; cases cls <;> decide)⟩

variable (x others) in
theorem leavesTarget_registered (cls : CertificateClass) :
    Registered (registry x others) (leavesTarget cls) := by
  cases cls with
  | agent =>
    exact {
      named := show trimSpace "devices" ≠ "" by decide
      found := rfl
      closed := validateRebuildClosure_ok <|
        show isClosed productionSchema ["devices", "certificate_revocations"] = true by
          decide +kernel
      types_named := show "" ∉ ["device"] by decide }
  | gateway =>
    exact {
      named := show trimSpace "gateways" ≠ "" by decide
      found := rfl
      closed := validateRebuildClosure_ok <|
        show isClosed productionSchema ["gateways", "certificate_revocations"] = true by
          decide +kernel
      types_named := show "" ∉ ["gateway"] by decide }

theorem resetLeaves_view (id : String) :
    (leafShares x cls).view { d with tables := resetLeaves cls d.tables } id = ⟨none, ∅⟩ := by
  have hkeys : (d.tables.certificateRevocations.onKeys fun key => key.1 != cls).onKeys
      (ownKey x cls id) = ∅ := by
    apply Table.ext_find
    intro key
    by_cases hcls : key.1 = cls
    · simp [hcls]
    · simp [ownKey, hcls]
  change LeafShare.mk _ ((d.tables.certificateRevocations.onKeys fun key => key.1 != cls).onKeys
    (ownKey x cls id)) = _
  simp [hkeys, resetLeaves]

theorem leaf_foreign [Applies V X] {d₀ : Db O X} (hadm : Admissible (registry x others) built d₀ e)
    (htype : e.streamType ≠ cls.streamType)
    (hrun : (project x others false e).run d = .ok ((), d')) (id : String) :
    (leafShares x cls).view d' id = (leafShares x cls).view d id := by
  cases hclass : e.body.leafClass with
  | none =>
    have hframe := run_project_other hclass hrun
    simp only [leafShares, hframe.1, hframe.2]
  | some cls' =>
    have hne : cls ≠ cls' := by
      rintro rfl
      exact htype ((leafClass_iff hadm cls).mp hclass)
    obtain ⟨plan, row, due, t, w, -, -, hdue, rfl⟩ := run_project_leaf hclass hrun
    exact view_afterPlan_class hne hdue id

variable (x others) in
/-- The devices and gateways targets as fold models. -/
noncomputable def leavesModel [Applies V X] (built : Event (Body O) → Prop)
    (cls : CertificateClass) :
    FoldModel (registry x others) built String (Db O X) (LeafShare cls) Key where
  toShares := leafShares x cls
  target := leavesTarget cls
  registered := leavesTarget_registered x others cls
  stream e := e.streamID
  owned := LeafOwned cls
  key id := (cls.streamType, id)
  key_type id := mem_leavesTarget.mpr rfl
  stream_iff e howned id := streamID_eq_iff howned.streamType id
  owned_of_admissible d e hadm htype := leafOwned_of_admissible hadm (mem_leavesTarget.mp htype)
  empty := ⟨none, ∅⟩
  step := leafStep x cls
  demand := leafDemand x cls
  WellFormed := LeafShare.WellFormed x
  wellFormed_empty id := ⟨by simp, by simp⟩
  step_wellFormed e l l' howned hwf h := by
    obtain ⟨plan, hplan, hstep⟩ := leafStep_ok h
    exact step_wellFormed (planOf_sound hplan) howned.streamType rfl hwf hstep
  step_holds e l l' howned h := by
    obtain ⟨plan, hplan, hstep⟩ := leafStep_ok h
    exact step_holds hstep
  step_claims e l l' howned hwf h k hk := by
    obtain ⟨plan, hplan, hstep⟩ := leafStep_ok h
    obtain ⟨plan', hplan', r, hr, c, hcert, rfl⟩ := hk
    rw [hplan] at hplan'
    cases hplan'
    exact (step_claims hwf hstep hr).holds hcert
  live e d d' howned hrun := leaf_live howned hrun
  replay e d l howned hwf hstep hmeets := leaf_replay howned hwf hstep hmeets
  foreign d₀ e d d' hadm htype hrun :=
    leaf_foreign hadm (fun h => htype (mem_leavesTarget.mpr h)) hrun
  view_events d es id := rfl
  reset_view d id := by
    rw [leavesTarget_reset]
    exact resetLeaves_view id
  reset_ctx d := by
    rw [leavesTarget_reset]
    simp only [leafShares, resetLeaves_resetLeaves]

end model

/-! ## Rebuilding -/

section rebuilding

variable [Sha256] [Applies V X] {x : LeafX509} {others : OtherDomains O X V} {e : Ev O}
variable {cls : CertificateClass} {d d' : Db O X} {built : Event (Body O) → Prop} {rest : X}

/-- No two revocations of a class share an issuer and a serial number. -/
def UniqueSerials (t : Table RevocationKey RevocationRow) : Prop :=
  ∀ key key' row row', t.find key = some row → t.find key' = some row' → key.1 = key'.1 →
    row.issuerIdentifier = row'.issuerIdentifier → row.serialNumber = row'.serialNumber →
    key = key'

theorem UniqueSerials.enterDue {t t' : Table RevocationKey RevocationRow}
    {due : Option Revocation} (h : UniqueSerials t)
    (hdue : enterDue x e cls due t = some t') : UniqueSerials t' := by
  cases due with
  | none =>
    have hsame : t = t' := Option.some.inj hdue
    rwa [← hsame]
  | some r =>
    obtain ⟨c, -, -, stored, hentered, rfl⟩ := enter_eq_some.mp hdue
    rcases entered_eq_some.mp hentered with ⟨hold, -⟩ | ⟨hnew, rfl, hserial, -⟩
    · rwa [← hold, Table.put_find]
    · -- The new row's issuer and serial number are those of no old row of the class.
      have hfresh : ∀ key row, t.find key = some row → key.1 = cls →
          row.issuerIdentifier = c.authorityKeyID → row.serialNumber ≠ c.serialNumber := by
        intro key row hrow hcls hissuer hnumber
        refine hserial key row hrow ⟨hcls, ?_⟩
        simp [RevocationRow.sameIssuerSerial, revocationRow, hissuer, hnumber]
      intro key key' row row' hrow hrow' hcls hissuer hnumber
      rw [Table.find_put] at hrow hrow'
      split at hrow <;> split at hrow'
      · rename_i hkey hkey'
        rw [hkey, hkey']
      · rename_i hkey hkey'
        rw [← Option.some.inj hrow] at hissuer hnumber
        exact absurd hnumber.symm
          (hfresh key' row' hrow' (by rw [← hcls, hkey]) hissuer.symm)
      · rename_i hkey hkey'
        rw [← Option.some.inj hrow'] at hissuer hnumber
        exact absurd hnumber (hfresh key row hrow (by rw [hcls, hkey']) hissuer)
      · exact h key key' row row' hrow hrow' hcls hissuer hnumber

/-- An event enters at most one revocation, and removes none. -/
theorem accept_revocations (haccept : acceptEvent (registry x others) d e = .ok d') :
    ∃ cls due, enterDue x e cls due d.tables.certificateRevocations =
      some d'.tables.certificateRevocations := by
  have hrun : (project x others false e).run _ = .ok ((), d') := projectEvent_ok.mp haccept
  cases hclass : e.body.leafClass with
  | none => exact ⟨.agent, none, congrArg some (run_project_other hclass hrun).2.symm⟩
  | some cls =>
    obtain ⟨plan, row, due, t, w, -, -, hdue, rfl⟩ := run_project_leaf hclass hrun
    exact ⟨cls, due, hdue⟩

theorem uniqueSerials_of_accepted (h : Accepted (registry x others) built (Tables.init rest) d) :
    UniqueSerials d.tables.certificateRevocations := by
  refine h.extends.induction (P := fun d => UniqueSerials d.tables.certificateRevocations) ?_ ?_
  · intro d e d' hd _ haccept
    obtain ⟨cls, due, hdue⟩ := accept_revocations haccept
    exact hd.enterDue hdue
  · intro key key' row row' hrow
    simp [Tables.init] at hrow

theorem init_view (cls : CertificateClass) (id : String) :
    (leavesModel x others built cls).view (⟨[], Tables.init rest⟩ : Db O X) id =
      (leavesModel x others built cls).empty := by
  change LeafShare.mk (Table.find ∅ id) (Table.onKeys ∅ (ownKey x cls id)) = ⟨none, ∅⟩
  congr 1

/-- A revocation's source is the stream of the certificate's leaf. -/
theorem source_of_accepted (h : Accepted (registry x others) built (Tables.init rest) d)
    {key : RevocationKey} {row : RevocationRow}
    (hrow : d.tables.certificateRevocations.find key = some row) :
    row.sourceStreamType = key.1.streamType ∧ row.sourceStreamID = x.owner key := by
  have hwf := FoldModel.wellFormed_fold (FoldModel.owned_rows h)
    (FoldModel.reached (M := leavesModel x others built key.1) (init_view key.1) h (x.owner key))
  refine hwf.source key row ?_
  have hown : ownKey x key.1 (x.owner key) key = true := ownKey_iff.mpr ⟨rfl, rfl⟩
  change (d.tables.certificateRevocations.onKeys (ownKey x key.1 (x.owner key))).find key = _
  simp [hown, hrow]

/-- A database is its context together with its shares. -/
theorem eq_of_shares (hevents : d'.events = d.events)
    (hctx : (leafShares x cls).ctx d' = (leafShares x cls).ctx d)
    (hviews : ∀ id, (leafShares x cls).view d' id = (leafShares x cls).view d id) : d' = d := by
  have htables : resetLeaves cls d'.tables = resetLeaves cls d.tables :=
    congrArg Database.tables hctx
  have hleaves : d'.tables.leaves = d.tables.leaves := by
    funext cls'
    by_cases hcls : cls' = cls
    · subst hcls
      exact Table.ext_find fun id => congrArg LeafShare.row (hviews id)
    · have hother := congrFun (congrArg Tables.leaves htables) cls'
      simpa [resetLeaves, hcls] using hother
  have hrevocations : d'.tables.certificateRevocations = d.tables.certificateRevocations := by
    apply Table.ext_find
    intro key
    by_cases hcls : key.1 = cls
    · have hown : ownKey x cls (x.owner key) key = true := ownKey_iff.mpr ⟨hcls, rfl⟩
      have hkey := congrArg (·.revocations.find key) (hviews (x.owner key))
      simpa [leafShares, hown] using hkey
    · have hother : (d'.tables.certificateRevocations.onKeys fun key => key.1 != cls) =
          d.tables.certificateRevocations.onKeys fun key => key.1 != cls :=
        congrArg Tables.certificateRevocations htables
      have hkey := congrArg (·.find key) hother
      simpa [hcls] using hkey
  have hwork : (resetLeaves cls d'.tables).workItems = (resetLeaves cls d.tables).workItems :=
    congrArg Tables.workItems htables
  have hrest : (resetLeaves cls d'.tables).rest = (resetLeaves cls d.tables).rest :=
    congrArg Tables.rest htables
  simp only [resetLeaves] at hwork hrest
  obtain ⟨events', tables'⟩ := d'
  cases tables'
  simp_all

/-- Rebuilding the devices or the gateways from any accepted log succeeds and
changes nothing: no row of either class, no revocation and no work item. -/
theorem leaves_rebuild (hrest : others.deferred rest = none)
    (h : Accepted (registry x others) built (Tables.init rest) d) (cls : CertificateClass) :
    rebuildAll (registry x others) cls.leafTable d = .ok d := by
  have hdeferred := h.deferred hrest
  have hseparate : (leavesModel x others built cls).Separate
      ((leavesModel x others built cls).view d) := by
    rintro id id' k ⟨key, row, hrow, rfl⟩ ⟨key', row', hrow', hsame⟩
    change (d.tables.certificateRevocations.onKeys (ownKey x cls id)).find key = _ at hrow
    change (d.tables.certificateRevocations.onKeys (ownKey x cls id')).find key' = _ at hrow'
    simp [ownKey_iff] at hrow hrow'
    simp at hsame
    have hkey : key = key' := uniqueSerials_of_accepted h key key' row row' hrow.2 hrow'.2
      (hrow.1.1.trans hrow'.1.1.symm) hsame.1 hsame.2
    rw [← hrow.1.2, ← hrow'.1.2, hkey]
  obtain ⟨d', hrebuild, hevents, hctx, hviews⟩ := FoldModel.rebuild_restores
    (M := leavesModel x others built cls) (init_view cls) h hseparate (by
      intro e he htype
      refine ⟨List.any_eq_true.mpr ⟨e, he, by simp [sameVersion]⟩, ?_⟩
      intro key row hrow hsource
      change (d.tables.certificateRevocations.onKeys fun key => key.1 != cls).find key = _ at hrow
      simp at hrow
      have hclass := (source_of_accepted h hrow.2).1.symm.trans
        (hsource.1.trans (mem_leavesTarget.mp htype))
      revert hclass
      have hne := hrow.1
      cases hkey : key.1 <;> cases cls <;> simp_all [CertificateClass.streamType]) (by
      intro d' hctx _
      have hrest' : ((leafShares x cls).ctx d').tables.rest =
          ((leafShares x cls).ctx d).tables.rest :=
        congrArg (fun c : Db O X => c.tables.rest) hctx
      exact (congrArg others.deferred hrest').trans hdeferred)
  have hname : (leavesTarget cls : RebuildTarget (Body O) (Tables X)).name = cls.leafTable := by
    cases cls <;> rfl
  rw [eq_of_shares hevents hctx hviews] at hrebuild
  rw [← hname]
  exact hrebuild

end rebuilding

/-! ## A server with leaves only -/

/-- A server without other domains writes no other table. -/
inductive NoWrite : Type

instance : Applies NoWrite Unit where
  apply w := nomatch w

/-- No domain besides devices and gateways. -/
def noOthers : OtherDomains Empty Unit NoWrite where
  eventType := Empty.elim
  targets := []
  stream_owner := streamOwners_nil
  stream_types := by simp
  project _ _ := Empty.elim
  writes _ _ := Empty.rec
  protectLastAdmin := Empty.elim
  countEnabledAdmins _ := 0
  deferred _ := none

/-- A canonical identifier that ends in the given character. -/
def sampleID (last : Char) : String :=
  String.ofList (List.replicate 25 '0' ++ [last])

/-- A leaf certificate with the profile of its class. -/
def sampleLeafCertificate (cls : IdentityClass) (id : String) (serial : Nat) : LeafCertificate where
  identity := .ok (cls, id)
  serialNumber := serial
  authorityKeyID := [1]
  publicKey := [2]
  signingKey := .ok ()
  isCA := false
  basicConstraintsValid := true
  keyUsage := keyUsageDigitalSignature
  extKeyUsage := if cls = .agent then [.clientAuth] else [.serverAuth, .clientAuth]
  unknownExtKeyUsage := 0
  dnsNames := if cls = .agent then [] else ["gateway.example"]
  emailAddresses := 0
  ipAddresses := 0
  dnsAndURISANs := .ok ()
  notBefore := 0
  notAfter := gatewayCertificateLifetime

/-- Leaf certificates are encoded by class, last character of the ID and serial number. -/
def sampleLeafX509 : LeafX509 where
  toX509 := sampleX509
  parseLeaf
    | [0, id, serial] =>
      .ok (sampleLeafCertificate .agent (sampleID (Char.ofNat id.toNat)) serial.toNat)
    | [1, id, serial] =>
      .ok (sampleLeafCertificate .gateway (sampleID (Char.ofNat id.toNat)) serial.toNat)
    | _ => .error "malformed certificate"
  validateX25519PublicKey _ := .ok ()
  parseIP _ := false

attribute [local instance] Sha256.verbatim

/-- The registry of a server with leaves only. -/
def leafRegistry : Registry (Body Empty) (Tables Unit) (Write NoWrite) Key :=
  registry sampleLeafX509 noOthers

/-- Append lifecycle events one after another to an empty database. -/
def appendInOrder (events : List (Event (Body Empty))) : Option (Db Empty Unit) :=
  commitAll (client leafRegistry) (events.map .appendEvent) ⟨[], Tables.init ()⟩

theorem appendInOrder_accepted {events : List (Event (Body Empty))} {d : Db Empty Unit}
    (h : appendInOrder events = some d) :
    Accepted (registry sampleLeafX509 noOthers) (fun _ => True) (Tables.init ()) d := by
  refine Serial.start.commitAll ?_ h
  intro call hcall
  obtain ⟨e, -, rfl⟩ := List.mem_map.mp hcall
  exact trivial

/-- An event on a leaf's stream. -/
def leafEvent (streamType streamID : String) (body : Body Empty) : Event (Body Empty) where
  streamType := streamType
  streamID := streamID
  payloadVersion := leafPayloadVersion
  body := body
  createdAt := 0

/-- A device that is renewed, forced to renew, renewed again and deleted, while a
gateway is enrolled and revoked. -/
def interleavedLifecycles : List (Event (Body Empty)) :=
  let device (body : DeviceBody) := leafEvent "device" (sampleID 'b') (.device body)
  let gateway (body : GatewayBody) := leafEvent "gateway" (sampleID 'A') (.gateway body)
  let key := List.replicate 32 7
  [device (.enrolled (.decoded ⟨[0, 66, 1], key, sampleID '1', ""⟩)),
    gateway (.enrolled (.decoded ⟨[1, 65, 1], sampleID '1', "", ["gateway.example"]⟩)),
    device (.certificateRenewed (.decoded ⟨[0, 66, 2], key, [0, 66, 1]⟩)),
    device (.forceRenewalRequired (.decoded ⟨[0, 66, 2]⟩)),
    gateway (.certificateRevoked (.decoded ⟨[1, 65, 1]⟩)),
    device (.ownerUpdated (.decoded ⟨"owner"⟩)),
    device (.certificateRenewed (.decoded ⟨[0, 66, 3], key, [0, 66, 2]⟩)),
    device (.deleted (.decoded ⟨[0, 66, 3]⟩))]

theorem leaves_rebuild_interleaved :
    ∃ d, Accepted (registry sampleLeafX509 noOthers) (fun _ => True) (Tables.init ()) d ∧
      d.tables.certificateRevocations.keys.card = 4 ∧ d.tables.workItems.keys.card = 5 ∧
      ∀ cls, rebuildAll (registry sampleLeafX509 noOthers) (CertificateClass.leafTable cls) d =
        .ok d := by
  have hrun : ((appendInOrder interleavedLifecycles).any fun d =>
      d.tables.certificateRevocations.keys.card == 4 && d.tables.workItems.keys.card == 5) =
        true := by
    decide +kernel
  obtain ⟨d, hd, hcounts⟩ := (Option.any_eq_true _ _).mp hrun
  simp at hcounts
  have hacc := appendInOrder_accepted hd
  exact ⟨d, hacc, hcounts.1, hcounts.2, leaves_rebuild rfl hacc⟩

end PowerManage.Pki
