import PowerManage.Agent.Enrollment

/-!
# What an agent trusts, over all renewals

The server's answers are arbitrary here.  Whatever they are, a stored bundle only
gives way to one with the same trust or to one that the bundle checks accept
after it.  Those checks relate each new root to a stored one, except where no
bundle was stored yet: the first bundle is accepted on its own, without regard to
the certificate authorities that the agent was enrolled with.

Main results:

- `history_replaces`: every bundle ever stored replaced the one before it
  in one of the two ways.
- `rootsContinue_iff`: when the roots of a replacement go back to those it
  replaces.
- `ca_continuity`: in every reachable state, over the whole history.
-/

namespace PowerManage.Agent

open List Interaction Pki Relational

/-! ## Replacements -/

/-- Both bundles name the same authorities and trust bundles. -/
def SameTrust (b b' : CredentialBundle) : Prop :=
  ∀ cls, b'.authorityDER cls = b.authorityDER cls ∧ b'.trustBundle cls = b.trustBundle cls

namespace SameTrust

variable {b b' b'' : CredentialBundle}

theorem refl (b : CredentialBundle) : SameTrust b b :=
  fun _ => ⟨rfl, rfl⟩

theorem symm (h : SameTrust b b') : SameTrust b' b :=
  fun cls => ⟨(h cls).1.symm, (h cls).2.symm⟩

theorem trans (h : SameTrust b b') (h' : SameTrust b' b'') : SameTrust b b'' :=
  fun cls => ⟨(h' cls).1.trans (h cls).1, (h' cls).2.trans (h cls).2⟩

theorem clearPending (b : CredentialBundle) (claimed : CertificateClass) :
    SameTrust b (b.clearPending claimed) := by
  intro cls
  cases claimed <;> cases cls <;> exact ⟨rfl, rfl⟩

end SameTrust

/-- The new trust bundles passed the checks against the stored ones, and the new
authorities are among their roots. -/
def Adopts (x : ClientX509) (b b' : CredentialBundle) : Prop :=
  ∃ now, ∀ cls,
    validateTrustBundle .agent x.toX509 now (b.trustBundle cls) (b'.trustBundle cls) = .ok () ∧
    b'.authorityDER cls ∈ (b'.trustBundle cls).rootCertificateDER

/-- How one stored bundle gives way to another. -/
def Replaces (x : ClientX509) (b b' : CredentialBundle) : Prop :=
  SameTrust b b' ∨ Adopts x b b'

variable {b b' : CredentialBundle}

theorem Replaces.of_sameTrust {x : ClientX509} {d : CredentialBundle} (h : Replaces x b b')
    (hsame : SameTrust b d) : Replaces x d b' := by
  rcases h with h | ⟨now, h⟩
  · exact .inl (hsame.symm.trans h)
  · refine .inr ⟨now, fun cls => ?_⟩
    rw [(hsame cls).2]
    exact h cls

/-- Either no trust bundle is stored or both are. -/
def CredentialBundle.Paired (b : CredentialBundle) : Prop :=
  (∀ cls, b.trustBundle cls = .empty) ∨ ∀ cls, (b.trustBundle cls).generation ≠ 0

theorem CredentialBundle.Paired.of_sameTrust (h : b.Paired) (hsame : SameTrust b b') :
    b'.Paired := by
  rcases h with h | h
  · exact .inl fun cls => by rw [(hsame cls).2, h cls]
  · exact .inr fun cls => by rw [(hsame cls).2]; exact h cls

theorem Adopts.paired {x : ClientX509} (h : Adopts x b b') : b'.Paired := by
  obtain ⟨now, h⟩ := h
  refine .inr fun cls => ?_
  have hshape := (validateTrustBundle_ok_iff.mp (h cls).1).1
  exact (validateShape_cases hshape).1

/-! ## What is stored -/

/-- What holds of the credential file and of all that was stored before. -/
structure Chronicle (x : ClientX509) {S : Type} (s : AgentState S) : Prop where
  disk : s.disk = s.history.head?
  paired : ∀ b ∈ s.history, b.Paired
  chain : s.history.IsChain fun b' b => Replaces x b b'

/-- The file holds the trust of a bundle. -/
def Holds (x : ClientX509) {S : Type} (b : CredentialBundle) (s : AgentState S) : Prop :=
  Chronicle x s ∧ ∃ d, s.disk = some d ∧ SameTrust b d

section stored

variable {x : ClientX509} {S : Type} {s s' : AgentState S} {b b' d : CredentialBundle}

theorem Chronicle.init (remote : S) : Chronicle x (AgentState.init remote) :=
  ⟨rfl, by simp [AgentState.init], isChain_nil⟩

/-- Only the file and its history matter. -/
theorem Chronicle.congr (h : Chronicle x s) (hdisk : s'.disk = s.disk)
    (hhistory : s'.history = s.history) : Chronicle x s' :=
  ⟨by rw [hdisk, hhistory, h.disk], by rw [hhistory]; exact h.paired,
    by rw [hhistory]; exact h.chain⟩

theorem Holds.congr (h : Holds x b s) (hdisk : s'.disk = s.disk)
    (hhistory : s'.history = s.history) : Holds x b s' :=
  ⟨h.1.congr hdisk hhistory, by rw [hdisk]; exact h.2⟩

theorem Holds.paired (h : Holds x b s) : b.Paired := by
  obtain ⟨hchron, d, hdisk, hsame⟩ := h
  have hmem : d ∈ s.history := mem_of_head? (hchron.disk ▸ hdisk)
  exact (hchron.paired d hmem).of_sameTrust hsame.symm

theorem Holds.of_sameTrust (h : Holds x b s) (hsame : SameTrust b b') : Holds x b' s := by
  obtain ⟨hchron, d, hdisk, hd⟩ := h
  exact ⟨hchron, d, hdisk, hsame.symm.trans hd⟩

theorem Chronicle.store_first (h : Chronicle x s) (hnone : s.disk = none) (hpaired : b.Paired) :
    Holds x b (s.store b) := by
  have hempty : s.history = [] := head?_eq_none_iff.mp (h.disk ▸ hnone)
  refine ⟨⟨rfl, ?_, ?_⟩, b, rfl, SameTrust.refl b⟩
  · simpa [AgentState.store, hempty] using hpaired
  · simp [AgentState.store, hempty]

theorem Holds.store (h : Holds x b s) (hreplaces : Replaces x b b') (hpaired : b'.Paired) :
    Holds x b' (s.store b') := by
  obtain ⟨hchron, d, hdisk, hsame⟩ := h
  refine ⟨⟨rfl, ?_, ?_⟩, b', rfl, SameTrust.refl b'⟩
  · intro c hc
    rcases mem_cons.mp hc with rfl | hc
    · exact hpaired
    · exact hchron.paired c hc
  · refine isChain_cons.mpr ⟨?_, hchron.chain⟩
    intro c hc
    rw [← hchron.disk, hdisk] at hc
    cases hc
    exact hreplaces.of_sameTrust hsame

end stored

/-! ## The client's calls -/

/-- What a query writes to the credential file. -/
def Query.stored : Query → Option CredentialBundle
  | .create b => some b
  | .replace b => some b
  | _ => none

section calls

variable {x : ClientX509} {bundle stored : TrustBundle} {now : Int}

/-- A bundle that was accepted with its authority. -/
theorem storedTrustBundle_ok {message : Option CATrustBundle} {legacyRoot : Bytes}
    (h : storedTrustBundle x message legacyRoot stored now = .ok bundle) :
    validateTrustBundle .agent x.toX509 now stored bundle = .ok () := by
  simp only [storedTrustBundle, bind_eq_ok] at h
  obtain ⟨next, -, _, hvalid, hnext⟩ := h
  cases hnext
  exact hvalid

/-- An accepted bundle has a first root. -/
theorem headD_mem_of_validate (h : validateTrustBundle .agent x.toX509 now stored bundle = .ok ()) :
    bundle.rootCertificateDER.headD [] ∈ bundle.rootCertificateDER := by
  have hshape := (validateTrustBundle_ok_iff.mp h).1
  rcases (validateShape_cases hshape).2.2 with ⟨root, hroots, -⟩ | ⟨first, second, hroots, -⟩
  · simp [hroots]
  · simp [hroots]

theorem selectIssuingRoot_mem {certificateDER root : Bytes}
    (h : selectIssuingRoot x certificateDER bundle = .ok root) :
    root ∈ bundle.rootCertificateDER := by
  unfold selectIssuingRoot at h
  split at h
  · cases h
  · split at h
    · rename_i der hfound
      cases h
      exact mem_of_find?_eq_some hfound
    · cases h

theorem generation_ne_zero_of_validate
    (h : validateTrustBundle .agent x.toX509 now stored bundle = .ok ()) : bundle.generation ≠ 0 :=
  (validateShape_cases (validateTrustBundle_ok_iff.mp h).1).1

theorem legacyBundle_paired (deviceID : String) (response : IdentityResponse) (key : Signer)
    (sealingKey : SealingKey) : (legacyBundle deviceID response key sealingKey).Paired :=
  .inl fun cls => by cases cls <;> rfl

variable [Sha256] {S : Type} {R : Remote S} {s s' : AgentState S}
variable {b current : CredentialBundle}
variable {q : Query} {a : Answer q}

open Script.Safe

/-- Other queries leave the file alone. -/
theorem agentEnv_frame (hq : q.stored = none) (h : agentEnv x R q s a s') :
    s'.disk = s.disk ∧ s'.history = s.history := by
  cases q with
  | now => cases h; exact ⟨rfl, rfl⟩
  | load => cases h.1; exact ⟨rfl, rfl⟩
  | create b => cases hq
  | replace b => cases hq
  | pendingRenewalSealingKey => cases h.1; exact ⟨rfl, rfl⟩
  | setPendingRenewalSealingKey key => cases h; exact ⟨rfl, rfl⟩
  | generateKey => cases h; exact ⟨rfl, rfl⟩
  | generateSealingKey => cases h; exact ⟨rfl, rfl⟩
  | enrollAgent request => obtain ⟨_, _, rfl⟩ := h; exact ⟨rfl, rfl⟩
  | renewAgent request => obtain ⟨_, _, rfl⟩ := h; exact ⟨rfl, rfl⟩
  | confirmAgentTrustState request => obtain ⟨_, _, rfl⟩ := h; exact ⟨rfl, rfl⟩

theorem Chronicle.answer (h : Chronicle x s) (hq : q.stored = none) (henv : agentEnv x R q s a s') :
    Chronicle x s' :=
  h.congr (agentEnv_frame hq henv).1 (agentEnv_frame hq henv).2

theorem Holds.answer (h : Holds x b s) (hq : q.stored = none) (henv : agentEnv x R q s a s') :
    Holds x b s' :=
  h.congr (agentEnv_frame hq henv).1 (agentEnv_frame hq henv).2

variable {a : Except String Unit}

/-- After an attempt to replace, the file holds the old trust, and the attempt
failed, or it holds the new one. -/
theorem Holds.replace {b' : CredentialBundle} (h : Holds x b s) (hreplaces : Replaces x b b')
    (hpaired : b'.Paired) (henv : agentEnv x R (.replace b') s a s') :
    (Holds x b s' ∧ a ≠ .ok ()) ∨ Holds x b' s' := by
  rcases henv with ⟨rfl, ha⟩ | ⟨-, rfl, -⟩
  · exact .inl ⟨h, ha⟩
  · exact .inr (h.store hreplaces hpaired)

theorem Chronicle.create (h : Chronicle x s) (hpaired : b.Paired)
    (henv : agentEnv x R (.create b) s a s') : (Chronicle x s' ∧ a ≠ .ok ()) ∨ Holds x b s' := by
  rcases henv with ⟨rfl, ha⟩ | ⟨hnone, rfl, -⟩
  · exact .inl ⟨h, ha⟩
  · exact .inr (h.store_first hnone hpaired)

theorem Holds.replace_chronicle {b' : CredentialBundle} (h : Holds x b s)
    (hreplaces : Replaces x b b') (hpaired : b'.Paired) (henv : agentEnv x R (.replace b') s a s') :
    Chronicle x s' := by
  rcases h.replace hreplaces hpaired henv with h' | h'
  · exact h'.1.1
  · exact h'.1

theorem Chronicle.create_chronicle (h : Chronicle x s) (hpaired : b.Paired)
    (henv : agentEnv x R (.create b) s a s') : Chronicle x s' := by
  rcases h.create hpaired henv with h' | h'
  · exact h'.1
  · exact h'.1

/-- One claim is sent: the trust stays. -/
theorem sendPending_safe (claimed : CertificateClass) (h : Holds x b s) :
    (sendPending x claimed b).Safe (agentEnv x R) (Chronicle x)
      (fun r s => Holds x r.1 s ∧ SameTrust b r.1) s := by
  unfold sendPending
  split
  · exact ⟨h, SameTrust.refl b⟩
  · split
    · exact ⟨h, SameTrust.refl b⟩
    · refine bind (query fun a s₁ henv => ?_)
      have h₁ := h.answer rfl henv
      refine ⟨h₁.1, ?_⟩
      cases a with
      | error e => exact ⟨h₁, SameTrust.refl b⟩
      | ok u =>
        refine bind (query fun a s₂ henv => ?_)
        have hclear := SameTrust.clearPending b claimed
        have hpaired := h₁.paired.of_sameTrust hclear
        rcases h₁.replace (.inl hclear) hpaired henv with ⟨h₂, ha⟩ | h₂
        · refine ⟨h₂.1, ?_⟩
          cases a with
          | error e => exact ⟨h₂, SameTrust.refl b⟩
          | ok u => exact absurd rfl ha
        · refine ⟨h₂.1, ?_⟩
          cases a with
          | error e => exact ⟨h₂.of_sameTrust hclear.symm, SameTrust.refl b⟩
          | ok u => exact ⟨h₂, hclear⟩

theorem sendPendingConfirmations_safe (h : Holds x b s) :
    (sendPendingConfirmations x b).Safe (agentEnv x R) (Chronicle x)
      (fun b' s => Holds x b' s ∧ SameTrust b b') s := by
  unfold sendPendingConfirmations
  refine bind ((sendPending_safe .agent h).mono ?_)
  intro ⟨b₁, agentErr⟩ s₁ h₁
  refine bind ((sendPending_safe .gateway h₁.1).mono ?_)
  intro ⟨b₂, gatewayErr⟩ s₂ h₂
  dsimp only
  split
  · exact ⟨h₂.1, h₁.2.trans h₂.2⟩
  · exact fail

/-! ### Enrolment -/

variable {response : IdentityResponse}

theorem enrolledBundle_paired {key : Signer} {sealingKey : SealingKey} {pin : Option Fingerprint}
    (h : enrolledBundle x response key sealingKey pin now = .ok b) : b.Paired := by
  simp only [enrolledBundle, bind_eq_ok, ite_error_eq_ok] at h
  obtain ⟨agentTrust, hagent, gatewayTrust, hgateway, _, -, -, _, -, _, -, _, -, _, -, hb⟩ := h
  cases hb
  refine .inr fun cls => ?_
  cases cls with
  | agent => exact generation_ne_zero_of_validate (storedTrustBundle_ok hagent)
  | gateway => exact generation_ne_zero_of_validate (storedTrustBundle_ok hgateway)

theorem storeLegacyEnrollment_safe (response : IdentityResponse) (key : Signer)
    (sealingKey : SealingKey) (pin : Option Fingerprint) (h : Chronicle x s) :
    (storeLegacyEnrollment x response key sealingKey pin).Safe (agentEnv x R) (Chronicle x)
      (fun _ _ => True) s := by
  unfold storeLegacyEnrollment
  refine bind (query fun now s₁ henv => ?_)
  have h₁ := h.answer rfl henv
  refine ⟨h₁, bind (ofExcept fun deviceID _ => ?_)⟩
  refine bind (query fun now s₂ henv => ?_)
  have h₂ := h₁.answer rfl henv
  refine ⟨h₂, bind (ofExcept fun _ _ => ?_)⟩
  refine bind (asking fun a s₃ henv => ?_)
  exact ⟨h₂.create_chronicle (legacyBundle_paired _ _ _ _) henv, fun _ _ => trivial⟩

theorem storeEnrollment_safe (response : Option IdentityResponse) (key : Signer)
    (sealingKey : SealingKey) (pin : Option Fingerprint) (h : Chronicle x s) :
    (storeEnrollment x response key sealingKey pin).Safe (agentEnv x R) (Chronicle x)
      (fun _ _ => True) s := by
  unfold storeEnrollment
  split
  · exact fail
  · split
    · exact fail
    · split
      · exact storeLegacyEnrollment_safe _ _ _ _ h
      · refine bind (query fun now s₁ henv => ?_)
        have h₁ := h.answer rfl henv
        refine ⟨h₁, bind (ofExcept fun b hb => ?_)⟩
        refine bind (asking fun a s₂ henv => ?_)
        have hpaired := enrolledBundle_paired hb
        refine ⟨h₁.create_chronicle hpaired henv, fun _ ha => ?_⟩
        rcases h₁.create hpaired henv with ⟨-, hne⟩ | h₂
        · exact absurd ha hne
        · exact bind ((sendPendingConfirmations_safe h₂).mono fun _ _ _ => trivial)

theorem enrollFresh_safe (token fingerprint : String) (h : Chronicle x s) :
    (enrollFresh x token fingerprint).Safe (agentEnv x R) (Chronicle x) (fun _ _ => True) s := by
  unfold enrollFresh
  refine bind (require fun _ => ?_)
  refine bind (ofExcept fun pin _ => ?_)
  refine bind (asking fun a s₁ henv => ?_)
  have h₁ := h.answer rfl henv
  refine ⟨h₁, fun key _ => bind (ofExcept fun csrDER _ => ?_)⟩
  refine bind (asking fun a s₂ henv => ?_)
  have h₂ := h₁.answer rfl henv
  refine ⟨h₂, fun sealingKey _ => bind (asking fun a s₃ henv => ?_)⟩
  have h₃ := h₂.answer rfl henv
  exact ⟨h₃, fun response _ => storeEnrollment_safe response key sealingKey pin h₃⟩

/-- A bundle that was loaded is the one in the file. -/
theorem Chronicle.load {a : Except String CredentialBundle} (h : Chronicle x s)
    (henv : agentEnv x R .load s a s') {b : CredentialBundle} (ha : a = .ok b) : Holds x b s' := by
  obtain ⟨rfl, hloaded⟩ := henv
  exact ⟨h, b, (hloaded b ha).1, SameTrust.refl b⟩

theorem enroll_safe (token fingerprint : String) (h : Chronicle x s) :
    (enroll x token fingerprint).Safe (agentEnv x R) (Chronicle x) (fun _ _ => True) s := by
  unfold enroll
  refine bind (query fun a s₁ henv => ?_)
  have h₁ := h.answer rfl henv
  refine ⟨h₁, ?_⟩
  cases a with
  | error e => exact enrollFresh_safe token fingerprint h₁
  | ok existing =>
    have hload := h.load henv rfl
    dsimp only
    split
    · exact enrollFresh_safe token fingerprint h₁
    · refine bind (query fun now s₂ henv => ?_)
      have h₂ := hload.answer rfl henv
      refine ⟨h₂.1, bind (ofExcept fun _ _ => ?_)⟩
      split
      · exact bind ((sendPendingConfirmations_safe h₂).mono fun _ _ _ => trivial)
      · exact enrollFresh_safe token fingerprint h₂.1

/-! ### Renewal -/

theorem renewedBundle_adopts {sealingKey : SealingKey}
    (h : renewedBundle x current sealingKey response now = .ok b) : Adopts x current b := by
  simp only [renewedBundle, bind_eq_ok, ite_error_eq_ok, mapError_eq_ok] at h
  obtain ⟨agentTrust, hagent, gatewayTrust, hgateway, _, -, root, hroot, _, -, -, _, -, _, -, hb⟩ :=
    h
  cases hb
  refine ⟨now, fun cls => ?_⟩
  cases cls with
  | agent => exact ⟨storedTrustBundle_ok hagent, selectIssuingRoot_mem hroot⟩
  | gateway =>
    have hvalid := storedTrustBundle_ok hgateway
    exact ⟨hvalid, headD_mem_of_validate hvalid⟩

theorem replaceLegacyRenewal_safe (sealingKey : SealingKey) (response : IdentityResponse)
    (hlegacy : ∀ cls, current.trustBundle cls = .empty) (h : Holds x current s) :
    (replaceLegacyRenewal x current sealingKey response).Safe (agentEnv x R) (Chronicle x)
      (fun _ _ => True) s := by
  unfold replaceLegacyRenewal
  refine bind (query fun now s₁ henv => ?_)
  have h₁ := h.answer rfl henv
  refine ⟨h₁.1, bind (ofExcept fun deviceID _ => ?_)⟩
  refine bind (require fun _ => ?_)
  refine bind (require fun hagent => ?_)
  refine bind (query fun now s₂ henv => ?_)
  have h₂ := h₁.answer rfl henv
  refine ⟨h₂.1, bind (ofExcept fun _ _ => ?_)⟩
  refine bind (require fun hgateway => ?_)
  have hsame : SameTrust current
      (legacyBundle current.deviceID response current.privateKey sealingKey) := by
    intro cls
    cases cls with
    | agent => exact ⟨of_decide_eq_true hagent, (hlegacy .agent).symm⟩
    | gateway => exact ⟨of_decide_eq_true hgateway, (hlegacy .gateway).symm⟩
  refine bind (asking fun a s₃ henv => ?_)
  have h₃ := h₂.replace_chronicle (.inl hsame) (legacyBundle_paired _ _ _ _) henv
  exact ⟨h₃, fun _ _ => query fun _ _ henv => ⟨h₃.answer rfl henv, trivial⟩⟩

theorem storeRenewal_safe (sealingKey : SealingKey) (response : Option IdentityResponse)
    (h : Holds x current s) :
    (storeRenewal x current sealingKey response).Safe (agentEnv x R) (Chronicle x)
      (fun _ _ => True) s := by
  unfold storeRenewal
  split
  · exact fail
  · split
    · exact fail
    · split
      · split
        · exact fail
        · rename_i hgeneration
          refine replaceLegacyRenewal_safe sealingKey _ ?_ h
          rcases h.paired with hempty | hne
          · exact hempty
          · exact absurd (.inl (hne .agent)) hgeneration
      · refine bind (query fun now s₁ henv => ?_)
        have h₁ := h.answer rfl henv
        refine ⟨h₁.1, bind (ofExcept fun b hb => ?_)⟩
        have hadopts := renewedBundle_adopts hb
        refine bind (asking fun a s₂ henv => ?_)
        refine ⟨h₁.replace_chronicle (.inr hadopts) hadopts.paired henv, fun _ ha => ?_⟩
        rcases h₁.replace (.inr hadopts) hadopts.paired henv with ⟨-, hne⟩ | h₂
        · exact absurd ha hne
        · refine bind (query fun _ s₃ henv => ?_)
          have h₃ := h₂.answer rfl henv
          exact ⟨h₃.1, bind ((sendPendingConfirmations_safe h₃).mono fun _ _ _ => trivial)⟩

theorem loadForRenewal_safe (h : Chronicle x s) :
    (loadForRenewal x).Safe (agentEnv x R) (Chronicle x) (fun b s => Holds x b s) s := by
  unfold loadForRenewal
  refine bind (asking fun a s₁ henv => ?_)
  refine ⟨h.answer rfl henv, fun current ha => ?_⟩
  have h₁ := h.load henv ha
  refine bind (query fun now s₂ henv => ?_)
  have h₂ := h₁.answer rfl henv
  refine ⟨h₂.1, bind (ofExcept fun _ _ => ?_)⟩
  exact (sendPendingConfirmations_safe h₂).mono fun _ _ hsent => hsent.1

theorem renewalSealingKey_safe (h : Holds x b s) :
    renewalSealingKey.Safe (agentEnv x R) (Chronicle x) (fun _ s => Holds x b s) s := by
  unfold renewalSealingKey
  refine bind (query fun a s₁ henv => ?_)
  have h₁ := h.answer rfl henv
  refine ⟨h₁.1, ?_⟩
  cases a with
  | some key => exact h₁
  | none =>
    refine bind (asking fun a s₂ henv => ?_)
    have h₂ := h₁.answer rfl henv
    refine ⟨h₂.1, fun key _ => bind (query fun _ s₃ henv => ?_)⟩
    have h₃ := h₂.answer rfl henv
    exact ⟨h₃.1, h₃⟩

theorem renew_safe (h : Chronicle x s) :
    (renew x).Safe (agentEnv x R) (Chronicle x) (fun _ _ => True) s := by
  unfold renew
  refine bind ((loadForRenewal_safe h).mono fun current s₁ h₁ => ?_)
  refine bind (ofExcept fun csrDER _ => ?_)
  refine bind ((renewalSealingKey_safe h₁).mono fun sealingKey s₂ h₂ => ?_)
  refine bind (asking fun a s₃ henv => ?_)
  have h₃ := h₂.answer rfl henv
  exact ⟨h₃.1, fun response _ => storeRenewal_safe sealingKey response h₃⟩

/-- No other call runs while an enrolment does. -/
def EnrollsAlone (m : Sys (agentProcess (S := S) x)) : Prop :=
  ∀ token fingerprint p, (AgentOp.enroll token fingerprint, p) ∈ m.running → m.running.length = 1

/-- Renewals hold a lock, so calls overlap only if one of them is an enrolment. -/
theorem EnrollsAlone.single {m : Sys (agentProcess (S := S) x)} (h : EnrollsAlone m)
    (hapart : m.Apart) : m.running.length ≤ 1 := by
  obtain ⟨s, running⟩ := m
  rcases running with _ | ⟨call, _ | ⟨call', rest⟩⟩
  · simp
  · simp
  · exfalso
    have hrenew : ∀ call₁ ∈ call :: call' :: rest, call₁.1 = AgentOp.renew := by
      rintro ⟨_ | _, p⟩ hmem
      · simpa using h _ _ p hmem
      · rfl
    exact rel_of_pairwise_cons hapart (mem_cons_self ..)
      ⟨hrenew call (by simp), hrenew call' (by simp)⟩

/-- Whatever the server answers and wherever the client crashes, every bundle ever
stored replaced the one before it with the same trust or by an accepted bundle. -/
theorem history_replaces {mayCrash : AgentState S → Prop} {remote : S}
    {m : Sys (agentProcess (S := S) x)}
    (h : Reaches (agentProcess x) (agentEnv x R) mayCrash EnrollsAlone
      ⟨AgentState.init remote, []⟩ m) : Chronicle x m.shared := by
  refine (Reaches.invariant ?_ ?_ (fun _ => EnrollsAlone.single)
    (Chronicle.init (x := x) remote) h).2.1
  · intro op s hs
    cases op with
    | enroll token fingerprint =>
      exact bind ((enroll_safe token fingerprint hs).mono fun _ _ _ => trivial)
    | renew => exact renew_safe hs
  · intro s _ hs
    exact hs.congr rfl rfl

end calls

/-! ## Roots -/

/-- The roots of a class that an agent trusts: its authority and those of the bundle. -/
def CredentialBundle.trustedRoots (b : CredentialBundle) (cls : CertificateClass) : List Bytes :=
  b.authorityDER cls :: (b.trustBundle cls).rootCertificateDER

/-- Each root of a replacement was trusted before, or a root that was trusted before
signed the replacement's proof of it. -/
def RootsContinue (x : ClientX509) (b b' : CredentialBundle) : Prop :=
  ∀ cls, ∀ root ∈ b'.trustedRoots cls,
    root ∈ b.trustedRoots cls ∨
      ∃ now, ∃ signer ∈ b.trustedRoots cls,
        (b'.trustBundle cls).transitionCertificateDER ≠ [] ∧
        Certifies .agent x.toX509 now signer root (b'.trustBundle cls).transitionCertificateDER

/-- The first trust bundles that an agent adopts begin with its authorities. -/
def FirstBundlesContinue (b b' : CredentialBundle) : Prop :=
  ∀ cls, (b.trustBundle cls).generation = 0 → (b'.trustBundle cls).generation ≠ 0 →
    (b'.trustBundle cls).rootCertificateDER.head? = some (b.authorityDER cls)

section roots

variable {x : ClientX509} {b b' : CredentialBundle}

theorem SameTrust.rootsContinue (h : SameTrust b b') : RootsContinue x b b' := by
  intro cls root hroot
  rw [CredentialBundle.trustedRoots, (h cls).1, (h cls).2] at hroot
  exact .inl hroot

theorem SameTrust.firstBundlesContinue (h : SameTrust b b') : FirstBundlesContinue b b' := by
  intro cls hzero hne
  rw [(h cls).2] at hne
  exact absurd hzero hne

/-- With a bundle stored, the roots of an accepted one go back to it. -/
theorem Adopts.rootsContinue (h : Adopts x b b') (hne : ∀ cls, (b.trustBundle cls).generation ≠ 0) :
    RootsContinue x b b' := by
  obtain ⟨now, h⟩ := h
  intro cls root hroot
  obtain ⟨hvalid, hauthority⟩ := h cls
  obtain ⟨hshape, hfollows⟩ := validateTrustBundle_ok_iff.mp hvalid
  have hroot : root ∈ (b'.trustBundle cls).rootCertificateDER := by
    rcases mem_cons.mp hroot with rfl | hroot
    · exact hauthority
    · exact hroot
  rcases hfollows with hzero | hsame | ⟨-, last, successor, hlast, hroots⟩ |
    ⟨-, -, kept, hkept, hroots⟩
  · exact absurd hzero (hne cls)
  · rw [hsame] at hroot
    exact .inl (mem_cons_of_mem _ hroot)
  · -- A new generation: the last stored root, and one that it certifies.
    have hmem : last ∈ b.trustedRoots cls :=
      mem_cons_of_mem _ (mem_of_getLast? hlast)
    rcases (validateShape_cases hshape).2.2 with ⟨only, hone, -⟩ |
      ⟨first, second, htwo, -, hproof, hcertifies⟩
    · rw [hroots] at hone
      cases hone
    · rw [hroots] at htwo
      cases htwo
      rw [hroots] at hroot
      rcases mem_pair.mp hroot with rfl | rfl
      · exact .inl hmem
      · exact .inr ⟨now, last, hmem, hproof, hcertifies⟩
  · rw [hroots, mem_singleton] at hroot
    subst hroot
    exact .inl (mem_cons_of_mem _ hkept)

/-- Without one, they do exactly if they begin with the enrolled authority. -/
theorem Adopts.first_iff (h : Adopts x b b') (hempty : ∀ cls, b.trustBundle cls = .empty) :
    RootsContinue x b b' ↔
      ∀ cls, (b'.trustBundle cls).rootCertificateDER.head? = some (b.authorityDER cls) := by
  obtain ⟨now, h⟩ := h
  refine forall_congr' fun cls => ?_
  obtain ⟨hvalid, hauthority⟩ := h cls
  have htrusted : b.trustedRoots cls = [b.authorityDER cls] := by
    rw [CredentialBundle.trustedRoots, hempty cls]
    rfl
  have hshape := (validateShape_cases (validateTrustBundle_ok_iff.mp hvalid).1).2.2
  rw [htrusted]
  rcases hshape with ⟨only, hroots, hproof⟩ | ⟨first, second, hroots, hdistinct, hproof, hcertifies⟩
  · rw [hroots, mem_singleton] at hauthority
    simp [CredentialBundle.trustedRoots, hroots, hproof, hauthority]
  · rw [hroots, head?_cons, Option.some.injEq]
    constructor
    · intro hcontinue
      rcases hcontinue first (by simp [CredentialBundle.trustedRoots, hroots]) with hfirst |
        ⟨now', signer, hsigner, -, hcertified⟩
      · exact mem_singleton.mp hfirst
      · exact absurd hcertified hcertifies.not_signer
    · intro hfirst root hroot
      have hroot : root = first ∨ root = second := by
        rcases mem_cons.mp hroot with rfl | hroot
        · rw [hroots] at hauthority
          exact mem_pair.mp hauthority
        · rw [hroots] at hroot
          exact mem_pair.mp hroot
      rcases hroot with rfl | rfl
      · exact .inl (mem_singleton.mpr hfirst)
      · exact .inr ⟨now, first, mem_singleton.mpr hfirst, hproof, hcertifies⟩

/-- Whether the roots of a replacement go back to those it replaces. -/
theorem rootsContinue_iff (hpaired : b.Paired) (h : Replaces x b b') :
    RootsContinue x b b' ↔ FirstBundlesContinue b b' := by
  rcases h with hsame | hadopts
  · exact iff_of_true hsame.rootsContinue hsame.firstBundlesContinue
  · have hne : ∀ cls, (b'.trustBundle cls).generation ≠ 0 := by
      rcases hadopts.paired with hempty | hne
      · obtain ⟨now, h⟩ := hadopts
        exact fun cls => generation_ne_zero_of_validate (h cls).1
      · exact hne
    rcases hpaired with hempty | hstored
    · rw [hadopts.first_iff hempty]
      refine forall_congr' fun cls => ?_
      have hzero : (b.trustBundle cls).generation = 0 := by
        rw [hempty cls]
        rfl
      exact ⟨fun h _ _ => h, fun h => h hzero (hne cls)⟩
    · refine iff_of_true (hadopts.rootsContinue hstored) ?_
      exact fun cls hzero => absurd hzero (hstored cls)

end roots

/-! ## Versions -/

/-- A later bundle's version is not lower, and is the same only for the same bundle. -/
def BundleAdvances (t t' : TrustBundle) : Prop :=
  (t.generation < t'.generation ∨ (t.generation = t'.generation ∧ t.revision ≤ t'.revision)) ∧
    (t'.generation = t.generation → t'.revision = t.revision → t' = t)

namespace BundleAdvances

variable {t t' t'' : TrustBundle}

theorem refl (t : TrustBundle) : BundleAdvances t t :=
  ⟨.inr ⟨rfl, UInt64.le_refl _⟩, fun _ _ => rfl⟩

theorem trans (h : BundleAdvances t t') (h' : BundleAdvances t' t'') : BundleAdvances t t'' := by
  unfold BundleAdvances at *
  simp only [UInt64.lt_iff_toNat_lt, UInt64.le_iff_toNat_le, ← UInt64.toNat_inj] at *
  obtain ⟨hle, heq⟩ := h
  obtain ⟨hle', heq'⟩ := h'
  refine ⟨by omega, fun hgeneration hrevision => ?_⟩
  have htop : t'' = t' := heq' (by omega) (by omega)
  subst htop
  exact heq hgeneration hrevision

/-- What follows a stored bundle advances it. -/
theorem of_follows (h : t.Follows t') (hzero : t.generation = 0 → t = .empty)
    (hne : t'.generation ≠ 0) : BundleAdvances t t' := by
  rcases h with h | rfl | ⟨h, -⟩ | ⟨hgeneration, hrevision, -⟩
  · have hempty := hzero h
    subst hempty
    have hpos : (TrustBundle.empty).generation < t'.generation := by
      rw [UInt64.lt_iff_toNat_lt]
      have : t'.generation.toNat ≠ 0 := fun h => hne (UInt64.toNat_inj.mp h)
      exact Nat.pos_of_ne_zero this
    exact ⟨.inl hpos, fun h => absurd h hne⟩
  · exact refl _
  · exact ⟨.inl h, fun heq => absurd (heq ▸ h) (UInt64.lt_irrefl _)⟩
  · exact ⟨.inr ⟨hgeneration.symm, UInt64.le_of_lt hrevision⟩,
      fun _ heq => absurd (heq ▸ hrevision) (UInt64.lt_irrefl _)⟩

end BundleAdvances

section versions

variable {x : ClientX509} {b b' : CredentialBundle}

theorem Replaces.advances (hpaired : b.Paired) (h : Replaces x b b') (cls : CertificateClass) :
    BundleAdvances (b.trustBundle cls) (b'.trustBundle cls) := by
  rcases h with hsame | ⟨now, h⟩
  · rw [(hsame cls).2]
    exact BundleAdvances.refl _
  · have hvalid := (h cls).1
    refine BundleAdvances.of_follows (validateTrustBundle_ok_iff.mp hvalid).2 ?_
      (generation_ne_zero_of_validate hvalid)
    intro hzero
    rcases hpaired with hempty | hne
    · exact hempty cls
    · exact absurd hzero (hne cls)

end versions

/-! ## The whole history -/

/-- Each replacement's roots go back to those it replaced; over the whole history no
version decreases, and none comes with two contents. -/
def Continuous (x : ClientX509) (history : List CredentialBundle) : Prop :=
  (history.IsChain fun b' b => RootsContinue x b b') ∧
    ∀ cls, history.Pairwise fun b' b => BundleAdvances (b.trustBundle cls) (b'.trustBundle cls)

section continuity

variable {x : ClientX509} {S : Type} {R : Remote S} {s : AgentState S}

theorem Chronicle.advances (h : Chronicle x s) (cls : CertificateClass) :
    s.history.Pairwise fun b' b => BundleAdvances (b.trustBundle cls) (b'.trustBundle cls) := by
  have htrans : IsTrans CredentialBundle fun b' b =>
      BundleAdvances (b.trustBundle cls) (b'.trustBundle cls) :=
    ⟨fun _ _ _ h h' => h'.trans h⟩
  refine isChain_iff_pairwise.mp (h.chain.imp_of_mem_imp ?_)
  intro b' b _ hb hreplaces
  exact hreplaces.advances (h.paired b hb) cls

theorem rootsContinue_chain_iff {history : List CredentialBundle}
    (hpaired : ∀ b ∈ history, b.Paired) (hchain : history.IsChain fun b' b => Replaces x b b') :
    (history.IsChain fun b' b => RootsContinue x b b') ↔
      history.IsChain fun b' b => FirstBundlesContinue b b' := by
  induction hchain with
  | nil => exact iff_of_true isChain_nil isChain_nil
  | singleton b => exact iff_of_true (isChain_singleton b) (isChain_singleton b)
  | cons_cons hreplaces _ ih =>
    have hb := hpaired _ (mem_cons_of_mem _ mem_cons_self)
    rw [isChain_cons_cons, isChain_cons_cons, rootsContinue_iff hb hreplaces,
      ih (forall_mem_cons.mp hpaired).2]

theorem Chronicle.continuous_iff (h : Chronicle x s) :
    Continuous x s.history ↔ s.history.IsChain fun b' b => FirstBundlesContinue b b' :=
  (and_iff_left h.advances).trans (rootsContinue_chain_iff h.paired h.chain)

/-- For every sequence of calls, answers and crashes in which no enrolment overlaps another
call: the trust of an agent is continuous exactly if the first bundles that it adopted begin
with the authorities it was enrolled with. -/
theorem ca_continuity [Sha256] (x : ClientX509) {S : Type} (R : Remote S)
    (mayCrash : AgentState S → Prop) (remote : S) (m : Sys (agentProcess (S := S) x))
    (h : Reaches (agentProcess x) (agentEnv x R) mayCrash EnrollsAlone
      ⟨AgentState.init remote, []⟩ m) :
    Continuous x m.shared.history ↔
      m.shared.history.IsChain fun b' b => FirstBundlesContinue b b' :=
  (history_replaces h).continuous_iff

end continuity

/-! ### The first bundle -/

attribute [local instance] Sha256.verbatim

instance (b b' : CredentialBundle) : Decidable (FirstBundlesContinue b b') :=
  decidable_of_iff (∀ cls ∈ [CertificateClass.agent, .gateway],
      (b.trustBundle cls).generation = 0 → (b'.trustBundle cls).generation ≠ 0 →
        (b'.trustBundle cls).rootCertificateDER.head? = some (b.authorityDER cls))
    ⟨fun h cls => h cls (by cases cls <;> decide), fun h cls _ => h cls⟩

/-- A server that may answer anything. -/
def Remote.any (S : Type) : Remote S where
  enrollAgent := fun _ _ _ _ => True
  renewAgent := fun _ _ _ _ => True
  confirmAgentTrustState := fun _ _ _ _ => True

/-- A server that publishes no bundles at enrolment, and at renewal bundles of one
root each. -/
def sampleServer (agentRoot gatewayRoot : UInt8) : Server Unit where
  enrollAgent _ s := (.ok (some ⟨sampleLeafDER 1 10 7, [10], [20], none, none⟩), s)
  renewAgent _ s :=
    (.ok (some
      { certificateDER := sampleLeafDER 2 agentRoot 7
        certificateAuthorityDER := [agentRoot]
        gatewayCertificateAuthorityDER := [gatewayRoot]
        agentTrustBundle := some ⟨⟨1, 1, [[agentRoot]], []⟩, none, 0⟩
        gatewayTrustBundle := some ⟨⟨1, 1, [[gatewayRoot]], []⟩, none, 0⟩ }), s)
  confirmAgentTrustState _ s := (.ok (), s)

/-- Undisturbed surroundings with that server. -/
def sampleAnswer (agentRoot gatewayRoot : UInt8) :
    (q : Query) → AgentState Unit → Answer q × AgentState Unit :=
  undisturbed sampleClientX509 (sampleServer agentRoot gatewayRoot) 5 (sampleSigner 7) ⟨[8]⟩

/-- The state after one call. -/
def sampleCall (agentRoot gatewayRoot : UInt8) (op : AgentOp) (s : AgentState Unit) :
    AgentState Unit :=
  (((agentProcess (S := Unit) sampleClientX509).body op).run
    (sampleAnswer agentRoot gatewayRoot) s).2

/-- The state after an enrolment and a renewal. -/
def sampleRenewed (agentRoot gatewayRoot : UInt8) : AgentState Unit :=
  sampleCall agentRoot gatewayRoot .renew
    (sampleCall agentRoot gatewayRoot (.enroll "token" "") (AgentState.init ()))

/-- The states of the sample agent, whatever is answered. -/
abbrev SampleReaches (s s' : AgentState Unit) : Prop :=
  Reaches (agentProcess sampleClientX509) (agentEnv sampleClientX509 (Remote.any Unit))
    (fun _ => True) EnrollsAlone ⟨s, []⟩ ⟨s', []⟩

theorem sampleCall_reaches (agentRoot gatewayRoot : UInt8) (op : AgentOp) (s : AgentState Unit) :
    SampleReaches s (sampleCall agentRoot gatewayRoot op s) := by
  refine Reaches.ofRun (P := agentProcess sampleClientX509) (fun q s => ?_) ?_ op s
  · exact undisturbed_allowed ⟨fun _ _ => trivial, fun _ _ => trivial, fun _ _ => trivial⟩
      _ _ _ q s
  · intro m hm token fingerprint p hmem
    exact hm.antisymm (length_pos_of_mem hmem)

theorem sampleRenewed_reaches (agentRoot gatewayRoot : UInt8) :
    SampleReaches (AgentState.init ()) (sampleRenewed agentRoot gatewayRoot) :=
  (sampleCall_reaches _ _ _ _).trans (sampleCall_reaches _ _ _ _)

/-- An enrolled agent adopts, as its first bundles, roots of which it knows nothing. -/
theorem forged_bundles_adopted :
    ∃ s, SampleReaches (AgentState.init ()) s ∧ ¬ Continuous sampleClientX509 s.history := by
  refine ⟨_, sampleRenewed_reaches 30 40, ?_⟩
  rw [(history_replaces (sampleRenewed_reaches 30 40)).continuous_iff]
  decide

/-- First bundles of the enrolled authorities are continuous. -/
theorem enrolled_authorities_adopted :
    ∃ s, SampleReaches (AgentState.init ()) s ∧ s.history.length = 4 ∧
      Continuous sampleClientX509 s.history := by
  have hreaches := sampleRenewed_reaches 10 20
  refine ⟨_, hreaches, by decide, ?_⟩
  exact (ca_continuity sampleClientX509 (Remote.any Unit) _ () _ hreaches).mpr (by decide)

end PowerManage.Agent
