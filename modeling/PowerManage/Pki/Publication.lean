import Mathlib.Data.Prod.Lex
import PowerManage.Pki.RotationManager
import PowerManage.Pki.TrustClaims

/-!
# Published trust bundles

Consumers are shown the bundles that the distributor was handed and those that replicas
serve.  The distributor is handed a bundle before its command commits: as long as no
command is rolled back after it published a new version, whatever is shown is the bundle
of the durable state, and the bundles of a run are ordered by their versions.

A consumer checks the bundle that it is shown now against the one it stored, which may be
any that was shown before.  Within a generation the bundles only lose a root, and every
consumer follows.  A bundle of a newer generation is followed only while it shows two
roots and starts from the last root that the consumer stored, which an aborted rotation no
longer does.

Main results:

- `continues_of_commits`: how the bundles of a run continue each other.
- `shown_bundles_ordered`: the order of what consumers are shown.
- `shown_bundle_adoptable`: when a consumer that was offline may adopt the
  present bundle.
-/

namespace PowerManage.Pki

open ClassState Relational

def trustBundleFromSnapshot (a : AuthoritySnapshot) : CATrustBundle where
  generation := a.generation
  revision := a.revision
  rootCertificateDER := a.desiredRootDER
  transitionCertificateDER := a.transitionCertificateDER
  crlIssuerFingerprint := a.requiredCRLIssuerFingerprint
  crlSequence := a.publishedCRLSequence

/-- What consumers store of a publication. -/
def TrustBundlePublication.bundle (p : TrustBundlePublication) : TrustBundle where
  generation := p.generation
  revision := p.revision
  rootCertificateDER := p.rootCertificateDER
  transitionCertificateDER := p.transitionCertificateDER

/-- What consumers store of a durable state. -/
def CARotationState.bundle (s : CARotationState) : TrustBundle where
  generation := s.generation
  revision := s.revision
  rootCertificateDER := s.desiredRootDER
  transitionCertificateDER := s.transitionCertificateDER

/-- A bundle that consumers are shown at a point of a run: the latest one that the
distributor was handed, or one that a replica serves. -/
inductive ClassState.Shows [Sha256] (x : X509) (cls : CertificateClass) (c : ClassState) :
    TrustBundle → Prop where
  | published {p : TrustBundlePublication} : c.published.getLast? = some p →
      Shows x cls c p.bundle
  | served {replica : Nat} {reads : Reads} {a : AuthoritySnapshot} :
      c.snapshotAt x cls reads replica = .ok a →
      Shows x cls c (trustBundleFromSnapshot a).toTrustBundle

/-- No command that changes the trust version is rolled back after it published. -/
def RotationAction.Completed : RotationAction → Prop
  | .command _ cmd _ (.failed true _) => cmd = .migrate ∨ cmd = .normalize
  | _ => True

/-- A step that drops the first root of a rotation. -/
def RotationAction.Retires [Sha256] (x : X509) (cls : CertificateClass) (root : Bytes)
    (c : ClassState) (a : RotationAction) : Prop :=
  (c.effective cls root).phase ≠ .retire ∧ ((a.exec x cls c).effective cls root).phase = .retire

/-! ## The order of bundles -/

namespace TrustBundle

/-- The order in which consumers compare trust bundles. -/
def version (t : TrustBundle) : ℕ ×ₗ ℕ :=
  toLex (t.generation.toNat, t.revision.toNat)

/-- The version never decreases, increases if the roots change, and determines them. -/
structure Precedes (t t' : TrustBundle) : Prop where
  le : t.version ≤ t'.version
  lt : t.rootCertificateDER ≠ t'.rootCertificateDER → t.version < t'.version
  roots : t.version = t'.version → t.rootCertificateDER = t'.rootCertificateDER

/-- A later bundle of the same generation is the same one, or one of its roots alone. -/
def Continues (t t' : TrustBundle) : Prop :=
  t.generation < t'.generation ∨ t'.generation = t.generation ∧ (t' = t ∨
    t.revision < t'.revision ∧ ∃ root ∈ t.rootCertificateDER, t'.rootCertificateDER = [root])

variable {t t' t'' : TrustBundle}

theorem Continues.trans (h : t.Continues t') (h' : t'.Continues t'') : t.Continues t'' := by
  rcases h with hlt | ⟨hgeneration, rfl | ⟨hrevision, root, hroot, hroots⟩⟩
  · rcases h' with hlt' | ⟨hgeneration', -⟩
    · exact .inl (UInt64.lt_trans hlt hlt')
    · exact .inl (hgeneration' ▸ hlt)
  · exact h'
  · rcases h' with hlt' | ⟨hgeneration', rfl | ⟨hrevision', root', hroot', hroots'⟩⟩
    · exact .inl (hgeneration ▸ hlt')
    · exact .inr ⟨hgeneration, .inr ⟨hrevision, root, hroot, hroots⟩⟩
    · rw [hroots, List.mem_singleton] at hroot'
      exact .inr ⟨hgeneration'.trans hgeneration,
        .inr ⟨UInt64.lt_trans hrevision hrevision', root, hroot, hroot' ▸ hroots'⟩⟩

/-- A bundle that continues another is the same one or has a later version. -/
theorem Continues.precedes (h : t.Continues t') : t.Precedes t' := by
  have hcases : t.version < t'.version ∨ t' = t := by
    rcases h with hlt | ⟨hgeneration, hsame | ⟨hrevision, -⟩⟩
    · exact .inl (Prod.Lex.toLex_lt_toLex.mpr (.inl (UInt64.lt_iff_toNat_lt.mp hlt)))
    · exact .inr hsame
    · exact .inl (Prod.Lex.toLex_lt_toLex.mpr
        (.inr ⟨by rw [hgeneration], UInt64.lt_iff_toNat_lt.mp hrevision⟩))
  rcases hcases with hlt | rfl
  · exact ⟨hlt.le, fun _ => hlt, fun heq => absurd heq hlt.ne⟩
  · exact ⟨le_rfl, fun hne => absurd rfl hne, fun _ => rfl⟩

end TrustBundle

open CARotationState (bundle desiredRootDER)

/-! ## Bundles of a run -/

/-- A counter that does not wrap to zero is larger. -/
theorem lt_succ_of_ne_zero {n : UInt64} (h : n + 1 ≠ 0) : n < n + 1 := by
  have hlt : n.toNat < 2 ^ 64 := n.toNat_lt
  have hsum : (n + 1).toNat = (n.toNat + 1) % 2 ^ 64 := UInt64.toNat_add n 1
  have hne : (n + 1).toNat ≠ 0 := fun hzero => h (UInt64.toNat_inj.mp hzero)
  rw [UInt64.lt_iff_toNat_lt]
  omega

/-- A state shows one root without a proof, or two roots with the proof that
`BeginTrust` checked. -/
def CARotationState.Proven (x : X509) (s : CARotationState) : Prop :=
  (∃ root, s.desiredRootDER = [root]) ∧ s.transitionCertificateDER = [] ∨
    s.desiredRootDER = [s.currentRootDER, s.successorRootDER] ∧ ∃ signer now,
      validateRotationSuccessor x s.currentRootDER s.successorRootDER s.transitionCertificateDER
        signer now = .ok ()

section continues

variable {x : X509} {cmd : Command} {s s' : CARotationState}

theorem CARotationState.Proven.transition_eq_nil (h : s.Proven x) {root : Bytes}
    (hroots : s.desiredRootDER = [root]) : s.transitionCertificateDER = [] := by
  rcases h with ⟨-, hnone⟩ | ⟨htwo, -⟩
  · exact hnone
  · cases hroots.symm.trans htwo

variable [Sha256]

theorem Advances.proven (h : Advances x s cmd s') (hproven : s.Proven x)
    (hvalid : validateCARotationState s' = .ok ()) : s'.Proven x := by
  cases h with
  | @beginTrust now successor transition signer _ _ _ hsuccessor =>
    -- The store refuses a trust phase without successor or discarded root.
    have hne : successor ≠ [] := by
      rintro rfl
      simp [validateCARotationState] at hvalid
    refine .inr ⟨?_, signer, now, hsuccessor⟩
    simp [desiredRootDER, hne]
  | migrate hphase hsuccessor =>
    rcases hproven with ⟨⟨root, hone⟩, -⟩ | ⟨-, hchecked⟩
    · simp [desiredRootDER, hphase, hsuccessor] at hone
    · exact .inr ⟨rfl, hchecked⟩
  | _ => exact .inl ⟨⟨_, rfl⟩, rfl⟩

/-- Migration and normalization change nothing that consumers are shown. -/
theorem Advances.bundle_eq (h : Advances x s cmd s') (hproven : s.Proven x)
    (hcmd : cmd = .migrate ∨ cmd = .normalize) : s'.bundle = s.bundle := by
  cases h with
  | migrate hphase hsuccessor =>
    simp [bundle, desiredRootDER, hphase, hsuccessor]
  | completed hphase =>
    have hroots : s.desiredRootDER = [s.successorRootDER] := by
      simp [desiredRootDER, hphase]
    simp [bundle, desiredRootDER, hphase, hproven.transition_eq_nil hroots]
  | withdrawn hphase hsuccessor =>
    have hroots : s.desiredRootDER = [s.currentRootDER] := by
      simp [desiredRootDER, hphase, hsuccessor]
    simp [bundle, desiredRootDER, hphase, hsuccessor, hproven.transition_eq_nil hroots]
  | _ => simp at hcmd

theorem Advances.continues (h : Advances x s cmd s') (hproven : s.Proven x)
    (hvalid : validateCARotationState s' = .ok ()) : s.bundle.Continues s'.bundle := by
  obtain ⟨hgeneration, hrevision, -⟩ := validateCARotationState_ok hvalid
  have hkept : cmd = .migrate ∨ cmd = .normalize → s.bundle.Continues s'.bundle :=
    fun hcmd => .inr ⟨congrArg TrustBundle.generation (h.bundle_eq hproven hcmd),
      .inl (h.bundle_eq hproven hcmd)⟩
  cases h with
  | beginTrust => exact .inl (lt_succ_of_ne_zero hgeneration)
  | abort hphase hsuccessor =>
    refine .inr ⟨rfl, .inr ⟨lt_succ_of_ne_zero hrevision, s.currentRootDER, ?_, rfl⟩⟩
    simp [bundle, desiredRootDER, hphase, hsuccessor]
  | retire hphase =>
    refine .inr ⟨rfl, .inr ⟨lt_succ_of_ne_zero hrevision, s.successorRootDER, ?_, rfl⟩⟩
    simp [bundle, desiredRootDER, hphase]
  | migrate => exact hkept (.inl rfl)
  | completed => exact hkept (.inr rfl)
  | withdrawn => exact hkept (.inr rfl)

/-- Only a retirement changes the first root. -/
theorem Advances.head_eq (h : Advances x s cmd s')
    (hretire : ¬ (s.phase ≠ .retire ∧ s'.phase = .retire)) :
    s'.desiredRootDER.head? = s.desiredRootDER.head? := by
  cases h with
  | beginTrust hphase =>
    simp only [desiredRootDER, hphase]
    split <;> rfl
  | abort hphase hsuccessor => simp [desiredRootDER, hphase, hsuccessor]
  | migrate hphase hsuccessor => simp [desiredRootDER, hphase, hsuccessor]
  | retire hphase => simp [hphase] at hretire
  | completed hphase => simp [desiredRootDER, hphase]
  | withdrawn hphase hsuccessor => simp [desiredRootDER, hphase, hsuccessor]

/-- How the bundles of a run continue each other. -/
theorem continues_of_commits (h : Relation.ReflTransGen (Commits x) s s') (hproven : s.Proven x) :
    s'.Proven x ∧ s.bundle.Continues s'.bundle := by
  induction h with
  | refl => exact ⟨hproven, .inr ⟨rfl, .inl rfl⟩⟩
  | tail _ hcommit ih =>
    obtain ⟨cmd, hadvances, hvalid⟩ := hcommit
    exact ⟨hadvances.proven ih.1 hvalid, ih.2.trans (hadvances.continues ih.1 hvalid)⟩

end continues

section shown

variable [Sha256] {x : X509} {cls : CertificateClass} {root : Bytes} {c c' : ClassState}
variable {allowed : ClassState → RotationAction → Prop} {t t' : TrustBundle}

/-- The state of a run and what its bundles went through. -/
theorem RotatesUnder.proven (hrun : RotatesUnder allowed x cls root .init c) :
    Inv cls root c ∧ (c.effective cls root).Proven x := by
  obtain ⟨hinv, hcommits⟩ := hrun.commits inv_init
  exact ⟨hinv, (continues_of_commits hcommits (.inl ⟨⟨root, rfl⟩, rfl⟩)).1⟩

/-- The latest publication of a completed run is the bundle of the durable state. -/
theorem RotatesUnder.latest_eq (hrun : RotatesUnder allowed x cls root .init c)
    (hcompleted : ∀ c a, allowed c a → a.Completed) {p : TrustBundlePublication}
    (hp : c.published.getLast? = some p) : p.bundle = (c.effective cls root).bundle := by
  induction hrun generalizing p with
  | refl => simp [init] at hp
  | @step c a hbefore hallowed _ ih =>
    obtain ⟨hinv, hproven⟩ := hbefore.proven
    rcases exec_cases (x := x) hinv a with ⟨hsame, hnothing⟩ |
      ⟨_, cmd, _, outcome, state, next, rfl, hadvances, -, hnext, hpublished, hresult⟩
    · rw [hnothing] at hp
      rw [hsame]
      exact ih hp
    · rw [hpublished, List.getLast?_concat, Option.some.injEq] at hp
      have hbundle : next.publication.bundle = state.bundle := by
        obtain ⟨sequence, rfl⟩ := hnext
        rfl
      rw [← hp, hbundle]
      rcases hresult with hstored | ⟨⟨e, rfl⟩, hsame⟩
      · rw [hstored]
      · -- Rolled back, but what it published is what is shown anyway.
        rw [hsame]
        exact hadvances.bundle_eq hproven (hcompleted c _ hallowed)

theorem ClassState.Inv.served_eq (h : Inv cls root c) {replica : Nat} {reads : Reads}
    {a : AuthoritySnapshot} (ha : c.snapshotAt x cls reads replica = .ok a) :
    (trustBundleFromSnapshot a).toTrustBundle = (c.effective cls root).bundle := by
  obtain ⟨sequence, rfl⟩ := h.unrotated.snapshotAt_shows ha
  rfl

/-- In a completed run consumers are shown the bundle of the durable state. -/
theorem RotatesUnder.shown_eq (hrun : RotatesUnder allowed x cls root .init c)
    (hcompleted : ∀ c a, allowed c a → a.Completed) (ht : c.Shows x cls t) :
    t = (c.effective cls root).bundle := by
  cases ht with
  | published hp => exact hrun.latest_eq hcompleted hp
  | served ha => exact hrun.proven.1.served_eq ha

theorem RotatesUnder.trans {c₀ : ClassState} (h : RotatesUnder allowed x cls root c₀ c)
    (h' : RotatesUnder allowed x cls root c c') : RotatesUnder allowed x cls root c₀ c' := by
  induction h' with
  | refl => exact h
  | step _ hallowed hconfigured ih => exact ih.step hallowed hconfigured

/-- The bundles of two points of a run. -/
theorem RotatesUnder.continues (hreached : RotatesUnder allowed x cls root .init c)
    (hrun : RotatesUnder allowed x cls root c c') :
    (c.effective cls root).bundle.Continues (c'.effective cls root).bundle :=
  (continues_of_commits (hrun.commits hreached.proven.1).2 hreached.proven.2).2

end shown

/-- In every run the snapshots that replicas serve are ordered by their versions.  So is
all that consumers are shown, publications included, if no command is rolled back after it
published a new version. -/
theorem shown_bundles_ordered [Sha256] (x : X509) (cls : CertificateClass) (root : Bytes)
    (allowed : ClassState → RotationAction → Prop) (c c' : ClassState)
    (hreached : RotatesUnder allowed x cls root .init c)
    (hrun : RotatesUnder allowed x cls root c c') :
    (∀ replica replica' reads reads' a a', c.snapshotAt x cls reads replica = .ok a →
        c'.snapshotAt x cls reads' replica' = .ok a' →
        (trustBundleFromSnapshot a).Precedes (trustBundleFromSnapshot a').toTrustBundle) ∧
      ((∀ c a, allowed c a → a.Completed) →
        ∀ t t', c.Shows x cls t → c'.Shows x cls t' → t.Precedes t') := by
  have hprecedes := (hreached.continues hrun).precedes
  have hreached' := hreached.trans hrun
  constructor
  · intro replica replica' reads reads' a a' ha ha'
    rw [hreached.proven.1.served_eq ha, hreached'.proven.1.served_eq ha']
    exact hprecedes
  · intro hcompleted t t' ht ht'
    rw [hreached.shown_eq hcompleted ht, hreached'.shown_eq hcompleted ht']
    exact hprecedes

section samples

attribute [local instance] Sha256.verbatim

/-- A successor is published and its transaction rolled back; the next rotation publishes
another successor under the same version. -/
theorem rolledBack_version_reused :
    ∃ c c' t t', Rotates sampleX509 .agent [1] .init c ∧ Rotates sampleX509 .agent [1] c c' ∧
      c.Shows sampleX509 .agent t ∧ c'.Shows sampleX509 .agent t' ∧
      t.version = t'.version ∧ t.rootCertificateDER = [[1], [2]] ∧
      t'.rootCertificateDER = [[1], [3]] :=
  ⟨(RotationAction.command 0 (.beginTrust [2] [1, 2] (sampleSigner 2)) sampleReads
      (.failed true "store: commit callback append transaction")).exec sampleX509 .agent
        sampleRunning, _, _, _,
    sampleRunning_reached.step trivial trivial,
    sampleCommand_rotates (.beginTrust [3] [1, 3] (sampleSigner 3)) .refl,
    .published rfl, .published rfl, rfl, rfl, rfl⟩

theorem sampleRunning_completed :
    RotatesUnder (fun _ a => a.Completed) sampleX509 .agent [1] .init sampleRunning :=
  .step .refl trivial fun _ => rfl

theorem sampleTrusting_completed :
    RotatesUnder (fun _ a => a.Completed) sampleX509 .agent [1] sampleRunning sampleTrusting :=
  .step (a := .command 0 (.beginTrust [2] [1, 2] (sampleSigner 2)) sampleReads .committed) .refl
    trivial trivial

theorem shown_bundles_ordered_successor :
    ∃ t t', sampleRunning.Shows sampleX509 .agent t ∧ sampleTrusting.Shows sampleX509 .agent t' ∧
      t.version < t'.version := by
  have hserved : sampleRunning.Shows sampleX509 .agent _ :=
    @Shows.served _ _ _ _ 0 sampleReads _ rfl
  have hpublished : sampleTrusting.Shows sampleX509 .agent _ := .published rfl
  exact ⟨_, _, hserved, hpublished, ((shown_bundles_ordered sampleX509 .agent [1]
    (fun _ a => a.Completed) sampleRunning sampleTrusting sampleRunning_completed
    sampleTrusting_completed).2 (fun _ _ h => h) _ _ hserved hpublished).lt (by decide)⟩

end samples

/-! ## Consumers that were offline -/

/-- A root as consumers require it of an authority. -/
def RootProfile (x : X509) (now : Int) (der : Bytes) : Prop :=
  ∃ root, x.parse der = .ok root ∧ root.isCA ∧ root.basicConstraintsValid ∧
    root.maxPathLen = 0 ∧ root.maxPathLenZero ∧
    root.keyUsage = keyUsageCertSign + keyUsageCRLSign ∧ root.unhandledCriticalExtensions = 0 ∧
    root.signingKey ∧ root.validAt now ∧ x.checkSignatureFrom der der

/-- The certificates of a bundle as consumers require them: every root has the profile of
an authority, a successor has a key of its own, and all validity windows are open. -/
structure TrustBundle.Conforms (x : X509) (now : Int) (t : TrustBundle) : Prop where
  root : ∀ der ∈ t.rootCertificateDER, RootProfile x now der
  successor : ∀ first second current next, t.rootCertificateDER = [first, second] →
    x.parse first = .ok current → x.parse second = .ok next → current.publicKey ≠ next.publicKey
  proof : ∀ proof, x.parse t.transitionCertificateDER = .ok proof → proof.validAt now

section consumers

variable {x : X509} {now : Int} (consumer : CertificateClass)

theorem Certificate.validAt_iff {c : Certificate} :
    c.validAt now ↔ ¬ now < c.notBefore ∧ ¬ c.notAfter < now := by
  simp [Certificate.validAt]

theorem RootProfile.parse {der : Bytes} (h : RootProfile x now der) (hclock : now ≠ zeroTime) :
    ∃ root, x.parse der = .ok root ∧ parseContinuityRoot consumer x now der = .ok root := by
  obtain ⟨root, hparse, hca, hconstraints, hlength, hzero, husage, hextensions, hkey, hwindow,
    hself⟩ := h
  obtain ⟨hbefore, hafter⟩ := Certificate.validAt_iff.mp hwindow
  have hprofile : checkAuthorityProfile consumer root = .ok () := by
    cases consumer <;> simp [checkAuthorityProfile, hca, hconstraints]
  refine ⟨root, hparse, ?_⟩
  simp [parseContinuityRoot, hclock, hparse, hprofile, hlength, hzero, husage, hextensions, hkey,
    hbefore, hafter, hself, bind, Except.bind]

/-- What `BeginTrust` checked is what consumers check of a proof, but for the key. -/
theorem validateTransitionProof_of_successor {currentDER successorDER transitionDER : Bytes}
    {current successor : Certificate} {signer : Signer} {begun : Int}
    (h : validateRotationSuccessor x currentDER successorDER transitionDER signer begun = .ok ())
    (hcurrent : x.parse currentDER = .ok current)
    (hsuccessor : x.parse successorDER = .ok successor) (hclock : now ≠ zeroTime)
    (hkeys : current.publicKey ≠ successor.publicKey)
    (hproof : ∀ proof, x.parse transitionDER = .ok proof → proof.validAt now) :
    currentDER ≠ successorDER ∧
      validateTransitionProof consumer x now currentDER current successor transitionDER =
        .ok () := by
  simp only [validateRotationSuccessor, hcurrent, hsuccessor, ite_error_eq_ok, not_or, not_not] at h
  obtain ⟨⟨hne, -, hca, hconstraints, -⟩, h⟩ := h
  split at h
  · cases h
  · split at h
    · cases h
    · rename_i proof hparse
      simp only [ite_error_eq_ok, not_or, not_not] at h
      obtain ⟨⟨hkey, hsubject, hsubjectID, hissuer, hauthorityID, hproofCA, hproofConstraints,
        hlength, hzero, husage, hextensions, -, hsigned⟩, -⟩ := h
      obtain ⟨hbefore, hafter⟩ := Certificate.validAt_iff.mp (hproof proof hparse)
      refine ⟨hne, ?_⟩
      simp [validateTransitionProof, hclock, hparse, hbefore, hafter, hsubject, ← hkey, hkeys,
        hsubjectID, hproofConstraints, hconstraints, hproofCA, hca, hlength, hzero, husage,
        hextensions, hissuer, hauthorityID, hsigned]

variable {consumer}

/-- The bundle of a state that the commands led to has the shape that consumers require. -/
theorem CARotationState.Proven.validateShape {s : CARotationState} (h : s.Proven x)
    (hgeneration : s.generation ≠ 0) (hrevision : s.revision ≠ 0) (hclock : now ≠ zeroTime)
    (hempty : ∀ root, x.parse [] ≠ .ok root) (hconforms : s.bundle.Conforms x now) :
    validateShape consumer x now s.bundle = .ok () := by
  have hprofiles := hconforms.root
  rcases h with ⟨⟨root, hone⟩, hnone⟩ | ⟨htwo, signer, begun, hsuccessor⟩
  · simp only [bundle, hone, List.mem_singleton, forall_eq] at hprofiles
    obtain ⟨certificate, -, hroot⟩ := hprofiles.parse consumer hclock
    simp [Pki.validateShape, bundle, hgeneration, hrevision, hone, hnone,
      parseRoots, hroot, Except.map, bind, Except.bind]
  · simp only [bundle, htwo, List.mem_cons, List.not_mem_nil, or_false,
      forall_eq_or_imp, forall_eq] at hprofiles
    obtain ⟨current, hparse, hcurrent⟩ := hprofiles.1.parse consumer hclock
    obtain ⟨next, hparse', hnext⟩ := hprofiles.2.parse consumer hclock
    have hkeys := hconforms.successor _ _ current next htwo hparse hparse'
    obtain ⟨hne, hproof⟩ := validateTransitionProof_of_successor consumer hsuccessor
      hparse hparse' hclock hkeys hconforms.proof
    have hsome : s.transitionCertificateDER ≠ [] := by
      intro hnil
      rw [hnil] at hproof
      obtain ⟨-, proof, hproof, -⟩ := validateTransitionProof_keys hproof
      exact hempty proof hproof
    simp [Pki.validateShape, bundle, hgeneration, hrevision, htwo, hsome,
      parseRoots, hcurrent, hnext, Ne.symm hne, hproof, Except.map, Except.mapError, bind,
      Except.bind]

variable [Sha256] {cls : CertificateClass} {root : Bytes} {c c' : ClassState}

theorem ClassState.Inv.version_ne_zero (h : Inv cls root c) :
    (c.effective cls root).generation ≠ 0 ∧ (c.effective cls root).revision ≠ 0 := by
  unfold effective
  cases hdurable : c.durable with
  | none => simp [CARotationState.initial]
  | some s =>
    obtain ⟨hgeneration, hrevision, -⟩ := validateCARotationState_ok (h.valid s hdurable).1
    exact ⟨hgeneration, hrevision⟩

/-- Without a retirement the first root stays. -/
theorem RotatesUnder.head_eq
    (hrun : RotatesUnder (fun c a => ¬ a.Retires x cls root c) x cls root c c')
    (h : Inv cls root c) :
    (c'.effective cls root).desiredRootDER.head? =
      (c.effective cls root).desiredRootDER.head? := by
  induction hrun with
  | refl => rfl
  | @step c' a hbefore hallowed _ ih =>
    rcases exec_cases (x := x) (hbefore.commits h).1 a with ⟨hsame, -⟩ |
      ⟨-, cmd, -, -, state, -, -, hadvances, -, -, -, hstored | ⟨-, hsame⟩⟩
    · rw [hsame, ih]
    · rw [RotationAction.Retires, hstored] at hallowed
      rw [hstored, hadvances.head_eq hallowed, ih]
    · rw [hsame, ih]

end consumers

/-- A consumer that stored what it was shown earlier in a run, in which no command is rolled
back after it published a new version, accepts what it is shown now, as long as the
certificates are as consumers require them and either no rotation was begun in between or
the consumer had a single root, none was dropped since, and the present rotation still
shows both its roots. -/
theorem shown_bundle_adoptable [Sha256] (x : X509) (hempty : ∀ root, x.parse [] ≠ .ok root)
    (cls : CertificateClass) (root : Bytes) (c c' : ClassState)
    (hreached : RotatesUnder (fun _ a => a.Completed) x cls root .init c)
    (hrun : RotatesUnder (fun _ a => a.Completed) x cls root c c') (t t' : TrustBundle)
    (ht : c.Shows x cls t) (ht' : c'.Shows x cls t') (consumer : CertificateClass) (now : Int)
    (hclock : now ≠ zeroTime) (hconforms : t'.Conforms x now)
    (hmissed : t'.generation = t.generation ∨
      (∃ only, t.rootCertificateDER = [only]) ∧
        RotatesUnder (fun c a => ¬ a.Retires x cls root c) x cls root c c' ∧
        ∃ first second, t'.rootCertificateDER = [first, second]) :
    validateTrustBundle consumer x now t t' = .ok () := by
  have hcontinues := hreached.continues hrun
  obtain ⟨hinv, -⟩ := hreached.proven
  obtain ⟨hinv', hproven'⟩ := (hreached.trans hrun).proven
  obtain rfl := hreached.shown_eq (fun _ _ h => h) ht
  obtain rfl := (hreached.trans hrun).shown_eq (fun _ _ h => h) ht'
  obtain ⟨hgeneration, hrevision⟩ := hinv'.version_ne_zero
  rw [validateTrustBundle_ok_iff]
  refine ⟨hproven'.validateShape hgeneration hrevision hclock hempty hconforms, ?_⟩
  rcases hcontinues with hlt | ⟨hsame, hequal | hdropped⟩
  · rcases hmissed with hsame | ⟨⟨only, honly⟩, hkept, first, second, htwo⟩
    · exact absurd hsame (UInt64.ne_of_lt hlt).symm
    · -- The rotation that is shown now started from the only root of then.
      have hhead := hkept.head_eq hinv
      change desiredRootDER _ = _ at honly htwo
      rw [honly, htwo, List.head?_cons, List.head?_cons, Option.some.injEq] at hhead
      refine .inr (.inr (.inl ⟨hlt, only, second, ?_, ?_⟩))
      · simp [bundle, honly]
      · simp [bundle, htwo, hhead]
  · exact .inr (.inl hequal)
  · exact .inr (.inr (.inr ⟨hsame, hdropped⟩))

attribute [local instance] Sha256.verbatim

/-- The error of a consumer that was offline while a rotation was begun and aborted. -/
theorem aborted_bundle_refused :
    ∃ c c' t t', Rotates sampleX509 .agent [1] .init c ∧ Rotates sampleX509 .agent [1] c c' ∧
      c.Shows sampleX509 .agent t ∧ c'.Shows sampleX509 .agent t' ∧
      validateShape .agent sampleX509 5 t' = .ok () ∧
      validateTrustBundle .agent sampleX509 5 t t' =
        .error "enroll: new CA generation lacks a transition proof from the exact pending root" :=
  ⟨sampleRunning, sampleCommand .abort sampleTrusting, _, _, sampleRunning_reached,
    sampleCommand_rotates _ (sampleCommand_rotates _ .refl),
    @Shows.served _ _ _ _ 0 sampleReads _ rfl, .published rfl, rfl, rfl⟩

theorem begun_bundle_adoptable :
    ∃ t t', sampleRunning.Shows sampleX509 .agent t ∧ sampleTrusting.Shows sampleX509 .agent t' ∧
      validateTrustBundle .agent sampleX509 5 t t' = .ok () := by
  have hserved : sampleRunning.Shows sampleX509 .agent _ :=
    @Shows.served _ _ _ _ 0 sampleReads _ rfl
  have hpublished : sampleTrusting.Shows sampleX509 .agent _ := .published rfl
  refine ⟨_, _, hserved, hpublished, shown_bundle_adoptable sampleX509 (by simp [sampleX509])
    .agent [1] sampleRunning sampleTrusting sampleRunning_completed sampleTrusting_completed _ _
    hserved hpublished .agent 5 (by decide) ?_ (.inr ⟨⟨[1], rfl⟩, ?_, [1], [2], rfl⟩)⟩
  · refine ⟨?_, ?_, ?_⟩
    · change ∀ der ∈ [[1], [2]], RootProfile sampleX509 5 der
      simp only [List.mem_cons, List.not_mem_nil, or_false, forall_eq_or_imp, forall_eq]
      exact ⟨⟨_, rfl, by decide⟩, ⟨_, rfl, by decide⟩⟩
    · rintro first second current next hroots hcurrent hnext
      cases hroots
      cases hcurrent
      cases hnext
      decide
    · rintro proof hproof
      cases hproof
      decide
  · have hphase : (sampleTrusting.effective .agent [1]).phase ≠ .retire := by decide
    exact .step (a := .command 0 (.beginTrust [2] [1, 2] (sampleSigner 2)) sampleReads .committed)
      .refl (fun h => hphase h.2) trivial

end PowerManage.Pki
