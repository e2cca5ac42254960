import PowerManage.Pki.Certificates

/-!
# CA rotation: durable states, snapshots and transitions

The durable state of one certificate class, the snapshot that consumers are
served, and the five transitions between durable states.

Main results:

- `Command.advances`: a permitted command follows an arrow of the
  continuity graph `Advances`.
-/

namespace PowerManage.Pki

open Relational

/-! ## Durable states -/

inductive RotationPhase where
  | stable
  | trust
  | migrate
  | retire
  deriving DecidableEq, Repr

/-- `store.CARotationState`; empty bytes stand for absent material. -/
structure CARotationState where
  certificateClass : CertificateClass
  phase : RotationPhase
  generation : UInt64
  revision : UInt64
  currentRootDER : Bytes
  currentFromSuccessor : Bool := false
  successorRootDER : Bytes := []
  discardedRootDER : Bytes := []
  transitionCertificateDER : Bytes := []
  requiredCRLIssuerFingerprint : Option Fingerprint := none
  requiredCRLSequence : Int := 0
  deriving DecidableEq, Repr

def validateCARotationState (s : CARotationState) : Except String Unit :=
  if s.generation = 0 ∨ s.revision = 0 ∨ s.currentRootDER = [] then
    .error "store: incomplete CA rotation state"
  else if s.currentRootDER.length > maxCertificateDERBytes ∨
      s.successorRootDER.length > maxCertificateDERBytes ∨
      s.discardedRootDER.length > maxCertificateDERBytes ∨
      s.transitionCertificateDER.length > maxCertificateDERBytes then
    .error "store: oversized CA rotation certificate material"
  else if s.requiredCRLSequence < 0 then
    .error "store: invalid CA rotation CRL baseline"
  else
    match s.phase with
    | .stable =>
      if s.successorRootDER ≠ [] ∨ s.discardedRootDER ≠ [] ∨
          s.transitionCertificateDER ≠ [] then
        .error "store: stable CA rotation state contains overlap material"
      else .ok ()
    | .trust =>
      if s.successorRootDER = [] ∧ s.discardedRootDER = [] then
        .error "store: trust CA rotation state lacks successor or discarded root"
      else .ok ()
    | .migrate =>
      if s.successorRootDER = [] ∨ s.transitionCertificateDER = [] then
        .error "store: migrate CA rotation state lacks successor material"
      else .ok ()
    | .retire =>
      if s.successorRootDER = [] then
        .error "store: retire CA rotation state lacks successor material"
      else .ok ()

/-- A stored state has a generation, a revision and a current root. -/
theorem validateCARotationState_ok {s : CARotationState} (h : validateCARotationState s = .ok ()) :
    s.generation ≠ 0 ∧ s.revision ≠ 0 ∧ s.currentRootDER ≠ [] := by
  unfold validateCARotationState at h
  simp at h
  exact h.1

namespace CARotationState

/-- The roots that consumers of the class are to trust. -/
def desiredRootDER (s : CARotationState) : List Bytes :=
  match s.phase with
  | .stable => [s.currentRootDER]
  | .trust =>
    if s.successorRootDER ≠ [] then [s.currentRootDER, s.successorRootDER]
    else [s.currentRootDER]
  | .migrate => [s.currentRootDER, s.successorRootDER]
  | .retire => [s.successorRootDER]

/-- The root that leaves of the class are issued under. -/
def issuingRootDER (s : CARotationState) : Bytes :=
  match s.phase with
  | .stable | .trust => s.currentRootDER
  | .migrate | .retire => s.successorRootDER

/-- The state of a class that was never rotated. -/
def initial (cls : CertificateClass) (root : Bytes) : CARotationState where
  certificateClass := cls
  phase := .stable
  generation := 1
  revision := 1
  currentRootDER := root

end CARotationState

/-! ## Snapshots -/

structure AuthoritySnapshot where
  certificateClass : CertificateClass
  phase : RotationPhase
  generation : UInt64
  revision : UInt64
  desiredRootDER : List Bytes
  issuingRootDER : Bytes
  successorRootDER : Bytes
  predecessorRootDER : Bytes
  transitionCertificateDER : Bytes
  requiredCRLIssuerFingerprint : Option Fingerprint
  requiredCRLSequence : Nat
  publishedCRLSequence : Nat
  deriving DecidableEq, Repr

/-- `LatestCRL`: the sequence of an issuer's latest revocation list. -/
abbrev LatestCRL : Type :=
  CertificateClass → Fingerprint → Except String Nat

variable [Sha256]

/-- The part of `snapshotFromState` that reads nothing. -/
def CARotationState.snapshot (s : CARotationState) : AuthoritySnapshot where
  certificateClass := s.certificateClass
  phase := s.phase
  generation := s.generation
  revision := s.revision
  desiredRootDER := s.desiredRootDER
  issuingRootDER := s.issuingRootDER
  successorRootDER := if s.phase = .stable then [] else s.successorRootDER
  predecessorRootDER := if s.phase = .retire then s.currentRootDER else []
  transitionCertificateDER := s.transitionCertificateDER
  requiredCRLIssuerFingerprint :=
    if s.certificateClass = .agent ∧ s.requiredCRLIssuerFingerprint = none then
      some (sha256 s.issuingRootDER)
    else s.requiredCRLIssuerFingerprint
  requiredCRLSequence :=
    if s.certificateClass = .agent ∧ s.requiredCRLIssuerFingerprint = none then 1
    else s.requiredCRLSequence.toNat
  publishedCRLSequence := 0

def snapshotFromState (latestCRL : LatestCRL) (s : CARotationState) :
    Except String AuthoritySnapshot :=
  match s.snapshot.requiredCRLIssuerFingerprint with
  | none => .ok s.snapshot
  | some fingerprint =>
    (latestCRL s.certificateClass fingerprint).map fun sequence =>
      { s.snapshot with publishedCRLSequence := sequence }

/-- A snapshot shows a state; only the published sequence is read elsewhere. -/
def AuthoritySnapshot.Shows (a : AuthoritySnapshot) (s : CARotationState) : Prop :=
  ∃ sequence, a = { s.snapshot with publishedCRLSequence := sequence }

theorem snapshotFromState_ok {latestCRL : LatestCRL} {s : CARotationState}
    {a : AuthoritySnapshot} (h : snapshotFromState latestCRL s = .ok a) : a.Shows s := by
  unfold snapshotFromState at h
  split at h
  · exact ⟨0, (Except.ok.inj h).symm⟩
  · obtain ⟨sequence, -, hsequence⟩ := map_eq_ok.mp h
    exact ⟨sequence, hsequence.symm⟩

/-- The revocation list that consumers must have seen: an issuer and a sequence. -/
abbrev CRLBaseline : Type := Option Fingerprint × Int

def requiredCRLBaseline (latestCRL : LatestCRL) (cls : CertificateClass) (rootDER : Bytes) :
    Except String CRLBaseline :=
  if cls ≠ .agent then .ok (none, 0)
  else (latestCRL cls (sha256 rootDER)).map fun sequence => (some (sha256 rootDER), sequence)

/-! ## Transitions -/

/-- What the database must confirm before a transition. -/
inductive RotationGate where
  | none
  | requireConsumerConfirmations
  | requireLeafMigration
  deriving DecidableEq, Repr

/-- One rotation command, up to its commit. -/
structure Transition where
  /-- The check on the snapshot and on the durable state. -/
  permitted : AuthoritySnapshot → Option CARotationState → Except String Unit
  gate : RotationGate
  /-- The root whose revocation list becomes the baseline. -/
  baselineRoot : AuthoritySnapshot → Option Bytes
  /-- The state to store. -/
  next : AuthoritySnapshot → CRLBaseline → CARotationState

namespace Transition

def beginTrust (x : X509) (now : Int) (successorRootDER transitionCertificateDER : Bytes)
    (successorSigner : Signer) : Transition where
  permitted current _ :=
    if current.phase ≠ .stable then .error "pki: BeginTrust requires stable phase"
    else
      validateRotationSuccessor x current.issuingRootDER successorRootDER
        transitionCertificateDER successorSigner now
  gate := .none
  baselineRoot _ := some successorRootDER
  next current baseline :=
    { certificateClass := current.certificateClass
      phase := .trust
      generation := current.generation + 1
      revision := 1
      currentRootDER := current.issuingRootDER
      successorRootDER
      transitionCertificateDER
      requiredCRLIssuerFingerprint := baseline.1
      -- An agent successor gets its first revocation list before the commit.
      requiredCRLSequence :=
        if current.certificateClass = .agent ∧ baseline.2 = 0 then 1 else baseline.2 }

def abort : Transition where
  permitted current _ :=
    if current.phase ≠ .trust ∨ current.successorRootDER = [] then
      .error "pki: Abort requires active trust phase"
    else .ok ()
  gate := .none
  baselineRoot current := some current.issuingRootDER
  next current baseline :=
    { certificateClass := current.certificateClass
      phase := .trust
      generation := current.generation
      revision := current.revision + 1
      currentRootDER := current.issuingRootDER
      discardedRootDER := current.successorRootDER
      requiredCRLIssuerFingerprint := baseline.1
      requiredCRLSequence := baseline.2 }

def migrate : Transition where
  permitted current _ :=
    if current.phase ≠ .trust ∨ current.successorRootDER = [] then
      .error "pki: Migrate requires active trust phase"
    else .ok ()
  gate := .requireConsumerConfirmations
  baselineRoot _ := none
  next current _ :=
    { certificateClass := current.certificateClass
      phase := .migrate
      generation := current.generation
      revision := current.revision
      currentRootDER := current.issuingRootDER
      successorRootDER := current.successorRootDER
      transitionCertificateDER := current.transitionCertificateDER
      requiredCRLIssuerFingerprint := current.requiredCRLIssuerFingerprint
      requiredCRLSequence := current.requiredCRLSequence }

def retire : Transition where
  permitted current _ :=
    if current.phase ≠ .migrate then .error "pki: Retire requires migrate phase" else .ok ()
  gate := .requireLeafMigration
  baselineRoot current := some current.successorRootDER
  next current baseline :=
    { certificateClass := current.certificateClass
      phase := .retire
      generation := current.generation
      revision := current.revision + 1
      currentRootDER := current.desiredRootDER.headD []
      successorRootDER := current.successorRootDER
      requiredCRLIssuerFingerprint := baseline.1
      requiredCRLSequence := baseline.2 }

/-- `Normalize`, which reads the durable state a second time. -/
def normalize : Transition where
  permitted current durable :=
    match durable with
    | none => .error "store: read CA rotation state: no rows"
    | some state =>
      if current.phase ≠ .retire ∧ ¬ (current.phase = .trust ∧ current.successorRootDER = [] ∧
          state.discardedRootDER ≠ []) then
        .error "pki: Normalize requires pending abort or retire phase"
      else .ok ()
  gate := .requireConsumerConfirmations
  baselineRoot _ := none
  next current _ :=
    { certificateClass := current.certificateClass
      phase := .stable
      generation := current.generation
      revision := current.revision
      currentRootDER := current.issuingRootDER
      currentFromSuccessor := current.phase = .retire }

end Transition

/-- The rotation commands of an operator. -/
inductive Command where
  | beginTrust (successorRootDER transitionCertificateDER : Bytes) (successorSigner : Signer)
  | abort
  | migrate
  | retire
  | normalize
  deriving DecidableEq, Repr

/-- What a command does up to its commit. -/
def Command.transition (x : X509) (now : Int) : Command → Transition
  | beginTrust successor transition signer => .beginTrust x now successor transition signer
  | abort => .abort
  | migrate => .migrate
  | retire => .retire
  | normalize => .normalize

/-! ## The continuity graph -/

/-- The arrows between durable states, with what the commands check on them. -/
inductive Advances (x : X509) (s : CARotationState) : Command → CARotationState → Prop where
  | beginTrust {now : Int} {successor transition : Bytes} {signer : Signer}
      {fingerprint : Option Fingerprint} {sequence : Int} (hphase : s.phase = .stable)
      (hsuccessor : validateRotationSuccessor x s.currentRootDER successor transition signer
        now = .ok ()) :
      Advances x s (.beginTrust successor transition signer)
        { certificateClass := s.certificateClass
          phase := .trust
          generation := s.generation + 1
          revision := 1
          currentRootDER := s.currentRootDER
          successorRootDER := successor
          transitionCertificateDER := transition
          requiredCRLIssuerFingerprint := fingerprint
          requiredCRLSequence := sequence }
  | abort {fingerprint : Option Fingerprint} {sequence : Int} (hphase : s.phase = .trust)
      (hsuccessor : s.successorRootDER ≠ []) :
      Advances x s .abort
        { certificateClass := s.certificateClass
          phase := .trust
          generation := s.generation
          revision := s.revision + 1
          currentRootDER := s.currentRootDER
          discardedRootDER := s.successorRootDER
          requiredCRLIssuerFingerprint := fingerprint
          requiredCRLSequence := sequence }
  | migrate (hphase : s.phase = .trust) (hsuccessor : s.successorRootDER ≠ []) :
      Advances x s .migrate
        { certificateClass := s.certificateClass
          phase := .migrate
          generation := s.generation
          revision := s.revision
          currentRootDER := s.currentRootDER
          successorRootDER := s.successorRootDER
          transitionCertificateDER := s.transitionCertificateDER
          requiredCRLIssuerFingerprint := s.snapshot.requiredCRLIssuerFingerprint
          requiredCRLSequence := s.snapshot.requiredCRLSequence }
  | retire {fingerprint : Option Fingerprint} {sequence : Int} (hphase : s.phase = .migrate) :
      Advances x s .retire
        { certificateClass := s.certificateClass
          phase := .retire
          generation := s.generation
          revision := s.revision + 1
          currentRootDER := s.currentRootDER
          successorRootDER := s.successorRootDER
          requiredCRLIssuerFingerprint := fingerprint
          requiredCRLSequence := sequence }
  | completed (hphase : s.phase = .retire) :
      Advances x s .normalize
        { certificateClass := s.certificateClass
          phase := .stable
          generation := s.generation
          revision := s.revision
          currentRootDER := s.successorRootDER
          currentFromSuccessor := true }
  | withdrawn (hphase : s.phase = .trust) (hsuccessor : s.successorRootDER = [])
      (hdiscarded : s.discardedRootDER ≠ []) :
      Advances x s .normalize
        { certificateClass := s.certificateClass
          phase := .stable
          generation := s.generation
          revision := s.revision
          currentRootDER := s.currentRootDER }

variable {cmd : Command} {s s' : CARotationState}
variable {x : X509}

/-- A permitted command follows an arrow of the graph. -/
theorem Command.advances {now : Int} {durable : Option CARotationState}
    (hdurable : ∀ d, durable = some d → d = s) {a : AuthoritySnapshot} (ha : a.Shows s)
    {baseline : CRLBaseline} (hpermitted : (cmd.transition x now).permitted a durable = .ok ()) :
    Advances x s cmd ((cmd.transition x now).next a baseline) := by
  obtain ⟨sequence, rfl⟩ := ha
  cases cmd with
  | beginTrust successor transition signer =>
    simp only [Command.transition, Transition.beginTrust, CARotationState.snapshot,
      ite_error_eq_ok, not_not, CARotationState.issuingRootDER] at hpermitted ⊢
    obtain ⟨hphase, hsuccessor⟩ := hpermitted
    simp only [hphase] at hsuccessor ⊢
    exact .beginTrust hphase hsuccessor
  | abort =>
    simp only [Command.transition, Transition.abort, CARotationState.snapshot,
      ite_error_eq_ok, not_or, not_not, CARotationState.issuingRootDER] at hpermitted ⊢
    obtain ⟨⟨hphase, hsuccessor⟩, -⟩ := hpermitted
    simp [hphase] at hsuccessor ⊢
    exact .abort hphase hsuccessor
  | migrate =>
    simp only [Command.transition, Transition.migrate, ite_error_eq_ok, not_or,
      not_not] at hpermitted ⊢
    obtain ⟨⟨hphase, hsuccessor⟩, -⟩ := hpermitted
    change s.phase = .trust at hphase
    simp only [CARotationState.snapshot, hphase, reduceCtorEq, if_false] at hsuccessor
    have harrow := Advances.migrate (x := x) hphase hsuccessor
    simpa only [CARotationState.snapshot, CARotationState.issuingRootDER, hphase, reduceCtorEq,
      if_false] using harrow
  | retire =>
    simp only [Command.transition, Transition.retire, CARotationState.snapshot,
      ite_error_eq_ok, not_not, CARotationState.desiredRootDER] at hpermitted ⊢
    obtain ⟨hphase, -⟩ := hpermitted
    simp only [hphase, reduceCtorEq, if_false, List.headD_cons]
    exact .retire hphase
  | normalize =>
    cases durable with
    | none => simp [Command.transition, Transition.normalize] at hpermitted
    | some d =>
      obtain rfl := hdurable d rfl
      simp only [Command.transition, Transition.normalize, CARotationState.snapshot,
        ite_error_eq_ok, CARotationState.issuingRootDER] at hpermitted ⊢
      by_cases hretire : d.phase = .retire
      · simp only [hretire, decide_true]
        exact .completed hretire
      · obtain ⟨hphase, hsuccessor, hdiscarded⟩ :=
          not_not.mp fun h => hpermitted.1 ⟨hretire, h⟩
        simp [hphase] at hsuccessor ⊢
        exact .withdrawn hphase hsuccessor hdiscarded

theorem Advances.certificateClass (h : Advances x s cmd s') :
    s'.certificateClass = s.certificateClass := by
  cases h <;> rfl

end PowerManage.Pki
