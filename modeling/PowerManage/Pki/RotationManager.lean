import Mathlib.Logic.Relation
import PowerManage.Pki.Rotation

/-!
# The rotation manager and its replicas

Every server replica keeps the signing authorities of a class in memory and
restores them from the durable rotation state whenever it takes a snapshot.
Commands hold the class's fence exclusively, so each is one step of the machine
of this module.  A command hands its snapshot to the distributor inside the
transaction; after that it may be rolled back, commit, or commit without learning of it.

Main results:

- `exec_cases`: what one step of any replica does.
- `RotatesUnder.commits`: the states of a run follow each other by
  committed commands.
- `aborted_rotation_neutral_iff`: an aborted rotation restores the
  stable state it started from exactly when that state's root is the configured
  current authority.
-/

namespace PowerManage.Pki

open Relational

section replicas

variable [Sha256]

/-! ## One replica's memory -/

/-- The in-memory state of a `RotationManager` for one class. -/
structure Manager where
  issuers : Issuers
  successorSigner : Option Signer

/-- A manager call; memory keeps what was done before an error. -/
abbrev ManagerM : Type → Type := EStateM String Manager

namespace Manager

/-- `fmt.Errorf` with a wrapped error. -/
def wrap {α : Type} (text : String) (p : ManagerM α) : ManagerM α := fun m =>
  match p.run m with
  | .ok a m' => .ok a m'
  | .error e m' => .error (text ++ e) m'

@[simp]
theorem run_wrap {α : Type} (text : String) (p : ManagerM α) (m : Manager) :
    (wrap text p).run m =
      match p.run m with
      | .ok a m' => .ok a m'
      | .error e m' => .error (text ++ e) m' :=
  rfl

/-- Replace the issuers, or fail. -/
def modifyIssuers (f : Issuers → Except String Issuers) : ManagerM Unit := fun m =>
  match f m.issuers with
  | .ok issuers => .ok () { m with issuers }
  | .error e => .error e m

@[simp]
theorem run_modifyIssuers (f : Issuers → Except String Issuers) (m : Manager) :
    (modifyIssuers f).run m =
      match f m.issuers with
      | .ok issuers => .ok () { m with issuers }
      | .error e => .error e m :=
  rfl

def installAuthority (x : X509) (now : Int) (cls : CertificateClass) (rootDER : Bytes)
    (signer : Signer) : ManagerM Unit :=
  modifyIssuers (Issuers.installAuthority x now cls rootDER signer)

def selectAuthority (cls : CertificateClass) (fingerprint : Fingerprint) : ManagerM Unit :=
  modifyIssuers (Issuers.selectAuthority cls fingerprint)

def removeAuthority (fingerprint : Fingerprint) : ManagerM Unit :=
  modifyIssuers fun i => .ok (i.removeAuthority fingerprint)

def setSuccessorSigner (signer : Signer) : ManagerM Unit :=
  modify fun m => { m with successorSigner := some signer }

/-- Install a durable root with the configured successor signer. -/
def installWithSuccessorSigner (x : X509) (now : Int) (cls : CertificateClass)
    (missing binding : String) (rootDER : Bytes) : ManagerM Unit := do
  match (← get).successorSigner with
  | none => throw missing
  | some signer => wrap binding (installAuthority x now cls rootDER signer)

/-- The current root of a durable state must be installed. -/
def restoreCurrent (x : X509) (now : Int) (s : CARotationState) : ManagerM Unit := do
  if s.phase = .stable ∧ s.currentFromSuccessor then
    installWithSuccessorSigner x now s.certificateClass
      ("pki: no signer configured for durable " ++ s.certificateClass.text ++ " current root")
      "pki: durable current signer binding: " s.currentRootDER
  else if ((← get).issuers.installed (sha256 s.currentRootDER)).isNone then
    throw ("pki: configured " ++ s.certificateClass.text ++
      " current authority does not match durable state")
  else pure ()

def restoreSuccessor (x : X509) (now : Int) (s : CARotationState) : ManagerM Unit :=
  if s.successorRootDER ≠ [] then
    installWithSuccessorSigner x now s.certificateClass
      ("pki: no successor signer configured for durable " ++ s.certificateClass.text ++ " rotation")
      "pki: durable successor signer binding: " s.successorRootDER
  else pure ()

def restoreDiscarded (x : X509) (now : Int) (s : CARotationState) : ManagerM Unit :=
  if s.discardedRootDER ≠ [] then
    installWithSuccessorSigner x now s.certificateClass
      ("pki: no discarded successor signer configured for durable " ++
        s.certificateClass.text ++ " rotation")
      "pki: durable discarded successor signer binding: " s.discardedRootDER
  else pure ()

def restoreAuthorities (x : X509) (now : Int) (s : CARotationState) : ManagerM Unit := do
  restoreCurrent x now s
  restoreSuccessor x now s
  restoreDiscarded x now s
  wrap "pki: restore durable signer selection: "
    (selectAuthority s.certificateClass (sha256 s.issuingRootDER))

end Manager

/-! ## Commands -/

/-- What a call reads outside the rotation state. -/
structure Reads where
  now : Int
  latestCRL : LatestCRL
  requireConsumerConfirmations : AuthoritySnapshot → Except String Unit
  requireLeafMigration : AuthoritySnapshot → Except String Unit

/-- The answer of the database to a gate. -/
def Reads.gate (reads : Reads) (a : AuthoritySnapshot) : RotationGate → Except String Unit
  | .none => .ok ()
  | .requireConsumerConfirmations => reads.requireConsumerConfirmations a
  | .requireLeafMigration => reads.requireLeafMigration a

/-- `Snapshot`. -/
def takeSnapshot (x : X509) (cls : CertificateClass) (reads : Reads)
    (durable : Option CARotationState) : ManagerM AuthoritySnapshot := fun m =>
  match durable with
  | none =>
    match snapshotFromState reads.latestCRL
        (.initial cls m.issuers.current.certificateDER) with
    | .ok a => .ok a m
    | .error e => .error e m
  | some s =>
    match (Manager.restoreAuthorities x reads.now s).run m with
    | .error e m' => .error e m'
    | .ok _ m' =>
      match snapshotFromState reads.latestCRL s with
      | .ok a => .ok a m'
      | .error e => .error e m'

/-- The baseline that a transition reads. -/
def Transition.baseline (t : Transition) (latestCRL : LatestCRL) (cls : CertificateClass)
    (current : AuthoritySnapshot) : Except String CRLBaseline :=
  match t.baselineRoot current with
  | none => .ok (none, 0)
  | some root => requiredCRLBaseline latestCRL cls root

/-- The state that a command appends and the snapshot that it publishes. -/
def Command.propose (x : X509) (cls : CertificateClass) (reads : Reads) (cmd : Command)
    (durable : Option CARotationState) (current : AuthoritySnapshot) :
    Except String (CARotationState × AuthoritySnapshot) := do
  let t := cmd.transition x reads.now
  t.permitted current durable
  reads.gate current t.gate
  let baseline ← t.baseline reads.latestCRL cls current
  let next ← snapshotFromState reads.latestCRL (t.next current baseline)
  validateCARotationState (t.next current baseline)
  .ok (t.next current baseline, next)

/-- What a replica does in memory once its command has committed. -/
def Command.settle (x : X509) (cls : CertificateClass) (now : Int)
    (durable : Option CARotationState) (current next : AuthoritySnapshot) :
    Command → ManagerM Unit
  | .beginTrust successor _ signer => do
      Manager.wrap "pki: install committed successor signer: "
        (Manager.installAuthority x now cls successor signer)
      Manager.setSuccessorSigner signer
  | .abort => pure ()
  | .migrate =>
    Manager.wrap "pki: select committed successor signer: "
      (Manager.selectAuthority cls (sha256 next.issuingRootDER))
  | .retire =>
    Manager.wrap "pki: select retired successor signer: "
      (Manager.selectAuthority cls (sha256 next.issuingRootDER))
  | .normalize =>
    Manager.removeAuthority <| sha256 <|
      if current.phase = .retire then current.predecessorRootDER
      else (durable.map (·.discardedRootDER)).getD []

/-! ## Publications -/

structure TrustBundlePublication where
  certificateClass : CertificateClass
  generation : UInt64
  revision : UInt64
  rootCertificateDER : List Bytes
  transitionCertificateDER : Bytes
  crlIssuerFingerprints : List Fingerprint
  deriving DecidableEq, Repr

def activeCRLRoots (a : AuthoritySnapshot) : List Bytes :=
  if a.phase = .retire ∨ a.phase = .stable then [a.issuingRootDER] else a.desiredRootDER

/-- What `publishSnapshot` hands to the distributor. -/
def AuthoritySnapshot.publication (a : AuthoritySnapshot) : TrustBundlePublication where
  certificateClass := a.certificateClass
  generation := a.generation
  revision := a.revision
  rootCertificateDER := a.desiredRootDER
  transitionCertificateDER := a.transitionCertificateDER
  crlIssuerFingerprints := (activeCRLRoots a).map sha256

/-! ## Replicas -/

/-- One class in the database, in the memory of every running replica and at the
distributor, which has been handed the publications, oldest first. -/
structure ClassState where
  durable : Option CARotationState
  managers : Nat → Option Manager
  published : List TrustBundlePublication

/-- The transaction of a command.  Its callback publishes before the commit; the
publication, the first revocation list of a successor and the commit can all fail. -/
inductive CommitOutcome where
  | committed
  /-- The database committed, and the replica saw an error. -/
  | unknown
  /-- The transaction was rolled back, before its callback published or after. -/
  | failed (published : Bool) (e : String)
  deriving DecidableEq, Repr

/-- What a replica does. -/
inductive RotationAction where
  | start (replica : Nat) (authority : Authority) (successorSigner : Option Signer)
      (reads : Reads)
  | snapshot (replica : Nat) (reads : Reads)
  | command (replica : Nat) (cmd : Command) (reads : Reads) (outcome : CommitOutcome)

/-- `NewRotationManager`. -/
def startManager (x : X509) (now : Int) (authority : Authority)
    (successorSigner : Option Signer) (durable : Option CARotationState) :
    EStateM.Result String Manager Unit :=
  (match durable with
    | none => pure ()
    | some s => Manager.restoreAuthorities x now s : ManagerM Unit).run
    { issuers := .new authority, successorSigner }

namespace ClassState

/-- No replica has been started and the class was never rotated. -/
def init : ClassState where
  durable := none
  managers := fun _ => none
  published := []

def setManager (c : ClassState) (replica : Nat) (m : Option Manager) : ClassState :=
  { c with managers := Function.update c.managers replica m }

/-- The distributor is handed a snapshot. -/
def publishSnapshot (c : ClassState) (a : AuthoritySnapshot) : ClassState :=
  { c with published := c.published ++ [a.publication] }

/-- The snapshot that a replica serves. -/
def snapshotAt (x : X509) (cls : CertificateClass) (reads : Reads) (replica : Nat)
    (c : ClassState) : Except String AuthoritySnapshot :=
  match c.managers replica with
  | none => .error "server is not running"
  | some m =>
    match (takeSnapshot x cls reads c.durable).run m with
    | .ok a _ => .ok a
    | .error e _ => .error e

/-- A command of a running replica, as one step. -/
def command (x : X509) (cls : CertificateClass) (replica : Nat) (cmd : Command) (reads : Reads)
    (outcome : CommitOutcome) (c : ClassState) : ClassState × Except String Unit :=
  match c.managers replica with
  | none => (c, .error "server is not running")
  | some m =>
    match (takeSnapshot x cls reads c.durable).run m with
    | .error e m' => (c.setManager replica (some m'), .error e)
    | .ok current m' =>
      match cmd.propose x cls reads c.durable current with
      | .error e => (c.setManager replica (some m'), .error e)
      | .ok (state, next) =>
        match outcome with
        | .failed false e => (c.setManager replica (some m'), .error e)
        | .failed true e => ((c.setManager replica (some m')).publishSnapshot next, .error e)
        | .unknown =>
          ({ (c.setManager replica (some m')).publishSnapshot next with durable := some state },
            .error "store: commit outcome unknown")
        | .committed =>
          let c' := { c.publishSnapshot next with durable := some state }
          match (cmd.settle x cls reads.now c.durable current next).run m' with
          | .ok _ m'' => (c'.setManager replica (some m''), .ok ())
          | .error e m'' => (c'.setManager replica (some m''), .error e)

end ClassState

/-- One step of the machine. -/
def RotationAction.exec (x : X509) (cls : CertificateClass) (c : ClassState) :
    RotationAction → ClassState
  | .start replica authority successorSigner reads =>
    match startManager x reads.now authority successorSigner c.durable with
    | .ok _ m => c.setManager replica (some m)
    | .error _ _ => c.setManager replica none
  | .snapshot replica reads =>
    match c.managers replica with
    | none => c
    | some m =>
      match (takeSnapshot x cls reads c.durable).run m with
      | .ok _ m' => c.setManager replica (some m')
      | .error _ m' => c.setManager replica (some m')
  | .command replica cmd reads outcome => (c.command x cls replica cmd reads outcome).1

/-- Replicas that start before the first rotation are configured with one root. -/
def RotationAction.Configured (root : Bytes) (c : ClassState) : RotationAction → Prop
  | .start _ authority _ _ => c.durable = none → authority.certificateDER = root
  | _ => True

/-- The states that a class can pass through from a given one by allowed actions. -/
inductive RotatesUnder (allowed : ClassState → RotationAction → Prop) (x : X509)
    (cls : CertificateClass) (root : Bytes) (c : ClassState) : ClassState → Prop where
  | refl : RotatesUnder allowed x cls root c c
  | step {c' : ClassState} {a : RotationAction} : RotatesUnder allowed x cls root c c' →
      allowed c' a → a.Configured root c' → RotatesUnder allowed x cls root c (a.exec x cls c')

/-- The states that a class can pass through from a given one. -/
abbrev Rotates : X509 → CertificateClass → Bytes → ClassState → ClassState → Prop :=
  RotatesUnder fun _ _ => True

/-- The durable state of a class, or the one that stands for none. -/
def ClassState.effective (cls : CertificateClass) (root : Bytes) (c : ClassState) :
    CARotationState :=
  c.durable.getD (.initial cls root)

/-! ## What calls do -/

variable {x : X509} {cls : CertificateClass} {reads : Reads} {durable : Option CARotationState}

/-- A snapshot shows the durable state, or the state that stands for none. -/
theorem takeSnapshot_shows {m m' : Manager} {a : AuthoritySnapshot}
    (h : (takeSnapshot x cls reads durable).run m = .ok a m') :
    a.Shows (durable.getD (.initial cls m.issuers.current.certificateDER)) := by
  cases durable with
  | none =>
    simp only [takeSnapshot, EStateM.run] at h
    split at h
    · rename_i b hb
      cases h
      exact snapshotFromState_ok hb
    · exact absurd h (by simp)
  | some s =>
    simp only [takeSnapshot, EStateM.run] at h
    split at h
    · exact absurd h (by simp)
    · split at h
      · rename_i b hb
        cases h
        exact snapshotFromState_ok hb
      · exact absurd h (by simp)

/-- Before the first rotation a snapshot leaves the memory alone. -/
theorem takeSnapshot_unrotated (hdurable : durable = none) {m m' : Manager} :
    (∀ a, (takeSnapshot x cls reads durable).run m = .ok a m' → m' = m) ∧
      ∀ e, (takeSnapshot x cls reads durable).run m = .error e m' → m' = m := by
  subst hdurable
  constructor
  · intro a h
    simp only [takeSnapshot, EStateM.run] at h
    split at h <;> cases h
    rfl
  · intro e h
    simp only [takeSnapshot, EStateM.run] at h
    split at h <;> cases h
    rfl

variable {cmd : Command}

/-- A proposed state is the command's next one, and it is valid. -/
theorem Command.propose_ok {current : AuthoritySnapshot} {state : CARotationState}
    {next : AuthoritySnapshot} (h : cmd.propose x cls reads durable current = .ok (state, next)) :
    ∃ baseline, (cmd.transition x reads.now).permitted current durable = .ok () ∧
      state = (cmd.transition x reads.now).next current baseline ∧
      validateCARotationState state = .ok () ∧ next.Shows state := by
  unfold Command.propose at h
  simp only [bind_eq_ok, Except.ok.injEq, Prod.mk.injEq] at h
  obtain ⟨_, hpermitted, _, -, baseline, -, b, hb, _, hvalid, hstate, hnext⟩ := h
  subst hstate
  subst hnext
  exact ⟨baseline, hpermitted, rfl, hvalid, snapshotFromState_ok hb⟩

/-- A stable state carries no rotation material. -/
def CARotationState.Settled (s : CARotationState) : Prop :=
  s.phase = .stable →
    s = { certificateClass := s.certificateClass, phase := .stable, generation := s.generation,
          revision := s.revision, currentRootDER := s.currentRootDER,
          currentFromSuccessor := s.currentFromSuccessor }

theorem Advances.settled {s s' : CARotationState} (h : Advances x s cmd s') : s'.Settled := by
  cases h <;> intro hphase <;> first | rfl | cases hphase

namespace ClassState

variable {x : X509} {cls : CertificateClass} {root : Bytes} {c : ClassState}

/-- A running replica takes a snapshot from which a command leads to a state. -/
def Proposes (x : X509) (cls : CertificateClass) (c : ClassState) (cmd : Command)
    (state : CARotationState) (next : AuthoritySnapshot) : Prop :=
  ∃ replica reads m m' current, c.managers replica = some m ∧
    (takeSnapshot x cls reads c.durable).run m = .ok current m' ∧
    cmd.propose x cls reads c.durable current = .ok (state, next)

/-- The durable state stays as it is, and with none so does all memory. -/
def Rests (c c' : ClassState) : Prop :=
  c'.durable = c.durable ∧ (c.durable = none → c'.managers = c.managers)

/-- A command leaves the durable state alone, possibly after a publication, or
publishes and stores what it proposed. -/
theorem command_cases (x : X509) (cls : CertificateClass) (c : ClassState) (replica : Nat)
    (cmd : Command) (reads : Reads) (outcome : CommitOutcome) :
    ((c.command x cls replica cmd reads outcome).2 ≠ .ok () ∧
        Rests c (c.command x cls replica cmd reads outcome).1 ∧
        ((c.command x cls replica cmd reads outcome).1.published = c.published ∨
          ∃ e state next, outcome = .failed true e ∧ Proposes x cls c cmd state next ∧
            (c.command x cls replica cmd reads outcome).1.published =
              c.published ++ [next.publication])) ∨
      ∃ state next, Proposes x cls c cmd state next ∧
        (c.command x cls replica cmd reads outcome).1.durable = some state ∧
        (c.command x cls replica cmd reads outcome).1.published =
          c.published ++ [next.publication] := by
  -- A call that changes nothing durable also keeps the memory of an unrotated class.
  have hkeeps : ∀ {m m' : Manager}, c.managers replica = some m → (c.durable = none → m' = m) →
      c.durable = none → (c.setManager replica (some m')).managers = c.managers := by
    intro m m' hm hsame hnone
    rw [setManager, hsame hnone, ← hm, Function.update_eq_self]
  unfold command
  cases hm : c.managers replica with
  | none => exact .inl ⟨by simp, ⟨rfl, fun _ => rfl⟩, .inl rfl⟩
  | some m =>
    simp only
    cases hr : (takeSnapshot x cls reads c.durable).run m with
    | error e m' =>
      have hsame := fun hnone => (takeSnapshot_unrotated hnone).2 e hr
      exact .inl ⟨by simp, ⟨rfl, hkeeps hm hsame⟩, .inl rfl⟩
    | ok current m' =>
      have hsame := fun hnone => (takeSnapshot_unrotated hnone).1 current hr
      simp only
      cases hp : cmd.propose x cls reads c.durable current with
      | error e => exact .inl ⟨by simp, ⟨rfl, hkeeps hm hsame⟩, .inl rfl⟩
      | ok proposal =>
        obtain ⟨state, next⟩ := proposal
        have hproposes : Proposes x cls c cmd state next :=
          ⟨replica, reads, m, m', current, hm, hr, hp⟩
        cases outcome with
        | failed published e =>
          cases published with
          | false => exact .inl ⟨by simp, ⟨rfl, hkeeps hm hsame⟩, .inl rfl⟩
          | true =>
            exact .inl ⟨by simp, ⟨rfl, hkeeps hm hsame⟩, .inr ⟨e, state, next, rfl, hproposes, rfl⟩⟩
        | unknown => exact .inr ⟨state, next, hproposes, rfl, rfl⟩
        | committed =>
          refine .inr ⟨state, next, hproposes, ?_⟩
          simp only
          split <;> exact ⟨rfl, rfl⟩

/-- Before the first rotation every replica issues under the configured root. -/
def Unrotated (root : Bytes) (c : ClassState) : Prop :=
  c.durable = none → ∀ replica m, c.managers replica = some m →
    m.issuers.current.certificateDER = root

/-- What holds of every reachable class. -/
structure Inv (cls : CertificateClass) (root : Bytes) (c : ClassState) : Prop where
  valid : ∀ s, c.durable = some s →
    validateCARotationState s = .ok () ∧ s.certificateClass = cls ∧ s.Settled
  unrotated : c.Unrotated root

theorem inv_init : Inv cls root init where
  valid := fun _ h => absurd h (by simp [init])
  unrotated := fun _ _ _ h => absurd h (by simp [init])

theorem unrotated_of_durable {s : CARotationState} (h : c.durable = some s) (root : Bytes) :
    c.Unrotated root :=
  fun hnone => absurd (hnone.symm.trans h) (by simp)

theorem effective_of_durable {s : CARotationState} (h : c.durable = some s) :
    c.effective cls root = s := by
  simp [effective, h]

variable {reads : Reads} {replica : Nat}

/-- A snapshot shows the effective state. -/
theorem Unrotated.shows (h : c.Unrotated root) {m m' : Manager} {a : AuthoritySnapshot}
    (hm : c.managers replica = some m)
    (ha : (takeSnapshot x cls reads c.durable).run m = .ok a m') :
    a.Shows (c.effective cls root) := by
  have hshows := takeSnapshot_shows ha
  unfold effective
  cases hd : c.durable with
  | none =>
    rw [hd, h hd replica m hm] at hshows
    exact hshows
  | some s =>
    rw [hd] at hshows
    exact hshows

theorem Unrotated.snapshotAt_shows (h : c.Unrotated root) {a : AuthoritySnapshot}
    (ha : c.snapshotAt x cls reads replica = .ok a) : a.Shows (c.effective cls root) := by
  unfold snapshotAt at ha
  split at ha
  · exact absurd ha (by simp)
  · rename_i m hm
    split at ha
    · rename_i b m' hb
      obtain rfl := Except.ok.inj ha
      exact h.shows hm hb
    · exact absurd ha (by simp)

theorem Inv.effective_class (h : Inv cls root c) :
    (c.effective cls root).certificateClass = cls := by
  unfold effective
  cases hd : c.durable with
  | none => rfl
  | some s => exact (h.valid s hd).2.1

theorem Inv.effective_settled (h : Inv cls root c) : (c.effective cls root).Settled := by
  unfold effective
  cases hd : c.durable with
  | none => exact fun _ => rfl
  | some s => exact (h.valid s hd).2.2

/-- A proposed state follows an arrow from the effective state, and what is published
shows it. -/
theorem Proposes.advances (h : c.Unrotated root) {cmd : Command} {next : AuthoritySnapshot}
    {state : CARotationState} (hproposes : Proposes x cls c cmd state next) :
    Advances x (c.effective cls root) cmd state ∧ validateCARotationState state = .ok () ∧
      next.Shows state := by
  obtain ⟨replica, reads, m, m', current, hm, hsnapshot, hpropose⟩ := hproposes
  obtain ⟨baseline, hpermitted, hstate, hvalid, hnext⟩ := Command.propose_ok hpropose
  refine ⟨?_, hvalid, hnext⟩
  rw [hstate]
  refine Command.advances ?_ (h.shows hm hsnapshot) hpermitted
  intro d hd
  simp [effective, hd]

end ClassState

/-! ## Runs -/

open ClassState

variable {x : X509} {cls : CertificateClass} {root : Bytes} {c c' : ClassState} {reads : Reads}
variable {authority : Authority} {signer : Option Signer}
variable {allowed : ClassState → RotationAction → Prop}

/-- A valid state that a command leads to. -/
def Commits (x : X509) (s s' : CARotationState) : Prop :=
  ∃ cmd, Advances x s cmd s' ∧ validateCARotationState s' = .ok ()

/-- A step of any replica keeps the invariant. -/
theorem exec_inv (h : Inv cls root c) {a : RotationAction} (ha : a.Configured root c) :
    Inv cls root (a.exec x cls c) := by
  -- Steps that leave the durable state alone only touch one replica's memory.
  have hmemory : ∀ (replica : Nat) (m : Option Manager),
      (c.durable = none → ∀ m', m = some m' → m'.issuers.current.certificateDER = root) →
      Inv cls root (c.setManager replica m) := by
    intro replica m hm
    refine ⟨h.valid, fun hnone k m' hk => ?_⟩
    by_cases hreplica : k = replica
    · subst hreplica
      exact hm hnone m' (by simpa [setManager] using hk)
    · exact h.unrotated hnone k m' (by simpa [setManager, Function.update_of_ne hreplica] using hk)
  cases a with
  | start replica authority signer reads =>
    simp only [RotationAction.exec]
    split
    · rename_i m hstart
      refine hmemory replica (some m) fun hnone m' hm' => ?_
      rw [hnone] at hstart
      cases hstart
      obtain rfl := Option.some.inj hm'
      exact ha hnone
    · exact hmemory replica none fun _ m' hm' => absurd hm' (by simp)
  | snapshot replica reads =>
    simp only [RotationAction.exec]
    split
    · exact h
    · rename_i m hm
      split
      · rename_i a m' hr
        refine hmemory replica (some m') fun hnone m'' hm'' => ?_
        rw [← Option.some.inj hm'', (takeSnapshot_unrotated hnone).1 a hr]
        exact h.unrotated hnone replica m hm
      · rename_i e m' hr
        refine hmemory replica (some m') fun hnone m'' hm'' => ?_
        rw [← Option.some.inj hm'', (takeSnapshot_unrotated hnone).2 e hr]
        exact h.unrotated hnone replica m hm
  | command replica cmd reads outcome =>
    simp only [RotationAction.exec]
    rcases command_cases x cls c replica cmd reads outcome with
      ⟨-, ⟨hdurable, hmanagers⟩, -⟩ | ⟨state, next, hproposes, hdurable, -⟩
    · refine ⟨fun s hs => h.valid s (hdurable ▸ hs), fun hnone k m hk => ?_⟩
      rw [hdurable] at hnone
      rw [hmanagers hnone] at hk
      exact h.unrotated hnone k m hk
    · obtain ⟨hadvances, hvalid, -⟩ := hproposes.advances h.unrotated
      refine ⟨fun s hs => ?_, unrotated_of_durable hdurable root⟩
      obtain rfl : state = s := Option.some.inj (hdurable.symm.trans hs)
      exact ⟨hvalid, hadvances.certificateClass.trans h.effective_class, hadvances.settled⟩

/-- A step keeps the effective state and publishes nothing, or it is a command that
publishes a valid state to which it leads, and stores it unless it is rolled back. -/
theorem exec_cases (h : Inv cls root c) (a : RotationAction) :
    ((a.exec x cls c).effective cls root = c.effective cls root ∧
        (a.exec x cls c).published = c.published) ∨
      ∃ replica cmd reads outcome, ∃ (state : CARotationState) (next : AuthoritySnapshot),
        a = .command replica cmd reads outcome ∧
        Advances x (c.effective cls root) cmd state ∧ validateCARotationState state = .ok () ∧
        next.Shows state ∧ (a.exec x cls c).published = c.published ++ [next.publication] ∧
        ((a.exec x cls c).effective cls root = state ∨
          (∃ e, outcome = .failed true e) ∧
            (a.exec x cls c).effective cls root = c.effective cls root) := by
  cases a with
  | start replica authority signer reads =>
    simp only [RotationAction.exec]
    split <;> exact .inl ⟨rfl, rfl⟩
  | snapshot replica reads =>
    simp only [RotationAction.exec]
    split
    · exact .inl ⟨rfl, rfl⟩
    · split <;> exact .inl ⟨rfl, rfl⟩
  | command replica cmd reads outcome =>
    simp only [RotationAction.exec]
    rcases command_cases x cls c replica cmd reads outcome with
      ⟨-, ⟨hdurable, -⟩, hpublished⟩ | ⟨state, next, hproposes, hdurable, hpublished⟩
    · have hsame : (c.command x cls replica cmd reads outcome).1.effective cls root =
          c.effective cls root := by rw [effective, hdurable, effective]
      rcases hpublished with hnothing | ⟨e, state, next, hfailed, hproposes, hpublished⟩
      · exact .inl ⟨hsame, hnothing⟩
      · obtain ⟨hadvances, hvalid, hnext⟩ := hproposes.advances h.unrotated
        exact .inr ⟨replica, cmd, reads, outcome, state, next, rfl, hadvances, hvalid, hnext,
          hpublished, .inr ⟨⟨e, hfailed⟩, hsame⟩⟩
    · obtain ⟨hadvances, hvalid, hnext⟩ := hproposes.advances h.unrotated
      exact .inr ⟨replica, cmd, reads, outcome, state, next, rfl, hadvances, hvalid, hnext,
        hpublished, .inl (effective_of_durable hdurable)⟩

/-- A run keeps the invariant, and its states follow each other by commands. -/
theorem RotatesUnder.commits (hrun : RotatesUnder allowed x cls root c c') (h : Inv cls root c) :
    Inv cls root c' ∧
      Relation.ReflTransGen (Commits x) (c.effective cls root) (c'.effective cls root) := by
  induction hrun with
  | refl => exact ⟨h, .refl⟩
  | @step c' a _ _ hconfigured ih =>
    refine ⟨exec_inv ih.1 hconfigured, ?_⟩
    rcases exec_cases (x := x) ih.1 a with
      ⟨hsame, -⟩ | ⟨-, cmd, -, -, state, -, -, hadvances, hvalid, -, -, hstored | ⟨-, hsame⟩⟩
    · exact hsame ▸ ih.2
    · rw [hstored]
      exact ih.2.tail ⟨cmd, hadvances, hvalid⟩
    · exact hsame ▸ ih.2

/-! ## Aborted rotations -/

/-- What a server started on a durable state serves: its issuing authority and the
desired roots. -/
def restored (x : X509) (cls : CertificateClass) (reads : Reads) (authority : Authority)
    (successorSigner : Option Signer) (durable : Option CARotationState) :
    Except String (Authority × List Bytes) :=
  match startManager x reads.now authority successorSigner durable with
  | .error e _ => .error e
  | .ok _ m =>
    match (takeSnapshot x cls reads durable).run m with
    | .error e _ => .error e
    | .ok a m' => .ok (m'.issuers.current, a.desiredRootDER)

/-- The states differ in generation and revision only, and a server restarted on
either, configured as before, restores the same issuing authority and roots. -/
structure Neutral (x : X509) (cls : CertificateClass) (root : Bytes) (c c' : ClassState) :
    Prop where
  state : ∃ generation revision, c'.effective cls root =
    { c.effective cls root with generation, revision }
  restart : ∀ reads authority successorSigner,
    (c.durable = none → authority.certificateDER = root) →
      restored x cls reads authority successorSigner c'.durable =
        restored x cls reads authority successorSigner c.durable

/-- A command that succeeds stores a state that follows an arrow. -/
theorem ClassState.command_ok (h : c.Unrotated root) {replica : Nat} {outcome : CommitOutcome}
    (hcommand : c.command x cls replica cmd reads outcome = (c', .ok ())) :
    ∃ s, c'.durable = some s ∧ Advances x (c.effective cls root) cmd s := by
  rcases command_cases x cls c replica cmd reads outcome with
    ⟨hfailed, -⟩ | ⟨state, next, hproposes, hdurable, -⟩
  · rw [hcommand] at hfailed
    exact absurd rfl hfailed
  · rw [hcommand] at hdurable
    exact ⟨state, hdurable, (hproposes.advances h).1⟩

/-- Begin, abort and normalize change nothing of a stable state but its version and
the origin of its root. -/
theorem Advances.aborted {s s₁ s₂ s₃ : CARotationState} {successor transition : Bytes}
    {signer : Signer} (hsettled : s.Settled)
    (hbegin : Advances x s (.beginTrust successor transition signer) s₁)
    (habort : Advances x s₁ .abort s₂) (hnormalize : Advances x s₂ .normalize s₃) :
    ∃ generation revision,
      s₃ = { s with generation, revision, currentFromSuccessor := false } := by
  cases hbegin with
  | beginTrust hphase hsuccessor =>
    cases habort with
    | abort =>
      cases hnormalize with
      | completed hretire => exact absurd hretire (by simp)
      | withdrawn =>
        have hs := hsettled hphase
        exact ⟨s.generation + 1, 1 + 1, (congrArg
          ({ · with
            generation := s.generation + 1
            revision := 1 + 1
            currentFromSuccessor := false }) hs).symm⟩

/-- A restart does not look at generation and revision. -/
theorem restored_version {s : CARotationState} {generation revision : UInt64} :
    restored x cls reads authority signer (some { s with generation, revision }) =
      restored x cls reads authority signer (some s) := by
  have hrestore : Manager.restoreAuthorities x reads.now { s with generation, revision } =
      Manager.restoreAuthorities x reads.now s := rfl
  have hsnapshot : snapshotFromState reads.latestCRL { s with generation, revision } =
      (snapshotFromState reads.latestCRL s).map ({ · with generation, revision }) := by
    have hshown : CARotationState.snapshot { s with generation, revision } =
        { s.snapshot with generation, revision } := rfl
    unfold snapshotFromState
    rw [hshown]
    cases hissuer : s.snapshot.requiredCRLIssuerFingerprint with
    | none => simp [Except.map, hissuer]
    | some fingerprint =>
      cases hlatest : reads.latestCRL s.certificateClass fingerprint <;>
        simp [Except.map, hlatest]
  simp only [restored, startManager, takeSnapshot, EStateM.run, hrestore, hsnapshot]
  cases Manager.restoreAuthorities x reads.now s ⟨.new authority, signer⟩ with
  | error e m => rfl
  | ok _ m =>
    simp only
    cases Manager.restoreAuthorities x reads.now s m with
    | error e m' => rfl
    | ok _ m' => cases snapshotFromState reads.latestCRL s <;> rfl

/-- A server that starts on the configured root restores nothing but that root. -/
theorem restoreAuthorities_initial {now : Int} :
    (Manager.restoreAuthorities x now (.initial cls authority.certificateDER)).run
        { issuers := .new authority, successorSigner := signer } =
      .ok () { issuers := .new authority, successorSigner := signer } := by
  have hinstalled : (Issuers.new authority).installed (sha256 authority.certificateDER) =
      some authority := by simp [Issuers.new]
  have hselect : (Issuers.new authority).selectAuthority cls (sha256 authority.certificateDER) =
      .ok (.new authority) := by
    unfold Issuers.selectAuthority
    rw [hinstalled]
    rfl
  simp [Manager.restoreAuthorities, Manager.restoreCurrent, Manager.restoreSuccessor,
    Manager.restoreDiscarded, Manager.selectAuthority, CARotationState.initial,
    CARotationState.issuingRootDER, hinstalled, hselect]

/-- The first rotation starts from the configured root. -/
theorem restored_initial :
    restored x cls reads authority signer (some (.initial cls authority.certificateDER)) =
      restored x cls reads authority signer none := by
  have hrestore : Manager.restoreAuthorities x reads.now
      (.initial cls authority.certificateDER) ⟨.new authority, signer⟩ =
      .ok () ⟨.new authority, signer⟩ := restoreAuthorities_initial
  simp only [restored, startManager, takeSnapshot, EStateM.run, hrestore]
  rfl

/-- After a class has begun to trust a successor from its stable state, aborted and
normalized, it is as before exactly when its root was not a successor's. -/
theorem aborted_rotation_neutral_iff (x : X509) (cls : CertificateClass) (root : Bytes)
    (c c₁ c₁' c₂ c₂' c₃ : ClassState) (hreached : Rotates x cls root .init c)
    (successor transition : Bytes) (signer : Signer) (replica₁ replica₂ replica₃ : Nat)
    (reads₁ reads₂ reads₃ : Reads) (outcome₁ outcome₂ outcome₃ : CommitOutcome)
    (hbegin : c.command x cls replica₁ (.beginTrust successor transition signer) reads₁ outcome₁ =
      (c₁, .ok ()))
    (hwait₁ : c₁'.durable = c₁.durable)
    (habort : c₁'.command x cls replica₂ .abort reads₂ outcome₂ = (c₂, .ok ()))
    (hwait₂ : c₂'.durable = c₂.durable)
    (hnormalize : c₂'.command x cls replica₃ .normalize reads₃ outcome₃ = (c₃, .ok ())) :
    Neutral x cls root c c₃ ↔ (c.effective cls root).currentFromSuccessor = false := by
  have hinv := (hreached.commits inv_init).1
  obtain ⟨s₁, hs₁, hadvances₁⟩ := command_ok hinv.unrotated hbegin
  rw [hs₁] at hwait₁
  obtain ⟨s₂, hs₂, hadvances₂⟩ := command_ok (unrotated_of_durable hwait₁ root) habort
  rw [hs₂] at hwait₂
  obtain ⟨s₃, hs₃, hadvances₃⟩ := command_ok (unrotated_of_durable hwait₂ root) hnormalize
  rw [effective_of_durable hwait₁] at hadvances₂
  rw [effective_of_durable hwait₂] at hadvances₃
  obtain ⟨generation, revision, hfinal⟩ :=
    hadvances₁.aborted hinv.effective_settled hadvances₂ hadvances₃
  constructor
  · intro hneutral
    obtain ⟨g, r, hstate⟩ := hneutral.state
    rw [effective_of_durable hs₃, hfinal] at hstate
    exact (congrArg CARotationState.currentFromSuccessor hstate).symm
  · intro hconfigured
    have hsame : s₃ = { c.effective cls root with generation, revision } := by
      rw [hfinal, ← hconfigured]
    refine ⟨⟨generation, revision, (effective_of_durable hs₃).trans hsame⟩, ?_⟩
    intro reads authority successorSigner hroot
    rw [hs₃, hsame, restored_version]
    cases hd : c.durable with
    | none =>
      obtain rfl := hroot hd
      rw [show c.effective cls authority.certificateDER = .initial cls authority.certificateDER by
        simp [effective, hd]]
      exact restored_initial
    | some s => rw [effective_of_durable hd]

end replicas

attribute [local instance] Sha256.verbatim

/-- Every gate is open and every issuer has published one revocation list. -/
def sampleReads : Reads where
  now := 5
  latestCRL := fun _ _ => .ok 1
  requireConsumerConfirmations := fun _ => .ok ()
  requireLeafMigration := fun _ => .ok ()

/-- One replica runs with the root and the successor signer of its configuration. -/
def sampleRunning : ClassState :=
  (RotationAction.start 0 { certificateDER := [1], signer := sampleSigner 1 }
    (some (sampleSigner 2)) sampleReads).exec sampleX509 .agent .init

/-- The same replica after a command. -/
def sampleCommand (cmd : Command) (c : ClassState) : ClassState :=
  (RotationAction.command 0 cmd sampleReads .committed).exec sampleX509 .agent c

theorem sampleRunning_reached : Rotates sampleX509 .agent [1] .init sampleRunning :=
  .step .refl trivial fun _ => rfl

theorem sampleCommand_rotates {c c' : ClassState} (cmd : Command)
    (h : Rotates sampleX509 .agent [1] c c') :
    Rotates sampleX509 .agent [1] c (sampleCommand cmd c') :=
  h.step (a := .command 0 cmd sampleReads .committed) trivial trivial

/-- The replica after it began to trust a successor. -/
def sampleTrusting : ClassState :=
  sampleCommand (.beginTrust [2] [1, 2] (sampleSigner 2)) sampleRunning

/-- The replica after a completed rotation. -/
def sampleRotated : ClassState :=
  sampleCommand .normalize (sampleCommand .retire (sampleCommand .migrate sampleTrusting))

theorem sampleRotated_reached : Rotates sampleX509 .agent [1] .init sampleRotated :=
  sampleCommand_rotates _ (sampleCommand_rotates _ (sampleCommand_rotates _
    (sampleCommand_rotates _ sampleRunning_reached)))

/-- Before the withdrawn rotation the configured server starts, afterwards it does not. -/
theorem aborted_rotation_restart_refused :
    ∃ c c₁ c₂ c₃ : ClassState, Rotates sampleX509 .agent [1] .init c ∧
      c.command sampleX509 .agent 0 (.beginTrust [3] [2, 3] (sampleSigner 3)) sampleReads
        .committed = (c₁, .ok ()) ∧
      c₁.command sampleX509 .agent 0 .abort sampleReads .committed = (c₂, .ok ()) ∧
      c₂.command sampleX509 .agent 0 .normalize sampleReads .committed = (c₃, .ok ()) ∧
      restored sampleX509 .agent sampleReads ⟨[1], sampleSigner 1⟩ (some (sampleSigner 2))
        c.durable = .ok (⟨[2], sampleSigner 2⟩, [[2]]) ∧
      restored sampleX509 .agent sampleReads ⟨[1], sampleSigner 1⟩ (some (sampleSigner 2))
        c₃.durable =
          .error "pki: configured agent current authority does not match durable state" :=
  ⟨sampleRotated, _, _, _, sampleRotated_reached, rfl, rfl, rfl, rfl, rfl⟩

theorem aborted_rotation_neutral_iff_unrotated :
    Neutral sampleX509 .agent [1] sampleRunning
      (sampleCommand .normalize (sampleCommand .abort sampleTrusting)) :=
  (aborted_rotation_neutral_iff sampleX509 .agent [1] sampleRunning sampleTrusting sampleTrusting
    (sampleCommand .abort sampleTrusting) (sampleCommand .abort sampleTrusting)
    (sampleCommand .normalize (sampleCommand .abort sampleTrusting)) sampleRunning_reached
    [2] [1, 2] (sampleSigner 2) 0 0 0 sampleReads sampleReads sampleReads .committed .committed
    .committed rfl rfl rfl rfl rfl).mpr rfl

end PowerManage.Pki
