import Mathlib.Logic.Function.Basic
import PowerManage.Concurrent.Mailbox
import PowerManage.Pki.Certificates

/-!
# Distribution of revocation lists

The distributor keeps the newest revocation list of every issuer and pushes
changes to its subscriptions.  A subscription is a mailbox whose carrier is a
goroutine of its own: it takes a pending list, offers it on a channel with one
slot, and on a wake or flush signal puts back what it holds and what is still in
the slot.

The machine of this module interleaves any number of `Publish` and
`Subscribe` calls, the carriers and the consumers.  Its steps are the sections
under a lock and the single channel operations.  What the durable source answers
is an input of each call.

Main results:

- `Inv.next`: the steps that `InOrder` admits keep every mailbox in
  order and owe every subscription what the distributor holds.
- `crl_push_order`: in runs of such steps a consumer is given increasing
  sequences and ends on the newest list.
-/

namespace PowerManage.Control

open List Concurrent Pki

/-! ## Signed lists -/

structure CRLSource where
  streamType : String
  streamID : String
  streamVersion : Int
  deriving DecidableEq, Repr

/-- `store.SignedCRL`.  The issuer's digest is the number that its bytes spell,
and zero for none; a missing time or source is the zero value. -/
structure SignedCRL where
  cls : CertificateClass
  issuerFingerprint : Nat
  sequence : Int
  der : Bytes
  issuedAt : Option Int
  source : Option CRLSource
  deriving DecidableEq, Repr

/-- What `x509.ParseRevocationList` gives of a list. -/
structure RevocationList where
  number : Option Int
  thisUpdate : Int
  deriving DecidableEq, Repr

def signedCRLKey (state : SignedCRL) : CertificateClass × Nat :=
  (state.cls, state.issuerFingerprint)

/-- One list per class and issuer. -/
abbrev Lists : Type := Keyed signedCRLKey

def validateSignedCRL (parse : Bytes → Option RevocationList) (state : SignedCRL) :
    Except String SignedCRL :=
  if state.sequence ≤ 0 ∨ state.der = [] ∨ state.issuedAt = none then
    .error "control: signed CRL state is incomplete"
  else if state.source.any fun source =>
      source.streamType == "" || source.streamID == "" || source.streamVersion ≤ 0 then
    .error "control: signed CRL source event is invalid"
  else
    match parse state.der with
    | none => .error "control: signed CRL DER is invalid"
    | some list =>
      if list.number ≠ some state.sequence then
        .error "control: signed CRL number does not match durable sequence"
      else if some list.thisUpdate ≠ state.issuedAt then
        .error "control: signed CRL issued-at does not match durable state"
      else .ok state

/-- The checks of `Publish` before its lock, given what the source answers. -/
def checkPublication (parse : Bytes → Option RevocationList) (state : SignedCRL)
    (durable : Except String SignedCRL) : Except String SignedCRL := do
  let issuerScoped : Bool := state.issuerFingerprint ≠ 0
  let state ← (validateSignedCRL parse state).mapError fun reason =>
    if issuerScoped then "control: invalid issuer-scoped CRL: " ++ reason else reason
  let durable ← durable.mapError ("control: read durable CRL before publication: " ++ ·)
  if durable.sequence = 0 then
    .error (if issuerScoped then "control: class or issuer has no durable CRL publication"
      else "control: class has no durable CRL publication")
  else do
    let durable ← validateSignedCRL parse durable
    if durable = state then .ok state
    else if !issuerScoped then .error "control: CRL publication differs from durable state"
    else if state.sequence < durable.sequence then
      .error "control: stale issuer CRL publication"
    else if state.sequence = durable.sequence then
      .error "control: issuer CRL publication fork differs from durable state"
    else .error "control: issuer CRL publication is not durable"

/-! ## Subscriptions -/

/-- Where the carrier of a subscription is in `runSubscription`; the number is
the call that waits for the flush to be acknowledged. -/
inductive Phase where
  | taking
  | selecting
  | requeuing (flushed : Option Nat)
  | reclaiming (flushed : Option Nat)
  | requeuingReclaimed (flushed : Option Nat)
  | acknowledging (call : Nat)
  | unregistering
  | closing
  | closed
  deriving DecidableEq, Repr

/-- `crlSubscription`, its carrier and its consumer. -/
structure Subscription where
  cls : CertificateClass
  mailbox : Mailbox signedCRLKey
  wake : Bool
  done : Bool
  registered : Bool
  phase : Phase

def mergeLocked (state : SignedCRL) (m : Mailbox signedCRLKey) : Mailbox signedCRLKey :=
  m.merge SignedCRL.sequence state

/-- The lists sorted by issuer. -/
def byIssuer (states : List SignedCRL) : List SignedCRL :=
  states.mergeSort fun first second => first.issuerFingerprint ≤ second.issuerFingerprint

/-- The carrier after a signal: first back goes what it holds. -/
def signalled (flushed : Option Nat) (m : Mailbox signedCRLKey) : Phase :=
  if m.held.isSome then .requeuing flushed else .reclaiming flushed

/-- The carrier after it has reclaimed. -/
def reclaimed : Option Nat → Phase
  | none => .taking
  | some call => .acknowledging call

/-- The steps that a carrier and a consumer take on their own. -/
inductive LocalAction where
  | take
  | sendUpdate
  | receiveWake
  | requeue
  | reclaimBuffered
  | stop
  | unregister
  | closeUpdates
  | receive
  | cancel
  deriving DecidableEq, Repr

/-- One such step; `none` when it is not enabled. -/
def Subscription.step (u : Subscription) : LocalAction → Option Subscription
  | .take =>
    match u.phase, (byIssuer u.mailbox.pending.entries).head? with
    | .taking, none => some { u with phase := .selecting }
    | .taking, some state =>
      some { u with mailbox := u.mailbox.take state, wake := false, phase := .selecting }
    | _, _ => none
  | .sendUpdate =>
    match u.phase, u.mailbox.held, u.mailbox.buffer with
    | .selecting, some state, none =>
      some { u with mailbox := u.mailbox.send state, phase := .taking }
    | _, _, _ => none
  | .receiveWake =>
    match u.phase, u.wake with
    | .selecting, true => some { u with wake := false, phase := signalled none u.mailbox }
    | _, _ => none
  | .requeue =>
    match u.phase, u.mailbox.held with
    | .requeuing flushed, some state =>
      some { u with
        mailbox := u.mailbox.requeue SignedCRL.sequence state
        phase := .reclaiming flushed }
    | .requeuingReclaimed flushed, some state =>
      some { u with
        mailbox := u.mailbox.requeue SignedCRL.sequence state
        phase := reclaimed flushed }
    | _, _ => none
  | .reclaimBuffered =>
    match u.phase, u.mailbox.buffer with
    | .reclaiming flushed, some state =>
      some { u with
        mailbox := u.mailbox.reclaim state
        phase := .requeuingReclaimed flushed }
    | .reclaiming flushed, none => some { u with phase := reclaimed flushed }
    | _, _ => none
  | .stop =>
    match u.phase, u.done with
    | .selecting, true => some { u with phase := .unregistering }
    | _, _ => none
  | .unregister =>
    match u.phase with
    | .unregistering => some { u with registered := false, phase := .closing }
    | _ => none
  | .closeUpdates =>
    match u.phase with
    | .closing => some { u with phase := .closed }
    | _ => none
  | .receive =>
    u.mailbox.buffer.map fun state => { u with mailbox := u.mailbox.receive state }
  | .cancel => some { u with done := true }

/-! ## Calls -/

/-- Where a `Publish` call is; the lists are the subscriptions left to serve. -/
inductive CallPhase where
  | locking
  | fanning (left : List Nat)
  | waking (subscription : Nat) (left : List Nat)
  | flushing (subscription : Nat) (left : List Nat)
  | awaiting (subscription : Nat) (left : List Nat) (acknowledged : Bool)
  | returned (result : Except String Unit)

/-- A `Publish` call. -/
structure Call where
  state : SignedCRL
  cancelled : Bool
  phase : CallPhase

/-- `CRLDistributor`, its subscriptions and the calls made so far. -/
structure Distributor where
  latest : Lists
  opened : Nat
  subscriptions : Nat → Option Subscription
  called : Nat
  calls : Nat → Option Call

/-- A new distributor. -/
def Distributor.init : Distributor where
  latest := Keyed.empty
  opened := 0
  subscriptions _ := none
  called := 0
  calls _ := none

/-- The registered subscriptions of a class. -/
def Distributor.subscribers (s : Distributor) (cls : CertificateClass) : List Nat :=
  (range s.opened).filter fun i =>
    (s.subscriptions i).any fun u => u.registered && u.cls == cls

def Distributor.setCall (s : Distributor) (c : Nat) (call : Call) : Distributor :=
  { s with calls := Function.update s.calls c (some call) }

def Distributor.setSubscription (s : Distributor) (i : Nat) (u : Subscription) : Distributor :=
  { s with subscriptions := Function.update s.subscriptions i (some u) }

/-- A call begins. -/
def Distributor.addCall (s : Distributor) (call : Call) : Distributor :=
  { s.setCall s.called call with called := s.called + 1 }

/-- The locked section of `Publish`. -/
def publishLocked (s : Distributor) (c : Nat) (call : Call) : Distributor :=
  let fanOut :=
    { s.setCall c { call with phase := .fanning (s.subscribers call.state.cls) } with
      latest := s.latest.insert call.state }
  match s.latest.find (signedCRLKey call.state) with
  | none => fanOut
  | some current =>
    if call.state = current then s.setCall c { call with phase := .returned (.ok ()) }
    else if call.state.sequence ≤ current.sequence then
      s.setCall c { call with phase := .returned (.error
        ((if call.state.issuerFingerprint = 0 then "control: CRL sequence "
          else "control: stale issuer CRL sequence ") ++ toString call.state.sequence ++
          " is not newer than " ++ toString current.sequence)) }
    else fanOut

/-- The locked section of `Subscribe` up to its reading of the held lists.  What
it has held by the time it finds a fork stays held. -/
def holdCurrent : List SignedCRL → Lists → Lists × Except String Unit
  | [], latest => (latest, .ok ())
  | state :: rest, latest =>
    match latest.find (signedCRLKey state) with
    | none => holdCurrent rest (latest.insert state)
    | some held =>
      if state.sequence < held.sequence then holdCurrent rest latest
      else if held.sequence = state.sequence then
        if held = state then holdCurrent rest latest
        else
          (latest, .error
            (if state.issuerFingerprint = 0 then
              "control: durable CRL changed without advancing its sequence"
            else "control: durable issuer CRL forked without advancing its sequence"))
      else holdCurrent rest (latest.insert state)

def currentClassStateLocked (latest : Lists) (cls : CertificateClass) : List SignedCRL :=
  byIssuer (latest.entries.filter fun state => state.cls == cls)

/-- A subscription that starts with the given lists. -/
def newSubscription (cls : CertificateClass) (current : List SignedCRL) : Subscription where
  cls := cls
  mailbox := current.foldl (fun m state => mergeLocked state m) Mailbox.empty
  wake := !current.isEmpty
  done := false
  registered := true
  phase := .taking

/-- `Subscribe`, given what the source answers; a failed one may have changed
what is held. -/
def subscribe (parse : Bytes → Option RevocationList) (s : Distributor)
    (cls : CertificateClass) (current : List SignedCRL) : Distributor :=
  match current.mapM (validateSignedCRL parse) with
  | .error _ => s
  | .ok current =>
    match holdCurrent current s.latest with
    | (latest, .error _) => { s with latest }
    | (latest, .ok _) =>
      { s.setSubscription s.opened
          (newSubscription cls (currentClassStateLocked latest cls)) with
        latest := latest
        opened := s.opened + 1 }

/-! ## The machine -/

inductive Action where
  | publish (state : SignedCRL) (durable : Except String SignedCRL)
  | lock (call : Nat)
  | enqueue (call subscription : Nat)
  | wake (call : Nat)
  | flush (call : Nat)
  | acknowledge (subscription : Nat)
  | acknowledged (call : Nat)
  | giveUp (call : Nat)
  | finish (call : Nat)
  | cancelCall (call : Nat)
  | subscribe (cls : CertificateClass) (current : List SignedCRL)
  | run (subscription : Nat) (action : LocalAction)

/-- One step of the machine; `none` when the action is not enabled. -/
def next (parse : Bytes → Option RevocationList) (s : Distributor) : Action → Option Distributor
  | .publish state durable =>
    match checkPublication parse state durable with
    | .error reason => some (s.addCall ⟨state, false, .returned (.error reason)⟩)
    | .ok state => some (s.addCall ⟨state, false, .locking⟩)
  | .lock c =>
    match s.calls c with
    | some ⟨state, cancelled, .locking⟩ => some (publishLocked s c ⟨state, cancelled, .locking⟩)
    | _ => none
  | .enqueue c i =>
    match s.calls c, s.subscriptions i with
    | some ⟨state, cancelled, .fanning left⟩, some u =>
      if i ∈ left then
        some ((s.setSubscription i { u with mailbox := mergeLocked state u.mailbox }).setCall c
          ⟨state, cancelled, .waking i (left.erase i)⟩)
      else none
    | _, _ => none
  | .wake c =>
    match s.calls c with
    | some ⟨state, cancelled, .waking i left⟩ =>
      (s.subscriptions i).map fun u =>
        (s.setSubscription i { u with wake := true }).setCall c
          ⟨state, cancelled, .flushing i left⟩
    | _ => none
  | .flush c =>
    match s.calls c with
    | some ⟨state, cancelled, .flushing i left⟩ =>
      match s.subscriptions i with
      | some u =>
        if u.phase = .selecting then
          some ((s.setSubscription i
            { u with phase := signalled (some c) u.mailbox }).setCall c
              ⟨state, cancelled, .awaiting i left false⟩)
        else none
      | none => none
    | _ => none
  | .acknowledge i =>
    match s.subscriptions i with
    | some u =>
      match u.phase with
      | .acknowledging c =>
        let s' := s.setSubscription i { u with phase := .taking }
        match s.calls c with
        | some ⟨state, cancelled, .awaiting j left _⟩ =>
          if j = i then some (s'.setCall c ⟨state, cancelled, .awaiting j left true⟩)
          else some s'
        -- The call has given up.
        | _ => some s'
      | _ => none
    | none => none
  | .acknowledged c =>
    match s.calls c with
    | some ⟨state, cancelled, .awaiting _ left true⟩ =>
      some (s.setCall c ⟨state, cancelled, .fanning left⟩)
    | _ => none
  | .giveUp c =>
    match s.calls c with
    | some ⟨state, cancelled, .flushing i left⟩ =>
      if cancelled || (s.subscriptions i).any (·.done) then
        some (s.setCall c ⟨state, cancelled, .fanning left⟩)
      else none
    | some ⟨state, cancelled, .awaiting i left _⟩ =>
      if cancelled || (s.subscriptions i).any (·.done) then
        some (s.setCall c ⟨state, cancelled, .fanning left⟩)
      else none
    | _ => none
  | .finish c =>
    match s.calls c with
    | some ⟨state, cancelled, .fanning []⟩ =>
      some (s.setCall c ⟨state, cancelled, .returned (.ok ())⟩)
    | _ => none
  | .cancelCall c => (s.calls c).map fun call => s.setCall c { call with cancelled := true }
  | .subscribe cls current => some (subscribe parse s cls current)
  | .run i action =>
    (s.subscriptions i).bind fun u => (u.step action).map (s.setSubscription i)

/-- A run of the machine. -/
def runDistributor (parse : Bytes → Option RevocationList) (s : Distributor) :
    List Action → Option Distributor
  | [] => some s
  | a :: as => (next parse s a).bind (runDistributor parse · as)

/-! ## Invariants of one subscription -/

/-- Whether the carrier holds a list, where its phase decides it. -/
def Phase.holds : Phase → Option Bool
  | taking | reclaiming _ | acknowledging _ => some false
  | requeuing _ | requeuingReclaimed _ => some true
  | _ => none

/-- The mailbox is in order and the carrier holds what its phase says. -/
structure Subscription.Good (u : Subscription) : Prop where
  ordered : u.mailbox.Ordered SignedCRL.sequence
  held : ∀ b, u.phase.holds = some b → u.mailbox.held.isSome = b

/-- The carrier waits although lists are pending, and no signal is set. -/
def Subscription.Asleep (u : Subscription) : Prop :=
  u.phase = .selecting ∧ u.mailbox.held = none ∧ u.mailbox.pending.entries ≠ [] ∧ u.wake = false

/-- What every step of a carrier or consumer keeps. -/
structure Subscription.Moves (u u' : Subscription) : Prop where
  good : u'.Good
  keeps : u.mailbox.Keeps SignedCRL.sequence u'.mailbox
  cls : u'.cls = u.cls
  registered : u'.registered = true → u.registered = true
  asleep : u'.Asleep → u.Asleep

variable {u u' : Subscription}

theorem signalled_holds (flushed : Option Nat) (m : Mailbox signedCRLKey) (b : Bool)
    (h : (signalled flushed m).holds = some b) : m.held.isSome = b := by
  unfold signalled at h
  split at h
  · rename_i hsome
    exact hsome.trans (Option.some.inj h)
  · rename_i hnone
    exact (Bool.eq_false_iff.mpr hnone).trans (Option.some.inj h)

theorem signalled_ne_selecting (flushed : Option Nat) (m : Mailbox signedCRLKey) :
    signalled flushed m ≠ .selecting := by
  unfold signalled
  split <;> exact nofun

theorem reclaimed_holds (flushed : Option Nat) (b : Bool)
    (h : (reclaimed flushed).holds = some b) : b = false := by
  cases flushed <;> exact (Option.some.inj h).symm

theorem reclaimed_ne_selecting (flushed : Option Nat) : reclaimed flushed ≠ .selecting := by
  cases flushed <;> exact nofun

theorem requeue_held (state : SignedCRL) (m : Mailbox signedCRLKey) :
    (m.requeue SignedCRL.sequence state).held = none :=
  Mailbox.merge_held _ _

/-- A step that leaves the mailbox alone. -/
theorem Subscription.Good.moves_phase (h : u.Good) {wake done registered : Bool} {phase : Phase}
    (hholds : ∀ b, phase.holds = some b → u.mailbox.held.isSome = b)
    (hregistered : registered = true → u.registered = true)
    (hasleep : phase = .selecting → wake = false → u.mailbox.held = none →
      u.mailbox.pending.entries ≠ [] → u.Asleep) :
    u.Moves ⟨u.cls, u.mailbox, wake, done, registered, phase⟩ where
  good := ⟨h.ordered, hholds⟩
  keeps := Mailbox.Keeps.of_has fun _ hx => hx
  cls := rfl
  registered := hregistered
  asleep hsleep := hasleep hsleep.1 hsleep.2.2.2 hsleep.2.1 hsleep.2.2.1

variable {state : SignedCRL} {c i : Nat} {call : Call} {parse : Bytes → Option RevocationList}
variable {current : List SignedCRL} {cancelled : Bool}

theorem mem_of_head?_byIssuer {states : List SignedCRL} (h : (byIssuer states).head? = some state) :
    state ∈ states :=
  mem_mergeSort.mp (mem_of_head? h)

theorem eq_nil_of_head?_byIssuer {states : List SignedCRL} (h : (byIssuer states).head? = none) :
    states = [] := by
  have hlength : (byIssuer states).length = states.length := length_mergeSort _
  rw [head?_eq_none_iff.mp h] at hlength
  exact length_eq_zero_iff.mp hlength.symm

/-- Every step of a carrier or consumer keeps the subscription good. -/
theorem Subscription.Good.step (h : u.Good) {a : LocalAction} (hstep : u.step a = some u') :
    u.Moves u' := by
  cases a <;> simp only [Subscription.step] at hstep
  case take =>
    split at hstep
    · rename_i hphase hnone
      cases hstep
      refine h.moves_phase nofun id fun _ _ _ hpending => ?_
      exact absurd (eq_nil_of_head?_byIssuer hnone) hpending
    · rename_i state hphase hsome
      cases hstep
      have hmem := mem_of_head?_byIssuer hsome
      have hheld : u.mailbox.held = none := by
        simpa using h.held false (by rw [hphase]; rfl)
      refine ⟨⟨h.ordered.take hmem hheld, nofun⟩, Mailbox.keeps_take hmem hheld, rfl, id, ?_⟩
      intro hsleep
      cases hsleep.2.1
    · cases hstep
  case sendUpdate =>
    split at hstep
    · rename_i state hphase hheld hbuffer
      cases hstep
      have htaken := Mailbox.send_taken hheld hbuffer
      refine ⟨⟨h.ordered.of_taken htaken rfl, ?_⟩, Mailbox.Keeps.of_taken htaken rfl, rfl, id, ?_⟩
      · intro b hb
        exact Option.some.inj hb
      · intro hsleep
        cases hsleep.1
    · cases hstep
  case receiveWake =>
    split at hstep
    · cases hstep
      refine h.moves_phase (signalled_holds _ _) id fun hphase => ?_
      exact absurd hphase (signalled_ne_selecting _ _)
    · cases hstep
  case requeue =>
    split at hstep
    · rename_i flushed state hphase hheld
      cases hstep
      refine ⟨⟨h.ordered.requeue hheld, ?_⟩, Mailbox.keeps_requeue hheld, rfl, id, ?_⟩
      · intro b hb
        rw [requeue_held]
        exact Option.some.inj hb
      · intro hsleep
        cases hsleep.1
    · rename_i flushed state hphase hheld
      cases hstep
      refine ⟨⟨h.ordered.requeue hheld, ?_⟩, Mailbox.keeps_requeue hheld, rfl, id, ?_⟩
      · intro b hb
        rw [requeue_held, reclaimed_holds flushed b hb]
        rfl
      · intro hsleep
        exact absurd hsleep.1 (reclaimed_ne_selecting flushed)
    · cases hstep
  case reclaimBuffered =>
    split at hstep
    · rename_i flushed state hphase hbuffer
      cases hstep
      have hheld : u.mailbox.held = none := by
        simpa using h.held false (by rw [hphase]; rfl)
      have htaken := Mailbox.reclaim_taken hbuffer hheld
      refine ⟨⟨h.ordered.of_taken htaken rfl, ?_⟩, Mailbox.Keeps.of_taken htaken rfl, rfl, id, ?_⟩
      · intro b hb
        exact Option.some.inj hb
      · intro hsleep
        cases hsleep.1
    · rename_i flushed hphase hbuffer
      cases hstep
      refine h.moves_phase ?_ id fun hselecting => ?_
      · intro b hb
        rw [h.held false (by rw [hphase]; rfl), reclaimed_holds flushed b hb]
      · exact absurd hselecting (reclaimed_ne_selecting flushed)
    · cases hstep
  case stop =>
    split at hstep
    · cases hstep
      exact h.moves_phase nofun id nofun
    · cases hstep
  case unregister =>
    split at hstep
    · cases hstep
      exact h.moves_phase nofun nofun nofun
    · cases hstep
  case closeUpdates =>
    split at hstep
    · cases hstep
      exact h.moves_phase nofun id nofun
    · cases hstep
  case receive =>
    simp at hstep
    obtain ⟨state, hbuffer, rfl⟩ := hstep
    have htaken := Mailbox.receive_taken hbuffer
    exact ⟨⟨h.ordered.of_taken htaken rfl, h.held⟩, Mailbox.Keeps.of_taken htaken rfl, rfl, id, id⟩
  case cancel =>
    simp at hstep
    subst hstep
    exact h.moves_phase h.held id fun hphase hwake hheld hpending =>
      ⟨hphase, hheld, hpending, hwake⟩

/-! ## Invariants of the machine -/

/-- The mailbox has as new a list of the same issuer. -/
def Covers (m : Mailbox signedCRLKey) (state : SignedCRL) : Prop :=
  ∃ y, m.Has y ∧ signedCRLKey y = signedCRLKey state ∧ state.sequence ≤ y.sequence

theorem Covers.keeps {m m' : Mailbox signedCRLKey} (h : Covers m state)
    (hkeeps : m.Keeps SignedCRL.sequence m') : Covers m' state := by
  obtain ⟨y, hy, hkey, hle⟩ := h
  obtain ⟨z, hz, hkey', hle'⟩ := hkeeps y hy
  exact ⟨z, hz, hkey'.trans hkey, Int.le_trans hle hle'⟩

/-- The subscriptions that a call has still to serve. -/
def CallPhase.left : CallPhase → List Nat
  | fanning left | waking _ left | flushing _ left | awaiting _ left _ => left
  | _ => []

/-- The subscription whose carrier a call is about to wake. -/
def CallPhase.wakes : CallPhase → Option Nat
  | waking i _ => some i
  | _ => none

/-- The call has published its list, or is about to report that. -/
def CallPhase.Passed : CallPhase → Prop
  | fanning _ | waking _ _ | flushing _ _ | awaiting _ _ _ | returned (.ok _) => True
  | _ => False

/-- What holds in every state of a run in order. -/
structure Inv (s : Distributor) : Prop where
  good : ∀ i u, s.subscriptions i = some u → u.Good
  /-- A sleeping carrier is about to be woken. -/
  awake : ∀ i u, s.subscriptions i = some u → u.Asleep →
    ∃ c call, s.calls c = some call ∧ call.phase.wakes = some i
  /-- A subscription has what is held, or a call owes it to the subscription. -/
  current : ∀ i u, s.subscriptions i = some u → u.registered = true →
    ∀ state ∈ s.latest.entries, state.cls = u.cls → Covers u.mailbox state ∨
      ∃ c call, s.calls c = some call ∧ i ∈ call.phase.left ∧
        signedCRLKey call.state = signedCRLKey state ∧ state.sequence ≤ call.state.sequence
  /-- What was published is held, or was replaced by a newer list. -/
  published : ∀ c call, s.calls c = some call → call.phase.Passed →
    ∃ state ∈ s.latest.entries, signedCRLKey state = signedCRLKey call.state ∧
      call.state.sequence ≤ state.sequence
  freshSubscriptions : ∀ i, s.opened ≤ i → s.subscriptions i = none
  freshCalls : ∀ c, s.called ≤ c → s.calls c = none

variable {s s' : Distributor}

theorem inv_init : Inv Distributor.init where
  good _ _ h := by cases h
  awake _ _ h := by cases h
  current _ _ h := by cases h
  published _ _ h := by cases h
  freshSubscriptions _ _ := rfl
  freshCalls _ _ := rfl

theorem setSubscription_eq_some {j : Nat} {v : Subscription} :
    (s.setSubscription i u).subscriptions j = some v ↔
      (j = i ∧ v = u) ∨ (j ≠ i ∧ s.subscriptions j = some v) := by
  by_cases h : j = i
  · subst h
    simp [Distributor.setSubscription, eq_comm]
  · simp [Distributor.setSubscription, h]

variable {call' : Call}

theorem setCall_eq_some {c' : Nat} :
    (s.setCall c call).calls c' = some call' ↔
      (c' = c ∧ call' = call) ∨ (c' ≠ c ∧ s.calls c' = some call') := by
  by_cases h : c' = c
  · subst h
    simp [Distributor.setCall, eq_comm]
  · simp [Distributor.setCall, h]

/-- A call that does something still stands for it when another call is set, or one that
does it too. -/
theorem exists_setCall {p : Call → Prop} (h : ∃ c' other, s.calls c' = some other ∧ p other)
    (hp : ∀ old, s.calls c = some old → p old → p call) :
    ∃ c' other, (s.setCall c call).calls c' = some other ∧ p other := by
  obtain ⟨c', other, hc', hother⟩ := h
  by_cases hsame : c' = c
  · subst hsame
    exact ⟨c', call, setCall_eq_some.mpr (.inl ⟨rfl, rfl⟩), hp other hc' hother⟩
  · exact ⟨c', other, setCall_eq_some.mpr (.inr ⟨hsame, hc'⟩), hother⟩

theorem Inv.fresh_setCall (h : Inv s) (hc : s.calls c = some call) :
    ∀ c', s.called ≤ c' → (s.setCall c call').calls c' = none := by
  intro c' hc'
  have hne : c' ≠ c := by
    rintro rfl
    rw [h.freshCalls c' hc'] at hc
    cases hc
  simpa [Distributor.setCall, hne] using h.freshCalls c' hc'

theorem Inv.fresh_setSubscription (h : Inv s) (hi : s.subscriptions i = some u) :
    ∀ j, s.opened ≤ j → (s.setSubscription i u').subscriptions j = none := by
  intro j hj
  have hne : j ≠ i := by
    rintro rfl
    rw [h.freshSubscriptions j hj] at hi
    cases hi
  simpa [Distributor.setSubscription, hne] using h.freshSubscriptions j hj

theorem Inv.setSubscription (h : Inv s) (hi : s.subscriptions i = some u) (hmoves : u.Moves u') :
    Inv (s.setSubscription i u') where
  good := by
    intro j v hv
    rcases setSubscription_eq_some.mp hv with ⟨rfl, rfl⟩ | ⟨-, hv⟩
    · exact hmoves.good
    · exact h.good j v hv
  awake := by
    intro j v hv hsleep
    rcases setSubscription_eq_some.mp hv with ⟨rfl, rfl⟩ | ⟨-, hv⟩
    · exact h.awake j u hi (hmoves.asleep hsleep)
    · exact h.awake j v hv hsleep
  current := by
    intro j v hv hregistered state hstate hcls
    rcases setSubscription_eq_some.mp hv with ⟨rfl, rfl⟩ | ⟨-, hv⟩
    · exact (h.current j u hi (hmoves.registered hregistered) state hstate
        (hcls.trans hmoves.cls)).imp_left fun hcovers => hcovers.keeps hmoves.keeps
    · exact h.current j v hv hregistered state hstate hcls
  published := h.published
  freshSubscriptions := h.fresh_setSubscription hi
  freshCalls := h.freshCalls

/-- A step of one call that serves no subscription. -/
theorem Inv.setCall (h : Inv s) (hc : s.calls c = some call) (hstate : call'.state = call.state)
    (hleft : call'.phase.left = call.phase.left)
    (hpassed : call'.phase.Passed → call.phase.Passed ∨ ∃ state ∈ s.latest.entries,
      signedCRLKey state = signedCRLKey call.state ∧ call.state.sequence ≤ state.sequence)
    (hwaking : ∀ i u, call.phase.wakes = some i → s.subscriptions i = some u → u.Asleep →
      call'.phase.wakes = some i) : Inv (s.setCall c call') where
  good := h.good
  awake := by
    intro i u hu hsleep
    refine exists_setCall (h.awake i u hu hsleep) fun old hold hwakes => ?_
    cases hc.symm.trans hold
    exact hwaking i u hwakes hu hsleep
  current := by
    intro i u hu hregistered state hmem hcls
    refine (h.current i u hu hregistered state hmem hcls).imp_right fun howing =>
      exists_setCall howing fun old hold hi => ?_
    cases hc.symm.trans hold
    rwa [hleft, hstate]
  published := by
    intro c' passed hc' hphase
    rcases setCall_eq_some.mp hc' with ⟨rfl, rfl⟩ | ⟨-, hc'⟩
    · rw [hstate]
      exact (hpassed hphase).elim (h.published c' call hc) id
    · exact h.published c' passed hc' hphase
  freshSubscriptions := h.freshSubscriptions
  freshCalls := h.fresh_setCall hc

/-- A call that has not published begins. -/
theorem Inv.addCall (h : Inv s) (hpassed : ¬ call.phase.Passed) :
    Inv (s.addCall call) where
  good := h.good
  awake := by
    intro i u hu hsleep
    refine exists_setCall (h.awake i u hu hsleep) fun old hold => ?_
    rw [h.freshCalls _ (Nat.le_refl _)] at hold
    cases hold
  current := by
    intro i u hu hregistered state hmem hcls
    refine (h.current i u hu hregistered state hmem hcls).imp_right fun howing =>
      exists_setCall howing fun old hold => ?_
    rw [h.freshCalls _ (Nat.le_refl _)] at hold
    cases hold
  published := by
    intro c passed hc hphase
    rcases setCall_eq_some.mp hc with ⟨rfl, rfl⟩ | ⟨-, hc⟩
    · exact absurd hphase hpassed
    · exact h.published c passed hc hphase
  freshSubscriptions := h.freshSubscriptions
  freshCalls := by
    intro c hc
    have hlt : s.called < c := hc
    have hne : c ≠ s.called := Nat.ne_of_gt hlt
    simpa [Distributor.addCall, Distributor.setCall, hne] using h.freshCalls c (Nat.le_of_lt hlt)

/-! ## Steps in order -/

/-- The condition on a step.  A list is enqueued on a subscription while another of
its issuer is pending there, or after older ones only; and a `Subscribe` that finds
a list newer than the held one finds no subscription of its class. -/
def InOrder (s : Distributor) : Action → Prop
  | .enqueue c i =>
    match s.calls c, s.subscriptions i with
    | some call, some u =>
      (∃ y ∈ u.mailbox.pending.entries, signedCRLKey y = signedCRLKey call.state) ∨
        ∀ y ∈ u.mailbox.taken, signedCRLKey y = signedCRLKey call.state →
          y.sequence < call.state.sequence
    | _, _ => True
  | .subscribe _ current => ∀ state ∈ current,
      (s.latest.find (signedCRLKey state)).all (fun held => held.sequence < state.sequence) →
        s.subscribers state.cls = []
  | _ => True

instance (s : Distributor) (a : Action) : Decidable (InOrder s a) := by
  unfold InOrder
  split
  · split <;> infer_instance
  · infer_instance
  · infer_instance

theorem mem_subscribers (h : Inv s) (hi : s.subscriptions i = some u)
    (hregistered : u.registered = true) : i ∈ s.subscribers u.cls := by
  have hlt : i < s.opened := by
    by_contra hle
    rw [h.freshSubscriptions i (Nat.not_lt.mp hle)] at hi
    cases hi
  simp [Distributor.subscribers, hlt, hi, hregistered]

/-- A call publishes its list and owes it to every subscription of the class. -/
theorem Inv.fanOut (h : Inv s) (hc : s.calls c = some call) (hphase : call.phase = .locking)
    (hnewer : ∀ current ∈ s.latest.entries, signedCRLKey current = signedCRLKey call.state →
      current.sequence < call.state.sequence) :
    Inv { s.setCall c { call with phase := .fanning (s.subscribers call.state.cls) } with
      latest := s.latest.insert call.state } where
  good := h.good
  awake := by
    intro i u hu hsleep
    refine exists_setCall (h.awake i u hu hsleep) fun old hold hwaking => ?_
    cases hc.symm.trans hold
    rw [hphase] at hwaking
    cases hwaking
  current := by
    intro i u hu hregistered state hmem hcls
    rcases Keyed.mem_insert.mp hmem with rfl | ⟨hmem, -⟩
    · refine .inr ⟨c, _, setCall_eq_some.mpr (.inl ⟨rfl, rfl⟩), ?_, rfl, Int.le_refl _⟩
      have hsubscribed := mem_subscribers h hu hregistered
      rwa [← hcls] at hsubscribed
    · refine (h.current i u hu hregistered state hmem hcls).imp_right fun howing =>
        exists_setCall howing fun old hold hi => ?_
      cases hc.symm.trans hold
      rw [hphase] at hi
      cases hi.1
  published := by
    intro c' passed hc' hpassed
    rcases setCall_eq_some.mp hc' with ⟨rfl, rfl⟩ | ⟨-, hc'⟩
    · exact ⟨call.state, Keyed.mem_insert.mpr (.inl rfl), rfl, Int.le_refl _⟩
    · obtain ⟨state, hmem, hkey, hle⟩ := h.published c' passed hc' hpassed
      by_cases hsame : signedCRLKey state = signedCRLKey call.state
      · exact ⟨call.state, Keyed.mem_insert.mpr (.inl rfl), hsame.symm.trans hkey,
          Int.le_trans hle (Int.le_of_lt (hnewer state hmem hsame))⟩
      · exact ⟨state, Keyed.mem_insert.mpr (.inr ⟨hmem, hsame⟩), hkey, hle⟩
  freshSubscriptions := h.freshSubscriptions
  freshCalls := h.fresh_setCall hc

theorem Inv.lock (h : Inv s) (hc : s.calls c = some call) (hphase : call.phase = .locking) :
    Inv (publishLocked s c call) := by
  unfold publishLocked
  split
  · rename_i hnone
    refine h.fanOut hc hphase fun current hcurrent hkey => ?_
    exact absurd hkey (Keyed.find_eq_none.mp hnone current hcurrent)
  · rename_i current hsome
    obtain ⟨hcurrent, hkey⟩ := Keyed.find_eq_some.mp hsome
    have hnotWaking : ∀ {result} i u, call.phase.wakes = some i → s.subscriptions i = some u →
        u.Asleep → (CallPhase.returned result).wakes = some i := by
      intro _ i u hwakes
      rw [hphase] at hwakes
      cases hwakes
    split
    · rename_i hsame
      -- The call reports a list that is held already.
      refine h.setCall hc rfl (by rw [hphase]; rfl) (fun _ => .inr ?_) hnotWaking
      exact ⟨current, hcurrent, hkey, Int.le_of_eq (by rw [hsame])⟩
    · split
      · exact h.setCall hc rfl (by rw [hphase]; rfl) False.elim hnotWaking
      · rename_i hstale
        refine h.fanOut hc hphase fun other hother hkey' => ?_
        rw [Keyed.eq_of_mem hother hcurrent (hkey'.trans hkey.symm)]
        exact Int.not_le.mp hstale

variable {left : List Nat}

/-- A call serves one of the subscriptions that it owes its list. -/
theorem Inv.enqueue (h : Inv s) (hc : s.calls c = some call) (hphase : call.phase = .fanning left)
    (hi : s.subscriptions i = some u) (horder : InOrder s (.enqueue c i)) :
    Inv ((s.setSubscription i { u with mailbox := mergeLocked call.state u.mailbox }).setCall c
      { call with phase := .waking i (left.erase i) }) where
  good := by
    intro j v hv
    rcases setSubscription_eq_some.mp hv with ⟨rfl, rfl⟩ | ⟨-, hv⟩
    · simp only [InOrder, hc, hi] at horder
      refine ⟨(h.good j u hi).ordered.merge horder, ?_⟩
      intro b hb
      have hheld : (mergeLocked call.state u.mailbox).held = u.mailbox.held :=
        Mailbox.merge_held _ _
      rw [hheld]
      exact (h.good j u hi).held b hb
    · exact h.good j v hv
  awake := by
    intro j v hv hsleep
    rcases setSubscription_eq_some.mp hv with ⟨rfl, rfl⟩ | ⟨-, hv⟩
    · exact ⟨c, _, setCall_eq_some.mpr (.inl ⟨rfl, rfl⟩), rfl⟩
    · refine exists_setCall (h.awake j v hv hsleep) fun old hold hwaking => ?_
      cases hc.symm.trans hold
      rw [hphase] at hwaking
      cases hwaking
  current := by
    intro j v hv hregistered state hmem hcls
    rcases setSubscription_eq_some.mp hv with ⟨rfl, rfl⟩ | ⟨hne, hv⟩
    · rcases h.current j u hi hregistered state hmem hcls with hcovers |
        ⟨c', owing, hc', hj, hkey, hle⟩
      · exact .inl (hcovers.keeps (Mailbox.keeps_merge _ _ _))
      · by_cases hsame : c' = c
        · -- The list just enqueued is the one that was owed.
          subst hsame
          cases hc.symm.trans hc'
          obtain ⟨y, hy, hykey, hyle⟩ :=
            Mailbox.merge_newest SignedCRL.sequence call.state u.mailbox
          exact .inl ⟨y, .inr hy, hykey.trans hkey, Int.le_trans hle hyle⟩
        · exact .inr ⟨c', owing, setCall_eq_some.mpr (.inr ⟨hsame, hc'⟩), hj, hkey, hle⟩
    · refine (h.current j v hv hregistered state hmem hcls).imp_right fun howing =>
        exists_setCall howing fun old hold hj => ?_
      cases hc.symm.trans hold
      rw [hphase] at hj
      exact ⟨(mem_erase_of_ne hne).mpr hj.1, hj.2⟩
  published := by
    intro c' passed hc' hpassed
    rcases setCall_eq_some.mp hc' with ⟨rfl, rfl⟩ | ⟨-, hc'⟩
    · exact h.published c' call hc (by rw [hphase]; trivial)
    · exact h.published c' passed hc' hpassed
  freshSubscriptions := h.fresh_setSubscription hi
  freshCalls := h.fresh_setCall hc

/-! ### Subscriptions that begin -/

/-- A list that the source gave is passed over, ends the loop, or is newer and held. -/
theorem holdCurrent_cons (first : SignedCRL) (rest : List SignedCRL) (latest : Lists) :
    (holdCurrent (first :: rest) latest).1 = (holdCurrent rest latest).1 ∨
    (holdCurrent (first :: rest) latest).1 = latest ∨
    (holdCurrent (first :: rest) latest).1 = (holdCurrent rest (latest.insert first)).1 ∧
      ∀ held, latest.find (signedCRLKey first) = some held → held.sequence < first.sequence := by
  rw [holdCurrent]
  split
  · rename_i hnone
    exact .inr (.inr ⟨rfl, fun held hheld => by rw [hnone] at hheld; cases hheld⟩)
  · rename_i held hsome
    split
    · exact .inl rfl
    · rename_i hle
      split
      · split
        · exact .inl rfl
        · exact .inr (.inl rfl)
      · rename_i hne
        refine .inr (.inr ⟨rfl, fun held' hheld' => ?_⟩)
        cases hsome.symm.trans hheld'
        omega

/-- What is held after a `Subscribe` was held before, or is a newer list that the
source gave. -/
theorem holdCurrent_mem (current : List SignedCRL) (latest : Lists) :
    ∀ state ∈ (holdCurrent current latest).1.entries, state ∈ latest.entries ∨
      state ∈ current ∧ ∀ held, latest.find (signedCRLKey state) = some held →
        held.sequence < state.sequence := by
  induction current generalizing latest with
  | nil => exact fun state hstate => .inl hstate
  | cons first rest ih =>
    rcases holdCurrent_cons first rest latest with heq | heq | ⟨heq, hnewer⟩ <;>
      rw [heq] <;> intro state hstate
    · exact (ih latest state hstate).imp_right fun hmem => ⟨mem_cons_of_mem _ hmem.1, hmem.2⟩
    · exact .inl hstate
    -- Holding the first list leaves the others' comparisons as they were.
    rcases ih (latest.insert first) state hstate with hold | ⟨hmem, hraised⟩
    · rcases Keyed.mem_insert.mp hold with rfl | ⟨hold, -⟩
      · exact .inr ⟨mem_cons_self, hnewer⟩
      · exact .inl hold
    · refine .inr ⟨mem_cons_of_mem _ hmem, fun held hheld => ?_⟩
      obtain ⟨hheldMem, hheldKey⟩ := Keyed.find_eq_some.mp hheld
      by_cases hkey : signedCRLKey state = signedCRLKey first
      · have hfirst := hraised first (Keyed.find_eq_some.mpr
          ⟨Keyed.mem_insert.mpr (.inl rfl), hkey.symm⟩)
        exact Int.lt_trans (hnewer held (hkey ▸ hheld)) hfirst
      · exact hraised held (Keyed.find_eq_some.mpr
          ⟨Keyed.mem_insert.mpr (.inr ⟨hheldMem, hheldKey ▸ hkey⟩), hheldKey⟩)

/-- What was held still is, or was replaced by a newer list. -/
theorem holdCurrent_keeps (current : List SignedCRL) (latest : Lists) :
    ∀ state ∈ latest.entries, ∃ y ∈ (holdCurrent current latest).1.entries,
      signedCRLKey y = signedCRLKey state ∧ state.sequence ≤ y.sequence := by
  induction current generalizing latest with
  | nil => exact fun state hstate => ⟨state, hstate, rfl, Int.le_refl _⟩
  | cons first rest ih =>
    intro state hstate
    rcases holdCurrent_cons first rest latest with heq | heq | ⟨heq, hnewer⟩ <;> rw [heq]
    · exact ih latest state hstate
    · exact ⟨state, hstate, rfl, Int.le_refl _⟩
    by_cases hkey : signedCRLKey state = signedCRLKey first
    · obtain ⟨y, hy, hykey, hle⟩ :=
        ih (latest.insert first) first (Keyed.mem_insert.mpr (.inl rfl))
      have hlt := hnewer state (Keyed.find_eq_some.mpr ⟨hstate, hkey⟩)
      exact ⟨y, hy, hykey.trans hkey.symm, Int.le_trans (Int.le_of_lt hlt) hle⟩
    · exact ih (latest.insert first) state (Keyed.mem_insert.mpr (.inr ⟨hstate, hkey⟩))

/-- A new subscription has the lists that it starts with. -/
theorem seeded (current : List SignedCRL) (m : Mailbox signedCRLKey) :
    let m' := current.foldl (fun m state => mergeLocked state m) m
    m'.taken = m.taken ∧ m'.held = m.held ∧ m.Keeps SignedCRL.sequence m' ∧
      ∀ state ∈ current, Covers m' state := by
  induction current generalizing m with
  | nil => exact ⟨rfl, rfl, Mailbox.Keeps.of_has fun _ hx => hx, nofun⟩
  | cons first rest ih =>
    obtain ⟨htaken, hheld, hkeeps, hcovers⟩ := ih (mergeLocked first m)
    refine ⟨htaken.trans (Mailbox.merge_taken _ _), hheld.trans (Mailbox.merge_held _ _), ?_, ?_⟩
    · intro x hx
      obtain ⟨y, hy, hkey, hle⟩ := Mailbox.keeps_merge SignedCRL.sequence first m x hx
      exact Covers.keeps ⟨y, hy, hkey, hle⟩ hkeeps
    · intro state hstate
      rcases mem_cons.mp hstate with rfl | hrest
      · obtain ⟨y, hy, hkey, hle⟩ :=
          Mailbox.merge_newest SignedCRL.sequence state m
        exact Covers.keeps ⟨y, .inr hy, hkey, hle⟩ hkeeps
      · exact hcovers state hrest

theorem newSubscription_good (cls : CertificateClass) (current : List SignedCRL) :
    (newSubscription cls current).Good := by
  obtain ⟨htaken, hheld, -, -⟩ := seeded current Mailbox.empty
  have hnone : (newSubscription cls current).mailbox.taken = [] := htaken
  refine ⟨⟨hnone ▸ List.Pairwise.nil, ?_⟩, ?_⟩
  · rw [hnone]
    exact nofun
  · intro b hb
    have hempty : (newSubscription cls current).mailbox.held = none := hheld
    rw [hempty]
    exact Option.some.inj hb

theorem validateSignedCRL_ok {state' : SignedCRL} (h : validateSignedCRL parse state = .ok state') :
    state' = state := by
  grind [validateSignedCRL]

theorem mapM_validateSignedCRL_ok {current' : List SignedCRL}
    (h : current.mapM (validateSignedCRL parse) = .ok current') : current' = current := by
  induction current generalizing current' with
  | nil => exact (Except.ok.inj h).symm
  | cons first rest ih =>
    simp only [mapM_cons, Relational.bind_eq_ok] at h
    obtain ⟨first', hfirst, rest', hrest, heq⟩ := h
    rw [← Except.ok.inj heq, validateSignedCRL_ok hfirst, ih hrest]

/-- Holding the lists that the source gave. -/
theorem Inv.hold (h : Inv s)
    (horder : ∀ state ∈ current, (s.latest.find (signedCRLKey state)).all (fun held =>
      held.sequence < state.sequence) → s.subscribers state.cls = []) :
    Inv { s with latest := (holdCurrent current s.latest).1 } where
  good := h.good
  awake := h.awake
  current := by
    intro i u hu hregistered state hmem hcls
    rcases holdCurrent_mem current s.latest state hmem with hold | ⟨hmem, hraised⟩
    · exact h.current i u hu hregistered state hold hcls
    · have hsubscribed := mem_subscribers h hu hregistered
      have hall : (s.latest.find (signedCRLKey state)).all
          (fun held => held.sequence < state.sequence) = true := by
        cases hfind : s.latest.find (signedCRLKey state) with
        | none => rfl
        | some held => exact decide_eq_true (hraised held hfind)
      rw [← hcls, horder state hmem hall] at hsubscribed
      cases hsubscribed
  published := by
    intro c call hc hpassed
    obtain ⟨state, hmem, hkey, hle⟩ := h.published c call hc hpassed
    obtain ⟨y, hy, hykey, hyle⟩ := holdCurrent_keeps current s.latest state hmem
    exact ⟨y, hy, hykey.trans hkey, Int.le_trans hle hyle⟩
  freshSubscriptions := h.freshSubscriptions
  freshCalls := h.freshCalls

/-- A subscription begins with everything held of its class. -/
theorem Inv.addSubscription (h : Inv s) (cls : CertificateClass) :
    Inv { s.setSubscription s.opened
        (newSubscription cls (currentClassStateLocked s.latest cls)) with
      opened := s.opened + 1 } where
  good := by
    intro j v hv
    rcases setSubscription_eq_some.mp hv with ⟨-, rfl⟩ | ⟨-, hv⟩
    · exact newSubscription_good _ _
    · exact h.good j v hv
  awake := by
    intro j v hv hsleep
    rcases setSubscription_eq_some.mp hv with ⟨-, rfl⟩ | ⟨-, hv⟩
    · cases hsleep.1
    · exact h.awake j v hv hsleep
  current := by
    intro j v hv hregistered state hmem hcls
    rcases setSubscription_eq_some.mp hv with ⟨-, rfl⟩ | ⟨-, hv⟩
    · refine .inl ((seeded _ Mailbox.empty).2.2.2 state ?_)
      refine mem_mergeSort.mpr (mem_filter.mpr ⟨hmem, ?_⟩)
      exact beq_iff_eq.mpr hcls
    · exact h.current j v hv hregistered state hmem hcls
  published := h.published
  freshSubscriptions := by
    intro j hj
    have hlt : s.opened < j := hj
    have hne : j ≠ s.opened := Nat.ne_of_gt hlt
    simpa [Distributor.setSubscription, hne] using h.freshSubscriptions j (Nat.le_of_lt hlt)
  freshCalls := h.freshCalls

theorem Inv.subscribe (h : Inv s) {cls : CertificateClass}
    (horder : InOrder s (.subscribe cls current)) : Inv (subscribe parse s cls current) := by
  unfold Control.subscribe
  split
  · exact h
  · rename_i current' hvalid
    obtain rfl := mapM_validateSignedCRL_ok hvalid
    have hheld := h.hold horder
    split
    · rename_i latest reason hhold
      rwa [hhold] at hheld
    · rename_i latest u hhold
      rw [hhold] at hheld
      exact hheld.addSubscription cls

/-- A step that only moves one call on. -/
theorem Inv.move (h : Inv s) {phase phase' : CallPhase}
    (hc : s.calls c = some ⟨state, cancelled, phase⟩) (hleft : phase'.left = phase.left)
    (hpassed : phase.Passed) (hwakes : phase.wakes = none) :
    Inv (s.setCall c ⟨state, cancelled, phase'⟩) := by
  refine h.setCall hc rfl hleft (fun _ => .inl hpassed) fun i u hi => ?_
  rw [hwakes] at hi
  cases hi

theorem Inv.wake (h : Inv s) (hc : s.calls c = some ⟨state, cancelled, .waking i left⟩)
    (hi : s.subscriptions i = some u) :
    Inv ((s.setSubscription i { u with wake := true }).setCall c
      ⟨state, cancelled, .flushing i left⟩) := by
  have hmoves : u.Moves { u with wake := true } :=
    (h.good i u hi).moves_phase (h.good i u hi).held id fun _ hwake => by cases hwake
  refine (h.setSubscription hi hmoves).setCall hc rfl rfl (fun _ => .inl trivial) ?_
  intro j v hwakes hv hsleep
  cases hwakes
  rcases setSubscription_eq_some.mp hv with ⟨-, rfl⟩ | ⟨hne, -⟩
  · cases hsleep.2.2.2
  · exact absurd rfl hne

theorem Inv.flush (h : Inv s) (hc : s.calls c = some ⟨state, cancelled, .flushing i left⟩)
    (hi : s.subscriptions i = some u) :
    Inv ((s.setSubscription i { u with phase := signalled (some c) u.mailbox }).setCall c
      ⟨state, cancelled, .awaiting i left false⟩) := by
  have hmoves : u.Moves { u with phase := signalled (some c) u.mailbox } :=
    (h.good i u hi).moves_phase (signalled_holds (some c) u.mailbox) id
      fun hphase => absurd hphase (signalled_ne_selecting _ _)
  exact (h.setSubscription hi hmoves).move hc rfl trivial rfl

theorem Inv.acknowledge (h : Inv s) (hi : s.subscriptions i = some u)
    (hphase : u.phase = .acknowledging c) :
    Inv (s.setSubscription i { u with phase := .taking }) := by
  refine h.setSubscription hi ((h.good i u hi).moves_phase ?_ id fun hselecting => ?_)
  · intro b hb
    rw [(h.good i u hi).held false (by rw [hphase]; rfl)]
    exact Option.some.inj hb
  · cases hselecting

/-- Every step in order keeps the invariant. -/
theorem Inv.next (h : Inv s) {a : Action} (horder : InOrder s a)
    (hnext : next parse s a = some s') : Inv s' := by
  cases a <;> simp only [Control.next] at hnext
  case publish state durable =>
    split at hnext
    · cases hnext
      exact h.addCall id
    · cases hnext
      exact h.addCall id
  case lock c =>
    split at hnext
    · rename_i hc
      cases hnext
      exact h.lock hc rfl
    · cases hnext
  case enqueue c i =>
    split at hnext
    · rename_i hc hi
      split at hnext
      · cases hnext
        exact h.enqueue hc rfl hi horder
      · cases hnext
    · cases hnext
  case wake c =>
    split at hnext
    · rename_i hc
      obtain ⟨u, hi, rfl⟩ := Option.map_eq_some_iff.mp hnext
      exact h.wake hc hi
    · cases hnext
  case flush c =>
    split at hnext
    · rename_i hc
      split at hnext
      · rename_i hi
        split at hnext
        · cases hnext
          exact h.flush hc hi
        · cases hnext
      · cases hnext
    · cases hnext
  case acknowledge i =>
    split at hnext
    · rename_i hi
      split at hnext
      · rename_i hphase
        have htaking := h.acknowledge hi hphase
        split at hnext
        · rename_i hc
          split at hnext
          · cases hnext
            exact htaking.move hc rfl trivial rfl
          · cases hnext
            exact htaking
        · cases hnext
          exact htaking
      · cases hnext
    · cases hnext
  case acknowledged c =>
    split at hnext
    · rename_i hc
      cases hnext
      exact h.move hc rfl trivial rfl
    · cases hnext
  case giveUp c =>
    split at hnext
    · rename_i hc
      split at hnext
      · cases hnext
        exact h.move hc rfl trivial rfl
      · cases hnext
    · rename_i hc
      split at hnext
      · cases hnext
        exact h.move hc rfl trivial rfl
      · cases hnext
    · cases hnext
  case finish c =>
    split at hnext
    · rename_i hc
      cases hnext
      exact h.move hc rfl trivial rfl
    · cases hnext
  case cancelCall c =>
    obtain ⟨call, hc, rfl⟩ := Option.map_eq_some_iff.mp hnext
    exact h.setCall hc rfl rfl .inl fun _ _ hwakes _ _ => hwakes
  case subscribe cls current =>
    simp at hnext
    subst hnext
    exact h.subscribe horder
  case run i action =>
    simp [Option.bind_eq_some_iff] at hnext
    obtain ⟨u, hi, u', hstep, rfl⟩ := hnext
    exact h.setSubscription hi ((h.good i u hi).step hstep)

/-! ## Runs in order -/

/-- Every step of a run is in order. -/
def AllInOrder (parse : Bytes → Option RevocationList) : Distributor → List Action → Prop
  | _, [] => True
  | s, a :: as => InOrder s a ∧
      match next parse s a with
      | some s' => AllInOrder parse s' as
      | none => True

instance decidableAllInOrder (parse : Bytes → Option RevocationList) :
    ∀ (s : Distributor) (as : List Action), Decidable (AllInOrder parse s as)
  | _, [] => isTrue trivial
  | s, a :: as =>
    have : Decidable (match next parse s a with
        | some s' => AllInOrder parse s' as
        | none => True) :=
      match next parse s a with
      | some s' => decidableAllInOrder parse s' as
      | none => isTrue trivial
    inferInstanceAs (Decidable (_ ∧ _))

/-- The carrier waits and no step of carrier or consumer is left. -/
def Subscription.Drained (u : Subscription) : Prop :=
  u.phase = .selecting ∧ ∀ a, a ≠ .cancel → u.step a = none

/-- What a consumer may rely on. -/
structure PushOrder (s : Distributor) : Prop where
  increasing : ∀ i u, s.subscriptions i = some u →
    u.mailbox.delivered.Pairwise fun x y =>
      signedCRLKey x = signedCRLKey y → x.sequence < y.sequence
  newest : (∀ c < s.called, ∃ call result, s.calls c = some call ∧
      call.phase = .returned result) →
    ∀ i u, s.subscriptions i = some u → u.registered = true → u.Drained →
      ∀ c call, s.calls c = some call → call.phase = .returned (.ok ()) →
        call.state.cls = u.cls →
          ∃ y, (u.mailbox.delivered.filter fun y =>
              signedCRLKey y = signedCRLKey call.state).getLast? = some y ∧
            call.state.sequence ≤ y.sequence

theorem inv_run {as : List Action} (h : Inv s) (horder : AllInOrder parse s as)
    (hrun : runDistributor parse s as = some s') : Inv s' := by
  induction as generalizing s with
  | nil =>
    cases hrun
    exact h
  | cons a as ih =>
    simp only [runDistributor, Option.bind_eq_some_iff] at hrun
    obtain ⟨s₁, hnext, hrun⟩ := hrun
    simp only [AllInOrder, hnext] at horder
    exact ih (h.next horder.1 hnext) horder.2 hrun

/-- Nothing is on its way in a drained subscription whose carrier is not asleep. -/
theorem Subscription.Drained.delivered (h : u.Drained) (hawake : ¬ u.Asleep) {x : SignedCRL}
    (hx : u.mailbox.Has x) : x ∈ u.mailbox.delivered := by
  obtain ⟨hphase, hsteps⟩ := h
  have hbuffer : u.mailbox.buffer = none := by
    have hreceive := hsteps .receive nofun
    simpa [Subscription.step] using hreceive
  have hheld : u.mailbox.held = none := by
    have hsend := hsteps .sendUpdate nofun
    cases hheld : u.mailbox.held with
    | none => rfl
    | some state => simp [Subscription.step, hphase, hheld, hbuffer] at hsend
  have hwake : u.wake = false := by
    have hsignal := hsteps .receiveWake nofun
    cases hwake : u.wake with
    | false => rfl
    | true => simp [Subscription.step, hphase, hwake] at hsignal
  have hpending : u.mailbox.pending.entries = [] := by
    by_contra hne
    exact hawake ⟨hphase, hheld, hne, hwake⟩
  rcases hx with hx | hx
  · simpa [Mailbox.taken, hbuffer, hheld] using hx
  · rw [hpending] at hx
    cases hx

/-- The invariant implies the order of delivery. -/
theorem Inv.pushOrder (h : Inv s) : PushOrder s where
  increasing := by
    intro i u hu
    have htaken := (h.good i u hu).ordered.taken
    rw [Mailbox.taken, append_assoc, pairwise_append] at htaken
    exact htaken.1
  newest := by
    intro hall i u hu hregistered hdrained c call hc hok hcls
    have hreturned : ∀ c call, s.calls c = some call →
        ∃ result, call.phase = .returned result := by
      intro c call hc
      have hlt : c < s.called := by
        by_contra hle
        rw [h.freshCalls c (Nat.not_lt.mp hle)] at hc
        cases hc
      obtain ⟨call', result, hc', hphase⟩ := hall c hlt
      rw [hc] at hc'
      cases hc'
      exact ⟨result, hphase⟩
    obtain ⟨state, hmem, hkey, hle⟩ := h.published c call hc (by rw [hok]; trivial)
    have hawake : ¬ u.Asleep := by
      intro hsleep
      obtain ⟨c', waking, hc', hwakes⟩ := h.awake i u hu hsleep
      obtain ⟨result, hphase⟩ := hreturned c' waking hc'
      rw [hphase] at hwakes
      cases hwakes
    have hstate : state.cls = u.cls := (congrArg Prod.fst hkey).trans hcls
    -- No call owes the subscription anything: it has what is held.
    have hcovers : Covers u.mailbox state := by
      rcases h.current i u hu hregistered state hmem hstate with hcovers | ⟨c', owing, hc', hi, -⟩
      · exact hcovers
      · obtain ⟨result, hphase⟩ := hreturned c' owing hc'
        rw [hphase] at hi
        cases hi
    obtain ⟨x, hx, hxkey, hxle⟩ := hcovers
    obtain ⟨y, hy, hyle⟩ :=
      (h.good i u hu).ordered.last_delivered (hdrained.delivered hawake hx)
    rw [hxkey.trans hkey] at hy
    exact ⟨y, hy, Int.le_trans hle (Int.le_trans hxle hyle)⟩

/-- In every run of steps in order, each consumer is given increasing sequences of
every issuer and ends on the newest list. -/
theorem crl_push_order (parse : Bytes → Option RevocationList) (as : List Action)
    (horder : AllInOrder parse Distributor.init as)
    (hrun : runDistributor parse Distributor.init as = some s) : PushOrder s :=
  (inv_run inv_init horder hrun).pushOrder

/-! ### Calls that overtake each other -/

/-- A list of one agent issuer. -/
def sampleList (sequence : UInt8) : SignedCRL :=
  ⟨.agent, 7, sequence.toNat, [sequence], some 0, none⟩

/-- The sample lists are encoded by their numbers. -/
def parseSample (der : Bytes) : Option RevocationList :=
  der.head?.map fun number => ⟨some number.toNat, 0⟩

/-- A consumer is given the list that its subscription begins with. -/
def subscribed (current : SignedCRL) : List Action :=
  [.subscribe .agent [current], .run 0 .take, .run 0 .sendUpdate, .run 0 .take, .run 0 .receive]

def published (sequence : UInt8) : Action :=
  .publish (sampleList sequence) (.ok (sampleList sequence))

/-- The carrier of the first subscription wakes and delivers. -/
def carried : List Action :=
  [.run 0 .receiveWake, .run 0 .reclaimBuffered, .run 0 .take, .run 0 .sendUpdate, .run 0 .take,
    .run 0 .receive]

/-- Both calls have published before either enqueues, and the newer one enqueues first. -/
def overtaken : List Action :=
  subscribed (sampleList 1) ++ [published 2, .lock 0, published 3, .lock 1,
    .enqueue 1 0, .wake 1] ++ carried ++ [.enqueue 0 0, .wake 0] ++ carried

/-- The second subscription finds the new list before it is published. -/
def foundFirst : List Action :=
  subscribed (sampleList 1) ++ [.subscribe .agent [sampleList 2], published 2, .lock 0]

/-- In the one run a consumer is given an older list after a newer one, in the other
every call has returned and the drained consumer was never given the newest. -/
theorem not_pushOrder :
    (∃ s, runDistributor parseSample Distributor.init overtaken = some s ∧ ¬ PushOrder s) ∧
      ∃ s, runDistributor parseSample Distributor.init foundFirst = some s ∧ ¬ PushOrder s := by
  constructor
  · refine ⟨_, by with_unfolding_all rfl, fun h => ?_⟩
    have hincreasing := h.increasing 0 _ rfl
    revert hincreasing
    decide +kernel
  · refine ⟨_, by with_unfolding_all rfl, fun h => ?_⟩
    have hnewest := h.newest ?_ 0 _ rfl rfl ⟨rfl, ?_⟩ 0 _ rfl rfl rfl
    · revert hnewest
      decide +kernel
    · intro c hc
      obtain rfl : c = 0 := Nat.lt_one_iff.mp hc
      exact ⟨_, _, rfl, rfl⟩
    · intro a ha
      cases a <;> first | rfl | exact absurd rfl ha

/-- One call publishes, wakes the carrier, is acknowledged and returns. -/
def undisturbed : List Action :=
  subscribed (sampleList 1) ++ [published 2, .lock 0, .enqueue 0 0, .wake 0] ++ carried ++
    [.flush 0, .run 0 .reclaimBuffered, .acknowledge 0, .acknowledged 0, .finish 0, .run 0 .take]

theorem undisturbed_pushOrder :
    ∃ s, AllInOrder parseSample Distributor.init undisturbed ∧
      runDistributor parseSample Distributor.init undisturbed = some s ∧ PushOrder s ∧
      (s.subscriptions 0).map (·.mailbox.delivered) = some [sampleList 1, sampleList 2] := by
  have horder : AllInOrder parseSample Distributor.init undisturbed := by decide +kernel
  have hdelivered : (runDistributor parseSample Distributor.init undisturbed).map
      (fun s => (s.subscriptions 0).map (·.mailbox.delivered)) =
        some (some [sampleList 1, sampleList 2]) := by decide +kernel
  obtain ⟨s, hrun, hdelivered⟩ := Option.map_eq_some_iff.mp hdelivered
  exact ⟨s, horder, hrun, crl_push_order parseSample undisturbed horder hrun, hdelivered⟩

end PowerManage.Control
