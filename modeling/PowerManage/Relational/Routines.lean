import Mathlib.Data.List.Basic
import Mathlib.Logic.Function.Basic

/-!
# Fenced routines

Long-running operations take session-level locks, perform several atomic steps on
one shared state and release the locks when they end.  A lock is held shared or
exclusively from the start of an operation to its end; a session that crashes
loses its locks and its remaining steps.

Reasoning is by rely and guarantee: an operation's steps only make changes that it
guarantees, and it relies on the others making only changes that compatible
operations guarantee.

Main results:

- `Contract.sound`: in every reachable state the invariant holds and
  every running operation is as its contract says.
- `Contract.guarantees`: every step of a running operation is one
  that its contract guarantees.
- `Service.run_within`: what every change of every operation
  preserves holds along every run.
- `Service.run_answers`: what the step at which an operation decides
  makes of its answers holds of the answers in every run.
-/

namespace PowerManage.Relational

/-- An operation over a shared state `D`: atomic steps, then an answer or an error. -/
inductive Routine (D ε α : Type) : Type where
  | ret (a : α)
  | fail (e : ε)
  | step (update : D → D) (next : D → Routine D ε α)

namespace Routine

variable {D ε α β : Type}

/-- Sequence two parts. -/
def bind : Routine D ε α → (α → Routine D ε β) → Routine D ε β
  | ret a, f => f a
  | fail e, _ => fail e
  | step update next, f => step update fun d => (next d).bind f

instance : Monad (Routine D ε) where
  pure := ret
  bind := bind

/-- One atomic step, which may fail and then changes nothing. -/
def atomic (act : D → Except ε (α × D)) : Routine D ε α :=
  step
    (fun d =>
      match act d with
      | .ok (_, d') => d'
      | .error _ => d)
    fun d =>
      match act d with
      | .ok (a, _) => ret a
      | .error e => fail e

/-- One atomic step whose failure changes nothing and is the answer. -/
def attempt {ε' : Type} (act : D → Except ε' (α × D)) : Routine D ε (Except ε' α) :=
  atomic fun d =>
    match act d with
    | .ok (a, d') => .ok (.ok a, d')
    | .error e => .ok (.error e, d)

@[simp]
theorem bind_eq (p : Routine D ε α) (f : α → Routine D ε β) : p >>= f = p.bind f :=
  rfl

theorem bind_assoc {γ : Type} (p : Routine D ε α) (f : α → Routine D ε β)
    (g : β → Routine D ε γ) : (p.bind f).bind g = p.bind fun a => (f a).bind g := by
  induction p with
  | ret a => rfl
  | fail e => rfl
  | step update next ih => exact congrArg (step update) (funext ih)

/-! ## Rely and guarantee -/

/-- From state `d`, while others make only changes in `rely`, every step
is in `guar` and the routine ends in `post`. -/
def wp (rely guar : D → D → Prop) (post : Except ε α → D → Prop) : Routine D ε α → D → Prop
  | ret a, d => ∀ d', rely d d' → post (.ok a) d'
  | fail e, d => ∀ d', rely d d' → post (.error e) d'
  | step update next, d => ∀ d', rely d d' →
      guar d' (update d') ∧ (next d').wp rely guar post (update d')

variable {rely guar : D → D → Prop} {post post' : Except ε α → D → Prop}

variable {d : D} {p : Routine D ε α}

theorem wp_ret_iff {a : α} :
    (ret a : Routine D ε α).wp rely guar post d ↔ ∀ d', rely d d' → post (.ok a) d' :=
  Iff.rfl

theorem wp_step_iff {update : D → D} {next : D → Routine D ε α} :
    (step update next).wp rely guar post d ↔ ∀ d', rely d d' →
      guar d' (update d') ∧ (next d').wp rely guar post (update d') :=
  Iff.rfl

/-- What a routine guarantees survives the changes it relies on. -/
theorem wp_stable (htrans : ∀ d d' d'', rely d d' → rely d' d'' → rely d d'') {d' : D}
    (hrely : rely d d') (h : p.wp rely guar post d) : p.wp rely guar post d' := by
  cases p with
  | ret a => exact fun d'' hd'' => h d'' (htrans _ _ _ hrely hd'')
  | fail e => exact fun d'' hd'' => h d'' (htrans _ _ _ hrely hd'')
  | step update next => exact fun d'' hd'' => h d'' (htrans _ _ _ hrely hd'')

theorem wp_mono (hpost : ∀ r d, post r d → post' r d) (h : p.wp rely guar post d) :
    p.wp rely guar post' d := by
  induction p generalizing d with
  | ret a => exact fun d' hd' => hpost _ _ (h d' hd')
  | fail e => exact fun d' hd' => hpost _ _ (h d' hd')
  | step update next ih => exact fun d' hd' => ⟨(h d' hd').1, ih d' (h d' hd').2⟩

theorem wp_bind {f : α → Routine D ε β} {post : Except ε β → D → Prop} (hrefl : ∀ d, rely d d)
    (h : p.wp rely guar (fun r d =>
      match r with
      | .ok a => (f a).wp rely guar post d
      | .error e => post (.error e) d) d) : (p.bind f).wp rely guar post d := by
  induction p generalizing d with
  | ret a => exact h d (hrefl d)
  | fail e => exact h
  | step update next ih => exact fun d' hd' => ⟨(h d' hd').1, ih d' (h d' hd').2⟩

theorem wp_atomic {act : D → Except ε (α × D)}
    (hok : ∀ d', rely d d' → ∀ a d'', act d' = .ok (a, d'') →
      guar d' d'' ∧ ∀ d₃, rely d'' d₃ → post (.ok a) d₃)
    (herror : ∀ d', rely d d' → ∀ e, act d' = .error e →
      guar d' d' ∧ ∀ d₃, rely d' d₃ → post (.error e) d₃) : (atomic act).wp rely guar post d := by
  intro d' hd'
  cases hact : act d' with
  | ok r =>
    obtain ⟨a, d''⟩ := r
    have hnext := hok d' hd' a d'' hact
    simp only [hact]
    exact hnext
  | error e =>
    have hnext := herror d' hd' e hact
    simp only [hact]
    exact hnext

/-! ## Steps without assertions between them -/

/-- Every step, from any state, is a change in `guar`. -/
def Within (guar : D → D → Prop) : Routine D ε α → Prop
  | ret _ => True
  | fail _ => True
  | step update next => ∀ d, guar d (update d) ∧ (next d).Within guar

theorem Within.bind {f : α → Routine D ε β} (hp : p.Within guar) (hf : ∀ a, (f a).Within guar) :
    (p.bind f).Within guar := by
  induction p with
  | ret a => exact hf a
  | fail e => trivial
  | step update next ih => exact fun d => ⟨(hp d).1, ih d (hp d).2⟩

theorem Within.attempt {ε' : Type} {act : D → Except ε' (α × D)} (hrefl : ∀ d, guar d d)
    (h : ∀ d a d', act d = .ok (a, d') → guar d d') :
    (Routine.attempt act : Routine D ε (Except ε' α)).Within guar := by
  intro d
  cases hact : act d with
  | ok r =>
    have hchange := h d r.1 r.2 hact
    simp only [hact]
    exact ⟨hchange, trivial⟩
  | error e =>
    simp only [hact]
    exact ⟨hrefl d, trivial⟩

/-- A routine on a part of a larger state. -/
def zoom {E : Type} (get : E → D) (set : E → D → E) : Routine D ε α → Routine E ε α
  | ret a => ret a
  | fail e => fail e
  | step update next =>
    step (fun s => set s (update (get s))) fun s => (next (get s)).zoom get set

theorem Within.zoom {E : Type} {get : E → D} {set : E → D → E} {guar : E → E → Prop}
    (h : ∀ s d, guar s (set s d)) (p : Routine D ε α) : (p.zoom get set).Within guar := by
  induction p with
  | ret a => trivial
  | fail e => trivial
  | step update next ih => exact fun s => ⟨h s _, ih (get s)⟩

/-! ## Answers -/

/-- Every answer satisfies `Q`. -/
def Returns (Q : α → Prop) : Routine D ε α → Prop
  | ret a => Q a
  | fail _ => True
  | step _ next => ∀ d, (next d).Returns Q

/-- After its first step, from a state `d`, the routine is in `R`, or its answers
satisfy `Q d`. -/
def Opens (R : Routine D ε α → Prop) (Q : D → α → Prop) : Routine D ε α → Prop
  | ret a => ∀ d, Q d a
  | fail _ => True
  | step _ next => ∀ d, R (next d) ∨ (next d).Returns (Q d)

variable {Q Q' : α → Prop}

theorem Returns.mono (hQ : ∀ a, Q a → Q' a) (hp : p.Returns Q) : p.Returns Q' := by
  induction p with
  | ret a => exact hQ a hp
  | fail e => trivial
  | step update next ih => exact fun d => ih d (hp d)

theorem Opens.mono {R : Routine D ε α → Prop} {Q Q' : D → α → Prop}
    (hQ : ∀ d a, Q d a → Q' d a) (hp : p.Opens R Q) : p.Opens R Q' := by
  cases p with
  | ret a => exact fun d => hQ d a (hp d)
  | fail e => trivial
  | step update next => exact fun d => (hp d).imp_right (.mono (hQ d))

theorem Returns.bind {f : α → Routine D ε β} {Q' : β → Prop} (hp : p.Returns Q)
    (hf : ∀ a, Q a → (f a).Returns Q') : (p.bind f).Returns Q' := by
  induction p with
  | ret a => exact hf a hp
  | fail e => trivial
  | step update next ih => exact fun d => ih d (hp d)

theorem Returns.zoom {E : Type} {get : E → D} {set : E → D → E} (hp : p.Returns Q) :
    (p.zoom get set).Returns Q := by
  induction p with
  | ret a => exact hp
  | fail e => trivial
  | step update next ih => exact fun s => ih (get s) (hp (get s))

theorem Returns.opens {R : Routine D ε α → Prop} {Q : D → α → Prop} (hp : ∀ d, p.Returns (Q d)) :
    p.Opens R Q := by
  cases p with
  | ret a => exact hp
  | fail e => trivial
  | step update next => exact fun d => .inr (hp d d)

theorem Returns.top (p : Routine D ε α) : p.Returns fun _ => True := by
  induction p with
  | ret a => trivial
  | fail e => trivial
  | step update next ih => exact ih

end Routine

/-! ## Interleaved sessions -/

/-- How a lock is held. -/
inductive FenceMode where
  | shared
  | exclusive
  deriving DecidableEq, Repr

/-- The operations of a service and the locks they hold throughout. -/
structure Service (D K ε α : Type) where
  Op : Type
  body : Op → Routine D ε α
  fences : Op → List (K × FenceMode)

namespace Service

variable {D K ε α : Type}

/-- Two sets of locks can be held at the same time. -/
def Compatible [DecidableEq K] (fs fs' : List (K × FenceMode)) : Bool :=
  fs.all fun f => fs'.all fun f' => f.1 ≠ f'.1 || (f.2 == .shared && f'.2 == .shared)

/-- One operation's progress. -/
inductive Session (C : Service D K ε α) : Type where
  | idle
  | running (op : C.Op) (rest : Routine D ε α)
  | ended (op : C.Op) (result : Except ε α)
  | crashed (op : C.Op)

/-- The shared state and the sessions opened so far. -/
structure Sys (C : Service D K ε α) : Type where
  state : D
  opened : Nat
  sessions : Nat → Session C

/-- One scheduler choice. -/
inductive Action (C : Service D K ε α) : Type where
  | start (op : C.Op)
  | step (session : Nat)
  | crash (session : Nat)

variable {C : Service D K ε α} [DecidableEq K]

/-- Whether an operation's locks are compatible with those of a session. -/
def Session.admits (fences : List (K × FenceMode)) : Session C → Bool
  | running op _ => Compatible fences (C.fences op)
  | _ => true

/-- The next step of an operation; a finished one releases its locks. -/
def Sys.advance (s : Sys C) (i : Nat) (op : C.Op) : Routine D ε α → Sys C
  | .ret a => { s with sessions := Function.update s.sessions i (.ended op (.ok a)) }
  | .fail e => { s with sessions := Function.update s.sessions i (.ended op (.error e)) }
  | .step update next =>
    { s with
      state := update s.state
      sessions := Function.update s.sessions i (.running op (next s.state)) }

/-- One step of the machine; `none` when the action is not enabled. -/
def next (s : Sys C) : Action C → Option (Sys C)
  | .start op =>
    if (List.range s.opened).all fun j => (s.sessions j).admits (C.fences op) then
      some
        { s with
          opened := s.opened + 1
          sessions := Function.update s.sessions s.opened (.running op (C.body op)) }
    else none
  | .step i =>
    match s.sessions i with
    | .running op rest => some (s.advance i op rest)
    | _ => none
  | .crash i =>
    match s.sessions i with
    | .running op _ =>
      some { s with sessions := Function.update s.sessions i (.crashed op) }
    | _ => none

/-- A run of the machine. -/
def run (s : Sys C) : List (Action C) → Option (Sys C)
  | [] => some s
  | a :: as => (next s a).bind (run · as)

/-- No session is open yet. -/
def Sys.init (C : Service D K ε α) (d : D) : Sys C where
  state := d
  opened := 0
  sessions := fun _ => .idle

variable {s s' : Sys C}

/-- What holds of the start and survives every step holds of every reachable state. -/
theorem run_induction {P : Sys C → Prop} (hstep : ∀ s a s', P s → next s a = some s' → P s')
    {as : List (Action C)} (hrun : run s as = some s') (hs : P s) : P s' := by
  induction as generalizing s with
  | nil => exact Option.some.inj hrun ▸ hs
  | cons a as ih =>
    obtain ⟨s₁, hfirst, hrest⟩ := Option.bind_eq_some_iff.mp hrun
    exact ih hrest (hstep s a s₁ hs hfirst)

theorem run_append (as as' : List (Action C)) :
    run s (as ++ as') = (run s as).bind (run · as') := by
  induction as generalizing s with
  | nil => rfl
  | cons a as ih => simp [run, ih, Option.bind_assoc]

/-- What a step makes of one session, and of the state. -/
inductive Moves (s : Sys C) : Nat → Session C → D → Prop where
  | start {op : C.Op}
      (hfree : (List.range s.opened).all (fun j => (s.sessions j).admits (C.fences op)) = true) :
      Moves s s.opened (.running op (C.body op)) s.state
  | step {i : Nat} {op : C.Op} {update : D → D} {next : D → Routine D ε α}
      (hrun : s.sessions i = .running op (.step update next)) :
      Moves s i (.running op (next s.state)) (update s.state)
  | answer {i : Nat} {op : C.Op} {a : α} (hrun : s.sessions i = .running op (.ret a)) :
      Moves s i (.ended op (.ok a)) s.state
  | stop {i : Nat} {op : C.Op} {rest : Routine D ε α} {t : Session C}
      (hrun : s.sessions i = .running op rest)
      (ht : t = .crashed op ∨ ∃ e, t = .ended op (.error e)) :
      Moves s i t s.state

/-- Sessions other than the one that acts stay as they are, and none is closed. -/
theorem next_moves {a : Action C} (hnext : next s a = some s') :
    ∃ i t d, Moves s i t d ∧ s'.sessions = Function.update s.sessions i t ∧ s'.state = d ∧
      s.opened ≤ s'.opened ∧ (s.sessions i = .idle → i < s'.opened) := by
  cases a with
  | start op =>
    simp only [next, Option.ite_none_right_eq_some, Option.some.injEq] at hnext
    obtain ⟨hfree, rfl⟩ := hnext
    exact ⟨_, _, _, .start hfree, rfl, rfl, Nat.le_succ _, fun _ => Nat.lt_succ_self _⟩
  | step i =>
    simp only [next] at hnext
    split at hnext
    · rename_i op rest hrun
      cases hnext
      cases rest with
      | ret a => exact ⟨i, _, _, .answer hrun, rfl, rfl, Nat.le_refl _, by simp [hrun]⟩
      | fail e =>
        exact ⟨i, _, _, .stop hrun (.inr ⟨e, rfl⟩), rfl, rfl, Nat.le_refl _, by simp [hrun]⟩
      | step update next => exact ⟨i, _, _, .step hrun, rfl, rfl, Nat.le_refl _, by simp [hrun]⟩
    · cases hnext
  | crash i =>
    simp only [next] at hnext
    split at hnext
    · rename_i op rest hrun
      cases hnext
      exact ⟨i, _, _, .stop hrun (.inl rfl), rfl, rfl, Nat.le_refl _, by simp [hrun]⟩
    · cases hnext

/-- What every change that the operations make preserves holds along every run. -/
theorem run_within {guar : D → D → Prop} {I : D → Prop} (hbody : ∀ op, (C.body op).Within guar)
    (hI : ∀ d d', I d → guar d d' → I d') {as : List (Action C)} (hrun : run s as = some s')
    (hs : I s.state) (hsessions : ∀ i op rest, s.sessions i = .running op rest → rest.Within guar) :
    I s'.state ∧ ∀ i op rest, s'.sessions i = .running op rest → rest.Within guar := by
  refine run_induction (P := fun s => I s.state ∧
    ∀ i op rest, s.sessions i = .running op rest → rest.Within guar) ?_ hrun ⟨hs, hsessions⟩
  intro s a s' hs hnext
  obtain ⟨i, t, d, hmoves, hsessions, rfl, -⟩ := next_moves hnext
  have hmoved : I s'.state ∧ ∀ op rest, t = .running op rest → rest.Within guar := by
    generalize s'.state = d at hmoves
    cases hmoves with
    | start hfree =>
      refine ⟨hs.1, fun op rest h => ?_⟩
      cases h
      exact hbody _
    | step hrun =>
      have hrest := hs.2 _ _ _ hrun s.state
      refine ⟨hI _ _ hs.1 hrest.1, fun op rest h => ?_⟩
      cases h
      exact hrest.2
    | answer hrun => exact ⟨hs.1, nofun⟩
    | stop hrun ht => exact ⟨hs.1, by rcases ht with rfl | ⟨e, rfl⟩ <;> exact nofun⟩
  refine ⟨hmoved.1, fun j op rest hj => ?_⟩
  rw [hsessions, Function.update_apply] at hj
  split at hj
  · exact hmoved.2 op rest hj
  · exact hs.2 j op rest hj

/-! ## What answers say -/

section answers

variable {undecided : C.Op → Routine D ε α → Prop} {P P' : C.Op → α → Prop}

/-- The operation is still undecided, or its answers satisfy `P`. -/
def Session.Answers (undecided : C.Op → Routine D ε α → Prop) (P : C.Op → α → Prop) :
    Session C → Prop
  | running op rest => undecided op rest ∨ rest.Returns (P op)
  | ended op (.ok a) => P op a
  | _ => True

omit [DecidableEq K] in
/-- Weaker answers. -/
theorem Session.Answers.mono {t : Session C} (hP : ∀ op a, P op a → P' op a)
    (h : t.Answers undecided P) : t.Answers undecided P' := by
  cases t with
  | idle => trivial
  | running op rest => exact h.imp_right (.mono (hP op))
  | ended op result =>
    cases result with
    | error e => trivial
    | ok a => exact hP op a h
  | crashed op => trivial

/-- If the deciding step of an operation, from `d`, makes its answers satisfy `P d`,
and changes keep what `P` says, then a session's answers satisfy it in every run. -/
theorem run_answers {guar : D → D → Prop} {I : D → Prop} {P : D → C.Op → α → Prop} {i : Nat}
    (hbody : ∀ op, (C.body op).Within guar) (hI : ∀ d d', I d → guar d d' → I d')
    (hP : ∀ d d' op a, I d → guar d d' → P d op a → P d' op a)
    (hopens : ∀ op rest, undecided op rest →
      rest.Opens (undecided op) fun d a => I d → P d op a)
    {as : List (Action C)} (hrun : run s as = some s') (hs : I s.state)
    (hsessions : ∀ i op rest, s.sessions i = .running op rest → rest.Within guar)
    (hstart : i < s.opened ∨ ∀ op, undecided op (C.body op))
    (hanswers : (s.sessions i).Answers undecided (P s.state)) :
    (s'.sessions i).Answers undecided (P s'.state) := by
  induction as generalizing s with
  | nil => exact Option.some.inj hrun ▸ hanswers
  | cons a as ih =>
    obtain ⟨s₁, hnext, hrest⟩ := Option.bind_eq_some_iff.mp hrun
    have hone : run s [a] = some s₁ := by simp [run, hnext]
    obtain ⟨hI₁, hsessions₁⟩ := run_within hbody hI hone hs hsessions
    obtain ⟨k, t, d, hmoves, hupdate, rfl, hopened, -⟩ := next_moves hnext
    refine ih hrest hI₁ hsessions₁ (hstart.imp_left (Nat.lt_of_lt_of_le · hopened)) ?_
    have hkeeps : ∀ op a, P s.state op a → P s₁.state op a := by
      intro op a h
      generalize s₁.state = d at hmoves
      cases hmoves with
      | start hfree => exact h
      | step hrun => exact hP _ _ op a hs (hsessions _ _ _ hrun s.state).1 h
      | answer hrun => exact h
      | stop hrun ht => exact h
    rw [hupdate, Function.update_apply]
    split
    · rename_i hik
      subst hik
      generalize s₁.state = d at hmoves hkeeps
      cases hmoves with
      | start hfree => exact .inl (hstart.elim (fun h => absurd h (Nat.lt_irrefl _)) fun h => h _)
      | step hrun =>
        rw [hrun] at hanswers
        have hdecided := hanswers.elim
          (fun h => (hopens _ _ h s.state).imp_right (.mono fun _ ha => ha hs))
          fun h => .inr (h s.state)
        exact hdecided.imp_right (.mono (hkeeps _))
      | answer hrun =>
        rw [hrun] at hanswers
        exact hkeeps _ _ (hanswers.elim (fun h => hopens _ _ h s.state hs) fun h => h)
      | stop hrun ht => rcases ht with rfl | ⟨e, rfl⟩ <;> trivial
    · exact hanswers.mono hkeeps

end answers

end Service

/-! ## Contracts -/

/-- The proof obligations of a service. -/
structure Contract {D K ε α : Type} [DecidableEq K] (C : Service D K ε α) where
  inv : D → Prop
  rely : C.Op → D → D → Prop
  guar : C.Op → D → D → Prop
  post : C.Op → Except ε α → D → Prop
  rely_refl : ∀ op d, rely op d d
  rely_trans : ∀ op d d' d'', rely op d d' → rely op d' d'' → rely op d d''
  keeps_inv : ∀ op d d', inv d → guar op d d' → inv d'
  /-- Operations that can run together rely on what the others guarantee. -/
  tolerates : ∀ op op', Service.Compatible (C.fences op) (C.fences op') = true →
    ∀ d d', inv d → guar op d d' → rely op' d d'
  body : ∀ op d, inv d → (C.body op).wp (rely op) (guar op) (post op) d

namespace Contract

open Service

variable {D K ε α : Type} [DecidableEq K] {C : Service D K ε α} (P : Contract C)

/-- What holds in every reachable state. -/
structure Holds (s : Sys C) : Prop where
  inv : P.inv s.state
  running : ∀ i op rest, s.sessions i = .running op rest →
    rest.wp (P.rely op) (P.guar op) (P.post op) s.state
  /-- Operations that run together have compatible locks. -/
  fenced : ∀ i j op op' rest rest', i ≠ j → s.sessions i = .running op rest →
    s.sessions j = .running op' rest' → Compatible (C.fences op) (C.fences op') = true
  fresh : ∀ i, s.opened ≤ i → s.sessions i = .idle

variable {P}

theorem compatible_symm {fs fs' : List (K × FenceMode)} (h : Compatible fs fs' = true) :
    Compatible fs' fs = true := by
  simp only [Compatible, List.all_eq_true, Bool.or_eq_true, Bool.and_eq_true] at h ⊢
  intro f' hf' f hf
  rcases h f hf f' hf' with hne | ⟨hshared, hshared'⟩
  · exact .inl (decide_eq_true fun heq => of_decide_eq_true hne heq.symm)
  · exact .inr ⟨hshared', hshared⟩

theorem holds_init {d : D} (hd : P.inv d) : P.Holds (Sys.init C d) where
  inv := hd
  running := by
    intro i op rest hrun
    exact absurd hrun (by simp [Sys.init])
  fenced := by
    intro i j op op' rest rest' _ hrun
    exact absurd hrun (by simp [Sys.init])
  fresh _ _ := rfl

variable {s : Sys C} {op : C.Op}
variable {i : Nat}

variable {rest : D → Routine D ε α}

/-- Every step of a running operation is one that its contract guarantees. -/
theorem guarantees (h : P.Holds s) {update : D → D}
    (hrun : s.sessions i = .running op (.step update rest)) : P.guar op s.state (update s.state) :=
  (h.running i op _ hrun s.state (P.rely_refl op s.state)).1

/-- A move keeps the invariant and what the others rely on, and what it leaves running
has free locks and is as its contract says. -/
theorem Holds.moves (h : P.Holds s) {t : Session C} {d : D} (hmoves : Moves s i t d) :
    P.inv d ∧
      (∀ op rest, t = .running op rest → rest.wp (P.rely op) (P.guar op) (P.post op) d ∧
        ∀ j op' rest', j ≠ i → s.sessions j = .running op' rest' →
          Compatible (C.fences op) (C.fences op') = true) ∧
      ∀ j op rest, j ≠ i → s.sessions j = .running op rest →
        rest.wp (P.rely op) (P.guar op) (P.post op) d := by
  cases hmoves with
  | start hfree =>
    refine ⟨h.inv, fun op rest ht => ?_, fun j op rest _ => h.running j op rest⟩
    cases ht
    refine ⟨P.body _ _ h.inv, fun j op' rest' _ hj => ?_⟩
    have hlt : j < s.opened := by
      by_contra hge
      rw [h.fresh j (Nat.le_of_not_lt hge)] at hj
      exact absurd hj (by simp)
    have hadmits := List.all_eq_true.mp hfree j (List.mem_range.mpr hlt)
    rwa [hj] at hadmits
  | step hrun =>
    have hguar := guarantees h hrun
    refine ⟨P.keeps_inv _ _ _ h.inv hguar, fun op rest ht => ?_, fun j op rest hji hj => ?_⟩
    · cases ht
      exact ⟨(h.running i _ _ hrun s.state (P.rely_refl _ s.state)).2, fun j op' rest' hji =>
        h.fenced i j _ op' _ rest' (Ne.symm hji) hrun⟩
    · have hcompat := h.fenced i j _ op _ rest (Ne.symm hji) hrun hj
      have hrely := P.tolerates _ op hcompat _ _ h.inv hguar
      exact Routine.wp_stable (P.rely_trans op) hrely (h.running j op rest hj)
  | answer hrun => exact ⟨h.inv, nofun, fun j op rest _ => h.running j op rest⟩
  | stop hrun ht =>
    refine ⟨h.inv, ?_, fun j op rest _ => h.running j op rest⟩
    rcases ht with rfl | ⟨e, rfl⟩ <;> exact nofun

/-- Every action keeps what the contract says. -/
theorem Holds.next {s' : Sys C} {a : Action C} (h : P.Holds s)
    (hnext : Service.next s a = some s') : P.Holds s' := by
  obtain ⟨i, t, d, hmoves, hsessions, rfl, hopened, hidle⟩ := next_moves hnext
  obtain ⟨hinv, hself, hothers⟩ := h.moves hmoves
  -- Whatever runs afterwards is what the step left, or ran before.
  have hold : ∀ j op rest, s'.sessions j = .running op rest →
      (j = i ∧ t = .running op rest) ∨ (j ≠ i ∧ s.sessions j = .running op rest) := by
    intro j op rest hj
    rw [hsessions, Function.update_apply] at hj
    split at hj
    · exact .inl ⟨‹_›, hj⟩
    · exact .inr ⟨‹_›, hj⟩
  refine ⟨hinv, ?_, ?_, ?_⟩
  · intro j op rest hj
    rcases hold j op rest hj with ⟨-, ht⟩ | ⟨hji, hj⟩
    · exact (hself op rest ht).1
    · exact hothers j op rest hji hj
  · intro j k op op' rest rest' hjk hj hk
    rcases hold j op rest hj with ⟨rfl, ht⟩ | ⟨hji, hj⟩
    · rcases hold k op' rest' hk with ⟨rfl, -⟩ | ⟨hki, hk⟩
      · exact absurd rfl hjk
      · exact (hself op rest ht).2 k op' rest' hki hk
    · rcases hold k op' rest' hk with ⟨rfl, ht⟩ | ⟨-, hk⟩
      · exact compatible_symm ((hself op' rest' ht).2 j op rest hji hj)
      · exact h.fenced j k op op' rest rest' hjk hj hk
  · intro j hj
    have hfresh := h.fresh j (Nat.le_trans hopened hj)
    have hji : j ≠ i := by
      rintro rfl
      exact Nat.not_lt.mpr hj (hidle hfresh)
    rw [hsessions, Function.update_of_ne hji, hfresh]

/-- In every reachable state the invariant holds and every running operation is
as its contract says. -/
theorem sound {d : D} (hd : P.inv d) {as : List (Action C)}
    (hrun : Service.run (Sys.init C d) as = some s) : P.Holds s :=
  run_induction (fun _ _ _ h hnext => h.next hnext) hrun (holds_init hd)

end Contract

-- Proofs about operations go through the rules above and never compute the transformer.
attribute [irreducible] Routine.wp

end PowerManage.Relational
