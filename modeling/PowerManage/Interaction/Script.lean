import Mathlib.Logic.Basic

/-!
# Programs that ask their environment

A script asks questions, such as reading a file or calling a server, and goes on
with each answer.  An environment says which answers it may give and how its
state changes.  A process runs scripts side by side, except those that a lock keeps
apart, and may stop in the middle of them.

Main results:

- `Script.Safe.bind`: the rule of sequence.
- `Reaches.invariant`: an invariant of all scripts holds in every
  state of a process whose calls do not overlap, wherever it stops.
-/

namespace PowerManage.Interaction

/-- A program over questions `Q`, whose answers have the types `A`. -/
inductive Script (Q : Type) (A : Q → Type) (ε α : Type) : Type where
  | ret (a : α)
  | fail (e : ε)
  | ask (q : Q) (next : A q → Script Q A ε α)

variable {Q : Type} {A : Q → Type} {ε α β σ : Type}

namespace Script

/-- Sequence; a failure ends the script. -/
def bind : Script Q A ε α → (α → Script Q A ε β) → Script Q A ε β
  | ret a, f => f a
  | fail e, _ => fail e
  | ask q next, f => ask q fun a => (next a).bind f

instance : Monad (Script Q A ε) where
  pure := ret
  bind := bind

/-- Ask one question. -/
def query (q : Q) : Script Q A ε (A q) :=
  ask q ret

/-- The outcome of a computation that asks nothing. -/
def ofExcept : Except ε α → Script Q A ε α
  | .ok a => ret a
  | .error e => fail e

/-- Fail unless a check passes. -/
def require (ok : Bool) (e : ε) : Script Q A ε Unit :=
  if ok then ret () else fail e

/-- Answer one question, or fail with what the answer's error becomes. -/
def asking {ε' : Type} (context : ε' → ε) (q : Q) (read : A q → Except ε' α) : Script Q A ε α :=
  ask q fun a =>
    match read a with
    | .ok b => ret b
    | .error e => fail (context e)

/-! ## Runs with a fixed environment -/

/-- Run a script with an environment that answers in one way. -/
def run (answer : (q : Q) → σ → A q × σ) : Script Q A ε α → σ → Except ε α × σ
  | ret a, s => (.ok a, s)
  | fail e, s => (.error e, s)
  | ask q next, s => (next (answer q s).1).run answer (answer q s).2

/-! ## Every answer of an environment -/

/-- The answers that an environment may give in a state, and the states they leave. -/
abbrev Env (Q : Type) (A : Q → Type) (σ : Type) : Type :=
  (q : Q) → σ → A q → σ → Prop

/-- Whatever the environment answers, every state during the script satisfies
`inv`, and a result satisfies `post`. -/
def Safe (env : Env Q A σ) (inv : σ → Prop) (post : α → σ → Prop) : Script Q A ε α → σ → Prop
  | ret a, s => post a s
  | fail _, _ => True
  | ask q next, s => ∀ a s', env q s a s' → inv s' ∧ (next a).Safe env inv post s'

variable {env : Env Q A σ} {inv : σ → Prop} {post : α → σ → Prop}

namespace Safe

variable {s : σ}

theorem fail {e : ε} : (Script.fail e : Script Q A ε α).Safe env inv post s :=
  trivial

theorem mono {post' : α → σ → Prop} {p : Script Q A ε α} (h : p.Safe env inv post s)
    (hpost : ∀ a s, post a s → post' a s) : p.Safe env inv post' s := by
  induction p generalizing s with
  | ret a => exact hpost _ _ h
  | fail e => exact trivial
  | ask q next ih =>
    intro a s' hanswer
    obtain ⟨hinv, hnext⟩ := h a s' hanswer
    exact ⟨hinv, ih a hnext⟩

/-- The rule of sequence. -/
theorem bind {p : Script Q A ε α} {f : α → Script Q A ε β} {post : β → σ → Prop}
    (h : p.Safe env inv (fun a s => (f a).Safe env inv post s) s) :
    (p.bind f).Safe env inv post s := by
  induction p generalizing s with
  | ret a => exact h
  | fail e => exact trivial
  | ask q next ih =>
    intro a s' hanswer
    obtain ⟨hinv, hnext⟩ := h a s' hanswer
    exact ⟨hinv, ih a hnext⟩

theorem query {q : Q} {post : A q → σ → Prop} (h : ∀ a s', env q s a s' → inv s' ∧ post a s') :
    (Script.query q : Script Q A ε (A q)).Safe env inv post s :=
  h

theorem ofExcept {r : Except ε α} (h : ∀ a, r = .ok a → post a s) :
    (Script.ofExcept r : Script Q A ε α).Safe env inv post s := by
  cases r with
  | ok a => exact h a rfl
  | error e => exact trivial

theorem require {ok : Bool} {e : ε} {post : Unit → σ → Prop} (h : ok = true → post () s) :
    (Script.require ok e : Script Q A ε Unit).Safe env inv post s := by
  cases ok with
  | true => exact h rfl
  | false => exact trivial

theorem asking {ε' : Type} {context : ε' → ε} {q : Q} {read : A q → Except ε' α}
    (h : ∀ a s', env q s a s' → inv s' ∧ ∀ b, read a = .ok b → post b s') :
    (Script.asking context q read : Script Q A ε α).Safe env inv post s := by
  intro a s' hanswer
  obtain ⟨hinv, hpost⟩ := h a s' hanswer
  refine ⟨hinv, ?_⟩
  cases hread : read a with
  | ok b =>
    simp only [hread]
    exact hpost b hread
  | error e =>
    simp only [hread]
    exact trivial

/-- What holds of every result holds of that of a run with allowed answers. -/
theorem run {answer : (q : Q) → σ → A q × σ}
    (hanswer : ∀ q s, env q s (answer q s).1 (answer q s).2) {p : Script Q A ε α}
    (h : p.Safe env inv post s) {a : α} {s' : σ}
    (hrun : p.run answer s = (.ok a, s')) : post a s' := by
  induction p generalizing s with
  | ret b =>
    cases hrun
    exact h
  | fail e => cases hrun
  | ask q next ih => exact ih _ (h _ _ (hanswer q s)).2 hrun

end Safe

/-- Some answers of the environment make the script fail with `e`. -/
def Fails (env : Env Q A σ) (e : ε) : Script Q A ε α → σ → Prop
  | ret _, _ => False
  | fail e', _ => e' = e
  | ask q next, s => ∃ a s', env q s a s' ∧ (next a).Fails env e s'

namespace Fails

variable {s : σ} {e : ε}

/-- A sequence fails in its first part, or in the second one after a result of the first. -/
theorem of_bind {p : Script Q A ε α} {f : α → Script Q A ε β} (hsafe : p.Safe env inv post s)
    (h : (p.bind f).Fails env e s) :
    p.Fails env e s ∨ ∃ a s', post a s' ∧ (f a).Fails env e s' := by
  induction p generalizing s with
  | ret a => exact .inr ⟨a, s, hsafe, h⟩
  | fail e' => exact .inl h
  | ask q next ih =>
    obtain ⟨a, s', henv, h⟩ := h
    rcases ih a (hsafe a s' henv).2 h with h | h
    · exact .inl ⟨a, s', henv, h⟩
    · exact .inr h

/-- A question fails with errors of its own only. -/
theorem asking {ε' : Type} {context : ε' → ε} {q : Q} {read : A q → Except ε' α}
    (h : (Script.asking context q read).Fails env e s) : ∃ e', context e' = e := by
  obtain ⟨a, s', -, h⟩ := h
  dsimp only at h
  split at h
  · cases h
  · exact ⟨_, h⟩

/-- After a question with other errors it is the rest that fails. -/
theorem of_asking {ε' : Type} {context : ε' → ε} {q : Q} {read : A q → Except ε' α}
    {f : α → Script Q A ε β} (hne : ∀ e', context e' ≠ e)
    (h : ((Script.asking context q read).bind f).Fails env e s) :
    ∃ a b s', env q s a s' ∧ read a = .ok b ∧ (f b).Fails env e s' := by
  obtain ⟨a, s', henv, h⟩ := h
  dsimp only at h
  split at h
  · rename_i b hread
    exact ⟨a, b, s', henv, hread, h⟩
  · exact absurd h (hne _)

end Fails

end Script

/-! ## Processes -/

/-- The operations of a process, which of them a lock keeps apart, and what a crash does
to the state. -/
structure Process (Q : Type) (A : Q → Type) (ε σ : Type) where
  Op : Type
  body : Op → Script Q A ε Unit
  excludes : Op → Op → Prop
  crash : σ → σ

/-- The state, and what is left of each operation in progress. -/
structure Sys (P : Process Q A ε σ) where
  shared : σ
  running : List (P.Op × Script Q A ε Unit)

section process

variable (P : Process Q A ε σ) (env : Script.Env Q A σ) (mayCrash : σ → Prop)
variable (allowed : Sys P → Prop)

/-- One step: an operation begins, an answer arrives, an operation ends, or the
process crashes where it may. -/
inductive Step : Sys P → Sys P → Prop where
  | start {s : σ} {running : List (P.Op × Script Q A ε Unit)} (op : P.Op)
      (h : ∀ call ∈ running, ¬ P.excludes op call.1) :
      Step ⟨s, running⟩ ⟨s, (op, P.body op) :: running⟩
  | answer {s s' : σ} {l r : List (P.Op × Script Q A ε Unit)} {op : P.Op} {q : Q}
      {next : A q → Script Q A ε Unit} {a : A q} (h : env q s a s') :
      Step ⟨s, l ++ (op, .ask q next) :: r⟩ ⟨s', l ++ (op, next a) :: r⟩
  | returned {s : σ} {l r : List (P.Op × Script Q A ε Unit)} (op : P.Op) (u : Unit) :
      Step ⟨s, l ++ (op, .ret u) :: r⟩ ⟨s, l ++ r⟩
  | failed {s : σ} {l r : List (P.Op × Script Q A ε Unit)} (op : P.Op) (e : ε) :
      Step ⟨s, l ++ (op, .fail e) :: r⟩ ⟨s, l ++ r⟩
  | crash {s : σ} (running : List (P.Op × Script Q A ε Unit)) (h : mayCrash s) :
      Step ⟨s, running⟩ ⟨P.crash s, []⟩

/-- Any number of steps through allowed states. -/
inductive Reaches (m : Sys P) : Sys P → Prop where
  | refl : Reaches m m
  | step {m₁ m₂ : Sys P} : Reaches m m₁ → Step P env mayCrash m₁ m₂ → allowed m₂ → Reaches m m₂

variable {P env mayCrash allowed}

/-- No two operations in progress exclude each other. -/
def Sys.Apart (m : Sys P) : Prop :=
  m.running.Pairwise fun call call' => ¬ P.excludes call.1 call'.1

theorem sublist_without {α : Type} (before after : List α) (a : α) :
    (before ++ after).Sublist (before ++ a :: after) :=
  (List.Sublist.refl before).append (List.sublist_cons_self a after)

theorem Step.apart {m m' : Sys P} (h : Step P env mayCrash m m') (hm : m.Apart) : m'.Apart := by
  unfold Sys.Apart at hm ⊢
  cases h with
  | start op hfree => exact List.pairwise_cons.mpr ⟨hfree, hm⟩
  | answer _ => simpa [List.pairwise_append] using hm
  | returned _ _ => exact hm.sublist (sublist_without ..)
  | failed _ _ => exact hm.sublist (sublist_without ..)
  | crash _ _ => exact List.Pairwise.nil

theorem Reaches.trans {m₁ m₂ m₃ : Sys P} (h : Reaches P env mayCrash allowed m₁ m₂)
    (h' : Reaches P env mayCrash allowed m₂ m₃) : Reaches P env mayCrash allowed m₁ m₃ := by
  induction h' with
  | refl => exact h
  | step _ hstep hallowed ih => exact ih.step hstep hallowed

/-- An invariant that every operation keeps throughout, and that crashes keep, holds in
every state reached if operations never overlap. -/
theorem Reaches.invariant {inv : σ → Prop}
    (hbody : ∀ op s, inv s → (P.body op).Safe env inv (fun _ _ => True) s)
    (hcrash : ∀ s, mayCrash s → inv s → inv (P.crash s))
    (hsingle : ∀ m, allowed m → m.Apart → m.running.length ≤ 1) {s : σ} (hs : inv s) {m : Sys P}
    (h : Reaches P env mayCrash allowed ⟨s, []⟩ m) :
    m.Apart ∧ inv m.shared ∧
      ∀ call ∈ m.running, call.2.Safe env inv (fun _ _ => True) m.shared := by
  induction h with
  | refl => exact ⟨List.Pairwise.nil, hs, by simp⟩
  | step _ hstep hallowed ih =>
    have hlength := hsingle _ hallowed (hstep.apart ih.1)
    refine ⟨hstep.apart ih.1, ?_⟩
    obtain ⟨-, hinv, hsafe⟩ := ih
    cases hstep with
    | @start s running op _ =>
      obtain rfl : running = [] := by simpa using hlength
      exact ⟨hinv, by simpa using hbody op s hinv⟩
    | @answer s s' before after op q next a hanswer =>
      obtain ⟨rfl, rfl⟩ : before = [] ∧ after = [] := by
        simp only [List.length_append, List.length_cons] at hlength
        exact ⟨List.length_eq_zero_iff.mp (by omega), List.length_eq_zero_iff.mp (by omega)⟩
      obtain ⟨hinv', hnext⟩ := hsafe (op, .ask q next) (List.mem_singleton_self _) a s' hanswer
      exact ⟨hinv', by simpa using hnext⟩
    | returned _ _ =>
      exact ⟨hinv, fun call hcall => hsafe call ((sublist_without ..).subset hcall)⟩
    | failed _ _ =>
      exact ⟨hinv, fun call hcall => hsafe call ((sublist_without ..).subset hcall)⟩
    | crash _ hmay => exact ⟨hcrash _ hmay hinv, by simp⟩

/-- A run with allowed answers is a sequence of steps of the process. -/
theorem Reaches.ofRun {answer : (q : Q) → σ → A q × σ}
    (hanswer : ∀ q s, env q s (answer q s).1 (answer q s).2)
    (hallowed : ∀ m, m.running.length ≤ 1 → allowed m) (op : P.Op) (s : σ) :
    Reaches P env mayCrash allowed ⟨s, []⟩ ⟨((P.body op).run answer s).2, []⟩ := by
  have hrun : ∀ (p : Script Q A ε Unit) (s : σ),
      Reaches P env mayCrash allowed ⟨s, [(op, p)]⟩ ⟨(p.run answer s).2, []⟩ := by
    intro p
    induction p with
    | ret u =>
      exact fun s => .step .refl (.returned (l := []) (r := []) op u)
        (hallowed _ (by simp))
    | fail e =>
      exact fun s => .step .refl (.failed (l := []) (r := []) op e)
        (hallowed _ (by simp))
    | ask q next ih =>
      intro s
      have hfirst : Reaches P env mayCrash allowed ⟨s, [(op, .ask q next)]⟩
          ⟨(answer q s).2, [(op, next (answer q s).1)]⟩ :=
        .step .refl (.answer (l := []) (r := []) (hanswer q s)) (hallowed _ (by simp))
      exact hfirst.trans (ih _ _)
  exact (Reaches.refl.step (.start op (by simp)) (hallowed _ (by simp))).trans (hrun _ s)

end process

end PowerManage.Interaction
