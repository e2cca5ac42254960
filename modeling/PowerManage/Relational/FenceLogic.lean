import Mathlib.Logic.Relation
import PowerManage.Relational.Routines

/-!
# A logic for fenced routines

An operation's steps are described once, by the changes that it guarantees.  What
it may rely on follows: any sequence of changes that operations with compatible
locks guarantee.  Assertions between two steps have to be stable under those
changes; a triple strings such assertions together.

Main results:

- `Guarantees.sound`: with a triple for every operation, every
  reachable state satisfies the invariant.
- `Guarantees.next_guar`: every step of the machine that changes the
  state is a change that some operation guarantees.
- `Guarantees.ended`: what a finished operation established lasts.
- `Guarantees.resumed`: the same for what can be shown of an operation
  from some state of its run on.
-/

namespace PowerManage.Relational

open Service

/-- The invariant of a service and the changes that its operations make. -/
structure Guarantees {D K ε α : Type} [DecidableEq K] (C : Service D K ε α) where
  inv : D → Prop
  guar : C.Op → D → D → Prop
  guar_refl : ∀ op d, guar op d d
  keeps_inv : ∀ op d d', inv d → guar op d d' → inv d'

namespace Guarantees

variable {D K ε α β γ : Type} [DecidableEq K] {C : Service D K ε α} (G : Guarantees C)

/-- The changes that may happen while an operation runs. -/
def rely (op : C.Op) : D → D → Prop :=
  Relation.ReflTransGen fun d d' =>
    G.inv d ∧ ∃ op', Compatible (C.fences op') (C.fences op) = true ∧ G.guar op' d d'

/-- The assertion survives what may happen while an operation runs. -/
def Stable (op : C.Op) (A : D → Prop) : Prop :=
  ∀ op' d d', Compatible (C.fences op') (C.fences op) = true → G.inv d → A d →
    G.guar op' d d' → A d'

/-- The assertion survives every change. -/
def Lasting (A : D → Prop) : Prop :=
  ∀ op d d', G.inv d → A d → G.guar op d d' → A d'

variable {G} {op : C.Op} {A A' : D → Prop} {B B' : β → D → Prop} {d d' : D}

theorem Stable.rely (h : G.Stable op A) (hrely : G.rely op d d') (hA : A d) : A d' := by
  induction hrely with
  | refl => exact hA
  | tail _ hstep ih =>
    obtain ⟨hinv, op', hcompat, hguar⟩ := hstep
    exact h op' _ _ hcompat hinv ih hguar

theorem inv_stable : G.Stable op G.inv := by
  intro op' d d' _ hinv _ hguar
  exact G.keeps_inv op' d d' hinv hguar

theorem Lasting.stable (h : G.Lasting A) : G.Stable op A :=
  fun op' d d' _ hinv hA hguar => h op' d d' hinv hA hguar

theorem stable_pure (p : Prop) : G.Stable op fun _ => p :=
  fun _ _ _ _ _ hp _ => hp

theorem Stable.imp (p : Prop) (h : G.Stable op A) : G.Stable op fun d => p → A d :=
  fun op' d d' hcompat hinv hA hguar hp => h op' d d' hcompat hinv (hA hp) hguar

theorem Stable.and (h : G.Stable op A) (h' : G.Stable op A') : G.Stable op fun d => A d ∧ A' d :=
  fun op' d d' hcompat hinv hA hguar =>
    ⟨h op' d d' hcompat hinv hA.1 hguar, h' op' d d' hcompat hinv hA.2 hguar⟩

/-! ## Triples -/

variable (G) in
/-- From states with `A`, next to compatible operations, a part of an
operation makes guaranteed changes only and ends with `B` or an error. -/
def Triple (op : C.Op) (A : D → Prop) (p : Routine D ε β) (B : β → D → Prop) : Prop :=
  ∀ d, G.inv d → A d → p.wp (G.rely op) (G.guar op)
    (fun r d => G.inv d ∧ ∀ b, r = .ok b → B b d) d

namespace Triple

variable {p : Routine D ε β} {f : β → Routine D ε γ} {E : γ → D → Prop}

theorem ret {b : β} (hA : G.Stable op A) (h : ∀ d, G.inv d → A d → B b d) :
    G.Triple op A (.ret b) B := by
  intro d hinv hd
  refine Routine.wp_ret_iff.mpr fun d' hrely => ?_
  have hinv' := inv_stable.rely hrely hinv
  refine ⟨hinv', fun b' hb => ?_⟩
  rw [← Except.ok.inj hb]
  exact h d' hinv' (hA.rely hrely hd)

theorem bind (h : G.Triple op A p B) (hf : ∀ b, G.Triple op (B b) (f b) E) :
    G.Triple op A (p.bind f) E := by
  intro d hinv hd
  refine Routine.wp_bind (fun _ => Relation.ReflTransGen.refl) (Routine.wp_mono ?_ (h d hinv hd))
  intro r d' hr
  cases r with
  | ok b => exact hf b d' hr.1 (hr.2 b rfl)
  | error e => exact ⟨hr.1, fun c hc => by cases hc⟩

theorem conseq (h : G.Triple op A' p B') (hA : ∀ d, G.inv d → A d → A' d)
    (hB : ∀ b d, G.inv d → B' b d → B b d) : G.Triple op A p B := by
  intro d hinv hd
  refine Routine.wp_mono ?_ (h d hinv (hA d hinv hd))
  intro r d' hr
  exact ⟨hr.1, fun b hb => hB b d' hr.1 (hr.2 b hb)⟩

theorem atomic {act : D → Except ε (β × D)} (hA : G.Stable op A) (hB : ∀ b, G.Stable op (B b))
    (h : ∀ d b d', G.inv d → A d → act d = .ok (b, d') → G.guar op d d' ∧ B b d') :
    G.Triple op A (.atomic act) B := by
  intro d hinv hd
  apply Routine.wp_atomic
  · intro d₁ hrely b d₂ hact
    have hinv₁ := inv_stable.rely hrely hinv
    obtain ⟨hguar, hb⟩ := h d₁ b d₂ hinv₁ (hA.rely hrely hd) hact
    refine ⟨hguar, fun d₃ hrely' => ⟨?_, fun b' hb' => ?_⟩⟩
    · exact inv_stable.rely hrely' (G.keeps_inv op d₁ d₂ hinv₁ hguar)
    · rw [← Except.ok.inj hb']
      exact (hB b).rely hrely' hb
  · intro d₁ hrely e _
    refine ⟨G.guar_refl op d₁, fun d₃ hrely' => ⟨?_, fun b hb => by cases hb⟩⟩
    exact inv_stable.rely hrely' (inv_stable.rely hrely hinv)

/-- The rule for one atomic step whose failure is an answer. -/
theorem attempt {ε' : Type} {act : D → Except ε' (β × D)} {B : Except ε' β → D → Prop}
    (hA : G.Stable op A) (hB : ∀ r, G.Stable op (B r))
    (hok : ∀ d b d', G.inv d → A d → act d = .ok (b, d') → G.guar op d d' ∧ B (.ok b) d')
    (herror : ∀ d e, G.inv d → A d → act d = .error e → B (.error e) d) :
    G.Triple op A (.attempt act) B := by
  refine atomic hA hB ?_
  intro d r d' hinv hd hact
  cases h : act d with
  | ok p =>
    obtain ⟨b, d₁⟩ := p
    simp [h] at hact
    obtain ⟨rfl, rfl⟩ := hact
    exact hok d b d₁ hinv hd h
  | error e =>
    simp [h] at hact
    obtain ⟨rfl, rfl⟩ := hact
    exact ⟨G.guar_refl op d, herror d e hinv hd h⟩

end Triple

/-! ## Soundness -/

section soundness

variable {post : C.Op → α → D → Prop}

variable (G) in
/-- Triples for all operations make a contract. -/
def contract (post : C.Op → α → D → Prop)
    (body : ∀ op, G.Triple op (fun _ => True) (C.body op) (post op)) : Contract C where
  inv := G.inv
  rely := G.rely
  guar := G.guar
  post op r d := G.inv d ∧ ∀ a, r = .ok a → post op a d
  rely_refl _ _ := Relation.ReflTransGen.refl
  rely_trans _ _ _ _ h h' := h.trans h'
  keeps_inv := G.keeps_inv
  tolerates op _ hcompat _ _ hinv hguar :=
    Relation.ReflTransGen.single ⟨hinv, op, hcompat, hguar⟩
  body op d hinv := body op d hinv trivial

variable {body : ∀ op, G.Triple op (fun _ => True) (C.body op) (post op)}
variable {as : List (Action C)} {s s' : Sys C}

/-- In every reachable state the invariant holds. -/
theorem sound (hd : G.inv d) (hrun : Service.run (Sys.init C d) as = some s) :
    (G.contract post body).Holds s :=
  Contract.sound (P := G.contract post body) hd hrun

variable {a : Action C} {i : Nat}

/-- A step leaves the state alone or makes a change that some operation guarantees. -/
theorem next_guar (h : (G.contract post body).Holds s) (hnext : Service.next s a = some s') :
    s'.state = s.state ∨ ∃ op, G.guar op s.state s'.state := by
  obtain ⟨i, t, d, hmoves, -, hstate, -⟩ := next_moves hnext
  rw [hstate]
  cases hmoves with
  | step hrun => exact .inr ⟨_, Contract.guarantees h hrun⟩
  | _ => exact .inl rfl

variable {answer : α}

/-- A session that has just ended is the one that stepped to its answer. -/
theorem ended_cases (hnext : Service.next s a = some s') {op : C.Op}
    (hended : s'.sessions i = .ended op (.ok answer)) :
    s.sessions i = .ended op (.ok answer) ∨
      s.sessions i = .running op (.ret answer) ∧ s'.state = s.state := by
  obtain ⟨j, t, d, hmoves, hsessions, hstate, -⟩ := next_moves hnext
  rw [hsessions, Function.update_apply] at hended
  split at hended
  · rename_i hi
    subst hi
    cases hmoves with
    | start hfree => cases hended
    | step hrun => cases hended
    | answer hrun =>
      cases hended
      exact .inr ⟨hrun, hstate⟩
    | stop hrun ht => rcases ht with rfl | ⟨e, rfl⟩ <;> cases hended
  · exact .inl hended

/-- A running session has just started, was disturbed by compatible operations at
most, or has itself stepped. -/
theorem running_cases (h : (G.contract post body).Holds s) (hnext : Service.next s a = some s')
    {rest : Routine D ε α} (hrunning : s'.sessions i = .running op rest) :
    s.sessions i = .idle ∨
      (s.sessions i = .running op rest ∧ G.rely op s.state s'.state) ∨
      ∃ update next, s.sessions i = .running op (.step update next) ∧
        rest = next s.state ∧ s'.state = update s.state := by
  obtain ⟨j, t, d, hmoves, hsessions, hstate, -⟩ := next_moves hnext
  rw [hsessions, Function.update_apply] at hrunning
  rw [hstate]
  split at hrunning
  · rename_i hi
    subst hi
    cases hmoves with
    | start hfree => exact .inl (h.fresh _ (Nat.le_refl _))
    | step hrun =>
      cases hrunning
      exact .inr (.inr ⟨_, _, hrun, rfl, rfl⟩)
    | answer hrun => cases hrunning
    | stop hrun ht => rcases ht with rfl | ⟨e, rfl⟩ <;> cases hrunning
  · rename_i hi
    refine .inr (.inl ⟨hrunning, ?_⟩)
    cases hmoves with
    | step hrun =>
      have hcompat := h.fenced j i _ op _ rest (Ne.symm hi) hrun hrunning
      exact Relation.ReflTransGen.single ⟨h.inv, _, hcompat, Contract.guarantees h hrun⟩
    | _ => exact Relation.ReflTransGen.refl

theorem open_next (hnext : Service.next s a = some s') (hopen : s.sessions i ≠ .idle) :
    s'.sessions i ≠ .idle := by
  obtain ⟨j, t, d, hmoves, hsessions, -⟩ := next_moves hnext
  rw [hsessions, Function.update_apply]
  split
  · cases hmoves with
    | stop hrun ht => rcases ht with rfl | ⟨e, rfl⟩ <;> exact nofun
    | _ => exact nofun
  · exact hopen

/-- What an operation established when it answered still holds. -/
theorem ended (hlasting : ∀ op a, G.Lasting (post op a)) (hd : G.inv d)
    (body : ∀ op, G.Triple op (fun _ => True) (C.body op) (post op))
    (hrun : Service.run (Sys.init C d) as = some s) {op : C.Op}
    (hended : s.sessions i = .ended op (.ok answer)) : post op answer s.state := by
  let holds (s : Sys C) : Prop := (G.contract post body).Holds s ∧
    ∀ i op answer, s.sessions i = .ended op (.ok answer) → post op answer s.state
  have hstep : ∀ s a s', holds s → Service.next s a = some s' → holds s' := by
    intro s a s' hs hnext
    refine ⟨hs.1.next hnext, fun i op answer hended => ?_⟩
    rcases ended_cases hnext hended with hbefore | ⟨hret, hstate⟩
    · have hpost := hs.2 i op answer hbefore
      rcases next_guar hs.1 hnext with hsame | ⟨op', hguar⟩
      · rwa [hsame]
      · exact hlasting op answer op' _ _ hs.1.inv hpost hguar
    · rw [hstate]
      have hwp := hs.1.running i op _ hret
      exact (Routine.wp_ret_iff.mp hwp s.state Relation.ReflTransGen.refl).2 answer rfl
  have hinit : holds (Sys.init C d) :=
    ⟨Contract.holds_init (P := G.contract post body) hd, fun i op answer h => by
      simp [Sys.init] at h⟩
  exact (run_induction hstep hrun hinit).2 i op answer hended

/-- What the rest of a running operation is shown to establish holds once it has
answered, and lasts. -/
theorem resumed {B : α → D → Prop} (hlasting : ∀ a, G.Lasting (B a))
    (hs : (G.contract post body).Holds s) {rest : Routine D ε α}
    (hrunning : s.sessions i = .running op rest)
    (hrest : rest.wp (G.rely op) (G.guar op) (fun r d => G.inv d ∧ ∀ a, r = .ok a → B a d) s.state)
    (hrun : Service.run s as = some s') {op' : C.Op}
    (hended : s'.sessions i = .ended op' (.ok answer)) : B answer s'.state := by
  -- The session is still running towards its answer, has given it, or was cut off.
  let holds (s : Sys C) : Prop := (G.contract post body).Holds s ∧
    (∀ op' rest, s.sessions i = .running op' rest → op' = op ∧ rest.wp (G.rely op) (G.guar op)
      (fun r d => G.inv d ∧ ∀ a, r = .ok a → B a d) s.state) ∧
    (∀ op' answer, s.sessions i = .ended op' (.ok answer) → B answer s.state) ∧
    s.sessions i ≠ .idle
  have hstep : ∀ s a s', holds s → Service.next s a = some s' → holds s' := by
    intro s a s' ⟨hholds, hrunning, hended, hopen⟩ hnext
    have hholds' := hholds.next hnext
    refine ⟨hholds', ?_, ?_, ?_⟩
    · intro op' rest' hrun'
      rcases running_cases hholds hnext hrun' with
        hidle | ⟨hbefore, hrely⟩ | ⟨update, next, hbefore, rfl, hstate⟩
      · exact absurd hidle hopen
      · obtain ⟨rfl, hwp⟩ := hrunning op' rest' hbefore
        exact ⟨rfl, Routine.wp_stable (fun _ _ _ h h' => h.trans h') hrely hwp⟩
      · obtain ⟨rfl, hwp⟩ := hrunning op' _ hbefore
        rw [hstate]
        exact ⟨rfl, (Routine.wp_step_iff.mp hwp s.state Relation.ReflTransGen.refl).2⟩
    · intro op' answer hended'
      rcases ended_cases hnext hended' with hbefore | ⟨hret, hstate⟩
      · have hB := hended op' answer hbefore
        rcases next_guar hholds hnext with hsame | ⟨op'', hguar⟩
        · rwa [hsame]
        · exact hlasting answer op'' _ _ hholds.inv hB hguar
      · rw [hstate]
        have hwp := (hrunning op' _ hret).2
        exact (Routine.wp_ret_iff.mp hwp s.state Relation.ReflTransGen.refl).2 answer rfl
    · exact open_next hnext hopen
  have hinit : holds s := by
    refine ⟨hs, ?_, ?_, ?_⟩
    · intro op' rest' h
      rw [hrunning, Session.running.injEq] at h
      obtain ⟨rfl, rfl⟩ := h
      exact ⟨rfl, hrest⟩
    · intro op' answer h
      rw [hrunning] at h
      cases h
    · rw [hrunning]
      exact fun h => by cases h
  exact (run_induction hstep hrun hinit).2.2.1 op' answer hended

end soundness

end Guarantees
end PowerManage.Relational
