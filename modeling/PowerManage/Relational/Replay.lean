import Mathlib.Logic.Function.Basic
import Mathlib.Order.Lattice
import PowerManage.Relational.Locality

/-!
# Replaying a log stream by stream

A log interleaves the events of many streams; a replay visits the streams one
after another.  When every event is local to its own stream's share of the
tables, streams meet only in what their events demand: a condition on the
context, and keys that no other stream may hold.  During a replay the earlier
streams are complete and the later ones are empty, so an event fails exactly
when the context refuses it or a key it claims is one that an earlier stream
holds in the end.

Main results:

- `StreamLocal.replay_view`: a replay that succeeds leaves each
  stream's share as its own events leave it.
- `StreamLocal.replay_ok_iff`: when a replay succeeds.
-/

namespace PowerManage.Relational

open List

/-- Events that are local to their own stream's share.

Taken by itself, a stream runs its events on ideal databases, which hold its own
share and whatever the event demands. -/
structure StreamLocal (S E C L K D W Q ε : Type) [Applies W D] extends Shares S C L K D where
  stream : E → S
  /-- The events that the projection is specified for. -/
  owned : E → Prop
  project : E → Prog D W Q ε Unit
  demand : E → Demand C K
  /-- What every share of a stream looks like. -/
  WellFormed : S → L → Prop
  /-- Shares that no event tells apart. -/
  same : L → L → Prop
  empty : L
  ideal : E → L → D
  same_empty : same empty empty
  same_symm : ∀ l l', same l l' → same l' l
  same_holds : ∀ l l', same l l' → ∀ k, holds l k ↔ holds l' k
  empty_free : ∀ k, ¬ holds empty k
  wellFormed_view : ∀ d s, WellFormed s (view d s)
  wellFormed_empty : ∀ s, WellFormed s empty
  ideal_view : ∀ e l, owned e → WellFormed (stream e) l → view (ideal e l) (stream e) = l
  ideal_meets : ∀ e l, owned e → WellFormed (stream e) l →
    toShares.Meets (stream e) (demand e) (ideal e l)
  project_local : ∀ e, owned e → toShares.Local (stream e) same same (demand e) (project e)

namespace StreamLocal

variable {S E C L K D W Q ε : Type} [Applies W D] (M : StreamLocal S E C L K D W Q ε)

/-- Project a list of events in order. -/
def replay : List E → D → Except ε D
  | [], d => .ok d
  | e :: es, d => do
      let (_, d') ← (M.project e).run d
      replay es d'

/-- What an event makes of its own stream's share. -/
def step (l : L) (e : E) : Option L :=
  match (M.project e).run (M.ideal e l) with
  | .ok (_, d) => some (M.view d (M.stream e))
  | .error _ => none

/-- What one stream's events leave of it, taken by themselves. -/
def fold [DecidableEq S] (s : S) : List E → L → Option L
  | [], l => some l
  | e :: es, l => if M.stream e = s then (M.step l e).bind (fold s es) else fold s es l

variable {M}

/-! ## One event -/

variable {d d' : D} {before es : List E}
variable {e : E}

/-- What a projection leaves of its own stream is what its step leaves. -/
theorem project_step (howned : M.owned e) {l : L} (hwf : M.WellFormed (M.stream e) l)
    (hsame : M.same (M.view d (M.stream e)) l) (hrun : (M.project e).run d = .ok ((), d')) :
    ∃ l', M.step l e = some l' ∧ M.WellFormed (M.stream e) l' ∧
      M.same (M.view d' (M.stream e)) l' := by
  have hpre : M.same (M.view d (M.stream e)) (M.view (M.ideal e l) (M.stream e)) := by
    rwa [M.ideal_view e l howned hwf]
  obtain ⟨d₀', hrun₀, hpost⟩ :=
    (M.project_local e howned).simulates hpre (M.ideal_meets e l howned hwf) hrun
  exact ⟨_, by rw [step, hrun₀], M.wellFormed_view d₀' _, hpost⟩

/-- A projection succeeds when its own stream and its demand allow it. -/
theorem project_ok_iff (howned : M.owned e) {l : L} (hwf : M.WellFormed (M.stream e) l)
    (hsame : M.same (M.view d (M.stream e)) l) :
    (∃ d', (M.project e).run d = .ok ((), d')) ↔
      (∃ l', M.step l e = some l') ∧ M.Meets (M.stream e) (M.demand e) d := by
  constructor
  · rintro ⟨d', hrun⟩
    obtain ⟨l', hl', -, -⟩ := project_step howned hwf hsame hrun
    exact ⟨⟨l', hl'⟩, (M.project_local e howned).meets hrun⟩
  · rintro ⟨⟨l', hl'⟩, hmeets⟩
    cases hrun : (M.project e).run (M.ideal e l) with
    | error err => simp [step, hrun] at hl'
    | ok r =>
      have hpre : M.same (M.view (M.ideal e l) (M.stream e)) (M.view d (M.stream e)) := by
        rw [M.ideal_view e l howned hwf]
        exact M.same_symm _ _ hsame
      obtain ⟨d', hrun', -⟩ := (M.project_local e howned).simulates hpre hmeets hrun
      exact ⟨d', hrun'⟩

/-! ## One stream -/

variable [DecidableEq S]
variable {s : S}

theorem fold_append (es es' : List E) (l : L) :
    M.fold s (es ++ es') l = (M.fold s es l).bind (M.fold s es') := by
  induction es generalizing l with
  | nil => rfl
  | cons e es ih =>
    simp only [cons_append, fold]
    split
    · cases M.step l e with
      | none => rfl
      | some l' => exact ih l'
    · exact ih l

/-- A stream's share depends on its own events only. -/
theorem fold_filter (es : List E) (l : L) :
    M.fold s (es.filter fun e => M.stream e = s) l = M.fold s es l := by
  induction es generalizing l with
  | nil => rfl
  | cons e es ih =>
    by_cases hs : M.stream e = s
    · rw [filter_cons_of_pos (by simpa using hs), fold, fold, if_pos hs, if_pos hs]
      congr 1
      funext l'
      exact ih l'
    · rw [filter_cons_of_neg (by simpa using hs), fold, if_neg hs]
      exact ih l

/-- Events of other streams leave a stream alone. -/
theorem fold_of_forall_ne (h : ∀ e ∈ es, M.stream e ≠ s) (l : L) : M.fold s es l = some l := by
  rw [← fold_filter, filter_eq_nil_iff.mpr (by simpa using h)]
  rfl

/-! ## The states of a history -/

/-- A state that the events before it lead to: every stream is as far as its own
events take it. -/
structure Reached (M : StreamLocal S E C L K D W Q ε) (before : List E) (d : D) : Prop where
  view : ∀ s, ∃ l, M.fold s before M.empty = some l ∧ M.WellFormed s l ∧ M.same (M.view d s) l

theorem reached_nil (h : ∀ s, M.view d s = M.empty) : M.Reached [] d where
  view := by
    intro s
    refine ⟨M.empty, rfl, M.wellFormed_empty s, ?_⟩
    rw [h s]
    exact M.same_empty

/-- Two states that the same events lead to look the same to every event. -/
theorem Reached.agree (h : M.Reached before d) (h' : M.Reached before d') (s : S) :
    ∃ l, M.same (M.view d s) l ∧ M.same (M.view d' s) l := by
  obtain ⟨l, hfold, -, hsame⟩ := h.view s
  obtain ⟨l', hfold', -, hsame'⟩ := h'.view s
  obtain rfl : l = l' := Option.some.inj (hfold.symm.trans hfold')
  exact ⟨l, hsame, hsame'⟩

theorem Reached.next (h : M.Reached before d) (howned : M.owned e)
    (hrun : (M.project e).run d = .ok ((), d')) :
    M.Reached (before ++ [e]) d' where
  view := by
    intro s
    obtain ⟨l, hfold, hwf, hsame⟩ := h.view s
    rw [fold_append, hfold, Option.bind_some]
    by_cases hs : M.stream e = s
    · subst hs
      obtain ⟨l', hstep, hwf', hsame'⟩ := project_step howned hwf hsame hrun
      refine ⟨l', ?_, hwf', hsame'⟩
      rw [fold, if_pos rfl, hstep]
      rfl
    · refine ⟨l, ?_, hwf, ?_⟩
      · rw [fold, if_neg hs]
        rfl
      · rw [((M.project_local e howned).confined hrun).view_eq s (Ne.symm hs)]
        exact hsame

theorem Reached.replay (h : M.Reached before d) (howned : ∀ e ∈ es, M.owned e)
    (hreplay : M.replay es d = .ok d') : M.Reached (before ++ es) d' ∧ M.ctx d' = M.ctx d := by
  induction es generalizing before d with
  | nil =>
    simp only [StreamLocal.replay, Except.ok.injEq] at hreplay
    rw [append_nil, ← hreplay]
    exact ⟨h, rfl⟩
  | cons e es ih =>
    rw [StreamLocal.replay, bind_eq_ok] at hreplay
    obtain ⟨⟨_, d₁⟩, hrun, hrest⟩ := hreplay
    have hhead := howned e mem_cons_self
    obtain ⟨hdone, hctx⟩ := ih (h.next hhead hrun)
      (forall_mem_cons.mp howned).2 hrest
    rw [append_assoc, singleton_append] at hdone
    exact ⟨hdone, hctx.trans ((M.project_local e hhead).confined hrun).ctx_eq⟩

/-- A replay that succeeds leaves each stream as its own events leave it. -/
theorem replay_view (howned : ∀ e ∈ es, M.owned e) (hstart : ∀ s, M.view d s = M.empty)
    (hreplay : M.replay es d = .ok d') : M.Reached es d' ∧ M.ctx d' = M.ctx d :=
  (reached_nil hstart).replay howned hreplay

end StreamLocal

/-! ## Success of a replay -/

namespace StreamLocal

variable {S E C L K D W Q ε : Type} [Applies W D] {M : StreamLocal S E C L K D W Q ε}
variable [LinearOrder S]

variable {final : S → L}
variable {d : D}

/-- Whether one more event succeeds, in a replay that visits the streams in order. -/
theorem Reached.project_iff {before after : List E} {e : E} (h : M.Reached before d)
    (howned : M.owned e)
    (hsorted : (before ++ e :: after).Pairwise fun a b => M.stream a ≤ M.stream b)
    (hfinal : ∀ s, M.fold s (before ++ e :: after) M.empty = some (final s)) :
    (∃ d', (M.project e).run d = .ok ((), d')) ↔ (M.demand e).admits (M.ctx d) ∧
      ∀ k, (M.demand e).claims k → ∀ s, s < M.stream e → ¬ M.holds (final s) k := by
  obtain ⟨-, hafter, hbefore⟩ := pairwise_append.mp hsorted
  -- Earlier streams are complete.
  have hearlier : ∀ s, s < M.stream e → M.same (M.view d s) (final s) := by
    intro s hs
    have hnone : ∀ e' ∈ e :: after, M.stream e' ≠ s := by
      intro e' he'
      rcases mem_cons.mp he' with rfl | he'
      · exact hs.ne'
      · exact (hs.trans_le (rel_of_pairwise_cons hafter he')).ne'
    obtain ⟨l, hfold, -, hsame⟩ := h.view s
    have hdone := hfinal s
    rw [fold_append, hfold, Option.bind_some, fold_of_forall_ne hnone] at hdone
    rwa [← Option.some.inj hdone]
  -- Later streams have not begun.
  have hlater : ∀ s, M.stream e < s → M.same (M.view d s) M.empty := by
    intro s hs
    have hnone : ∀ e' ∈ before, M.stream e' ≠ s := fun e' he' =>
      ((hbefore e' he' e mem_cons_self).trans_lt hs).ne
    obtain ⟨l, hfold, -, hsame⟩ := h.view s
    rw [fold_of_forall_ne hnone] at hfold
    rwa [Option.some.inj hfold]
  -- The event's own step is one of its stream's own history.
  obtain ⟨l, hfold, hwf, hsame⟩ := h.view (M.stream e)
  have hstep : ∃ l', M.step l e = some l' := by
    have hdone := hfinal (M.stream e)
    rw [fold_append, hfold, Option.bind_some, fold, if_pos rfl] at hdone
    obtain ⟨l', hl', -⟩ := Option.bind_eq_some_iff.mp hdone
    exact ⟨l', hl'⟩
  rw [project_ok_iff howned hwf hsame]
  constructor
  · rintro ⟨-, hmeets⟩
    refine ⟨hmeets.admits, ?_⟩
    intro k hk s hs
    rw [← M.same_holds _ _ (hearlier s hs) k]
    exact hmeets.free k hk s hs.ne
  · rintro ⟨hadmits, hkeys⟩
    refine ⟨hstep, hadmits, ?_⟩
    intro k hk s hs
    rcases lt_or_gt_of_ne hs with hlt | hgt
    · rw [M.same_holds _ _ (hearlier s hlt) k]
      exact hkeys k hk s hlt
    · rw [M.same_holds _ _ (hlater s hgt) k]
      exact M.empty_free k

theorem Reached.replay_ok_iff {before es : List E} (h : M.Reached before d)
    (howned : ∀ e ∈ es, M.owned e)
    (hsorted : (before ++ es).Pairwise fun a b => M.stream a ≤ M.stream b)
    (hfinal : ∀ s, M.fold s (before ++ es) M.empty = some (final s)) :
    (∃ d', M.replay es d = .ok d') ↔ ∀ e ∈ es, (M.demand e).admits (M.ctx d) ∧
      ∀ k, (M.demand e).claims k → ∀ s, s < M.stream e → ¬ M.holds (final s) k := by
  induction es generalizing before d with
  | nil => simp [StreamLocal.replay]
  | cons e es ih =>
    have hhead := howned e mem_cons_self
    have hone := h.project_iff hhead hsorted hfinal
    have hrest : ∀ d₁, (M.project e).run d = .ok ((), d₁) → ((∃ d', M.replay es d₁ = .ok d') ↔
        ∀ e ∈ es, (M.demand e).admits (M.ctx d) ∧
          ∀ k, (M.demand e).claims k → ∀ s, s < M.stream e → ¬ M.holds (final s) k) := by
      intro d₁ hrun
      have hnext := h.next hhead hrun
      rw [← ((M.project_local e hhead).confined hrun).ctx_eq]
      refine ih hnext (forall_mem_cons.mp howned).2 ?_ ?_
      · rwa [append_assoc, singleton_append]
      · rwa [append_assoc, singleton_append]
    simp only [StreamLocal.replay, bind_eq_ok, Prod.exists, forall_mem_cons]
    constructor
    · rintro ⟨d', _, d₁, hrun, hreplay⟩
      exact ⟨hone.mp ⟨d₁, hrun⟩, (hrest d₁ hrun).mp ⟨d', hreplay⟩⟩
    · rintro ⟨hadmits, htail⟩
      obtain ⟨d₁, hrun⟩ := hone.mpr hadmits
      obtain ⟨d', hreplay⟩ := (hrest d₁ hrun).mpr htail
      exact ⟨d', (), d₁, hrun, hreplay⟩

/-- A replay in stream order succeeds exactly when the context admits every event
and no event claims a key that an earlier stream holds in the end. -/
theorem replay_ok_iff {es : List E} (howned : ∀ e ∈ es, M.owned e)
    (hstart : ∀ s, M.view d s = M.empty) (hsorted : es.Pairwise fun a b => M.stream a ≤ M.stream b)
    (hfinal : ∀ s, M.fold s es M.empty = some (final s)) :
    (∃ d', M.replay es d = .ok d') ↔ ∀ e ∈ es, (M.demand e).admits (M.ctx d) ∧
      ∀ k, (M.demand e).claims k → ∀ s, s < M.stream e → ¬ M.holds (final s) k :=
  (reached_nil hstart).replay_ok_iff howned hsorted hfinal

end StreamLocal
end PowerManage.Relational
