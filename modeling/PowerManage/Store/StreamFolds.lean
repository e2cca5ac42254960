import Mathlib.Data.List.Induction
import PowerManage.Store.RebuildLaws

/-!
# Targets whose streams keep the keys they claim

Where an event acts on its own stream's share as a partial function, and a stream
never gives up a key that it holds, a rebuild needs no look at the order of the
streams: a key that an event claims is held by its own stream in the end, so no
other stream ever held it.

Main results:

- `FoldModel.reached`: live shares are folds of their streams' events.
- `FoldModel.rebuild_restores`: a rebuild restores every share.
-/

namespace PowerManage.Store

open Relational

variable {B T W K : Type} [Applies W T]

/-- A registered target whose events are partial functions on shares. -/
structure FoldModel (R : Registry B T W K) (built : Event B → Prop) (S C L Q : Type)
    [DecidableEq S] extends Shares S C L Q (Database B T) where
  target : RebuildTarget B T
  registered : Registered R target
  stream : PersistedEvent B → S
  /-- The events that the projection is specified for. -/
  owned : PersistedEvent B → Prop
  key : S → String × String
  key_type : ∀ s, (key s).1 ∈ target.streamTypes
  stream_iff : ∀ e, owned e → ∀ s, stream e = s ↔ e.stream = key s
  owned_of_admissible : ∀ d e, Admissible R built d e → e.streamType ∈ target.streamTypes →
    owned e
  empty : L
  step : PersistedEvent B → L → Option L
  /-- What an event demands of the context and of the other shares. -/
  demand : PersistedEvent B → Demand C Q
  /-- What every share of a stream looks like. -/
  WellFormed : S → L → Prop
  wellFormed_empty : ∀ s, WellFormed s empty
  step_wellFormed : ∀ e l l', owned e → WellFormed (stream e) l → step e l = some l' →
    WellFormed (stream e) l'
  /-- Keys are kept, and a claimed key is held from its event on. -/
  step_holds : ∀ e l l', owned e → step e l = some l' → ∀ k, holds l k → holds l' k
  step_claims : ∀ e l l', owned e → WellFormed (stream e) l → step e l = some l' →
    ∀ k, (demand e).claims k → holds l' k
  live : ∀ e d d', owned e → (R.project false e).run d = .ok ((), d') →
    step e (view d (stream e)) = some (view d' (stream e)) ∧
      ∀ s, s ≠ stream e → view d' s = view d s
  replay : ∀ e d l, owned e → (∀ s, WellFormed s (view d s)) →
    step e (view d (stream e)) = some l → toShares.Meets (stream e) (demand e) d →
    ∃ d', (R.project true e).run d = .ok ((), d') ∧ view d' (stream e) = l ∧
      toShares.Confined (stream e) d d'
  foreign : ∀ d₀ e d d', Admissible R built d₀ e → e.streamType ∉ target.streamTypes →
    (R.project false e).run d = .ok ((), d') → ∀ s, view d' s = view d s
  view_events : ∀ (d : Database B T) es s, view { d with events := es } s = view d s
  reset_view : ∀ (d : Database B T) s, view { d with tables := target.reset d.tables } s = empty
  reset_ctx : ∀ (d : Database B T), ctx { d with tables := target.reset d.tables } = ctx d

namespace FoldModel

variable {R : Registry B T W K} {built : Event B → Prop} {S C L Q : Type} [DecidableEq S]
variable (M : FoldModel R built S C L Q)

/-- What one stream's events leave of an empty share. -/
def fold (s : S) (es : List (PersistedEvent B)) : Option L :=
  (es.filter fun e => M.stream e = s).foldlM (fun l e => M.step e l) M.empty

/-- The target's events, in commit order. -/
def rows (d : Database B T) : List (PersistedEvent B) :=
  d.events.filter fun e => M.target.streamTypes.contains e.streamType

variable {M} {t₀ : T} {d d' : Database B T}

/-! ## Folds -/

section folds

variable {s : S} {es : List (PersistedEvent B)} {e : PersistedEvent B} {l l' : L}

theorem fold_append_self (h : M.stream e = s) (es : List (PersistedEvent B)) :
    M.fold s (es ++ [e]) = (M.fold s es).bind (M.step e) := by
  simp [fold, List.filter_append, h, List.foldlM_append]

theorem fold_append_other (h : M.stream e ≠ s) (es : List (PersistedEvent B)) :
    M.fold s (es ++ [e]) = M.fold s es := by
  simp [fold, List.filter_append, h]

theorem fold_append_cases (hfold : M.fold s (es ++ [e]) = some l') :
    ∃ l, M.fold s es = some l ∧
      (M.stream e = s ∧ M.step e l = some l' ∨ M.stream e ≠ s ∧ l' = l) := by
  by_cases hs : M.stream e = s
  · rw [fold_append_self hs] at hfold
    obtain ⟨l, hl, hstep⟩ := Option.bind_eq_some_iff.mp hfold
    exact ⟨l, hl, .inl ⟨hs, hstep⟩⟩
  · rw [fold_append_other hs] at hfold
    exact ⟨l', hfold, .inr ⟨hs, rfl⟩⟩

/-- Every share that owned events leave is well formed. -/
theorem wellFormed_fold (howned : ∀ e ∈ es, M.owned e) (hfold : M.fold s es = some l) :
    M.WellFormed s l := by
  induction es using List.reverseRecOn generalizing l with
  | nil =>
    cases hfold
    exact M.wellFormed_empty s
  | append_singleton es e ih =>
    have howned' : ∀ e ∈ es, M.owned e := fun e he => howned e (by simp [he])
    have he := howned e (by simp)
    obtain ⟨l₀, hl₀, hcase⟩ := fold_append_cases hfold
    have hwf := ih howned' hl₀
    rcases hcase with ⟨rfl, hstep⟩ | ⟨-, rfl⟩
    · exact M.step_wellFormed e l₀ l he hwf hstep
    · exact hwf

theorem fold_holds {before : List (PersistedEvent B)} (howned : ∀ e ∈ es, M.owned e)
    (hbefore : M.fold s before = some l) (hfold : M.fold s (before ++ es) = some l') (k : Q)
    (hk : M.holds l k) : M.holds l' k := by
  induction es using List.reverseRecOn generalizing l' with
  | nil =>
    rw [List.append_nil, hbefore] at hfold
    cases hfold
    exact hk
  | append_singleton es e ih =>
    have howned' : ∀ e ∈ es, M.owned e := fun e he => howned e (by simp [he])
    have he := howned e (by simp)
    rw [← List.append_assoc] at hfold
    obtain ⟨l₀, hl₀, hcase⟩ := fold_append_cases hfold
    have hkept := ih howned' hl₀
    rcases hcase with ⟨-, hstep⟩ | ⟨-, rfl⟩
    · exact M.step_holds e l₀ l' he hstep k hkept
    · exact hkept

end folds

/-! ## Live shares -/

theorem owned_rows (h : Accepted R built t₀ d) : ∀ e ∈ M.rows d, M.owned e := by
  intro e he
  have hmem := List.mem_filter.mp he
  obtain ⟨d₁, hadm⟩ := h.extends.admissible e hmem.1
  exact M.owned_of_admissible d₁ e hadm (List.contains_iff_mem.mp hmem.2)

theorem reached_accept {e : PersistedEvent B} (h : ∀ s, M.fold s (M.rows d) = some (M.view d s))
    (hadm : Admissible R built d e) (haccept : acceptEvent R d e = .ok d') (s : S) :
    M.fold s (M.rows d') = some (M.view d' s) := by
  have hrun := projectEvent_ok.mp haccept
  have hevents : d'.events = d.events ++ [e] := acceptEvent_events haccept
  by_cases htype : e.streamType ∈ M.target.streamTypes
  · have hrows : M.rows d' = M.rows d ++ [e] := by simp [rows, hevents, htype]
    have howned := M.owned_of_admissible d e hadm htype
    obtain ⟨hstep, hothers⟩ := M.live e _ _ howned hrun
    rw [M.view_events] at hstep
    rw [hrows]
    by_cases hs : M.stream e = s
    · rw [fold_append_self hs, h s, ← hs]
      exact hstep
    · rw [fold_append_other hs, h s, hothers s (Ne.symm hs)]
      exact congrArg some (M.view_events d _ s).symm
  · have hrows : M.rows d' = M.rows d := by simp [rows, hevents, htype]
    rw [hrows, h s, M.foreign d e _ _ hadm htype hrun s]
    exact congrArg some (M.view_events d _ s).symm

/-- Live shares are what each stream's own events leave. -/
theorem reached (h₀ : ∀ s, M.view (⟨[], t₀⟩ : Database B T) s = M.empty)
    (h : Accepted R built t₀ d) (s : S) : M.fold s (M.rows d) = some (M.view d s) := by
  refine h.extends.induction (P := fun d => ∀ s, M.fold s (M.rows d) = some (M.view d s))
    ?_ ?_ s
  · intro d e d' hd hadm haccept
    exact reached_accept hd hadm haccept
  · intro s
    rw [h₀ s]
    rfl

/-! ## Rebuilding -/

theorem fold_replayRows (h : Accepted R built t₀ d) (s : S) :
    M.fold s (replayRows d.events M.target.streamTypes) = M.fold s (M.rows d) := by
  rw [fold, filter_replayRows h.contiguous (M.key_type s) fun e he =>
    M.stream_iff e (owned_rows h e he) s]
  rfl

/-- No stream holds a key of another stream. -/
def Separate (M : FoldModel R built S C L Q) (view : S → L) : Prop :=
  ∀ s s' k, M.holds (view s) k → M.holds (view s') k → s = s'

/-- Replaying owned events succeeds if every stream's own events fit together. -/
theorem replayAll_ok {es before : List (PersistedEvent B)} {final : S → L}
    (howned : ∀ e ∈ before ++ es, M.owned e) (hbefore : ∀ s, M.fold s before = some (M.view d s))
    (hfinal : ∀ s, M.fold s (before ++ es) = some (final s)) (hseparate : M.Separate final)
    (hadmits : ∀ e ∈ es, (M.demand e).admits (M.ctx d)) :
    ∃ d', replayAll R es d = .ok d' ∧ M.ctx d' = M.ctx d ∧ ∀ s, M.view d' s = final s := by
  induction es generalizing before d with
  | nil =>
    refine ⟨d, rfl, rfl, fun s => ?_⟩
    have hs := hfinal s
    rw [List.append_nil, hbefore s] at hs
    exact Option.some.inj hs
  | cons e es ih =>
    have happend : before ++ e :: es = (before ++ [e]) ++ es := by simp
    have he : M.owned e := howned e (by simp)
    have hes : ∀ e ∈ es, M.owned e := fun e he => howned e (by simp [he])
    have hwf : ∀ s, M.WellFormed s (M.view d s) := fun s =>
      wellFormed_fold (fun e he => howned e (by simp [he])) (hbefore s)
    -- The event's own stream goes on with it.
    have hself : ∃ l, M.fold (M.stream e) (before ++ [e]) = some l := by
      have hs := hfinal (M.stream e)
      rw [happend, fold, List.filter_append, List.foldlM_append] at hs
      obtain ⟨l, hl, -⟩ := Option.bind_eq_some_iff.mp hs
      exact ⟨l, hl⟩
    obtain ⟨l, hl⟩ := hself
    have hstep : M.step e (M.view d (M.stream e)) = some l := by
      rw [fold_append_self rfl, hbefore] at hl
      exact hl
    have hmeets : M.Meets (M.stream e) (M.demand e) d := by
      refine ⟨hadmits e (by simp), ?_⟩
      intro k hclaims s hs hholds
      have hother := fold_holds (fun e he => howned e (by simp [he])) (hbefore s) (hfinal s) k
        hholds
      have hown := fold_holds hes hl (happend ▸ hfinal (M.stream e)) k
        (M.step_claims e _ l he (hwf _) hstep k hclaims)
      exact hs (hseparate s (M.stream e) k hother hown)
    obtain ⟨d₁, hrun, hview, hconfined⟩ := M.replay e d l he hwf hstep hmeets
    have hnext : ∀ s, M.fold s (before ++ [e]) = some (M.view d₁ s) := by
      intro s
      by_cases hs : M.stream e = s
      · rw [← hs, hl, hview]
      · rw [fold_append_other hs, hbefore s, hconfined.view_eq s (Ne.symm hs)]
    obtain ⟨d', hreplay, hctx, hviews⟩ := ih (happend ▸ howned) hnext
      (fun s => happend ▸ hfinal s)
      fun e he => hconfined.ctx_eq ▸ hadmits e (by simp [he])
    refine ⟨d', ?_, hctx.trans hconfined.ctx_eq, hviews⟩
    rw [replayAll, projectEvent_ok.mpr hrun]
    exact hreplay

/-- A rebuild succeeds and restores every share, in a context that admits the
target's events. -/
theorem rebuild_restores (h₀ : ∀ s, M.view (⟨[], t₀⟩ : Database B T) s = M.empty)
    (h : Accepted R built t₀ d) (hseparate : M.Separate (M.view d))
    (hadmits : ∀ e ∈ d.events, e.streamType ∈ M.target.streamTypes →
      (M.demand e).admits (M.ctx d))
    (hdeferred : ∀ d', M.ctx d' = M.ctx d → (∀ s, M.view d' s = M.view d s) →
      R.deferred d'.tables = none) :
    ∃ d', rebuildAll R M.target.name d = .ok d' ∧ d'.events = d.events ∧ M.ctx d' = M.ctx d ∧
      ∀ s, M.view d' s = M.view d s := by
  have hrows : ∀ e ∈ replayRows d.events M.target.streamTypes, M.owned e := by
    intro e he
    exact owned_rows h e (by simpa [rows] using mem_replayRows.mp he)
  have hstart : ∀ s, M.fold s [] =
      some (M.view { d with tables := M.target.reset d.tables } s) := by
    intro s
    rw [M.reset_view]
    rfl
  have hfinal : ∀ s, M.fold s ([] ++ replayRows d.events M.target.streamTypes) =
      some (M.view d s) := by
    intro s
    rw [List.nil_append, fold_replayRows h s, reached h₀ h s]
  obtain ⟨d', hreplay, hctx, hviews⟩ :=
    replayAll_ok (by simpa using hrows) hstart hfinal hseparate fun e he => by
      rw [M.reset_ctx]
      exact hadmits e (mem_replayRows.mp he).1 (mem_replayRows.mp he).2
  rw [M.reset_ctx] at hctx
  have hevents := replayAll_events hreplay
  have hreg := M.registered
  refine ⟨d', ?_, hevents, hctx, hviews⟩
  rw [rebuildAll_ok_iff hreg.named hreg.found hreg.closed h.contiguous hreg.types_named
    (h.owns (List.mem_of_find?_eq_some hreg.found))]
  exact ⟨hreplay, hdeferred d' hctx hviews⟩

end FoldModel
end PowerManage.Store
