import PowerManage.Relational.Replay
import PowerManage.Store.Rebuild

/-!
# When a rebuild restores its target

A target whose projectors are local to their own stream can be rebuilt from any
accepted database, except for what its events demand from outside their stream:
a rebuild sees the context as it is now, and every earlier stream as it ends.

Main results:

- `RebuildModel.reached`: live tables are what each stream's own
  events leave.
- `RebuildModel.rebuild_ok_iff`: when a rebuild succeeds.
- `RebuildModel.rebuild_restores`: what it then leaves.
-/

namespace PowerManage.Store

open Relational

variable {B T W K : Type} [Applies W T]

/-- What `RebuildAll` checks of a target before it resets anything. -/
structure Registered (R : Registry B T W K) (target : RebuildTarget B T) : Prop where
  named : trimSpace target.name ≠ ""
  found : R.targets.find? (·.name == target.name) = some target
  closed : validateRebuildClosure target.name (rebuildTargetTables target)
    (rebuildTableClosure R.schema (rebuildTargetTables target)) = .ok ()
  types_named : "" ∉ target.streamTypes

/-- A registered target with projectors local to their streams. -/
structure RebuildModel (R : Registry B T W K) (built : Event B → Prop) (S C L Q : Type)
    [LinearOrder S] extends
    StreamLocal S (PersistedEvent B) C L Q (Database B T) W K StoreError where
  target : RebuildTarget B T
  registered : Registered R target
  /-- The stream that a share belongs to. -/
  key : S → String × String
  key_type : ∀ s, (key s).1 ∈ target.streamTypes
  stream_iff : ∀ e, owned e → ∀ s, stream e = s ↔ e.stream = key s
  stream_mono : ∀ a b, owned a → owned b → position a < position b → stream a ≤ stream b
  owned_of_admissible : ∀ d e, Admissible R built d e → e.streamType ∈ target.streamTypes →
    owned e
  project_eq : ∀ e, owned e → project e = R.project true e
  /-- A rebuild accepts, with the same effect, what a live append accepted. -/
  live_replays : ∀ e d d', owned e → (R.project false e).run d = .ok ((), d') →
    (R.project true e).run d = .ok ((), d')
  /-- Events of other targets change nothing that this target's events tell apart. -/
  foreign : ∀ d₀ e d d', Admissible R built d₀ e → e.streamType ∉ target.streamTypes →
    (R.project false e).run d = .ok ((), d') → ∀ s l, same (view d s) l → same (view d' s) l
  view_events : ∀ (d : Database B T) es s, view { d with events := es } s = view d s
  reset_view : ∀ (d : Database B T) s, view { d with tables := target.reset d.tables } s = empty
  reset_ctx : ∀ (d : Database B T), ctx { d with tables := target.reset d.tables } = ctx d

/-! ## Targets with one stream type -/

section streamID

variable {streamType : String}

theorem streamID_eq_iff {e : PersistedEvent B} (he : e.streamType = streamType) (id : String) :
    e.streamID = id ↔ e.stream = (streamType, id) := by
  simp [Event.stream, he]

/-- Within one stream type the replay order is that of the stream IDs. -/
theorem streamID_mono {a b : PersistedEvent B} (ha : a.streamType = streamType)
    (hb : b.streamType = streamType) (hab : position a < position b) : a.streamID ≤ b.streamID := by
  rw [position_lt_iff, ha, hb] at hab
  rcases hab with hlt | ⟨-, hlt | ⟨heq, -⟩⟩
  · exact absurd hlt (lt_irrefl _)
  · exact hlt.le
  · exact heq.le

end streamID

/-! ## Rebuilding -/

/-- The replay order leaves each stream's own order as it was. -/
theorem filter_replayRows {S : Type} [DecidableEq S] {es : List (PersistedEvent B)}
    {types : List String} {stream : PersistedEvent B → S} {s : S} {key : String × String}
    (hcont : Contiguous es) (hkey : key.1 ∈ types)
    (hstream : ∀ e ∈ es.filter fun e => types.contains e.streamType,
      stream e = s ↔ e.stream = key) :
    (replayRows es types).filter (fun e => stream e = s) =
      (es.filter fun e => types.contains e.streamType).filter fun e => stream e = s := by
  have hkeyed : ∀ e ∈ es.filter fun e => types.contains e.streamType,
      decide (stream e = s) = decide (e.stream = key) := fun e he =>
    decide_eq_decide.mpr (hstream e he)
  rw [List.filter_congr fun e he => hkeyed e (by simpa using mem_replayRows.mp he),
    replayRows_filter_stream hcont hkey, List.filter_congr hkeyed, List.filter_filter]
  apply List.filter_congr
  intro e _
  by_cases he : e.stream = key
  · have htype : e.streamType ∈ types := by rwa [← he] at hkey
    simp [he, htype]
  · simp [he]

namespace RebuildModel

variable {R : Registry B T W K} {built : Event B → Prop} {S C L Q : Type} [LinearOrder S]
variable (M : RebuildModel R built S C L Q)

/-- The target's events, in commit order. -/
def rows (d : Database B T) : List (PersistedEvent B) :=
  d.events.filter fun e => M.target.streamTypes.contains e.streamType

variable {M}

theorem mem_rows {d : Database B T} {e : PersistedEvent B} :
    e ∈ M.rows d ↔ e ∈ d.events ∧ e.streamType ∈ M.target.streamTypes := by
  simp [rows]

variable {t₀ : T} {d d' : Database B T}

theorem owned_rows (h : Accepted R built t₀ d) : ∀ e ∈ M.rows d, M.owned e := by
  intro e he
  obtain ⟨hmem, htype⟩ := mem_rows.mp he
  obtain ⟨d₁, hadm⟩ := h.extends.admissible e hmem
  exact M.owned_of_admissible d₁ e hadm htype

/-- One accepted event keeps the live tables what each stream's events leave. -/
theorem reached_accept {e : PersistedEvent B} (h : M.Reached (M.rows d) d)
    (hadm : Admissible R built d e) (haccept : acceptEvent R d e = .ok d') :
    M.Reached (M.rows d') d' := by
  have hrun := projectEvent_ok.mp haccept
  have hevents : d'.events = d.events ++ [e] := acceptEvent_events haccept
  have hstart : M.Reached (M.rows d) { d with events := d.events ++ [e] } :=
    ⟨fun s => by rw [M.view_events]; exact h.view s⟩
  by_cases htype : e.streamType ∈ M.target.streamTypes
  · have hrows : M.rows d' = M.rows d ++ [e] := by simp [rows, hevents, htype]
    have howned := M.owned_of_admissible d e hadm htype
    have hreplay := M.live_replays e _ _ howned hrun
    rw [← M.project_eq e howned] at hreplay
    rw [hrows]
    exact hstart.next howned hreplay
  · have hrows : M.rows d' = M.rows d := by simp [rows, hevents, htype]
    rw [hrows]
    refine ⟨fun s => ?_⟩
    obtain ⟨l, hfold, hwf, hsame⟩ := hstart.view s
    exact ⟨l, hfold, hwf, M.foreign d e _ _ hadm htype hrun s l hsame⟩

/-- Live tables are what each stream's own events leave. -/
theorem reached (h₀ : ∀ s, M.view (⟨[], t₀⟩ : Database B T) s = M.empty)
    (h : Accepted R built t₀ d) : M.Reached (M.rows d) d := by
  refine h.extends.induction (P := fun d => M.Reached (M.rows d) d) ?_ ?_
  · intro d e d' hd hadm haccept
    exact reached_accept hd hadm haccept
  · exact StreamLocal.reached_nil h₀

theorem fold_replayRows (h : Accepted R built t₀ d) (s : S) (l : L) :
    M.fold s (replayRows d.events M.target.streamTypes) l = M.fold s (M.rows d) l := by
  have hfilter := filter_replayRows h.contiguous (M.key_type s) fun e he =>
    M.stream_iff e (owned_rows h e he) s
  rw [← StreamLocal.fold_filter, hfilter, rows, StreamLocal.fold_filter]

theorem owned_replayRows (h : Accepted R built t₀ d) :
    ∀ e ∈ replayRows d.events M.target.streamTypes, M.owned e := fun e he =>
  owned_rows h e (mem_rows.mpr (mem_replayRows.mp he))

theorem replay_eq {es : List (PersistedEvent B)} (howned : ∀ e ∈ es, M.owned e)
    (d : Database B T) : M.replay es d = replayAll R es d := by
  induction es generalizing d with
  | nil => rfl
  | cons e es ih =>
    rw [List.forall_mem_cons] at howned
    rw [StreamLocal.replay, replayAll, projectEvent, M.project_eq e howned.1]
    cases (R.project true e).run d with
    | error err => rfl
    | ok r => exact ih howned.2 r.2

/-- The rebuild of a registered target is a replay of its rows. -/
theorem rebuildAll_iff (h : Accepted R built t₀ d) :
    rebuildAll R M.target.name d = .ok d' ↔
      M.replay (replayRows d.events M.target.streamTypes)
        { d with tables := M.target.reset d.tables } = .ok d' ∧ R.deferred d'.tables = none := by
  have hreg := M.registered
  rw [rebuildAll_ok_iff hreg.named hreg.found hreg.closed h.contiguous hreg.types_named
    (h.owns (List.mem_of_find?_eq_some hreg.found)), replay_eq (owned_replayRows h)]

/-- A replay that succeeds leaves the context as it was and every stream's share
as its own events leave it. -/
theorem replay_restores (h : Accepted R built t₀ d)
    (hreplay : M.replay (replayRows d.events M.target.streamTypes)
      { d with tables := M.target.reset d.tables } = .ok d') :
    d'.events = d.events ∧ M.ctx d' = M.ctx d ∧ M.Reached (M.rows d) d' := by
  obtain ⟨hreached, hctx⟩ :=
    StreamLocal.replay_view (owned_replayRows h) (fun s => M.reset_view d s) hreplay
  rw [replay_eq (owned_replayRows h)] at hreplay
  have hevents := replayAll_events hreplay
  refine ⟨hevents, hctx.trans (M.reset_ctx d), ⟨fun s => ?_⟩⟩
  rw [← fold_replayRows h s]
  exact hreached.view s

theorem rebuild_restores (h : Accepted R built t₀ d)
    (hrebuild : rebuildAll R M.target.name d = .ok d') :
    d'.events = d.events ∧ M.ctx d' = M.ctx d ∧ M.Reached (M.rows d) d' :=
  replay_restores h ((rebuildAll_iff h).mp hrebuild).1

/-- A rebuild succeeds exactly when the present context admits every event of the
target, no event claims a key that an earlier stream now holds, and the deferred
constraints hold in the end. -/
theorem rebuild_ok_iff (h₀ : ∀ s, M.view (⟨[], t₀⟩ : Database B T) s = M.empty)
    (h : Accepted R built t₀ d)
    (hdeferred : ∀ d', d'.events = d.events → M.ctx d' = M.ctx d → M.Reached (M.rows d) d' →
      R.deferred d'.tables = none) :
    (∃ d', rebuildAll R M.target.name d = .ok d') ↔
      ∀ e ∈ d.events, e.streamType ∈ M.target.streamTypes →
        (M.demand e).admits (M.ctx d) ∧
          ∀ k, (M.demand e).claims k → ∀ s, s < M.stream e → ¬ M.holds (M.view d s) k := by
  have howned := owned_replayRows (M := M) h
  have hsorted : (replayRows d.events M.target.streamTypes).Pairwise fun a b =>
      M.stream a ≤ M.stream b := by
    refine (replayRows_pairwise h.contiguous M.target.streamTypes).imp_of_mem ?_
    intro a b ha hb hab
    exact M.stream_mono a b (howned a ha) (howned b hb) hab
  -- What a stream holds in the end is what it holds now.
  choose final hfinal hwf hsame using (reached h₀ h).view
  have hfold : ∀ s, M.fold s (replayRows d.events M.target.streamTypes) M.empty =
      some (final s) := fun s => (fold_replayRows h s _).trans (hfinal s)
  have hiff := StreamLocal.replay_ok_iff howned (fun s => M.reset_view d s) hsorted hfold
  rw [M.reset_ctx] at hiff
  have hsuccess : (∃ d', rebuildAll R M.target.name d = .ok d') ↔
      ∃ d', M.replay (replayRows d.events M.target.streamTypes)
        { d with tables := M.target.reset d.tables } = .ok d' := by
    refine exists_congr fun d' => ?_
    rw [rebuildAll_iff h]
    refine and_iff_left_of_imp fun hreplay => ?_
    obtain ⟨hevents, hctx, hreached⟩ := replay_restores h hreplay
    exact hdeferred d' hevents hctx hreached
  rw [hsuccess, hiff]
  simp only [mem_replayRows, and_imp]
  refine forall_congr' fun e => forall_congr' fun _ => forall_congr' fun _ =>
    and_congr_right fun _ => ?_
  refine forall_congr' fun k => forall_congr' fun _ => forall_congr' fun s =>
    forall_congr' fun _ => not_congr ?_
  exact (M.same_holds _ _ (hsame s) k).symm

/-- When a rebuild succeeds and leaves what is to be restored, for tables that
determine and are determined by the shares. -/
theorem rebuild_exact_iff {P : Database B T → Prop}
    (h₀ : ∀ s, M.view (⟨[], t₀⟩ : Database B T) s = M.empty) (h : Accepted R built t₀ d)
    (hexact : ∀ d', M.ctx d' = M.ctx d → M.Reached (M.rows d) d' →
      P d' ∧ R.deferred d'.tables = none) :
    (∃ d', rebuildAll R M.target.name d = .ok d' ∧ P d') ↔
      ∀ e ∈ d.events, e.streamType ∈ M.target.streamTypes →
        (M.demand e).admits (M.ctx d) ∧
          ∀ k, (M.demand e).claims k → ∀ s, s < M.stream e → ¬ M.holds (M.view d s) k := by
  rw [← rebuild_ok_iff h₀ h fun d' _ hctx hreached => (hexact d' hctx hreached).2]
  refine exists_congr fun d' => and_iff_left_of_imp fun hrebuild => ?_
  obtain ⟨-, hctx, hreached⟩ := rebuild_restores h hrebuild
  exact (hexact d' hctx hreached).1

end RebuildModel
end PowerManage.Store
