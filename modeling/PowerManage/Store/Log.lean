import PowerManage.Relational.Serial
import PowerManage.Store.AppendLaws

/-!
# The log and the projections it leaves

Run one after another, the append paths insert events at the next version of
their stream and project each of them on the tables that its predecessors left.
A database is accepted when some serial history of append calls leads to it.

Main results:

- `body_extends`: every append path extends the log event by event.
- `Accepted.extends`: an accepted database is its log projected in
  commit order.
-/

namespace PowerManage.Store

open List Relational
open Prog (bind_eq run_bind_ok run_ofExcept_ok run_require_ok)

variable {B T W K : Type} [Applies W T]

/-! ## Projecting events -/

/-- Run an event's projector with no other transaction in between. -/
def projectEvent (R : Registry B T W K) (skipWork : Bool) (e : PersistedEvent B)
    (d : Database B T) : Except StoreError (Database B T) :=
  ((R.project skipWork e).run d).map Prod.snd

/-- Insert one event and project it. -/
def acceptEvent (R : Registry B T W K) (d : Database B T) (e : PersistedEvent B) :
    Except StoreError (Database B T) :=
  projectEvent R false e { d with events := d.events ++ [e] }

/-- Run the registered projector once on each event, in order. -/
def projectAll (R : Registry B T W K) :
    List (PersistedEvent B) → Database B T → Except StoreError (Database B T)
  | [], d => .ok d
  | e :: es, d => do
      let d' ← acceptEvent R d e
      projectAll R es d'

theorem applyAll_tables (ws : List W) (d : Database B T) :
    applyAll ws d = { d with tables := applyAll ws d.tables } := by
  induction ws generalizing d with
  | nil => rfl
  | cons w ws ih => rw [applyAll_cons, ih, apply_tables, applyAll_cons]

variable {R : Registry B T W K} {e : PersistedEvent B} {d d' : Database B T}

theorem projectEvent_ok {skipWork : Bool} :
    projectEvent R skipWork e d = .ok d' ↔ (R.project skipWork e).run d = .ok ((), d') := by
  simp only [projectEvent, map_eq_ok, Prod.exists]
  constructor
  · rintro ⟨_, _, h, rfl⟩
    exact h
  · intro h
    exact ⟨(), d', h, rfl⟩

/-- A projector leaves the events table alone and applies writes it may make. -/
theorem projectEvent_writes {skipWork : Bool} {P : W → Prop}
    (hwrites : (R.project skipWork e).Writes P) (h : projectEvent R skipWork e d = .ok d') :
    d'.events = d.events ∧ ∃ ws : List W, (∀ w ∈ ws, P w) ∧ d'.tables = applyAll ws d.tables := by
  obtain ⟨ws, hws, rfl⟩ := Prog.run_eq_applyAll hwrites (projectEvent_ok.mp h)
  rw [applyAll_tables]
  exact ⟨rfl, ws, hws, rfl⟩

theorem acceptEvent_events (h : acceptEvent R d e = .ok d') : d'.events = d.events ++ [e] :=
  (projectEvent_writes (Prog.Writes.top _) h).1

/-! ## Extending the log -/

/-- What the append paths check of an event before its projector runs. -/
structure Admissible (R : Registry B T W K) (built : Event B → Prop) (d : Database B T)
    (e : PersistedEvent B) : Prop where
  prepared : ∃ raw, built raw ∧ R.prepareEvent raw = .ok e.toEvent
  checked : eventsCheck e = .ok ()
  next : e.streamVersion = streamLength d.events e.stream + 1

/-- The log grows by a list of events, each projected right after its insertion. -/
inductive Extends (R : Registry B T W K) (built : Event B → Prop) :
    Database B T → List (PersistedEvent B) → Database B T → Prop where
  | nil (d : Database B T) : Extends R built d [] d
  | cons {d d₁ d' : Database B T} {e : PersistedEvent B} {es : List (PersistedEvent B)}
      (hadm : Admissible R built d e) (haccept : acceptEvent R d e = .ok d₁)
      (hrest : Extends R built d₁ es d') : Extends R built d (e :: es) d'

section extends_lemmas

variable {R : Registry B T W K} {built : Event B → Prop}
variable {d d₁ d' : Database B T} {es es' : List (PersistedEvent B)}

theorem Extends.append (h : Extends R built d es d₁) (h' : Extends R built d₁ es' d') :
    Extends R built d (es ++ es') d' := by
  induction h with
  | nil d => exact h'
  | cons hadm haccept _ ih => exact Extends.cons hadm haccept (ih h')

theorem Extends.events (h : Extends R built d es d') : d'.events = d.events ++ es := by
  induction h with
  | nil d => simp
  | cons hadm haccept _ ih => rw [ih, acceptEvent_events haccept, append_assoc, singleton_append]

/-- A property that every accepted event preserves survives the extension. -/
theorem Extends.induction {P : Database B T → Prop} (h : Extends R built d es d')
    (hstep : ∀ d e d', P d → Admissible R built d e → acceptEvent R d e = .ok d' → P d')
    (hd : P d) : P d' := by
  induction h with
  | nil d => exact hd
  | cons hadm haccept _ ih => exact ih (hstep _ _ _ hd hadm haccept)

theorem Extends.projectAll (h : Extends R built d es d') : Store.projectAll R es d = .ok d' := by
  induction h with
  | nil d => rfl
  | cons hadm haccept _ ih =>
    rw [Store.projectAll, bind_eq_ok]
    exact ⟨_, haccept, ih⟩

omit [Applies W T] in
theorem Admissible.contiguous {e : PersistedEvent B} (h : Admissible R built d e)
    (hd : Contiguous d.events) : Contiguous (d.events ++ [e]) := by
  have hnext := h.next
  refine (hd.snoc ?_ ?_ ?_).2
  · omega
  · omega
  · rw [hd e.stream, List.mem_range'_1]
    omega

theorem Extends.contiguous (h : Extends R built d es d') (hd : Contiguous d.events) :
    Contiguous d'.events := by
  refine h.induction (P := fun d => Contiguous d.events) ?_ hd
  intro d e d' hd hadm haccept
  rw [acceptEvent_events haccept]
  exact hadm.contiguous hd

end extends_lemmas

/-! ## Append paths run serially -/

section serial

variable {R : Registry B T W K} {built : Event B → Prop} {d d' : Database B T}

theorem run_acquireLock {key : StoreKey K} {u : Unit} :
    (acquireLock key : StoreProg B T W K Unit).run d = .ok (u, d') ↔ d' = d := by
  simp [acquireLock, Except.map, eq_comm]

/-- The guard only adds reads around its mutation, and lets it through only if it leaves
an administrator where there was one. -/
theorem run_protectLastAdminMutation {protect : Bool} {mutate : StoreProg B T W K Unit}
    (h : (protectLastAdminMutation R protect mutate).run d = .ok ((), d')) :
    mutate.run d = .ok ((), d') ∧
      (protect = true → R.countEnabledAdmins d ≠ 0 → R.countEnabledAdmins d' ≠ 0) := by
  cases protect with
  | false => exact ⟨h, by simp⟩
  | true =>
    simp only [protectLastAdminMutation, if_true, bind_eq, run_bind_ok, countAdmins,
      Prog.run_query_ok, run_acquireLock, Except.ok.injEq] at h
    obtain ⟨_, _, rfl, _, _, ⟨rfl, rfl⟩, _, d₁, hmutate, hguard⟩ := h
    split at hguard
    · rename_i hbefore
      rw [(Prog.run_ret_ok.mp hguard).2]
      exact ⟨hmutate, fun _ hcount => absurd hbefore hcount⟩
    · simp only [run_bind_ok, Prog.run_query_ok, run_require_ok, Except.ok.injEq,
        decide_eq_true_eq] at hguard
      obtain ⟨_, _, ⟨rfl, rfl⟩, hafter, rfl⟩ := hguard
      exact ⟨hmutate, fun _ _ => hafter⟩

variable {event : Event B} {v : Nat} {stream : String × String} {events : List (Event B)}

theorem run_insertEvent {row : PersistedEvent B}
    (h : (insertEvent event v : StoreProg B T W K _).run d = .ok (row, d')) :
    row = persisted event v ∧ eventsCheck row = .ok () ∧
      d.events.any (sameVersion row) = false ∧ d' = { d with events := d.events ++ [row] } := by
  simp only [insertEvent, Prog.run_statement, map_eq_ok, bind_eq_ok] at h
  obtain ⟨r, ⟨_, hcheck, h⟩, hr⟩ := h
  cases hany : d.events.any (sameVersion (persisted event v)) with
  | true => simp [hany, bind, Except.bind] at h
  | false =>
    simp [hany] at h
    subst h
    simp at hr
    obtain ⟨rfl, rfl⟩ := hr
    exact ⟨rfl, hcheck, hany, rfl⟩

/-- Appending one prepared event stores it and runs its projector. -/
theorem appendPrepared_accepts (h : (appendPrepared R event v).run d = .ok ((), d')) :
    eventsCheck (persisted event v) = .ok () ∧
      d.events.any (sameVersion (persisted event v)) = false ∧
      acceptEvent R d (persisted event v) = .ok d' := by
  have hmutate := (run_protectLastAdminMutation h).1
  simp [insertAndProject, run_bind_ok, Prog.run_mapError] at hmutate
  obtain ⟨row, d₁, hinsert, hproject⟩ := hmutate
  obtain ⟨rfl, hcheck, hany, rfl⟩ := run_insertEvent hinsert
  refine ⟨hcheck, hany, ?_⟩
  have hrow : ∀ (w : W) (d : Database B T),
      Applies.apply (StoreWrite.row w : StoreWrite B W) d = Applies.apply w d := fun _ _ => rfl
  rw [acceptEvent, projectEvent_ok]
  rwa [runProjector, Prog.run_embed hrow] at hproject

/-- Appending one prepared event extends the log by it. -/
theorem run_appendPrepared (hprepared : ∃ raw, built raw ∧ R.prepareEvent raw = .ok event)
    (hcont : Contiguous d.events) (hv : v ≤ streamLength d.events event.stream)
    (h : (appendPrepared R event (v + 1)).run d = .ok ((), d')) :
    Extends R built d [persisted event (v + 1)] d' := by
  obtain ⟨hcheck, hany, haccept⟩ := appendPrepared_accepts h
  have hnext : (persisted event (v + 1)).streamVersion =
      streamLength d.events (persisted event (v + 1)).stream + 1 :=
    (hcont.snoc (Nat.succ_pos v) (Nat.succ_le_succ hv) (any_sameVersion_eq_false hany)).1
  exact Extends.cons ⟨hprepared, hcheck, hnext⟩ haccept (Extends.nil d')

theorem run_readStreamVersion
    (h : (readStreamVersion stream : StoreProg B T W K _).run d = .ok (v, d')) :
    v = currentStreamVersion d stream ∧ d' = d := by
  simp [readStreamVersion, Except.map] at h
  exact ⟨h.1.symm, h.2.symm⟩

theorem run_appendAutoBatch {index : Nat}
    (hprepared : ∀ e ∈ events, ∃ raw, built raw ∧ R.prepareEvent raw = .ok e)
    (hcont : Contiguous d.events) (h : (appendAutoBatch R events index).run d = .ok ((), d')) :
    ∃ es, es.map (·.toEvent) = events ∧ Extends R built d es d' := by
  induction events generalizing d index with
  | nil =>
    simp [appendAutoBatch] at h
    exact ⟨[], rfl, h ▸ Extends.nil d⟩
  | cons event events ih =>
    simp [appendAutoBatch, appendAuto, run_bind_ok, Prog.run_mapError] at h
    obtain ⟨_, d₁, ⟨v, d₂, hread, hone⟩, hrest⟩ := h
    obtain ⟨rfl, rfl⟩ := run_readStreamVersion hread
    have hone' := run_appendPrepared (hprepared event mem_cons_self) hcont
      (currentStreamVersion_eq hcont _).le hone
    obtain ⟨es, hevents, hes⟩ := ih (forall_mem_cons.mp hprepared).2
      (hone'.contiguous hcont) hrest
    have hmap : (persisted event (currentStreamVersion d₂ event.stream + 1) :: es).map
        (·.toEvent) = event :: events :=
      congrArg (event :: ·) hevents
    exact ⟨_, hmap, hone'.append hes⟩

variable {describe : Nat → StoreError → StoreError}

theorem run_appendPinnedBatch {version index : Nat}
    (hprepared : ∀ e ∈ events, ∃ raw, built raw ∧ R.prepareEvent raw = .ok e)
    (hstream : ∀ e ∈ events, e.stream = stream) (hcont : Contiguous d.events)
    (hv : version = streamLength d.events stream)
    (h : (appendPinnedBatch R describe events version index).run d = .ok ((), d')) :
    ∃ es, Extends R built d es d' := by
  induction events generalizing d version index with
  | nil =>
    simp [appendPinnedBatch] at h
    exact ⟨[], h ▸ Extends.nil d⟩
  | cons event events ih =>
    simp [appendPinnedBatch, run_bind_ok, Prog.run_mapError] at h
    obtain ⟨_, d₁, hone, hrest⟩ := h
    have hhead : event.stream = stream := hstream event mem_cons_self
    have hone' := run_appendPrepared (hprepared event mem_cons_self) hcont
      (by rw [hhead, hv]) hone
    have hlength : version + 1 = streamLength d₁.events stream := by
      have hsame : (persisted event (version + 1)).toEvent.stream = stream := hhead
      rw [hone'.events, streamLength_append, ← hv, streamLength, versionsOf_singleton,
        if_pos hsame, length_singleton]
    obtain ⟨es, hes⟩ := ih (forall_mem_cons.mp hprepared).2
      (forall_mem_cons.mp hstream).2 (hone'.contiguous hcont) hlength hrest
    exact ⟨_, hone'.append hes⟩

theorem run_appendAtVersion {expected : Nat}
    (hprepared : ∀ e ∈ events, ∃ raw, built raw ∧ R.prepareEvent raw = .ok e)
    (hstream : ∀ e ∈ events, e.stream = stream) (hcont : Contiguous d.events)
    (h : (appendAtVersion R describe stream events expected).run d = .ok ((), d')) :
    ∃ es, Extends R built d es d' := by
  simp only [appendAtVersion, bind_eq, run_bind_ok, run_require_ok, decide_eq_true_eq] at h
  obtain ⟨v, d₁, hread, _, _, ⟨rfl, rfl⟩, hbatch⟩ := h
  obtain ⟨rfl, rfl⟩ := run_readStreamVersion hread
  exact run_appendPinnedBatch hprepared hstream hcont (currentStreamVersion_eq hcont _) hbatch

end serial

/-! ## Accepted databases -/

section accepted

variable {R : Registry B T W K} {built : Event B → Prop} {d d' : Database B T}

/-- The events of a call are ones that callers build. -/
def AppendCall.Builds (built : Event B → Prop) : AppendCall B T → Prop
  | .appendEvent event => built event
  | .appendEventWithVersion event _ => built event
  | .appendEvents events => ∀ e ∈ events, built e
  | .appendEventsWithVersion events _ => ∀ e ∈ events, built e
  | .appendEventBeforeCommit event _ => built event
  | .deviceLifecycle _ operation => ∀ d append, operation d = .ok (some append) →
      built append.event

variable {events prepared : List (Event B)}

omit [Applies W T] in
theorem prepareBatch_prepared {index : Nat} (hbuilt : ∀ e ∈ events, built e)
    (h : prepareBatch R events index = .ok prepared) :
    ∀ e ∈ prepared, ∃ raw, built raw ∧ R.prepareEvent raw = .ok e := by
  induction events generalizing index prepared with
  | nil =>
    simp only [prepareBatch, Except.ok.injEq] at h
    simp [← h]
  | cons event events ih =>
    simp [prepareBatch, bind_eq_ok] at h
    obtain ⟨head, hhead, tail, htail, rfl⟩ := h
    obtain ⟨hevent, hbuilt⟩ := forall_mem_cons.mp hbuilt
    exact forall_mem_cons.mpr ⟨⟨event, hevent, hhead⟩, ih hbuilt htail⟩

omit [Applies W T] in
theorem preparePinnedBatch_prepared {first : Option (String × String)} {index : Nat}
    (hbuilt : ∀ e ∈ events, built e) (h : preparePinnedBatch R first events index = .ok prepared) :
    ∀ e ∈ prepared, ∃ raw, built raw ∧ R.prepareEvent raw = .ok e := by
  induction events generalizing first index prepared with
  | nil =>
    simp only [preparePinnedBatch, Except.ok.injEq] at h
    simp [← h]
  | cons event events ih =>
    obtain ⟨head, tail, rfl, hhead, -, htail⟩ := preparePinnedBatch_cons h
    obtain ⟨hevent, hbuilt⟩ := forall_mem_cons.mp hbuilt
    exact forall_mem_cons.mpr ⟨⟨event, hevent, hhead⟩, ih hbuilt htail⟩

/-- A successful version-pinned append stores its event. -/
theorem run_appendEventWithVersion {raw : Event B} {expected : Int}
    (h : (appendEventWithVersion R raw expected).run d = .ok ((), d')) :
    ∃ e : PersistedEvent B, e.toEvent = foldStreamID raw ∧ acceptEvent R d e = .ok d' := by
  simp only [appendEventWithVersion, appendAtVersion, appendPinnedBatch, bind_eq,
    run_bind_ok, run_ofExcept_ok, run_require_ok, Prog.run_mapError,
    mapError_eq_ok, Prog.pure_eq, Prog.run_ret_ok] at h
  obtain ⟨version, _, ⟨-, rfl⟩, prepared, _, ⟨hprep, rfl⟩, current, d₁, hread, _, _, ⟨-, rfl⟩,
    _, d₂, hone, -, rfl⟩ := h
  obtain ⟨-, rfl⟩ := run_readStreamVersion hread
  obtain ⟨-, -, haccept⟩ := appendPrepared_accepts hone
  exact ⟨_, (Registry.prepareEvent_ok hprep).2.1, haccept⟩

/-- Every append path extends the log event by event. -/
theorem body_extends {call : AppendCall B T} (hcall : call.Builds built)
    (hcont : Contiguous d.events) (h : (call.body R).run d = .ok ((), d')) :
    ∃ es, Extends R built d es d' := by
  cases call with
  | appendEvent event =>
    simp only [AppendCall.body, bind_eq, run_bind_ok, run_ofExcept_ok, Prog.run_mapError_ok] at h
    obtain ⟨prepared, _, ⟨hok, rfl⟩, hbatch⟩ := h
    obtain ⟨es, -, hes⟩ :=
      run_appendAutoBatch (forall_mem_singleton.mpr ⟨_, hcall, hok⟩) hcont hbatch
    exact ⟨es, hes⟩
  | appendEventWithVersion event expected =>
    simp only [AppendCall.body, Store.appendEventWithVersion, bind_eq, run_bind_ok,
      run_ofExcept_ok] at h
    obtain ⟨version, _, ⟨-, rfl⟩, prepared, _, ⟨hok, rfl⟩, hbatch⟩ := h
    exact run_appendAtVersion (forall_mem_singleton.mpr ⟨_, hcall, hok⟩) (by simp) hcont hbatch
  | appendEvents events =>
    simp only [AppendCall.body, bind_eq, run_bind_ok, run_ofExcept_ok, Prog.run_mapError_ok] at h
    obtain ⟨prepared, _, ⟨hok, rfl⟩, hbatch⟩ := h
    obtain ⟨es, -, hes⟩ := run_appendAutoBatch (prepareBatch_prepared hcall hok) hcont hbatch
    exact ⟨es, hes⟩
  | appendEventsWithVersion events expected =>
    simp only [AppendCall.body, Store.appendEventsWithVersion, bind_eq, run_bind_ok,
      run_ofExcept_ok, run_require_ok] at h
    obtain ⟨version, _, ⟨-, rfl⟩, _, _, ⟨-, rfl⟩, prepared, _, ⟨hok, rfl⟩, hbatch⟩ := h
    cases prepared with
    | nil =>
      simp at hbatch
      exact ⟨[], hbatch ▸ Extends.nil _⟩
    | cons head tail =>
      exact run_appendAtVersion (preparePinnedBatch_prepared hcall hok)
        (preparePinnedBatch_head hok) hcont hbatch
  | appendEventBeforeCommit event callback =>
    simp only [AppendCall.body, bind_eq, run_bind_ok, run_ofExcept_ok, Prog.run_mapError_ok] at h
    obtain ⟨prepared, _, ⟨hok, rfl⟩, v, d₂, hread, _, d₃, hone, hcallback⟩ := h
    obtain ⟨rfl, rfl⟩ := run_readStreamVersion hread
    have hextends := run_appendPrepared ⟨event, hcall, hok⟩ hcont
      (currentStreamVersion_eq hcont _).le hone
    cases callback with
    | some e => simp at hcallback
    | none =>
      simp at hcallback
      exact ⟨_, hcallback ▸ hextends⟩
  | deviceLifecycle deviceID operation =>
    simp only [AppendCall.body, withDeviceLifecycleLock, bind_eq, run_bind_ok,
      run_ofExcept_ok, Prog.run_query_ok, run_acquireLock] at h
    obtain ⟨id, _, ⟨-, rfl⟩, _, _, rfl, decision, _, ⟨hoperation, rfl⟩, happend⟩ := h
    cases decision with
    | none =>
      simp at happend
      exact ⟨[], happend ▸ Extends.nil _⟩
    | some append =>
      simp only [appendEventFor, bind_eq, run_bind_ok, run_ofExcept_ok, run_require_ok] at happend
      obtain ⟨version, _, ⟨-, rfl⟩, prepared, _, ⟨hok, rfl⟩, _, _, ⟨-, rfl⟩, hbatch⟩ := happend
      exact run_appendAtVersion (forall_mem_singleton.mpr ⟨_, hcall _ append hoperation, hok⟩)
        (by simp)
        hcont hbatch

/-- The databases that serial histories of append calls reach from empty tables. -/
def Accepted (R : Registry B T W K) (built : Event B → Prop) (t₀ : T) : Database B T → Prop :=
  Serial (client R) (AppendCall.Builds built) ⟨[], t₀⟩

/-- An accepted database is its log, projected event by event in commit order. -/
theorem Accepted.extends {t₀ : T} (h : Accepted R built t₀ d) :
    Extends R built ⟨[], t₀⟩ d.events d := by
  have hex : ∃ es, Extends R built ⟨[], t₀⟩ es d := by
    induction h with
    | start => exact ⟨[], Extends.nil _⟩
    | commit _ hcall hrun _ ih =>
      obtain ⟨es, hes⟩ := ih
      obtain ⟨es', hes'⟩ := body_extends hcall (hes.contiguous contiguous_nil) hrun
      exact ⟨es ++ es', hes.append hes'⟩
  obtain ⟨es, hes⟩ := hex
  have hevents : d.events = es := hes.events
  rwa [hevents]

theorem Accepted.deferred {t₀ : T} (h₀ : R.deferred t₀ = none) (h : Accepted R built t₀ d) :
    R.deferred d.tables = none := by
  cases h with
  | start => exact h₀
  | commit _ _ _ hdeferred => exact hdeferred

end accepted

end PowerManage.Store
