import Mathlib.Data.List.Sort
import Mathlib.Data.Prod.Lex
import Mathlib.Data.String.Basic
import PowerManage.Store.Log

/-!
# Rebuilding a projection target

`RebuildAll` resets the tables of one target and replays its events in one
transaction, page by page, ordered by stream type, stream ID and version.

Main results:

- `replayPages_start_eq`: the page loop replays every event of the
  target's streams exactly once, in stream order.
- `rebuildAll_ok_iff`: when a rebuild succeeds and what it leaves.
-/

namespace PowerManage.Store

open List Relational

variable {B T W K : Type} [Applies W T]

/-! ## The foreign-key closure -/

/-- One round of following foreign keys from parents to children. -/
def closureStep (references : List (String × String)) (found : List String) : List String :=
  found ++ ((references.filter fun r => found.contains r.2 && !found.contains r.1).map
    Prod.fst).dedup

def rebuildTableClosure (schema : Schema) (tableNames : List String) : List String :=
  (closureStep schema.references)^[schema.references.length]
    (schema.tables.filter tableNames.contains)

/-- The tables and foreign keys that the migrations leave. -/
def productionSchema : Schema where
  tables :=
    ["events", "work_items", "inventory_snapshots", "execution_outputs",
      "execution_output_chunks", "registration_tokens", "devices", "certificate_revocations",
      "crl_state", "crl_work_receipts", "gateways", "ca_rotation_state", "refresh_families",
      "refresh_tokens", "personal_access_tokens", "users", "oidc_identities",
      "oidc_login_states", "bootstrap_logins", "scim_providers", "scim_identities",
      "scim_groups", "scim_group_members", "authorization_roles", "authorization_grants",
      "device_groups", "managed_user_groups", "managed_user_group_members", "oidc_providers",
      "server_settings", "managed_actions", "managed_action_sets", "assignments",
      "compliance_policies"]
  references :=
    [("work_items", "events"), ("execution_output_chunks", "execution_outputs"),
      ("certificate_revocations", "events"), ("crl_state", "events"),
      ("crl_work_receipts", "events"), ("refresh_tokens", "refresh_families"),
      ("oidc_identities", "users"), ("scim_identities", "users"),
      ("scim_group_members", "scim_groups"), ("authorization_grants", "authorization_roles"),
      ("managed_user_group_members", "managed_user_groups")]

def validateRebuildClosure (targetName : String) (targetTables closure : List String) :
    Except StoreError Unit :=
  let dependents := closure.filter fun table => !targetTables.contains table
  let missing := targetTables.filter fun table => !closure.contains table
  if dependents ≠ [] then
    .error (.message ("store: rebuild target " ++ quote targetName ++
      " excludes FK-dependent tables: " ++ ", ".intercalate (sortText dependents)))
  else if missing ≠ [] then
    .error (.message ("store: rebuild target " ++ quote targetName ++
      " references missing tables: " ++ ", ".intercalate (sortText missing)))
  else .ok ()

/-- Tables that are their own foreign-key closure. -/
def isClosed (schema : Schema) (tableNames : List String) : Bool :=
  (rebuildTableClosure schema tableNames).all tableNames.contains &&
    tableNames.all (rebuildTableClosure schema tableNames).contains

/-- A target that is its own closure passes the check. -/
theorem validateRebuildClosure_ok {targetName : String} {schema : Schema}
    {tableNames : List String} (h : isClosed schema tableNames = true) :
    validateRebuildClosure targetName tableNames (rebuildTableClosure schema tableNames) =
      .ok () := by
  simpa [isClosed, validateRebuildClosure] using h

def rebuildTargetTables (target : RebuildTarget B T) : List String :=
  target.tables ++ target.sharedTables

/-! ## The replay order -/

/-- The row order of `ListEventsForReplayPage`. -/
abbrev Position : Type := String ×ₗ String ×ₗ Nat

/-- Where an event stands in the replay order. -/
def position (e : PersistedEvent B) : Position :=
  toLex (e.streamType, toLex (e.streamID, e.streamVersion))

/-- The events of some stream types, in replay order. -/
def replayRows (events : List (PersistedEvent B)) (streamTypes : List String) :
    List (PersistedEvent B) :=
  (events.filter fun e => streamTypes.contains e.streamType).insertionSort
    fun a b => position a ≤ position b

def replayPageSize : Nat := 100

def listEventsForReplayPage (d : Database B T) (streamTypes : List String) (after : Position) :
    List (PersistedEvent B) :=
  ((replayRows d.events streamTypes).filter fun e => after < position e).take replayPageSize

/-! ## The rebuild -/

section rebuild

variable (R : Registry B T W K)

def replayEvent (target : RebuildTarget B T) (index : Nat) (e : PersistedEvent B)
    (d : Database B T) : Except StoreError (Database B T) :=
  let described := "store: replay event " ++ toString index ++ " type " ++
    quote (R.eventType e.body)
  if target.ownsEvent e.body then
    (projectEvent R true e d).mapError
      (.wrapped (described ++ " for target " ++ quote target.name))
  else .error (.message (described ++ " is outside rebuild target " ++ quote target.name))

/-- The events of one page, in order. -/
def replayPage (target : RebuildTarget B T) :
    Nat → List (PersistedEvent B) → Database B T → Except StoreError (Database B T)
  | _, [], d => .ok d
  | index, e :: es, d => do
      let d' ← replayEvent R target index e d
      replayPage target (index + 1) es d'

/-- The position that the next page starts after. -/
def pageEnd (after : Position) (page : List (PersistedEvent B)) : Position :=
  (page.getLast?.map position).getD after

/-- The page loop.  The fuel bounds the number of pages. -/
def replayPages (target : RebuildTarget B T) :
    Nat → Position → Nat → Database B T → Except StoreError (Database B T)
  | 0, _, _, _ => .error (.message "store: replay page limit")
  | fuel + 1, after, replayed, d => do
      let page := listEventsForReplayPage d target.streamTypes after
      let d' ← replayPage R target replayed page d
      if page.length < replayPageSize then .ok d'
      else replayPages target fuel (pageEnd after page) (replayed + page.length) d'

/-- `RebuildAll`, from the state its transaction sees. -/
def rebuildAll (targetName : String) (d : Database B T) : Except StoreError (Database B T) := do
  if trimSpace targetName == "" then
    .error (.message "store: rebuild target name is empty")
  match R.targets.find? (·.name == targetName) with
  | none =>
    .error (.message ("store: rebuild target " ++ quote targetName ++ " is not registered"))
  | some target =>
    let targetTables := rebuildTargetTables target
    validateRebuildClosure targetName targetTables
      (rebuildTableClosure R.schema targetTables)
    let d' ← replayPages R target (d.events.length + 1) (toLex ("", toLex ("", 0))) 0
      { d with tables := target.reset d.tables }
    match R.deferred d'.tables with
    | none => .ok d'
    | some e =>
      .error (.wrapped ("store: commit rebuild target " ++ quote targetName) e)

/-- Project a list of events in order, as a rebuild does. -/
def replayAll : List (PersistedEvent B) → Database B T → Except StoreError (Database B T)
  | [], d => .ok d
  | e :: es, d => do
      let d' ← projectEvent R true e d
      replayAll es d'

end rebuild

/-! ## Rows in replay order -/

section order

variable {events : List (PersistedEvent B)}

theorem position_lt_iff {a b : PersistedEvent B} : position a < position b ↔
    a.streamType < b.streamType ∨ a.streamType = b.streamType ∧
      (a.streamID < b.streamID ∨ a.streamID = b.streamID ∧ a.streamVersion < b.streamVersion) := by
  simp [position, Prod.Lex.toLex_lt_toLex]

/-- Within one stream the replay order is the version order. -/
theorem position_lt_of_stream {a b : PersistedEvent B} (hstream : a.stream = b.stream)
    (h : a.streamVersion < b.streamVersion) : position a < position b := by
  have htype : a.streamType = b.streamType := congrArg Prod.fst hstream
  have hid : a.streamID = b.streamID := congrArg Prod.snd hstream
  rw [position_lt_iff]
  exact .inr ⟨htype, .inr ⟨hid, h⟩⟩

/-- The events of one stream stand in version order. -/
theorem Contiguous.pairwise_stream (h : Contiguous events) (stream : String × String) :
    (events.filter fun e => e.stream = stream).Pairwise fun a b => position a < position b := by
  have hversions : ((events.filter fun e => e.stream = stream).map (·.streamVersion)).Pairwise
      (· < ·) := by
    have hv := h stream
    rw [versionsOf] at hv
    rw [hv]
    exact pairwise_lt_range'
  rw [pairwise_map] at hversions
  refine hversions.imp_of_mem ?_
  intro a b ha hb hab
  have hsa : a.stream = stream := by simpa using (mem_filter.mp ha).2
  have hsb : b.stream = stream := by simpa using (mem_filter.mp hb).2
  exact position_lt_of_stream (hsa.trans hsb.symm) hab

/-- No two events of a contiguous log share a position. -/
theorem Contiguous.pairwise_ne (h : Contiguous events) :
    events.Pairwise fun a b => position a ≠ position b := by
  rw [pairwise_iff_forall_sublist]
  intro a b hab heq
  have hstream : b.stream = a.stream := by
    have hpair := Prod.mk.inj (toLex.injective heq)
    have hid := (Prod.mk.inj (toLex.injective hpair.2)).1
    exact (Prod.ext hpair.1 hid).symm
  have hsub : [a, b].Sublist (events.filter fun e => e.stream = a.stream) := by
    have hfilter := hab.filter fun e => e.stream = a.stream
    simpa [filter_cons, hstream] using hfilter
  have hlt := (h.pairwise_stream a.stream).sublist hsub
  exact (rel_of_pairwise_cons hlt mem_cons_self).ne heq

/-- The rows of a replay stand in strictly increasing positions. -/
theorem replayRows_pairwise (h : Contiguous events) (streamTypes : List String) :
    (replayRows events streamTypes).Pairwise fun a b => position a < position b := by
  have hle : (replayRows events streamTypes).Pairwise fun a b => position a ≤ position b := by
    exact pairwise_insertionSort _ _
  have hne : (replayRows events streamTypes).Pairwise fun a b => position a ≠ position b := by
    have hperm : List.Perm (replayRows events streamTypes)
        (events.filter fun e => streamTypes.contains e.streamType) := perm_insertionSort _ _
    rw [hperm.pairwise_iff fun hab hba => hab hba.symm]
    exact h.pairwise_ne.filter _
  exact (hle.and hne).imp fun hab => lt_of_le_of_ne hab.1 hab.2

variable {streamTypes : List String}

theorem mem_replayRows {e : PersistedEvent B} :
    e ∈ replayRows events streamTypes ↔ e ∈ events ∧ e.streamType ∈ streamTypes := by
  simp [replayRows]

/-- A replay sees one stream's events as the log has them. -/
theorem replayRows_filter_stream (h : Contiguous events) {stream : String × String}
    (hstream : stream.1 ∈ streamTypes) :
    (replayRows events streamTypes).filter (fun e => e.stream = stream) =
      events.filter fun e => e.stream = stream := by
  have hperm : List.Perm (replayRows events streamTypes)
      (events.filter fun e => streamTypes.contains e.streamType) := perm_insertionSort _ _
  have hsame : (events.filter fun e => streamTypes.contains e.streamType).filter
      (fun e => e.stream = stream) = events.filter fun e => e.stream = stream := by
    rw [filter_filter]
    apply filter_congr
    intro e _
    by_cases he : e.stream = stream
    · have htype : e.streamType ∈ streamTypes := by
        rw [← he] at hstream
        exact hstream
      simp [he, htype]
    · simp [he]
  have hperm' := hperm.filter fun e => decide (e.stream = stream)
  rw [hsame] at hperm'
  refine hperm'.eq_of_pairwise ?_ ((replayRows_pairwise h streamTypes).filter _)
    (h.pairwise_stream stream)
  intro a b _ _ hab hba
  exact absurd hab hba.asymm

end order

/-! ## The page loop -/

section pages

variable {R : Registry B T W K} {target : RebuildTarget B T}

variable {es : List (PersistedEvent B)} {d d' d₀ : Database B T}

theorem replayAll_events (h : replayAll R es d = .ok d') : d'.events = d.events := by
  induction es generalizing d with
  | nil =>
    simp [replayAll] at h
    rw [h]
  | cons e es ih =>
    rw [replayAll, bind_eq_ok] at h
    obtain ⟨d₁, hproject, hrest⟩ := h
    rw [ih hrest, (projectEvent_writes (Prog.Writes.top _) hproject).1]

/-- The bookkeeping of a page changes no successful replay. -/
theorem replayPage_ok_iff {index : Nat} (howns : ∀ e ∈ es, target.ownsEvent e.body = true) :
    replayPage R target index es d = .ok d' ↔ replayAll R es d = .ok d' := by
  induction es generalizing index d with
  | nil => rfl
  | cons e es ih =>
    have hrest : ∀ d, replayPage R target (index + 1) es d = .ok d' ↔
        replayAll R es d = .ok d' := fun d =>
      ih (forall_mem_cons.mp howns).2
    simp only [replayPage, replayEvent, howns e mem_cons_self, if_true, bind_eq_ok,
      mapError_eq_ok, replayAll, hrest]

/-- A page continues where the one before it stopped. -/
theorem replayPage_append (es es' : List (PersistedEvent B)) (index : Nat) (d : Database B T) :
    replayPage R target index (es ++ es') d =
      replayPage R target index es d >>= replayPage R target (index + es.length) es' := by
  induction es generalizing index d with
  | nil => rfl
  | cons e es ih =>
    have hindex : index + (e :: es).length = index + 1 + es.length := by
      rw [length_cons]
      omega
    simp only [cons_append, replayPage, bind_assoc, ih, hindex]

theorem replayPage_events {index : Nat} (h : replayPage R target index es d = .ok d') :
    d'.events = d.events := by
  induction es generalizing index d with
  | nil =>
    simp [replayPage] at h
    rw [h]
  | cons e es ih =>
    rw [replayPage, bind_eq_ok] at h
    obtain ⟨d₁, hevent, hrest⟩ := h
    unfold replayEvent at hevent
    split at hevent
    · rw [mapError_eq_ok] at hevent
      rw [ih hrest, (projectEvent_writes (Prog.Writes.top _) hevent).1]
    · cases hevent

/-- After a full page the rows that are left are those past its end. -/
theorem filter_pageEnd {before page rest : List (PersistedEvent B)} (hpage : page ≠ [])
    (h : (before ++ page ++ rest).Pairwise fun a b => position a < position b) (after : Position) :
    (before ++ page ++ rest).filter (fun e => pageEnd after page < position e) = rest := by
  obtain ⟨init, last, rfl⟩ := (eq_nil_or_concat' page).resolve_left hpage
  have hend : pageEnd after (init ++ [last]) = position last := by simp [pageEnd]
  rw [hend]
  obtain ⟨hbefore, -, hafter⟩ := pairwise_append.mp h
  have hnone : (before ++ (init ++ [last])).filter (fun e => position last < position e) = [] := by
    rw [filter_eq_nil_iff]
    intro e he
    rw [← append_assoc] at he hbefore
    rcases mem_append.mp he with he | he
    · have hlt := (pairwise_append.mp hbefore).2.2 e he last (mem_singleton_self last)
      simpa using hlt.le
    · rw [mem_singleton] at he
      simp [he]
  have hall : rest.filter (fun e => position last < position e) = rest := by
    rw [filter_eq_self]
    intro e he
    simpa using hafter last (by simp) e he
  rw [filter_append, hnone, hall, nil_append]

/-- The page loop replays the remaining rows in order, as one page would. -/
theorem replayPages_eq (hcont : Contiguous d₀.events) {fuel : Nat} {after : Position}
    {replayed : Nat} (hevents : d.events = d₀.events) {before rest : List (PersistedEvent B)}
    (hrows : replayRows d₀.events target.streamTypes = before ++ rest)
    (hafter : (before ++ rest).filter (fun e => after < position e) = rest)
    (hfuel : rest.length < fuel) :
    replayPages R target fuel after replayed d = replayPage R target replayed rest d := by
  induction fuel generalizing after replayed d before rest with
  | zero => omega
  | succ fuel ih =>
    have hpage : listEventsForReplayPage d target.streamTypes after =
        rest.take replayPageSize := by
      rw [listEventsForReplayPage, hevents, hrows, hafter]
    simp only [replayPages, hpage]
    by_cases hlast : rest.length < replayPageSize
    · -- The last page is short and holds everything that is left.
      have hall : rest.take replayPageSize = rest := take_of_length_le hlast.le
      simp only [hall, hlast, if_true]
      exact bind_pure (replayPage R target replayed rest d)
    · have hlength : (rest.take replayPageSize).length = replayPageSize := by
        rw [length_take]
        omega
      have hne : rest.take replayPageSize ≠ [] := by
        intro hnil
        rw [hnil, length_nil] at hlength
        exact absurd hlength (by decide)
      have hsplit : before ++ rest =
          before ++ rest.take replayPageSize ++ rest.drop replayPageSize := by
        rw [append_assoc, take_append_drop]
      have hsorted := replayRows_pairwise hcont target.streamTypes
      rw [hrows, hsplit] at hsorted
      have hpos : 0 < replayPageSize := by decide
      have hfuel' : (rest.drop replayPageSize).length < fuel := by
        rw [length_drop]
        omega
      have hfull : ¬ (rest.take replayPageSize).length < replayPageSize := by omega
      have hwhole : replayPage R target replayed rest d =
          replayPage R target replayed (rest.take replayPageSize) d >>=
            replayPage R target (replayed + (rest.take replayPageSize).length)
              (rest.drop replayPageSize) := by
        rw [← replayPage_append, take_append_drop]
      rw [hwhole]
      cases hpaged : replayPage R target replayed (rest.take replayPageSize) d with
      | error e => rfl
      | ok d₁ =>
        simp only [hfull, if_false]
        exact ih ((replayPage_events hpaged).trans hevents) (hrows.trans hsplit)
          (filter_pageEnd hne hsorted after) hfuel'

/-- Every row of a named stream type comes after the start of the loop. -/
theorem start_lt_position {e : PersistedEvent B} (h : e.streamType ≠ "") :
    (toLex ("", toLex ("", 0)) : Position) < position e := by
  have hlt : "" < e.streamType := by
    rw [String.lt_iff_toList_lt]
    cases hchars : e.streamType.toList with
    | nil => exact absurd (String.toList_eq_nil_iff.mp hchars) h
    | cons c cs => exact nil_lt_cons c cs
  rw [position, Prod.Lex.toLex_lt_toLex]
  exact .inl hlt

/-- The page loop of a rebuild replays all of the target's rows as one page would. -/
theorem replayPages_start_eq (hevents : d.events = d₀.events) (hcont : Contiguous d₀.events)
    (htypes : "" ∉ target.streamTypes) :
    replayPages R target (d₀.events.length + 1) (toLex ("", toLex ("", 0))) 0 d =
      replayPage R target 0 (replayRows d₀.events target.streamTypes) d := by
  have hrows : replayRows d₀.events target.streamTypes =
      [] ++ replayRows d₀.events target.streamTypes := rfl
  refine replayPages_eq hcont hevents hrows ?_ ?_
  · rw [nil_append, filter_eq_self]
    intro e he
    have htype : e.streamType ∈ target.streamTypes := (mem_replayRows.mp he).2
    rw [decide_eq_true_eq]
    exact start_lt_position fun hempty => htypes (hempty ▸ htype)
  · have hperm : (replayRows d₀.events target.streamTypes).length =
        (d₀.events.filter fun e => target.streamTypes.contains e.streamType).length :=
      (perm_insertionSort _ _).length_eq
    have hle := length_filter_le (fun e => target.streamTypes.contains e.streamType) d₀.events
    omega

/-- When a rebuild of a registered target succeeds, and what it leaves. -/
theorem rebuildAll_ok_iff {targetName : String} (hname : trimSpace targetName ≠ "")
    (htarget : R.targets.find? (·.name == targetName) = some target)
    (hclosure : validateRebuildClosure targetName (rebuildTargetTables target)
      (rebuildTableClosure R.schema (rebuildTargetTables target)) = .ok ())
    (hcont : Contiguous d.events) (htypes : "" ∉ target.streamTypes)
    (howns : ∀ e ∈ replayRows d.events target.streamTypes, target.ownsEvent e.body = true) :
    rebuildAll R targetName d = .ok d' ↔
      replayAll R (replayRows d.events target.streamTypes)
        { d with tables := target.reset d.tables } = .ok d' ∧ R.deferred d'.tables = none := by
  have hnameb : (trimSpace targetName == "") = false := by simpa using hname
  simp only [rebuildAll, hnameb, Bool.false_eq_true, if_false, htarget, hclosure, bind_eq_ok,
    replayPages_start_eq (d := { d with tables := target.reset d.tables }) rfl hcont htypes,
    replayPage_ok_iff howns]
  constructor
  · rintro ⟨_, -, d₁, hreplay, hcommit⟩
    cases hdeferred : R.deferred d₁.tables with
    | some e => simp [hdeferred] at hcommit
    | none =>
      simp [hdeferred] at hcommit
      subst hcommit
      exact ⟨hreplay, hdeferred⟩
  · rintro ⟨hreplay, hdeferred⟩
    exact ⟨(), trivial, d', hreplay, by rw [hdeferred]⟩

end pages

/-! ## The events of an accepted log -/

section accepted

variable {R : Registry B T W K} {built : Event B → Prop} {target : RebuildTarget B T}

variable {d : Database B T}

omit [Applies W T] in
/-- An admissible event's stream type belongs to the target that owns its type. -/
theorem Admissible.owner {e : PersistedEvent B} (h : Admissible R built d e) :
    ∃ t ∈ R.targets, t.ownsEvent e.body = true ∧ e.streamType ∈ t.streamTypes := by
  obtain ⟨raw, -, hraw⟩ := h.prepared
  obtain ⟨-, -, t, ht, htype⟩ := Registry.prepareEvent_ok hraw
  have howns : t.ownsEvent e.body = true :=
    find?_some (p := fun t : RebuildTarget B T => t.ownsEvent e.body) ht
  exact ⟨t, mem_of_find?_eq_some ht, howns, htype⟩

omit [Applies W T] in
/-- The stream ID of an admissible event is in upper case. -/
theorem Admissible.folded {e : PersistedEvent B} (h : Admissible R built d e)
    (htype : e.streamType ≠ caRotationStreamType) : toUpper e.streamID = e.streamID := by
  obtain ⟨raw, -, hraw⟩ := h.prepared
  obtain ⟨-, hfold, -⟩ := Registry.prepareEvent_ok hraw
  rw [foldStreamID_streamType hfold] at htype
  rw [foldStreamID, if_neg htype] at hfold
  have hid : e.streamID = toUpper raw.streamID := congrArg Event.streamID hfold
  rw [hid, toUpper_toUpper]

theorem Extends.admissible {d' : Database B T} {es : List (PersistedEvent B)}
    (h : Extends R built d es d') : ∀ e ∈ es, ∃ d, Admissible R built d e := by
  induction h with
  | nil d => simp
  | cons hadm _ _ ih =>
    intro e he
    rcases mem_cons.mp he with rfl | he
    · exact ⟨_, hadm⟩
    · exact ih e he

/-- A target owns every event of its stream types in an accepted log. -/
theorem Accepted.owns {t₀ : T} (h : Accepted R built t₀ d) (htarget : target ∈ R.targets) :
    ∀ e ∈ replayRows d.events target.streamTypes, target.ownsEvent e.body = true := by
  intro e he
  obtain ⟨hmem, htype⟩ := mem_replayRows.mp he
  obtain ⟨d₁, hadm⟩ := h.extends.admissible e hmem
  obtain ⟨t, ht, howns, hstream⟩ := hadm.owner
  rwa [R.stream_owner target htarget t ht e.streamType htype hstream]

theorem Accepted.contiguous {t₀ : T} (h : Accepted R built t₀ d) : Contiguous d.events :=
  h.extends.contiguous contiguous_nil

end accepted

end PowerManage.Store
