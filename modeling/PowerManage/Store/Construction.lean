import Mathlib.Data.List.Pairwise
import PowerManage.Store.AppendRuns
import PowerManage.Store.Rebuild

/-!
# Constructing a store

`New` accepts a map of projectors and a map of rebuild targets only if every
event type has one projector and one target and no stream type or exclusive table
has two targets.  Every store it builds is a `Registry` of the append and
rebuild models.

Main results:

- `new_sound`: what every store that `New` builds satisfies.
- `registry_prepareEvent`: the checks of an append on such a store.
- `registry_partitions_log`: each event that an append path accepts
  has one target, and the targets replay the log event for event.
-/

namespace PowerManage.Store

open List Relational ReadCommitted

variable {P B T W K : Type}

/-! ## Configuration -/

/-- A Go map with text keys, listed in the order of `slices.Sorted(maps.Keys(m))`. -/
structure GoMap (α : Type) where
  entries : List (String × α)
  sorted : entries.Pairwise fun a b => a.1 < b.1

/-- `RebuildTarget` as configured; `none` is a nil reset. -/
structure TargetConfig (T : Type) where
  tables : List String
  sharedTables : List String
  streamTypes : List String
  eventTypes : List String
  reset : Option (T → T)

/-- A registered target. -/
structure BuiltTarget (T : Type) where
  name : String
  tables : List String
  sharedTables : List String
  streamTypes : List String
  eventTypes : List String
  reset : T → T

/-- `Store`, without its pool and its last-administrator policy. -/
structure BuiltStore (P T : Type) where
  projectors : List (String × P)
  rebuildTargets : List (BuiltTarget T)
  eventTargets : List (String × String)

/-! ## Claims -/

/-- Who claimed a table, a stream type or an event type. -/
abbrev Owners : Type := List (String × String)

/-- The loop of `claimRebuildValues`. -/
def claimValues (targetName kind : String) : List String → Owners → Except StoreError Owners
  | [], owners => .ok owners
  | value :: values, owners =>
    if trimSpace value = "" then
      .error (.message ("store: rebuild target " ++ quote targetName ++ " has an empty " ++ kind))
    else
      match owners.lookup value with
      | some owner =>
        .error (.message ("store: rebuild " ++ kind ++ " " ++ quote value ++
          " is owned by both " ++ quote owner ++ " and " ++ quote targetName))
      | none => claimValues targetName kind values ((value, targetName) :: owners)

def claimRebuildValues (targetName kind : String) (values : List String) (owners : Owners) :
    Except StoreError Owners :=
  if values = [] then
    .error (.message ("store: rebuild target " ++ quote targetName ++ " has no " ++ kind ++ "s"))
  else claimValues targetName kind values owners

/-- The first loop of `claimRebuildTables`. -/
def claimTables (targetName : String) (sharedOwners : Owners) :
    List String → Owners → Except StoreError Owners
  | [], owners => .ok owners
  | table :: tables, owners =>
    if trimSpace table = "" then
      .error (.message ("store: rebuild target " ++ quote targetName ++ " has an empty table"))
    else
      match owners.lookup table with
      | some owner =>
        .error (.message ("store: rebuild table " ++ quote table ++ " is owned by both " ++
          quote owner ++ " and " ++ quote targetName))
      | none =>
        if (sharedOwners.lookup table).isSome then
          .error (.message ("store: rebuild table " ++ quote table ++
            " is both exclusive and shared"))
        else claimTables targetName sharedOwners tables ((table, targetName) :: owners)

/-- The second loop of `claimRebuildTables`. -/
def claimSharedTables (targetName : String) (owners : Owners) :
    List String → List String → Owners → Except StoreError Owners
  | [], _, sharedOwners => .ok sharedOwners
  | table :: tables, seen, sharedOwners =>
    if trimSpace table = "" then
      .error (.message ("store: rebuild target " ++ quote targetName ++
        " has an empty shared table"))
    else if seen.contains table then
      .error (.message ("store: rebuild target " ++ quote targetName ++
        " repeats shared table " ++ quote table))
    else
      match owners.lookup table with
      | some owner =>
        .error (.message ("store: rebuild table " ++ quote table ++ " is both exclusive to " ++
          quote owner ++ " and shared by " ++ quote targetName))
      | none =>
        claimSharedTables targetName owners tables (table :: seen)
          ((table, targetName) :: sharedOwners)

/-- `claimRebuildTables`: the exclusive and the shared owners afterwards. -/
def claimRebuildTables (targetName : String) (tables sharedTables : List String)
    (owners sharedOwners : Owners) : Except StoreError (Owners × Owners) :=
  if tables.length + sharedTables.length = 0 then
    .error (.message ("store: rebuild target " ++ quote targetName ++ " has no tables"))
  else do
    let owners ← claimTables targetName sharedOwners tables owners
    let sharedOwners ← claimSharedTables targetName owners sharedTables [] sharedOwners
    .ok (owners, sharedOwners)

/-- The owners that `copyRebuildTargets` has seen so far. -/
structure Ownership where
  tables : Owners := []
  sharedTables : Owners := []
  streams : Owners := []
  events : Owners := []

/-- Every event type of a target has a projector. -/
def requireProjectors (targetName : String) (projectors : List (String × P)) :
    List String → Except StoreError Unit
  | [] => .ok ()
  | eventType :: eventTypes =>
    match projectors.lookup eventType with
    | none =>
      .error (.message ("store: rebuild target " ++ quote targetName ++
        " references event type " ++ quote eventType ++ " without a projector"))
    | some _ => requireProjectors targetName projectors eventTypes

/-- One round of the loop in `copyRebuildTargets`. -/
def copyRebuildTarget (projectors : List (String × P)) (name : String)
    (target : TargetConfig T) (owned : Ownership) : Except StoreError (BuiltTarget T × Ownership) :=
  if trimSpace name = "" then .error (.message "store: rebuild target name is empty")
  else match target.reset with
  | none => .error (.message ("store: rebuild target " ++ quote name ++ " has nil reset"))
  | some reset => do
      let (tables, sharedTables) ← claimRebuildTables name target.tables target.sharedTables
        owned.tables owned.sharedTables
      let streams ← claimRebuildValues name "stream type" target.streamTypes owned.streams
      let events ← claimRebuildValues name "event type" target.eventTypes owned.events
      requireProjectors name projectors target.eventTypes
      .ok ({ target with name, reset }, { tables, sharedTables, streams, events })

/-- The loop in `copyRebuildTargets`. -/
def copyTargets (projectors : List (String × P)) :
    List (String × TargetConfig T) → Ownership →
      Except StoreError (List (BuiltTarget T) × Ownership)
  | [], owned => .ok ([], owned)
  | (name, target) :: targets, owned => do
      let (built, owned) ← copyRebuildTarget projectors name target owned
      let (rest, owned) ← copyTargets projectors targets owned
      .ok (built :: rest, owned)

/-- Every event type with a projector has a target. -/
def requireTargets (owners : Owners) : List (String × P) → Except StoreError Unit
  | [] => .ok ()
  | (eventType, _) :: projectors =>
    match owners.lookup eventType with
    | none =>
      .error (.message ("store: projector event type " ++ quote eventType ++
        " has no rebuild target"))
    | some _ => requireTargets owners projectors

def copyRebuildTargets (projectors : List (String × P))
    (targets : List (String × TargetConfig T)) : Except StoreError (List (BuiltTarget T)) :=
  if targets = [] then
    .error (.message ("store: projector event type " ++
      quote ((projectors.head?.map Prod.fst).getD "") ++ " has no rebuild target"))
  else do
    let (built, owned) ← copyTargets projectors targets {}
    requireTargets owned.events projectors
    .ok built

/-- The copy of the projectors in `New`. -/
def copyProjectors : List (String × Option P) → Except StoreError (List (String × P))
  | [] => .ok []
  | (eventType, projector) :: projectors =>
    if trimSpace eventType = "" then
      .error (.message "store: projector event type is empty")
    else
      match projector with
      | none =>
        .error (.message ("store: projector for event type " ++ quote eventType ++ " is nil"))
      | some projector => do
          let rest ← copyProjectors projectors
          .ok ((eventType, projector) :: rest)

def new (projectors : GoMap (Option P)) (rebuildTargets : GoMap (TargetConfig T)) :
    Except StoreError (BuiltStore P T) :=
  if projectors.entries = [] then .error (.message "store: projector registry is empty")
  else do
    let registry ← copyProjectors projectors.entries
    let targets ← copyRebuildTargets registry rebuildTargets.entries
    .ok
      { projectors := registry
        rebuildTargets := targets
        eventTargets := targets.flatMap fun t => t.eventTypes.map (·, t.name) }

/-! ## What an accepted configuration guarantees -/

/-- The event types of a store have one projector and one target each, and no two
targets share a name or a stream type. -/
structure BuiltStore.Sound (s : BuiltStore P T) : Prop where
  names : (s.rebuildTargets.map (·.name)).Nodup
  streams : s.rebuildTargets.Pairwise fun t t' => t.streamTypes.Disjoint t'.streamTypes
  events : s.rebuildTargets.Pairwise fun t t' => t.eventTypes.Disjoint t'.eventTypes
  named : ∀ t ∈ s.rebuildTargets, "" ∉ t.streamTypes
  projected : ∀ t ∈ s.rebuildTargets, ∀ eventType ∈ t.eventTypes,
    (s.projectors.lookup eventType).isSome
  covered : ∀ eventType, (s.projectors.lookup eventType).isSome →
    ∃ t ∈ s.rebuildTargets, eventType ∈ t.eventTypes
  eventTargets : s.eventTargets =
    s.rebuildTargets.flatMap fun t => t.eventTypes.map (·, t.name)

/-- The values that some owner has claimed. -/
def Claimed (owners : Owners) (value : String) : Prop :=
  (owners.lookup value).isSome

variable {owners : Owners} {projectors : List (String × P)}

theorem claimed_cons {value other owner : String} :
    Claimed ((other, owner) :: owners) value ↔ value = other ∨ Claimed owners value := by
  by_cases h : value = other
  · simp [Claimed, h]
  · have hne : (value == other) = false := by simpa using h
    simp [Claimed, lookup_cons, h, hne]

variable {targetName kind : String}

/-- Claimed values were free and named, and are taken afterwards. -/
theorem claimValues_ok {values : List String} {owners' : Owners}
    (h : claimValues targetName kind values owners = .ok owners') :
    (∀ value ∈ values, ¬ Claimed owners value) ∧ "" ∉ values ∧
      ∀ value, Claimed owners' value ↔ value ∈ values ∨ Claimed owners value := by
  induction values generalizing owners with
  | nil =>
    simp only [claimValues, Except.ok.injEq] at h
    simp [h]
  | cons head values ih =>
    rw [claimValues, ite_error_eq_ok] at h
    obtain ⟨hblank, h⟩ := h
    cases hfree : owners.lookup head with
    | some owner => simp [hfree] at h
    | none =>
      simp only [hfree] at h
      obtain ⟨hvalues, hnamed, hafter⟩ := ih h
      have hhead : ¬ Claimed owners head := by simp [Claimed, hfree]
      refine ⟨?_, ?_, ?_⟩
      · intro value hvalue hclaimed
        rcases mem_cons.mp hvalue with rfl | hvalue
        · exact hhead hclaimed
        · exact hvalues value hvalue (claimed_cons.mpr (.inr hclaimed))
      · intro hempty
        rcases mem_cons.mp hempty with rfl | hempty
        · exact hblank (by decide)
        · exact hnamed hempty
      · intro value
        rw [hafter value, claimed_cons, mem_cons, or_left_comm, or_assoc]

theorem claimValues_of_rebuild {values : List String} {owners' : Owners}
    (h : claimRebuildValues targetName kind values owners = .ok owners') :
    claimValues targetName kind values owners = .ok owners' := by
  rw [claimRebuildValues, ite_error_eq_ok] at h
  exact h.2

theorem requireProjectors_ok {targetName : String} {eventTypes : List String}
    (h : requireProjectors targetName projectors eventTypes = .ok ()) :
    ∀ eventType ∈ eventTypes, (projectors.lookup eventType).isSome := by
  induction eventTypes with
  | nil => simp
  | cons head eventTypes ih =>
    rw [requireProjectors] at h
    cases hlookup : projectors.lookup head with
    | none => simp [hlookup] at h
    | some p =>
      simp only [hlookup] at h
      intro eventType hmem
      rcases mem_cons.mp hmem with rfl | hmem
      · simp [hlookup]
      · exact ih h eventType hmem

theorem requireTargets_ok (h : requireTargets owners projectors = .ok ()) :
    ∀ eventType, (projectors.lookup eventType).isSome → Claimed owners eventType := by
  induction projectors with
  | nil => simp
  | cons head projectors ih =>
    obtain ⟨name, p⟩ := head
    rw [requireTargets] at h
    cases hlookup : owners.lookup name with
    | none => simp [hlookup] at h
    | some owner =>
      simp only [hlookup] at h
      intro eventType hsome
      by_cases heq : eventType = name
      · simp [heq, Claimed, hlookup]
      · have hne : (eventType == name) = false := by simpa using heq
        rw [lookup_cons, hne] at hsome
        exact ih h eventType hsome

variable {owned owned' : Ownership}

/-- What a round of the loop has checked and claimed. -/
theorem copyRebuildTarget_ok {name : String} {target : TargetConfig T} {built : BuiltTarget T}
    (h : copyRebuildTarget projectors name target owned = .ok (built, owned')) :
    built.name = name ∧ "" ∉ built.streamTypes ∧
      (∀ eventType ∈ built.eventTypes, (projectors.lookup eventType).isSome) ∧
      ((∀ v ∈ built.streamTypes, ¬ Claimed owned.streams v) ∧
        ∀ v, Claimed owned'.streams v ↔ v ∈ built.streamTypes ∨ Claimed owned.streams v) ∧
      ((∀ v ∈ built.eventTypes, ¬ Claimed owned.events v) ∧
        ∀ v, Claimed owned'.events v ↔ v ∈ built.eventTypes ∨ Claimed owned.events v) := by
  rw [copyRebuildTarget, ite_error_eq_ok] at h
  obtain ⟨-, h⟩ := h
  cases hreset : target.reset with
  | none => simp [hreset] at h
  | some reset =>
    simp only [hreset, bind_eq_ok] at h
    obtain ⟨⟨tables, sharedTables⟩, -, streams, hstreams, events, hevents, _, hprojectors, h⟩ := h
    obtain ⟨rfl, rfl⟩ := Prod.mk.inj (Except.ok.inj h)
    obtain ⟨hfreeS, hnamedS, hafterS⟩ := claimValues_ok (claimValues_of_rebuild hstreams)
    obtain ⟨hfreeE, -, hafterE⟩ := claimValues_ok (claimValues_of_rebuild hevents)
    exact ⟨rfl, hnamedS, requireProjectors_ok hprojectors, ⟨hfreeS, hafterS⟩, ⟨hfreeE, hafterE⟩⟩

/-- What the loop over the targets has built and claimed. -/
structure Copied (projectors : List (String × P)) (owned owned' : Ownership)
    (built : List (BuiltTarget T)) : Prop where
  streams : built.Pairwise fun t t' => t.streamTypes.Disjoint t'.streamTypes
  events : built.Pairwise fun t t' => t.eventTypes.Disjoint t'.eventTypes
  freeStreams : ∀ t ∈ built, ∀ v ∈ t.streamTypes, ¬ Claimed owned.streams v
  freeEvents : ∀ t ∈ built, ∀ v ∈ t.eventTypes, ¬ Claimed owned.events v
  named : ∀ t ∈ built, "" ∉ t.streamTypes
  projected : ∀ t ∈ built, ∀ v ∈ t.eventTypes, (projectors.lookup v).isSome
  claimed : ∀ v, Claimed owned'.events v → Claimed owned.events v ∨ ∃ t ∈ built, v ∈ t.eventTypes

/-- The loop keeps the targets apart: each round claims only what is free. -/
theorem copyTargets_ok {targets : List (String × TargetConfig T)} {built : List (BuiltTarget T)}
    (h : copyTargets projectors targets owned = .ok (built, owned')) :
    built.map (·.name) = targets.map Prod.fst ∧ Copied projectors owned owned' built := by
  induction targets generalizing owned built with
  | nil =>
    obtain ⟨rfl, rfl⟩ := Prod.mk.inj (Except.ok.inj h)
    exact ⟨rfl, .nil, .nil, by simp, by simp, by simp, by simp, fun v hv => .inl hv⟩
  | cons head targets ih =>
    rw [copyTargets, bind_eq_ok] at h
    obtain ⟨⟨t, owned₁⟩, hround, h⟩ := h
    rw [bind_eq_ok] at h
    obtain ⟨⟨rest, owned₂⟩, hrest, h⟩ := h
    obtain ⟨rfl, rfl⟩ := Prod.mk.inj (Except.ok.inj h)
    obtain ⟨hname, hnamed, hprojected, ⟨hfreeS, hafterS⟩, hfreeE, hafterE⟩ :=
      copyRebuildTarget_ok hround
    obtain ⟨hnames, hcopied⟩ := ih hrest
    refine ⟨by simp [hname, hnames], ?_, ?_, ?_, ?_, ?_, ?_, ?_⟩
    · refine pairwise_cons.mpr ⟨?_, hcopied.streams⟩
      intro t' ht' v hv hv'
      exact hcopied.freeStreams t' ht' v hv' ((hafterS v).mpr (.inl hv))
    · refine pairwise_cons.mpr ⟨?_, hcopied.events⟩
      intro t' ht' v hv hv'
      exact hcopied.freeEvents t' ht' v hv' ((hafterE v).mpr (.inl hv))
    · refine forall_mem_cons.mpr ⟨hfreeS, ?_⟩
      intro t' ht' v hv hclaimed
      exact hcopied.freeStreams t' ht' v hv ((hafterS v).mpr (.inr hclaimed))
    · refine forall_mem_cons.mpr ⟨hfreeE, ?_⟩
      intro t' ht' v hv hclaimed
      exact hcopied.freeEvents t' ht' v hv ((hafterE v).mpr (.inr hclaimed))
    · exact forall_mem_cons.mpr ⟨hnamed, hcopied.named⟩
    · exact forall_mem_cons.mpr ⟨hprojected, hcopied.projected⟩
    · intro v hv
      rcases hcopied.claimed v hv with hv | ⟨t', ht', hmem⟩
      · rcases (hafterE v).mp hv with hv | hv
        · exact .inr ⟨t, mem_cons_self, hv⟩
        · exact .inl hv
      · exact .inr ⟨t', mem_cons_of_mem _ ht', hmem⟩

/-- Every store that `New` builds is sound. -/
theorem new_sound {projectors : GoMap (Option P)} {rebuildTargets : GoMap (TargetConfig T)}
    {s : BuiltStore P T} (h : new projectors rebuildTargets = .ok s) : s.Sound := by
  rw [new, ite_error_eq_ok, bind_eq_ok] at h
  obtain ⟨-, registry, -, h⟩ := h
  rw [bind_eq_ok] at h
  obtain ⟨targets, hcopy, h⟩ := h
  have hs := Except.ok.inj h
  subst hs
  rw [copyRebuildTargets, ite_error_eq_ok, bind_eq_ok] at hcopy
  obtain ⟨-, ⟨built, owned⟩, hloop, hcopy⟩ := hcopy
  rw [check_bind_eq_ok] at hcopy
  obtain ⟨hcovered, hbuilt⟩ := hcopy
  have hbuilt := Except.ok.inj hbuilt
  subst hbuilt
  obtain ⟨hnames, hcopied⟩ := copyTargets_ok hloop
  refine ⟨?_, hcopied.streams, hcopied.events, hcopied.named, hcopied.projected, ?_, rfl⟩
  · have hsorted : (rebuildTargets.entries.map Prod.fst).Pairwise (· < ·) :=
      pairwise_map.mpr rebuildTargets.sorted
    simp only [hnames]
    exact hsorted.imp fun hlt => hlt.ne
  · intro eventType hsome
    rcases hcopied.claimed eventType (requireTargets_ok hcovered eventType hsome) with hno | hyes
    · simp [Claimed] at hno
    · exact hyes

/-- Two targets that claim one value are the same target. -/
theorem claimant_unique {targets : List (BuiltTarget T)} {values : BuiltTarget T → List String}
    (h : targets.Pairwise fun t t' => (values t).Disjoint (values t')) {t t' : BuiltTarget T}
    (ht : t ∈ targets) (ht' : t' ∈ targets) {value : String} (hv : value ∈ values t)
    (hv' : value ∈ values t') : t = t' := by
  by_contra hne
  have hsymm : Std.Symm fun t t' : BuiltTarget T => (values t).Disjoint (values t') :=
    ⟨fun _ _ hdisjoint _ hl hr => hdisjoint hr hl⟩
  exact h.forall ht ht' hne hv hv'

/-! ## The registry of a built store -/

/-- `Projector`, with the `skipWork` flag of its transaction. -/
abbrev Projector (B T W K : Type) : Type :=
  Bool → PersistedEvent B → Prog (Database B T) W K StoreError Unit

/-- What the append and rebuild paths use besides the store's own maps. -/
structure Surroundings (B T : Type) where
  eventType : B → String
  schema : Schema
  protectLastAdmin : B → Bool
  countEnabledAdmins : Database B T → Nat
  deferred : T → Option StoreError

namespace BuiltStore

def prepareEvent (s : BuiltStore P T) (eventType : B → String) (event : Event B) :
    Except StoreError (Event B) := do
  validateEvent event
  let event := foldStreamID event
  match s.projectors.lookup (eventType event.body) with
  | none =>
    .error (.message ("store: no projector registered for event type " ++
      quote (eventType event.body)))
  | some _ =>
    match s.eventTargets.lookup (eventType event.body) with
    | none =>
      .error (.message ("store: no rebuild target registered for event type " ++
        quote (eventType event.body)))
    | some targetName =>
      let streamTypes := ((s.rebuildTargets.find? (·.name == targetName)).map
        (·.streamTypes)).getD []
      if streamTypes.contains event.streamType then .ok event
      else .error (.message ("store: stream type " ++ quote event.streamType ++
        " is outside rebuild target " ++ quote targetName ++ " for event type " ++
        quote (eventType event.body)))

def replayEvent [Applies W T] (s : BuiltStore (Projector B T W K) T) (eventType : B → String)
    (target : BuiltTarget T) (index : Nat) (e : PersistedEvent B) (d : Database B T) :
    Except StoreError (Database B T) :=
  let described := "store: replay event " ++ toString index ++ " type " ++
    quote (eventType e.body)
  if target.eventTypes.contains (eventType e.body) then
    match s.projectors.lookup (eventType e.body) with
    | none => .error (.message (described ++ " has no registered projector"))
    | some projector =>
      (((projector true e).run d).map Prod.snd).mapError
        (.wrapped (described ++ " for target " ++ quote target.name))
  else .error (.message (described ++ " is outside rebuild target " ++ quote target.name))

/-- The projectors of a store on rows, one after the other. -/
def projectRows [Applies W T] (s : BuiltStore (Projector B T W K) T) (eventType : B → String) :
    List (PersistedEvent B) → Database B T → Except StoreError (Database B T)
  | [], d => .ok d
  | e :: es, d =>
    match s.projectors.lookup (eventType e.body) with
    | none =>
      .error (.message ("store: no projector registered for event type " ++
        quote (eventType e.body)))
    | some projector => do
        let (_, d') ← (projector true e).run d
        s.projectRows eventType es d'

end BuiltStore

/-- A registered target as the append and rebuild models have it. -/
def BuiltTarget.rebuildTarget (eventType : B → String) (t : BuiltTarget T) : RebuildTarget B T where
  name := t.name
  tables := t.tables
  sharedTables := t.sharedTables
  streamTypes := t.streamTypes
  ownsEvent body := t.eventTypes.contains (eventType body)
  reset := t.reset

/-- A sound store as a registry of the append and rebuild models. -/
def BuiltStore.registry (s : BuiltStore (Projector B T W K) T) (hs : s.Sound)
    (x : Surroundings B T) : Registry B T W K where
  eventType := x.eventType
  targets := s.rebuildTargets.map (·.rebuildTarget x.eventType)
  stream_owner := by
    intro t ht t' ht' streamType hmem hmem'
    rw [mem_map] at ht ht'
    obtain ⟨b, hb, rfl⟩ := ht
    obtain ⟨b', hb', rfl⟩ := ht'
    rw [claimant_unique hs.streams hb hb' hmem hmem']
  schema := x.schema
  project skipWork e :=
    match s.projectors.lookup (x.eventType e.body) with
    | none => .fail (.message ("store: no projector registered for event type " ++
        quote (x.eventType e.body)))
    | some projector => projector skipWork e
  protectLastAdmin := x.protectLastAdmin
  countEnabledAdmins := x.countEnabledAdmins
  deferred := x.deferred

section registry

variable {s : BuiltStore (Projector B T W K) T} {x : Surroundings B T}

variable {t : BuiltTarget T}

/-- The target that claims an event type is the one found for its events. -/
theorem registry_targetOf (hs : s.Sound) (ht : t ∈ s.rebuildTargets) {body : B}
    (howns : x.eventType body ∈ t.eventTypes) :
    (s.registry hs x).targetOf body = some (t.rebuildTarget x.eventType) := by
  have hfound : s.rebuildTargets.find? (fun b => b.eventTypes.contains (x.eventType body)) =
      some t := by
    cases hfind : s.rebuildTargets.find? (fun b => b.eventTypes.contains (x.eventType body)) with
    | none =>
      have hnone := find?_eq_none.mp hfind t ht
      simp [howns] at hnone
    | some b =>
      have hb := find?_some hfind
      rw [claimant_unique hs.events (mem_of_find?_eq_some hfind) ht (by simpa using hb) howns]
  change (s.rebuildTargets.map (·.rebuildTarget x.eventType)).find? (·.ownsEvent body) = _
  simpa [BuiltTarget.rebuildTarget, Function.comp_def] using congrArg
    (Option.map (·.rebuildTarget x.eventType)) hfound

/-- The name recorded for an event type is that of its target. -/
theorem Sound.lookup_eventTargets {P : Type} {s : BuiltStore P T} (hs : s.Sound)
    (ht : t ∈ s.rebuildTargets) {eventType : String} (howns : eventType ∈ t.eventTypes) :
    s.eventTargets.lookup eventType = some t.name := by
  have hmem : (eventType, t.name) ∈ s.eventTargets := by
    rw [hs.eventTargets]
    exact mem_flatMap.mpr ⟨t, ht, mem_map.mpr ⟨eventType, howns, rfl⟩⟩
  cases hlookup : s.eventTargets.lookup eventType with
  | none =>
    have hnone := lookup_eq_none_iff.mp hlookup (eventType, t.name) hmem
    simp at hnone
  | some name =>
    have hfound : (eventType, name) ∈ s.eventTargets := by
      obtain ⟨l₁, l₂, heq, -⟩ := lookup_eq_some_iff.mp hlookup
      simp [heq]
    rw [hs.eventTargets, mem_flatMap] at hfound
    obtain ⟨t', ht', hmem'⟩ := hfound
    obtain ⟨v, hv, hpair⟩ := mem_map.mp hmem'
    obtain ⟨rfl, rfl⟩ := Prod.mk.inj hpair
    rw [claimant_unique hs.events ht' ht hv howns]

theorem Sound.find_name {P : Type} {s : BuiltStore P T} (hs : s.Sound) (ht : t ∈ s.rebuildTargets) :
    s.rebuildTargets.find? (·.name == t.name) = some t := by
  cases hfind : s.rebuildTargets.find? (·.name == t.name) with
  | none =>
    have hnone := find?_eq_none.mp hfind t ht
    simp at hnone
  | some t' =>
    have hname : t'.name = t.name := by simpa using find?_some hfind
    rw [inj_on_of_nodup_map hs.names (mem_of_find?_eq_some hfind) ht hname]

/-- The append checks of the registry are those of the store. -/
theorem registry_prepareEvent (hs : s.Sound) (raw : Event B) :
    (s.registry hs x).prepareEvent raw = s.prepareEvent x.eventType raw := by
  rw [Registry.prepareEvent, BuiltStore.prepareEvent]
  cases hlookup : s.projectors.lookup (x.eventType (foldStreamID raw).body) with
  | some p =>
    obtain ⟨t, ht, howns⟩ := hs.covered (x.eventType (foldStreamID raw).body) (by simp [hlookup])
    simp only [registry_targetOf hs ht howns, hlookup,
      Sound.lookup_eventTargets hs ht howns, Sound.find_name hs ht]
    rfl
  | none =>
    have hnone : (s.registry hs x).targetOf (foldStreamID raw).body = none := by
      refine find?_eq_none.mpr ?_
      intro t ht howns
      obtain ⟨b, hb, rfl⟩ := mem_map.mp ht
      have hsome := hs.projected b hb (x.eventType (foldStreamID raw).body)
        (by simpa [BuiltTarget.rebuildTarget] using howns)
      simp [hlookup] at hsome
    simp only [hnone, hlookup]
    rfl

/-- The replay of the registry is that of the store. -/
theorem registry_replayEvent [Applies W T] (hs : s.Sound) (ht : t ∈ s.rebuildTargets)
    (index : Nat) (e : PersistedEvent B) (d : Database B T) :
    replayEvent (s.registry hs x) (t.rebuildTarget x.eventType) index e d =
      s.replayEvent x.eventType t index e d := by
  rw [replayEvent, BuiltStore.replayEvent]
  by_cases howns : x.eventType e.body ∈ t.eventTypes
  · obtain ⟨p, hp⟩ := Option.isSome_iff_exists.mp (hs.projected t ht _ howns)
    simp [BuiltTarget.rebuildTarget, howns, hp, projectEvent, BuiltStore.registry]
  · simp [BuiltTarget.rebuildTarget, howns, BuiltStore.registry]

/-- Replayed by the registry, every row runs its own projector of the store. -/
theorem registry_replayAll [Applies W T] (hs : s.Sound) (es : List (PersistedEvent B))
    (d : Database B T) : replayAll (s.registry hs x) es d = s.projectRows x.eventType es d := by
  induction es generalizing d with
  | nil => rfl
  | cons e es ih =>
    rw [replayAll, BuiltStore.projectRows, projectEvent, BuiltStore.registry]
    cases hlookup : s.projectors.lookup (x.eventType e.body) with
    | none => simp [hlookup, Except.map, bind, Except.bind]
    | some p =>
      simp only [hlookup]
      cases hrun : (p true e).run d with
      | error cause => simp [Except.map, bind, Except.bind]
      | ok out => exact ih out.2

end registry

/-! ## The log of a built store -/

/-- Only one target of a store claims an event's stream type or its event type,
and it claims both. -/
def BuiltStore.OwnedOnce (s : BuiltStore P T) (eventType : B → String) (e : Event B) : Prop :=
  ∃ t ∈ s.rebuildTargets, (e.streamType ∈ t.streamTypes ∧ eventType e.body ∈ t.eventTypes) ∧
    ∀ t' ∈ s.rebuildTargets,
      e.streamType ∈ t'.streamTypes ∨ eventType e.body ∈ t'.eventTypes → t' = t

/-- The error that the projector of one of these rows raised. -/
def BuiltStore.ProjectorError [Applies W T] (s : BuiltStore (Projector B T W K) T)
    (eventType : B → String) (t : BuiltTarget T) (rows : List (PersistedEvent B))
    (err : StoreError) : Prop :=
  ∃ e ∈ rows, ∃ p d cause, ∃ i : Nat, s.projectors.lookup (eventType e.body) = some p ∧
    (p true e).run d = .error cause ∧
    err = .wrapped ("store: replay event " ++ toString i ++ " type " ++
      quote (eventType e.body) ++ " for target " ++ quote t.name) cause

section log

variable {s : BuiltStore (Projector B T W K) T} {x : Surroundings B T}

/-- An event that passes the append checks has one owner. -/
theorem prepareEvent_ownedOnce (hs : s.Sound) {raw event : Event B}
    (h : s.prepareEvent x.eventType raw = .ok event) : s.OwnedOnce x.eventType event := by
  rw [← registry_prepareEvent hs] at h
  obtain ⟨-, -, target, htarget, htype⟩ := Registry.prepareEvent_ok h
  have howns := find?_some htarget
  obtain ⟨t, ht, rfl⟩ := mem_map.mp (mem_of_find?_eq_some htarget)
  have hevent : x.eventType event.body ∈ t.eventTypes := by
    simpa [BuiltTarget.rebuildTarget] using howns
  refine ⟨t, ht, ⟨htype, hevent⟩, ?_⟩
  intro t' ht' hclaims
  rcases hclaims with hstream | hevent'
  · exact claimant_unique hs.streams ht' ht hstream htype
  · exact claimant_unique hs.events ht' ht hevent' hevent

/-- Rows of one target after another are the log, row for row. -/
theorem flatMap_replayRows_perm {targets : List (BuiltTarget T)} {log : List (PersistedEvent B)}
    (hdisjoint : targets.Pairwise fun t t' => t.streamTypes.Disjoint t'.streamTypes)
    (howned : ∀ e ∈ log, ∃ t ∈ targets, e.streamType ∈ t.streamTypes) :
    (targets.flatMap fun t => replayRows log t.streamTypes).Perm log := by
  induction targets generalizing log with
  | nil =>
    have hnil : log = [] := eq_nil_iff_forall_not_mem.mpr fun e he => by
      simpa using howned e he
    rw [hnil]
    exact List.Perm.refl []
  | cons t targets ih =>
    obtain ⟨hhead, htail⟩ := pairwise_cons.mp hdisjoint
    -- The other targets see only what the first one leaves.
    have hrest : (targets.flatMap fun t => replayRows log t.streamTypes) =
        targets.flatMap fun t' => replayRows
          (log.filter fun e => !t.streamTypes.contains e.streamType) t'.streamTypes := by
      refine flatMap_congr fun t' ht' => ?_
      unfold replayRows
      rw [filter_filter]
      congr 1
      refine filter_congr fun e _ => ?_
      by_cases hmem : e.streamType ∈ t'.streamTypes
      · have hnot : e.streamType ∉ t.streamTypes := fun h => hhead t' ht' h hmem
        simp [hmem, hnot]
      · simp [hmem]
    have hleft : ∀ e ∈ log.filter (fun e => !t.streamTypes.contains e.streamType),
        ∃ t' ∈ targets, e.streamType ∈ t'.streamTypes := by
      intro e he
      obtain ⟨he, hnot⟩ := mem_filter.mp he
      obtain ⟨t', ht', hmem⟩ := howned e he
      rcases mem_cons.mp ht' with rfl | ht'
      · simp [hmem] at hnot
      · exact ⟨t', ht', hmem⟩
    rw [flatMap_cons, hrest]
    refine ((perm_insertionSort _ _).append (ih htail hleft)).trans ?_
    exact filter_append_perm (fun e => t.streamTypes.contains e.streamType) log

/-- A page of owned rows fails only with the error of one of their projectors. -/
theorem replayPage_error [Applies W T] (hs : s.Sound) {t : BuiltTarget T}
    (ht : t ∈ s.rebuildTargets) {es : List (PersistedEvent B)} {index : Nat} {d : Database B T}
    (howns : ∀ e ∈ es, x.eventType e.body ∈ t.eventTypes) {err : StoreError}
    (h : replayPage (s.registry hs x) (t.rebuildTarget x.eventType) index es d = .error err) :
    s.ProjectorError x.eventType t es err := by
  induction es generalizing index d with
  | nil => cases h
  | cons e es ih =>
    obtain ⟨hhead, htail⟩ := forall_mem_cons.mp howns
    rw [replayPage, registry_replayEvent hs ht] at h
    cases hevent : s.replayEvent x.eventType t index e d with
    | ok d₁ =>
      rw [hevent] at h
      obtain ⟨e', he', hrest⟩ := ih htail h
      exact ⟨e', mem_cons_of_mem _ he', hrest⟩
    | error err' =>
      rw [hevent] at h
      have herr : err' = err := Except.error.inj h
      obtain ⟨p, hp⟩ := Option.isSome_iff_exists.mp (hs.projected t ht _ hhead)
      have hcontains : t.eventTypes.contains (x.eventType e.body) = true := by simpa using hhead
      simp only [BuiltStore.replayEvent, hcontains, if_true, hp] at hevent
      cases hrun : (p true e).run d with
      | ok out => simp [hrun, Except.map, Except.mapError] at hevent
      | error cause =>
        simp only [hrun, Except.map, Except.mapError, Except.error.injEq] at hevent
        exact ⟨e, mem_cons_self, p, d, cause, index, hp, hrun, herr.symm.trans hevent.symm⟩

end log

/-- On every store that `New` builds, an event that an append path accepts
belongs to exactly one target, which owns its stream type and its event type.
After any interleaving of append calls the rows that the targets replay are, all
together, the log; each of them runs its own projector; and the page loop of a
target fails only where one of these projectors does. -/
theorem registry_partitions_log [Applies W T] [DecidableEq K]
    (projectors : GoMap (Option (Projector B T W K))) (rebuildTargets : GoMap (TargetConfig T))
    (s : BuiltStore (Projector B T W K) T) (hnew : new projectors rebuildTargets = .ok s)
    (x : Surroundings B T) (t₀ : T) (as : List (Action (client (s.registry (new_sound hnew) x))))
    (sys : Sys (client (s.registry (new_sound hnew) x)))
    (hrun : runActions (Sys.init _ ⟨[], t₀⟩) as = some sys) :
    (∀ raw event, s.prepareEvent x.eventType raw = .ok event → s.OwnedOnce x.eventType event) ∧
      (∀ e ∈ sys.committed.events, s.OwnedOnce x.eventType e.toEvent) ∧
      (s.rebuildTargets.flatMap fun t => replayRows sys.committed.events t.streamTypes).Perm
        sys.committed.events ∧
      ∀ t ∈ s.rebuildTargets, ∀ d : Database B T, d.events = sys.committed.events →
        (∀ d', replayPages (s.registry (new_sound hnew) x) (t.rebuildTarget x.eventType)
            (d.events.length + 1) (toLex ("", toLex ("", 0))) 0 d = .ok d' ↔
          s.projectRows x.eventType (replayRows sys.committed.events t.streamTypes) d =
            .ok d') ∧
        ∀ err, replayPages (s.registry (new_sound hnew) x) (t.rebuildTarget x.eventType)
            (d.events.length + 1) (toLex ("", toLex ("", 0))) 0 d = .error err →
          s.ProjectorError x.eventType t (replayRows sys.committed.events t.streamTypes) err := by
  have hs := new_sound hnew
  have hexec := exec_of_runActions hrun
  have howned : ∀ e ∈ sys.committed.events, s.OwnedOnce x.eventType e.toEvent := by
    intro e he
    obtain ⟨raw, hraw⟩ := Exec.committed_prepared hexec e he
    rw [registry_prepareEvent] at hraw
    exact prepareEvent_ownedOnce hs hraw
  have hcont := (Exec.append_holds hexec contiguous_nil).inv
  refine ⟨fun raw event h => prepareEvent_ownedOnce hs h, howned, ?_, ?_⟩
  · refine flatMap_replayRows_perm hs.streams ?_
    intro e he
    obtain ⟨t, ht, ⟨htype, -⟩, -⟩ := howned e he
    exact ⟨t, ht, htype⟩
  · intro t ht d hd
    have hrows : ∀ e ∈ replayRows sys.committed.events t.streamTypes,
        x.eventType e.body ∈ t.eventTypes := by
      intro e he
      obtain ⟨he, htype⟩ := mem_replayRows.mp he
      obtain ⟨t', ht', ⟨-, hevent⟩, hunique⟩ := howned e he
      rw [hunique t ht (.inl htype)]
      exact hevent
    have hloop : replayPages (s.registry hs x) (t.rebuildTarget x.eventType)
        (sys.committed.events.length + 1) (toLex ("", toLex ("", 0))) 0 d =
          replayPage (s.registry hs x) (t.rebuildTarget x.eventType) 0
            (replayRows sys.committed.events t.streamTypes) d :=
      replayPages_start_eq hd hcont (hs.named t ht)
    rw [hd]
    refine ⟨fun d' => ?_, fun err herr => ?_⟩
    · rw [hloop, ← registry_replayAll hs]
      refine replayPage_ok_iff fun e he => ?_
      simpa [BuiltTarget.rebuildTarget] using hrows e he
    · rw [hloop] at herr
      exact replayPage_error hs ht hrows herr

/-! ## A store with two targets -/

section sample

/-- A projection that counts events. -/
local instance : Applies Unit Nat where
  apply _ count := count + 1

/-- A projector that counts its event in one statement. -/
def countEvent : Projector Bool Nat Unit Unit :=
  fun _ _ => .stmt (fun _ => []) (fun _ => .ok [()]) fun _ => .ret ()

def countProjectors : GoMap (Option (Projector Bool Nat Unit Unit)) where
  entries := [("Closed", some countEvent), ("Opened", some countEvent)]
  sorted := by decide

/-- A target with one table, one stream type and one event type. -/
def countTarget (table streamType eventType : String) : TargetConfig Nat where
  tables := [table]
  sharedTables := []
  streamTypes := [streamType]
  eventTypes := [eventType]
  reset := some fun _ => 0

def countTargets : GoMap (TargetConfig Nat) where
  entries := [("doors", countTarget "doors" "door" "Closed"),
    ("windows", countTarget "windows" "window" "Opened")]
  sorted := by decide

def countSurroundings : Surroundings Bool Nat where
  eventType opened := if opened then "Opened" else "Closed"
  schema := { tables := ["doors", "windows"], references := [] }
  protectLastAdmin _ := false
  countEnabledAdmins _ := 0
  deferred _ := none

/-- What `New` makes of this configuration. -/
def countStore : BuiltStore (Projector Bool Nat Unit Unit) Nat :=
  match new countProjectors countTargets with
  | .ok s => s
  | .error _ => ⟨[], [], []⟩

theorem countStore_new : new countProjectors countTargets = .ok countStore :=
  rfl

def countCall (streamType : String) (opened : Bool) : AppendCall Bool Nat :=
  .appendEvent
    { streamType
      streamID := "00000000000000000000000001"
      payloadVersion := 1
      body := opened
      createdAt := 0 }

/-- Two appends, statement by statement in turn. -/
def countActions :
    List (Action (client (countStore.registry (new_sound countStore_new) countSurroundings))) :=
  [.invoke 0 (countCall "door" false), .invoke 1 (countCall "window" true), .begin 0, .begin 1,
    .exec 0, .exec 1, .exec 0, .exec 1, .exec 0, .exec 1, .commit 1, .commit 0]

/-- The two events of this run have one target each. -/
theorem registry_partitions_log_count :
    ∃ sys, runActions (Sys.init _ ⟨[], 0⟩) countActions = some sys ∧
      sys.committed.events.length = 2 ∧
      (∀ e ∈ sys.committed.events, countStore.OwnedOnce countSurroundings.eventType e.toEvent) ∧
      (countStore.rebuildTargets.flatMap fun t =>
        replayRows sys.committed.events t.streamTypes).Perm sys.committed.events := by
  have hsome : (runActions (Sys.init _ ⟨[], 0⟩) countActions).any
      (fun sys => sys.committed.events.length == 2) = true := by
    decide
  obtain ⟨sys, hrun, hlength⟩ := (Option.any_eq_true _ _).mp hsome
  obtain ⟨-, howned, hperm, -⟩ := registry_partitions_log countProjectors countTargets countStore
    countStore_new countSurroundings 0 countActions sys hrun
  exact ⟨sys, hrun, by simpa using hlength, howned, hperm⟩

end sample

end PowerManage.Store
