import PowerManage.Store.Append

/-!
# Stream versions

A stream's versions are contiguous when, in commit order, they read
`1, 2, …, n`.  The lemmas here say what appending to a contiguous list of
events means for one stream, and when two extensions of the same list can be
combined.

Main results:

- `currentStreamVersion_eq`: on contiguous events the greatest
  version is the number of events.
- `Contiguous.snoc`: the only free version not past the end is the
  next one.
- `Contiguous.merge`: two extensions that share no version combine.
-/

namespace PowerManage.Store

open List Relational

variable {B T W K : Type}

/-- The versions of one stream, in commit order. -/
def versionsOf (events : List (PersistedEvent B)) (stream : String × String) : List Nat :=
  (events.filter fun e => e.stream = stream).map (·.streamVersion)

/-- The number of events of one stream. -/
def streamLength (events : List (PersistedEvent B)) (stream : String × String) : Nat :=
  (versionsOf events stream).length

/-- Every stream's versions are exactly one to its length, in order. -/
def Contiguous (events : List (PersistedEvent B)) : Prop :=
  ∀ stream, versionsOf events stream = range' 1 (streamLength events stream)

@[simp]
theorem versionsOf_append (a b : List (PersistedEvent B)) (stream : String × String) :
    versionsOf (a ++ b) stream = versionsOf a stream ++ versionsOf b stream := by
  simp [versionsOf]

@[simp]
theorem streamLength_append (a b : List (PersistedEvent B)) (stream : String × String) :
    streamLength (a ++ b) stream = streamLength a stream + streamLength b stream := by
  simp [streamLength]

theorem versionsOf_singleton (e : PersistedEvent B) (stream : String × String) :
    versionsOf [e] stream = if e.stream = stream then [e.streamVersion] else [] := by
  by_cases h : e.stream = stream <;> simp [versionsOf, h]

theorem contiguous_nil : Contiguous ([] : List (PersistedEvent B)) := by
  intro stream
  rfl

variable {a b events : List (PersistedEvent B)}
variable {stream : String × String}

theorem mem_versionsOf {v : Nat} :
    v ∈ versionsOf events stream ↔
      ∃ e ∈ events, e.stream = stream ∧ e.streamVersion = v := by
  simp [versionsOf, and_assoc]

/-- The versions of an extension continue where the list ended. -/
theorem Contiguous.tail (hab : Contiguous (a ++ b)) (stream : String × String) :
    versionsOf a stream = range' 1 (streamLength a stream) ∧
      versionsOf b stream =
        range' (streamLength a stream + 1) (streamLength b stream) := by
  have h := hab stream
  have hsplit : range' 1 (streamLength a stream + streamLength b stream) =
      range' 1 (streamLength a stream) ++
        range' (streamLength a stream + 1) (streamLength b stream) := by
    rw [Nat.add_comm (streamLength a stream) 1]
    exact (List.range'_append_1 ..).symm
  rw [versionsOf_append, streamLength_append, hsplit] at h
  exact append_inj h (by simp [streamLength])

/-- An extension whose versions continue each stream is contiguous. -/
theorem Contiguous.append (ha : Contiguous a) (hb : ∀ stream, versionsOf b stream =
      range' (streamLength a stream + 1) (streamLength b stream)) : Contiguous (a ++ b) := by
  intro stream
  rw [versionsOf_append, streamLength_append, ha stream, hb stream,
    Nat.add_comm (streamLength a stream) 1]
  exact List.range'_append_1 ..

theorem foldr_max_range' (n : Nat) : (range' 1 n).foldr max 0 = n := by
  have hle : ∀ (l : List Nat) (m : Nat), (∀ x ∈ l, x ≤ m) → l.foldr max 0 ≤ m := by
    intro l m h
    induction l with
    | nil => exact Nat.zero_le m
    | cons x l ih =>
      exact max_le (h x mem_cons_self) (ih (forall_mem_cons.mp h).2)
  have hge : ∀ (l : List Nat) (x : Nat), x ∈ l → x ≤ l.foldr max 0 := by
    intro l x hx
    induction l with
    | nil => simp at hx
    | cons y l ih =>
      rcases mem_cons.mp hx with rfl | hx
      · exact le_max_left _ _
      · exact (ih hx).trans (le_max_right _ _)
  apply le_antisymm
  · apply hle
    intro x hx
    rw [List.mem_range'_1] at hx
    omega
  · cases n with
    | zero => exact Nat.zero_le _
    | succ n =>
      apply hge
      rw [List.mem_range'_1]
      omega

/-- On contiguous events the current version is the number of events. -/
theorem currentStreamVersion_eq {d : Database B T} (h : Contiguous d.events)
    (stream : String × String) : currentStreamVersion d stream = streamLength d.events stream := by
  have hv : currentStreamVersion d stream = (versionsOf d.events stream).foldr max 0 := rfl
  rw [hv, h stream, foldr_max_range']

theorem any_sameVersion_eq_false {e : PersistedEvent B} (h : events.any (sameVersion e) = false) :
    e.streamVersion ∉ versionsOf events e.stream := by
  intro hmem
  obtain ⟨e', he', hstream, hversion⟩ := mem_versionsOf.mp hmem
  rw [any_eq_false] at h
  exact h e' he' (by simp [sameVersion, hstream, hversion])

/-- An event whose version is free, positive and at most one past the end takes
the next version of its stream. -/
theorem Contiguous.snoc (h : Contiguous events) {e : PersistedEvent B}
    (hpos : 0 < e.streamVersion) (hle : e.streamVersion ≤ streamLength events e.stream + 1)
    (hfree : e.streamVersion ∉ versionsOf events e.stream) :
    e.streamVersion = streamLength events e.stream + 1 ∧ Contiguous (events ++ [e]) := by
  have hnext : e.streamVersion = streamLength events e.stream + 1 := by
    rw [h e.stream, List.mem_range'_1] at hfree
    omega
  refine ⟨hnext, h.append ?_⟩
  intro stream
  by_cases hs : e.stream = stream
  · subst hs
    simp [streamLength, versionsOf_singleton, hnext]
  · simp [streamLength, versionsOf_singleton, hs]

/-- Two extensions of one contiguous list that share no version of any stream
are one contiguous extension. -/
theorem Contiguous.merge {more own : List (PersistedEvent B)}
    (hmore : Contiguous (a ++ more)) (hown : Contiguous (a ++ own))
    (hdisjoint : ∀ e ∈ own, ∀ e' ∈ more, e.stream = e'.stream →
      e.streamVersion ≠ e'.streamVersion) : Contiguous (a ++ more ++ own) := by
  apply hmore.append
  intro stream
  have hm := (hmore.tail stream).2
  have ho := (hown.tail stream).2
  -- Both extensions would start with the same version, so one of them is empty.
  by_cases hzero : streamLength own stream = 0
  · have hnil : versionsOf own stream = [] := length_eq_zero_iff.mp hzero
    simp [hnil, hzero]
  · have hempty : streamLength more stream = 0 := by
      by_contra hne
      have hfirst : streamLength a stream + 1 ∈ versionsOf own stream := by
        rw [ho, List.mem_range'_1]
        omega
      have hfirst' : streamLength a stream + 1 ∈ versionsOf more stream := by
        rw [hm, List.mem_range'_1]
        omega
      obtain ⟨e, he, hes, hev⟩ := mem_versionsOf.mp hfirst
      obtain ⟨e', he', hes', hev'⟩ := mem_versionsOf.mp hfirst'
      exact hdisjoint e he e' he' (hes.trans hes'.symm) (hev.trans hev'.symm)
    rw [streamLength_append, hempty, Nat.add_zero]
    exact ho

/-! ## The events of a write list -/

/-- The events that a list of writes inserts. -/
def eventsOf (ws : List (StoreWrite B W)) : List (PersistedEvent B) :=
  ws.filterMap fun
    | .event e => some e
    | .row _ => none

@[simp]
theorem eventsOf_nil : eventsOf ([] : List (StoreWrite B W)) = [] :=
  rfl

@[simp]
theorem eventsOf_append (ws ws' : List (StoreWrite B W)) :
    eventsOf (ws ++ ws') = eventsOf ws ++ eventsOf ws' := by
  simp [eventsOf]

@[simp]
theorem eventsOf_event (e : PersistedEvent B) :
    eventsOf ([.event e] : List (StoreWrite B W)) = [e] :=
  rfl

theorem eventsOf_rows {ws : List (StoreWrite B W)} (h : ∀ w ∈ ws, ∃ r, w = .row r) :
    eventsOf ws = [] := by
  rw [eventsOf, filterMap_eq_nil_iff]
  intro w hw
  obtain ⟨r, rfl⟩ := h w hw
  rfl

/-- Applying writes appends exactly their events. -/
theorem applyAll_events [Applies W T] (ws : List (StoreWrite B W)) (d : Database B T) :
    (applyAll ws d).events = d.events ++ eventsOf ws := by
  induction ws generalizing d with
  | nil => simp
  | cons w ws ih =>
    rw [applyAll_cons, ih]
    cases w with
    | event e => simp [eventsOf]
    | row r => simp [eventsOf]

/-- The events of a pinned batch, from one version on. -/
def stamp : List (Event B) → Nat → List (PersistedEvent B)
  | [], _ => []
  | event :: events, version => persisted event (version + 1) :: stamp events (version + 1)

@[simp]
theorem stamp_toEvent (events : List (Event B)) (version : Nat) :
    (stamp events version).map (·.toEvent) = events := by
  induction events generalizing version with
  | nil => rfl
  | cons e events ih => rw [stamp, map_cons, ih, persisted]

theorem versionsOf_stamp {events : List (Event B)} (hstream : ∀ e ∈ events, e.stream = stream)
    (version : Nat) :
    versionsOf (stamp events version) stream = range' (version + 1) events.length := by
  induction events generalizing version with
  | nil => rfl
  | cons e events ih =>
    have hhead : (persisted e (version + 1)).toEvent.stream = stream :=
      hstream e mem_cons_self
    have htail := ih (forall_mem_cons.mp hstream).2 (version + 1)
    rw [stamp, ← singleton_append, versionsOf_append, versionsOf_singleton, if_pos hhead, htail]
    simp [persisted, List.range'_succ]

end PowerManage.Store
