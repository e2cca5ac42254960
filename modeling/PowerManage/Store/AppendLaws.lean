import PowerManage.Store.Versions

/-!
# Interleaved appends keep every stream contiguous

The rely of an append: other transactions extend the events table contiguously
and insert no row whose version this transaction has locked.  The assertion
`Staged` says what an append has inserted so far and a lower bound on one
stream's length that an earlier read established.  Both survive any
interference, so the unique version index turns a stale read into a conflict
and never into a gap or a duplicate.

Main results:

- `wp_appendPrepared`: one insertion takes the next version.
- `wp_body`: each append path stages exactly its call's events.
- `appendProtocol`: the six append paths obey the rely.
-/

namespace PowerManage.Store

open List Relational
open Prog (bind_eq wp_bind wp_mapError wp_mono wp_ofExcept wp_query wp_require)

variable {B T W K : Type}

/-! ## Prepared batches -/

section prepared

theorem expectedVersion_ok {expected : Int} {version : Nat}
    (h : expectedVersion expected = .ok version) : expected = version := by
  unfold expectedVersion at h
  split at h
  · simp at h
  · simp at h
    omega

variable {R : Registry B T W K} {events : List (Event B)} {index : Nat}
variable {prepared : List (Event B)}

theorem preparePinnedBatch_cons {first : Option (String × String)} {event : Event B}
    (h : preparePinnedBatch R first (event :: events) index = .ok prepared) :
    ∃ head tail, prepared = head :: tail ∧ R.prepareEvent event = .ok head ∧
      (∀ s ∈ first, s = head.stream) ∧
      preparePinnedBatch R (some head.stream) events (index + 1) = .ok tail := by
  rw [preparePinnedBatch, bind_eq_ok] at h
  obtain ⟨head, hhead, h⟩ := h
  rw [mapError_eq_ok] at hhead
  by_cases hfirst : first.any (· ≠ head.stream) = true
  · simp only [hfirst, if_true, bind_eq_ok, reduceCtorEq, false_and, exists_false] at h
  · simp only [hfirst, Bool.false_eq_true, if_false, bind_eq_ok, Except.ok.injEq] at h
    obtain ⟨tail, htail, rfl⟩ := h
    refine ⟨head, tail, rfl, hhead, ?_, htail⟩
    intro s hs
    rw [Option.mem_def] at hs
    simpa [hs] using hfirst

/-- The events of a batch pinned to a stream all belong to it. -/
theorem preparePinnedBatch_stream {stream : String × String}
    (h : preparePinnedBatch R (some stream) events index = .ok prepared) :
    ∀ e ∈ prepared, e.stream = stream := by
  induction events generalizing index prepared with
  | nil =>
    simp only [preparePinnedBatch, Except.ok.injEq] at h
    simp [← h]
  | cons event events ih =>
    obtain ⟨head, tail, rfl, -, hfirst, htail⟩ := preparePinnedBatch_cons h
    have hhead : stream = head.stream := hfirst stream rfl
    rw [← hhead] at htail
    simpa [hhead.symm] using ih htail

/-- The events of a version-pinned batch share the first one's stream. -/
theorem preparePinnedBatch_head {head : Event B} {tail : List (Event B)}
    (h : preparePinnedBatch R none events index = .ok (head :: tail)) :
    ∀ e ∈ head :: tail, e.stream = head.stream := by
  cases events with
  | nil => simp [preparePinnedBatch] at h
  | cons event events =>
    obtain ⟨head', tail', heq, -, -, htail⟩ := preparePinnedBatch_cons h
    obtain ⟨rfl, rfl⟩ := cons.inj heq
    simpa using preparePinnedBatch_stream htail

end prepared

/-! ## Rely and assertions -/

/-- What other transactions may do while this one holds the keys `h`. -/
def AppendRely (h : List (StoreKey K)) (c c' : Database B T) : Prop :=
  Contiguous c'.events ∧
    ∃ more, c'.events = c.events ++ more ∧ ∀ e ∈ more, versionKey e ∉ h

/-- The transaction has inserted `evs`, holds their versions, and knows that
`stream` is at least `lower` long. -/
structure Staged (evs : List (PersistedEvent B)) (stream : String × String) (lower : Nat)
    (h : List (StoreKey K)) (ws : List (StoreWrite B W)) (c : Database B T) : Prop where
  events_eq : eventsOf ws = evs
  contiguous : Contiguous (c.events ++ evs)
  locked : ∀ e ∈ evs, versionKey e ∈ h
  lower_le : lower ≤ streamLength (c.events ++ evs) stream

section assertions

variable {evs : List (PersistedEvent B)} {stream : String × String} {lower : Nat}
variable {h : List (StoreKey K)} {ws : List (StoreWrite B W)} {c c' : Database B T}

theorem Staged.rely (hs : Staged evs stream lower h ws c) (hr : AppendRely h c c') :
    Staged evs stream lower h ws c' := by
  obtain ⟨hcont, more, hmore, hfree⟩ := hr
  refine ⟨hs.events_eq, ?_, hs.locked, ?_⟩
  · rw [hmore] at hcont ⊢
    apply hcont.merge hs.contiguous
    intro e he e' he' hstream hversion
    -- The same version would be locked here and inserted there.
    have hkey : (versionKey e' : StoreKey K) = versionKey e := by
      have h1 : e.streamType = e'.streamType := congrArg Prod.fst hstream
      have h2 : e.streamID = e'.streamID := congrArg Prod.snd hstream
      simp [versionKey, h1, h2, hversion]
    exact hfree e' he' (hkey ▸ hs.locked e he)
  · have hle := hs.lower_le
    rw [hmore]
    simp at hle ⊢
    omega

theorem Staged.locks (hs : Staged evs stream lower h ws c) (h' : List (StoreKey K)) :
    Staged evs stream lower (h ++ h') ws c :=
  ⟨hs.events_eq, hs.contiguous, fun e he => mem_append_left _ (hs.locked e he), hs.lower_le⟩

theorem Staged.rows (hs : Staged evs stream lower h ws c) {ws' : List (StoreWrite B W)}
    (hrows : ∀ w ∈ ws', ∃ r, w = .row r) : Staged evs stream lower h (ws ++ ws') c := by
  refine ⟨?_, hs.contiguous, hs.locked, hs.lower_le⟩
  rw [eventsOf_append, eventsOf_rows hrows, append_nil]
  exact hs.events_eq

theorem Staged.forget (hs : Staged evs stream lower h ws c) (stream' : String × String) :
    Staged evs stream' 0 h ws c :=
  ⟨hs.events_eq, hs.contiguous, hs.locked, Nat.zero_le _⟩

/-- A transaction that has done nothing has staged nothing. -/
theorem staged_empty {c : Database B T} (hc : Contiguous c.events) (stream : String × String) :
    Staged [] stream 0 ([] : List (StoreKey K)) ([] : List (StoreWrite B W)) c :=
  ⟨rfl, by simpa using hc, by simp, Nat.zero_le _⟩

/-- The view of a transaction is contiguous, and its events are known. -/
theorem Staged.view [Applies W T] (hs : Staged evs stream lower h ws c) :
    (applyAll ws c).events = c.events ++ evs ∧ Contiguous (applyAll ws c).events := by
  have hevents : (applyAll ws c).events = c.events ++ evs := by
    rw [applyAll_events, hs.events_eq]
  exact ⟨hevents, hevents ▸ hs.contiguous⟩

end assertions

/-! ## Statements -/

variable [Applies W T]

section statements

variable {evs : List (PersistedEvent B)} {stream : String × String} {lower : Nat}
variable {h : List (StoreKey K)} {ws : List (StoreWrite B W)} {c : Database B T}

/-- A version read becomes a lower bound. -/
theorem wp_readStreamVersion (hs : Staged evs stream lower h ws c) (stream' : String × String) :
    (readStreamVersion stream').wp AppendRely
      (fun v h ws c => Staged evs stream' v h ws c) h ws c := by
  apply wp_query
  intro c' hr v hv
  have hs' := hs.rely hr
  have hview := hs'.view
  have hcurrent : v = streamLength (c'.events ++ evs) stream' := by
    simp at hv
    rw [← hv, currentStreamVersion_eq hview.2, hview.1]
  exact ⟨hs'.events_eq, hs'.contiguous, hs'.locked, hcurrent.le⟩

/-- An insertion one past a lower bound takes the next version of its stream. -/
theorem wp_insertEvent {event : Event B} {v : Nat} (hs : Staged evs event.stream v h ws c) :
    (insertEvent event (v + 1)).wp AppendRely
      (fun row h ws c => row = persisted event (v + 1) ∧
        Staged (evs ++ [row]) event.stream (v + 1) h ws c) h ws c := by
  apply Prog.wp_statement
  intro c' hr ws' row hexec
  have hs' := hs.rely hr
  have hview := hs'.view
  cases hcheck : eventsCheck (persisted event (v + 1)) with
  | error e => simp [hcheck, bind, Except.bind] at hexec
  | ok _ =>
    cases hany : (applyAll ws c').events.any (sameVersion (persisted event (v + 1))) with
    | true => simp [hcheck, hany, bind, Except.bind] at hexec
    | false =>
      simp only [hcheck, hany, bind, Except.bind, Bool.false_eq_true, if_false,
        Except.ok.injEq, Prod.mk.injEq] at hexec
      obtain ⟨rfl, rfl⟩ := hexec
      rw [hview.1] at hany
      have hsnoc := hs'.contiguous.snoc (e := persisted event (v + 1))
        (Nat.succ_pos v) (Nat.succ_le_succ hs'.lower_le) (any_sameVersion_eq_false hany)
      refine ⟨rfl, ?_, ?_, ?_, ?_⟩
      · rw [eventsOf_append, hs'.events_eq, eventsOf_event]
      · rw [← append_assoc]
        exact hsnoc.2
      · intro e he
        rcases mem_append.mp he with he | he
        · exact mem_append_left _ (hs'.locked e he)
        · rw [mem_singleton] at he
          subst he
          exact mem_append_right _ mem_cons_self
      · have hlen : streamLength [persisted event (v + 1)] event.stream = 1 := by
          have hstream : (persisted event (v + 1)).toEvent.stream = event.stream := rfl
          simp [streamLength, versionsOf_singleton, hstream]
        have hle := hs'.lower_le
        rw [← append_assoc, streamLength_append, hlen]
        omega

theorem wp_runProjector (R : Registry B T W K) (skipWork : Bool) (e : PersistedEvent B)
    (hs : Staged evs stream lower h ws c) :
    (runProjector R skipWork e).wp AppendRely
      (fun _ h ws c => Staged evs stream lower h ws c) h ws c := by
  have hrows : (runProjector R skipWork e).Writes fun w => ∃ r, w = StoreWrite.row r := by
    apply Prog.Writes.embed (P := fun _ => True) (Prog.Writes.top _)
    intro w _
    exact ⟨w, rfl⟩
  apply Prog.wp_of_writes hrows (I := fun h ws c => Staged evs stream lower h ws c)
  · exact fun h ws c c' hr hs => hs.rely hr
  · exact fun h h' ws c hs => hs.locks h'
  · exact fun h ws ws' c hw hs => hs.rows hw
  · exact hs

/-- The last-administrator guard adds a lock and reads around its mutation. -/
theorem wp_protectLastAdminMutation (R : Registry B T W K) (protect : Bool)
    {mutate : StoreProg B T W K Unit}
    {I J : List (StoreKey K) → List (StoreWrite B W) → Database B T → Prop}
    (hI : ∀ h ws c c', AppendRely h c c' → I h ws c → I h ws c')
    (hIlock : ∀ h h' ws c, I h ws c → I (h ++ h') ws c)
    (hJ : ∀ h ws c c', AppendRely h c c' → J h ws c → J h ws c')
    (hmutate : ∀ h ws c, I h ws c → mutate.wp AppendRely (fun _ => J) h ws c)
    {h : List (StoreKey K)} {ws : List (StoreWrite B W)} {c : Database B T} (hs : I h ws c) :
    (protectLastAdminMutation R protect mutate).wp AppendRely (fun _ => J) h ws c := by
  cases protect with
  | false => exact hmutate h ws c hs
  | true =>
    simp only [protectLastAdminMutation, if_true, bind_eq]
    apply wp_bind
    apply Prog.wp_statement
    intro c₁ hr₁ ws₁ _ hlock
    simp at hlock
    obtain ⟨rfl, -⟩ := hlock
    rw [append_nil]
    apply wp_bind
    apply wp_query
    intro c₂ hr₂ before _
    apply wp_bind
    have hI₂ := hI _ _ _ _ hr₂ (hIlock _ _ _ _ (hI _ _ _ _ hr₁ hs))
    refine wp_mono ?_ (hmutate _ _ _ hI₂)
    intro _ h₃ ws₃ c₃ hJ₃
    split
    · exact Prog.wp_ret.mpr hJ₃
    · apply wp_bind
      apply wp_query
      intro c₄ hr₄ after _
      apply wp_require
      intro _
      exact hJ _ _ _ _ hr₄ hJ₃

/-- Appending one prepared event one past a lower bound. -/
theorem wp_appendPrepared (R : Registry B T W K) {event : Event B} {v : Nat}
    (hs : Staged evs event.stream v h ws c) :
    (appendPrepared R event (v + 1)).wp AppendRely
      (fun _ h ws c => Staged (evs ++ [persisted event (v + 1)]) event.stream (v + 1) h ws c)
      h ws c := by
  apply wp_protectLastAdminMutation R _ (I := fun h ws c => Staged evs event.stream v h ws c)
  · exact fun h ws c c' hr hs => hs.rely hr
  · exact fun h h' ws c hs => hs.locks h'
  · exact fun h ws c c' hr hs => hs.rely hr
  · intro h ws c hs
    apply wp_bind
    apply wp_mapError
    refine wp_mono ?_ (wp_insertEvent hs)
    rintro row h' ws' c' ⟨rfl, hs'⟩
    exact wp_mapError (wp_runProjector R false _ hs')
  · exact hs

end statements

/-! ## Batches -/

section batches

variable {evs : List (PersistedEvent B)} {stream : String × String} {lower : Nat}
variable {h : List (StoreKey K)} {ws : List (StoreWrite B W)} {c : Database B T}

/-- An auto-numbered batch appends its events in order, each at its stream's next
version. -/
theorem wp_appendAutoBatch (R : Registry B T W K) (events : List (Event B)) (index : Nat)
    (hs : Staged evs stream lower h ws c) :
    (appendAutoBatch R events index).wp AppendRely
      (fun _ h ws c => ∃ new stream, new.map (·.toEvent) = events ∧
        Staged (evs ++ new) stream 0 h ws c) h ws c := by
  induction events generalizing evs stream lower index h ws c with
  | nil => exact Prog.wp_ret.mpr ⟨[], stream, rfl, by simpa using hs.forget stream⟩
  | cons event events ih =>
    simp only [appendAutoBatch, appendAuto, bind_eq]
    apply wp_bind
    apply wp_bind
    refine wp_mono ?_ (wp_readStreamVersion hs event.stream)
    intro v h₁ ws₁ c₁ hs₁
    apply wp_mapError
    refine wp_mono ?_ (wp_appendPrepared R hs₁)
    intro _ h₂ ws₂ c₂ hs₂
    refine wp_mono ?_ (ih (index + 1) hs₂)
    rintro _ h₃ ws₃ c₃ ⟨new, stream', hnew, hs₃⟩
    refine ⟨persisted event (v + 1) :: new, stream', ?_, ?_⟩
    · simp [hnew, persisted]
    · rwa [append_assoc, singleton_append] at hs₃

/-- A pinned batch appends its events at consecutive versions. -/
theorem wp_appendPinnedBatch (R : Registry B T W K)
    (describe : Nat → StoreError → StoreError) (events : List (Event B)) (version index : Nat)
    (hstream : ∀ e ∈ events, e.stream = stream) (hs : Staged evs stream version h ws c) :
    (appendPinnedBatch R describe events version index).wp AppendRely
      (fun _ h ws c => Staged (evs ++ stamp events version) stream 0 h ws c) h ws c := by
  induction events generalizing evs version index h ws c with
  | nil => simpa [appendPinnedBatch, stamp] using hs.forget stream
  | cons event events ih =>
    have hhead : event.stream = stream := hstream event mem_cons_self
    simp only [appendPinnedBatch, bind_eq]
    apply wp_bind
    apply wp_mapError
    refine wp_mono ?_ (wp_appendPrepared R (hhead ▸ hs))
    intro _ h₁ ws₁ c₁ hs₁
    rw [hhead] at hs₁
    refine wp_mono ?_ (ih (version + 1) (index + 1) (forall_mem_cons.mp hstream).2 hs₁)
    intro _ h₂ ws₂ c₂ hs₂
    rwa [append_assoc, singleton_append] at hs₂

/-- A version-pinned append from an empty transaction inserts exactly its stamped
events. -/
theorem wp_appendAtVersion (R : Registry B T W K)
    (describe : Nat → StoreError → StoreError) (events : List (Event B)) (expected : Nat)
    (hstream : ∀ e ∈ events, e.stream = stream) (hs : Staged [] stream 0 h ws c) :
    (appendAtVersion R describe stream events expected).wp AppendRely
      (fun _ h ws c => Staged (stamp events expected) stream 0 h ws c) h ws c := by
  simp only [appendAtVersion, bind_eq]
  apply wp_bind
  refine wp_mono ?_ (wp_readStreamVersion hs stream)
  intro v h₁ ws₁ c₁ hs₁
  apply wp_bind
  apply wp_require
  intro hv
  rw [decide_eq_true_eq] at hv
  subst hv
  exact wp_appendPinnedBatch R _ events v 0 hstream hs₁

end batches

/-! ## The protocol of the append paths -/

/-- The prepared events of a version-pinned call and the version its caller named. -/
def AppendCall.Pins (R : Registry B T W K) : AppendCall B T → List (Event B) → Nat → Prop
  | .appendEventWithVersion event expected, prepared, version =>
    ∃ e, R.prepareEvent event = .ok e ∧ prepared = [e] ∧ expected = version
  | .appendEventsWithVersion events expected, prepared, version =>
    preparePinnedBatch R none events 0 = .ok prepared ∧ expected = version
  | .deviceLifecycle _ operation, prepared, version =>
    ∃ d append e, operation d = .ok (some append) ∧ R.prepareEvent append.event = .ok e ∧
      prepared = [e] ∧ append.expected = version
  | _, _, _ => False

/-- The events that a successful call has placed. -/
def AppendCall.Placed (R : Registry B T W K) (call : AppendCall B T)
    (evs : List (PersistedEvent B)) : Prop :=
  match call with
  | .appendEvent event =>
    ∃ prepared, R.prepareEvent event = .ok prepared ∧ evs.map (·.toEvent) = [prepared]
  | .appendEvents events => prepareBatch R events 0 = .ok (evs.map (·.toEvent))
  | .appendEventBeforeCommit event _ =>
    ∃ prepared, R.prepareEvent event = .ok prepared ∧ evs.map (·.toEvent) = [prepared]
  -- A lifecycle operation may decide to append nothing.
  | .deviceLifecycle _ _ => evs = [] ∨
      ∃ prepared version, call.Pins R prepared version ∧ evs = stamp prepared version
  | _ => ∃ prepared version, call.Pins R prepared version ∧ evs = stamp prepared version

/-- What a transaction of a call has staged when it is ready to commit. -/
def AppendCall.Post (R : Registry B T W K) (call : AppendCall B T) (_ : Unit)
    (h : List (StoreKey K)) (ws : List (StoreWrite B W)) (c : Database B T) : Prop :=
  ∃ evs stream, call.Placed R evs ∧ Staged evs stream 0 h ws c

/-- Every append path stages exactly the events it was asked to place. -/
theorem wp_body (R : Registry B T W K) (call : AppendCall B T) {c : Database B T}
    (hc : Contiguous c.events) : (call.body R).wp AppendRely (call.Post R) [] [] c := by
  have hempty := fun stream => staged_empty (W := W) (K := K) hc stream
  cases call with
  | appendEvent event =>
    simp only [AppendCall.body, bind_eq]
    apply wp_bind
    apply wp_ofExcept
    intro prepared hprep
    apply wp_mapError
    refine wp_mono ?_ (wp_appendAutoBatch R [prepared] 0 (hempty prepared.stream))
    rintro _ h ws c ⟨new, stream, hnew, hs⟩
    exact ⟨new, stream, ⟨prepared, hprep, hnew⟩, hs⟩
  | appendEventWithVersion event expected =>
    simp only [AppendCall.body, Store.appendEventWithVersion, bind_eq]
    apply wp_bind
    apply wp_ofExcept
    intro version hversion
    have hexpected := expectedVersion_ok hversion
    apply wp_bind
    apply wp_ofExcept
    intro prepared hprep
    refine wp_mono ?_ (wp_appendAtVersion R _ [prepared] version (by simp) (hempty prepared.stream))
    intro _ h ws c hs
    exact ⟨_, _, ⟨[prepared], version, ⟨prepared, hprep, rfl, hexpected⟩, rfl⟩, hs⟩
  | appendEvents events =>
    simp only [AppendCall.body, bind_eq]
    apply wp_bind
    apply wp_ofExcept
    intro prepared hprep
    apply wp_mapError
    refine wp_mono ?_ (wp_appendAutoBatch R prepared 0 (hempty ("", "")))
    rintro _ h ws c ⟨new, stream, rfl, hs⟩
    exact ⟨new, stream, hprep, hs⟩
  | appendEventsWithVersion events expected =>
    simp only [AppendCall.body, Store.appendEventsWithVersion, bind_eq]
    apply wp_bind
    apply wp_ofExcept
    intro version hversion
    have hexpected := expectedVersion_ok hversion
    apply wp_bind
    apply wp_require
    intro _
    apply wp_bind
    apply wp_ofExcept
    intro prepared hprep
    cases prepared with
    | nil => exact Prog.wp_ret.mpr ⟨[], ("", ""), ⟨[], version, ⟨hprep, hexpected⟩, rfl⟩, hempty _⟩
    | cons head tail =>
      refine wp_mono ?_ (wp_appendAtVersion R _ (head :: tail)
        version (preparePinnedBatch_head hprep) (hempty head.stream))
      intro _ h ws c hs
      exact ⟨_, _, ⟨_, version, ⟨hprep, hexpected⟩, rfl⟩, hs⟩
  | appendEventBeforeCommit event callback =>
    simp only [AppendCall.body, bind_eq]
    apply wp_bind
    apply wp_ofExcept
    intro prepared hprep
    apply wp_bind
    refine wp_mono ?_ (wp_readStreamVersion (hempty prepared.stream) prepared.stream)
    intro v h₁ ws₁ c₁ hs₁
    apply wp_bind
    apply wp_mapError
    refine wp_mono ?_ (wp_appendPrepared R hs₁)
    intro _ h₂ ws₂ c₂ hs₂
    cases callback with
    | some e => exact Prog.wp_fail
    | none =>
      exact Prog.wp_ret.mpr ⟨[persisted prepared (v + 1)], ("", ""),
        ⟨prepared, hprep, rfl⟩, hs₂.forget _⟩
  | deviceLifecycle deviceID operation =>
    simp only [AppendCall.body, withDeviceLifecycleLock, bind_eq]
    apply wp_bind
    apply wp_ofExcept
    intro deviceID' _
    apply wp_bind
    apply Prog.wp_statement
    intro c₁ hr₁ ws₁ _ hlock
    simp at hlock
    obtain ⟨rfl, -⟩ := hlock
    apply wp_bind
    apply wp_query
    intro c₂ hr₂ decision hdecision
    have hs₂ := fun stream => (((hempty stream).rely hr₁).locks _).rely hr₂
    cases decision with
    | none => exact Prog.wp_ret.mpr ⟨[], ("", ""), .inl rfl, hs₂ _⟩
    | some append =>
      simp only [appendEventFor, bind_eq]
      apply wp_bind
      apply wp_ofExcept
      intro version hversion
      have hexpected := expectedVersion_ok hversion
      apply wp_bind
      apply wp_ofExcept
      intro prepared hprep
      apply wp_bind
      apply wp_require
      intro _
      refine wp_mono ?_ (wp_appendAtVersion R _ [prepared] version (by simp) (hs₂ prepared.stream))
      intro _ h ws c hs
      exact ⟨_, _, .inr ⟨[prepared], version,
        ⟨_, append, prepared, hdecision, hprep, rfl, hexpected⟩, rfl⟩, hs⟩

/-- The proof obligations of the append paths, discharged once. -/
def appendProtocol (R : Registry B T W K) : Protocol (client R) where
  inv c := Contiguous c.events
  rely := AppendRely
  allowed _ _ _ := True
  post call := call.Post R
  rely_refl h c hc := ⟨hc, [], by simp, by simp⟩
  rely_trans := by
    rintro h c c' c'' ⟨_, more, hmore, hfree⟩ ⟨hcont, more', hmore', hfree'⟩
    refine ⟨hcont, more ++ more', by rw [hmore', hmore, append_assoc], ?_⟩
    intro e he
    rcases mem_append.mp he with he | he
    · exact hfree e he
    · exact hfree' e he
  post_stable := by
    rintro call a h ws c c' hr ⟨evs, stream, hplaced, hs⟩
    exact ⟨evs, stream, hplaced, hs.rely hr⟩
  body call c hc := wp_body R call hc
  commit_inv := by
    rintro call a h ws c _ ⟨evs, stream, _, hs⟩
    exact hs.view.2
  commit_rely := by
    rintro call a h h' ws c _ ⟨evs, stream, _, hs⟩ hdisjoint _
    refine ⟨hs.view.2, evs, hs.view.1, ?_⟩
    intro e he
    exact hdisjoint _ (hs.locked e he)

end PowerManage.Store
