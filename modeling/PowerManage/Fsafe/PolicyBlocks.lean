import PowerManage.Fsafe.Policy
import PowerManage.Text.Lines

/-!
# Managed blocks

A managed block is the part of a file between two marker lines.  Rendering finds the markers
by their positions; here a file is its list of lines, and the block is found in that list.

Main results:

- `renderPolicyBlock_unmarked` and `renderPolicyBlock_marked`: the rendered file in
  terms of the lines before, between and after the markers.
- `renderPolicyBlock_ok`: there are no other successful cases.
- `managed_block_laws`: the edit laws of setting and removing a block.
-/

namespace PowerManage.Fsafe

open List Exec FileSystem Paths Relational Lines
open Utf8 (textBytes)

theorem withNewline_eq (content : Bytes) :
    withNewline content = unlines newline (lines newline content) :=
  terminate_eq content

/-! ## Positions of marker lines -/

section Spans

variable {marker : Bytes} {start : Nat} {ls rest : List Bytes}

/-- A line that is not the marker is passed over. -/
theorem markerSpansFrom_cons_ne {line : Bytes} (hline : line ≠ marker) (hrest : rest ≠ []) :
    markerSpansFrom marker start (line :: rest) =
      markerSpansFrom marker (start + line.length + 1) rest := by
  cases rest with
  | nil => exact absurd rfl hrest
  | cons next rest => simp [markerSpansFrom, hline]

/-- Whole lines without the marker are passed over. -/
theorem markerSpansFrom_append (hmarker : marker ∉ ls) (hrest : rest ≠ []) :
    markerSpansFrom marker start (ls ++ rest) =
      markerSpansFrom marker (start + (unlines newline ls).length) rest := by
  induction ls generalizing start with
  | nil => simp
  | cons line ls ih =>
    rw [mem_cons, not_or] at hmarker
    rw [cons_append, markerSpansFrom_cons_ne (Ne.symm hmarker.1) (by simp [hrest]),
      ih hmarker.2, unlines_cons, length_append, length_cons]
    congr 1
    omega

theorem markerSpansFrom_eq_nil : markerSpansFrom marker start ls = [] ↔ marker ∉ ls := by
  induction ls generalizing start with
  | nil => simp [markerSpansFrom]
  | cons line ls ih =>
    cases ls with
    | nil => simp [markerSpansFrom, eq_comm]
    | cons next ls =>
      by_cases h : line = marker
      · simp [markerSpansFrom, h]
      · rw [markerSpansFrom_cons_ne h (cons_ne_nil _ _), ih]
        exact ⟨fun hmem => not_mem_cons_of_ne_of_not_mem (Ne.symm h) hmem,
          fun hmem => (ne_and_not_mem_of_not_mem_cons hmem).2⟩

/-- The span of a marker line that starts at `start` and is followed by `rest`. -/
def lineSpan (start : Nat) (marker : Bytes) (rest : List Bytes) : PolicyMarkerSpan :=
  ⟨start, start + marker.length + if rest = [] then 0 else 1⟩

theorem markerSpansFrom_cons_self (hrest : marker ∉ rest) :
    markerSpansFrom marker start (marker :: rest) = [lineSpan start marker rest] := by
  cases rest with
  | nil => simp [markerSpansFrom, lineSpan]
  | cons next rest =>
    rw [markerSpansFrom, markerSpansFrom_eq_nil.mpr hrest] <;> simp [lineSpan]

/-- The marker stands on one line: its span starts after the lines before it. -/
theorem markerSpansFrom_once (hmarker : marker ∉ ls) (hrest : marker ∉ rest) :
    markerSpansFrom marker start (ls ++ marker :: rest) =
      [lineSpan (start + (unlines newline ls).length) marker rest] := by
  rw [markerSpansFrom_append hmarker (cons_ne_nil _ _), markerSpansFrom_cons_self hrest]

/-- A single span belongs to a marker that stands on one line. -/
theorem markerSpansFrom_singleton {span : PolicyMarkerSpan}
    (h : markerSpansFrom marker start ls = [span]) :
    ∃ before after, ls = before ++ marker :: after ∧ marker ∉ before ∧ marker ∉ after ∧
      span = lineSpan (start + (unlines newline before).length) marker after := by
  have hmem : marker ∈ ls := by
    by_contra hnot
    rw [markerSpansFrom_eq_nil.mpr hnot] at h
    cases h
  rcases eq_append_cons_of_mem hmem with ⟨before, after, hls, hbefore⟩
  have hafter : marker ∉ after := by
    rw [hls, markerSpansFrom_append hbefore (cons_ne_nil _ _)] at h
    cases after with
    | nil => simp
    | cons next after =>
      rw [markerSpansFrom] at h
      · rw [if_pos rfl, singleton_append] at h
        exact markerSpansFrom_eq_nil.mp (cons.inj h).2
      · simp
  rw [hls, markerSpansFrom_once hbefore hafter] at h
  exact ⟨before, after, hls, hbefore, hafter, (cons.inj h).1.symm⟩

end Spans

/-! ## A file with a block -/

section Blocks

variable {block : PolicyManagedBlock} {content : Bytes} {desired : PolicyFileState}

/-- Neither marker is among the lines. -/
def Unmarked (block : PolicyManagedBlock) (ls : List Bytes) : Prop :=
  block.begin_ ∉ ls ∧ block.end_ ∉ ls

instance (block : PolicyManagedBlock) (ls : List Bytes) : Decidable (Unmarked block ls) :=
  inferInstanceAs (Decidable (_ ∧ _))

/-- The file has each marker on one line, in order: `before`, `inside` and
`after` are the other lines. -/
structure Marked (block : PolicyManagedBlock) (content : Bytes)
    (before inside after : List Bytes) : Prop where
  parts : content.splitOn newline = before ++ block.begin_ :: (inside ++ block.end_ :: after)
  before : Unmarked block before
  inside : Unmarked block inside
  after : Unmarked block after

/-- The bytes of the last lines of a file. -/
def remainder (after : List Bytes) : Bytes :=
  [newline].intercalate after

variable {after before inside : List Bytes}

theorem Marked.distinct (h : Marked block content before inside after)
    (hne : block.begin_ ≠ block.end_) :
    block.end_ ∉ before ++ block.begin_ :: inside ∧
      block.begin_ ∉ inside ++ block.end_ :: after := by
  constructor
  · simp [h.before.2, h.inside.2, Ne.symm hne]
  · simp [h.inside.1, h.after.1, hne]

/-- The bytes of a file with a block. -/
theorem Marked.bytes (h : Marked block content before inside after) :
    content = unlines newline before ++ (unlines newline (block.begin_ :: inside) ++ block.end_ ++
      if after = [] then [] else newline :: remainder after) := by
  have hsplit : before ++ block.begin_ :: (inside ++ block.end_ :: after) =
      (before ++ block.begin_ :: inside) ++ block.end_ :: after := by simp
  have hjoin : [newline].intercalate (content.splitOn newline) = content :=
    intercalate_splitOn newline
  rw [← hjoin, h.parts, hsplit, intercalate_append _ (cons_ne_nil _ _), unlines_append,
    append_assoc, append_assoc]
  congr 2
  cases after with
  | nil => simp
  | cons next after => simp [remainder, intercalate_cons_cons]

/-- The begin marker is found after the lines before the block. -/
theorem Marked.begins (h : Marked block content before inside after)
    (hne : block.begin_ ≠ block.end_) :
    policyMarkerSpans content block.begin_ =
      [lineSpan (unlines newline before).length block.begin_ (inside ++ block.end_ :: after)] := by
  rw [policyMarkerSpans, h.parts, markerSpansFrom_once h.before.1 (h.distinct hne).2, Nat.zero_add]

/-- The end marker is found after the lines inside the block. -/
theorem Marked.ends (h : Marked block content before inside after)
    (hne : block.begin_ ≠ block.end_) :
    policyMarkerSpans content block.end_ =
      [lineSpan (unlines newline (before ++ block.begin_ :: inside)).length block.end_ after] := by
  have hsplit : before ++ block.begin_ :: (inside ++ block.end_ :: after) =
      (before ++ block.begin_ :: inside) ++ block.end_ :: after := by simp
  rw [policyMarkerSpans, h.parts, hsplit, markerSpansFrom_once (h.distinct hne).1 h.after.2,
    Nat.zero_add]

/-- What a rendering puts in the place of a block. -/
def blockBytes (block : PolicyManagedBlock) (desired : PolicyFileState) : Bytes :=
  if desired.presence = .absent then [] else policyBlockBytes block desired.content

/-- A file with a block: the block is replaced, what is before and after it stays. -/
theorem renderPolicyBlock_marked (h : Marked block content before inside after)
    (hne : block.begin_ ≠ block.end_) (desired : PolicyFileState) :
    renderPolicyBlock content block desired =
      .ok (unlines newline before ++ blockBytes block desired ++ remainder after) := by
  have htake : content.take (unlines newline before).length = unlines newline before := by
    rw [h.bytes, take_left]
  have hdrop : content.drop (lineSpan (unlines newline (before ++ block.begin_ :: inside)).length
      block.end_ after).stop = remainder after := by
    cases after with
    | nil =>
      rw [h.bytes, ← append_assoc, ← append_assoc, ← unlines_append]
      simp [lineSpan, remainder]
      omega
    | cons next after =>
      have hbytes := h.bytes
      rw [← append_assoc, ← append_assoc, ← unlines_append, if_neg (by simp), append_cons] at hbytes
      rw [hbytes, drop_left' (by simp [lineSpan]; omega)]
  have horder : ¬ (lineSpan (unlines newline (before ++ block.begin_ :: inside)).length
      block.end_ after).start ≤ (lineSpan (unlines newline before).length block.begin_
        (inside ++ block.end_ :: after)).start := by
    simp only [lineSpan, unlines_append, length_append, unlines_cons, length_cons]
    omega
  rw [renderPolicyBlock, h.begins hne, h.ends hne]
  dsimp only
  rw [if_neg horder, blockBytes, hdrop]
  by_cases habsent : desired.presence = .absent
  · rw [if_pos habsent, if_pos habsent, append_nil]
    exact congrArg (fun front => Except.ok (front ++ remainder after)) htake
  · rw [if_neg habsent, if_neg habsent]
    exact congrArg (fun front => Except.ok (front ++ _ ++ remainder after)) htake

/-- A file without markers: the block is put at its end. -/
theorem renderPolicyBlock_unmarked (h : Unmarked block (content.splitOn newline))
    (desired : PolicyFileState) :
    renderPolicyBlock content block desired =
      .ok (if desired.presence = .absent then content
        else withNewline content ++ policyBlockBytes block desired.content) := by
  rw [renderPolicyBlock, policyMarkerSpans, policyMarkerSpans, markerSpansFrom_eq_nil.mpr h.1,
    markerSpansFrom_eq_nil.mpr h.2]
  by_cases habsent : desired.presence = .absent
  · simp only [if_pos habsent]
  · simp only [if_neg habsent]

/-- Rendering succeeds on files without markers and on files with each marker once, in order. -/
theorem renderPolicyBlock_ok (hne : block.begin_ ≠ block.end_) {desired : PolicyFileState}
    {out : Bytes} (h : renderPolicyBlock content block desired = .ok out) :
    Unmarked block (content.splitOn newline) ∨
      ∃ before inside after, Marked block content before inside after := by
  unfold renderPolicyBlock at h
  split at h
  case h_1 hbegin hend =>
    exact .inl ⟨markerSpansFrom_eq_nil.mp hbegin, markerSpansFrom_eq_nil.mp hend⟩
  case h_3 => cases h
  case h_2 first last hbegin hend =>
    right
    rcases markerSpansFrom_singleton hbegin with ⟨before, rest, hparts, hbefore, hrest, hfirst⟩
    rcases markerSpansFrom_singleton hend with ⟨front, after, hparts', hfront, hafter, hlast⟩
    by_cases horder : last.start ≤ first.start
    · rw [if_pos horder] at h
      cases h
    rw [hfirst, hlast] at horder
    simp [lineSpan] at horder
    -- the end marker is behind the begin marker, so it splits the lines that follow it
    have hsame := hparts.symm.trans hparts'
    rcases append_eq_append_iff.mp hsame with ⟨mid, hfront', hrest'⟩ | ⟨mid, hbefore', -⟩
    · cases mid with
      | nil =>
        rw [nil_append, cons.injEq] at hrest'
        exact absurd hrest'.1 hne
      | cons m mid =>
        rw [cons_append, cons.injEq] at hrest'
        rw [hfront', ← hrest'.1, mem_append, mem_cons, not_or, not_or] at hfront
        rw [hrest'.2, mem_append, mem_cons, not_or, not_or] at hrest
        exact ⟨before, mid, after, by rw [hparts, hrest'.2], ⟨hbefore, hfront.1⟩,
          ⟨hrest.1, hfront.2.2⟩, ⟨hrest.2.2, hafter⟩⟩
    · rw [hbefore', unlines_append, length_append] at horder
      omega

end Blocks

/-! ## Setting and removing a block -/

/-- `renderPolicyState` for a block that should be there. -/
def setBlock (block : PolicyManagedBlock) (validator : PolicyValidator) (content : Bytes)
    (current : PolicyFileState) : Except PolicyError PolicyFileState :=
  renderPolicyState ⟨.present, content, some block⟩ current validator

/-- `renderPolicyState` for a block that should not be there. -/
def removeBlock (block : PolicyManagedBlock) (validator : PolicyValidator)
    (current : PolicyFileState) : Except PolicyError PolicyFileState :=
  renderPolicyState ⟨.absent, [], some block⟩ current validator

/-- The markers and the content of a block are accepted. -/
def BlockAccepted (block : PolicyManagedBlock) (validator : PolicyValidator)
    (content : Bytes) : Prop :=
  validatePolicyMarkers block validator = .ok () ∧ Unmarked block (content.splitOn newline)

instance (block : PolicyManagedBlock) (validator : PolicyValidator) (content : Bytes) :
    Decidable (BlockAccepted block validator content) :=
  inferInstanceAs (Decidable (_ ∧ _))

variable {validator : PolicyValidator} {block : PolicyManagedBlock}

/-- A line that has passed `validateLine` has no end of line in it. -/
theorem newline_not_mem_of_validateLine {line : Bytes} (h : validateLine validator line = true) :
    newline ∉ line := by
  have hcontrol : hasControlChar line = false := by
    cases validator with
    | sshd => simpa [validateLine] using h
    | visudo =>
      rw [validateLine, Bool.and_eq_true] at h
      simpa using h.1
  intro hmem
  rw [hasControlChar, any_eq_false] at hcontrol
  exact hcontrol newline hmem (by decide)

/-- What the checks of the markers give. -/
theorem validatePolicyMarkers_ok (h : validatePolicyMarkers block validator = .ok ()) :
    block.begin_ ≠ [] ∧ block.end_ ≠ [] ∧ block.begin_ ≠ block.end_ ∧
      newline ∉ block.begin_ ∧ newline ∉ block.end_ := by
  simp only [validatePolicyMarkers, ite_error_eq_ok, not_or, not_not] at h
  rcases h with ⟨⟨hbegin, hend, hne⟩, -, hfirst, hlast, -⟩
  exact ⟨hbegin, hend, hne, newline_not_mem_of_validateLine hfirst,
    newline_not_mem_of_validateLine hlast⟩

/-- The rendering of an accepted block that does not leave an absent file absent. -/
theorem renderPolicyState_accepted {content : Bytes} {presence : PolicyFilePresence}
    (h : BlockAccepted block validator content) (current : PolicyFileState)
    (hpresence : presence = .present ∨
      presence = .absent ∧ content = [] ∧ current.presence ≠ .absent) :
    renderPolicyState ⟨presence, content, some block⟩ current validator =
      (renderPolicyBlock current.content block ⟨presence, content, some block⟩).map
        fun bytes => ⟨.present, bytes, none⟩ := by
  have hspans : ¬ (policyMarkerSpans content block.begin_ ≠ [] ∨
      policyMarkerSpans content block.end_ ≠ []) := by
    rw [policyMarkerSpans, policyMarkerSpans, markerSpansFrom_eq_nil.mpr h.2.1,
      markerSpansFrom_eq_nil.mpr h.2.2]
    simp
  rw [renderPolicyState, if_neg (by grind)]
  dsimp only
  rw [if_neg (by grind), h.1]
  change (if _ then _ else _) = _
  rw [if_neg hspans]
  cases renderPolicyBlock current.content block ⟨presence, content, some block⟩ with
  | error e => rfl
  | ok bytes =>
    rcases hpresence with rfl | ⟨rfl, rfl, hpresent⟩ <;>
      simp_all [bind, Except.bind, Except.map, pure, Except.pure]

/-- An accepted block is rendered into the file. -/
theorem setBlock_eq {content : Bytes} (h : BlockAccepted block validator content)
    (current : PolicyFileState) :
    setBlock block validator content current =
      (renderPolicyBlock current.content block ⟨.present, content, some block⟩).map
        fun bytes => ⟨.present, bytes, none⟩ :=
  renderPolicyState_accepted h current (.inl rfl)

/-- Only an accepted block is rendered. -/
theorem accepted_of_setBlock {content : Bytes} {current out : PolicyFileState}
    (h : setBlock block validator content current = .ok out) :
    BlockAccepted block validator content := by
  rw [setBlock, renderPolicyState, if_neg (by simp)] at h
  dsimp only at h
  rw [if_neg (by simp), bind_eq_ok] at h
  rcases h with ⟨_, hmarkers, h⟩
  rw [ite_error_eq_ok] at h
  refine ⟨hmarkers, ?_⟩
  have hspans := h.1
  rw [not_or, not_not, not_not] at hspans
  exact ⟨markerSpansFrom_eq_nil.mp hspans.1, markerSpansFrom_eq_nil.mp hspans.2⟩

/-- Removing a block with accepted markers. -/
theorem removeBlock_eq (h : validatePolicyMarkers block validator = .ok ())
    (current : PolicyFileState) (hpresent : current.presence ≠ .absent) :
    removeBlock block validator current =
      (renderPolicyBlock current.content block ⟨.absent, [], some block⟩).map
        fun bytes => ⟨.present, bytes, none⟩ := by
  obtain ⟨hbegin, hend, -⟩ := validatePolicyMarkers_ok h
  exact renderPolicyState_accepted ⟨h, by simp [Unmarked, hbegin, hend]⟩ current
    (.inr ⟨rfl, rfl, hpresent⟩)

section Laws

variable {block : PolicyManagedBlock} {validator : PolicyValidator} {content : Bytes}

/-- The bytes of a block: its content, ended, between the two marker lines. -/
theorem policyBlockBytes_eq :
    policyBlockBytes block content =
      unlines newline (block.begin_ :: (lines newline content ++ [block.end_])) := by
  rw [policyBlockBytes, withNewline_eq]
  simp

theorem unmarked_lines {ls : Bytes} (h : Unmarked block (ls.splitOn newline)) :
    Unmarked block (lines newline ls) := by
  have hsub : ∀ l, l ∈ lines newline ls → l ∈ ls.splitOn newline := by
    intro l hl
    rw [lines] at hl
    split at hl
    · exact dropLast_subset _ hl
    · exact hl
  exact ⟨fun hmem => h.1 (hsub _ hmem), fun hmem => h.2 (hsub _ hmem)⟩

variable {after before : List Bytes} {current out : PolicyFileState}

/-- A file that consists of whole lines, a block and further text has that block. -/
theorem marked_of_bytes (h : BlockAccepted block validator content)
    (hbefore : Unmarked block before) (hafter : Unmarked block after) (hne : after ≠ [])
    (hends : ∀ l ∈ before, newline ∉ l) (hends' : ∀ l ∈ after, newline ∉ l) :
    Marked block (unlines newline before ++ policyBlockBytes block content ++ remainder after)
      before (lines newline content) after := by
  have hmarkers := validatePolicyMarkers_ok h.1
  refine ⟨?_, hbefore, unmarked_lines h.2, hafter⟩
  have hlines : ∀ l ∈ before ++ block.begin_ :: (lines newline content ++ [block.end_]),
      newline ∉ l := by
    intro l hl
    simp at hl
    rcases hl with hl | hl | hl | hl
    · exact hends l hl
    · rw [hl]; exact hmarkers.2.2.2.1
    · exact not_mem_of_mem_lines hl
    · rw [hl]; exact hmarkers.2.2.2.2
  rw [policyBlockBytes_eq, ← unlines_append, splitOn_unlines_append hlines, remainder,
    splitOn_intercalate newline hends' hne]
  simp

/-- The bytes of an old block: its lines and, unless the file ends there, the end of the
last one. -/
def oldBlockBytes (block : PolicyManagedBlock) (inside : List Bytes) (last : Bool) : Bytes :=
  unlines newline (block.begin_ :: inside) ++ block.end_ ++ if last then [] else [newline]

/-- The file `out` is the file `current` with the block `bytes` in the place of
the old block, or after its last line if it has none. -/
def Spliced (block : PolicyManagedBlock) (bytes current out : Bytes) : Prop :=
  (Unmarked block (current.splitOn newline) ∧ out = withNewline current ++ bytes) ∨
    ∃ front inside back last, current = front ++ oldBlockBytes block inside last ++ back ∧
      Unmarked block inside ∧ (last = true → back = []) ∧ out = front ++ bytes ++ back

/-- What setting a block finds and leaves: the lines before it, those after it, and the same
place for every other accepted content. -/
structure BlockPlaced (block : PolicyManagedBlock) (validator : PolicyValidator)
    (current : PolicyFileState) (before after : List Bytes) : Prop where
  unmarkedBefore : Unmarked block before
  unmarkedAfter : Unmarked block after
  nonempty : after ≠ []
  endsBefore : ∀ l ∈ before, newline ∉ l
  endsAfter : ∀ l ∈ after, newline ∉ l
  result : ∀ content, BlockAccepted block validator content →
    setBlock block validator content current =
      .ok ⟨.present, unlines newline before ++ policyBlockBytes block content ++
        remainder after, none⟩

/-- The lines of a text are unmarked if those around a part of it are. -/
theorem blockPlaced_unmarked (hmarkers : validatePolicyMarkers block validator = .ok ())
    (h : Unmarked block (current.content.splitOn newline)) :
    BlockPlaced block validator current (lines newline current.content) [[]] where
  unmarkedBefore := unmarked_lines h
  unmarkedAfter := by
    have hne := validatePolicyMarkers_ok hmarkers
    exact ⟨by simp [hne.1], by simp [hne.2.1]⟩
  nonempty := cons_ne_nil _ _
  endsBefore := fun _ hl => not_mem_of_mem_lines hl
  endsAfter := by simp
  result := by
    intro content haccepted
    rw [setBlock_eq haccepted, renderPolicyBlock_unmarked h, if_neg (by simp), withNewline_eq]
    simp [Except.map, remainder]

theorem blockPlaced_marked (hmarkers : validatePolicyMarkers block validator = .ok ())
    {inside : List Bytes} (h : Marked block current.content before inside after) :
    BlockPlaced block validator current before (if after = [] then [[]] else after) where
  unmarkedBefore := h.before
  unmarkedAfter := by
    have hne := validatePolicyMarkers_ok hmarkers
    by_cases hafter : after = []
    · rw [if_pos hafter]
      exact ⟨by simp [hne.1], by simp [hne.2.1]⟩
    · rw [if_neg hafter]
      exact h.after
  nonempty := by
    by_cases hafter : after = [] <;> simp [hafter]
  endsBefore := by
    intro l hl
    have hmem : l ∈ current.content.splitOn newline := by
      rw [h.parts]
      exact mem_append_left _ hl
    exact not_mem_of_mem_splitOn hmem
  endsAfter := by
    intro l hl
    by_cases hafter : after = []
    · rw [if_pos hafter, mem_singleton] at hl
      simp [hl]
    · rw [if_neg hafter] at hl
      have hmem : l ∈ current.content.splitOn newline := by
        rw [h.parts]
        simp [hl]
      exact not_mem_of_mem_splitOn hmem
  result := by
    intro content haccepted
    rw [setBlock_eq haccepted,
      renderPolicyBlock_marked h (validatePolicyMarkers_ok hmarkers).2.2.1, blockBytes,
      if_neg (by simp)]
    by_cases hafter : after = [] <;> simp [Except.map, hafter, remainder]

theorem blockPlaced_of_setBlock (h : setBlock block validator content current = .ok out) :
    ∃ before after, BlockPlaced block validator current before after := by
  have haccepted := accepted_of_setBlock h
  rw [setBlock_eq haccepted, map_eq_ok] at h
  rcases h with ⟨bytes, hrender, -⟩
  rcases renderPolicyBlock_ok (validatePolicyMarkers_ok haccepted.1).2.2.1 hrender with
    hun | ⟨before, inside, after, hmarked⟩
  · exact ⟨_, _, blockPlaced_unmarked haccepted.1 hun⟩
  · exact ⟨_, _, blockPlaced_marked haccepted.1 hmarked⟩

/-- The result of setting a block has its place. -/
theorem BlockPlaced.again (h : BlockPlaced block validator current before after)
    (haccepted : BlockAccepted block validator content) :
    Marked block (unlines newline before ++ policyBlockBytes block content ++ remainder after)
      before (lines newline content) after :=
  marked_of_bytes haccepted h.unmarkedBefore h.unmarkedAfter h.nonempty h.endsBefore h.endsAfter

/-- Where a block is set is the place of the old one, if there is one. -/
theorem spliced_of_setBlock (h : setBlock block validator content current = .ok out) :
    Spliced block (policyBlockBytes block content) current.content out.content := by
  have haccepted := accepted_of_setBlock h
  have hne := (validatePolicyMarkers_ok haccepted.1).2.2.1
  rw [setBlock_eq haccepted, map_eq_ok] at h
  rcases h with ⟨bytes, hrender, hout⟩
  rw [← hout]
  rcases renderPolicyBlock_ok hne hrender with hun | ⟨before, inside, after, hmarked⟩
  · left
    rw [renderPolicyBlock_unmarked hun, if_neg (by simp)] at hrender
    exact ⟨hun, (Except.ok.inj hrender).symm⟩
  · right
    rw [renderPolicyBlock_marked hmarked hne, blockBytes, if_neg (by simp)] at hrender
    refine ⟨unlines newline before, inside, remainder after, decide (after = []), ?_,
      hmarked.inside, ?_, (Except.ok.inj hrender).symm⟩
    · have hbytes := hmarked.bytes
      by_cases hafter : after = []
      · simpa [oldBlockBytes, hafter, remainder] using hbytes
      · simpa [oldBlockBytes, hafter] using hbytes
    · intro hlast
      rw [of_decide_eq_true hlast]
      rfl

/-- A block that has just been put at the end of a file is removed without a trace, but for
the end of its last line. -/
theorem removeBlock_setBlock (hun : Unmarked block (current.content.splitOn newline))
    (h : setBlock block validator content current = .ok out) :
    removeBlock block validator out = .ok ⟨.present, withNewline current.content, none⟩ := by
  have haccepted := accepted_of_setBlock h
  have hplaced := blockPlaced_unmarked haccepted.1 hun
  rw [hplaced.result content haccepted] at h
  have hout := Except.ok.inj h
  rw [← hout, removeBlock_eq haccepted.1 _ (by simp),
    renderPolicyBlock_marked (hplaced.again haccepted)
      (validatePolicyMarkers_ok haccepted.1).2.2.1, blockBytes, if_pos rfl, withNewline_eq]
  simp [Except.map, remainder]

end Laws

/-- The edit laws of managed blocks.  A block with accepted markers and content is set in every
file without its markers and in every file with each of them on one line, in order; setting it
again changes nothing, a second content replaces the first, the rest of the file stays, a
block just inserted can be removed, and the result has the block once. -/
theorem managed_block_laws {block : PolicyManagedBlock} {validator : PolicyValidator}
    {content : Bytes} (haccepted : BlockAccepted block validator content)
    (current : PolicyFileState) :
    ((∃ out, setBlock block validator content current = .ok out) ↔
      Unmarked block (current.content.splitOn newline) ∨
        ∃ before inside after, Marked block current.content before inside after) ∧
    ∀ out, setBlock block validator content current = .ok out →
      setBlock block validator content out = .ok out ∧
      (∀ second, BlockAccepted block validator second →
        setBlock block validator second out = setBlock block validator second current) ∧
      Spliced block (policyBlockBytes block content) current.content out.content ∧
      (Unmarked block (current.content.splitOn newline) →
        removeBlock block validator out = .ok ⟨.present, withNewline current.content, none⟩) ∧
      ∃ before after, Marked block out.content before (lines newline content) after ∧
        out.content = unlines newline before ++ (block.begin_ ++ [newline] ++
          withNewline content ++ block.end_ ++ [newline]) ++ remainder after := by
  have hne := (validatePolicyMarkers_ok haccepted.1).2.2.1
  refine ⟨⟨?_, ?_⟩, ?_⟩
  · rintro ⟨out, h⟩
    rw [setBlock_eq haccepted, map_eq_ok] at h
    rcases h with ⟨bytes, hrender, -⟩
    exact renderPolicyBlock_ok hne hrender
  · rintro (hun | ⟨before, inside, after, hmarked⟩)
    · exact ⟨_, (blockPlaced_unmarked haccepted.1 hun).result content haccepted⟩
    · exact ⟨_, (blockPlaced_marked haccepted.1 hmarked).result content haccepted⟩
  · intro out h
    rcases blockPlaced_of_setBlock h with ⟨before, after, hplaced⟩
    have hout := h
    rw [hplaced.result content haccepted] at hout
    have hbytes : out.content =
        unlines newline before ++ policyBlockBytes block content ++ remainder after := by
      rw [← Except.ok.inj hout]
    have hmarked : Marked block out.content before (lines newline content) after := by
      rw [hbytes]
      exact hplaced.again haccepted
    -- the result has the block at the same place, so every later content goes there
    have hagain : ∀ second, BlockAccepted block validator second →
        setBlock block validator second out = setBlock block validator second current := by
      intro second hsecond
      have hresult := (blockPlaced_marked haccepted.1 hmarked).result second hsecond
      rw [if_neg hplaced.nonempty] at hresult
      rw [hresult, hplaced.result second hsecond]
    refine ⟨(hagain content haccepted).trans h, hagain, spliced_of_setBlock h,
      fun hun => removeBlock_setBlock hun h, before, after, hmarked, ?_⟩
    rw [hbytes]
    simp [policyBlockBytes]

/-- A block in a file whose last line is not ended. -/
def sampleBlock : PolicyManagedBlock :=
  ⟨textBytes "# a", textBytes "# b"⟩

theorem managed_block_laws_unended :
    setBlock sampleBlock .sshd (textBytes "y") ⟨.present, textBytes "x", none⟩ =
      .ok ⟨.present, textBytes "x\n# a\ny\n# b\n", none⟩ ∧
    removeBlock sampleBlock .sshd ⟨.present, textBytes "x\n# a\ny\n# b\n", none⟩ =
      .ok ⟨.present, textBytes "x\n", none⟩ := by
  have haccepted : BlockAccepted sampleBlock .sshd (textBytes "y") := by decide
  have hset : setBlock sampleBlock .sshd (textBytes "y") ⟨.present, textBytes "x", none⟩ =
      .ok ⟨.present, textBytes "x\n# a\ny\n# b\n", none⟩ := by decide
  refine ⟨hset, ?_⟩
  have hlaws := (managed_block_laws haccepted _).2 _ hset
  have hremove := hlaws.2.2.2.1 (by decide)
  have hcontent : withNewline (textBytes "x") = textBytes "x\n" := by decide
  rwa [hcontent] at hremove

end PowerManage.Fsafe
