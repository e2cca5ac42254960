import Mathlib.Data.List.Infix
import Mathlib.Logic.Function.Basic
import PowerManage.Exec.Capture

/-!
# The two readers of a command

A command's output streams are read by two goroutines at once.  Each fills a buffer of
its own from its pipe, in pieces of any size; they share the captured texts, the sequence
numbers and the callback, which a mutex guards line by line.

Main results:

- `Gives.turn`: the sizes of the pieces do not matter for the lines.
- `inv_run`: what every interleaving has recorded and handed to the callback.
- `exists_returned`: every run can go on until both readers have returned.
- `output_of_run`: the captured texts and the calls of the callback.
-/

namespace PowerManage.Exec

open List Lines

/-! ## Readers -/

inductive StreamType where
  | stdout
  | stderr
  deriving DecidableEq

/-- A reader: what its pipe still brings, what is in its buffer, what waits for the end of
its line, and whether the reader has returned. -/
structure Reader where
  unread : Bytes
  buffered : Bytes
  pending : Bytes
  returned : Bool

/-- `ReadSlice` needs no further bytes: the buffer holds the end of a line or is full,
or the pipe is at its end. -/
def Reader.ready (q : Reader) : Bool :=
  q.buffered.contains newline || q.buffered.length = readerSize || q.unread = []

/-- The pipe brings some bytes, at most as many as the buffer has room for. -/
def Reader.read (q : Reader) (n : Nat) : Option Reader :=
  if q.returned || q.ready || n = 0 || q.unread.length < n ||
      readerSize < q.buffered.length + n then none
  else some { q with buffered := q.buffered ++ q.unread.take n, unread := q.unread.drop n }

/-- One turn of the loop of `readLines`: the line it records, if any. -/
def Reader.turn (q : Reader) : Option (List Bytes × Reader) :=
  if q.returned || !q.ready then none
  else
    let slice := readSlice q.buffered
    let step := deliver slice.1 q.pending
    some (step.1 ++ (if slice.2.2 then (if step.2 = [] then [] else [step.2]) else []),
      ⟨q.unread, slice.2.1, step.2, slice.2.2⟩)

/-! ## The run -/

/-- A call of the callback: its arguments, and whether it panicked. -/
structure Call where
  stream : StreamType
  line : Bytes
  seq : Nat
  panicked : Bool

/-- The readers and what they share; `calls` are the calls of the callback so far. -/
structure Run where
  readers : StreamType → Reader
  captures : StreamType → Capture
  seqs : StreamType → Nat
  panicked : Bool
  calls : List Call

/-- Nothing has been read yet. -/
def Run.init (streams : StreamType → Bytes) : Run where
  readers s := ⟨streams s, [], [], false⟩
  captures _ := ⟨[], 0⟩
  seqs _ := 0
  panicked := false
  calls := []

/-- `recordLine`, with or without a callback, which may panic. -/
def Run.recordLine (callback panics : Bool) (s : StreamType) (r : Run) (line : Bytes) :
    Run where
  readers := r.readers
  captures := Function.update r.captures s ((r.captures s).recordLine line)
  seqs := Function.update r.seqs s (r.seqs s + 1)
  panicked := r.panicked || callback && panics
  calls :=
    if callback && !r.panicked then r.calls ++ [⟨s, line ++ [newline], r.seqs s, panics⟩]
    else r.calls

/-- What can happen next: a pipe brings bytes, or a reader goes once round its loop. -/
inductive Action where
  | read (s : StreamType) (n : Nat)
  | turn (s : StreamType) (panics : Bool)

/-- One action, if it can happen. -/
def Run.step (callback : Bool) (r : Run) : Action → Option Run
  | .read s n =>
    ((r.readers s).read n).map fun q => { r with readers := Function.update r.readers s q }
  | .turn s panics =>
    (r.readers s).turn.map fun (lines, q) =>
      lines.foldl (Run.recordLine callback panics s)
        { r with readers := Function.update r.readers s q }

/-- The run of some actions from the start. -/
def runReaders (callback : Bool) (streams : StreamType → Bytes) (actions : List Action) :
    Option Run :=
  actions.foldlM (Run.step callback) (Run.init streams)

/-! ## The lines of a reader -/

/-- The reader has handed over `done` and will hand over the rest of the lines. -/
def Reader.Gives (q : Reader) (stream : Bytes) (done : List Bytes) : Prop :=
  if q.returned then done = readLines stream
  else q.buffered.length ≤ readerSize ∧
    ∃ turns, (q.buffered ++ q.unread).length < turns ∧
      readLines stream = done ++ readLinesFrom turns (q.buffered ++ q.unread) q.pending

/-- What has been handed over is a beginning of the lines. -/
theorem Reader.Gives.isPrefix {q : Reader} {stream : Bytes} {done : List Bytes}
    (h : q.Gives stream done) : done <+: readLines stream := by
  unfold Reader.Gives at h
  split at h
  · exact h ▸ prefix_rfl
  · obtain ⟨-, turns, -, hlines⟩ := h
    exact ⟨_, hlines.symm⟩

/-- A buffer that is ready gives the slice that the whole stream gives. -/
theorem readSlice_append {b u : Bytes} (hb : b.length ≤ readerSize)
    (hready : newline ∈ b ∨ b.length = readerSize ∨ u = []) :
    readSlice (b ++ u) = ((readSlice b).1, (readSlice b).2.1 ++ u, (readSlice b).2.2) ∧
      ((readSlice b).2.2 = false → (readSlice b).2.1.length < b.length) := by
  rcases stream_cases b with ⟨l, rest, hl, hshort, rfl⟩ | ⟨l, rest, hl, hfull, rfl⟩ | ⟨hl, hshort⟩
  · rw [append_assoc, cons_append, readSlice_line hl hshort, readSlice_line hl hshort]
    refine ⟨rfl, fun _ => ?_⟩
    simp only [length_append, length_cons]
    omega
  · rw [append_assoc, readSlice_full hl hfull, readSlice_full hl hfull]
    refine ⟨rfl, fun _ => ?_⟩
    have hsize : 0 < readerSize := by decide
    simp only [length_append]
    omega
  · have hu : u = [] := by
      rcases hready with hmem | hfull | hu
      · exact absurd hmem hl
      · omega
      · exact hu
    subst hu
    rw [append_nil, readSlice_last hl hshort]
    exact ⟨rfl, nofun⟩

variable {q q' : Reader} {stream : Bytes} {done lines : List Bytes}

/-- Bytes that come into the buffer change nothing about the lines. -/
theorem Reader.Gives.read {n : Nat} (h : q.Gives stream done) (hread : q.read n = some q') :
    q'.Gives stream done := by
  simp only [Reader.read, Option.ite_none_left_eq_some, Bool.or_eq_true, not_or,
    decide_eq_true_eq, Bool.not_eq_true, Option.some.injEq] at hread
  obtain ⟨⟨⟨⟨⟨hlive, -⟩, -⟩, hn⟩, hroom⟩, rfl⟩ := hread
  simp only [Reader.Gives, hlive, Bool.false_eq_true, if_false, append_assoc,
    take_append_drop, length_append, length_take] at h ⊢
  exact ⟨by omega, h.2⟩

/-- A turn hands over its line, however the bytes came into the buffer. -/
theorem Reader.Gives.turn (h : q.Gives stream done) (hturn : q.turn = some (lines, q')) :
    q'.Gives stream (done ++ lines) := by
  simp only [Reader.turn, Option.ite_none_left_eq_some, Bool.or_eq_true, not_or, Bool.not_eq_true,
    Bool.not_eq_true', Bool.not_eq_false, Reader.ready, contains_iff_mem,
    decide_eq_true_eq, Option.some.injEq, Prod.mk.injEq] at hturn
  obtain ⟨⟨hlive, hready⟩, rfl, rfl⟩ := hturn
  simp only [Reader.Gives, hlive, Bool.false_eq_true, if_false] at h
  obtain ⟨hroom, turns, hturns, hlines⟩ := h
  obtain ⟨hslice, hshorter⟩ := readSlice_append hroom (or_assoc.mp hready)
  cases turns with
  | zero => cases hturns
  | succ turns =>
    simp only [readLinesFrom, hslice] at hlines
    rw [length_append] at hturns
    unfold Reader.Gives
    cases hend : (readSlice q.buffered).2.2 with
    | true => simpa [hend] using hlines.symm
    | false =>
      have hless := hshorter hend
      simp only [hend, Bool.false_eq_true, if_false, append_nil, append_assoc,
        length_append] at hlines ⊢
      exact ⟨by omega, turns, by omega, hlines⟩

/-! ## What is recorded -/

/-- The calls that hand over these lines. -/
def numbered (lines : List Bytes) : List (Bytes × Nat) :=
  lines.mapIdx fun i line => (line ++ [newline], i)

/-- What the callback has been called with for a stream. -/
def Run.callsOf (r : Run) (s : StreamType) : List (Bytes × Nat) :=
  (r.calls.filter (·.stream = s)).map fun c => (c.line, c.seq)

/-- These lines of a stream have been recorded. -/
structure Recorded (callback : Bool) (r : Run) (s : StreamType) (lines : List Bytes) :
    Prop where
  capture : r.captures s = lines.foldl Capture.recordLine ⟨[], 0⟩
  seq : r.seqs s = lines.length
  called : r.callsOf s <+: numbered lines
  all : callback = true → r.panicked = false → r.callsOf s = numbered lines

variable {callback panics : Bool} {r r' : Run} {s t : StreamType}

/-- A line is recorded for its own stream only. -/
theorem Recorded.recordLine (h : Recorded callback r t done) (line : Bytes) :
    Recorded callback (r.recordLine callback panics s line) t
      (done ++ if t = s then [line] else []) := by
  by_cases hts : t = s
  · subst hts
    have hnumbered : numbered (done ++ [line]) =
        numbered done ++ [(line ++ [newline], r.seqs t)] := by
      simp [numbered, mapIdx_append, h.seq]
    rw [if_pos rfl]
    refine ⟨by simp [Run.recordLine, h.capture], by simp [Run.recordLine, h.seq], ?_, ?_⟩
    · rw [hnumbered]
      simp only [Run.callsOf, Run.recordLine]
      split
      · rename_i hcall
        simp only [Bool.and_eq_true, Bool.not_eq_true'] at hcall
        rw [filter_append, map_append, ← h.all hcall.1 hcall.2]
        simp [Run.callsOf]
      · exact h.called.trans (prefix_append _ _)
    · intro hcallback hpanicked
      simp only [Run.recordLine, Bool.or_eq_false_iff] at hpanicked
      rw [hnumbered, ← h.all hcallback hpanicked.1]
      simp [Run.callsOf, Run.recordLine, hcallback, hpanicked.1]
  · have hcalls : (r.recordLine callback panics s line).callsOf t = r.callsOf t := by
      simp only [Run.callsOf, Run.recordLine]
      split
      · simp [Ne.symm hts]
      · rfl
    rw [if_neg hts, append_nil]
    refine ⟨by simp [Run.recordLine, hts, h.capture], by simp [Run.recordLine, hts, h.seq],
      hcalls ▸ h.called, fun hcallback hpanicked => hcalls ▸ h.all hcallback ?_⟩
    simp only [Run.recordLine, Bool.or_eq_false_iff] at hpanicked
    exact hpanicked.1

/-- Lines are recorded in their order. -/
theorem Recorded.recordLines (lines : List Bytes) (h : Recorded callback r t done) :
    Recorded callback (lines.foldl (Run.recordLine callback panics s) r) t
      (done ++ if t = s then lines else []) := by
  induction lines generalizing r done with
  | nil => simpa using h
  | cons line lines ih =>
    have hline : Recorded callback (r.recordLine callback panics s line) t _ := h.recordLine line
    have hlines := ih hline
    by_cases hts : t = s
    · simpa [hts] using hlines
    · simpa [hts] using hlines

/-- Recording leaves the readers alone. -/
theorem readers_recordLines (lines : List Bytes) :
    (lines.foldl (Run.recordLine callback panics s) r).readers = r.readers := by
  induction lines generalizing r with
  | nil => rfl
  | cons line lines ih => exact ih

/-- The run knows whether a call has panicked, and none was made after that. -/
structure Stops (r : Run) : Prop where
  flag : r.panicked = r.calls.any Call.panicked
  last : r.calls.Pairwise fun earlier _ => earlier.panicked = false

/-- A line is handed over only while no call has panicked. -/
theorem Stops.recordLine (h : Stops r) (line : Bytes) :
    Stops (r.recordLine callback panics s line) := by
  cases callback with
  | false => exact ⟨by simp [Run.recordLine, h.flag], by simpa [Run.recordLine] using h.last⟩
  | true =>
    cases hpanicked : r.panicked with
    | true =>
      have hflag := h.flag
      rw [hpanicked] at hflag
      exact ⟨by simpa [Run.recordLine, hpanicked] using hflag,
        by simpa [Run.recordLine, hpanicked] using h.last⟩
    | false =>
      have hnone : ∀ c ∈ r.calls, c.panicked = false := by
        simpa [h.flag] using hpanicked
      refine ⟨by simp [Run.recordLine, ← h.flag, hpanicked], ?_⟩
      simp only [Run.recordLine, hpanicked, Bool.not_false, Bool.and_self, if_true]
      exact pairwise_append.mpr ⟨h.last, pairwise_singleton _ _, fun c hc _ _ => hnone c hc⟩

/-- The same for some lines. -/
theorem Stops.recordLines (lines : List Bytes) (h : Stops r) :
    Stops (lines.foldl (Run.recordLine callback panics s) r) := by
  induction lines generalizing r with
  | nil => exact h
  | cons line lines ih => exact ih (h.recordLine line)

/-- Of each stream a beginning of its lines is recorded, and the reader gives the rest; no
call was made after one that panicked. -/
def Inv (callback : Bool) (streams : StreamType → Bytes) (r : Run) : Prop :=
  Stops r ∧ ∀ s, ∃ done, (r.readers s).Gives (streams s) done ∧ Recorded callback r s done

/-- One action keeps the invariant. -/
theorem Inv.step {streams : StreamType → Bytes} {a : Action} (h : Inv callback streams r)
    (hstep : r.step callback a = some r') : Inv callback streams r' := by
  cases a with
  | read s n =>
    obtain ⟨q, hq, rfl⟩ := Option.map_eq_some_iff.mp hstep
    refine ⟨⟨h.1.flag, h.1.last⟩, fun t => ?_⟩
    obtain ⟨done, hgives, hrec⟩ := h.2 t
    refine ⟨done, ?_, hrec.capture, hrec.seq, hrec.called, hrec.all⟩
    by_cases hts : t = s
    · subst hts
      simpa using hgives.read hq
    · simpa [hts] using hgives
  | turn s panics =>
    obtain ⟨⟨lines, q⟩, hq, rfl⟩ := Option.map_eq_some_iff.mp hstep
    refine ⟨.recordLines lines ⟨h.1.flag, h.1.last⟩, fun t => ?_⟩
    obtain ⟨done, hgives, hrec⟩ := h.2 t
    refine ⟨done ++ if t = s then lines else [], ?_,
      .recordLines lines ⟨hrec.capture, hrec.seq, hrec.called, hrec.all⟩⟩
    rw [readers_recordLines]
    by_cases hts : t = s
    · subst hts
      simpa using hgives.turn hq
    · simpa [hts] using hgives

/-- Every run keeps the invariant. -/
theorem inv_run {streams : StreamType → Bytes} (actions : List Action)
    (h : runReaders callback streams actions = some r) : Inv callback streams r := by
  have hinit : Inv callback streams (Run.init streams) := ⟨⟨rfl, List.Pairwise.nil⟩, fun s =>
    ⟨[], ⟨Nat.zero_le _, _, Nat.lt_succ_self _, rfl⟩, rfl, rfl, nil_prefix, fun _ _ => rfl⟩⟩
  unfold runReaders at h
  generalize Run.init streams = first at h hinit
  induction actions generalizing first with
  | nil => exact Option.some.inj h ▸ hinit
  | cons a actions ih =>
    obtain ⟨next, hnext, hrest⟩ := Option.bind_eq_some_iff.mp h
    exact ih next hrest (hinit.step hnext)

/-! ## The readers return -/

/-- What a reader still has to do: each byte is read and then handed over, and at last the
reader returns. -/
def Reader.left (q : Reader) : Nat :=
  2 * q.unread.length + q.buffered.length + if q.returned then 0 else 1

/-- A reader that has not returned can go on, and has less to do then. -/
theorem Reader.goes_on (hroom : q.buffered.length ≤ readerSize) (hlive : q.returned = false) :
    (∃ q', q.read 1 = some q' ∧ q'.left < q.left) ∨
      ∃ lines q', q.turn = some (lines, q') ∧ q'.left < q.left := by
  by_cases hready : q.ready = true
  · refine .inr ⟨_, _, by simp only [Reader.turn, hlive, hready]; rfl, ?_⟩
    simp only [Reader.ready, Bool.or_eq_true, contains_iff_mem, decide_eq_true_eq] at hready
    obtain ⟨-, hshorter⟩ := readSlice_append hroom (or_assoc.mp hready)
    simp only [Reader.left, hlive, Bool.false_eq_true, if_false]
    cases hend : (readSlice q.buffered).2.2 with
    | false =>
      have hless := hshorter hend
      simp only [Bool.false_eq_true, if_false]
      omega
    | true =>
      have hnone : (readSlice q.buffered).2.1.length ≤ q.buffered.length := by
        simp only [readSlice]
        split <;> simp
      simp only [if_true]
      omega
  · have hwait := hready
    simp only [Reader.ready, Bool.or_eq_true, decide_eq_true_eq, not_or, ← length_pos_iff] at hwait
    refine .inl ⟨{ q with buffered := q.buffered ++ q.unread.take 1, unread := q.unread.drop 1 },
      ?_, ?_⟩
    · rw [Reader.read, if_neg]
      simp only [hlive, Bool.not_eq_true] at hready ⊢
      simp [hready, ← length_pos_iff]
      omega
    · simp [Reader.left, hlive]
      omega

/-- The work of both readers. -/
def Run.left (r : Run) : Nat := (r.readers .stdout).left + (r.readers .stderr).left

/-- A run in which a reader has not returned can go on, with less to do. -/
theorem Inv.goes_on {streams : StreamType → Bytes} (h : Inv callback streams r)
    (hlive : (r.readers s).returned = false) :
    ∃ a r', r.step callback a = some r' ∧ r'.left < r.left := by
  obtain ⟨done, hgives, -⟩ := h.2 s
  have hroom : (r.readers s).buffered.length ≤ readerSize := by
    simp only [Reader.Gives, hlive, Bool.false_eq_true, if_false] at hgives
    exact hgives.1
  have hleft : ∀ q : Reader, q.left < (r.readers s).left →
      ({ r with readers := Function.update r.readers s q } : Run).left < r.left := by
    intro q hq
    cases s <;> simpa [Run.left] using hq
  rcases (r.readers s).goes_on hroom hlive with ⟨q, hread, hless⟩ | ⟨lines, q, hturn, hless⟩
  · exact ⟨.read s 1, _, by simp only [Run.step, hread]; rfl, hleft q hless⟩
  · refine ⟨.turn s false, _, by simp only [Run.step, hturn]; rfl, ?_⟩
    simpa only [Run.left, readers_recordLines] using hleft q hless

/-- Every run can go on until both readers have returned. -/
theorem exists_returned {streams : StreamType → Bytes} (actions : List Action)
    (h : runReaders callback streams actions = some r) :
    ∃ more r', runReaders callback streams (actions ++ more) = some r' ∧
      ∀ s, (r'.readers s).returned = true := by
  induction hleft : r.left using Nat.strong_induction_on generalizing r actions with
  | _ n ih =>
    by_cases hall : ∀ s, (r.readers s).returned = true
    · exact ⟨[], r, by simpa using h, hall⟩
    · push Not at hall
      obtain ⟨s, hs⟩ := hall
      obtain ⟨a, r', hstep, hless⟩ := (inv_run actions h).goes_on (Bool.eq_false_iff.mpr hs)
      have hrun : runReaders callback streams (actions ++ [a]) = some r' := by
        rw [runReaders, foldlM_append]
        rw [runReaders] at h
        simp [h, hstep]
      obtain ⟨more, last, hmore, hreturned⟩ := ih r'.left (hleft ▸ hless) _ hrun rfl
      exact ⟨a :: more, last, by simpa using hmore, hreturned⟩

/-- Whatever the streams hold and however the readers take turns: a stream's lines are
those it delivers; at any time the first of them have been recorded, all of them once its
reader has returned, and handed to the callback in order and numbered from zero, unless a
call panicked; the text that is rendered of them is the longest beginning that fits, with
the marker exactly if that is not all; no call follows one that panicked; and the run can
go on until both readers have returned. -/
theorem output_of_run (callback : Bool) (streams : StreamType → Bytes)
    (actions : List Action) (r : Run) (h : runReaders callback streams actions = some r) :
    (∀ s, Delivered (streams s) (readLines (streams s)) ∧
      r.callsOf s <+: numbered (readLines (streams s)) ∧
      ((r.readers s).returned = true →
        (r.captures s).render = stdout (streams s) ∧
        (callback = true → (∀ c ∈ r.calls, c.panicked = false) →
          r.callsOf s = numbered (readLines (streams s)))) ∧
      ∃ kept dropped, readLines (streams s) = kept ++ dropped ∧
        stdout (streams s) =
          unlines newline kept ++ (if dropped = [] then [] else truncationMarker) ∧
        (unlines newline kept).length ≤ maxOutputBytes ∧
        ∀ more, more <+: readLines (streams s) →
          (unlines newline more).length ≤ maxOutputBytes → more <+: kept) ∧
    (r.calls.Pairwise fun earlier _ => earlier.panicked = false) ∧
    ∃ more r', runReaders callback streams (actions ++ more) = some r' ∧
      ∀ s, (r'.readers s).returned = true := by
  obtain ⟨hstops, hinv⟩ := inv_run actions h
  refine ⟨fun s => ?_, hstops.last, exists_returned actions h⟩
  obtain ⟨done, hgives, hrec⟩ := hinv s
  refine ⟨delivered_readLines _, ?_, ?_, ?_⟩
  · obtain ⟨rest, hrest⟩ := hgives.isPrefix
    refine hrec.called.trans ?_
    rw [← hrest, numbered, numbered, mapIdx_append]
    exact prefix_append _ _
  · intro hreturned
    have hdone : done = readLines (streams s) := by simpa [Reader.Gives, hreturned] using hgives
    subst hdone
    refine ⟨by rw [hrec.capture, stdout], fun hcallback hnone => hrec.all hcallback ?_⟩
    simpa [hstops.flag] using hnone
  · obtain ⟨kept, dropped, hsplit, hkept, hfull, hstdout⟩ := stdout_eq (streams s)
    refine ⟨kept, dropped, hsplit, hstdout, hkept, fun more hmore hfits => ?_⟩
    by_contra hlonger
    -- A longer beginning also has the first line that was dropped.
    have hcomparable := prefix_or_prefix_of_prefix hmore ⟨dropped, hsplit.symm⟩
    obtain ⟨_ | ⟨l, x⟩, rfl⟩ := hcomparable.resolve_left hlonger
    · exact hlonger (by simp)
    · have hhead : l ∈ dropped.head? := by
        rw [hsplit, prefix_append_right_inj] at hmore
        obtain ⟨y, rfl⟩ := hmore
        rfl
      have hover := hfull l hhead
      simp only [unlines_append, unlines_cons, unlines_nil, length_append, length_cons,
        length_nil] at hover hfits
      omega

theorem output_of_short_run :
    ∃ r, runReaders true (fun _ => [97, newline, 98])
        [.read .stdout 3, .turn .stdout false, .turn .stdout false] = some r ∧
      r.callsOf .stdout = [([97, newline], 0), ([98, newline], 1)] := by
  have hrun : ((runReaders true (fun _ => [97, newline, 98])
      [.read .stdout 3, .turn .stdout false, .turn .stdout false]).any fun r =>
        (r.readers .stdout).returned && r.calls.all fun c => !c.panicked) = true := by
    decide
  obtain ⟨r, hr, hstate⟩ := (Option.any_eq_true _ _).mp hrun
  simp only [Bool.and_eq_true, all_eq_true, Bool.not_eq_true'] at hstate
  have hcalls := (((output_of_run true _ _ r hr).1 .stdout).2.2.1 hstate.1).2 rfl hstate.2
  exact ⟨r, hr, hcalls.trans (by decide)⟩

end PowerManage.Exec
