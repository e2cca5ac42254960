import Mathlib.Data.List.TakeDrop
import Mathlib.Data.List.TakeWhile
import PowerManage.Text.Lines
import PowerManage.Text.Utf8

/-!
# Capture of a command's output

The runner reads each output stream of a child process line by line and keeps at
most `MaxOutputBytes` of it.  A line that would exceed the limit is dropped, and a
marker is added at the end; a line without an end is ended; an overlong line is cut.

Main results:

- `delivered_readLines`: the lines that the reader hands over.
- `stdout_eq`: what is rendered, by lines.
- `stdout_of_short`, `stdout_of_long`: what is rendered, by bytes.
- `stdout_eq_iff`: the outputs that are rendered unchanged.
-/

namespace PowerManage.Exec

open List Lines

def newline : UInt8 := 10

def maxOutputBytes : Nat := 1048576

def maxLineBytes : Nat := 4 * maxOutputBytes

/-- The size of the reader's buffer. -/
def readerSize : Nat := 64 * 1024

/-- `truncationMarker`: a newline and `[output truncated]`. -/
def truncationMarker : Bytes :=
  [10, 91, 111, 117, 116, 112, 117, 116, 32, 116, 114, 117, 110, 99, 97, 116, 101, 100, 93]

/-! ## Reading -/

/-- `bufio.Reader.ReadSlice` up to a newline: what it returns, what is left, and
whether the stream has ended. -/
def readSlice (stream : Bytes) : Bytes × Bytes × Bool :=
  let window := stream.take readerSize
  let line := window.takeWhile (· ≠ newline)
  match window.dropWhile (· ≠ newline) with
  | _ :: _ => (line ++ [newline], stream.drop (line.length + 1), false)
  | [] => (window, stream.drop readerSize, decide (window.length < readerSize))

/-- One turn of the loop of `readLines` on a chunk: the lines that are recorded and
the bytes that wait for the end of theirs. -/
def deliver (chunk pending : Bytes) : List Bytes × Bytes :=
  if chunk = [] then ([], pending)
  else if chunk.getLast? = some newline then ([pending ++ chunk.dropLast], [])
  else if maxLineBytes ≤ (pending ++ chunk).length then ([pending ++ chunk], [])
  else ([], pending ++ chunk)

/-- The loop of `readLines`.  Each turn consumes a byte or ends, so the length of the
stream bounds the turns. -/
def readLinesFrom : Nat → Bytes → Bytes → List Bytes
  | 0, _, _ => []
  | turns + 1, stream, pending =>
    let slice := readSlice stream
    let step := deliver slice.1 pending
    step.1 ++
      if slice.2.2 then (if step.2 = [] then [] else [step.2])
      else readLinesFrom turns slice.2.1 step.2

/-- `readLines`: the lines that are handed to `recordLine`. -/
def readLines (stream : Bytes) : List Bytes :=
  readLinesFrom (stream.length + 1) stream []

/-! ## Recording -/

/-- The capture state of one stream. -/
structure Capture where
  buffer : Bytes
  rawBytes : Nat
  deriving DecidableEq, Repr

def Capture.recordLine (c : Capture) (line : Bytes) : Capture where
  rawBytes := c.rawBytes + (line.length + 1)
  buffer :=
    if c.rawBytes + (line.length + 1) ≤ maxOutputBytes then c.buffer ++ (line ++ [newline])
    else c.buffer

/-- The text of a stream in the result. -/
def Capture.render (c : Capture) : Bytes :=
  if maxOutputBytes < c.rawBytes then c.buffer ++ truncationMarker else c.buffer

/-- `Result.Stdout` of a command that printed `stream`. -/
def stdout (stream : Bytes) : Bytes :=
  ((readLines stream).foldl Capture.recordLine ⟨[], 0⟩).render

/-! ## The lines of a stream -/

/-- How a stream is handed over: lines by their ends, a last line without one, and pieces
of overlong lines. -/
inductive Delivered : Bytes → List Bytes → Prop where
  | done : Delivered [] []
  | line {l c : Bytes} {ls : List Bytes} (hl : newline ∉ l)
      (hshort : l.length < maxLineBytes) (hc : Delivered c ls) :
      Delivered (l ++ newline :: c) (l :: ls)
  | last {l : Bytes} (hl : newline ∉ l) (hshort : l.length < maxLineBytes) (hne : l ≠ []) :
      Delivered l [l]
  | cut {l c : Bytes} {ls : List Bytes} (hl : newline ∉ l)
      (hlong : l.length = maxLineBytes) (hc : Delivered c ls) : Delivered (l ++ c) (l :: ls)

section slices

variable {l rest : Bytes} (hl : newline ∉ l)
include hl

theorem readSlice_line (hshort : l.length < readerSize) :
    readSlice (l ++ newline :: rest) = (l ++ [newline], rest, false) := by
  obtain ⟨n, hn⟩ := Nat.exists_eq_add_of_lt hshort
  have hline := forall_ne_of_not_mem hl
  have hwindow : (l ++ newline :: rest).take readerSize = l ++ newline :: rest.take n := by
    rw [hn, Nat.add_assoc, take_length_add_append, take_succ_cons]
  have hdrop : (l ++ newline :: rest).drop (l.length + 1) = rest := by
    rw [drop_length_add_append]
    rfl
  simp only [readSlice, hwindow, takeWhile_append_of_pos hline, dropWhile_append_of_pos hline]
  simp [hdrop]

/-- A window without the end of a line is handed over whole. -/
theorem readSlice_window {stream : Bytes} (hwindow : stream.take readerSize = l) :
    readSlice stream = (l, stream.drop readerSize, decide (l.length < readerSize)) := by
  have hline := forall_ne_of_not_mem hl
  simp only [readSlice, hwindow, dropWhile_eq_nil_iff.mpr hline]

theorem readSlice_full (hfull : l.length = readerSize) :
    readSlice (l ++ rest) = (l, rest, false) := by
  rw [readSlice_window hl (by rw [← hfull, take_left]), ← hfull, drop_left]
  simp

theorem readSlice_last (hshort : l.length < readerSize) : readSlice l = (l, [], true) := by
  rw [readSlice_window hl (take_of_length_le hshort.le),
    drop_of_length_le hshort.le, decide_eq_true hshort]

end slices

/-- A stream goes on with a line, with a full window, or is at its end. -/
theorem stream_cases (stream : Bytes) :
    (∃ l rest, newline ∉ l ∧ l.length < readerSize ∧ stream = l ++ newline :: rest) ∨
    (∃ l rest, newline ∉ l ∧ l.length = readerSize ∧ stream = l ++ rest) ∨
    newline ∉ stream ∧ stream.length < readerSize := by
  have hwindow := take_append_drop readerSize stream
  by_cases hmem : newline ∈ stream.take readerSize
  · obtain ⟨l, more, hsplit, hl⟩ := eq_append_cons_of_mem hmem
    have hlength := congrArg length hsplit
    simp only [length_take, length_append, length_cons] at hlength
    rw [hsplit, append_assoc] at hwindow
    exact .inl ⟨l, _, hl, by omega, hwindow.symm⟩
  · by_cases hfull : readerSize ≤ stream.length
    · exact .inr (.inl ⟨_, _, hmem, length_take_of_le hfull, hwindow.symm⟩)
    · rw [take_of_length_le (by omega)] at hmem
      exact .inr (.inr ⟨hmem, by omega⟩)

/-- With bytes waiting, the reader delivers what waits before the stream.  Full windows
wait, so that an overlong line is cut at the limit exactly. -/
theorem delivered_readLinesFrom (turns : Nat) :
    ∀ (stream pending : Bytes) (windows : Nat), stream.length < turns → newline ∉ pending →
      pending.length = windows * readerSize → pending.length < maxLineBytes →
      Delivered (pending ++ stream) (readLinesFrom turns stream pending) := by
  have hlimit : maxLineBytes = 64 * readerSize := rfl
  have hsize : 0 < readerSize := by decide
  induction turns with
  | zero => intro stream pending windows hturns; omega
  | succ turns ih =>
    intro stream pending windows hturns hpending hwindows hroom
    have hnext : windows + 1 ≤ 64 := by
      rw [hlimit, hwindows] at hroom
      exact Nat.lt_of_mul_lt_mul_right hroom
    have hfits : pending.length + readerSize ≤ maxLineBytes := by
      rw [hlimit, hwindows, ← Nat.succ_mul]
      exact Nat.mul_le_mul_right _ hnext
    rcases stream_cases stream with ⟨l, rest, hl, hshort, rfl⟩ | ⟨l, rest, hl, hfull, rfl⟩ |
      ⟨hl, hshort⟩
    · -- A line ends: what waited belongs to it.
      simp only [length_append, length_cons] at hturns
      have hrest := ih rest [] 0 (by omega) (by simp) (by simp) (by decide)
      have hdeliver : deliver (l ++ [newline]) pending = ([pending ++ l], []) := by
        simp [deliver]
      simp only [readLinesFrom, readSlice_line hl hshort, hdeliver, Bool.false_eq_true, if_false]
      rw [← append_assoc]
      refine .line (by simp [hpending, hl]) ?_ hrest
      rw [length_append]
      omega
    · rw [length_append] at hturns
      have hne : l ≠ [] := length_pos_iff.mp (by omega)
      have hlast : l.getLast? ≠ some newline := fun h => hl (mem_of_getLast? h)
      have hfree : newline ∉ pending ++ l := by simp [hpending, hl]
      rw [← append_assoc]
      by_cases hlong : maxLineBytes ≤ (pending ++ l).length
      · have hdeliver : deliver l pending = ([pending ++ l], []) := by
          simp only [deliver, hne, hlast, hlong, if_true, if_false]
        have hrest := ih rest [] 0 (by omega) (by simp) (by simp) (by decide)
        simp only [readLinesFrom, readSlice_full hl hfull, hdeliver, Bool.false_eq_true, if_false]
        rw [length_append] at hlong
        exact .cut hfree (by rw [length_append]; omega) hrest
      · have hdeliver : deliver l pending = ([], pending ++ l) := by
          simp only [deliver, hne, hlast, hlong, if_false]
        simp only [readLinesFrom, readSlice_full hl hfull, hdeliver, Bool.false_eq_true, if_false]
        exact ih rest (pending ++ l) (windows + 1) (by omega) hfree
          (by rw [length_append, hwindows, hfull, Nat.succ_mul]) (by omega)
    · have hlast : stream.getLast? ≠ some newline := fun h => hl (mem_of_getLast? h)
      have hshort' : (pending ++ stream).length < maxLineBytes := by
        rw [length_append]
        omega
      have hdeliver : deliver stream pending = ([], pending ++ stream) := by
        by_cases hempty : stream = []
        · simp [deliver, hempty]
        · simp only [deliver, hempty, hlast, Nat.not_le.mpr hshort', if_false]
      simp only [readLinesFrom, readSlice_last hl hshort, hdeliver, if_true, nil_append]
      split
      · rename_i hnil
        rw [hnil]
        exact .done
      · rename_i hne
        exact .last (by simp [hpending, hl]) hshort' hne

/-- The lines of a stream. -/
theorem delivered_readLines (stream : Bytes) : Delivered stream (readLines stream) := by
  have := delivered_readLinesFrom (stream.length + 1) stream [] 0 (by omega) (by simp) (by simp)
    (by decide)
  rwa [nil_append] at this

/-! ## What is rendered -/

/-- The text is empty or its last line has an end. -/
def Ended (bytes : Bytes) : Prop :=
  bytes = [] ∨ bytes.getLast? = some newline

instance (bytes : Bytes) : Decidable (Ended bytes) :=
  inferInstanceAs (Decidable (_ ∨ _))

/-- The text with its last line ended. -/
def ended (bytes : Bytes) : Bytes :=
  if Ended bytes then bytes else bytes ++ [newline]

theorem ended_of_Ended {bytes : Bytes} (h : Ended bytes) : ended bytes = bytes :=
  if_pos h

theorem ended_line (l c : Bytes) : ended (l ++ newline :: c) = l ++ newline :: ended c := by
  have hiff : Ended (l ++ newline :: c) ↔ Ended c := by
    cases c with
    | nil => simp [Ended]
    | cons b c =>
      have hlast : (l ++ newline :: b :: c).getLast? = (b :: c).getLast? := by
        simp [getLast?_append, getLast?_cons]
      simp [Ended, hlast]
  unfold ended
  by_cases hc : Ended c
  · rw [if_pos (hiff.mpr hc), if_pos hc]
  · rw [if_neg (fun h => hc (hiff.mp h)), if_neg hc]
    simp

theorem length_le_ended (bytes : Bytes) : bytes.length ≤ (ended bytes).length := by
  unfold ended
  split <;> simp

variable {c l : Bytes} {ls : List Bytes}

theorem ended_last (hl : newline ∉ l) (hne : l ≠ []) : ended l = l ++ [newline] := by
  unfold ended
  rw [if_neg]
  rintro (h | h)
  · exact hne h
  · exact hl (mem_of_getLast? h)

/-- Whole lines are kept up to the first that does not fit; all lines are counted. -/
theorem foldl_recordLine (ls : List Bytes) (s : Capture) :
    (ls.foldl Capture.recordLine s).rawBytes = s.rawBytes + (unlines newline ls).length ∧
    ∃ kept dropped, ls = kept ++ dropped ∧
      (ls.foldl Capture.recordLine s).buffer = s.buffer ++ unlines newline kept ∧
      (kept = [] ∨ s.rawBytes + (unlines newline kept).length ≤ maxOutputBytes) ∧
      ∀ l ∈ dropped.head?,
        maxOutputBytes < s.rawBytes + (unlines newline (kept ++ [l])).length := by
  induction ls generalizing s with
  | nil => exact ⟨rfl, [], [], rfl, by simp, .inl rfl, nofun⟩
  | cons l ls ih =>
    obtain ⟨hraw, kept, dropped, hsplit, hbuffer, hroom, hfull⟩ := ih (s.recordLine l)
    simp only [Capture.recordLine] at hraw hbuffer hroom hfull
    simp only [foldl_cons, Capture.recordLine, hraw, unlines_cons, length_append, length_cons]
    refine ⟨by omega, ?_⟩
    by_cases hline : s.rawBytes + (l.length + 1) ≤ maxOutputBytes
    · refine ⟨l :: kept, dropped, by rw [hsplit]; rfl, by simpa [hline] using hbuffer, .inr ?_, ?_⟩
      · rcases hroom with rfl | hroom
        · simpa using hline
        · simp only [unlines_cons, length_append, length_cons]
          omega
      · intro next hnext
        have := hfull next hnext
        simp only [cons_append, unlines_cons, length_append, length_cons] at this ⊢
        omega
    · -- The dropped line is counted, so nothing after it fits.
      have hnone : kept = [] := by
        rcases hroom with hnone | hroom
        · exact hnone
        · omega
      refine ⟨[], l :: ls, rfl, by simpa [hline, hnone] using hbuffer, .inl rfl, ?_⟩
      intro next hnext
      cases hnext
      simpa using hline

/-- The captured text: the longest beginning of the lines that fits, and the marker if that
is not all of them. -/
theorem stdout_eq (c : Bytes) :
    ∃ kept dropped, readLines c = kept ++ dropped ∧
      (unlines newline kept).length ≤ maxOutputBytes ∧
      (∀ l ∈ dropped.head?, maxOutputBytes < (unlines newline (kept ++ [l])).length) ∧
      stdout c = unlines newline kept ++ if dropped = [] then [] else truncationMarker := by
  obtain ⟨hraw, kept, dropped, hsplit, hbuffer, hroom, hfull⟩ :=
    foldl_recordLine (readLines c) ⟨[], 0⟩
  simp only [Nat.zero_add, nil_append] at hraw hbuffer hroom hfull
  have hkept : (unlines newline kept).length ≤ maxOutputBytes := by
    rcases hroom with rfl | hroom
    · simp
    · exact hroom
  refine ⟨kept, dropped, hsplit, hkept, hfull, ?_⟩
  rw [stdout, Capture.render, hraw, hbuffer, hsplit]
  cases dropped with
  | nil => simp [Nat.not_lt.mpr hkept]
  | cons l dropped =>
    have hover := hfull l rfl
    simp only [unlines_append, unlines_cons, unlines_nil, length_append, length_cons,
      length_nil] at hover ⊢
    rw [if_pos (by omega), if_neg (cons_ne_nil l dropped)]

/-- Lines that fit are as the stream has them, its last line ended. -/
theorem Delivered.split {kept dropped : List Bytes} (h : Delivered c (kept ++ dropped))
    (hfits : (unlines newline kept).length ≤ maxOutputBytes) :
    ∃ rest, ended c = unlines newline kept ++ ended rest ∧ Delivered rest dropped ∧
      (dropped ≠ [] → c = unlines newline kept ++ rest) := by
  induction kept generalizing c with
  | nil => exact ⟨c, rfl, h, fun _ => rfl⟩
  | cons l kept ih =>
    simp only [unlines_cons, length_append, length_cons] at hfits
    generalize hls : l :: kept ++ dropped = ls at h
    cases h with
    | done => cases hls
    | @line l c ls hl hshort hc =>
      cases hls
      obtain ⟨rest, hended, hrest, hc⟩ := ih hc (by omega)
      refine ⟨rest, by rw [ended_line, hended]; simp, hrest, fun hne => ?_⟩
      rw [hc hne]
      simp
    | last hl hshort hne =>
      obtain ⟨rfl, rfl, rfl⟩ : l = c ∧ kept = [] ∧ dropped = [] := by simpa using hls
      exact ⟨[], by simp [ended_last hl hne, ended_of_Ended (.inl rfl)], .done, nofun⟩
    | cut hl hlong hc =>
      cases hls
      unfold maxLineBytes at hlong
      omega

theorem Delivered.head_length (h : Delivered c (l :: ls)) :
    l.length < (ended c).length ∨ maxOutputBytes < (ended c).length := by
  cases h with
  | line hl hshort hc =>
    rw [ended_line, length_append, length_cons]
    omega
  | last hl hshort hne =>
    left
    rw [ended_last hl hne, length_append]
    exact Nat.lt_succ_self _
  | @cut _ rest _ hl hlong hc =>
    right
    have hle := length_le_ended (l ++ rest)
    rw [length_append, hlong] at hle
    exact Nat.lt_of_lt_of_le (by decide) (Nat.le_of_add_right_le hle)

/-- Output within the limit is rendered with its last line ended. -/
theorem stdout_of_short (h : (ended c).length ≤ maxOutputBytes) : stdout c = ended c := by
  obtain ⟨kept, dropped, hsplit, hkept, hfull, hstdout⟩ := stdout_eq c
  obtain ⟨rest, hended, hrest, -⟩ := (hsplit ▸ delivered_readLines c).split hkept
  cases dropped with
  | nil =>
    cases hrest
    rw [hstdout, hended]
    rfl
  | cons l dropped =>
    have hover := hfull l rfl
    have hhead := hrest.head_length
    rw [hended, length_append] at h
    simp only [unlines_append, unlines_cons, unlines_nil, length_append,
      length_cons, length_nil] at hover
    omega

/-- Output over the limit is rendered as its first lines and the marker. -/
theorem stdout_of_long (h : maxOutputBytes < (ended c).length) :
    ∃ kept rest l ls, c = kept ++ rest ∧ Ended kept ∧ Delivered rest (l :: ls) ∧
      kept.length ≤ maxOutputBytes ∧ maxOutputBytes < kept.length + (l.length + 1) ∧
      stdout c = kept ++ truncationMarker := by
  obtain ⟨kept, dropped, hsplit, hkept, hfull, hstdout⟩ := stdout_eq c
  obtain ⟨rest, hended, hrest, hc⟩ := (hsplit ▸ delivered_readLines c).split hkept
  cases dropped with
  | nil =>
    cases hrest
    rw [hended, length_append] at h
    exact absurd h (Nat.not_lt.mpr hkept)
  | cons l dropped =>
    have hlines : Ended (unlines newline kept) := by
      rcases kept.eq_nil_or_concat' with rfl | ⟨kept, last, rfl⟩
      · exact .inl rfl
      · right
        simp [getLast?_append]
    exact ⟨_, rest, l, dropped, hc (cons_ne_nil _ _), hlines, hrest, hkept,
      by simpa using hfull l rfl, hstdout⟩

/-- A delivered piece comes first and holds no end of a line. -/
theorem Delivered.head_first (h : Delivered c (l :: ls)) : newline ∉ l ∧ ∃ rest, c = l ++ rest := by
  cases h with
  | line hl _ hrest => exact ⟨hl, _, rfl⟩
  | last hl _ hne => exact ⟨hl, [], (append_nil _).symm⟩
  | cut hl hlong hrest => exact ⟨hl, _, rfl⟩

/-- A piece is shorter than an ended text that the stream starts with. -/
theorem Delivered.head_shorter {x : Bytes} (h : Delivered (x ++ c) (l :: ls))
    (hx : x.getLast? = some newline) : l.length < x.length := by
  rcases h.head_first with ⟨hl, rest, hsplit⟩
  by_contra hlong
  have hstarts : x <+: l :=
    prefix_of_prefix_length_le (prefix_append x c) ⟨rest, hsplit.symm⟩ (by omega)
  exact hl (hstarts.subset (mem_of_getLast? hx))

/-- The texts that are rendered as they are: those within the limit whose last line has an
end, and those that themselves look cut off at the limit. -/
def Capturable (bytes : Bytes) : Prop :=
  (Ended bytes ∧ bytes.length ≤ maxOutputBytes) ∨
    ∃ kept, Ended kept ∧ kept.length = maxOutputBytes ∧ bytes = kept ++ truncationMarker

/-- Output is rendered unchanged just when it is capturable. -/
theorem stdout_eq_iff (c : Bytes) : stdout c = c ↔ Capturable c := by
  by_cases hlong : maxOutputBytes < (ended c).length
  · rcases stdout_of_long hlong with
      ⟨kept, rest, l, ls, hsplit, hended, hdelivered, hroom, hfull, hstdout⟩
    have hshorter : ¬ (Ended c ∧ c.length ≤ maxOutputBytes) := by
      rintro ⟨hc, hlength⟩
      rw [ended_of_Ended hc] at hlong
      omega
    constructor
    · intro hsame
      have hrest : rest = truncationMarker := by
        rw [hstdout, hsplit] at hsame
        exact (append_cancel_left hsame).symm
      -- The line that did not fit is the empty one at the start of the marker.
      have hempty : l = [] := by
        rw [hrest] at hdelivered
        have hshorter := Delivered.head_shorter (x := [newline]) hdelivered rfl
        simpa using hshorter
      rw [hempty, length_nil] at hfull
      exact .inr ⟨kept, hended, by omega, by rw [hsplit, hrest]⟩
    · rintro (hshort | ⟨kept', hended', hlength, hc⟩)
      · exact absurd hshort hshorter
      · -- Nothing of the text before the marker is dropped: the dropped line would end in it.
        have hstarts : kept <+: kept' :=
          prefix_of_prefix_length_le ⟨rest, hsplit.symm⟩ ⟨truncationMarker, hc.symm⟩
            (by omega)
        rcases hstarts with ⟨x, hx⟩
        have hnil : x = [] := by
          by_contra hne
          have hrest : rest = x ++ truncationMarker := by
            rw [hsplit, ← hx, append_assoc] at hc
            exact append_cancel_left hc
          have hlast : x.getLast? = some newline := by
            rcases hended' with hempty | hlast
            · rw [← hx] at hempty
              exact absurd (append_eq_nil_iff.mp hempty).2 hne
            · rw [← hx, getLast?_append, getLast?_eq_some_getLast hne] at hlast
              rw [getLast?_eq_some_getLast hne]
              exact hlast
          rw [hrest] at hdelivered
          have hshort := hdelivered.head_shorter hlast
          rw [← hx, length_append] at hlength
          omega
        rw [hnil, append_nil] at hx
        rw [hstdout, hx, hc]
  · rw [stdout_of_short (by omega)]
    constructor
    · intro hsame
      left
      have hEnded : Ended c := by
        by_contra hopen
        rw [ended, if_neg hopen] at hsame
        have := congrArg length hsame
        simp at this
      rw [ended_of_Ended hEnded] at hlong
      exact ⟨hEnded, by omega⟩
    · rintro (⟨hc, -⟩ | ⟨kept, hended, hlength, hc⟩)
      · exact ended_of_Ended hc
      · exfalso
        have hle := length_le_ended c
        have hc' : c.length = maxOutputBytes + truncationMarker.length := by
          rw [hc, length_append, hlength]
        have hpositive : 0 < truncationMarker.length := by decide
        omega

end PowerManage.Exec
