import PowerManage.Exec.Runner
import PowerManage.Fsafe.Protected

/-!
# Directory listings on an escalated backend

`Manager.ReadDir` runs `find`, which prints one record for each entry, and reads
the records back from the captured output by their ends.  A name may hold the byte that
ends a record.

Main results:

- `parseRecords_printed`: what the records of a directory are read as.
- `readDir_exact_iff`: the directories whose listing is an error or exact.
-/

namespace PowerManage.Fsafe

open List Exec FileSystem Paths Relational
open Lines (mem_of_mem_splitOn)
open Utf8 (textBytes)

/-! ## Model -/

structure DirEntry where
  name : Bytes
  isDir : Bool
  deriving DecidableEq, Repr

def isENOENTStderr (stderr : Bytes) : Bool :=
  (textBytes "No such file or directory").isSuffixOf (trimSpace stderr)

/-- `cmdErr`: the text of a `CommandError`. -/
def cmdErr (name : String) (res : Result) : FsError where
  sentinel := .other
  message :=
    let text := textBytes name ++ textBytes ": exit " ++ textBytes (toString res.exitCode)
    if trimSpace res.stderr = [] then text else text ++ textBytes ": " ++ trimSpace res.stderr

/-- An error of the runner. -/
def runErr : RunError → FsError
  | .escalationDenied detail => ⟨.other, textBytes "escalation requires a password: " ++ detail⟩
  | .failed e => ⟨.other, e⟩

/-- The loop of `ReadDir` over the records. -/
def parseRecords (path : Bytes) : List Bytes → Except FsError (List DirEntry)
  | [] => .ok []
  | [] :: rest => parseRecords path rest
  | (t :: s :: name) :: rest =>
    if s ≠ slash then
      .error ⟨.other, textBytes "read dir " ++ path ++
        textBytes ": unparseable find output record " ++ quoted (t :: s :: name)⟩
    else do
      let out ← parseRecords path rest
      return ⟨name, t == 100⟩ :: out
  | short :: _ =>
    .error ⟨.other, textBytes "read dir " ++ path ++
      textBytes ": unparseable find output record " ++ quoted short⟩

/-- `Manager.ReadDir` on an escalated backend, by what becomes of `find`. -/
def readDir (backend : Backend) (t : Tree) (path : Bytes) (outcome : Outcome) :
    Except FsError (List DirEntry) := do
  let _ ← resolveAndValidatePath t path
  let res ← (run backend outcome).mapError runErr
  if res.exitCode ≠ 0 then
    if isENOENTStderr res.stderr then
      .error ⟨.notExist, textBytes "read dir " ++ path ++ textBytes ": file does not exist"⟩
    else .error (cmdErr "find" res)
  else parseRecords path (res.stdout.splitOn newline)

/-! ## What `find` prints -/

/-- The types that `find` tells apart. -/
inductive EntryType where
  | block
  | character
  | directory
  | pipe
  | file
  | link
  | socket
  | door
  | unknown
  deriving DecidableEq, Repr

/-- The letter of `%y`. -/
def EntryType.letter : EntryType → UInt8
  | block => 98
  | character => 99
  | directory => 100
  | pipe => 112
  | file => 102
  | link => 108
  | socket => 115
  | door => 68
  | unknown => 85

/-- An entry of a directory; its name is any bytes but slash and NUL. -/
structure Listed where
  name : Bytes
  type : EntryType
  named : name ≠ [] ∧ slash ∉ name ∧ 0 ∉ name

/-- The entry as a listing should have it. -/
def Listed.dirEntry (e : Listed) : DirEntry where
  name := e.name
  isDir := e.type == .directory

/-- The record of an entry without its end: `%y/%f`. -/
def Listed.record (e : Listed) : Bytes :=
  e.type.letter :: slash :: e.name

/-- The output of `find` for a directory. -/
def printed (entries : List Listed) : Bytes :=
  entries.flatMap fun e => e.record ++ [newline]

/-- `find` prints the directory, if it succeeds. -/
def Prints (entries : List Listed) : Outcome → Prop
  | .failed _ => True
  | .exited exitCode out _ => exitCode = 0 → out = printed entries

/-- A listing has just the entries of the directory. -/
def Exact (entries : List Listed) (out : List DirEntry) : Prop :=
  ∀ e, e ∈ out ↔ ∃ listed ∈ entries, e = listed.dirEntry

/-! ## Reading the records back -/

theorem letter_eq_directory (type : EntryType) : (type.letter == 100) = (type == .directory) := by
  cases type <;> rfl

theorem letter_ne_newline (type : EntryType) : type.letter ≠ newline := by
  cases type <;> decide

/-- The name up to its first newline. -/
def stem (name : Bytes) : Bytes :=
  (name.splitOn newline).headD []

/-- Only newlines follow the first one. -/
def OnlyTrailing (name : Bytes) : Prop :=
  ∀ part ∈ (name.splitOn newline).tail, part = []

instance (name : Bytes) : Decidable (OnlyTrailing name) :=
  inferInstanceAs (Decidable (∀ _ ∈ _, _))

theorem newline_not_mem_stem (name : Bytes) : newline ∉ stem name := by
  intro hmem
  cases hsplit : name.splitOn newline with
  | nil => exact splitOn_ne_nil _ _ hsplit
  | cons first rest =>
    rw [stem, hsplit, headD_cons] at hmem
    have hin : first ∈ name.splitOn newline := by rw [hsplit]; exact mem_cons_self
    exact (mem_of_mem_splitOn hin hmem).2 rfl

theorem stem_of_not_mem {name : Bytes} (h : newline ∉ name) : stem name = name := by
  rw [stem, splitOn_eq_singleton h, headD_cons]

/-- The lines of a record: the first keeps the type, the others are parts of the name. -/
theorem splitOn_record (e : Listed) :
    e.record.splitOn newline =
      (e.type.letter :: slash :: stem e.name) :: (e.name.splitOn newline).tail := by
  have hletter := letter_ne_newline e.type
  cases hsplit : e.name.splitOn newline with
  | nil => exact absurd hsplit (splitOn_ne_nil _ _)
  | cons first rest =>
    have hstem : stem e.name = first := by rw [stem, hsplit, headD_cons]
    rw [Listed.record, splitOn_cons_eq_if_modifyHead, splitOn_cons_eq_if_modifyHead, hsplit, hstem]
    simp [hletter, show ¬ slash = newline by decide]

theorem splitOn_printed (entries : List Listed) :
    (printed entries).splitOn newline =
      entries.flatMap (fun e => e.record.splitOn newline) ++ [[]] := by
  induction entries with
  | nil => simp [printed]
  | cons e entries ih =>
    have hfirst : printed (e :: entries) = e.record ++ newline :: printed entries := by
      simp [printed]
    rw [hfirst, splitOn_append_cons_self, ih, flatMap_cons, append_assoc]

variable {path : Bytes} {out : List DirEntry}

/-- A line without a slash is passed over if it is empty, and ends the listing if not. -/
theorem parseRecords_append {parts : List Bytes} (rest : List Bytes)
    (h : ∀ part ∈ parts, slash ∉ part) :
    parseRecords path (parts ++ rest) = .ok out ↔
      (∀ part ∈ parts, part = []) ∧ parseRecords path rest = .ok out := by
  induction parts with
  | nil => simp
  | cons part parts ih =>
    have htail := ih (forall_mem_cons.mp h).2
    have hpart := h part mem_cons_self
    rw [cons_append, forall_mem_cons]
    match part, hpart with
    | [], _ => simp [parseRecords, htail]
    | [_], _ => simp [parseRecords]
    | _ :: s :: _, hpart =>
      have hs : s ≠ slash := fun hs => hpart (by simp [hs])
      simp [parseRecords, hs]

/-- A record of the right form is an entry. -/
theorem parseRecords_cons {name : Bytes} {t : UInt8} {rest : List Bytes} :
    parseRecords path ((t :: slash :: name) :: rest) = .ok out ↔
      ∃ more, parseRecords path rest = .ok more ∧ ⟨name, t == 100⟩ :: more = out := by
  cases hrest : parseRecords path rest with
  | error e => simp [parseRecords, hrest, Bind.bind, Except.bind]
  | ok more => simp [parseRecords, hrest, Bind.bind, Except.bind, Pure.pure, Except.pure]

/-- A listing that is read has only records of the right form. -/
theorem parseRecords_form {records : List Bytes} (h : parseRecords path records = .ok out) :
    ∀ r ∈ records, r = [] ∨ ∃ t name, r = t :: slash :: name := by
  induction records generalizing out with
  | nil => simp
  | cons r records ih =>
    match r with
    | [] =>
      rw [forall_mem_cons]
      exact ⟨.inl rfl, ih h⟩
    | [_] => simp [parseRecords] at h
    | t :: s :: name =>
      by_cases hs : s = slash
      · subst hs
        rcases parseRecords_cons.mp h with ⟨more, hmore, -⟩
        rw [forall_mem_cons]
        exact ⟨.inr ⟨t, name, rfl⟩, ih hmore⟩
      · simp [parseRecords, hs] at h

/-- What the records of a directory are read as: each name up to its first newline, if
nothing but newlines follows in any of them. -/
theorem parseRecords_printed (path : Bytes) (entries : List Listed) (out : List DirEntry) :
    parseRecords path ((printed entries).splitOn newline) = .ok out ↔
      (∀ e ∈ entries, OnlyTrailing e.name) ∧
        out = entries.map fun e => ⟨stem e.name, e.type == .directory⟩ := by
  rw [splitOn_printed]
  induction entries generalizing out with
  | nil => simp [parseRecords, eq_comm]
  | cons e entries ih =>
    have hparts : ∀ part ∈ (e.name.splitOn newline).tail, slash ∉ part := fun part hpart hmem =>
      e.named.2.1 (mem_of_mem_splitOn (mem_of_mem_tail hpart) hmem).1
    rw [flatMap_cons, append_assoc, splitOn_record, cons_append,
      parseRecords_cons, forall_mem_cons, map_cons]
    simp only [parseRecords_append _ hparts, ih, letter_eq_directory]
    constructor
    · rintro ⟨more, ⟨hname, hall, rfl⟩, rfl⟩
      exact ⟨⟨hname, hall⟩, rfl⟩
    · rintro ⟨⟨hname, hall⟩, rfl⟩
      exact ⟨_, ⟨hname, hall, rfl⟩, rfl⟩

/-! ## The listing -/

theorem printed_ended (entries : List Listed) : Ended (printed entries) := by
  rcases eq_nil_or_concat entries with rfl | ⟨init, e, rfl⟩
  · exact .inl rfl
  · right
    simp [printed]

/-- Records after which the marker stands are never read. -/
theorem parseRecords_truncated {kept : Bytes} :
    parseRecords path ((kept ++ truncationMarker).splitOn newline) ≠ .ok out := by
  intro h
  have hmarker : truncationMarker = newline :: truncationMarker.tail := rfl
  have hsingle : truncationMarker.tail.splitOn newline = [truncationMarker.tail] :=
    splitOn_eq_singleton (by decide)
  rw [hmarker, splitOn_append_cons_self, hsingle] at h
  have hform := parseRecords_form h truncationMarker.tail (by simp)
  simp [truncationMarker, slash] at hform

/-- Directories whose listing is read and wrong: the output is kept whole, a newline occurs
in a name, and wherever one does only newlines follow it. -/
def Forgeable (entries : List Listed) : Prop :=
  (printed entries).length ≤ maxOutputBytes ∧ (∀ e ∈ entries, OnlyTrailing e.name) ∧
    ∃ e ∈ entries, newline ∈ e.name

instance (entries : List Listed) : Decidable (Forgeable entries) :=
  inferInstanceAs (Decidable (_ ∧ _ ∧ _))

/-- The listing that `find` leads to when it succeeds. -/
theorem parseRecords_stdout (path : Bytes) (entries : List Listed) (out : List DirEntry) :
    parseRecords path ((stdout (printed entries)).splitOn newline) = .ok out ↔
      (printed entries).length ≤ maxOutputBytes ∧ (∀ e ∈ entries, OnlyTrailing e.name) ∧
        out = entries.map fun e => ⟨stem e.name, e.type == .directory⟩ := by
  have hended := ended_of_Ended (printed_ended entries)
  by_cases hshort : (printed entries).length ≤ maxOutputBytes
  · rw [stdout_of_short (by rwa [hended]), hended, parseRecords_printed]
    simp [hshort]
  · rcases stdout_of_long (c := printed entries) (by rw [hended]; omega) with
      ⟨kept, -, -, -, -, -, -, -, -, hout⟩
    rw [hout]
    simp [parseRecords_truncated, hshort]

/-- A listing of cut names is exact just when no name has a newline. -/
theorem exact_stems_iff (entries : List Listed) :
    Exact entries (entries.map fun e => ⟨stem e.name, e.type == .directory⟩) ↔
      ∀ e ∈ entries, newline ∉ e.name := by
  constructor
  · intro h e he hmem
    have hlisted := (h e.dirEntry).mpr ⟨e, he, rfl⟩
    rcases mem_map.mp hlisted with ⟨other, -, hother⟩
    have hname : stem other.name = e.name := congrArg DirEntry.name hother
    exact newline_not_mem_stem other.name (hname ▸ hmem)
  · intro h
    have hmap : (entries.map fun e => (⟨stem e.name, e.type == .directory⟩ : DirEntry)) =
        entries.map Listed.dirEntry :=
      map_congr_left fun e he => by
        rw [stem_of_not_mem (h e he), Listed.dirEntry]
    intro e
    rw [hmap]
    simp [eq_comm]

/-- A listing is returned when the path resolves, `find` succeeds and its output is
read. -/
theorem readDir_eq_ok {backend : Backend} {t : Tree} {outcome : Outcome} :
    readDir backend t path outcome = .ok out ↔
      (∃ resolved, resolveAndValidatePath t path = .ok resolved) ∧
      ∃ bytes err, outcome = .exited 0 bytes err ∧
        parseRecords path ((stdout bytes).splitOn newline) = .ok out := by
  simp only [readDir, bind_eq_ok, mapError_eq_ok]
  constructor
  · rintro ⟨resolved, hresolved, res, hrun, hout⟩
    by_cases hzero : res.exitCode = 0
    · rcases run_exitCode_zero hrun hzero with ⟨bytes, err, houtcome, hstdout⟩
      rw [if_neg (not_not.mpr hzero), hstdout] at hout
      exact ⟨⟨resolved, hresolved⟩, bytes, err, houtcome, hout⟩
    · rw [if_pos hzero] at hout
      split at hout <;> cases hout
  · rintro ⟨⟨resolved, hresolved⟩, bytes, err, rfl, hout⟩
    exact ⟨resolved, hresolved, _, run_success backend bytes err, by simpa using hout⟩

/-- A tree with nothing below its root. -/
def bareTree : Tree :=
  Tree.ofEntries [([], .directory)] (fun _ => ⟨0, 493⟩) (by decide) (by decide)

/-- The listing of a directory is an error or exact, whatever the escalated backend, the
tree, the path and the fate of `find`, just when the directory is not forgeable. -/
theorem readDir_exact_iff (entries : List Listed) :
    (∀ backend t path outcome, backend ≠ .direct → Prints entries outcome → ∀ out,
      readDir backend t path outcome = .ok out → Exact entries out) ↔
    ¬ Forgeable entries := by
  constructor
  · rintro hexact ⟨hshort, htrailing, e, he, hmem⟩
    have hread : readDir .sudo bareTree [slash] (.exited 0 (printed entries) []) =
        .ok (entries.map fun e => ⟨stem e.name, e.type == .directory⟩) :=
      readDir_eq_ok.mpr ⟨⟨[], by decide⟩, _, _, rfl,
        (parseRecords_stdout _ _ _).mpr ⟨hshort, htrailing, rfl⟩⟩
    have hlisting :=
      hexact _ _ _ (.exited 0 (printed entries) []) (by decide) (fun _ => rfl) _ hread
    exact (exact_stems_iff entries).mp hlisting e he hmem
  · intro hsafe backend t path outcome _ hprints out hread
    rcases readDir_eq_ok.mp hread with ⟨-, bytes, err, rfl, hparsed⟩
    rw [hprints rfl, parseRecords_stdout] at hparsed
    rcases hparsed with ⟨hshort, htrailing, rfl⟩
    refine (exact_stems_iff entries).mpr fun e he hmem => ?_
    exact hsafe ⟨hshort, htrailing, e, he, hmem⟩

/-- A file with a newline at the end of its name. -/
def trailingNewline : Listed where
  name := [97, newline]
  type := .file
  named := by decide

/-- The file is listed under a name that the directory does not have. -/
theorem trailingNewline_forged :
    readDir .sudo bareTree [slash] (.exited 0 (printed [trailingNewline]) []) =
        .ok [⟨[97], false⟩] ∧
      ¬ Exact [trailingNewline] [⟨[97], false⟩] := by
  constructor
  · refine readDir_eq_ok.mpr ⟨⟨[], by decide⟩, _, _, rfl, ?_⟩
    rw [parseRecords_stdout]
    decide
  · intro hexact
    have hphantom := (hexact ⟨[97], false⟩).mp (by simp)
    simp [trailingNewline, Listed.dirEntry] at hphantom

end PowerManage.Fsafe
