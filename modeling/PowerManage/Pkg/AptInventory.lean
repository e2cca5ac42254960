import Mathlib.Algebra.Group.Nat.Defs
import PowerManage.Pkg.Names

/-!
# The inventory of apt

`List` has dpkg print one record after the other, with tabs between the fields and the
description as the last one, and `parseAptList` reads the lines of that text.  The
description is free text and may have several lines.

Main results:

- `parseAptList_printed`: what is read from a list of printed records.
- `apt_inventory_iff`: for which lists of records the inventory is right.
-/

namespace PowerManage.Pkg

open List
open Exec (newline)
open Utf8 (textBytes)

def tab : UInt8 := 9

/-! ## Reading -/

structure Package where
  name : Bytes
  version : Bytes
  architecture : Bytes
  description : Bytes
  status : Bytes
  size : Int
  repository : Bytes
  pinned : Bool
  deriving DecidableEq, Repr

def maxInt64 : Nat :=
  2 ^ 63 - 1

/-- The value of decimal digits. -/
def digitsValue (s : Bytes) : Nat :=
  s.foldl (fun n b => 10 * n + (b.toNat - 48)) 0

/-- `strconv.ParseInt` with base 10 and 64 bits. -/
def parseInt (s : Bytes) : Option Int :=
  let negative := s.head? = some 45
  let digits := if s.head? = some 45 ∨ s.head? = some 43 then s.tail else s
  if digits = [] ∨ ¬ digits.all digit then none
  else if negative then
    if digitsValue digits ≤ maxInt64 + 1 then some (-(digitsValue digits : Int)) else none
  else if digitsValue digits ≤ maxInt64 then some (digitsValue digits) else none

/-- The body of the loop of `parseAptList`. -/
def parseAptLine (pinned : Bytes → Bool) (line : Bytes) : Option Package :=
  let fields := line.splitOn tab
  if fields.length < 5 then none
  else if ¬ contains (fields.getD 3 []) (textBytes "installed") then none
  else
    match parseInt (fields.getD 4 []) with
    | none => none
    | some size =>
      if size < 0 ∨ size > maxInt64 / 1024 then none
      else some {
        name := fields.getD 0 []
        version := fields.getD 1 []
        architecture := fields.getD 2 []
        status := textBytes "installed"
        size := size * 1024
        description := if fields.length > 5 then fields.getD 5 [] else []
        repository := []
        pinned := pinned (fields.getD 0 []) }

def parseAptList (out : Bytes) (pinned : Bytes → Bool) : List Package :=
  (out.splitOn newline).filterMap (parseAptLine pinned)

/-! ## Printing -/

/-- The text has neither a tab nor an end of line. -/
def Cell (s : Bytes) : Prop :=
  tab ∉ s ∧ newline ∉ s

instance (s : Bytes) : Decidable (Cell s) :=
  inferInstanceAs (Decidable (_ ∧ _))

/-- A record of dpkg; the size is in KiB. -/
structure DpkgRecord where
  name : Bytes
  version : Bytes
  architecture : Bytes
  status : Bytes
  size : Nat
  description : Bytes
  nameCell : Cell name
  versionCell : Cell version
  architectureCell : Cell architecture
  statusCell : Cell status

/-- The fields of a record before its description. -/
def DpkgRecord.cells (r : DpkgRecord) : List Bytes :=
  [r.name, r.version, r.architecture, r.status, decimal r.size]

/-- The text of a record up to its description. -/
def DpkgRecord.front (r : DpkgRecord) : Bytes :=
  Lines.unlines tab r.cells

/-- The queried format. -/
def DpkgRecord.print (r : DpkgRecord) : Bytes :=
  r.front ++ r.description ++ [newline]

/-- The output of the query. -/
def printed (records : List DpkgRecord) : Bytes :=
  records.flatMap DpkgRecord.print

/-- The state of a package, the last word of its status, is `installed`. -/
def DpkgRecord.installed (r : DpkgRecord) : Bool :=
  (r.status.splitOn 32).getLastD [] == textBytes "installed"

/-- The entry a record should have, with a given description. -/
def DpkgRecord.entry (r : DpkgRecord) (pinned : Bytes → Bool) (description : Bytes) : Package where
  name := r.name
  version := r.version
  architecture := r.architecture
  description := description
  status := textBytes "installed"
  size := r.size * 1024
  repository := []
  pinned := pinned r.name

/-- The first line of the description. -/
def DpkgRecord.synopsis (r : DpkgRecord) : Bytes :=
  (r.description.splitOn newline).headD []

/-- The other lines of the description. -/
def DpkgRecord.extended (r : DpkgRecord) : List Bytes :=
  (r.description.splitOn newline).tail

/-! ## Numbers -/

theorem digitsValue_decimal (n : Nat) : digitsValue (decimal n) = n := by
  have hvalue : ∀ (cs : List Char) (init : Nat), (∀ c ∈ cs, c.toNat < 256) →
      (cs.map fun c => UInt8.ofNat c.toNat).foldl (fun n b => 10 * n + (b.toNat - 48)) init =
        Nat.ofDigitChars 10 cs init := by
    intro cs
    induction cs with
    | nil => intro init _; simp
    | cons c cs ih =>
      intro init hcs
      have hc : c.toNat % 2 ^ 8 = c.toNat := Nat.mod_eq_of_lt (hcs c mem_cons_self)
      rw [map_cons, foldl_cons, Nat.ofDigitChars_cons,
        ih _ (forall_mem_cons.mp hcs).2, UInt8.toNat_ofNat', hc]
      rfl
  have hsmall : ∀ c ∈ Nat.toDigits 10 n, c.toNat < 256 := by
    intro c hc
    have hdigit := Nat.isDigit_of_mem_toDigits (by omega) (by omega) hc
    rw [Char.isDigit, Bool.and_eq_true, decide_eq_true_eq, decide_eq_true_eq] at hdigit
    have hhigh : c.toNat ≤ 57 := hdigit.2
    omega
  rw [digitsValue, decimal, hvalue _ _ hsmall, Nat.ofDigitChars_ten_toDigits]

theorem cell_decimal (n : Nat) : Cell (decimal n) := by
  constructor <;>
  · intro hmem
    have hdigit := digit_of_mem_decimal hmem
    revert hdigit
    decide

/-- A printed number is read back if it fits. -/
theorem parseInt_decimal (n : Nat) :
    parseInt (decimal n) = if n ≤ maxInt64 then some (n : Int) else none := by
  have hne : decimal n ≠ [] := by
    rw [decimal, ne_eq, map_eq_nil_iff]
    exact Nat.toDigits_ne_nil
  have hdigits : (decimal n).all digit = true := by
    rw [all_eq_true]
    exact fun b hb => digit_of_mem_decimal hb
  have hhead : ∀ b, (decimal n).head? = some b → digit b = true :=
    fun b hb => digit_of_mem_decimal (mem_of_mem_head? hb)
  have hminus : (decimal n).head? ≠ some 45 := fun h => absurd (hhead 45 h) (by decide)
  have hplus : (decimal n).head? ≠ some 43 := fun h => absurd (hhead 43 h) (by decide)
  simp only [parseInt, hminus, hplus, or_self, if_false, hne, hdigits, not_true_eq_false,
    digitsValue_decimal]

/-! ## The lines of a printed list -/

theorem description_lines (r : DpkgRecord) :
    r.description.splitOn newline = r.synopsis :: r.extended := by
  cases hsplit : r.description.splitOn newline with
  | nil => exact absurd hsplit (splitOn_ne_nil _ _)
  | cons first rest => rw [DpkgRecord.synopsis, DpkgRecord.extended, hsplit]; rfl

variable {r : DpkgRecord} {pinned : Bytes → Bool}

theorem DpkgRecord.cell_of_mem {s : Bytes} (h : s ∈ r.cells) : Cell s := by
  simp only [DpkgRecord.cells, mem_cons, not_mem_nil, or_false] at h
  rcases h with h | h | h | h | h
  · exact h ▸ r.nameCell
  · exact h ▸ r.versionCell
  · exact h ▸ r.architectureCell
  · exact h ▸ r.statusCell
  · exact h ▸ cell_decimal r.size

theorem DpkgRecord.newline_not_mem_front (r : DpkgRecord) : newline ∉ r.front := by
  intro hmem
  rcases mem_flatMap.mp hmem with ⟨s, hs, hin⟩
  rcases mem_append.mp hin with hin | hin
  · exact (DpkgRecord.cell_of_mem hs).2 hin
  · exact absurd (mem_singleton.mp hin) (by decide)

/-- A text in front of the first part of a split text. -/
theorem splitOn_append_of_not_mem {front s : Bytes} {sep : UInt8} (h : sep ∉ front) :
    (front ++ s).splitOn sep = (s.splitOn sep).modifyHead (front ++ ·) := by
  induction front with
  | nil =>
    cases hsplit : s.splitOn sep with
    | nil => exact absurd hsplit (splitOn_ne_nil _ _)
    | cons first rest => rw [nil_append, hsplit]; rfl
  | cons b front ih =>
    rw [mem_cons, not_or] at h
    rw [cons_append, splitOn_cons_eq_if_modifyHead, if_neg (by simpa using Ne.symm h.1), ih h.2]
    cases s.splitOn sep <;> rfl

theorem splitOn_print (r : DpkgRecord) (rest : Bytes) :
    (r.print ++ rest).splitOn newline =
      (r.front ++ r.synopsis) :: r.extended ++ rest.splitOn newline := by
  rw [DpkgRecord.print, append_assoc, singleton_append, splitOn_append_cons_self,
    splitOn_append_of_not_mem r.newline_not_mem_front, description_lines]
  rfl

/-- The entries that are read from the lines of a record. -/
def DpkgRecord.read (pinned : Bytes → Bool) (r : DpkgRecord) : List Package :=
  (parseAptLine pinned (r.front ++ r.synopsis)).toList ++
    r.extended.filterMap (parseAptLine pinned)

/-- What is read from a list of printed records. -/
theorem parseAptList_printed (records : List DpkgRecord) (pinned : Bytes → Bool) :
    parseAptList (printed records) pinned = records.flatMap (DpkgRecord.read pinned) := by
  unfold parseAptList
  induction records with
  | nil => rfl
  | cons r records ih =>
    rw [printed, flatMap_cons, splitOn_print, cons_append, filterMap_cons,
      filterMap_append, flatMap_cons, ← ih, DpkgRecord.read]
    cases parseAptLine pinned (r.front ++ r.synopsis) <;> rfl

theorem splitOn_headD (s : Bytes) (sep : UInt8) : (s.splitOn sep).headD [] = before sep s := by
  induction s with
  | nil => rfl
  | cons b s ih =>
    rw [splitOn_cons_eq_if_modifyHead, before]
    by_cases hb : b = sep
    · rw [if_pos (by simpa using hb), takeWhile_cons_of_neg (by simpa using hb)]
      rfl
    · rw [if_neg (by simpa using hb), takeWhile_cons_of_pos (by simpa using hb)]
      rw [before] at ih
      cases hsplit : s.splitOn sep with
      | nil => exact absurd hsplit (splitOn_ne_nil _ _)
      | cons first rest =>
        rw [hsplit, headD_cons] at ih
        rw [modifyHead_cons, headD_cons, ih]

/-- What is read from the first line of a record. -/
theorem parseAptLine_front (pinned : Bytes → Bool) (r : DpkgRecord) (s : Bytes) :
    parseAptLine pinned (r.front ++ s) =
      if contains r.status (textBytes "installed") ∧ r.size ≤ maxInt64 / 1024 then
        some (r.entry pinned (before tab s))
      else none := by
  have hfields : (r.front ++ s).splitOn tab =
      r.name :: r.version :: r.architecture :: r.status :: decimal r.size :: s.splitOn tab :=
    Lines.splitOn_unlines_append (fun cell hcell => (DpkgRecord.cell_of_mem hcell).1) s
  cases hsplit : s.splitOn tab with
  | nil => exact absurd hsplit (splitOn_ne_nil _ _)
  | cons first rest =>
    have hfirst := splitOn_headD s tab
    rw [hsplit, headD_cons] at hfirst
    rw [hsplit] at hfields
    have hlong : ¬ (rest.length + 1 + 1 + 1 + 1 + 1 + 1 < 5) := by omega
    have hlong' : rest.length + 1 + 1 + 1 + 1 + 1 + 1 > 5 := by omega
    simp only [parseAptLine, hfields, length_cons, hlong, if_false, getD_cons_succ,
      getD_cons_zero, parseInt_decimal, hlong', if_true]
    by_cases hstatus : contains r.status (textBytes "installed") = true
    · by_cases hsize : r.size ≤ maxInt64 / 1024
      · have hfits : r.size ≤ maxInt64 := le_trans hsize (Nat.div_le_self _ _)
        have hin : ¬ ((r.size : Int) < 0 ∨ (r.size : Int) > (maxInt64 : Int) / 1024) := by
          omega
        simp only [hstatus, not_true_eq_false, if_false, hfits, if_true, hin, hsize, and_self,
          DpkgRecord.entry, hfirst]
      · simp only [hstatus, not_true_eq_false, if_false, hsize, and_false]
        by_cases hfits : r.size ≤ maxInt64
        · have hout : (r.size : Int) < 0 ∨ (r.size : Int) > (maxInt64 : Int) / 1024 := by
            omega
          simp only [hfits, if_true, hout]
        · simp only [hfits, if_false]
    · simp only [hstatus, not_false_eq_true, if_true, false_and, if_false, Bool.false_eq_true]

/-- What no entry can have: a size that is out of range or a tab or an end of line in its
description. -/
theorem parseAptLine_bounds {line : Bytes} {p : Package} (h : parseAptLine pinned line = some p)
    (hline : newline ∉ line) : Cell p.description ∧ p.size ≤ (maxInt64 / 1024 : Nat) * 1024 := by
  unfold parseAptLine at h
  dsimp only at h
  split at h
  · cases h
  split at h
  · cases h
  split at h
  · cases h
  split at h
  · cases h
  rw [Option.some.injEq] at h
  rw [← h]
  refine ⟨?_, by dsimp only; omega⟩
  split
  · rename_i hlong
    have hmem : (line.splitOn tab).getD 5 [] ∈ line.splitOn tab := by
      rw [getD_eq_getElem?_getD, getElem?_eq_getElem hlong, Option.getD_some]
      exact getElem_mem _
    exact ⟨Lines.not_mem_of_mem_splitOn hmem,
      fun hnl => hline (Lines.mem_of_mem_splitOn hmem hnl).1⟩
  · exact ⟨by simp, by simp⟩

/-! ## Which lists are read right -/

/-- Lists of blocks are equal if and only if the blocks are, when those on one side are never
longer. -/
theorem flatMap_eq_iff {β γ : Type} {xs : List β} {f g : β → List γ}
    (hle : ∀ x ∈ xs, (g x).length ≤ (f x).length) :
    xs.flatMap f = xs.flatMap g ↔ ∀ x ∈ xs, f x = g x := by
  have hsum : ∀ {ys : List β}, (∀ x ∈ ys, (g x).length ≤ (f x).length) →
      (ys.flatMap g).length ≤ (ys.flatMap f).length := by
    intro ys hys
    induction ys with
    | nil => simp
    | cons y ys ih =>
      have hy := hys y mem_cons_self
      have hrest := ih (forall_mem_cons.mp hys).2
      rw [flatMap_cons, flatMap_cons, length_append, length_append]
      omega
  induction xs with
  | nil => simp
  | cons x xs ih =>
    have hx := hle x mem_cons_self
    have htail : ∀ y ∈ xs, (g y).length ≤ (f y).length :=
      (forall_mem_cons.mp hle).2
    have hrest := hsum htail
    rw [flatMap_cons, flatMap_cons, forall_mem_cons]
    constructor
    · intro h
      have hlength := congrArg length h
      rw [length_append, length_append] at hlength
      have hblocks := append_inj h (by omega)
      exact ⟨hblocks.1, (ih htail).mp hblocks.2⟩
    · rintro ⟨hhead, hblocks⟩
      rw [hhead, (ih htail).mpr hblocks]

/-- The last word of a status is a part of it. -/
theorem contains_of_installed (h : r.installed = true) :
    contains r.status (textBytes "installed") = true := by
  rw [DpkgRecord.installed, beq_iff_eq] at h
  have hsplit : Lines.unlines 32 (r.status.splitOn 32).dropLast ++
      (r.status.splitOn 32).getLastD [] = r.status :=
    Lines.unlines_dropLast_splitOn r.status
  rw [h] at hsplit
  rw [contains, any_eq_true]
  refine ⟨textBytes "installed", (mem_tails _ _).mpr ⟨_, hsplit⟩, ?_⟩
  rw [ isPrefixOf_iff_prefix]

/-- The inventory should have one entry for every installed package and no other, each with
the description `describe` gives. -/
def Faithful (describe : DpkgRecord → Bytes) (pinned : Bytes → Bool) (records : List DpkgRecord) :
    Prop :=
  parseAptList (printed records) pinned =
    (records.filter (·.installed)).map fun r => r.entry pinned (describe r)

/-- A line that looks like an entry: it has five fields or more, of which the fourth contains
`installed` and the fifth is a size in range. -/
def EntryLine (line : Bytes) : Prop :=
  5 ≤ (line.splitOn tab).length ∧
    contains ((line.splitOn tab).getD 3 []) (textBytes "installed") = true ∧
    ∃ size, parseInt ((line.splitOn tab).getD 4 []) = some size ∧ 0 ≤ size ∧
      size ≤ maxInt64 / 1024

/-- Other lines are skipped. -/
theorem parseAptLine_eq_none {pinned : Bytes → Bool} {line : Bytes} :
    parseAptLine pinned line = none ↔ ¬ EntryLine line := by
  unfold parseAptLine EntryLine
  dsimp only
  generalize line.splitOn tab = fields
  cases hsize : parseInt (fields.getD 4 []) with
  | none => simp
  | some size => grind

/-- A record is read as nothing: dpkg's state of it does not look installed or its size is out
of range, and no line of its description looks like an entry. -/
def Unread (r : DpkgRecord) : Prop :=
  (contains r.status (textBytes "installed") = false ∨ maxInt64 / 1024 < r.size) ∧
    ∀ line ∈ r.extended, ¬ EntryLine line

/-- A record is read as its entry with the description `describe r`. -/
def ReadAs (describe : DpkgRecord → Bytes) (r : DpkgRecord) : Prop :=
  r.size ≤ maxInt64 / 1024 ∧ Cell (describe r) ∧ ∀ line ∈ r.extended, ¬ EntryLine line

/-- The entries a record should have. -/
def DpkgRecord.wanted (describe : DpkgRecord → Bytes) (pinned : Bytes → Bool) (r : DpkgRecord) :
    List Package :=
  if r.installed then [r.entry pinned (describe r)] else []

theorem flatMap_wanted (describe : DpkgRecord → Bytes) (pinned : Bytes → Bool)
    (records : List DpkgRecord) :
    records.flatMap (DpkgRecord.wanted describe pinned) =
      (records.filter (·.installed)).map fun r => r.entry pinned (describe r) := by
  induction records with
  | nil => rfl
  | cons r records ih =>
    rw [flatMap_cons, ih, DpkgRecord.wanted]
    cases hinstalled : r.installed with
    | true => rw [filter_cons_of_pos hinstalled]; rfl
    | false => rw [filter_cons_of_neg (by simp [hinstalled])]; rfl

/-- The bounds of `parseAptLine` hold for everything that is read from a record. -/
theorem read_bounds {p : Package} (h : p ∈ r.read pinned) :
    Cell p.description ∧ p.size ≤ (maxInt64 / 1024 : Nat) * 1024 := by
  have hlines : ∀ line ∈ r.synopsis :: r.extended, newline ∉ line := by
    intro line hline
    rw [← description_lines] at hline
    exact Lines.not_mem_of_mem_splitOn hline
  rcases mem_append.mp h with h | h
  · refine parseAptLine_bounds (Option.mem_toList.mp h) ?_
    rw [mem_append, not_or]
    exact ⟨r.newline_not_mem_front, hlines _ mem_cons_self⟩
  · rcases mem_filterMap.mp h with ⟨line, hline, hread⟩
    exact parseAptLine_bounds hread (hlines _ (mem_cons_of_mem _ hline))

theorem read_of_unread : r.read pinned = [] ↔ Unread r := by
  simp only [DpkgRecord.read, append_eq_nil_iff, filterMap_eq_nil_iff, Unread, parseAptLine_eq_none]
  rw [parseAptLine_front]
  refine and_congr ?_ Iff.rfl
  by_cases h : contains r.status (textBytes "installed") = true ∧ r.size ≤ maxInt64 / 1024
  · rw [if_pos h]
    simp [h.1, h.2]
  · rw [if_neg h]
    simp only [Option.toList_none, true_iff]
    rw [not_and, not_le] at h
    cases hstatus : contains r.status (textBytes "installed") with
    | false => exact .inl rfl
    | true => exact .inr (h hstatus)

variable {describe : DpkgRecord → Bytes}

/-- A record with a description of one line is read as its entry, and then perhaps more. -/
theorem read_of_installed (hdescribe : ∀ r, Cell (describe r) → before tab r.synopsis = describe r)
    (hinstalled : r.installed = true) (hsize : r.size ≤ maxInt64 / 1024)
    (hcell : Cell (describe r)) :
    r.read pinned =
      r.entry pinned (describe r) :: r.extended.filterMap (parseAptLine pinned) := by
  rw [DpkgRecord.read, parseAptLine_front, if_pos ⟨contains_of_installed hinstalled, hsize⟩,
    hdescribe r hcell]
  rfl

/-- The inventory is right if and only if every record is read as it should be. -/
theorem faithful_iff (hdescribe : ∀ r, Cell (describe r) → before tab r.synopsis = describe r)
    (pinned : Bytes → Bool) (records : List DpkgRecord) :
    Faithful describe pinned records ↔
      ∀ r ∈ records, if r.installed then ReadAs describe r else Unread r := by
  rw [Faithful, parseAptList_printed, ← flatMap_wanted]
  constructor
  · intro heq
    -- an entry that no line can be read as would be missing
    have hread : ∀ r ∈ records, r.installed = true →
        r.size ≤ maxInt64 / 1024 ∧ Cell (describe r) := by
      intro r hr hinstalled
      have hmem : r.entry pinned (describe r) ∈
          records.flatMap (DpkgRecord.wanted describe pinned) :=
        mem_flatMap.mpr ⟨r, hr, by simp [DpkgRecord.wanted, hinstalled]⟩
      rw [← heq] at hmem
      rcases mem_flatMap.mp hmem with ⟨_, -, hin⟩
      have hbounds := read_bounds hin
      refine ⟨?_, hbounds.1⟩
      have hsize : (r.size : Int) * 1024 ≤ (maxInt64 / 1024 : Nat) * 1024 := hbounds.2
      omega
    have hle : ∀ r ∈ records,
        (r.wanted describe pinned).length ≤ (r.read pinned).length := by
      intro r hr
      rw [DpkgRecord.wanted]
      cases hinstalled : r.installed with
      | false => simp
      | true =>
        have hgood := hread r hr hinstalled
        rw [read_of_installed hdescribe hinstalled hgood.1 hgood.2]
        simp
    intro r hr
    have hblock := (flatMap_eq_iff hle).mp heq r hr
    rw [DpkgRecord.wanted] at hblock
    cases hinstalled : r.installed with
    | false =>
      rw [hinstalled, if_neg (by simp)] at hblock
      rw [if_neg (by simp)]
      exact read_of_unread.mp hblock
    | true =>
      have hgood := hread r hr hinstalled
      rw [hinstalled, if_pos rfl, read_of_installed hdescribe hinstalled hgood.1 hgood.2,
        cons.injEq, filterMap_eq_nil_iff] at hblock
      rw [if_pos rfl]
      exact ⟨hgood.1, hgood.2, fun line hline => parseAptLine_eq_none.mp (hblock.2 line hline)⟩
  · intro hall
    refine flatMap_congr fun r hr => ?_
    have hr := hall r hr
    rw [DpkgRecord.wanted]
    cases hinstalled : r.installed with
    | false =>
      rw [hinstalled, if_neg (by simp)] at hr
      rw [if_neg (by simp)]
      exact read_of_unread.mpr hr
    | true =>
      rw [hinstalled, if_pos rfl] at hr
      rw [if_pos rfl, read_of_installed hdescribe hinstalled hr.1 hr.2.1,
        filterMap_eq_nil_iff.mpr fun line hline =>
          parseAptLine_eq_none.mpr (hr.2.2 line hline)]

/-- A description without tabs and ends of lines is its own first line. -/
theorem synopsis_of_cell (h : newline ∉ r.description) : r.synopsis = r.description := by
  rw [DpkgRecord.synopsis, splitOn_eq_singleton h]
  rfl

theorem before_of_not_mem {sep : UInt8} {s : Bytes} (h : sep ∉ s) : before sep s = s := by
  rw [before, takeWhile_eq_self_iff]
  intro b hb
  simp only [decide_eq_true_eq]
  exact fun hsep => h (hsep ▸ hb)

/-- The inventory is right, with the descriptions as they are or with their first lines, if and
only if every installed package has a size in range and a description without tabs (and, in the
first case, without ends of lines), no other package has a state that looks installed, and no
further line of a description looks like an entry. -/
theorem apt_inventory_iff (pinned : Bytes → Bool) (records : List DpkgRecord) :
    (Faithful (·.description) pinned records ↔
      ∀ r ∈ records, if r.installed then r.size ≤ maxInt64 / 1024 ∧ Cell r.description
        else Unread r) ∧
    (Faithful (·.synopsis) pinned records ↔
      ∀ r ∈ records, if r.installed then r.size ≤ maxInt64 / 1024 ∧ tab ∉ r.synopsis ∧
          ∀ line ∈ r.extended, ¬ EntryLine line
        else Unread r) := by
  constructor
  · rw [faithful_iff (fun r hcell => ?_)]
    · refine forall₂_congr fun r _ => ?_
      cases r.installed with
      | false => rfl
      | true =>
        simp only [if_true, ReadAs]
        constructor
        · exact fun h => ⟨h.1, h.2.1⟩
        · intro h
          refine ⟨h.1, h.2, ?_⟩
          rw [DpkgRecord.extended, splitOn_eq_singleton h.2.2]
          simp
    · rw [synopsis_of_cell hcell.2, before_of_not_mem hcell.1]
  · rw [faithful_iff (fun r hcell => before_of_not_mem hcell.1)]
    refine forall₂_congr fun r _ => ?_
    have hline : newline ∉ r.synopsis := by
      have hmem : r.synopsis ∈ r.description.splitOn newline := by
        rw [description_lines]
        exact mem_cons_self
      exact Lines.not_mem_of_mem_splitOn hmem
    simp only [ReadAs, Cell, hline, not_false_eq_true, and_true]

/-- A package that is not installed any more. -/
def halfInstalled : DpkgRecord where
  name := textBytes "nginx"
  version := textBytes "1"
  architecture := textBytes "all"
  status := textBytes "deinstall reinstreq half-installed"
  size := 7
  description := textBytes "d"
  nameCell := by decide
  versionCell := by decide
  architectureCell := by decide
  statusCell := by decide

/-- An installed package whose description carries a line that looks like a record. -/
def forging : DpkgRecord where
  name := textBytes "a"
  version := textBytes "1"
  architecture := textBytes "all"
  status := textBytes "install ok installed"
  size := 7
  description := textBytes "d\nopenssl\t9\tall\tinstalled\t1"
  nameCell := by decide
  versionCell := by decide
  architectureCell := by decide
  statusCell := by decide

/-- A package that is only half installed is listed, and a description adds an entry for a
package that does not exist. -/
theorem apt_inventory_wrong :
    parseAptList (printed [halfInstalled]) (fun _ => false) =
      [halfInstalled.entry (fun _ => false) (textBytes "d")] ∧
    (parseAptList (printed [forging]) (fun _ => false)).map (·.name) =
      [textBytes "a", textBytes "openssl"] ∧
    ¬ Faithful (·.synopsis) (fun _ => false) [halfInstalled] ∧
    ¬ Faithful (·.synopsis) (fun _ => false) [forging] := by
  unfold Faithful
  decide

end PowerManage.Pkg
