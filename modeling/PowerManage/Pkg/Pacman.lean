import Mathlib.Data.List.TakeWhile
import PowerManage.Pkg.Names
import PowerManage.Relational.Program

/-!
# Pinning with pacman

Packages are held back by `IgnorePkg` directives in `pacman.conf`.  `Pin` and
`Unpin` read the text, collect the packages of all directives and write the text again with
one directive; pacman itself honours only the directives of the section `[options]`.

Main results:

- `lineIgnored_eq`: what the code reads from a line.
- `written_place`: the lines of the text that is written.
- `pacman_pinning_iff`: for which texts the packages that pacman honours change as they
  should and no other line is lost.
-/

namespace PowerManage.Pkg

open Exec (newline)
open List Relational
open Utf8 (textBytes)
open Lines
open BlankCode

def ignorePkg : Bytes := textBytes "IgnorePkg"

def optionsHeader : Bytes := textBytes "[options]"

/-! ## The code -/

/-- A line without its comment and the blanks around it. -/
def directiveText (line : Bytes) : Bytes :=
  trimSpace (before 35 line)

def hasPacmanOptionsSection (conf : Bytes) : Bool :=
  (newLineScanner conf).any fun line => directiveText line == optionsHeader

/-- The packages that `getIgnoredPackages` adds for a line. -/
def lineIgnored (line : Bytes) : List Bytes :=
  if ignorePkg.isPrefixOf (directiveText line) then
    match after 61 (directiveText line) with
    | none => []
    | some value => fields (trimSpace value)
  else []

def getIgnoredPackages (conf : Bytes) : List Bytes :=
  (newLineScanner conf).flatMap lineIgnored

/-- The line with which the packages are written. -/
def directiveLine (ignored : List Bytes) : Bytes :=
  textBytes "IgnorePkg = " ++ [32].intercalate ignored

/-- Whether `buildIgnorePkgConf` takes a line for a directive. -/
def isIgnoreLine (line : Bytes) : Bool :=
  ignorePkg.isPrefixOf (trimSpace line)

/-- The loop of `buildIgnorePkgConf`: what it writes, and whether it has found a
directive. -/
def rebuildLines (ignored : List Bytes) : Bool → List Bytes → Bytes × Bool
  | found, [] => ([], found)
  | found, line :: rest =>
    if isIgnoreLine line then
      let written := rebuildLines ignored true rest
      ((if ¬ found ∧ ignored ≠ [] then directiveLine ignored ++ [newline] else []) ++ written.1,
        written.2)
    else
      let written := rebuildLines ignored found rest
      (line ++ [newline] ++ written.1, written.2)

/-- The insertion after the first `[options]`. -/
def insertDirective (ignored : List Bytes) (content : Bytes) : Bytes :=
  match index optionsHeader content with
  | none => content
  | some optionsIdx =>
    match index [newline] (content.drop optionsIdx) with
    | none => content
    | some nl =>
      content.take (optionsIdx + nl + 1) ++ directiveLine ignored ++ [newline] ++
        content.drop (optionsIdx + nl + 1)

def buildIgnorePkgConf (conf : Bytes) (ignored : List Bytes) : Bytes :=
  let written := rebuildLines ignored false (newLineScanner conf)
  if ¬ written.2 ∧ ignored ≠ [] then insertDirective ignored written.1 else written.1

/-- `writeIgnorePkg`: the text that replaces `pacman.conf`. -/
def writeIgnorePkg (conf : Bytes) (ignored : List Bytes) : Except PkgError Bytes :=
  if ¬ hasPacmanOptionsSection conf then
    .error (.malformedOutput "pacman.conf has no [options] section")
  else .ok (buildIgnorePkgConf conf ignored)

/-- The stricter check of the names in `Pin`. -/
def validatePacmanNames : List Bytes → Except PkgError Unit
  | [] => .ok ()
  | name :: names =>
    if ¬ validPacmanPkgName name then .error (.invalidPacmanName name)
    else validatePacmanNames names

/-- The packages with the names that are not among them. -/
def addMissing (ignored : List Bytes) : List Bytes → List Bytes
  | [] => ignored
  | name :: names =>
    addMissing (if ignored.contains name then ignored else ignored ++ [name]) names

/-- `pacman.Pin`: the text of `pacman.conf` afterwards. -/
def pin (conf : Bytes) (packages : List Bytes) : Except PkgError Bytes := do
  validatePackageNames packages
  if packages = [] then .ok conf
  else do
    validatePacmanNames packages
    writeIgnorePkg conf (addMissing (getIgnoredPackages conf) packages)

/-- `pacman.Unpin`: the text of `pacman.conf` afterwards. -/
def unpin (conf : Bytes) (packages : List Bytes) : Except PkgError Bytes := do
  validatePackageNames packages
  if packages = [] then .ok conf
  else writeIgnorePkg conf ((getIgnoredPackages conf).filter fun name => ! packages.contains name)

/-- `pacman.IsPinned`. -/
def pacmanIsPinned (conf name : Bytes) : Except PkgError Bool := do
  packageName name
  .ok ((getIgnoredPackages conf).contains name)

/-! ## What pacman reads -/

/-- The name of the section that starts with a line. -/
def sectionOf (line : Bytes) : Option Bytes :=
  let text := directiveText line
  if text.head? = some 91 ∧ text.getLast? = some 93 then some text.tail.dropLast else none

/-- The key of a directive. -/
def keyOf (line : Bytes) : Bytes :=
  trimSpace (before 61 (before 35 line))

/-- The value of a directive. -/
def valueOf (line : Bytes) : Bytes :=
  (after 61 (before 35 line)).getD []

/-- Whether a line is an `IgnorePkg` directive. -/
def isDirective (line : Bytes) : Bool :=
  keyOf line == ignorePkg

/-- Whether the lines after the given ones are in the section `options`. -/
def inOptions (inside : Bool) : List Bytes → Bool
  | [] => inside
  | line :: rest =>
    inOptions (match sectionOf line with
      | some name => name == textBytes "options"
      | none => inside) rest

/-- The packages of the directives in the section `options`. -/
def honoured (inside : Bool) : List Bytes → List Bytes
  | [] => []
  | line :: rest =>
    match sectionOf line with
    | some name => honoured (name == textBytes "options") rest
    | none => (if inside && isDirective line then fields (valueOf line) else []) ++
        honoured inside rest

/-! ## Single lines -/

section OneLine

variable {line : Bytes}

theorem ignorePkg_plain : ∀ b ∈ ignorePkg, spaces.Plain b := by
  have hascii : ∀ b ∈ ignorePkg, 33 ≤ b ∧ b < 0x80 := by decide +kernel
  exact fun b hb => plain_of_ascii (hascii b hb).1 (hascii b hb).2

/-- A text is led by the keyword: only blanks stand before it. -/
def Led (text : Bytes) : Prop :=
  ∃ blanks rest, text = blanks ++ ignorePkg ++ rest ∧ spaces.Blank blanks

theorem led_iff {text : Bytes} : ignorePkg.isPrefixOf (trimSpace text) = true ↔ Led text := by
  rw [ isPrefixOf_iff_prefix, trimSpace, prefix_trim_iff ignorePkg_plain (by decide)]
  rfl

variable {sep : UInt8}

/-- Blanks and the keyword hold no plain separator. -/
theorem sep_not_mem_lead (hsep : spaces.Plain sep) (hkey : sep ∉ ignorePkg) {blanks : Bytes}
    (hblank : spaces.Blank blanks) : sep ∉ blanks ++ ignorePkg := by
  rw [mem_append, not_or]
  refine ⟨?_, hkey⟩
  intro hmem
  rcases append_of_mem hmem with ⟨front, back, hsplit⟩
  have hmark := hblank (sep, false) (by
    rw [hsplit, mark_append_plain hsep]
    simp)
  cases hmark

/-- Cutting a text behind its lead keeps the lead. -/
theorem led_before_iff (hsep : spaces.Plain sep) (hkey : sep ∉ ignorePkg) {text : Bytes} :
    Led (before sep text) ↔ Led text := by
  constructor
  · rintro ⟨blanks, rest, htext, hblank⟩
    refine ⟨blanks, rest ++ text.dropWhile (· ≠ sep), ?_, hblank⟩
    rw [← append_assoc, ← htext, before, takeWhile_append_dropWhile]
  · rintro ⟨blanks, rest, htext, hblank⟩
    have hlead := sep_not_mem_lead hsep hkey hblank
    refine ⟨blanks, before sep rest, ?_, hblank⟩
    rw [htext, before, before, takeWhile_append_of_pos (forall_ne_of_not_mem hlead)]

theorem plain_hash : spaces.Plain 35 := by decide
theorem plain_equals : spaces.Plain 61 := by decide

/-- The two functions of the code take the same lines for directives. -/
theorem directiveText_led : ignorePkg.isPrefixOf (directiveText line) = isIgnoreLine line := by
  rw [Bool.eq_iff_iff, directiveText, led_iff, isIgnoreLine, led_iff,
    led_before_iff plain_hash (by decide)]

/-- A directive is a line that the code takes for one. -/
theorem isIgnoreLine_of_isDirective (h : isDirective line = true) : isIgnoreLine line = true := by
  rw [isDirective, beq_iff_eq] at h
  have hled : Led (before 61 (before 35 line)) := by
    rw [← led_iff, ← keyOf, h, isPrefixOf_iff_prefix]
  rw [led_before_iff plain_equals (by decide), led_before_iff plain_hash (by decide)] at hled
  exact led_iff.mpr hled

/-- A line that the code takes for a directive starts no section. -/
theorem sectionOf_of_isIgnoreLine (h : isIgnoreLine line = true) : sectionOf line = none := by
  rw [← directiveText_led, isPrefixOf_iff_prefix] at h
  rcases h with ⟨rest, hrest⟩
  have hkey : ignorePkg = 73 :: ignorePkg.tail := by decide
  rw [sectionOf, ← hrest, hkey, if_neg]
  rintro ⟨hhead, -⟩
  cases hhead

theorem after_append_cons {front rest : Bytes} (h : sep ∉ front) :
    after sep (front ++ sep :: rest) = some rest := by
  rw [after, dropWhile_append_of_pos (forall_ne_of_not_mem h), dropWhile_cons_of_neg (by simp)]

theorem after_of_not_mem {s : Bytes} (h : sep ∉ s) : after sep s = none := by
  rw [after, dropWhile_eq_nil_iff.mpr (forall_ne_of_not_mem h)]

/-- Trimming a text before or after it is cut does not change the fields of its value. -/
theorem fields_after_trimSpace (text : Bytes) :
    (match after 61 (trimSpace text) with
      | none => []
      | some value => fields (trimSpace value)) = fields ((after 61 text).getD []) := by
  by_cases hmem : 61 ∈ text
  · rcases eq_append_cons_of_mem hmem with ⟨first, rest, htext, hfirst⟩
    have hleft : 61 ∉ ((spaces.mark first).dropWhile Prod.snd).map Prod.fst := by
      intro hin
      rcases mem_map.mp hin with ⟨m, hm, hm61⟩
      refine hfirst ?_
      rw [← hm61, ← map_fst_mark (C := spaces) first]
      exact mem_map_of_mem ((dropWhile_suffix _).subset hm)
    rw [htext, trimSpace, trim_append_plain plain_equals, after_append_cons hleft,
      after_append_cons hfirst]
    change spaces.fields (spaces.trim _) = spaces.fields rest
    rw [fields_trim, fields_trimRight_append plain_equals first rest]
  · have hmem' : 61 ∉ trimSpace text := fun h => hmem ((mem_trim_iff plain_equals).mp h)
    rw [after_of_not_mem hmem', after_of_not_mem hmem]
    rfl

/-- What the code reads from a line. -/
theorem lineIgnored_eq :
    lineIgnored line = if isIgnoreLine line then fields (valueOf line) else [] := by
  rw [lineIgnored, directiveText_led]
  exact if_congr Iff.rfl (fields_after_trimSpace _) rfl

end OneLine

/-! ## The line that is written -/

/-- A package that can stand in a directive. -/
def Writable (name : Bytes) : Prop :=
  name ≠ [] ∧ spaces.Blankless name ∧ 35 ∉ name

theorem not_mem_of_blankless {s : Bytes} {b : UInt8} (h : spaces.Blankless s)
    (hb : spaces.Single b) : b ∉ s := by
  intro hmem
  rcases append_of_mem hmem with ⟨front, back, hsplit⟩
  have hmark := h (b, true) (by
    rw [hsplit, mark_append hb.joint, mark_cons_single hb]
    simp)
  cases hmark

theorem writable_of_lineIgnored {line name : Bytes} (h : name ∈ lineIgnored line) :
    Writable name := by
  rw [lineIgnored_eq] at h
  split at h
  · rcases mem_fields h with ⟨hne, hblankless, hpart⟩
    refine ⟨hne, hblankless, ?_⟩
    intro hmem
    have hvalue : ∀ b ∈ valueOf line, b ∈ before 35 line := by
      intro b hb
      unfold valueOf after at hb
      split at hb
      · cases hb
      · rename_i hdrop
        refine (dropWhile_suffix (· ≠ 61)).subset ?_
        rw [hdrop]
        exact mem_cons_of_mem _ hb
    have hbefore := mem_takeWhile_imp (hvalue 35 (hpart.subset hmem))
    simp at hbefore
  · cases h

theorem writable_of_grammar {extra : String} {maximum : Option Nat} {name : Bytes}
    (h : grammar extra maximum name = true)
    (hextra : ∀ b ∈ textBytes extra, 33 ≤ b ∧ b < 0x80 ∧ b ≠ 35) : Writable name := by
  have hsymbols : ∀ b ∈ name, 33 ≤ b ∧ b < 0x80 ∧ b ≠ 35 := by
    intro b hb
    rcases mem_of_grammar h hb with halnum | hin
    · simp [alnum, UInt8.le_iff_toNat_le] at halnum
      simp only [UInt8.le_iff_toNat_le, UInt8.lt_iff_toNat_lt, ne_eq, ← UInt8.toNat_inj]
      simp only [UInt8.reduceToNat] at halnum ⊢
      omega
    · exact hextra b hin
  exact ⟨ne_nil_of_grammar h, blankless_of_plain fun b hb =>
    plain_of_ascii (hsymbols b hb).1 (hsymbols b hb).2.1, fun hmem => (hsymbols 35 hmem).2.2 rfl⟩

theorem mem_intercalate {sep b : UInt8} {parts : List Bytes} (h : b ∈ [sep].intercalate parts) :
    b = sep ∨ ∃ part ∈ parts, b ∈ part := by
  induction parts with
  | nil => cases h
  | cons part parts ih =>
    cases parts with
    | nil =>
      rw [intercalate_singleton] at h
      exact .inr ⟨part, mem_cons_self, h⟩
    | cons next parts =>
      rw [intercalate_cons_cons, mem_append, mem_append] at h
      rcases h with (h | h) | h
      · exact .inr ⟨part, mem_cons_self, h⟩
      · exact .inl (mem_singleton.mp h)
      · rcases ih h with heq | ⟨p, hp, hb⟩
        · exact .inl heq
        · exact .inr ⟨p, mem_cons_of_mem _ hp, hb⟩

section Written

variable {ignored : List Bytes} (h : ∀ name ∈ ignored, Writable name)

theorem directiveLine_split (ignored : List Bytes) :
    directiveLine ignored = (ignorePkg ++ [32]) ++ 61 :: 32 :: [32].intercalate ignored := by
  rfl

include h in
theorem not_mem_directiveLine {b : UInt8} (hb : ∀ name, Writable name → b ∉ name)
    (htext : b ∉ textBytes "IgnorePkg = ") (hspace : b ≠ 32) : b ∉ directiveLine ignored := by
  rw [directiveLine, mem_append, not_or]
  refine ⟨htext, ?_⟩
  intro hmem
  rcases mem_intercalate hmem with heq | ⟨name, hname, hin⟩
  · exact hspace heq
  · exact hb name (h name hname) hin

include h in
theorem newline_not_mem_directiveLine : newline ∉ directiveLine ignored :=
  not_mem_directiveLine h (fun _ hname => not_mem_of_blankless hname.2.1 (by decide))
    (by decide) (by decide)

include h in
/-- The written line is a directive with the given packages. -/
theorem directiveLine_reads :
    isDirective (directiveLine ignored) = true ∧
      fields (valueOf (directiveLine ignored)) = ignored := by
  have hhash : before 35 (directiveLine ignored) = directiveLine ignored := by
    rw [before, takeWhile_eq_self_iff]
    exact forall_ne_of_not_mem (not_mem_directiveLine h (fun _ hname => hname.2.2)
      (by decide) (by decide))
  have hkey : 61 ∉ ignorePkg ++ [32] := by decide
  have hbefore : before 61 (directiveLine ignored) = ignorePkg ++ [32] := by
    rw [directiveLine_split, before,
      takeWhile_append_of_pos (forall_ne_of_not_mem hkey),
      takeWhile_cons_of_neg (by simp), append_nil]
  constructor
  · rw [isDirective, keyOf, hhash, hbefore]
    decide
  · rw [valueOf, hhash, directiveLine_split, after_append_cons hkey]
    exact (fields_cons_single single_space _).trans
      (fields_intercalate single_space fun name hname =>
        ⟨(h name hname).1, (h name hname).2.1⟩)

end Written

/-! ## The text that is written -/

/-- The lines of the directive for the packages, if there are any. -/
def directiveLines (ignored : List Bytes) : List Bytes :=
  if ignored = [] then [] else [directiveLine ignored]

/-- The directive after the first line that mentions the section. -/
def insertLine (line : Bytes) : List Bytes → List Bytes
  | [] => []
  | l :: rest => if contains l optionsHeader then l :: line :: rest else l :: insertLine line rest

theorem rebuildLines_found (ignored : List Bytes) (lines : List Bytes) :
    rebuildLines ignored true lines =
      (unlines newline (lines.filter (! isIgnoreLine ·)), true) := by
  induction lines with
  | nil => rfl
  | cons line lines ih =>
    rw [rebuildLines]
    cases hline : isIgnoreLine line with
    | true => simp [ih, hline]
    | false => simp [ih, hline]

variable {front ignored lines packages rest : List Bytes} {conf line out p : Bytes}
variable {inside : Bool}

theorem rebuildLines_skip (h : ∀ line ∈ front, isIgnoreLine line = false) (rest : List Bytes) :
    rebuildLines ignored false (front ++ rest) =
      (unlines newline front ++ (rebuildLines ignored false rest).1,
        (rebuildLines ignored false rest).2) := by
  induction front with
  | nil => rfl
  | cons line front ih =>
    rw [cons_append, rebuildLines, h line mem_cons_self, if_neg (by simp),
      ih (forall_mem_cons.mp h).2]
    simp

/-- The text with a directive in the place of the first one. -/
theorem buildIgnorePkgConf_found (hlines : newLineScanner conf = front ++ line :: rest)
    (hfront : ∀ l ∈ front, isIgnoreLine l = false) (hline : isIgnoreLine line = true)
    (ignored : List Bytes) :
    buildIgnorePkgConf conf ignored = unlines newline
      (front ++ directiveLines ignored ++ rest.filter (! isIgnoreLine ·)) := by
  rw [buildIgnorePkgConf, hlines, rebuildLines_skip hfront, rebuildLines, if_pos hline,
    rebuildLines_found, if_neg (by simp)]
  by_cases hnil : ignored = []
  · simp [directiveLines, hnil]
  · simp [directiveLines, hnil]

/-- The first match of a text that ends with the line. -/
theorem index_append_newline {part : Bytes} (hpart : newline ∉ part) (hne : part ≠ [])
    (line rest : Bytes) :
    (contains line part = true →
      ∃ i ≤ line.length, index part (line ++ newline :: rest) = some i) ∧
    (contains line part = false →
      index part (line ++ newline :: rest) = (index part rest).map (· + (line.length + 1))) := by
  have hshort : ∀ l : Bytes, part <+: l ++ newline :: rest → part <+: l := by
    intro l hstart
    by_cases hlength : part.length ≤ l.length
    · exact prefix_of_prefix_length_le hstart (prefix_append _ _) hlength
    · have hover : l ++ [newline] <+: part :=
        prefix_of_prefix_length_le ⟨rest, by simp⟩ hstart (by simp; omega)
      exact absurd (hover.subset (by simp)) hpart
  induction line with
  | nil =>
    have hnot : part.isPrefixOf (newline :: rest) = false := by
      rw [Bool.eq_false_iff, ne_eq, isPrefixOf_iff_prefix]
      intro hstart
      exact hne (prefix_nil.mp (hshort [] hstart))
    constructor
    · intro hin
      have hnil : part.isPrefixOf [] = true := by simpa [contains] using hin
      rw [ isPrefixOf_iff_prefix, prefix_nil] at hnil
      exact absurd hnil hne
    · intro _
      rw [nil_append, index, hnot]
      rfl
  | cons b line ih =>
    rw [cons_append, index]
    have htails : contains (b :: line) part =
        (part.isPrefixOf (b :: line) || contains line part) := by
      simp [contains, tails]
    by_cases hstart : part.isPrefixOf (b :: (line ++ newline :: rest)) = true
    · rw [if_pos hstart]
      refine ⟨fun _ => ⟨0, Nat.zero_le _, rfl⟩, ?_⟩
      intro hin
      rw [ isPrefixOf_iff_prefix, ← cons_append] at hstart
      rw [htails, isPrefixOf_iff_prefix.mpr (hshort _ hstart)] at hin
      cases hin
    · have hnot : part.isPrefixOf (b :: line) = false := by
        rw [Bool.eq_false_iff, ne_eq, isPrefixOf_iff_prefix]
        intro hin
        exact hstart ( isPrefixOf_iff_prefix.mpr (hin.trans ⟨newline :: rest, by simp⟩))
      rw [if_neg hstart, htails, hnot, Bool.false_or]
      constructor
      · intro hin
        rcases ih.1 hin with ⟨i, hi, hindex⟩
        exact ⟨i + 1, by simpa using hi, by rw [hindex]; rfl⟩
      · intro hin
        rw [ih.2 hin, Option.map_map]
        rfl

theorem index_newline (hline : newline ∉ line) (rest : Bytes) :
    index [newline] (line ++ newline :: rest) = some line.length := by
  induction line with
  | nil => simp [index]
  | cons b line ih =>
    rw [mem_cons, not_or] at hline
    rw [cons_append, index, ih hline.2, if_neg (by simpa using hline.1)]
    rfl

/-- The insertion adds a line after the first one that mentions the section. -/
theorem insertDirective_unlines (ignored : List Bytes) (h : ∀ l ∈ lines, newline ∉ l) :
    insertDirective ignored (unlines newline lines) =
      unlines newline (insertLine (directiveLine ignored) lines) := by
  induction lines with
  | nil => rw [insertDirective, unlines_nil]; rfl
  | cons line lines ih =>
    have hline := h line mem_cons_self
    have hrest := ih (forall_mem_cons.mp h).2
    have hindex := index_append_newline (show newline ∉ optionsHeader by decide)
      (by decide) line (unlines newline lines)
    rw [unlines_cons, insertLine]
    cases hin : contains line optionsHeader with
    | true =>
      rcases hindex.1 hin with ⟨i, hi, hfound⟩
      have hdrop : (line ++ newline :: unlines newline lines).drop i =
          line.drop i ++ newline :: unlines newline lines :=
        drop_append_of_le_length hi
      have hend : i + (line.drop i).length + 1 = (line ++ [newline]).length := by
        rw [length_drop, length_append, length_singleton]
        omega
      have hcontent : line ++ newline :: unlines newline lines =
          (line ++ [newline]) ++ unlines newline lines := by simp
      rw [insertDirective, hfound]
      dsimp only
      rw [hdrop, index_newline fun hmem => hline (mem_of_mem_drop hmem)]
      dsimp only
      rw [hend, hcontent, take_left, drop_left]
      simp
    | false =>
      rw [if_neg (by simp), unlines_cons, ← hrest, insertDirective, insertDirective, hindex.2 hin]
      have hcontent : line ++ newline :: unlines newline lines =
          (line ++ [newline]) ++ unlines newline lines := by simp
      have hshift : ∀ i, i + (line.length + 1) = (line ++ [newline]).length + i := by
        intro i
        rw [length_append, length_singleton]
        omega
      cases index optionsHeader (unlines newline lines) with
      | none => rfl
      | some i =>
        dsimp only [Option.map_some]
        rw [hshift, hcontent, drop_length_add_append]
        cases index [newline] ((unlines newline lines).drop i) with
        | none => simp
        | some n =>
          dsimp only
          rw [Nat.add_assoc, Nat.add_assoc, take_length_add_append, drop_length_add_append]
          simp [Nat.add_assoc]

/-! ## Sections -/

/-- The lines that the code takes for directives: whether they are in the section
`options`, and their packages. -/
def ignoreLines (inside : Bool) : List Bytes → List (Bool × List Bytes)
  | [] => []
  | line :: rest =>
    (if isIgnoreLine line then [(inside, fields (valueOf line))] else []) ++
      ignoreLines (inOptions inside [line]) rest

theorem inOptions_append (inside : Bool) (front rest : List Bytes) :
    inOptions inside (front ++ rest) = inOptions (inOptions inside front) rest := by
  induction front generalizing inside with
  | nil => rfl
  | cons line front ih => exact ih _

theorem isDirective_eq_false (h : isIgnoreLine line = false) : isDirective line = false := by
  by_contra hdir
  simp [isIgnoreLine_of_isDirective (by simpa using hdir)] at h

theorem honoured_cons (inside : Bool) (line : Bytes) (rest : List Bytes) :
    honoured inside (line :: rest) =
      (if inside && isDirective line then fields (valueOf line) else []) ++
        honoured (inOptions inside [line]) rest := by
  rw [honoured, inOptions, inOptions]
  cases hsection : sectionOf line with
  | none => rfl
  | some name =>
    have hnot : isIgnoreLine line = false := by
      by_contra hignore
      rw [sectionOf_of_isIgnoreLine (by simpa using hignore)] at hsection
      cases hsection
    simp [isDirective_eq_false hnot]

theorem honoured_append (inside : Bool) (front rest : List Bytes) :
    honoured inside (front ++ rest) =
      honoured inside front ++ honoured (inOptions inside front) rest := by
  induction front generalizing inside with
  | nil => rfl
  | cons line front ih =>
    rw [cons_append, honoured_cons, ih, honoured_cons, append_assoc, ← inOptions_append]
    rfl

theorem ignoreLines_append (inside : Bool) (front rest : List Bytes) :
    ignoreLines inside (front ++ rest) =
      ignoreLines inside front ++ ignoreLines (inOptions inside front) rest := by
  induction front generalizing inside with
  | nil => rfl
  | cons line front ih =>
    rw [cons_append, ignoreLines, ih, ignoreLines, append_assoc, ← inOptions_append]
    rfl

/-- Lines without directives give no packages. -/
theorem ignoreLines_eq_nil :
    ignoreLines inside lines = [] ↔ ∀ line ∈ lines, isIgnoreLine line = false := by
  induction lines generalizing inside with
  | nil => simp [ignoreLines]
  | cons line lines ih =>
    rw [ignoreLines, append_eq_nil_iff, ih, forall_mem_cons]
    cases isIgnoreLine line <;> simp

theorem honoured_of_plain (h : ∀ line ∈ lines, isIgnoreLine line = false) :
    honoured inside lines = [] := by
  induction lines generalizing inside with
  | nil => rfl
  | cons line lines ih =>
    rw [honoured_cons, ih (forall_mem_cons.mp h).2, isDirective_eq_false (h line mem_cons_self)]
    simp

/-- The code reads the packages of all sections. -/
theorem flatMap_lineIgnored (inside : Bool) (lines : List Bytes) :
    lines.flatMap lineIgnored = (ignoreLines inside lines).flatMap Prod.snd := by
  induction lines generalizing inside with
  | nil => rfl
  | cons line lines ih =>
    rw [flatMap_cons, ih (inOptions inside [line]), ignoreLines, flatMap_append, lineIgnored_eq]
    cases isIgnoreLine line <;> simp

/-- Every line that the code takes for a directive is one. -/
def AllDirectives (lines : List Bytes) : Prop :=
  ∀ line ∈ lines, isIgnoreLine line = true → isDirective line = true

/-- What pacman honours is what the code reads inside of the section. -/
theorem mem_honoured_iff (h : AllDirectives lines) :
    p ∈ honoured inside lines ↔ ∃ d ∈ ignoreLines inside lines, d.1 = true ∧ p ∈ d.2 := by
  induction lines generalizing inside with
  | nil => simp [honoured, ignoreLines]
  | cons line lines ih =>
    have hline := h line mem_cons_self
    rw [honoured_cons, mem_append, ih (forall_mem_cons.mp h).2, ignoreLines]
    have hsame : isDirective line = isIgnoreLine line := by
      rw [Bool.eq_iff_iff]
      exact ⟨isIgnoreLine_of_isDirective, hline⟩
    rw [hsame]
    cases isIgnoreLine line <;> cases inside <;> simp

/-! ## The text afterwards -/

/-- What is read from a text with one directive. -/
theorem read_written (h : ∀ name ∈ ignored, Writable name)
    (hfront : ∀ l ∈ front, isIgnoreLine l = false) (hrest : ∀ l ∈ rest, isIgnoreLine l = false)
    (hends : ∀ l ∈ front ++ rest, newline ∉ l)
    (hout : out = unlines newline (front ++ directiveLines ignored ++ rest)) :
    (∀ p, p ∈ honoured false (newLineScanner out) ↔
      inOptions false front = true ∧ p ∈ ignored) ∧
    (newLineScanner out).filter (! isDirective ·) = front ++ rest ∧
    getIgnoredPackages out = ignored := by
  have hreads := directiveLine_reads h
  have hlines : newLineScanner out = front ++ directiveLines ignored ++ rest := by
    rw [newLineScanner_eq, hout, lines_unlines]
    intro l hl
    rw [mem_append, mem_append] at hl
    rcases hl with (hl | hl) | hl
    · exact hends l (mem_append_left _ hl)
    · rw [directiveLines] at hl
      split at hl
      · cases hl
      · rw [mem_singleton.mp hl]
        exact newline_not_mem_directiveLine h
    · exact hends l (mem_append_right _ hl)
  have hkeep : ∀ ls : List Bytes, (∀ l ∈ ls, isIgnoreLine l = false) →
      ls.filter (! isDirective ·) = ls := by
    intro ls hls
    rw [filter_eq_self]
    intro l hl
    simp [isDirective_eq_false (hls l hl)]
  have hmiddle : ∀ inside, honoured inside (directiveLines ignored) =
      if inside then ignored else [] := by
    intro inside
    by_cases hnil : ignored = []
    · simp [directiveLines, hnil, honoured]
    · rw [directiveLines, if_neg hnil, honoured_cons, hreads.1, hreads.2]
      cases inside <;> simp [honoured]
  have hcode : (directiveLines ignored).flatMap lineIgnored = ignored := by
    by_cases hnil : ignored = []
    · simp [directiveLines, hnil]
    · rw [directiveLines, if_neg hnil, flatMap_singleton, lineIgnored_eq,
        if_pos (isIgnoreLine_of_isDirective hreads.1), hreads.2]
  refine ⟨?_, ?_, ?_⟩
  · intro p
    rw [hlines, honoured_append, honoured_append, honoured_of_plain hfront,
      honoured_of_plain hrest, hmiddle, nil_append, append_nil]
    cases inOptions false front <;> simp
  · rw [hlines, filter_append, filter_append, hkeep front hfront, hkeep rest hrest]
    have hnone : (directiveLines ignored).filter (! isDirective ·) = [] := by
      by_cases hnil : ignored = []
      · simp [directiveLines, hnil]
      · simp [directiveLines, hnil, hreads.1]
    rw [hnone, append_nil]
  · have hcodeless : ∀ ls : List Bytes, (∀ l ∈ ls, isIgnoreLine l = false) →
        ls.flatMap lineIgnored = [] := by
      intro ls hls
      rw [flatMap_lineIgnored false, ignoreLines_eq_nil.mpr hls]
      rfl
    rw [getIgnoredPackages, hlines, flatMap_append, flatMap_append,
      hcodeless front hfront, hcodeless rest hrest, hcode, nil_append, append_nil]

/-- A trimmed text is a part of the text. -/
theorem trimSpace_part (s : Bytes) : trimSpace s <:+: s := by
  rcases dropWhile_suffix (l := spaces.mark s) Prod.snd with ⟨front, hfront⟩
  rcases rdropWhile_prefix Prod.snd ((spaces.mark s).dropWhile Prod.snd) with ⟨back, hback⟩
  refine ⟨front.map Prod.fst, back.map Prod.fst, ?_⟩
  rw [trimSpace, trim, ← map_append, ← map_append, append_assoc, hback, hfront, map_fst_mark]

theorem contains_of_part {s part : Bytes} (h : part <:+: s) : contains s part = true := by
  rcases h with ⟨front, back, hs⟩
  rw [contains, any_eq_true]
  refine ⟨part ++ back, (mem_tails _ _).mpr ⟨front, by rw [← hs, append_assoc]⟩, ?_⟩
  rw [ isPrefixOf_iff_prefix]
  exact prefix_append _ _

/-- The header of the section is a line that mentions it. -/
theorem contains_of_directiveText (h : directiveText line = optionsHeader) :
    contains line optionsHeader = true := by
  refine contains_of_part ?_
  rw [← h]
  exact (trimSpace_part _).trans ⟨[], line.dropWhile (· ≠ 35), takeWhile_append_dropWhile⟩

theorem directiveText_of_section (h : sectionOf line = some (textBytes "options")) :
    directiveText line = optionsHeader := by
  simp only [sectionOf] at h
  split at h
  case isFalse => cases h
  case isTrue hbrackets =>
    rw [Option.some.injEq] at h
    cases htext : directiveText line with
    | nil => rw [htext] at hbrackets; cases hbrackets.1
    | cons b text =>
      rw [htext, head?_cons, Option.some.injEq] at hbrackets
      rw [htext, tail_cons] at h
      cases text using reverseRecOn with
      | nil => exact absurd h (by decide)
      | append_singleton text c =>
        rw [dropLast_concat] at h
        have hlast := hbrackets.2
        rw [← cons_append, getLast?_concat, Option.some.injEq] at hlast
        rw [hbrackets.1, h, hlast]
        decide

theorem inOptions_of_no_header (h : ∀ l ∈ lines, contains l optionsHeader = false) :
    inOptions false lines = false := by
  induction lines with
  | nil => rfl
  | cons line lines ih =>
    have hline := h line mem_cons_self
    have hrest := ih (forall_mem_cons.mp h).2
    rw [inOptions]
    cases hsection : sectionOf line with
    | none => exact hrest
    | some name =>
      have hname : (name == textBytes "options") = false := by
        rw [beq_eq_false_iff_ne]
        rintro rfl
        rw [contains_of_directiveText (directiveText_of_section hsection)] at hline
        cases hline
      dsimp only
      rw [hname]
      exact hrest

theorem insertLine_append {l : Bytes} (hfront : ∀ x ∈ front, contains x optionsHeader = false)
    (hl : contains l optionsHeader = true) :
    insertLine line (front ++ l :: rest) = front ++ l :: line :: rest := by
  induction front with
  | nil => rw [nil_append, insertLine, if_pos hl]; rfl
  | cons x front ih =>
    rw [cons_append, insertLine, hfront x mem_cons_self, if_neg (by simp),
      ih (forall_mem_cons.mp hfront).2, cons_append]

/-- The line at which the written directive stands: the lines before and after it. -/
theorem written_place (ignored : List Bytes) (hopts : hasPacmanOptionsSection conf = true) :
    ∃ front rest, (∀ l ∈ front, isIgnoreLine l = false) ∧ (∀ l ∈ rest, isIgnoreLine l = false) ∧
      (∀ l ∈ front ++ rest, newline ∉ l) ∧
      front ++ rest = (newLineScanner conf).filter (! isIgnoreLine ·) ∧
      buildIgnorePkgConf conf ignored =
        unlines newline (front ++ directiveLines ignored ++ rest) ∧
      match ignoreLines false (newLineScanner conf) with
      | [] => (inOptions false front = true ↔
          ((newLineScanner conf).find? (contains · optionsHeader)).bind sectionOf =
            some (textBytes "options"))
      | first :: _ => first.1 = inOptions false front := by
  have hends : ∀ l ∈ newLineScanner conf, newline ∉ l := by
    rw [newLineScanner_eq]
    exact fun l hl => not_mem_of_mem_lines hl
  by_cases hnone : ∀ l ∈ newLineScanner conf, isIgnoreLine l = false
  · -- no directive: it goes after the first line that mentions the section
    rw [hasPacmanOptionsSection, any_eq_true] at hopts
    rcases hopts with ⟨header, hheader, htext⟩
    have hfind : ((newLineScanner conf).find? (contains · optionsHeader)).isSome = true :=
      find?_isSome.mpr ⟨header, hheader, contains_of_directiveText (beq_iff_eq.mp htext)⟩
    rcases Option.isSome_iff_exists.mp hfind with ⟨l, hl⟩
    rcases find?_eq_some_iff_append.mp hl with ⟨hcontains, front, rest, hlines, hbefore⟩
    have hbefore' : ∀ x ∈ front, contains x optionsHeader = false :=
      fun x hx => by simpa using hbefore x hx
    have hskip : rebuildLines ignored false (newLineScanner conf ++ []) = _ :=
      rebuildLines_skip hnone []
    rw [append_nil] at hskip
    have hsame : (front ++ [l]) ++ rest = newLineScanner conf := by rw [hlines]; simp
    refine ⟨front ++ [l], rest, ?_, ?_, ?_, ?_, ?_, ?_⟩
    · exact fun x hx => hnone x (hsame ▸ mem_append_left _ hx)
    · exact fun x hx => hnone x (hsame ▸ mem_append_right _ hx)
    · rw [hsame]
      exact hends
    · rw [hsame, filter_eq_self.mpr fun x hx => by simp [hnone x hx]]
    · rw [buildIgnorePkgConf, hskip]
      by_cases hnil : ignored = []
      · simp [hnil, directiveLines, rebuildLines, hsame]
      · simp only [rebuildLines, append_nil, Bool.false_eq_true, not_false_eq_true, true_and,
          ne_eq, hnil, if_true]
        rw [insertDirective_unlines _ hends, hlines, insertLine_append hbefore' hcontains,
          directiveLines, if_neg hnil]
        simp
    · rw [ignoreLines_eq_nil.mpr hnone, inOptions_append, inOptions_of_no_header hbefore', hl]
      dsimp only [Option.bind_some]
      rw [inOptions, inOptions]
      cases hsection : sectionOf l with
      | none => simp
      | some name => simp
  · -- the first directive is replaced
    have hsome : ((newLineScanner conf).find? isIgnoreLine).isSome = true := by
      rw [find?_isSome]
      by_contra hno
      refine hnone fun l hl => ?_
      by_contra hline
      exact hno ⟨l, hl, by simpa using hline⟩
    rcases Option.isSome_iff_exists.mp hsome with ⟨line, hfound⟩
    rcases find?_eq_some_iff_append.mp hfound with ⟨hline, front, rest, hlines, hbefore⟩
    have hfront : ∀ x ∈ front, isIgnoreLine x = false := fun x hx => by simpa using hbefore x hx
    refine ⟨front, rest.filter (! isIgnoreLine ·), hfront, ?_, ?_, ?_,
      buildIgnorePkgConf_found hlines hfront hline ignored, ?_⟩
    · exact fun x hx => by simpa using (mem_filter.mp hx).2
    · intro x hx
      refine hends x ?_
      rw [hlines]
      rcases mem_append.mp hx with hx | hx
      · exact mem_append_left _ hx
      · exact mem_append_right _ (mem_cons_of_mem _ (mem_filter.mp hx).1)
    · have hkeep : front.filter (! isIgnoreLine ·) = front :=
        filter_eq_self.mpr fun x hx => by simp [hfront x hx]
      rw [hlines, filter_append, filter_cons_of_neg (by simp [hline]), hkeep]
    · rw [hlines, ignoreLines_append, ignoreLines_eq_nil.mpr hfront, ignoreLines, if_pos hline]
      rfl

/-! ## When pinning is right -/

/-- What pacman honours in a text. -/
def honouredBy (conf : Bytes) : List Bytes :=
  honoured false (newLineScanner conf)

/-- No line other than the directives is lost or changed. -/
def LinesKept (conf out : Bytes) : Prop :=
  (newLineScanner out).filter (! isDirective ·) = (newLineScanner conf).filter (! isDirective ·)

/-- The packages are pinned and nothing else changes. -/
def PinnedRight (conf : Bytes) (packages : List Bytes) (out : Bytes) : Prop :=
  (∀ p, p ∈ honouredBy out ↔ p ∈ honouredBy conf ∨ p ∈ packages) ∧ LinesKept conf out ∧
    ∀ name ∈ packages, pacmanIsPinned out name = .ok true

/-- The packages are not pinned any more and nothing else changes. -/
def UnpinnedRight (conf : Bytes) (packages : List Bytes) (out : Bytes) : Prop :=
  (∀ p, p ∈ honouredBy out ↔ p ∈ honouredBy conf ∧ p ∉ packages) ∧ LinesKept conf out ∧
    ∀ name ∈ packages, pacmanIsPinned out name = .ok false

/-- The packages of directives outside of the section are honoured anyway or among the names. -/
def OutsideCovered (conf : Bytes) (packages : List Bytes) : Prop :=
  ∀ d ∈ ignoreLines false (newLineScanner conf), d.1 = false →
    ∀ p ∈ d.2, p ∈ honouredBy conf ∨ p ∈ packages

/-- The texts for which `Pin` is right: all lines that start with the keyword are
directives; the first one is in the section, or, if there is none, the first line that mentions
the section is its header. -/
def PinCondition (conf : Bytes) (packages : List Bytes) : Prop :=
  packages = [] ∨ AllDirectives (newLineScanner conf) ∧
    match ignoreLines false (newLineScanner conf) with
    | [] => ((newLineScanner conf).find? (contains · optionsHeader)).bind sectionOf =
        some (textBytes "options")
    | first :: _ => first.1 = true ∧ OutsideCovered conf packages

/-- The texts for which `Unpin` is right. -/
def UnpinCondition (conf : Bytes) (packages : List Bytes) : Prop :=
  packages = [] ∨ AllDirectives (newLineScanner conf) ∧
    match ignoreLines false (newLineScanner conf) with
    | [] => True
    | first :: _ => if first.1 then OutsideCovered conf packages
        else ∀ p ∈ honouredBy conf, p ∈ packages

theorem linesKept_iff (h : (newLineScanner out).filter (! isDirective ·) =
      (newLineScanner conf).filter (! isIgnoreLine ·)) :
    LinesKept conf out ↔ AllDirectives (newLineScanner conf) := by
  rw [LinesKept, h]
  constructor
  · intro hsame l hl hignore
    by_contra hdir
    have hmem : l ∈ (newLineScanner conf).filter (! isDirective ·) :=
      mem_filter.mpr ⟨hl, by simpa using hdir⟩
    rw [← hsame] at hmem
    have hnot := (mem_filter.mp hmem).2
    simp [hignore] at hnot
  · intro hall
    refine filter_congr fun l hl => ?_
    rw [Bool.not_inj_iff, Bool.eq_iff_iff]
    exact ⟨hall l hl, isIgnoreLine_of_isDirective⟩

theorem mem_addMissing : p ∈ addMissing ignored packages ↔ p ∈ ignored ∨ p ∈ packages := by
  induction packages generalizing ignored with
  | nil => simp [addMissing]
  | cons name packages ih =>
    rw [addMissing, ih, mem_cons]
    by_cases hin : ignored.contains name = true
    · rw [if_pos hin]
      grind
    · rw [if_neg hin, mem_append, mem_singleton]
      tauto

theorem mem_getIgnoredPackages :
    p ∈ getIgnoredPackages conf ↔
      ∃ d ∈ ignoreLines false (newLineScanner conf), p ∈ d.2 := by
  rw [getIgnoredPackages, flatMap_lineIgnored false, mem_flatMap]

section AllDirectives

variable (hall : AllDirectives (newLineScanner conf))
include hall

theorem mem_ignored_of_honoured (h : p ∈ honouredBy conf) : p ∈ getIgnoredPackages conf := by
  rcases (mem_honoured_iff hall).mp h with ⟨d, hd, -, hp⟩
  exact mem_getIgnoredPackages.mpr ⟨d, hd, hp⟩

theorem outsideCovered_iff : OutsideCovered conf packages ↔
    ∀ p ∈ getIgnoredPackages conf, p ∈ honouredBy conf ∨ p ∈ packages := by
  simp only [mem_getIgnoredPackages]
  constructor
  · rintro h p ⟨d, hd, hp⟩
    cases hinside : d.1 with
    | true => exact .inl ((mem_honoured_iff hall).mpr ⟨d, hd, hinside, hp⟩)
    | false => exact h d hd hinside p hp
  · exact fun h d hd _ p hp => h p ⟨d, hd, hp⟩

end AllDirectives

theorem validatePacmanNames_eq_ok {names : List Bytes} {u : Unit} :
    validatePacmanNames names = .ok u ↔ ∀ name ∈ names, validPacmanPkgName name = true := by
  induction names with
  | nil => simp [validatePacmanNames]
  | cons name names ih =>
    rw [validatePacmanNames, ite_error_eq_ok, ih, forall_mem_cons, not_not]

theorem writable_getIgnoredPackages (h : p ∈ getIgnoredPackages conf) : Writable p := by
  rcases mem_flatMap.mp h with ⟨line, -, hp⟩
  exact writable_of_lineIgnored hp

/-- What is read from the text that is written. -/
theorem writeIgnorePkg_ok (hignored : ∀ p ∈ ignored, Writable p)
    (h : writeIgnorePkg conf ignored = .ok out) :
    ∃ inside, (∀ p, p ∈ honouredBy out ↔ inside = true ∧ p ∈ ignored) ∧
      (LinesKept conf out ↔ AllDirectives (newLineScanner conf)) ∧
      getIgnoredPackages out = ignored ∧
      match ignoreLines false (newLineScanner conf) with
      | [] => (inside = true ↔
          ((newLineScanner conf).find? (contains · optionsHeader)).bind sectionOf =
            some (textBytes "options"))
      | first :: _ => first.1 = inside := by
  simp [writeIgnorePkg] at h
  rcases written_place ignored h.1 with
    ⟨front, rest, hfront, hrest, hends, hsame, hout, hinside⟩
  rcases read_written hignored hfront hrest hends (h.2.symm.trans hout) with ⟨hhon, hkept, hcode⟩
  exact ⟨_, hhon, linesKept_iff (hkept.trans hsame), hcode, hinside⟩

theorem pacmanIsPinned_of_name {name : Bytes} (hname : rePackageName name = true) {b : Bool} :
    pacmanIsPinned out name = .ok b ↔ (getIgnoredPackages out).contains name = b := by
  have haccepted : packageName name = .ok () := matchGrammar_eq_ok.mpr hname
  rw [pacmanIsPinned, haccepted]
  change Except.ok _ = Except.ok b ↔ _
  rw [Except.ok.injEq]

/-- `Pin` is right exactly for the texts of `PinCondition`. -/
theorem pacman_pin_iff (h : pin conf packages = .ok out) :
    PinnedRight conf packages out ↔ PinCondition conf packages := by
  simp only [pin, bind_eq_ok, validatePackageNames_eq_ok] at h
  rcases h with ⟨_, hnames, h⟩
  by_cases hnil : packages = []
  · rw [if_pos hnil, Except.ok.injEq] at h
    rw [← h, PinCondition, hnil]
    simp [PinnedRight, LinesKept]
  simp only [hnil, if_false, bind_eq_ok, validatePacmanNames_eq_ok] at h
  rcases h with ⟨_, hstrict, h⟩
  have hwritable : ∀ p ∈ addMissing (getIgnoredPackages conf) packages, Writable p := by
    intro p hp
    rcases mem_addMissing.mp hp with hp | hp
    · exact writable_getIgnoredPackages hp
    · exact writable_of_grammar (hstrict p hp) (by decide +kernel)
  rcases writeIgnorePkg_ok hwritable h with ⟨inside, hhon, hkept, hcode, hinside⟩
  have hpinned : ∀ name ∈ packages, pacmanIsPinned out name = .ok true := by
    intro name hname
    rw [pacmanIsPinned_of_name (hnames name hname), hcode, contains_iff_mem]
    exact mem_addMissing.mpr (.inr hname)
  rcases exists_mem_of_ne_nil packages hnil with ⟨name, hname⟩
  rw [PinnedRight, PinCondition, hkept]
  simp only [hhon, mem_addMissing, hnil, false_or]
  constructor
  · rintro ⟨hsets, hall, -⟩
    refine ⟨hall, ?_⟩
    have htrue : inside = true := ((hsets name).mpr (.inr hname)).1
    cases hlines : ignoreLines false (newLineScanner conf) with
    | nil => rw [hlines] at hinside; exact hinside.mp htrue
    | cons first others =>
      rw [hlines] at hinside
      exact ⟨hinside.trans htrue,
        (outsideCovered_iff hall).mpr fun p hp => (hsets p).mp ⟨htrue, .inl hp⟩⟩
  · rintro ⟨hall, hcond⟩
    refine ⟨fun p => ?_, hall, hpinned⟩
    have hcovered : inside = true ∧ OutsideCovered conf packages := by
      cases hlines : ignoreLines false (newLineScanner conf) with
      | nil =>
        rw [hlines] at hinside hcond
        refine ⟨hinside.mpr hcond, ?_⟩
        rw [OutsideCovered, hlines]
        exact forall_mem_nil _
      | cons first others =>
        rw [hlines] at hinside hcond
        exact ⟨hinside.symm.trans hcond.1, hcond.2⟩
    rw [outsideCovered_iff hall] at hcovered
    have hkeeps := mem_ignored_of_honoured hall (p := p)
    have hgains := hcovered.2 p
    tauto

/-- `Unpin` is right exactly for the texts of `UnpinCondition`. -/
theorem pacman_unpin_iff (h : unpin conf packages = .ok out) :
    UnpinnedRight conf packages out ↔ UnpinCondition conf packages := by
  simp only [unpin, bind_eq_ok, validatePackageNames_eq_ok] at h
  rcases h with ⟨_, hnames, h⟩
  by_cases hnil : packages = []
  · rw [if_pos hnil, Except.ok.injEq] at h
    rw [← h, UnpinCondition, hnil]
    simp [UnpinnedRight, LinesKept]
  rw [if_neg hnil] at h
  have hkeep : ∀ p, p ∈ (getIgnoredPackages conf).filter (fun name => ! packages.contains name) ↔
      p ∈ getIgnoredPackages conf ∧ p ∉ packages := by
    simp
  rcases writeIgnorePkg_ok (fun p hp => writable_getIgnoredPackages (mem_filter.mp hp).1) h
    with ⟨inside, hhon, hkept, hcode, hinside⟩
  have hunpinned : ∀ name ∈ packages, pacmanIsPinned out name = .ok false := by
    intro name hname
    rw [pacmanIsPinned_of_name (hnames name hname), hcode, Bool.eq_false_iff, ne_eq,
      contains_iff_mem, hkeep]
    exact fun hin => hin.2 hname
  rw [UnpinnedRight, UnpinCondition, hkept]
  simp only [hhon, hkeep, hnil, false_or]
  constructor
  · rintro ⟨hsets, hall, -⟩
    refine ⟨hall, ?_⟩
    cases hlines : ignoreLines false (newLineScanner conf) with
    | nil => exact trivial
    | cons first others =>
      rw [hlines] at hinside
      dsimp only at hinside ⊢
      rw [hinside, outsideCovered_iff hall]
      cases inside with
      | true =>
        intro p hp
        have hset := hsets p
        tauto
      | false =>
        intro p hp
        by_contra hmem
        cases ((hsets p).mpr ⟨hp, hmem⟩).1
  · rintro ⟨hall, hcond⟩
    refine ⟨fun p => ?_, hall, hunpinned⟩
    have hkeeps := mem_ignored_of_honoured hall (p := p)
    cases hlines : ignoreLines false (newLineScanner conf) with
    | nil =>
      have hnone : p ∉ getIgnoredPackages conf := by
        rw [mem_getIgnoredPackages, hlines]
        rintro ⟨_, hd, -⟩
        cases hd
      tauto
    | cons first others =>
      rw [hlines] at hinside hcond
      dsimp only at hinside hcond
      rw [hinside, outsideCovered_iff hall] at hcond
      cases inside with
      | true =>
        have hgains := hcond p
        tauto
      | false =>
        tauto

/-- Pinning and unpinning are right exactly for the texts of the two conditions. -/
theorem pacman_pinning_iff (conf : Bytes) (packages : List Bytes) :
    (∀ out, pin conf packages = .ok out →
      (PinnedRight conf packages out ↔ PinCondition conf packages)) ∧
    ∀ out, unpin conf packages = .ok out →
      (UnpinnedRight conf packages out ↔ UnpinCondition conf packages) :=
  ⟨fun _ h => pacman_pin_iff h, fun _ h => pacman_unpin_iff h⟩

/-- A directive outside of the section: the pinned package is not honoured. -/
theorem pin_outside_options :
    pin (textBytes "[core]\nIgnorePkg = a\n[options]\n") [textBytes "b"] =
      .ok (textBytes "[core]\nIgnorePkg = a b\n[options]\n") ∧
    honouredBy (textBytes "[core]\nIgnorePkg = a b\n[options]\n") = [] ∧
    ¬ PinnedRight (textBytes "[core]\nIgnorePkg = a\n[options]\n") [textBytes "b"]
      (textBytes "[core]\nIgnorePkg = a b\n[options]\n") := by
  have hnone : honouredBy (textBytes "[core]\nIgnorePkg = a b\n[options]\n") = [] := by
    decide
  refine ⟨by decide, hnone, ?_⟩
  intro hright
  have hb := (hright.1 (textBytes "b")).mpr (.inr (mem_singleton.mpr rfl))
  rw [hnone] at hb
  cases hb

/-- A text with its directive in the section. -/
theorem pacman_pinning_in_options :
    PinnedRight (textBytes "[options]\nIgnorePkg = a\n") [textBytes "b"]
        (textBytes "[options]\nIgnorePkg = a b\n") ∧
      UnpinnedRight (textBytes "[options]\nIgnorePkg = a b\n") [textBytes "b"]
        (textBytes "[options]\nIgnorePkg = a\n") := by
  constructor
  · refine ((pacman_pinning_iff _ _).1 _ (by decide +kernel)).mpr (.inr ?_)
    have hlines : ignoreLines false (newLineScanner (textBytes "[options]\nIgnorePkg = a\n")) =
        [(true, [textBytes "a"])] := by decide +kernel
    rw [hlines, OutsideCovered, hlines, AllDirectives]
    decide
  · refine ((pacman_pinning_iff _ _).2 _ (by decide)).mpr (.inr ?_)
    have hlines : ignoreLines false (newLineScanner (textBytes "[options]\nIgnorePkg = a b\n")) =
        [(true, [textBytes "a", textBytes "b"])] := by decide
    rw [hlines, OutsideCovered, hlines, AllDirectives]
    decide

end PowerManage.Pkg
