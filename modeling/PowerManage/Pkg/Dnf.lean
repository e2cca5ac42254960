import PowerManage.Pkg.Names
import PowerManage.Relational.Program

/-!
# Version locks of dnf

The versionlock plugin prints one line `name-[epoch:]version-release[.arch]` for each
lock.  Both `IsPinned` and `List` take the text before the first dash that is followed
by a digit as the name.

Main results:

- `parseNEVRAName_line`: which name is read from the line of a lock.
- `version_locks_iff`: for which lists of locks every name is reported right.
-/

namespace PowerManage.Pkg

open List
open Exec (newline)
open Utf8 (textBytes)

def dash : UInt8 := 45

/-! ## Reading -/

/-- The position of the first match of `nevraVersionRe`, a dash and a digit. -/
def nevraVersionIndex : Bytes → Option Nat
  | [] => none
  | b :: s =>
    if b = dash ∧ s.head?.any digit then some 0 else (nevraVersionIndex s).map (· + 1)

def parseNEVRAName (nevra : Bytes) : Bytes :=
  match nevraVersionIndex nevra with
  | none => nevra
  | some loc => nevra.take loc

/-- The text in which the lines of a listing are looked up. -/
def lockLines (out : Bytes) : List Bytes :=
  ((newLineScanner out).map trimSpace).filter (! ·.isEmpty)

/-- `dnf.IsPinned`, from what the plugin prints; there is nothing if it is absent. -/
def dnfIsPinned (name : Bytes) (listing : Option Bytes) : Except PkgError Bool := do
  packageName name
  match listing with
  | none => .ok false
  | some out => .ok ((lockLines out).any fun line => parseNEVRAName line == name)

/-- The keys of `dnf.getPinnedSet`. -/
def dnfPinnedSet (listing : Option Bytes) : List Bytes :=
  match listing with
  | none => []
  | some out => (lockLines out).map parseNEVRAName

/-! ## Locks -/

/-- Visible ASCII symbols only. -/
def Visible (s : Bytes) : Prop :=
  ∀ b ∈ s, 33 ≤ b ∧ b < 127

instance (s : Bytes) : Decidable (Visible s) :=
  inferInstanceAs (Decidable (∀ b ∈ s, 33 ≤ b ∧ b < 127))

/-- A lock: a package with a name of the rpm grammar in one version. -/
structure Lock where
  name : Bytes
  epoch : Option Nat
  version : Bytes
  release : Bytes
  arch : Option Bytes
  nameAccepted : reRpmPackageName name = true
  versionVisible : Visible version ∧ version ≠ []
  releaseVisible : Visible release
  archVisible : ∀ a ∈ arch, Visible a

/-- `[epoch:]version-release[.arch]`. -/
def Lock.evr (l : Lock) : Bytes :=
  (match l.epoch with
    | none => []
    | some epoch => decimal epoch ++ textBytes ":") ++
  l.version ++ dash :: l.release ++
  match l.arch with
    | none => []
    | some arch => textBytes "." ++ arch

/-- The line of a lock. -/
def Lock.line (l : Lock) : Bytes :=
  l.name ++ dash :: l.evr

/-- What the plugin prints. -/
def lockListing (locks : List Lock) : Bytes :=
  Lines.unlines newline (locks.map Lock.line)

/-! ## The lines of a listing -/

theorem visible_append {s t : Bytes} (hs : Visible s) (ht : Visible t) : Visible (s ++ t) := by
  intro b hb
  rcases mem_append.mp hb with hb | hb
  · exact hs b hb
  · exact ht b hb

theorem visible_decimal (n : Nat) : Visible (decimal n) := by
  intro b hb
  have hdigit := digit_of_mem_decimal hb
  rw [digit, Bool.and_eq_true, decide_eq_true_eq, decide_eq_true_eq, UInt8.le_iff_toNat_le,
    UInt8.le_iff_toNat_le] at hdigit
  rw [UInt8.le_iff_toNat_le, UInt8.lt_iff_toNat_lt]
  have hlow : (33 : UInt8).toNat = 33 := rfl
  have hhigh : (127 : UInt8).toNat = 127 := rfl
  have hzero : (48 : UInt8).toNat = 48 := rfl
  have hnine : (57 : UInt8).toNat = 57 := rfl
  omega

theorem visible_of_alnum {b : UInt8} (h : alnum b = true) : 33 ≤ b ∧ b < 127 := by
  simp [alnum, UInt8.le_iff_toNat_le] at h
  rw [UInt8.le_iff_toNat_le, UInt8.lt_iff_toNat_lt]
  simp only [UInt8.reduceToNat] at h ⊢
  omega

theorem visible_of_rpmName {name : Bytes} (h : reRpmPackageName name = true) : Visible name := by
  intro b hb
  rcases mem_of_grammar h hb with hb | hb
  · exact visible_of_alnum hb
  · have hextra : ∀ c ∈ textBytes "._+-", 33 ≤ c ∧ c < 127 := by decide +kernel
    exact hextra b hb

theorem visible_evr (l : Lock) : Visible l.evr := by
  have hdash : Visible (dash :: l.release) :=
    visible_append (s := [dash]) (by decide +kernel) l.releaseVisible
  refine visible_append (visible_append (visible_append ?_ l.versionVisible.1) hdash) ?_
  · cases l.epoch with
    | none => exact fun _ hb => nomatch hb
    | some epoch => exact visible_append (visible_decimal epoch) (by decide +kernel)
  · cases harch : l.arch with
    | none => exact fun _ hb => nomatch hb
    | some arch =>
      exact visible_append (by decide +kernel) (l.archVisible arch (by rw [harch]; rfl))

theorem visible_line (l : Lock) : Visible l.line :=
  visible_append (visible_of_rpmName l.nameAccepted)
    (visible_append (s := [dash]) (by decide +kernel) (visible_evr l))

/-- Visible text has no blanks to trim. -/
theorem trimSpace_of_visible {s : Bytes} (h : Visible s) : trimSpace s = s := by
  refine BlankCode.trim_of_blankless (BlankCode.blankless_of_plain fun b hb => ?_)
  have hvisible := h b hb
  rw [UInt8.lt_iff_toNat_lt] at hvisible
  refine plain_of_ascii hvisible.1 ?_
  exact lt_trans hvisible.2 (by decide)

/-- The plugin prints the lines that are looked up. -/
theorem lockLines_listing (locks : List Lock) :
    lockLines (lockListing locks) = locks.map Lock.line := by
  have hlines : ∀ line ∈ locks.map Lock.line, newline ∉ line := by
    intro line hline hmem
    rcases mem_map.mp hline with ⟨l, -, hl⟩
    rw [← hl] at hmem
    exact absurd (visible_line l newline hmem).1 (by decide)
  rw [lockLines, newLineScanner_eq, lockListing, Lines.lines_unlines hlines, map_map]
  have htrim : ∀ l ∈ locks, (trimSpace ∘ Lock.line) l = l.line :=
    fun l _ => trimSpace_of_visible (visible_line l)
  rw [map_congr_left htrim, filter_eq_self]
  intro line hline
  rcases mem_map.mp hline with ⟨l, -, hl⟩
  rw [← hl]
  simp [Lock.line]

/-! ## Where a name ends -/

/-- The text has a dash that is followed by a digit. -/
def DashDigit (s : Bytes) : Prop :=
  (nevraVersionIndex s).isSome = true

instance (s : Bytes) : Decidable (DashDigit s) :=
  inferInstanceAs (Decidable (_ = true))

theorem nevraVersionIndex_none {s : Bytes} (h : ¬ DashDigit s) : nevraVersionIndex s = none := by
  simpa [DashDigit] using h

/-- The match behind a text that has none and a dash. -/
theorem nevraVersionIndex_dash {s t : Bytes} (h : ¬ DashDigit s) :
    nevraVersionIndex (s ++ dash :: t) =
      if t.head?.any digit then some s.length
      else (nevraVersionIndex t).map (· + (s.length + 1)) := by
  have hnone := nevraVersionIndex_none h
  clear h
  induction s with
  | nil =>
    rw [nil_append, nevraVersionIndex]
    by_cases hdigit : t.head?.any digit = true
    · rw [if_pos ⟨rfl, hdigit⟩, if_pos hdigit]
      rfl
    · rw [if_neg fun hmatch => hdigit hmatch.2, if_neg hdigit]
      rfl
  | cons b s ih =>
    rw [nevraVersionIndex] at hnone
    by_cases hmatch : b = dash ∧ s.head?.any digit = true
    · rw [if_pos hmatch] at hnone
      cases hnone
    rw [if_neg hmatch, Option.map_eq_none_iff] at hnone
    -- the dash that follows the text is no digit
    have hlonger : ¬ (b = dash ∧ (s ++ dash :: t).head?.any digit = true) := by
      cases s with
      | nil => exact fun hbad => absurd (show digit dash = true from hbad.2) (by decide)
      | cons c s => exact hmatch
    rw [cons_append, nevraVersionIndex, if_neg hlonger, ih hnone]
    by_cases hdigit : t.head?.any digit = true
    · rw [if_pos hdigit, if_pos hdigit]
      rfl
    · rw [if_neg hdigit, if_neg hdigit, Option.map_map]
      rfl

/-- What is read as a name has no dash before a digit. -/
theorem not_dashDigit_parseNEVRAName (s : Bytes) : ¬ DashDigit (parseNEVRAName s) := by
  have htake : ∀ {s : Bytes} {loc : Nat}, nevraVersionIndex s = some loc →
      nevraVersionIndex (s.take loc) = none := by
    intro s
    induction s with
    | nil => intro loc h; cases h
    | cons b s ih =>
      intro loc h
      rw [nevraVersionIndex] at h
      by_cases hmatch : b = dash ∧ s.head?.any digit = true
      · rw [if_pos hmatch, Option.some.injEq] at h
        rw [← h]
        rfl
      · rw [if_neg hmatch, Option.map_eq_some_iff] at h
        rcases h with ⟨loc', hloc', hsucc⟩
        have hshort : ¬ (b = dash ∧ (s.take loc').head?.any digit = true) := by
          cases s with
          | nil => cases hloc'
          | cons c s =>
            cases loc' with
            | zero => exact fun hbad => absurd hbad.2 (by simp)
            | succ loc' => exact hmatch
        rw [← hsucc, take_succ_cons, nevraVersionIndex, if_neg hshort, ih hloc']
        rfl
  rw [parseNEVRAName]
  cases hindex : nevraVersionIndex s with
  | none => simp [DashDigit, hindex]
  | some loc => simp [DashDigit, htake hindex]

/-- The lock's epoch or version starts with a digit. -/
def Lock.DigitLed (l : Lock) : Prop :=
  l.evr.head?.any digit = true

instance (l : Lock) : Decidable l.DigitLed :=
  inferInstanceAs (Decidable (_ = true))

/-- What is read as the name of a lock whose name has no dash before a digit: it ends too late
if the version does not start with a digit. -/
def Lock.readName (l : Lock) : Bytes :=
  if l.DigitLed then l.name else l.name ++ dash :: parseNEVRAName l.evr

/-- Which name is read from the line of a lock. -/
theorem parseNEVRAName_line {l : Lock} (h : ¬ DashDigit l.name) :
    parseNEVRAName l.line = l.readName := by
  rw [parseNEVRAName, Lock.line, nevraVersionIndex_dash h, Lock.readName]
  by_cases hdigit : l.evr.head?.any digit = true
  · rw [if_pos hdigit, if_pos (show l.DigitLed from hdigit)]
    exact take_left
  · rw [if_neg hdigit, if_neg (show ¬ l.DigitLed from hdigit), parseNEVRAName]
    cases nevraVersionIndex l.evr with
    | none => rfl
    | some loc =>
      dsimp only [Option.map_some]
      rw [show loc + (l.name.length + 1) = l.name.length + (loc + 1) by omega,
        take_length_add_append, take_succ_cons]

/-! ## Which lists of locks are reported right -/

/-- Every name is reported as pinned if and only if there is a lock for the package of that
name, by `IsPinned` and in the pinned set of `List`. -/
def Attributed (locks : List Lock) : Prop :=
  ∀ name, (rePackageName name = true →
      dnfIsPinned name (some (lockListing locks)) = .ok (decide (∃ l ∈ locks, l.name = name))) ∧
    (name ∈ dnfPinnedSet (some (lockListing locks)) ↔ ∃ l ∈ locks, l.name = name)

/-- The locks can be told apart: no name has a dash before a digit, and a lock whose version
does not start with a digit is read as the name of another lock while yet another one is read
as its name. -/
def Separable (locks : List Lock) : Prop :=
  ∀ l ∈ locks, ¬ DashDigit l.name ∧ (l.DigitLed ∨
    (∃ other ∈ locks, other.name = l.readName) ∧ ∃ other ∈ locks, other.readName = l.name)

theorem attributed_iff (locks : List Lock) :
    Attributed locks ↔
      ∀ name, (∃ l ∈ locks, parseNEVRAName l.line = name) ↔ ∃ l ∈ locks, l.name = name := by
  have hset : ∀ name, name ∈ dnfPinnedSet (some (lockListing locks)) ↔
      ∃ l ∈ locks, parseNEVRAName l.line = name := by
    intro name
    rw [dnfPinnedSet, lockLines_listing, map_map, mem_map]
    rfl
  constructor
  · intro h name
    rw [← hset]
    exact (h name).2
  · intro h name
    refine ⟨?_, (hset name).trans (h name)⟩
    intro hname
    have haccepted : packageName name = .ok () := matchGrammar_eq_ok.mpr hname
    rw [dnfIsPinned, haccepted]
    change Except.ok _ = _
    rw [lockLines_listing, Except.ok.injEq, Bool.eq_iff_iff, decide_eq_true_iff, ← h name,
      any_eq_true]
    simp only [mem_map, beq_iff_eq]
    constructor
    · rintro ⟨_, ⟨l, hl, hline⟩, hname⟩
      exact ⟨l, hl, by rw [hline]; exact hname⟩
    · rintro ⟨l, hl, hname⟩
      exact ⟨_, ⟨l, hl, rfl⟩, hname⟩

/-- Names without a dash before a digit are needed: no such name is ever read. -/
theorem Attributed.not_dashDigit {locks : List Lock} (h : Attributed locks) :
    ∀ l ∈ locks, ¬ DashDigit l.name := by
  intro l hl
  obtain ⟨other, -, hread⟩ := ((attributed_iff locks).mp h l.name).mpr ⟨l, hl, rfl⟩
  rw [← hread]
  exact not_dashDigit_parseNEVRAName _

theorem Separable.attributed {locks : List Lock} (h : Separable locks) : Attributed locks := by
  refine (attributed_iff locks).mpr fun name => ⟨?_, ?_⟩
  · rintro ⟨l, hl, hread⟩
    rw [parseNEVRAName_line (h l hl).1] at hread
    rcases (h l hl).2 with hdigit | ⟨⟨other, hother, hname⟩, -⟩
    · rw [Lock.readName, if_pos hdigit] at hread
      exact ⟨l, hl, hread⟩
    · exact ⟨other, hother, hname.trans hread⟩
  · rintro ⟨l, hl, hname⟩
    rcases (h l hl).2 with hdigit | ⟨-, other, hother, hread⟩
    · refine ⟨l, hl, ?_⟩
      rw [parseNEVRAName_line (h l hl).1, Lock.readName, if_pos hdigit, hname]
    · refine ⟨other, hother, ?_⟩
      rw [parseNEVRAName_line (h other hother).1, hread, hname]

/-- With versions that start with a digit such names are also enough. -/
theorem attributed_of_digitLed {locks : List Lock} (hnames : ∀ l ∈ locks, ¬ DashDigit l.name)
    (hversions : ∀ l ∈ locks, l.DigitLed) : Attributed locks :=
  Separable.attributed fun l hl => ⟨hnames l hl, .inl (hversions l hl)⟩

/-- Version locks are reported right if and only if they can be told apart. -/
theorem version_locks_iff (locks : List Lock) : Attributed locks ↔ Separable locks := by
  refine ⟨fun h l hl => ⟨h.not_dashDigit l hl, .inr ⟨?_, ?_⟩⟩, Separable.attributed⟩
  · refine ((attributed_iff locks).mp h l.readName).mp ⟨l, hl, ?_⟩
    exact parseNEVRAName_line (h.not_dashDigit l hl)
  · obtain ⟨other, hother, hread⟩ := ((attributed_iff locks).mp h l.name).mpr ⟨l, hl, rfl⟩
    rw [parseNEVRAName_line (h.not_dashDigit other hother)] at hread
    exact ⟨other, hother, hread⟩

/-- A lock of a package with a version in its name. -/
def javaLock : Lock where
  name := textBytes "java-17-openjdk"
  epoch := some 1
  version := textBytes "17.0.9"
  release := textBytes "1"
  arch := some (textBytes "x86_64")
  nameAccepted := by decide
  versionVisible := by decide +kernel
  releaseVisible := by decide +kernel
  archVisible := by
    intro a ha
    rw [← Option.mem_some_iff.mp ha]
    decide +kernel

/-- The lock is not reported for its package, but for one of another name. -/
theorem java_lock_misattributed :
    dnfIsPinned (textBytes "java-17-openjdk") (some (lockListing [javaLock])) = .ok false ∧
      dnfIsPinned (textBytes "java") (some (lockListing [javaLock])) = .ok true ∧
      ¬ Attributed [javaLock] := by
  have hlocked : dnfIsPinned (textBytes "java-17-openjdk") (some (lockListing [javaLock])) =
      .ok false := by
    decide
  refine ⟨hlocked, by decide, ?_⟩
  intro h
  have hpinned := (h (textBytes "java-17-openjdk")).1 (by decide)
  rw [hlocked, Except.ok.injEq] at hpinned
  have htrue : decide (∃ l ∈ [javaLock], l.name = textBytes "java-17-openjdk") = true :=
    decide_eq_true ⟨javaLock, mem_singleton.mpr rfl, rfl⟩
  rw [← hpinned] at htrue
  cases htrue

end PowerManage.Pkg
