import PowerManage.Exec.Capture
import PowerManage.Text.Blanks
import PowerManage.Text.Lines
import PowerManage.Text.Utf8

/-!
# Names and texts of the package managers

The grammars for names and versions that all package managers share, the commands they run,
and the string functions with which they read the output of these commands.

Main results:

- `newLineScanner_eq`: the scanner reads the lines of a text.
- `mem_of_grammar`: what the symbols of an accepted name are.
-/

namespace PowerManage.Pkg

open Exec (newline)
open Utf8 (textBytes)

/-! ## Errors and commands -/

/-- The errors of the package managers. -/
inductive PkgError where
  | invalid (field : String) (value : Bytes)
  | versionRequiresOne (count : Nat)
  | invalidPacmanName (value : Bytes)
  | malformedOutput (detail : String)
  deriving DecidableEq, Repr

/-- The text of an error. -/
def PkgError.message : PkgError → Bytes
  | .invalid field value => textBytes "validate: invalid value: " ++ textBytes field ++
      textBytes " \"" ++ value ++ textBytes "\" is malformed"
  | .versionRequiresOne count =>
    textBytes s!"pkg: InstallOptions.Version requires exactly one package, got {count}"
  | .invalidPacmanName value => textBytes "invalid package name \"" ++ value ++
      textBytes "\": must match [a-zA-Z0-9][a-zA-Z0-9._+-]*"
  | .malformedOutput detail => textBytes "malformed output: " ++ textBytes detail

structure Command where
  name : String
  args : List Bytes
  env : List String
  stdin : Bytes
  escalate : Bool
  deriving DecidableEq, Repr

/-! ## Grammars -/

/-- `[a-zA-Z0-9]`. -/
def alnum (b : UInt8) : Bool :=
  (97 ≤ b && b ≤ 122) || (65 ≤ b && b ≤ 90) || (48 ≤ b && b ≤ 57)

/-- `[0-9]`. -/
def digit (b : UInt8) : Bool :=
  48 ≤ b && b ≤ 57

/-- An anchored expression: a letter or digit and then at most `maximum` letters, digits
and symbols of `extra`. -/
def grammar (extra : String) (maximum : Option Nat) : Bytes → Bool
  | [] => false
  | b :: bs => alnum b && bs.all (fun c => alnum c || (textBytes extra).contains c) &&
      maximum.all fun m => bs.length ≤ m

def matchGrammar (field : String) (re : Bytes → Bool) (s : Bytes) : Except PkgError Unit :=
  if re s then .ok () else .error (.invalid field s)

def rePackageName : Bytes → Bool :=
  grammar "._+:/@~-" (some 255)

def rePackageVersion : Bytes → Bool :=
  grammar "._+:~^-" (some 127)

def reRpmPackageName : Bytes → Bool :=
  grammar "._+-" (some 255)

def validPacmanPkgName : Bytes → Bool :=
  grammar "._+-" none

def packageName (name : Bytes) : Except PkgError Unit :=
  matchGrammar "package name" rePackageName name

def packageVersion (version : Bytes) : Except PkgError Unit :=
  if version = [] then .ok () else matchGrammar "package version" rePackageVersion version

def validatePackageNames : List Bytes → Except PkgError Unit
  | [] => .ok ()
  | name :: names => do
      packageName name
      validatePackageNames names

variable {s : Bytes} {extra : String} {maximum : Option Nat} {b : UInt8}

@[simp]
theorem matchGrammar_eq_ok {field : String} {re : Bytes → Bool} {u : Unit} :
    matchGrammar field re s = .ok u ↔ re s = true := by
  unfold matchGrammar
  split <;> simp_all

theorem validatePackageNames_eq_ok {names : List Bytes} {u : Unit} :
    validatePackageNames names = .ok u ↔ ∀ name ∈ names, rePackageName name = true := by
  induction names with
  | nil => simp [validatePackageNames]
  | cons name names ih =>
    have hname : packageName name = .ok () ↔ rePackageName name = true := matchGrammar_eq_ok
    rw [List.forall_mem_cons, ← ih, ← hname, validatePackageNames]
    cases packageName name with
    | error e => simp [bind, Except.bind]
    | ok u => simp [bind, Except.bind]

/-- What the symbols of an accepted text are. -/
theorem mem_of_grammar (h : grammar extra maximum s = true) (hb : b ∈ s) :
    alnum b = true ∨ b ∈ textBytes extra := by
  cases s with
  | nil => cases hb
  | cons c s =>
    rw [grammar, Bool.and_eq_true, Bool.and_eq_true, List.all_eq_true] at h
    rcases List.mem_cons.mp hb with hb | hb
    · rw [hb]
      exact .inl h.1.1
    · simpa using h.1.2 b hb

theorem ne_nil_of_grammar (h : grammar extra maximum s = true) : s ≠ [] := by
  rintro rfl
  cases h

/-- An accepted text starts with a letter or a digit. -/
theorem head_of_grammar (h : grammar extra maximum s = true) (hb : s.head? = some b) :
    alnum b = true := by
  cases s with
  | nil => cases hb
  | cons c s =>
    rw [grammar, Bool.and_eq_true, Bool.and_eq_true] at h
    cases hb
    exact h.1.1

/-! ## String functions -/

/-- The encodings of `unicode.IsSpace`. -/
def spaces : BlankCode UInt8 where
  words := [[9], [10], [11], [12], [13], [32], [0xC2, 0x85], [0xC2, 0xA0], [0xE1, 0x9A, 0x80],
    [0xE2, 0x80, 0x80], [0xE2, 0x80, 0x81], [0xE2, 0x80, 0x82], [0xE2, 0x80, 0x83],
    [0xE2, 0x80, 0x84], [0xE2, 0x80, 0x85], [0xE2, 0x80, 0x86], [0xE2, 0x80, 0x87],
    [0xE2, 0x80, 0x88], [0xE2, 0x80, 0x89], [0xE2, 0x80, 0x8A], [0xE2, 0x80, 0xA8],
    [0xE2, 0x80, 0xA9], [0xE2, 0x80, 0xAF], [0xE2, 0x81, 0x9F], [0xE3, 0x80, 0x80]]
  nonempty := by decide
  apart := BlankCode.apart_of_all (by decide)

def trimSpace (s : Bytes) : Bytes :=
  spaces.trim s

def fields (s : Bytes) : List Bytes :=
  spaces.fields s

def contains (s part : Bytes) : Bool :=
  s.tails.any part.isPrefixOf

def index (part : Bytes) : Bytes → Option Nat
  | [] => if part = [] then some 0 else none
  | b :: s => if part.isPrefixOf (b :: s) then some 0 else (index part s).map (· + 1)

/-- What `strings.Cut` returns before the separator. -/
def before (sep : UInt8) (s : Bytes) : Bytes :=
  s.takeWhile (· ≠ sep)

/-- What follows the first separator, if there is one. -/
def after (sep : UInt8) (s : Bytes) : Option Bytes :=
  match s.dropWhile (· ≠ sep) with
  | [] => none
  | _ :: rest => some rest

/-- The lines that a `lineScanner` returns. -/
def newLineScanner (data : Bytes) : List Bytes :=
  if data = [] then []
  else (if data.getLast? = some newline then data.dropLast else data).splitOn newline

/-- The scanner reads the lines of a text. -/
theorem newLineScanner_eq (data : Bytes) : newLineScanner data = Lines.lines newline data :=
  (Lines.lines_eq_splitOn data).symm

/-- A number in decimal digits. -/
def decimal (n : Nat) : Bytes :=
  (Nat.toDigits 10 n).map fun c => UInt8.ofNat c.toNat

theorem digit_of_mem_decimal {n : Nat} (h : b ∈ decimal n) : digit b = true := by
  rcases List.mem_map.mp h with ⟨c, hc, hb⟩
  have hdigit := Nat.isDigit_of_mem_toDigits (by omega) (by omega) hc
  rw [Char.isDigit, Bool.and_eq_true, decide_eq_true_eq, decide_eq_true_eq] at hdigit
  have hlow : 48 ≤ c.toNat := hdigit.1
  have hhigh : c.toNat ≤ 57 := hdigit.2
  rw [← hb, digit, Bool.and_eq_true, decide_eq_true_eq, decide_eq_true_eq,
    UInt8.le_iff_toNat_le, UInt8.le_iff_toNat_le, UInt8.toNat_ofNat']
  have hsmall : c.toNat % 2 ^ 8 = c.toNat := Nat.mod_eq_of_lt (by omega)
  rw [hsmall]
  exact ⟨hlow, hhigh⟩

/-- Letters, digits and the usual marks are no part of a blank. -/
theorem plain_of_ascii (hlow : 33 ≤ b) (hhigh : b < 0x80) : spaces.Plain b := by
  have hwords : (spaces.words.all fun w => w.all fun c => c < 33 || 0x80 ≤ c) = true := by decide
  intro w hw hmem
  rw [UInt8.le_iff_toNat_le] at hlow
  rw [UInt8.lt_iff_toNat_lt] at hhigh
  have hword := List.all_eq_true.mp (List.all_eq_true.mp hwords w hw) b hmem
  rcases (Bool.or_eq_true _ _ ▸ hword).imp of_decide_eq_true of_decide_eq_true with h | h
  · rw [UInt8.lt_iff_toNat_lt] at h
    omega
  · rw [UInt8.le_iff_toNat_le] at h
    omega

theorem single_space : spaces.Single 32 := by
  decide

end PowerManage.Pkg
