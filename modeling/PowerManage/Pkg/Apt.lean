import PowerManage.Pkg.Names
import PowerManage.Relational.Program

/-!
# Requests to apt

`Install`, `Upgrade` and `Remove` put package names on the command line of apt.
apt has its own grammar for what it finds there: the last symbol of an operand can turn the
request around, and parts of it can select a version or a release.

Main results:

- `readOperand_name`: when apt reads a name as a request for the package of that name.
- `requests_of_call`: how apt reads the command line of a call.
- `apt_requests_iff`: a call asks for what it says if and only if no operand is one that
  apt reads in another way.
-/

namespace PowerManage.Pkg

open List Relational
open Utf8 (textBytes)

/-! ## The commands -/

/-- `InstallOptions`, as far as apt uses it. -/
structure InstallOptions where
  version : Bytes
  allowDowngrade : Bool
  deriving DecidableEq, Repr

structure RemoveOptions where
  purge : Bool
  deriving DecidableEq, Repr

def dpkgConfOptions : List Bytes :=
  [textBytes "-o", textBytes "Dpkg::Options::=--force-confdef",
    textBytes "-o", textBytes "Dpkg::Options::=--force-confold"]

/-- The command that `apt.write` runs. -/
def aptWrite (args : List Bytes) : Command where
  name := "apt"
  args := args
  env := ["DEBIAN_FRONTEND=noninteractive"]
  stdin := []
  escalate := true

/-- `apt.Install` up to the command it runs, if it runs one. -/
def install (opts : InstallOptions) (packages : List Bytes) : Except PkgError (Option Command) := do
  validatePackageNames packages
  packageVersion opts.version
  if opts.version ≠ [] ∧ packages.length ≠ 1 then
    .error (.versionRequiresOne packages.length)
  else if packages = [] then .ok none
  else
    let args := [textBytes "install", textBytes "-y", textBytes "--fix-broken"] ++ dpkgConfOptions
    let args := if opts.allowDowngrade then args ++ [textBytes "--allow-downgrades"] else args
    if opts.version ≠ [] then
      .ok (some (aptWrite (args ++ [packages.headD [] ++ textBytes "=" ++ opts.version])))
    else .ok (some (aptWrite (args ++ packages)))

/-- `apt.Remove` up to the command it runs, if it runs one. -/
def remove (opts : RemoveOptions) (packages : List Bytes) : Except PkgError (Option Command) := do
  validatePackageNames packages
  if packages = [] then .ok none
  else
    let verb := if opts.purge then textBytes "purge" else textBytes "remove"
    .ok (some (aptWrite ([verb, textBytes "-y"] ++ packages)))

/-- `apt.Upgrade` up to the command it runs, if it runs one. -/
def upgrade (packages : List Bytes) : Except PkgError (Option Command) := do
  validatePackageNames packages
  if packages = [] then .ok none
  else
    let args := [textBytes "install", textBytes "-y", textBytes "--only-upgrade"] ++ dpkgConfOptions
    .ok (some (aptWrite (args ++ packages)))

/-- A call of one of the three methods. -/
inductive AptCall where
  | install (opts : InstallOptions) (packages : List Bytes)
  | upgrade (packages : List Bytes)
  | remove (opts : RemoveOptions) (packages : List Bytes)
  deriving DecidableEq, Repr

/-- The command of a call. -/
def AptCall.command : AptCall → Except PkgError (Option Command)
  | .install opts packages => Pkg.install opts packages
  | .upgrade packages => Pkg.upgrade packages
  | .remove opts packages => Pkg.remove opts packages

/-! ## How apt reads a command line -/

/-- What apt is asked to do with a package. -/
inductive RequestKind where
  | install
  | upgrade
  | remove
  deriving DecidableEq, Repr

/-- A request for one package. -/
structure Request where
  kind : RequestKind
  package : Bytes
  version : Option Bytes
  release : Option Bytes
  deriving DecidableEq, Repr

/-- The text before and after the last `=` or `/`, and which of them it is. -/
def lastSelector (operand : Bytes) : Option (Bytes × UInt8 × Bytes) :=
  match operand.reverse.dropWhile (fun b => b ≠ 61 ∧ b ≠ 47) with
  | [] => none
  | sep :: front =>
    some (front.reverse, sep, (operand.reverse.takeWhile fun b => b ≠ 61 ∧ b ≠ 47).reverse)

/-- A package with the version or the release that is selected for it. -/
def selected (kind : RequestKind) (operand : Bytes) : Request :=
  match lastSelector operand with
  | none => ⟨kind, operand, none, none⟩
  | some (package, sep, value) =>
    if sep = 61 then ⟨kind, package, some value, none⟩ else ⟨kind, package, none, some value⟩

/-- The kind a command line with `--only-upgrade` has for an installation. -/
def installKind (onlyUpgrade : Bool) : RequestKind :=
  if onlyUpgrade then .upgrade else .install

/-- How an operand is read: its last symbol may ask for removal or installation, whatever the
verb is. -/
def readOperand (kind : RequestKind) (onlyUpgrade : Bool) (operand : Bytes) : Request :=
  if operand.getLast? = some 45 then selected .remove operand.dropLast
  else if operand.getLast? = some 43 then selected (installKind onlyUpgrade) operand.dropLast
  else selected kind operand

/-- Whether an argument is an option. -/
def isOption (arg : Bytes) : Bool :=
  arg.head? == some 45

/-- The options and the operands among the arguments; `-o` takes the next argument. -/
def splitArgs : List Bytes → List Bytes × List Bytes
  | [] => ([], [])
  | arg :: args =>
    if arg = textBytes "-o" then
      match args with
      | [] => ([arg], [])
      | value :: args => let rest := splitArgs args; (arg :: value :: rest.1, rest.2)
    else
      let rest := splitArgs args
      if isOption arg then (arg :: rest.1, rest.2) else (rest.1, arg :: rest.2)

/-- The requests of a command line. -/
def readCommandLine : List Bytes → Option (List Request)
  | [] => none
  | verb :: args =>
    let onlyUpgrade := (splitArgs args).1.contains (textBytes "--only-upgrade")
    let operands := (splitArgs args).2
    if verb = textBytes "install" then
      some (operands.map (readOperand (installKind onlyUpgrade) onlyUpgrade))
    else if verb = textBytes "remove" ∨ verb = textBytes "purge" then
      some (operands.map (readOperand .remove onlyUpgrade))
    else none

/-! ## Reading a name -/

/-- apt reads the operand as a bare package name. -/
def Bare (operand : Bytes) : Prop :=
  operand.getLast? ≠ some 45 ∧ operand.getLast? ≠ some 43 ∧ 47 ∉ operand

instance (operand : Bytes) : Decidable (Bare operand) :=
  inferInstanceAs (Decidable (_ ∧ _))

variable {name operand : Bytes}

theorem lastSelector_none (heq : 61 ∉ operand) (hslash : 47 ∉ operand) :
    lastSelector operand = none := by
  have hall : operand.reverse.dropWhile (fun b => b ≠ 61 ∧ b ≠ 47) = [] := by
    rw [dropWhile_eq_nil_iff]
    intro b hb
    rw [mem_reverse] at hb
    simp only [decide_eq_true_eq]
    exact ⟨fun h => heq (h ▸ hb), fun h => hslash (h ▸ hb)⟩
  rw [lastSelector, hall]

/-- What is selected behind the last separator. -/
theorem lastSelector_append {front value : Bytes} {sep : UInt8} (hsep : sep = 61 ∨ sep = 47)
    (heq : 61 ∉ value) (hslash : 47 ∉ value) :
    lastSelector (front ++ sep :: value) = some (front, sep, value) := by
  have hvalue : ∀ b ∈ value.reverse, decide (b ≠ 61 ∧ b ≠ 47) = true := by
    intro b hb
    rw [mem_reverse] at hb
    simp only [decide_eq_true_eq]
    exact ⟨fun h => heq (h ▸ hb), fun h => hslash (h ▸ hb)⟩
  have hstop : decide (sep ≠ 61 ∧ sep ≠ 47) = false := by
    rcases hsep with h | h <;> simp [h]
  rw [lastSelector, reverse_append, reverse_cons, append_assoc,
    singleton_append, dropWhile_append_of_pos hvalue,
    dropWhile_cons_of_neg (by simpa using hstop), takeWhile_append_of_pos hvalue,
    takeWhile_cons_of_neg (by simpa using hstop)]
  simp

theorem slash_not_mem_of_lastSelector (h : lastSelector operand = none) : 47 ∉ operand := by
  unfold lastSelector at h
  split at h
  · rename_i hall
    rw [dropWhile_eq_nil_iff] at hall
    intro hmem
    have hslash := hall 47 (mem_reverse.mpr hmem)
    simp at hslash
  · cases h

/-- A request that selects nothing is for the whole operand. -/
theorem selected_bare {kind kind' : RequestKind} {package : Bytes}
    (h : selected kind operand = ⟨kind', package, none, none⟩) :
    package = operand ∧ 47 ∉ operand := by
  unfold selected at h
  cases hsel : lastSelector operand with
  | none =>
    rw [hsel] at h
    simp only [Request.mk.injEq] at h
    exact ⟨h.2.1.symm, slash_not_mem_of_lastSelector hsel⟩
  | some found =>
    rw [hsel] at h
    dsimp only at h
    split at h <;> simp at h

theorem dropLast_ne_self {b : UInt8} (h : operand.getLast? = some b) :
    operand.dropLast ≠ operand := by
  intro hsame
  rcases getLast?_eq_some_iff.mp h with ⟨front, hfront⟩
  have hlength := congrArg length hsame
  rw [hfront] at hlength
  simp at hlength

/-- When apt reads a name as a request for the package of that name. -/
theorem readOperand_name {kind : RequestKind} {onlyUpgrade : Bool} (heq : 61 ∉ name) :
    readOperand kind onlyUpgrade name = ⟨kind, name, none, none⟩ ↔ Bare name := by
  unfold readOperand
  by_cases hminus : name.getLast? = some 45
  · rw [if_pos hminus]
    constructor
    · intro h
      exact absurd (selected_bare h).1.symm (dropLast_ne_self hminus)
    · intro h
      exact absurd hminus h.1
  rw [if_neg hminus]
  by_cases hplus : name.getLast? = some 43
  · rw [if_pos hplus]
    constructor
    · intro h
      exact absurd (selected_bare h).1.symm (dropLast_ne_self hplus)
    · intro h
      exact absurd hplus h.2.1
  rw [if_neg hplus]
  constructor
  · intro h
    exact ⟨hminus, hplus, (selected_bare h).2⟩
  · intro h
    rw [selected, lastSelector_none heq h.2.2]

/-- When apt reads a name with a version as a request for that version. -/
theorem readOperand_version {kind : RequestKind} {onlyUpgrade : Bool} {version : Bytes}
    (hne : version ≠ []) (heq : 61 ∉ version) (hslash : 47 ∉ version) :
    readOperand kind onlyUpgrade (name ++ 61 :: version) = ⟨kind, name, some version, none⟩ ↔
      version.getLast? ≠ some 45 ∧ version.getLast? ≠ some 43 := by
  have hlast : (name ++ 61 :: version).getLast? = version.getLast? := by
    rw [getLast?_append, getLast?_cons, getLast?_eq_some_getLast hne]
    rfl
  have hdrop : (name ++ 61 :: version).dropLast = name ++ 61 :: version.dropLast := by
    rw [dropLast_append_of_ne_nil (cons_ne_nil _ _), dropLast_cons_of_ne_nil hne]
  have hshort : ∀ (kind' : RequestKind) (b : UInt8), version.getLast? = some b →
      selected kind' (name ++ 61 :: version.dropLast) ≠ ⟨kind, name, some version, none⟩ := by
    intro kind' b hb h
    have heq' : 61 ∉ version.dropLast := fun hmem => heq (dropLast_subset _ hmem)
    have hslash' : 47 ∉ version.dropLast := fun hmem => hslash (dropLast_subset _ hmem)
    rw [selected, lastSelector_append (.inl rfl) heq' hslash'] at h
    simp only [if_pos, Request.mk.injEq, Option.some.injEq] at h
    exact dropLast_ne_self hb h.2.2.1
  unfold readOperand
  rw [hlast, hdrop]
  by_cases hminus : version.getLast? = some 45
  · rw [if_pos hminus]
    exact ⟨fun h => absurd h (hshort _ _ hminus), fun h => absurd hminus h.1⟩
  rw [if_neg hminus]
  by_cases hplus : version.getLast? = some 43
  · rw [if_pos hplus]
    exact ⟨fun h => absurd h (hshort _ _ hplus), fun h => absurd hplus h.2⟩
  rw [if_neg hplus, selected, lastSelector_append (.inl rfl) heq hslash]
  simp [hminus, hplus]

/-! ## Reading the command line of a call -/

theorem splitArgs_cons {arg : Bytes} (hne : arg ≠ textBytes "-o") (args : List Bytes) :
    splitArgs (arg :: args) =
      if isOption arg then (arg :: (splitArgs args).1, (splitArgs args).2)
      else ((splitArgs args).1, arg :: (splitArgs args).2) := by
  cases args <;> simp [splitArgs, hne]

/-- The arguments are options, whatever follows them. -/
def OptionArgs (opts : List Bytes) : Prop :=
  ∀ args, splitArgs (opts ++ args) = (opts ++ (splitArgs args).1, (splitArgs args).2)

theorem OptionArgs.append {first second : List Bytes} (hfirst : OptionArgs first)
    (hsecond : OptionArgs second) : OptionArgs (first ++ second) := by
  intro args
  rw [append_assoc, hfirst, hsecond, append_assoc]

theorem optionArgs_nil : OptionArgs [] :=
  fun _ => rfl

theorem optionArgs_cons {arg : Bytes} (hoption : isOption arg = true)
    (hne : arg ≠ textBytes "-o") {opts : List Bytes} (h : OptionArgs opts) :
    OptionArgs (arg :: opts) := by
  intro args
  rw [cons_append, splitArgs_cons hne, if_pos hoption, h]
  rfl

theorem optionArgs_conf : OptionArgs dpkgConfOptions := by
  intro args
  simp [dpkgConfOptions, splitArgs]

/-- Arguments that are no options are operands. -/
theorem splitArgs_operands {args : List Bytes} (h : ∀ arg ∈ args, isOption arg = false) :
    splitArgs args = ([], args) := by
  induction args with
  | nil => rfl
  | cons arg args ih =>
    have harg := h arg mem_cons_self
    have hne : arg ≠ textBytes "-o" := by
      rintro rfl
      exact absurd harg (by decide)
    rw [splitArgs_cons hne, harg, ih (forall_mem_cons.mp h).2]
    rfl

/-- An accepted text is never taken for an option. -/
theorem isOption_of_grammar {extra : String} {maximum : Option Nat} {s : Bytes}
    (h : grammar extra maximum s = true) (rest : Bytes) : isOption (s ++ rest) = false := by
  cases s with
  | nil => cases h
  | cons b s =>
    have hb := head_of_grammar h (head?_cons)
    rw [isOption, cons_append, head?_cons]
    have hne : b ≠ 45 := by
      rintro rfl
      exact absurd hb (by decide)
    simpa using hne

theorem eq_not_mem_of_name (h : rePackageName name = true) : 61 ∉ name := by
  intro hmem
  rcases mem_of_grammar h hmem with h' | h'
  · exact absurd h' (by decide)
  · exact absurd h' (by decide)

theorem separators_not_mem_of_version {version : Bytes} (h : rePackageVersion version = true) :
    61 ∉ version ∧ 47 ∉ version := by
  constructor
  · intro hmem
    rcases mem_of_grammar h hmem with h' | h'
    · exact absurd h' (by decide)
    · exact absurd h' (by decide)
  · intro hmem
    rcases mem_of_grammar h hmem with h' | h'
    · exact absurd h' (by decide)
    · exact absurd h' (by decide +kernel)

/-- The kind of request a call stands for. -/
def AptCall.kind : AptCall → RequestKind
  | .install _ _ => .install
  | .upgrade _ => .upgrade
  | .remove _ _ => .remove

/-- The packages a call names. -/
def AptCall.packages : AptCall → List Bytes
  | .install _ packages => packages
  | .upgrade packages => packages
  | .remove _ packages => packages

/-- The version a call asks for, if any. -/
def AptCall.version : AptCall → Option Bytes
  | .install opts _ => if opts.version = [] then none else some opts.version
  | .upgrade _ => none
  | .remove _ _ => none

/-- The operands a call passes to apt. -/
def AptCall.operands (call : AptCall) : List Bytes :=
  match call.version with
  | none => call.packages
  | some version => call.packages.map (· ++ 61 :: version)

/-- The requests a call stands for: one of its kind for each named package. -/
def AptCall.wanted (call : AptCall) : List Request :=
  call.packages.map fun name => ⟨call.kind, name, call.version, none⟩

theorem splitArgs_names {names : List Bytes} (h : ∀ name ∈ names, rePackageName name = true) :
    splitArgs names = ([], names) :=
  splitArgs_operands fun name hname => by
    have hoption := isOption_of_grammar (h name hname) []
    rwa [append_nil] at hoption

/-- How a command line of a verb, options and operands is read. -/
theorem readCommandLine_append (verb : Bytes) {opts operands : List Bytes}
    (hopts : OptionArgs opts) (hoperands : splitArgs operands = ([], operands)) :
    readCommandLine (verb :: (opts ++ operands)) =
      let onlyUpgrade := opts.contains (textBytes "--only-upgrade")
      if verb = textBytes "install" then
        some (operands.map (readOperand (installKind onlyUpgrade) onlyUpgrade))
      else if verb = textBytes "remove" ∨ verb = textBytes "purge" then
        some (operands.map (readOperand .remove onlyUpgrade))
      else none := by
  rw [readCommandLine, hopts, hoperands, append_nil]

/-- The options of `Install`. -/
def installOptionArgs (allowDowngrade : Bool) : List Bytes :=
  [textBytes "-y", textBytes "--fix-broken"] ++ dpkgConfOptions ++
    if allowDowngrade then [textBytes "--allow-downgrades"] else []

theorem optionArgs_install (allowDowngrade : Bool) :
    OptionArgs (installOptionArgs allowDowngrade) := by
  refine OptionArgs.append (OptionArgs.append ?_ optionArgs_conf) ?_
  · exact optionArgs_cons (by decide) (by decide)
      (optionArgs_cons (by decide) (by decide) optionArgs_nil)
  · cases allowDowngrade with
    | true => exact optionArgs_cons (by decide) (by decide) optionArgs_nil
    | false => exact optionArgs_nil

theorem not_onlyUpgrade_install (allowDowngrade : Bool) :
    (installOptionArgs allowDowngrade).contains (textBytes "--only-upgrade") = false := by
  cases allowDowngrade <;> decide

/-- The command line of `Install`. -/
theorem install_ok {opts : InstallOptions} {packages : List Bytes} {cmd : Command}
    (h : install opts packages = .ok (some cmd)) :
    (∀ name ∈ packages, rePackageName name = true) ∧
      (opts.version ≠ [] → rePackageVersion opts.version = true) ∧
      cmd.args = textBytes "install" :: (installOptionArgs opts.allowDowngrade ++
        (AptCall.install opts packages).operands) := by
  simp only [install, bind_eq_ok, ite_error_eq_ok, validatePackageNames_eq_ok] at h
  rcases h with ⟨_, hnames, _, hversion, hone, h⟩
  refine ⟨hnames, ?_, ?_⟩
  · intro hne
    rwa [packageVersion, if_neg hne, matchGrammar_eq_ok] at hversion
  · by_cases hnil : packages = []
    · rw [if_pos hnil] at h
      cases h
    rw [if_neg hnil] at h
    by_cases hne : opts.version = []
    · rw [if_neg (by simpa using hne)] at h
      cases h
      cases hdown : opts.allowDowngrade <;>
        simp [aptWrite, AptCall.operands, AptCall.version, AptCall.packages, installOptionArgs, hne]
    · rw [if_pos hne] at h
      have hlength : packages.length = 1 := by
        by_contra hlength
        exact hone ⟨hne, hlength⟩
      rcases length_eq_one_iff.mp hlength with ⟨name, hpackages⟩
      have hequals : textBytes "=" = [61] := by decide
      cases h
      cases hdown : opts.allowDowngrade <;>
        simp [aptWrite, AptCall.operands, AptCall.version, AptCall.packages, installOptionArgs,
          hne, hpackages, hequals]

/-- How apt reads the command line of a call. -/
theorem requests_of_call {call : AptCall} {cmd : Command} (h : call.command = .ok (some cmd)) :
    (∀ name ∈ call.packages, rePackageName name = true) ∧
      (∀ version ∈ call.version, rePackageVersion version = true ∧ version ≠ []) ∧
      readCommandLine cmd.args =
        some (call.operands.map (readOperand call.kind (call.kind == .upgrade))) := by
  cases call with
  | install opts packages =>
    rcases install_ok h with ⟨hnames, hversion, hargs⟩
    have hversions : ∀ version ∈ (AptCall.install opts packages).version,
        rePackageVersion version = true ∧ version ≠ [] := by
      intro version hmem
      by_cases hne : opts.version = []
      · simp [AptCall.version, hne] at hmem
      · rw [AptCall.version, if_neg hne, Option.mem_some_iff] at hmem
        rw [← hmem]
        exact ⟨hversion hne, hne⟩
    have hoperands : ∀ arg ∈ (AptCall.install opts packages).operands, isOption arg = false := by
      intro arg harg
      unfold AptCall.operands at harg
      split at harg
      · have hoption := isOption_of_grammar (hnames arg harg) []
        rwa [append_nil] at hoption
      · rcases mem_map.mp harg with ⟨name, hname, hjoin⟩
        rw [← hjoin]
        exact isOption_of_grammar (hnames name hname) _
    refine ⟨hnames, hversions, ?_⟩
    rw [hargs, readCommandLine_append _ (optionArgs_install _) (splitArgs_operands hoperands),
      not_onlyUpgrade_install]
    rfl
  | upgrade packages =>
    simp only [AptCall.command, upgrade, bind_eq_ok, validatePackageNames_eq_ok] at h
    rcases h with ⟨_, hnames, h⟩
    by_cases hnil : packages = []
    · rw [if_pos hnil] at h
      cases h
    rw [if_neg hnil] at h
    cases h
    refine ⟨hnames, by simp [AptCall.version], ?_⟩
    have hopts : OptionArgs ([textBytes "-y", textBytes "--only-upgrade"] ++ dpkgConfOptions) :=
      OptionArgs.append (optionArgs_cons (by decide) (by decide)
        (optionArgs_cons (by decide) (by decide +kernel) optionArgs_nil)) optionArgs_conf
    have hread := readCommandLine_append (textBytes "install") hopts (splitArgs_names hnames)
    exact hread
  | remove opts packages =>
    simp only [AptCall.command, remove, bind_eq_ok, validatePackageNames_eq_ok] at h
    rcases h with ⟨_, hnames, h⟩
    by_cases hnil : packages = []
    · rw [if_pos hnil] at h
      cases h
    rw [if_neg hnil] at h
    cases h
    refine ⟨hnames, by simp [AptCall.version], ?_⟩
    have hopts : OptionArgs [textBytes "-y"] :=
      optionArgs_cons (by decide) (by decide) optionArgs_nil
    have hread := fun verb => readCommandLine_append verb hopts (splitArgs_names hnames)
    cases hpurge : opts.purge with
    | true =>
      exact (hread (textBytes "purge")).trans rfl
    | false =>
      exact (hread (textBytes "remove")).trans rfl

/-! ## What a call asks for -/

/-- apt reads no operand of the call in another way: a bare name does not end with a sign and
selects no release, a version does not end with a sign. -/
def AptCall.Unambiguous (call : AptCall) : Prop :=
  match call.version with
  | none => ∀ name ∈ call.packages, Bare name
  | some version => call.packages = [] ∨
      version.getLast? ≠ some 45 ∧ version.getLast? ≠ some 43

/-- The command line asks for what the call says and nothing else; an installation or an
upgrade asks for no removal, and a removal for no installation. -/
def AptCall.AsksOnly (call : AptCall) (cmd : Command) : Prop :=
  readCommandLine cmd.args = some call.wanted ∧
    ∀ requests, readCommandLine cmd.args = some requests → ∀ request ∈ requests,
      (call.kind ≠ .remove → request.kind ≠ .remove) ∧
      (call.kind = .remove → request.kind = .remove)

/-- A call asks apt for what it says if and only if none of its operands is ambiguous. -/
theorem apt_requests_iff {call : AptCall} {cmd : Command} (h : call.command = .ok (some cmd)) :
    call.AsksOnly cmd ↔ call.Unambiguous := by
  rcases requests_of_call h with ⟨hnames, hversions, hread⟩
  -- the second part of the property follows from the first
  have hkinds : readCommandLine cmd.args = some call.wanted → call.AsksOnly cmd := by
    intro hwanted
    refine ⟨hwanted, ?_⟩
    intro requests hrequests request hmem
    rw [hwanted, Option.some.injEq] at hrequests
    rw [← hrequests, AptCall.wanted, mem_map] at hmem
    rcases hmem with ⟨name, -, hrequest⟩
    rw [← hrequest]
    exact ⟨fun hne => hne, fun heq => heq⟩
  refine Iff.trans ⟨fun hasks => hasks.1, hkinds⟩ ?_
  rw [hread, Option.some.injEq, AptCall.operands, AptCall.wanted, AptCall.Unambiguous]
  cases hversion : call.version with
  | none =>
    dsimp only
    rw [map_inj_left]
    exact forall₂_congr fun name hname => readOperand_name (eq_not_mem_of_name (hnames name hname))
  | some version =>
    have haccepted := hversions version (by rw [hversion]; rfl)
    have hparts := separators_not_mem_of_version haccepted.1
    dsimp only
    rw [map_map, map_inj_left]
    have hone : ∀ name, readOperand call.kind (call.kind == .upgrade) (name ++ 61 :: version) =
        ⟨call.kind, name, some version, none⟩ ↔
          version.getLast? ≠ some 45 ∧ version.getLast? ≠ some 43 :=
      fun name => readOperand_version haccepted.2 hparts.1 hparts.2
    constructor
    · intro hall
      cases hpackages : call.packages with
      | nil => exact .inl rfl
      | cons name names =>
        exact .inr ((hone name).mp (hall name (by rw [hpackages]; exact mem_cons_self)))
    · rintro (hnil | hsigns) name hname
      · rw [hnil] at hname
        cases hname
      · exact (hone name).mpr hsigns

/-- An installation that removes a package. -/
theorem install_asks_removal :
    ∃ cmd, (AptCall.install ⟨[], false⟩ [textBytes "nginx-"]).command = .ok (some cmd) ∧
      readCommandLine cmd.args = some [⟨.remove, textBytes "nginx", none, none⟩] ∧
      ¬ (AptCall.install ⟨[], false⟩ [textBytes "nginx-"]).AsksOnly cmd := by
  refine ⟨_, rfl, by decide, ?_⟩
  intro hasks
  have hwanted := hasks.1
  revert hwanted
  decide

/-- Accepted names that apt reads as they are. -/
theorem apt_requests_plain :
    ∃ cmd, (AptCall.remove ⟨true⟩ [textBytes "nginx", textBytes "zlib1g:i386"]).command =
        .ok (some cmd) ∧
      (AptCall.remove ⟨true⟩ [textBytes "nginx", textBytes "zlib1g:i386"]).AsksOnly cmd :=
  ⟨_, rfl, (apt_requests_iff rfl).mpr (by
    intro name hname
    revert name
    decide)⟩

end PowerManage.Pkg
