import PowerManage.FileSystem.Update
import PowerManage.Fsafe.Listing
import PowerManage.Interaction.Stateful

/-!
# Reading, writing and removing files

`Manager.ReadFile`, `WriteFile` and `Remove` on a host: on the direct backend
as system calls, on an escalated one as commands.  Calls and commands may fail at any
turn; a failed command may have taken effect in part.

Main results:

- `ends_call`, `ends_runCommand`: the rules of calls and commands.
-/

namespace PowerManage.Fsafe

open Exec FileSystem Paths Relational Interaction
open Utf8 (textBytes)

/-! ## Hosts -/

/-- A failure of a command that is not about a missing file. -/
structure Failing where
  outcome : Outcome
  /-- The stages of the command that took effect. -/
  progress : Nat
  unsuccessful : ∀ out err, outcome ≠ .exited 0 out err
  unrelated : ∀ exitCode out err, outcome = .exited exitCode out err →
    isENOENTStderr (stdout err) = false

/-- What does not depend on the tree, turn by turn. -/
structure Env where
  backend : Backend
  /-- A system call that fails. -/
  fault : Nat → Option Bytes
  /-- The bytes written before a write fails. -/
  written : Nat → Nat
  /-- The random part of temporary names. -/
  random : Nat → Nat
  /-- A command that fails. -/
  failing : Nat → Option Failing
  /-- What can be read from a device. -/
  device : Nat → Bytes

/-- A file tree and the number of calls so far. -/
structure Host where
  tree : Tree
  turn : Nat

/-- The operations of a manager. -/
abbrev Op (α : Type) := EStateM FsError Host α

/-- The error of a failed call, in a context. -/
def callError (context : Bytes) : CallError → FsError
  | .walk e => walkError context e
  | .exist => ⟨.other, context ++ textBytes ": file exists"⟩
  | .isDirectory => ⟨.other, context ++ textBytes ": is a directory"⟩

/-- A system call: it fails of itself, or changes the tree. -/
def call {α : Type} (env : Env) (context : Bytes) (act : Tree → Except FsError (α × Tree)) :
    Op α := fun h =>
  match env.fault h.turn with
  | some e => .error ⟨.other, context ++ textBytes ": " ++ e⟩ ⟨h.tree, h.turn + 1⟩
  | none =>
    match act h.tree with
    | .ok (a, tree) => .ok a ⟨tree, h.turn + 1⟩
    | .error e => .error e ⟨h.tree, h.turn + 1⟩

/-- A check of the tree. -/
def check {α : Type} (env : Env) (context : Bytes) (f : Tree → Except FsError α) : Op α :=
  call env context fun t => (f t).map (·, t)

/-- One stage of a command; an error is its diagnostic. -/
abbrev Stage := Tree → Except Bytes Tree

/-- Stages in order, up to the first that fails. -/
def runStages : List Stage → Tree → Tree × Option Bytes
  | [], t => (t, none)
  | stage :: rest, t =>
    match stage t with
    | .ok t' => runStages rest t'
    | .error e => (t, some e)

/-- A command: its stages, what a failure still does on its way out, and its output. -/
structure Shell where
  stages : List Stage
  trap : Tree → Tree
  output : Tree → Bytes

/-- The end of a command on a tree. -/
def finish (env : Env) (h : Host) (outcome : Outcome) (t : Tree) :
    EStateM.Result FsError Host Result :=
  match run env.backend outcome with
  | .ok res => .ok res ⟨t, h.turn + 1⟩
  | .error e => .error (runErr e) ⟨t, h.turn + 1⟩

/-- `Manager.run`. -/
def runCommand (env : Env) (script : Host → Shell) : Op Result := fun h =>
  match env.failing h.turn with
  | some f => finish env h f.outcome (runStages ((script h).stages.take f.progress) h.tree).1
  | none =>
    match runStages (script h).stages h.tree with
    | (t, none) => finish env h (.exited 0 ((script h).output t) []) t
    | (t, some stderr) => finish env h (.exited 1 [] stderr) ((script h).trap t)

/-- Run a command that has to succeed. -/
def execute (env : Env) (name : String) (script : Host → Shell) : Op Bytes := do
  let res ← runCommand env script
  if res.exitCode ≠ 0 then throw (cmdErr name res)
  else return res.stdout

/-! ## Reading -/

/-- The message of a failed walk, as commands print it. -/
def WalkError.diagnostic : WalkError → Bytes
  | .notExist => textBytes "No such file or directory"
  | .notDirectory => textBytes "Not a directory"
  | .tooManyLinks => textBytes "Too many levels of symbolic links"

/-- The message of a failed call, as commands print it. -/
def CallError.diagnostic : CallError → Bytes
  | .walk e => WalkError.diagnostic e
  | .exist => textBytes "File exists"
  | .isDirectory => textBytes "Is a directory"

/-- `cat` of a path. -/
def cat (device : Bytes) (path : List Bytes) : Shell where
  stages := [fun t =>
    match stat t path with
    | .error e =>
      .error (textBytes "cat: " ++ render path ++ textBytes ": " ++ WalkError.diagnostic e)
    | .ok loc =>
      if t.entry loc = some .directory then
        .error (textBytes "cat: " ++ render path ++ textBytes ": Is a directory")
      else .ok t]
  trap := id
  output t :=
    match (stat t path).toOption.bind t.entry with
    | some (.file content) => content
    | _ => device

/-- The direct read: a link is not followed, and only a regular file is read. -/
def openAndRead (path : Bytes) (resolved : List Bytes) (t : Tree) : Except FsError Bytes := do
  let loc ← (leafAt t resolved).mapError (callError (textBytes "open " ++ render resolved))
  match t.entry loc with
  | some (.file content) => .ok content
  | some .directory =>
    .error ⟨.other, textBytes "read " ++ path ++ textBytes ": not a regular file (d---------)"⟩
  | some .special =>
    .error ⟨.other, textBytes "read " ++ path ++ textBytes ": not a regular file"⟩
  | some (.link _) =>
    .error ⟨.other, textBytes "open " ++ render resolved ++
      textBytes ": too many levels of symbolic links"⟩
  | none => .error (walkError (textBytes "open " ++ render resolved) .notExist)

def readFile (env : Env) (path : Bytes) : Op Bytes := do
  let resolved ← check env (textBytes "resolve " ++ path) (resolveAndValidatePath · path)
  if env.backend = .direct then
    check env (textBytes "open " ++ render resolved) (openAndRead path resolved)
  else do
    let res ← runCommand env fun h => cat (env.device h.turn) resolved
    if res.exitCode ≠ 0 then
      if isENOENTStderr res.stderr then
        throw ⟨.notExist, textBytes "read " ++ path ++ textBytes ": file does not exist"⟩
      else throw (cmdErr "cat" res)
    else return res.stdout

/-! ## Removing -/

/-- `os.Remove` of something other than a directory. -/
def osRemove (env : Env) (path : List Bytes) : Op Unit :=
  call env (textBytes "remove " ++ render path) fun t =>
    ((unlink t path).mapError (callError (textBytes "remove " ++ render path))).map ((), ·)

/-- `os.Remove` of what may be missing. -/
def osRemoveIfPresent (env : Env) (path : List Bytes) : Op Unit :=
  call env (textBytes "remove " ++ render path) fun t =>
    match unlink t path with
    | .ok t' => .ok ((), t')
    | .error (.walk .notExist) => .ok ((), t)
    | .error e => .error (callError (textBytes "remove " ++ render path) e)

/-- `rm -f`. -/
def rm (path : List Bytes) : Shell where
  stages := [fun t =>
    match unlink t path with
    | .ok t' => .ok t'
    | .error (.walk .notExist) => .ok t
    | .error e => .error (textBytes "rm: cannot remove '" ++ render path ++ textBytes "': " ++
        CallError.diagnostic e)]
  trap := id
  output _ := []

def remove (env : Env) (path : Bytes) : Op Unit := do
  let resolved ← check env (textBytes "resolve " ++ path) (resolveAndValidatePath · path)
  if env.backend = .direct then do
    inspect fun h =>
      if (lstat h.tree resolved).toOption.bind h.tree.entry = some .directory then
        .error ⟨.other, textBytes "remove " ++ path ++ textBytes ": is a directory (use RemoveDir)"⟩
      else .ok ()
    osRemoveIfPresent env resolved
  else do
    check env (textBytes "stat parent " ++ render resolved.dropLast)
      (parentDirSafe · resolved.dropLast)
    let _ ← execute env "rm" fun _ => rm resolved

/-! ## Writing -/

/-- The mode of a new temporary file. -/
def tempMode : Nat := 0o600

/-- Decimal digits. -/
def decimal (n : Nat) : Bytes :=
  (Nat.toDigits 10 n).map fun c => UInt8.ofNat c.toNat

/-- `os.CreateTemp`: the path and the open file.  The repeated attempts are left to the
choice of the random part. -/
def createTemp (env : Env) (dir : List Bytes) (start : Bytes) : Op (List Bytes × List Bytes) := do
  let h ← get
  let path := dir ++ [start ++ decimal (env.random h.turn % 2 ^ 32)]
  let context := textBytes "create temp in " ++ render dir
  call env context fun t => do
    let (t', loc) ← (createFile t path tempMode).mapError (callError context)
    return ((path, loc), t')

/-- Set content and mode of an open file. -/
def setFile (context : Bytes) (loc : List Bytes) (content : Bytes) (mode : Nat) (t : Tree) :
    Except FsError (Unit × Tree) :=
  ((putAt t loc (some (.file content)) ⟨0, mode⟩).mapError (callError context)).map ((), ·)

/-- `io.Copy` into an open file; one that fails leaves a part. -/
def copyInto (env : Env) (context : Bytes) (loc : List Bytes) (content : Bytes) : Op Unit :=
  fun h =>
    let part := if (env.fault h.turn).isSome then content.take (env.written h.turn) else content
    match setFile context loc part tempMode h.tree, env.fault h.turn with
    | .error e, _ => .error e ⟨h.tree, h.turn + 1⟩
    | .ok (_, t), some e => .error ⟨.other, context ++ textBytes ": " ++ e⟩ ⟨t, h.turn + 1⟩
    | .ok (_, t), none => .ok () ⟨t, h.turn + 1⟩

/-- The part of `writeTempFrom` that a failure cleans up after. -/
def fillTemp (env : Env) (path file : List Bytes) (content : Bytes) (perm : FileMode) :
    Op Unit := do
  copyInto env (textBytes "write " ++ render path) file content
  let chmod := textBytes "chmod temp for " ++ render path
  call env chmod (setFile chmod file content perm.perm)
  call env (textBytes "sync temp for " ++ render path) fun t => .ok ((), t)
  call env (textBytes "close temp for " ++ render path) fun t => .ok ((), t)

def writeTempFrom (env : Env) (path : List Bytes) (content : Bytes) (perm : FileMode) :
    Op (List Bytes) := do
  orFail id (validateMode perm)
  let (tmp, file) ← createTemp env path.dropLast
    (textBytes "." ++ path.getLastD [] ++ textBytes ".tmp-")
  onFailure (fillTemp env path file content perm) (osRemove env tmp)
  return tmp

/-- `safeRename` over what is there. -/
def safeRename (env : Env) (old new : List Bytes) : Op Unit :=
  let context := textBytes "rename " ++ render old ++ textBytes " -> " ++ render new
  call env context fun t => ((rename t old new).mapError (callError context)).map ((), ·)

/-- `replaceFileFrom` over what is there. -/
def replaceFileFrom (env : Env) (path : List Bytes) (content : Bytes) (perm : FileMode) :
    Op Unit := do
  let tmp ← writeTempFrom env path content perm
  onFailure (safeRename env tmp path) (osRemove env tmp)

/-- The ten random characters of `mktemp`. -/
def mktempSuffix (n : Nat) : Bytes :=
  (List.range 10).map fun i =>
    let d := n / 62 ^ i % 62
    if d < 10 then UInt8.ofNat (48 + d)
    else if d < 36 then UInt8.ofNat (55 + d)
    else UInt8.ofNat (61 + d)

/-- What the shell keeps of a command's output. -/
def substituted (output : Bytes) : Bytes :=
  (output.reverse.dropWhile (· = newline)).reverse

/-- The path that `mktemp` makes next to a target. -/
def mktempPath (env : Env) (turn : Nat) (target : List Bytes) (start : Bytes) : Bytes :=
  substituted (render target.dropLast) ++ slash :: (start ++ mktempSuffix (env.random turn))

/-- The stages of a script up to a filled temporary file. -/
def mktempStages (tmp : Bytes) (loc : Except CallError (List Bytes)) (content : Bytes)
    (mode : FileMode) : List Stage :=
  let failed (e : CallError) : Bytes := textBytes "mktemp: failed to create file via template '" ++
    tmp ++ textBytes "': " ++ CallError.diagnostic e
  match loc with
  | .error e => [fun _ => .error (failed e)]
  | .ok loc =>
    let set (content : Bytes) (mode : Nat) : Stage := fun t =>
      (putAt t loc (some (.file content)) ⟨0, mode⟩).mapError failed
    [fun t => if (t.entry loc).isSome then .error (failed .exist) else set [] tempMode t,
      set content tempMode, set content mode.perm]

/-- The trap of a script: the temporary file, if it was made, is removed. -/
def mktempTrap (before : Tree) (loc : Except CallError (List Bytes)) (t : Tree) : Tree :=
  match loc with
  | .error _ => t
  | .ok loc =>
    if (before.entry loc).isSome then t
    else (putAt t loc none ⟨0, 0⟩).toOption.getD t

/-- `mv -T` of a leaf. -/
def mv (source : Except CallError (List Bytes)) (target : List Bytes) : Stage := fun t => do
  let context := textBytes "mv: cannot move to '" ++ render target ++ textBytes "': "
  let source ← source.mapError fun e => context ++ CallError.diagnostic e
  if leafAt t target = .ok source then .error (context ++ textBytes "are the same file")
  else (moveTo t source target).mapError fun e => context ++ CallError.diagnostic e

/-- `escalatedWriteScript` without backup and owner. -/
def escalatedWriteScript (env : Env) (target : List Bytes) (content : Bytes) (mode : FileMode)
    (h : Host) : Shell :=
  let tmp := mktempPath env h.turn target (textBytes ".pm-")
  let loc := leafAt h.tree (names tmp)
  { stages := mktempStages tmp loc content mode ++ [mv loc target]
    trap := mktempTrap h.tree loc
    output := fun _ => [] }

/-- `Manager.WriteFile` with a mode, and without backup and owner. -/
def writeFile (env : Env) (path : Bytes) (content : Bytes) (mode : FileMode) : Op Unit := do
  orFail id (validateMode mode)
  let resolved ← check env (textBytes "resolve " ++ path) (resolveAndValidatePath · path)
  check env (textBytes "stat parent " ++ render resolved.dropLast)
    (parentDirSafe · resolved.dropLast)
  if env.backend = .direct then replaceFileFrom env resolved content mode
  else do
    let _ ← execute env "sh" (escalatedWriteScript env resolved content mode)

/-! ## Rules for calls and commands -/

section rules

variable {α : Type} {env : Env} {h : Host} {context : Bytes}
variable {failed : FsError → Host → Prop}

theorem ends_call {act : Tree → Except FsError (α × Tree)} {ok : α → Host → Prop}
    (hok : ∀ a t, act h.tree = .ok (a, t) → ok a ⟨t, h.turn + 1⟩)
    (hfailed : ∀ e, (e.sentinel = .notExist → act h.tree = .error e) →
      failed e ⟨h.tree, h.turn + 1⟩) : Ends (call env context act) h ok failed := by
  simp only [Ends, call, EStateM.run]
  cases hfault : env.fault h.turn with
  | some e => exact hfailed _ (by simp)
  | none =>
    cases hact : act h.tree with
    | ok r => exact hok r.1 r.2 hact
    | error e => exact hfailed e fun _ => hact

theorem ends_check {f : Tree → Except FsError α} {ok : α → Host → Prop}
    (hok : ∀ a, f h.tree = .ok a → ok a ⟨h.tree, h.turn + 1⟩)
    (hfailed : ∀ e, (e.sentinel = .notExist → f h.tree = .error e) →
      failed e ⟨h.tree, h.turn + 1⟩) : Ends (check env context f) h ok failed := by
  apply ends_call
  · intro a t hact
    rw [map_eq_ok] at hact
    rcases hact with ⟨b, hf, heq⟩
    cases heq
    exact hok a hf
  · intro e he
    refine hfailed e fun hnotExist => ?_
    have hact := he hnotExist
    cases hf : f h.tree with
    | ok a => simp [hf, Except.map] at hact
    | error e' => simpa [hf, Except.map] using hact

/-- What a command that did not succeed leaves. -/
def Shell.Disturbed (script : Shell) (t t' : Tree) : Prop :=
  (∃ n, t' = (runStages (script.stages.take n) t).1) ∨
    ∃ t'' stderr, runStages script.stages t = (t'', some stderr) ∧ t' = script.trap t''

theorem runStages_cons_ok {stage : Stage} {rest : List Stage} {t t' : Tree} :
    runStages (stage :: rest) t = (t', none) ↔
      ∃ t₁, stage t = .ok t₁ ∧ runStages rest t₁ = (t', none) := by
  rw [runStages]
  cases hstage : stage t <;> simp

/-- What every stage keeps holds after any of them. -/
theorem runStages_keeps {P : Tree → Prop} {stages : List Stage} {t : Tree}
    (hstages : ∀ stage ∈ stages, ∀ t t', P t → stage t = .ok t' → P t') (h : P t) :
    P (runStages stages t).1 := by
  induction stages generalizing t with
  | nil => exact h
  | cons stage rest ih =>
    rw [runStages]
    cases hstage : stage t with
    | error e => exact h
    | ok t' =>
      have hrest : ∀ stage ∈ rest, ∀ t t', P t → stage t = .ok t' → P t' :=
        (List.forall_mem_cons.mp hstages).2
      exact ih hrest (hstages stage List.mem_cons_self t t' h hstage)

/-- What every stage and the trap keep holds after a command that did not succeed. -/
theorem Shell.Disturbed.keeps {P : Tree → Prop} {script : Shell} {t t' : Tree}
    (hdisturbed : script.Disturbed t t')
    (hstages : ∀ stage ∈ script.stages, ∀ t t', P t → stage t = .ok t' → P t')
    (htrap : ∀ t, P t → P (script.trap t)) (h : P t) : P t' := by
  rcases hdisturbed with ⟨n, rfl⟩ | ⟨t'', stderr, hrun, rfl⟩
  · exact runStages_keeps (fun stage hmem => hstages stage (List.mem_of_mem_take hmem)) h
  · apply htrap
    have hkept := runStages_keeps hstages h
    rwa [hrun] at hkept

theorem runErr_sentinel (e : RunError) : (runErr e).sentinel = .other := by
  cases e <;> rfl

variable {script : Host → Shell}

/-- The two ways in which a command ends. -/
theorem ends_runCommand :
    Ends (runCommand env script) h
      (fun res h' =>
        (res.exitCode = 0 ∧ runStages (script h).stages h.tree = (h'.tree, none) ∧
          res.stdout = stdout ((script h).output h'.tree)) ∨
        (res.exitCode ≠ 0 ∧ (script h).Disturbed h.tree h'.tree ∧
          (isENOENTStderr res.stderr = true →
            ∃ t stderr, runStages (script h).stages h.tree = (t, some stderr))))
      (fun e h' => e.sentinel = .other ∧ (script h).Disturbed h.tree h'.tree) := by
  simp only [Ends, runCommand, EStateM.run]
  cases hfailing : env.failing h.turn with
  | some f =>
    simp only [finish]
    cases hrun : run env.backend f.outcome with
    | error e => exact ⟨runErr_sentinel e, .inl ⟨_, rfl⟩⟩
    | ok res =>
      rcases run_eq_ok hrun with ⟨exitCode, out, err, houtcome, rfl⟩
      refine .inr ⟨?_, .inl ⟨_, rfl⟩, ?_⟩
      · rintro rfl
        exact f.unsuccessful out err houtcome
      · intro henoent
        rw [f.unrelated exitCode out err houtcome] at henoent
        cases henoent
  | none =>
    cases hstages : runStages (script h).stages h.tree with
    | mk t stderr =>
      cases stderr with
      | none => simp [finish, run_success]
      | some stderr =>
        have hdisturbed : (script h).Disturbed h.tree ((script h).trap t) :=
          .inr ⟨t, stderr, hstages, rfl⟩
        simp only [finish]
        cases hrun : run env.backend (.exited 1 [] stderr) with
        | error e => exact ⟨runErr_sentinel e, hdisturbed⟩
        | ok res =>
          rcases run_eq_ok hrun with ⟨exitCode, out, err, houtcome, rfl⟩
          cases houtcome
          exact .inr ⟨by simp, hdisturbed, fun _ => ⟨t, stderr, rfl⟩⟩

theorem ends_execute {name : String} :
    Ends (execute env name script) h
      (fun out h' => runStages (script h).stages h.tree = (h'.tree, none) ∧
        out = stdout ((script h).output h'.tree))
      (fun _ h' => (script h).Disturbed h.tree h'.tree) := by
  apply Ends.bind
  refine ends_runCommand.mono ?_ fun e h' he => he.2
  rintro res h' (⟨hzero, hstages, hout⟩ | ⟨hfailed, hdisturbed, -⟩)
  · rw [if_neg (not_not.mpr hzero)]
    exact Ends.pure ⟨hstages, hout⟩
  · rw [if_pos hfailed]
    exact Ends.throw hdisturbed

/-- A command of one stage: it takes effect, or, if it fails, may have. -/
theorem ends_execute_single {name : String} {stage : Stage}
    (hstages : (script h).stages = [stage]) (htrap : (script h).trap = id) :
    Ends (execute env name script) h
      (fun _ h' => stage h.tree = .ok h'.tree)
      (fun _ h' => h'.tree = h.tree ∨ stage h.tree = .ok h'.tree) := by
  have hrun : ∀ t e, runStages [stage] h.tree = (t, e) →
      (e = none ∧ stage h.tree = .ok t) ∨ (e ≠ none ∧ t = h.tree) := by
    intro t e hstage
    unfold runStages at hstage
    split at hstage
    · rename_i t' hok
      cases hstage
      exact .inl ⟨rfl, hok⟩
    · cases hstage
      exact .inr ⟨by simp, rfl⟩
  refine ends_execute.mono ?_ ?_
  · rintro out h' ⟨hsuccess, -⟩
    rw [hstages] at hsuccess
    rcases hrun _ _ hsuccess with hdone | hfailed
    · exact hdone.2
    · exact absurd rfl hfailed.1
  · rintro e h' (⟨n, hn⟩ | ⟨t, stderr, hfailed, htree⟩)
    · rw [hstages] at hn
      cases n with
      | zero => exact .inl hn
      | succ n =>
        rw [List.take_succ_cons, List.take_nil] at hn
        rcases hrun h'.tree _ (by rw [hn]) with hdone | hsame
        · exact .inr hdone.2
        · exact .inl hsame.2
    · rw [hstages] at hfailed
      rw [htrap] at htree
      rcases hrun t _ hfailed with hdone | hsame
      · cases hdone.1
      · exact .inl (htree.trans hsame.2)

end rules

end PowerManage.Fsafe
