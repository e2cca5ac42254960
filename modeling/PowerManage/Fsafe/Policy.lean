import PowerManage.Fsafe.Manager
import PowerManage.Fsafe.Rollback

/-!
# Managed policy files

`ApplyPolicyFile` renders the desired file, writes it next to its target, has it
validated, swaps it in and reloads the service; a step that fails leads to the compensation
of those before it.
-/

namespace PowerManage.Fsafe

open Exec FileSystem Paths Relational Interaction
open Utf8 (textBytes)

/-! ## Requests -/

/-- An error of the policy functions; `invalid` marks `ErrInvalidPolicyFile`. -/
structure PolicyError where
  invalid : Bool
  sentinel : Sentinel
  message : Bytes
  deriving DecidableEq, Repr

/-- `ErrInvalidPolicyFile` with a detail. -/
def invalidPolicyFile (detail : String) : PolicyError where
  invalid := true
  sentinel := .other
  message := textBytes "fsafe: invalid policy file: " ++ textBytes detail

/-- `ErrInvalidPolicyFile` around another error. -/
def invalidPolicyFileOf (context : String) (e : FsError) : PolicyError where
  invalid := true
  sentinel := e.sentinel
  message := textBytes "fsafe: invalid policy file: " ++ textBytes context ++ e.message

/-- Another error in a context. -/
def policyErrorOf (context : String) (e : FsError) : PolicyError where
  invalid := false
  sentinel := e.sentinel
  message := textBytes context ++ e.message

inductive PolicySurface where
  | ssh
  | sshd
  | adminPolicy
  | unknown (value : Nat)
  deriving DecidableEq, Repr

inductive PolicyFilePresence where
  | present
  | absent
  | unknown
  deriving DecidableEq, Repr

structure PolicyManagedBlock where
  begin_ : Bytes
  end_ : Bytes
  deriving DecidableEq, Repr

structure PolicyFileState where
  presence : PolicyFilePresence
  content : Bytes
  block : Option PolicyManagedBlock
  deriving DecidableEq, Repr

structure PolicyFileRequest where
  surface : PolicySurface
  path : Bytes
  desired : PolicyFileState
  deriving DecidableEq, Repr

structure PolicyFileResult where
  changed : Bool
  previous : PolicyFileState
  deriving DecidableEq, Repr

/-! ## Surfaces -/

inductive PolicyPathClass where
  | sshdPerAction
  | sshdGlobal
  | sudoers
  deriving DecidableEq, Repr

inductive PolicyValidator where
  | sshd
  | visudo
  deriving DecidableEq, Repr

inductive PolicyReload where
  | sshd
  | none
  deriving DecidableEq, Repr

structure PolicySurfaceSpec where
  path : PolicyPathClass
  validator : PolicyValidator
  reload : PolicyReload
  deriving DecidableEq, Repr

/-- `policySurface`, with `policySurfaceTable`. -/
def policySurface : PolicySurface → Except PolicyError PolicySurfaceSpec
  | .ssh => .ok ⟨.sshdPerAction, .sshd, .sshd⟩
  | .sshd => .ok ⟨.sshdGlobal, .sshd, .sshd⟩
  | .adminPolicy => .ok ⟨.sudoers, .visudo, .none⟩
  | .unknown value => .error (invalidPolicyFile s!"unknown surface {value}")

def policyRootFor : PolicyPathClass → Bytes
  | .sshdPerAction | .sshdGlobal => textBytes "/etc/ssh/sshd_config.d"
  | .sudoers => textBytes "/etc/sudoers.d"

def policyFileMode : PolicyPathClass → FileMode
  | .sudoers => ⟨0o440, false, false, false⟩
  | .sshdPerAction | .sshdGlobal => ⟨0o644, false, false, false⟩

def isPolicyNameAlnum (b : UInt8) : Bool :=
  (97 ≤ b && b ≤ 122) || (65 ≤ b && b ≤ 90) || (48 ≤ b && b ≤ 57)

/-- The names that `validatePolicyFilename` lets through before the suffix. -/
def validPolicyName (allowDot : Bool) : Bytes → Bool
  | [] => false
  | first :: rest =>
    isPolicyNameAlnum first &&
      rest.all fun b => isPolicyNameAlnum b || b == 45 || b == 95 || (allowDot && b == dot)

def validatePolicyFilename (pathClass : PolicyPathClass) (name : Bytes) : Except PolicyError Unit :=
  let effective : Bool := match pathClass with
    | .sshdPerAction | .sshdGlobal =>
      validPolicyName true name && (textBytes ".conf").isSuffixOf name
    | .sudoers => validPolicyName false name
  if ¬ effective then .error (invalidPolicyFile "target filename is not effective for its surface")
  else .ok ()

/-- The link check of `validatePolicyTarget`. -/
def refuseLink (t : Tree) (literal : List Bytes) : Except PolicyError Unit :=
  match lstat t literal with
  | .ok loc =>
    if (t.entry loc).any fun e => e matches .link _ then
      .error (invalidPolicyFile "target is a symlink")
    else .ok ()
  | .error .notExist => .ok ()
  | .error e =>
    .error (policyErrorOf "inspect policy target: "
      (walkError (textBytes "lstat " ++ render literal) e))

/-- `validatePolicyTarget`: the names of the resolved target. -/
def validatePolicyTarget (t : Tree) (path : Bytes) (pathClass : PolicyPathClass) :
    Except PolicyError (List Bytes) := do
  (validatePath path).mapError (invalidPolicyFileOf "")
  if ¬ isAbs path then .error (invalidPolicyFile "target is not absolute")
  else do
    let literal := names path
    let root := names (policyRootFor pathClass)
    if literal.dropLast ≠ root then
      .error (invalidPolicyFile "target is outside its surface path class")
    else do
      validatePolicyFilename pathClass (literal.getLastD [slash])
      (parentDirSafe t root).mapError (policyErrorOf "")
      refuseLink t literal
      let resolvedRoot ← (resolveAndValidatePath t (render root)).mapError
        (invalidPolicyFileOf "resolve surface root: ")
      let resolvedTarget ← (resolveAndValidatePath t (render literal)).mapError
        (invalidPolicyFileOf "resolve target: ")
      if resolvedTarget.dropLast ≠ resolvedRoot then
        .error (invalidPolicyFile "resolved target escapes its surface path class")
      else return resolvedTarget

/-! ## Rendering -/

/-- `hasControlChar`, on bytes. -/
def hasControlChar (text : Bytes) : Bool :=
  text.any fun b => b < 32 || b == 127

/-- `validate.SSHDConfigValue` and `validate.SudoersValue`. -/
def validateLine (validator : PolicyValidator) (line : Bytes) : Bool :=
  match validator with
  | .sshd => ! hasControlChar line
  | .visudo => ! hasControlChar line && line.getLast? != some 92

def validatePolicyMarkers (block : PolicyManagedBlock) (validator : PolicyValidator) :
    Except PolicyError Unit :=
  if block.begin_ = [] ∨ block.end_ = [] ∨ block.begin_ = block.end_ then
    .error (invalidPolicyFile "managed-block markers must be non-empty and distinct")
  else if ¬ ((textBytes "# ").isPrefixOf block.begin_ ∧ (textBytes "# ").isPrefixOf block.end_) then
    .error (invalidPolicyFile "managed-block markers must be comment lines")
  else if ¬ validateLine validator block.begin_ then
    .error (invalidPolicyFile "invalid begin marker")
  else if ¬ validateLine validator block.end_ then
    .error (invalidPolicyFile "invalid end marker")
  else .ok ()

structure PolicyMarkerSpan where
  start : Nat
  stop : Nat
  deriving DecidableEq, Repr

/-- The loop of `policyMarkerSpans` over the lines, each given without its end. -/
def markerSpansFrom (marker : Bytes) : Nat → List Bytes → List PolicyMarkerSpan
  | _, [] => []
  | start, [last] => if last = marker then [⟨start, start + last.length⟩] else []
  | start, line :: rest =>
    (if line = marker then [⟨start, start + line.length + 1⟩] else []) ++
      markerSpansFrom marker (start + line.length + 1) rest

def policyMarkerSpans (content : Bytes) (marker : Bytes) : List PolicyMarkerSpan :=
  markerSpansFrom marker 0 (content.splitOn newline)

/-- A text whose last line is ended, if it has one. -/
def withNewline (content : Bytes) : Bytes :=
  if content ≠ [] ∧ content.getLast? ≠ some newline then content ++ [newline] else content

def policyBlockBytes (block : PolicyManagedBlock) (content : Bytes) : Bytes :=
  block.begin_ ++ newline :: (withNewline content ++ block.end_ ++ [newline])

def renderPolicyBlock (current : Bytes) (block : PolicyManagedBlock)
    (desired : PolicyFileState) : Except PolicyError Bytes :=
  match policyMarkerSpans current block.begin_, policyMarkerSpans current block.end_ with
  | [], [] =>
    if desired.presence = .absent then .ok current
    else .ok (withNewline current ++ policyBlockBytes block desired.content)
  | [first], [last] =>
    if last.start ≤ first.start then
      .error (invalidPolicyFile "managed-block markers are missing, duplicated, or out of order")
    else if desired.presence = .absent then
      .ok (current.take first.start ++ current.drop last.stop)
    else
      .ok (current.take first.start ++ policyBlockBytes block desired.content ++
        current.drop last.stop)
  | _, _ =>
    .error (invalidPolicyFile "managed-block markers are missing, duplicated, or out of order")

def renderPolicyState (desired current : PolicyFileState) (validator : PolicyValidator) :
    Except PolicyError PolicyFileState :=
  if desired.presence = .unknown then .error (invalidPolicyFile "desired presence is required")
  else
    match desired.block with
    | none =>
      if desired.presence = .absent ∧ desired.content ≠ [] then
        .error (invalidPolicyFile "absent whole file carries content")
      else .ok ⟨desired.presence, desired.content, none⟩
    | some block =>
      if desired.presence = .absent ∧ desired.content ≠ [] then
        .error (invalidPolicyFile "absent managed block carries content")
      else do
        validatePolicyMarkers block validator
        if policyMarkerSpans desired.content block.begin_ ≠ [] ∨
            policyMarkerSpans desired.content block.end_ ≠ [] then
          .error (invalidPolicyFile "managed content contains a block marker")
        else do
          let content ← renderPolicyBlock current.content block desired
          if current.presence = .absent ∧ desired.presence = .absent then
            return ⟨.absent, [], none⟩
          else return ⟨.present, content, none⟩

def samePolicyState (sha256 : Bytes → Bytes) (a b : PolicyFileState) : Bool :=
  if a.presence ≠ b.presence then false
  else if a.presence = .absent then true
  else sha256 a.content == sha256 b.content

/-! ## The transaction -/

/-- The state of a call: the host, the variable `candidate`, and the files that a
validator has accepted, with its command. -/
structure Txn where
  host : Host
  candidate : Bytes
  accepted : List (List Bytes × Option Entry)

/-- An operation of the manager within a call. -/
def onHost {α : Type} (p : Op α) : EStateM PolicyError Txn α :=
  mapFailure (policyErrorOf "") (zoom Txn.host (fun h s => { s with host := h }) p)

def readPolicyState (env : Env) (path : List Bytes) : EStateM PolicyError Txn PolicyFileState :=
  let read : EStateM PolicyError Txn PolicyFileState := do
    let content ← onHost (readFile env (render path))
    return ⟨.present, content, none⟩
  handle read fun e =>
    if e.sentinel = .notExist then return ⟨.absent, [], none⟩
    else throw { e with message := textBytes "read policy file: " ++ e.message }

def policyCandidateScript (env : Env) (target : List Bytes) (content : Bytes)
    (mode : FileMode) (h : Host) : Shell :=
  let tmp := mktempPath env h.turn target (textBytes ".pm-policy-")
  let loc := leafAt h.tree (names tmp)
  { stages := mktempStages tmp loc content mode
    trap := mktempTrap h.tree loc
    output := fun _ => tmp ++ [newline] }

/-- `strings.TrimSuffix` of a newline. -/
def trimNewline (text : Bytes) : Bytes :=
  if text.getLast? = some newline then text.dropLast else text

/-- The checks on the path that the candidate script prints. -/
def checkCandidate (target : List Bytes) (candidate : Bytes) : Except PolicyError Unit :=
  if candidate = [] ∨ 13 ∈ candidate ∨ newline ∈ candidate ∨ 0 ∈ candidate ∨
      dirNames candidate ≠ target.dropLast ∨
      ¬ (textBytes ".pm-policy-").isPrefixOf ((names candidate).getLastD [slash]) then
    .error (invalidPolicyFile "candidate writer returned an invalid path")
  else (validatePath candidate).mapError fun _ =>
    invalidPolicyFile "candidate writer returned an invalid path"

def createPolicyCandidate (env : Env) (target : List Bytes) (content : Bytes)
    (mode : FileMode) : EStateM PolicyError Txn Bytes := do
  onHost (check env (textBytes "stat parent " ++ render target.dropLast)
    (parentDirSafe · target.dropLast))
  if env.backend = .direct then do
    let tmp ← mapFailure
      (fun e => { e with message := textBytes "write policy candidate: " ++ e.message })
      (onHost (writeTempFrom env target content mode))
    return render tmp
  else do
    let out ← onHost (execute env "sh" (policyCandidateScript env target content mode))
    let candidate := trimNewline out
    orFail id (checkCandidate target candidate)
    return candidate

/-- The command of a validator. -/
def validatorCommand (validator : PolicyValidator) (candidate : Bytes) : List Bytes :=
  match validator with
  | .sshd => [textBytes "sshd", textBytes "-t", textBytes "-f", candidate]
  | .visudo => [textBytes "visudo", textBytes "-c", textBytes "-f", candidate]

/-- The name of a validator. -/
def validatorName : PolicyValidator → String
  | .sshd => "sshd"
  | .visudo => "visudo"

/-- A command without effect on the tree. -/
def harmless : Shell where
  stages := []
  trap := id
  output _ := []

/-- `Manager.validatePolicyCandidate`; a success is recorded with what the validator was
shown. -/
def validatePolicyCandidate (env : Env) (validator : PolicyValidator) :
    EStateM PolicyError Txn Unit := do
  let _ ← onHost (execute env (validatorName validator) fun _ => harmless)
  modify fun s => { s with accepted := s.accepted ++
    [(validatorCommand validator s.candidate, s.host.tree.entry (names s.candidate))] }

def swapPolicyCandidate (env : Env) (candidate : Bytes) (target : List Bytes) :
    EStateM PolicyError Txn Unit := do
  ensure (candidate ≠ [] ∧ dirNames candidate = target.dropLast)
    (invalidPolicyFile "candidate is not a target sibling")
  onHost (check env (textBytes "stat parent " ++ render target.dropLast)
    (parentDirSafe · target.dropLast))
  if env.backend = .direct then onHost (safeRename env (names candidate) target)
  else do
    let _ ← onHost (execute env "mv" fun h =>
      { stages := [mv (leafAt h.tree (names candidate)) target]
        trap := id
        output := fun _ => [] })

def reloadPolicySurface (env : Env) : PolicyReload → EStateM PolicyError Txn Unit
  | .none => pure ()
  | .sshd => do
      let _ ← onHost (execute env "systemctl" fun _ => harmless)

def restorePolicyState (env : Env) (target : List Bytes) (state : PolicyFileState)
    (mode : FileMode) : EStateM PolicyError Txn Unit :=
  if state.presence = .absent then onHost (remove env (render target))
  else onHost (writeFile env (render target) state.content mode)

/-- The error of a step: its cause, and a restore of its own that failed. -/
structure StepError where
  cause : PolicyError
  restore : Option PolicyError
  deriving DecidableEq, Repr

/-- A step's errors are those of an operation. -/
def asStep {α : Type} (p : EStateM PolicyError Txn α) : EStateM StepError Txn α :=
  mapFailure (⟨·, none⟩) p

/-- `m.Remove` of the candidate. -/
def removeCandidate (env : Env) : EStateM PolicyError Txn Unit := do
  let s ← get
  onHost (remove env s.candidate)

/-- Forget the candidate. -/
def clearCandidate {ε : Type} : EStateM ε Txn Unit :=
  modify fun s => { s with candidate := [] }

/-- The swap, which restores the target itself if it fails. -/
def swapStep (env : Env) (target : List Bytes) (current desired : PolicyFileState)
    (mode : FileMode) : EStateM StepError Txn Unit := do
  let s ← get
  let swap : EStateM PolicyError Txn Unit :=
    if desired.presence = .absent then onHost (remove env (render target))
    else swapPolicyCandidate env s.candidate target
  handle swap fun e => do
    mapFailure (fun restoreErr => ⟨e, some restoreErr⟩) (restorePolicyState env target current mode)
    throw ⟨e, none⟩
  clearCandidate

/-- The steps of `ApplyPolicyFile`. -/
def policySteps (env : Env) (row : PolicySurfaceSpec) (target : List Bytes)
    (current desired : PolicyFileState) : List (Rollback.Step StepError Txn) :=
  let mode := policyFileMode row.path
  [{ name := "write policy candidate"
     apply := asStep do
       let candidate ← createPolicyCandidate env target desired.content mode
       modify fun s => { s with candidate := candidate }
     rollback := asStep do
       let s ← get
       if s.candidate = [] then pure () else removeCandidate env },
   { name := "validate policy candidate"
     apply := asStep (validatePolicyCandidate env row.validator)
     rollback := pure () },
   { name := "discard absence candidate"
     apply := asStep (if desired.presence ≠ .absent then pure ()
       else do
         removeCandidate env
         clearCandidate)
     rollback := pure () },
   { name := "swap policy file"
     apply := swapStep env target current desired mode
     rollback := asStep (restorePolicyState env target current mode) },
   { name := "reload policy surface"
     apply := asStep (reloadPolicySurface env row.reload)
     rollback := pure () }]

/-- How `ApplyPolicyFile` fails: before the transaction, or in it. -/
inductive ApplyError where
  | refused (e : PolicyError)
  | unwound (e : Rollback.Failure StepError)
  deriving DecidableEq, Repr

def applyPolicyFile (env : Env) (sha256 : Bytes → Bytes) (req : PolicyFileRequest) :
    EStateM ApplyError Txn PolicyFileResult := do
  let row ← orFail .refused (policySurface req.surface)
  let target ← inspect fun s =>
    (validatePolicyTarget s.host.tree req.path row.path).mapError .refused
  let current ← mapFailure .refused (readPolicyState env target)
  let desired ← orFail .refused (renderPolicyState req.desired current row.validator)
  if samePolicyState sha256 current desired then return ⟨false, current⟩
  else do
    mapFailure .unwound (Rollback.run (policySteps env row target current desired))
    return ⟨true, current⟩

end PowerManage.Fsafe
