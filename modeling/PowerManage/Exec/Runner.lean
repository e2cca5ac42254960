import PowerManage.Exec.Capture

/-!
# The command runner

A command runs through the privilege backend; its result is the captured output and the
exit code, and an error only if it could not be run or the backend refused.
-/

namespace PowerManage.Exec

open Utf8 (textBytes)

/-- `PrivilegeBackend`. -/
inductive Backend where
  | sudo
  | doas
  | direct
  deriving DecidableEq, Repr

structure Result where
  exitCode : Int
  stdout : Bytes
  stderr : Bytes
  deriving DecidableEq, Repr

/-- What becomes of a child process: it is not run to its end, for a reason, or it prints
two streams and exits. -/
inductive Outcome where
  | failed (e : Bytes)
  | exited (exitCode : Int) (stdout stderr : Bytes)
  deriving DecidableEq, Repr

/-- The errors of `Run`. -/
inductive RunError where
  | escalationDenied (detail : Bytes)
  | failed (e : Bytes)
  deriving DecidableEq, Repr

/-- ASCII white space. -/
def isSpace (b : UInt8) : Bool :=
  b == 32 || (9 ≤ b && b ≤ 13)

/-- `strings.TrimSpace`, on output in the C locale. -/
def trimSpace (bytes : Bytes) : Bytes :=
  ((bytes.dropWhile isSpace).reverse.dropWhile isSpace).reverse

def contains (bytes : Bytes) (part : String) : Bool :=
  bytes.tails.any (textBytes part).isPrefixOf

def detectEscalationDenied (backend : Backend) (res : Result) : Option RunError :=
  let refusals := match backend with
    | .sudo => ["a password is required", "a terminal is required", "no askpass program"]
    | .doas => ["Authorization required", "Authentication failed"]
    | .direct => []
  if res.exitCode ≠ 0 ∧ refusals.any (contains res.stderr) then
    some (.escalationDenied (trimSpace res.stderr))
  else none

/-- `Runner.Run` of an escalating command. -/
def run (backend : Backend) : Outcome → Except RunError Result
  | .failed e => .error (.failed e)
  | .exited exitCode out err =>
    let res : Result := ⟨exitCode, stdout out, stdout err⟩
    match detectEscalationDenied backend res with
    | some denied => .error denied
    | none => .ok res

/-- A command that succeeds is reported with its captured output. -/
theorem run_success (backend : Backend) (out err : Bytes) :
    run backend (.exited 0 out err) = .ok ⟨0, stdout out, stdout err⟩ := by
  simp [run, detectEscalationDenied]

/-- A result is that of a command that ran to its end. -/
theorem run_eq_ok {backend : Backend} {outcome : Outcome} {res : Result}
    (h : run backend outcome = .ok res) :
    ∃ exitCode out err, outcome = .exited exitCode out err ∧
      res = ⟨exitCode, stdout out, stdout err⟩ := by
  cases outcome with
  | failed e => cases h
  | exited exitCode out err =>
    simp only [run] at h
    split at h
    · cases h
    · cases h
      exact ⟨exitCode, out, err, rfl, rfl⟩

theorem run_exitCode_zero {backend : Backend} {outcome : Outcome} {res : Result}
    (h : run backend outcome = .ok res) (hzero : res.exitCode = 0) :
    ∃ out err, outcome = .exited 0 out err ∧ res.stdout = stdout out := by
  rcases run_eq_ok h with ⟨exitCode, out, err, houtcome, rfl⟩
  exact ⟨out, err, hzero ▸ houtcome, rfl⟩

end PowerManage.Exec
