import PowerManage.Fsafe.PolicyTransaction

/-!
# Policy files on both backends

On the direct backend a policy change is all or nothing.  On an escalated one the file is
read through the capture of a command's output, and is what it was only if that keeps it.

Main results:

- `applyPolicyFile_atomic`: the direct backend.
- `escalated_faithful_iff`: the contents that escalated reads keep.
-/

namespace PowerManage.Fsafe

open Exec FileSystem Paths Relational Interaction Rollback
open Utf8 (textBytes)

/-- A host on which nothing fails. -/
def quietEnv (backend : Backend) : Env where
  backend := backend
  fault _ := none
  written _ := 0
  random n := n
  failing _ := none
  device _ := []

/-- A read that shows the target shows its state. -/
theorem readPolicyState_ends {env : Env} {t : Tree} {turn : Nat} {loc : List Bytes}
    (hread : Ends (readFile env (render loc)) ⟨t, turn⟩
      (fun out h => h.tree = t ∧ t.entry loc = some (.file out))
      (fun e h => h.tree = t ∧ (e.sentinel = .notExist → t.entry loc = none))) :
    Ends (readPolicyState env loc) ⟨⟨t, turn⟩, [], []⟩
      (fun state s => snapshot (t.entry loc) = some state ∧ s.accepted = [] ∧ s.host.tree = t)
      (fun _ s => s.host.tree = t) := by
  apply Ends.handle
  apply Ends.bind
  apply ends_onHost
  refine hread.mono ?_ ?_
  · rintro content h' ⟨hsame, hentry⟩
    refine Ends.pure ⟨?_, rfl, hsame⟩
    rw [hentry]
    rfl
  · rintro e h' ⟨hsame, hmissing⟩
    by_cases hnotExist : (policyErrorOf "" e).sentinel = .notExist
    · rw [if_pos hnotExist]
      refine Ends.pure ⟨?_, rfl, hsame⟩
      rw [hmissing hnotExist]
      rfl
    · rw [if_neg hnotExist]
      exact Ends.throw hsame

/-! ## Escalated backends -/

theorem readFile_kept {env : Env} {t : Tree} {turn : Nat} {loc : List Bytes} {content : Bytes}
    (hescalated : env.backend ≠ .direct) (hsettled : Settled t loc)
    (hfile : t.entry loc = some (.file content)) (hkept : stdout content = content) :
    Ends (readFile env (render loc)) ⟨t, turn⟩
      (fun out h => h.tree = t ∧ t.entry loc = some (.file out))
      (fun e h => h.tree = t ∧ (e.sentinel = .notExist → t.entry loc = none)) := by
  have hresolved : ∀ resolved, resolveAndValidatePath t (render loc) = .ok resolved →
      t.entry resolved = some (.file content) := by
    intro resolved hresolved
    rw [resolve_settled hsettled (names_render hsettled.2) hresolved, hfile]
  refine (readFile_escalated (h := ⟨t, turn⟩) hescalated hresolved).mono ?_ ?_
  · rintro out h' ⟨hsame, hout⟩
    exact ⟨hsame, by rw [hfile, hout, hkept]⟩
  · rintro e h' ⟨hsame, hmissing⟩
    exact ⟨hsame, fun hnotExist =>
      absurd hnotExist (resolve_exists hsettled hfile (hmissing hnotExist))⟩

/-- A tree with one file. -/
def oneFileTree (content : Bytes) : Tree :=
  Tree.ofEntries [([], .directory), ([[102]], .file content)] (fun _ => ⟨0, 0o755⟩) rfl rfl

theorem resolve_oneFileTree (content : Bytes) :
    resolveAndValidatePath (oneFileTree content) [slash, 102] = .ok [[102]] :=
  rfl

/-- The read of a file through an escalated backend on which nothing fails. -/
theorem readFile_quiet (content : Bytes) :
    ∃ h, (readFile (quietEnv .sudo) [slash, 102]).run ⟨oneFileTree content, 0⟩ =
      .ok (stdout content) h := by
  have hwalk : stat (oneFileTree content) [[102]] = .ok [[102]] := rfl
  have hcat := cat_file [] hwalk rfl
  refine ⟨⟨oneFileTree content, 2⟩, ?_⟩
  simp [readFile, check, call, runCommand, finish, quietEnv, resolve_oneFileTree, hcat,
    run_success, EStateM.run, bind, EStateM.bind, pure, EStateM.pure, Except.map]

/-- Escalated reads of a regular file return its bytes or an error, and with them
`ApplyPolicyFile` hands back and restores the file as it was, just when the capture
keeps the content. -/
theorem escalated_faithful_iff (content : Bytes) :
    ((∀ env t turn path loc, env.backend ≠ .direct → resolveAndValidatePath t path = .ok loc →
        t.entry loc = some (.file content) →
        Ends (readFile env path) ⟨t, turn⟩ (fun out _ => out = content) (fun _ _ => True)) ∧
      ∀ env sha256 req t turn row target, env.backend ≠ .direct →
        policySurface req.surface = .ok row →
        validatePolicyTarget t req.path row.path = .ok target →
        t.entry target = some (.file content) →
        Ends (applyPolicyFile env sha256 req) ⟨⟨t, turn⟩, [], []⟩
          (fun r _ => r.previous = ⟨.present, content, none⟩)
          (fun e s => e.Undone → s.host.tree.entry target = some (.file content))) ↔
    Capturable content := by
  rw [← stdout_eq_iff]
  constructor
  · rintro ⟨hread, -⟩
    rcases readFile_quiet content with ⟨h, hrun⟩
    exact (hread (quietEnv .sudo) _ 0 _ _ (by decide) (resolve_oneFileTree content) rfl).of_ok hrun
  · intro hkept
    constructor
    · intro env t turn path loc hescalated hresolved hfile
      have hall : ∀ resolved, resolveAndValidatePath t path = .ok resolved →
          t.entry resolved = some (.file content) := by
        intro resolved hresolved'
        rw [hresolved] at hresolved'
        cases hresolved'
        exact hfile
      refine (readFile_escalated (h := ⟨t, turn⟩) hescalated hall).mono ?_ fun _ _ _ => trivial
      rintro out h' ⟨-, hout⟩
      exact hout.trans hkept
    · intro env sha256 req t turn row target hescalated hrow htarget hfile
      rcases validatePolicyTarget_ok htarget with ⟨dir, name, rfl, hsettled, -⟩
      refine (applyPolicyFile_ends hrow htarget
        (readPolicyState_ends (readFile_kept hescalated hsettled hfile hkept))).mono ?_ ?_
      · rintro r s ⟨hsnapshot, -⟩
        rw [hfile] at hsnapshot
        exact (Option.some.inj hsnapshot).symm
      · intro e s habandoned hundone
        exact (habandoned hundone).1.trans hfile

/-- A file of one byte is read as one of two. -/
theorem unendedFile_read :
    ∃ h, (readFile (quietEnv .sudo) [slash, 102]).run ⟨oneFileTree [97], 0⟩ =
      .ok [97, newline] h := by
  have hstdout : stdout [97] = [97, newline] := by
    have hended : ended [97] = [97, newline] := by decide
    rw [stdout_of_short (by rw [hended]; decide), hended]
  have hread := readFile_quiet [97]
  rwa [hstdout] at hread

/-! ## The direct backend -/

/-- On the direct backend a call that succeeds has made the change, with the very content
that a validator accepted, or has found the rendered state by its hash and done nothing; a
call that fails and whose compensation succeeds has left the target as it was, and no
candidate if one had been written. -/
theorem applyPolicyFile_atomic (env : Env) (hdirect : env.backend = .direct)
    (sha256 : Bytes → Bytes) (req : PolicyFileRequest) (t : Tree) (turn : Nat) :
    Ends (applyPolicyFile env sha256 req) ⟨⟨t, turn⟩, [], []⟩
      (fun r s => ∃ row target, policySurface req.surface = .ok row ∧
        validatePolicyTarget t req.path row.path = .ok target ∧
        Applied sha256 req row target t r s)
      (fun e s => e.Undone →
        (∀ row target, policySurface req.surface = .ok row →
          validatePolicyTarget t req.path row.path = .ok target →
          s.host.tree.entry target = t.entry target) ∧
        (¬ e.NoCandidate → s.host.tree.entry = t.entry)) := by
  cases hrow : policySurface req.surface with
  | error e =>
    apply Ends.bind
    apply Ends.orFail
    · intro row hok
      rw [hrow] at hok
      cases hok
    · intro _ _ _
      exact ⟨fun _ _ h => (nomatch h), fun _ => rfl⟩
  | ok row =>
    cases htarget : validatePolicyTarget t req.path row.path with
    | error e =>
      apply Ends.bind
      refine Ends.orFail ?_ ?_
      · intro row' hok
        rw [hrow] at hok
        cases hok
        apply Ends.bind
        apply Ends.inspect
        · intro target hok
          rw [mapError_eq_ok, htarget] at hok
          cases hok
        · intro _ _ _
          exact ⟨fun _ _ _ _ => rfl, fun _ => rfl⟩
      · intro e' herror
        rw [hrow] at herror
        cases herror
    | ok target =>
      rcases validatePolicyTarget_ok htarget with ⟨dir, name, rfl, hsettled, -⟩
      refine (applyPolicyFile_ends hrow htarget
        (readPolicyState_ends (readFile_direct hdirect hsettled))).mono ?_ ?_
      · intro r s happlied
        exact ⟨row, _, rfl, htarget, happlied⟩
      · intro e s habandoned hundone
        refine ⟨?_, (habandoned hundone).2⟩
        intro row' target' hrow' htarget'
        cases hrow'
        rw [htarget] at htarget'
        cases htarget'
        exact (habandoned hundone).1

/-- A tree with one sudoers file. -/
def sudoersTree : Tree :=
  Tree.ofEntries
    [([], .directory), (names (textBytes "/etc"), .directory),
      (names (textBytes "/etc/sudoers.d"), .directory),
      (names (textBytes "/etc/sudoers.d/ops"), .file (textBytes "# none\n"))]
    (fun _ => ⟨0, 0o755⟩) (by decide) (by decide)

/-- A request for the sudoers file. -/
def sudoersRequest (content : String) : PolicyFileRequest where
  surface := .adminPolicy
  path := textBytes "/etc/sudoers.d/ops"
  desired := ⟨.present, textBytes content, none⟩

-- Without this the run itself would be evaluated to elaborate a statement about it.
attribute [local irreducible] Ends

/-- A change of the sudoers file. -/
theorem sudoersRequest_applied :
    (quietEnv .direct).backend = .direct ∧
    Ends (applyPolicyFile (quietEnv .direct) id (sudoersRequest "%ops ALL=(ALL) ALL\n"))
      ⟨⟨sudoersTree, 0⟩, [], []⟩
      (fun r s => ∃ row target,
        policySurface (sudoersRequest "%ops ALL=(ALL) ALL\n").surface = .ok row ∧
        validatePolicyTarget sudoersTree (sudoersRequest "%ops ALL=(ALL) ALL\n").path row.path =
          .ok target ∧
        Applied id (sudoersRequest "%ops ALL=(ALL) ALL\n") row target sudoersTree r s)
      (fun e s => e.Undone →
        (∀ row target, policySurface (sudoersRequest "%ops ALL=(ALL) ALL\n").surface = .ok row →
          validatePolicyTarget sudoersTree (sudoersRequest "%ops ALL=(ALL) ALL\n").path row.path =
            .ok target →
          s.host.tree.entry target = sudoersTree.entry target) ∧
        (¬ e.NoCandidate → s.host.tree.entry = sudoersTree.entry)) :=
  ⟨rfl, applyPolicyFile_atomic (quietEnv .direct) rfl id (sudoersRequest "%ops ALL=(ALL) ALL\n")
    sudoersTree 0⟩

/-- A file that has the desired content already is not shown to the validator. -/
theorem sudoersRequest_not_validated :
    Ends (applyPolicyFile (quietEnv .direct) id (sudoersRequest "# none\n"))
      ⟨⟨sudoersTree, 0⟩, [], []⟩
      (fun r s => r.changed = false ∧ s.accepted = []) (fun _ _ => False) := by
  decide

end PowerManage.Fsafe
