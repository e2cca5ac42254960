import PowerManage.Fsafe.PolicyLaws

/-!
# Policy changes are all or nothing

The steps of `ApplyPolicyFile` together: a change that is reported is made and was
validated, and a failure that was compensated leaves the tree as it was.

Main results:

- `transaction_ends`: the five steps, on every backend.
- `applyPolicyFile_ends`: the whole call, from a target whose state is read as
  it is.
-/

namespace PowerManage.Fsafe

open Exec FileSystem Paths Relational Interaction Rollback
open Utf8 (textBytes)
open Function (update update_eq_self update_idem update_of_ne update_self)

/-! ## States of the transaction -/

/-- A leaf that the transaction can meet at its names. -/
def FileOrNone (v : Option Entry) : Prop :=
  v = none ∨ ∃ content, v = some (.file content)

theorem FileOrNone.not_link {v : Option Entry} (h : FileOrNone v) (target : Bytes) :
    v ≠ some (.link target) := by
  rcases h with rfl | ⟨content, rfl⟩ <;> simp

theorem PolicyFileState.entry_fileOrNone (state : PolicyFileState) : FileOrNone state.entry := by
  unfold PolicyFileState.entry
  split
  · exact .inl rfl
  · exact .inr ⟨_, rfl⟩

/-- The tree differs from `E` at the candidate only, if there is one. -/
def Undoable (E : List Bytes → Option Entry) (dir : List Bytes) (name : Bytes) (s : Txn) : Prop :=
  (s.candidate = [] ∧ s.host.tree.entry = E) ∨
    ∃ leaf v, Placed E dir name s.candidate leaf ∧ FileOrNone v ∧
      s.host.tree.entry = update E (dir ++ [leaf]) v

section transaction

variable {env : Env} {E : List Bytes → Option Entry} {dir : List Bytes} {name : Bytes}
  {row : PolicySurfaceSpec} {current desired : PolicyFileState}

variable {s : Txn} {mode : FileMode}

theorem removeCandidate_ends {leaf : Bytes} {v : Option Entry}
    (hplaced : Placed E dir name s.candidate leaf) (hv : FileOrNone v)
    (hentry : s.host.tree.entry = update E (dir ++ [leaf]) v) :
    Ends (removeCandidate env) s
      (fun _ s' => s'.candidate = s.candidate ∧ s'.accepted = s.accepted ∧
        s'.host.tree.entry = E)
      (fun _ s' => s'.candidate = s.candidate ∧ s'.accepted = s.accepted ∧
        (s'.host.tree.entry = update E (dir ++ [leaf]) v ∨ s'.host.tree.entry = E)) := by
  have hdir : s.host.tree.entry dir = some .directory := by
    rw [hentry, update_directory hplaced.directory]
  have hlink : ∀ target, s.host.tree.entry (dir ++ [leaf]) ≠ some (.link target) := by
    intro target
    rw [hentry, update_self]
    exact hv.not_link target
  have hgone : update s.host.tree.entry (dir ++ [leaf]) none = E := by
    rw [hentry, update_idem, ← hplaced.fresh, update_eq_self]
  apply Ends.bind
  apply Ends.get
  apply ends_onHost
  refine (remove_ends hdir hplaced.proper hlink hplaced.path).mono ?_ ?_
  · intro _ h' hremoved
    exact ⟨rfl, rfl, hremoved.trans hgone⟩
  · rintro _ h' (hsame | hremoved)
    · exact ⟨rfl, rfl, .inl (hsame.trans hentry)⟩
    · exact ⟨rfl, rfl, .inr (hremoved.trans hgone)⟩

/-- Whatever is left of the candidate is removed. -/
theorem undo_write (h : Undoable E dir name s) :
    Ends (asStep (do
        let s ← get
        if s.candidate = [] then pure () else removeCandidate env)) s
      (fun _ s' => s'.host.tree.entry = E) (fun _ _ => True) := by
  apply Ends.mapFailure
  apply Ends.bind
  apply Ends.get
  rcases h with ⟨hnone, hentry⟩ | ⟨leaf, v, hplaced, hv, hentry⟩
  · rw [if_pos hnone]
    exact Ends.pure hentry
  · rw [if_neg hplaced.nonempty]
    exact (removeCandidate_ends hplaced hv hentry).mono (fun _ _ h => h.2.2) fun _ _ _ => trivial

/-- The state before the swap: the candidate is written, or discarded if the file is to be
absent. -/
def Prepared (E : List Bytes → Option Entry) (dir : List Bytes) (name : Bytes)
    (desired : PolicyFileState) (s : Txn) : Prop :=
  if desired.presence = .absent then
    s.candidate = [] ∧ s.host.tree.entry = E ∧ E dir = some .directory
  else ∃ leaf, Placed E dir name s.candidate leaf ∧
    s.host.tree.entry = update E (dir ++ [leaf]) (some (.file desired.content))

/-- The validator is shown what stands at the candidate. -/
theorem validatePolicyCandidate_ends {validator : PolicyValidator} :
    Ends (validatePolicyCandidate env validator) s
      (fun _ s' => s'.candidate = s.candidate ∧ s'.host.tree = s.host.tree ∧
        s'.accepted = s.accepted ++
          [(validatorCommand validator s.candidate, s.host.tree.entry (names s.candidate))])
      (fun _ s' => s'.candidate = s.candidate ∧ s'.host.tree = s.host.tree) := by
  apply Ends.bind
  apply ends_onHost
  refine execute_harmless.mono ?_ fun _ _ hsame => ⟨rfl, hsame⟩
  intro _ h' hsame
  refine Ends.modify ⟨rfl, hsame, ?_⟩
  dsimp only
  rw [hsame]

/-- A candidate for an absent file is discarded. -/
theorem discard_ends {leaf : Bytes} (hplaced : Placed E dir name s.candidate leaf)
    (hentry : s.host.tree.entry =
      update E (dir ++ [leaf]) (some (.file desired.content))) :
    Ends (if desired.presence ≠ .absent then pure ()
        else do
          removeCandidate env
          clearCandidate) s
      (fun _ s' => s'.accepted = s.accepted ∧ Prepared E dir name desired s')
      (fun _ s' => Undoable E dir name s') := by
  unfold Prepared
  by_cases habsent : desired.presence = .absent
  · rw [if_neg (not_not.mpr habsent)]
    simp only [if_pos habsent]
    apply Ends.bind
    refine (removeCandidate_ends hplaced (.inr ⟨_, rfl⟩) hentry).mono ?_ ?_
    · rintro _ s' ⟨-, haccepted, hremoved⟩
      exact Ends.modify ⟨haccepted, rfl, hremoved, hplaced.directory⟩
    · rintro _ s' ⟨hcandidate, -, hsame | hremoved⟩
      · exact .inr ⟨leaf, _, hcandidate ▸ hplaced, .inr ⟨_, rfl⟩, hsame⟩
      · refine .inr ⟨leaf, none, hcandidate ▸ hplaced, .inl rfl, ?_⟩
        rw [hremoved, ← hplaced.fresh, update_eq_self]
  · rw [if_pos habsent]
    simp only [if_neg habsent]
    exact Ends.pure ⟨rfl, leaf, hplaced, hentry⟩

theorem reloadPolicySurface_ends {reload : PolicyReload} :
    Ends (reloadPolicySurface env reload) s
      (fun _ s' => s'.accepted = s.accepted ∧ s'.host.tree = s.host.tree)
      (fun _ s' => s'.candidate = s.candidate ∧ s'.host.tree = s.host.tree) := by
  cases reload with
  | none => exact Ends.pure ⟨rfl, rfl⟩
  | sshd =>
    apply Ends.bind
    apply ends_onHost
    refine execute_harmless.mono ?_ fun _ _ hsame => ⟨rfl, hsame⟩
    intro _ h' hsame
    exact Ends.pure ⟨rfl, hsame⟩

variable {U : List Bytes → Option Entry}

/-- A restore takes back what was done to the target. -/
theorem restore_ends {w : Option Entry} (hproper : Proper (dir ++ [name]))
    (hdir : U dir = some .directory) (hcurrent : U (dir ++ [name]) = current.entry)
    (hw : FileOrNone w) (hentry : s.host.tree.entry = update U (dir ++ [name]) w) :
    Ends (restorePolicyState env (dir ++ [name]) current mode) s
      (fun _ s' => s'.candidate = s.candidate ∧ s'.host.tree.entry = U) (fun _ _ => True) := by
  have hdir' : s.host.tree.entry dir = some .directory := by
    rw [hentry, update_directory hdir]
  have hlink : ∀ target, s.host.tree.entry (dir ++ [name]) ≠ some (.link target) := by
    intro target
    rw [hentry, update_self]
    exact hw.not_link target
  refine (restorePolicyState_ends hdir' hproper hlink).mono ?_ fun _ _ _ => trivial
  rintro _ s' ⟨hcandidate, -, hrestored⟩
  refine ⟨hcandidate, ?_⟩
  rw [hrestored, hentry, update_idem, ← hcurrent, update_eq_self]

/-- A failed swap that restored the target. -/
theorem failedSwap_ends {w : Option Entry} {e : PolicyError} {ok : Unit → Txn → Prop}
    (hproper : Proper (dir ++ [name])) (hdir : U dir = some .directory)
    (hcurrent : U (dir ++ [name]) = current.entry) (hw : FileOrNone w)
    (hentry : s.host.tree.entry = update U (dir ++ [name]) w)
    (hundoable : ∀ s' : Txn, s'.candidate = s.candidate → s'.host.tree.entry = U →
      Undoable E dir name s') :
    Ends (do
        mapFailure (fun restoreErr => (⟨e, some restoreErr⟩ : StepError))
          (restorePolicyState env (dir ++ [name]) current mode)
        throw ⟨e, none⟩) s ok (fun e s' => e.restore = none → Undoable E dir name s') := by
  apply Ends.bind
  apply Ends.mapFailure
  refine (restore_ends hproper hdir hcurrent hw hentry).mono ?_ ?_
  · intro _ s' hrestored
    exact Ends.throw fun _ => hundoable s' hrestored.1 hrestored.2
  · intro _ _ _ hnone
    cases hnone

/-- The swap makes the change; if it fails and has restored the target, only the candidate
is left to remove. -/
theorem swapStep_ends (hproper : Proper (dir ++ [name]))
    (hcurrent : E (dir ++ [name]) = current.entry) (hprepared : Prepared E dir name desired s) :
    Ends (swapStep env (dir ++ [name]) current desired mode) s
      (fun _ s' => s'.candidate = [] ∧ s'.accepted = s.accepted ∧
        s'.host.tree.entry = update E (dir ++ [name]) desired.entry)
      (fun e s' => e.restore = none → Undoable E dir name s') := by
  have hfile : FileOrNone (E (dir ++ [name])) := hcurrent ▸ current.entry_fileOrNone
  unfold Prepared at hprepared
  apply Ends.bind
  apply Ends.get
  apply Ends.bind
  apply Ends.handle
  by_cases habsent : desired.presence = .absent
  · rw [if_pos habsent] at hprepared ⊢
    rcases hprepared with ⟨hcandidate, hentry, hdir⟩
    have hdesired : desired.entry = none := if_pos habsent
    have hundoable : ∀ s' : Txn, s'.candidate = s.candidate → s'.host.tree.entry = E →
        Undoable E dir name s' := fun s' hsame hE => .inl ⟨hsame.trans hcandidate, hE⟩
    apply ends_onHost
    refine (remove_ends (hentry ▸ hdir) hproper (fun target => hentry ▸ hfile.not_link target)
      (names_render hproper)).mono ?_ ?_
    · intro _ h' hremoved
      rw [hentry, ← hdesired] at hremoved
      exact Ends.modify ⟨rfl, rfl, hremoved⟩
    · rintro e h' (hsame | hremoved)
      · refine failedSwap_ends hproper hdir hcurrent hfile ?_ hundoable
        rw [update_eq_self]
        exact hsame.trans hentry
      · rw [hentry] at hremoved
        exact failedSwap_ends hproper hdir hcurrent (.inl rfl) hremoved hundoable
  · rw [if_neg habsent] at hprepared ⊢
    rcases hprepared with ⟨leaf, hplaced, hentry⟩
    have hdesired : desired.entry = some (.file desired.content) := if_neg habsent
    rw [← hdesired] at hentry
    refine (swapPolicyCandidate_ends hplaced hentry).mono ?_ ?_
    · rintro _ s' ⟨-, haccepted, hswapped⟩
      exact Ends.modify ⟨rfl, haccepted, hswapped⟩
    · rintro e s' ⟨hcandidate, -, hsame | hswapped⟩
      · have htarget : update E (dir ++ [leaf]) desired.entry (dir ++ [name]) =
            E (dir ++ [name]) := update_of_ne hplaced.ne_target.symm _ _
        refine failedSwap_ends (U := update E (dir ++ [leaf]) desired.entry) hproper
          (update_directory hplaced.directory) (htarget.trans hcurrent) hfile
          (by rw [hsame, ← htarget, update_eq_self]) ?_
        intro s'' hsame' hentry'
        refine .inr ⟨leaf, _, ?_, desired.entry_fileOrNone, hentry'⟩
        rw [hsame', hcandidate]
        exact hplaced
      · refine failedSwap_ends hproper hplaced.directory hcurrent desired.entry_fileOrNone
          hswapped ?_
        intro s'' hsame' hentry'
        refine .inr ⟨leaf, none, ?_, .inl rfl, ?_⟩
        · rw [hsame', hcandidate]
          exact hplaced
        · rw [hentry', ← hplaced.fresh, update_eq_self]

/-- What a compensated failure of a step leaves: the tree as it was, but for a stray file if
the candidate could not be written. -/
def Unchanged (t : Tree) (target : List Bytes) (step : String) (cause : StepError) (s : Txn) :
    Prop :=
  if step = "write policy candidate" then Stray t s.host.tree target
  else cause.restore = none → s.host.tree.entry = t.entry

theorem unchanged_of_entry {t : Tree} {target : List Bytes} {step : String} {cause : StepError}
    (h : s.host.tree.entry = t.entry) : Unchanged t target step cause s := by
  unfold Unchanged
  split
  · exact .inl h
  · exact fun _ => h

/-- Steps that need no compensation are passed over. -/
theorem recovers_pure {ε σ : Type} {step : Step ε σ} {done : List (Step ε σ)} {good : σ → Prop}
    {s : σ} (hstep : step.rollback = pure ()) (h : Recovers done good s) :
    Recovers (step :: done) good s := by
  apply recovers_cons
  rw [hstep]
  exact Ends.pure h

/-- With the candidate gone, nothing has changed. -/
theorem recovers_write {t : Tree} {step : String} {cause : StepError} {write : Step StepError Txn}
    (hwrite : write.rollback = asStep (do
      let s ← get
      if s.candidate = [] then pure () else removeCandidate env))
    (h : Undoable t.entry dir name s) :
    Recovers [write] (Unchanged t (dir ++ [name]) step cause) s := by
  apply recovers_cons
  rw [hwrite]
  refine (undo_write h).mono ?_ fun _ _ h => h
  intro _ s' hentry
  exact recovers_nil (unchanged_of_entry hentry)

/-- The five steps: the change is made and was validated, or, if all compensation succeeds,
nothing has changed. -/
theorem transaction_ends (hsettled : Settled s.host.tree (dir ++ [name]))
    (hname : validatePolicyFilename row.path name = .ok ())
    (hcurrent : s.host.tree.entry (dir ++ [name]) = current.entry) :
    Ends (Rollback.run (policySteps env row (dir ++ [name]) current desired)) s
      (fun _ s' => s'.host.tree.entry =
          update s.host.tree.entry (dir ++ [name]) desired.entry ∧
        ∃ candidate, s'.accepted = s.accepted ++
          [(validatorCommand row.validator candidate, some (.file desired.content))])
      (Compensated (Unchanged s.host.tree (dir ++ [name]))) := by
  apply ends_run rfl
  apply runFrom_cons
  apply Ends.mapFailure
  apply Ends.bind
  refine (createPolicyCandidate_ends hsettled hname).mono ?_ fun _ _ hstray =>
    recovers_nil hstray
  rintro candidate s₁ ⟨haccepted, leaf, hplaced, hwritten⟩
  apply Ends.modify
  apply runFrom_cons
  apply Ends.mapFailure
  refine validatePolicyCandidate_ends.mono ?_ ?_
  · rintro _ s₂ ⟨hcandidate₂, htree₂, haccepted₂⟩
    have hplaced₂ : Placed s.host.tree.entry dir name s₂.candidate leaf := hcandidate₂ ▸ hplaced
    have hwritten₂ : s₂.host.tree.entry = update s.host.tree.entry (dir ++ [leaf])
        (some (.file desired.content)) := by
      rw [htree₂]
      exact hwritten
    have hvalidated : s₂.accepted = s.accepted ++
        [(validatorCommand row.validator candidate, some (.file desired.content))] := by
      rw [haccepted₂]
      dsimp only
      rw [haccepted, hplaced.path, hwritten, update_self]
    apply runFrom_cons
    apply Ends.mapFailure
    refine (discard_ends hplaced₂ hwritten₂).mono ?_ fun _ _ hundoable =>
      recovers_pure rfl (recovers_write rfl hundoable)
    rintro _ s₃ ⟨haccepted₃, hprepared⟩
    apply runFrom_cons
    refine (swapStep_ends hsettled.2 hcurrent hprepared).mono ?_ ?_
    · rintro _ s₄ ⟨hcandidate₄, haccepted₄, hswapped⟩
      apply runFrom_cons
      apply Ends.mapFailure
      refine reloadPolicySurface_ends.mono ?_ ?_
      · rintro _ s₅ ⟨haccepted₅, htree₅⟩
        refine Ends.pure ⟨by rw [htree₅, hswapped], candidate, ?_⟩
        rw [haccepted₅, haccepted₄, haccepted₃, hvalidated]
      · rintro _ s₅ ⟨hcandidate₅, htree₅⟩
        apply recovers_cons
        apply Ends.mapFailure
        refine (restore_ends hsettled.2 hplaced.directory hcurrent desired.entry_fileOrNone
          (by rw [htree₅, hswapped])).mono ?_ fun _ _ h => h
        rintro _ s₆ ⟨hcandidate₆, hrestored⟩
        refine recovers_pure rfl (recovers_pure rfl (recovers_write rfl (.inl ⟨?_, hrestored⟩)))
        rw [hcandidate₆, hcandidate₅, hcandidate₄]
    · intro e s₄ hfailed
      by_cases hrestored : e.restore = none
      · exact recovers_pure rfl (recovers_pure rfl (recovers_write rfl (hfailed hrestored)))
      · intro _ hnone
        exact absurd hnone hrestored
  · rintro _ s₂ ⟨hcandidate₂, htree₂⟩
    apply recovers_write rfl
    exact .inr ⟨leaf, _, hcandidate₂ ▸ hplaced, .inr ⟨_, rfl⟩, by rw [htree₂]; exact hwritten⟩

end transaction

/-! ## The whole call -/

/-- The snapshot that stands for what is at a target. -/
def snapshot : Option Entry → Option PolicyFileState
  | none => some ⟨.absent, [], none⟩
  | some (.file content) => some ⟨.present, content, none⟩
  | _ => none

theorem snapshot_entry {v : Option Entry} {state : PolicyFileState} (h : snapshot v = some state) :
    v = state.entry := by
  unfold snapshot at h
  split at h
  · cases h
    rfl
  · cases h
    rfl
  · cases h

/-- All compensation that a failure called for has succeeded. -/
def ApplyError.Undone : ApplyError → Prop
  | .refused _ => True
  | .unwound (.malformed _) => True
  | .unwound (.failed _ cause undo) => undo = [] ∧ cause.restore = none

/-- The failure is that of writing the candidate. -/
def ApplyError.NoCandidate : ApplyError → Prop
  | .unwound (.failed step _ _) => step = "write policy candidate"
  | _ => False

/-- A successful call: the target is in the rendered state, which was validated, or it was so
before as far as the hash tells. -/
def Applied (sha256 : Bytes → Bytes) (req : PolicyFileRequest) (row : PolicySurfaceSpec)
    (target : List Bytes) (t : Tree) (r : PolicyFileResult) (s : Txn) : Prop :=
  snapshot (t.entry target) = some r.previous ∧
    ∃ desired, renderPolicyState req.desired r.previous row.validator = .ok desired ∧
      ((r.changed = true ∧
          s.host.tree.entry = update t.entry target desired.entry ∧
          ∃ candidate, s.accepted =
            [(validatorCommand row.validator candidate, some (.file desired.content))]) ∨
        (r.changed = false ∧ s.host.tree.entry = t.entry ∧ s.accepted = [] ∧
          samePolicyState sha256 r.previous desired = true))

/-- A failed call: the target is as it was, and so is everything else unless the candidate
could not be written. -/
def Abandoned (target : List Bytes) (t : Tree) (e : ApplyError) (s : Txn) : Prop :=
  e.Undone → s.host.tree.entry target = t.entry target ∧
    (¬ e.NoCandidate → s.host.tree.entry = t.entry)

theorem Stray.target {t t' : Tree} {target : List Bytes} (h : Stray t t' target) :
    t'.entry target = t.entry target := by
  rcases h with hsame | ⟨loc, leaf, hne, -, hentry⟩
  · rw [hsame]
  · rw [hentry, update_of_ne hne.symm]

/-- The call, where the state of the target is read as it is. -/
theorem applyPolicyFile_ends {env : Env} {sha256 : Bytes → Bytes}
    {req : PolicyFileRequest} {t : Tree} {turn : Nat} {row : PolicySurfaceSpec}
    {target : List Bytes} (hrow : policySurface req.surface = .ok row)
    (htarget : validatePolicyTarget t req.path row.path = .ok target)
    (hread : Ends (readPolicyState env target) ⟨⟨t, turn⟩, [], []⟩
      (fun state s => snapshot (t.entry target) = some state ∧ s.accepted = [] ∧ s.host.tree = t)
      (fun _ s => s.host.tree = t)) :
    Ends (applyPolicyFile env sha256 req) ⟨⟨t, turn⟩, [], []⟩
      (Applied sha256 req row target t) (Abandoned target t) := by
  have hrefused : ∀ (e : PolicyError) (s : Txn), s.host.tree = t →
      Abandoned target t (.refused e) s := by
    intro e s hsame _
    rw [hsame]
    exact ⟨rfl, fun _ => rfl⟩
  rcases validatePolicyTarget_ok htarget with ⟨dir, name, rfl, hsettled, hname⟩
  apply Ends.bind
  apply Ends.orFail
  · intro row' hrow'
    rw [hrow] at hrow'
    cases hrow'
    apply Ends.bind
    apply Ends.inspect
    · intro target' htarget'
      rw [mapError_eq_ok, htarget] at htarget'
      cases htarget'
      apply Ends.bind
      apply Ends.mapFailure
      refine hread.mono ?_ fun e s hsame => hrefused e s hsame
      rintro current s₁ ⟨hsnapshot, haccepted, htree⟩
      apply Ends.bind
      refine Ends.orFail ?_ fun e _ => hrefused e s₁ htree
      intro desired hdesired
      by_cases hsame : samePolicyState sha256 current desired = true
      · rw [if_pos hsame]
        refine Ends.pure ⟨hsnapshot, desired, hdesired, .inr ⟨rfl, ?_, haccepted, hsame⟩⟩
        rw [htree]
      · rw [if_neg hsame]
        apply Ends.bind
        apply Ends.mapFailure
        refine (transaction_ends (htree ▸ hsettled) hname
          (htree ▸ snapshot_entry hsnapshot)).mono ?_ ?_
        · rintro _ s₂ ⟨hentry, candidate, haccepted'⟩
          rw [htree] at hentry
          rw [haccepted, List.nil_append] at haccepted'
          exact Ends.pure ⟨hsnapshot, desired, hdesired, .inl ⟨rfl, hentry, candidate, haccepted'⟩⟩
        · intro e s₂ hcompensated hundone
          cases e with
          | malformed step => cases hcompensated
          | failed step cause undo =>
            have hunchanged := hcompensated hundone.1
            rw [htree] at hunchanged
            unfold Unchanged at hunchanged
            split at hunchanged
            · rename_i hstep
              exact ⟨hunchanged.target, fun hcandidate => absurd hstep hcandidate⟩
            · have hentry := hunchanged hundone.2
              rw [hentry]
              exact ⟨rfl, fun _ => rfl⟩
    · intro e herror
      rw [htarget] at herror
      cases herror
  · intro e herror
    rw [hrow] at herror
    cases herror

end PowerManage.Fsafe
