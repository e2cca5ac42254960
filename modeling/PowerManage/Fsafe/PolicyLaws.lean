import PowerManage.Fsafe.ManagerLaws
import PowerManage.Fsafe.Policy

/-!
# The steps of a policy change

What each step of `ApplyPolicyFile` leaves in the tree, whether it succeeds or not, on
every backend.

Main results:

- `validatePolicyTarget_ok`: an accepted target leads to itself.
- `createPolicyCandidate_ends`, `swapPolicyCandidate_ends`,
  `restorePolicyState_ends`: the effects on the candidate and the target.
-/

namespace PowerManage.Fsafe

open List Exec FileSystem Paths Relational Interaction
open Utf8 (textBytes)
open Function (update update_of_ne update_self)

/-! ## Targets -/

variable {name : Bytes} {pathClass : PolicyPathClass}
variable {t : Tree}

/-- A target that is not a link keeps its last name when it is resolved. -/
theorem refuseLink_last {root base : List Bytes} (hname : Plain name)
    (hlink : refuseLink t (root ++ [name]) = .ok ())
    (hbase : Resolves t true [] (root ++ [name]) base) : ∃ dir, base = dir ++ [name] := by
  rcases hbase.split root [name] rfl (by simp) with ⟨mid, hmid, hlast⟩
  cases hlast with
  | skip hc _ => exact absurd hc hname.1
  | up _ => exact absurd rfl hname.2
  | enter _ _ h =>
    cases h
    exact ⟨mid, rfl⟩
  | leaf _ _ _ _ => exact ⟨mid, rfl⟩
  | @through _ _ _ _ target _ he _ _ =>
    -- The link itself would have been found and refused.
    have hfound := hmid.child hname he
    unfold refuseLink at hlink
    rcases hfound.walk 40 with hwalk | hwalk
    · rw [lstat, hwalk] at hlink
      simp [he] at hlink
    · rw [lstat, hwalk] at hlink
      cases hlink

/-- An accepted target leads to itself, and its name is one for its surface. -/
theorem validatePolicyTarget_ok {path : Bytes} {target : List Bytes}
    (h : validatePolicyTarget t path pathClass = .ok target) :
    ∃ dir name, target = dir ++ [name] ∧ Settled t target ∧
      validatePolicyFilename pathClass name = .ok () := by
  simp only [validatePolicyTarget, bind_eq_ok, ite_error_eq_ok, mapError_eq_ok, not_not] at h
  rcases h with ⟨_, -, -, hroot, _, hfilename, _, -, _, hlink, resolvedRoot, -, resolved,
    hresolved, -, hreturn⟩
  cases hreturn
  have hproper := names_isName path
  have hnonempty : names path ≠ [] := by
    intro hnil
    rw [hnil, dropLast_nil] at hroot
    revert hroot
    cases pathClass <;> decide
  rcases eq_nil_or_concat (names path) with hnil | ⟨root, name, hnames⟩
  · exact absurd hnil hnonempty
  rw [concat_eq_append] at hnames
  rw [hnames] at hproper hlink hresolved hfilename
  rw [getLastD_concat] at hfilename
  have hlocates := resolveAndValidatePath_locates hresolved
  rw [names_render hproper] at hlocates
  have hplain := proper_plain hproper name (by simp)
  have hsettled := hlocates.1.settled hlocates.2
  rcases hlocates.1 with ⟨existing, missing, base, hsplit, hbase, rfl, hnone⟩
  rcases eq_nil_or_concat missing with rfl | ⟨first, last, rfl⟩
  · rw [append_nil] at hsplit
    rcases refuseLink_last hplain hlink (hsplit ▸ hbase) with ⟨dir, rfl⟩
    rw [append_nil] at hsettled ⊢
    exact ⟨dir, name, rfl, hsettled, hfilename⟩
  · rw [concat_eq_append, ← append_assoc] at hsplit hsettled ⊢
    have hlast := append_inj_right' hsplit rfl
    rw [singleton_inj] at hlast
    exact ⟨base ++ first, last, rfl, hsettled, hlast ▸ hfilename⟩

/-- A safe parent of a settled location exists. -/
theorem parentDirSafe_anchor {dir : List Bytes} {u : Unit} (hsettled : Settled t (dir ++ [name]))
    (h : parentDirSafe t dir = .ok u) :
    ∃ anchor, t.entry dir = some anchor ∧ ∀ target, anchor ≠ .link target := by
  simp [parentDirSafe, bind_eq_ok] at h
  rcases h with ⟨found, hfound, -⟩
  have hresolves := walk_sound hfound
  have htarget := hresolves.target t.directory_root
  rwa [hsettled.parent hresolves] at htarget

/-! ## The candidate -/

theorem ends_onHost {α : Type} {p : Op α} {s : Txn} {ok : α → Txn → Prop}
    {failed : PolicyError → Txn → Prop} (h : Ends p s.host (fun a h => ok a { s with host := h })
      fun e h => failed (policyErrorOf "" e) { s with host := h }) : Ends (onHost p) s ok failed :=
  Ends.mapFailure (Ends.zoom h)

/-- A candidate path next to the target, with nothing there before. -/
structure Placed (E : List Bytes → Option Entry) (dir : List Bytes)
    (name candidate leaf : Bytes) : Prop where
  nonempty : candidate ≠ []
  path : names candidate = dir ++ [leaf]
  sibling : dirNames candidate = dir
  proper : Proper (dir ++ [leaf])
  differs : leaf ≠ name
  fresh : E (dir ++ [leaf]) = none
  directory : E dir = some .directory

theorem mktempSuffix_no_slash (n : Nat) : slash ∉ mktempSuffix n := by
  intro hmem
  rcases mem_map.mp hmem with ⟨i, -, heq⟩
  have hdigits : ∀ d < 62, (if d < 10 then UInt8.ofNat (48 + d)
      else if d < 36 then UInt8.ofNat (55 + d) else UInt8.ofNat (61 + d)) ≠ slash := by decide
  exact hdigits _ (Nat.mod_lt _ (by decide)) heq

/-- The name of a candidate of the script is proper, and no name of a policy file. -/
theorem candidateName (hname : validatePolicyFilename pathClass name = .ok ()) (n : Nat) :
    IsName (textBytes ".pm-policy-" ++ mktempSuffix n) ∧
      textBytes ".pm-policy-" ++ mktempSuffix n ≠ name := by
  have hlength : 2 < (textBytes ".pm-policy-" ++ mktempSuffix n).length := by
    have hstart : (textBytes ".pm-policy-").length = 11 := rfl
    rw [length_append, hstart]
    omega
  have hfirst : (textBytes ".pm-policy-" ++ mktempSuffix n).head? = some dot := rfl
  refine ⟨⟨?_, ?_, ?_, ?_⟩, ?_⟩
  · intro hnil
    rw [hnil] at hfirst
    cases hfirst
  · have hstart : slash ∉ textBytes ".pm-policy-" := by decide
    simp [hstart, mktempSuffix_no_slash]
  · intro heq
    rw [heq] at hlength
    exact absurd hlength (by decide)
  · intro heq
    rw [heq] at hlength
    exact absurd hlength (by decide)
  · intro heq
    rw [heq] at hfirst
    simp [validatePolicyFilename] at hname
    cases name with
    | nil => cases hfirst
    | cons b rest =>
      cases hfirst
      cases pathClass <;> simp [validPolicyName, isPolicyNameAlnum, dot] at hname

/-- What the script prints is read back, if it passes the check. -/
theorem trimNewline_stdout {target : List Bytes} {tmp : Bytes}
    (hcheck : checkCandidate target (trimNewline (stdout (tmp ++ [newline]))) = .ok ()) :
    trimNewline (stdout (tmp ++ [newline])) = tmp := by
  have hended : ended (tmp ++ [newline]) = tmp ++ [newline] :=
    ended_of_Ended (.inr (by simp))
  by_cases hshort : (tmp ++ [newline]).length ≤ maxOutputBytes
  · rw [stdout_of_short (by rwa [hended]), hended]
    simp [trimNewline]
  · rcases stdout_of_long (c := tmp ++ [newline]) (by rw [hended]; omega) with
      ⟨kept, -, -, -, -, -, -, -, -, hout⟩
    have hlast : (kept ++ truncationMarker).getLast? ≠ some newline := by
      have hmarker : truncationMarker.getLast? = some 93 := rfl
      simp [getLast?_append, hmarker, newline]
    rw [hout, trimNewline, if_neg hlast] at hcheck
    simp only [checkCandidate, ite_error_eq_ok, not_or] at hcheck
    have hnewline : newline ∈ kept ++ truncationMarker :=
      mem_append_right _ (by decide)
    exact absurd hnewline hcheck.1.2.2.1

/-- A candidate holds the content next to the target; a failure leaves the target alone. -/
theorem createPolicyCandidate_ends {env : Env} {s : Txn} {dir : List Bytes} {content : Bytes}
    {mode : FileMode} (hsettled : Settled s.host.tree (dir ++ [name]))
    (hname : validatePolicyFilename pathClass name = .ok ()) :
    Ends (createPolicyCandidate env (dir ++ [name]) content mode) s
      (fun candidate s' => s'.accepted = s.accepted ∧
        ∃ leaf, Placed s.host.tree.entry dir name candidate leaf ∧
          s'.host.tree.entry =
            update s.host.tree.entry (dir ++ [leaf]) (some (.file content)))
      (fun _ s' => Stray s.host.tree s'.host.tree (dir ++ [name])) := by
  have hparent : Proper dir := hsettled.2.left
  apply Ends.bind
  apply ends_onHost
  refine ends_check ?_ fun _ _ => .inl rfl
  intro _ hsafe
  rw [dropLast_concat] at hsafe
  rcases parentDirSafe_anchor hsettled hsafe with ⟨anchor, hanchor, hlink⟩
  by_cases hdirect : env.backend = .direct
  · rw [if_pos hdirect]
    apply Ends.bind
    apply Ends.mapFailure
    apply ends_onHost
    refine (writeTempFrom_ends (h := ⟨s.host.tree, s.host.turn + 1⟩) hanchor hlink
      hsettled.2).mono ?_ fun _ _ hstray => hstray
    rintro tmp h' ⟨leaf, rfl, hdiffers, hproper, hdirectory, hfresh, hentry⟩
    refine Ends.pure ⟨rfl, leaf, ⟨?_, names_render hproper, dirNames_render hproper, hproper,
      hdiffers, hfresh, hdirectory⟩, hentry⟩
    simp [render]
  · rw [if_neg hdirect]
    have hleaf := candidateName hname (env.random (s.host.turn + 1))
    have htmp : names (mktempPath env (s.host.turn + 1) (dir ++ [name]) (textBytes ".pm-policy-")) =
        names (substituted (render dir)) ++
          [textBytes ".pm-policy-" ++ mktempSuffix (env.random (s.host.turn + 1))] := by
      rw [mktempPath, dropLast_concat, names_append_name hleaf.1]
    -- Wherever the script makes its file, that is not at the target.
    have helsewhere : ∀ l, leafAt s.host.tree (names (mktempPath env (s.host.turn + 1)
        (dir ++ [name]) (textBytes ".pm-policy-"))) = .ok l → l ≠ dir ++ [name] := by
      intro l hl heq
      rcases leafAt_ok hl with ⟨found, last, hpath, -, -, hloc⟩
      rw [htmp, dropLast_concat, append_cancel_left_eq, singleton_inj] at hpath
      rw [hloc] at heq
      have hlast := append_inj_right' heq rfl
      rw [singleton_inj, ← hpath] at hlast
      exact hleaf.2 hlast
    apply Ends.bind
    apply ends_onHost
    refine ends_execute.mono ?_ ?_
    · rintro out h' ⟨hstages, hout⟩
      have hrun := hstages
      rw [← append_nil (policyCandidateScript _ _ _ _ _).stages] at hrun
      rcases mktempStages_ok hrun with ⟨l, t₁, hloc, hnone, hentry, hdone⟩
      cases hdone
      apply Ends.bind
      refine Ends.orFail ?_ ?_
      · intro _ hcheck
        rw [hout] at hcheck ⊢
        have htrim := trimNewline_stdout hcheck
        simp only [policyCandidateScript] at hcheck htrim ⊢
        rw [htrim] at hcheck ⊢
        simp [checkCandidate] at hcheck
        have hsibling := hcheck.1.2.2.2.2.1
        have hdir := hsibling
        rw [mktempPath, dropLast_concat, dirNames_append hleaf.1.2.1] at hdir
        rw [hdir] at htmp
        dsimp only at hloc hnone hentry
        rw [htmp] at hloc
        have hchild := leafAt_child hanchor hlink hparent hloc
        rw [hchild.1] at hnone hentry
        refine Ends.pure ⟨rfl, _, ⟨hcheck.1.1, htmp, hsibling, ?_, hleaf.2, hnone, hchild.2⟩,
          hentry⟩
        intro c hc
        rcases mem_append.mp hc with hc | hc
        · exact hparent c hc
        · rw [mem_singleton.mp hc]
          exact hleaf.1
      · intro _ _
        exact .inr ⟨l, _, helsewhere l hloc, hnone, hentry⟩
    · intro e h' hdisturbed
      rcases mktemp_disturbed hdisturbed with hsame | ⟨l, leaf, hloc, hnone, hentry⟩
      · exact .inl hsame
      · exact .inr ⟨l, leaf, helsewhere l hloc, hnone, hentry⟩

/-! ## Swap and restore -/

section placed

variable {env : Env} {s : Txn} {E : List Bytes → Option Entry} {dir : List Bytes}
  {name candidate leaf : Bytes}

/-- The directory stays while its leaves change. -/
theorem update_directory {v : Option Entry} (hdir : E dir = some .directory) :
    update E (dir ++ [name]) v dir = some .directory := by
  rw [update_of_ne (child_ne_dir dir name), hdir]

theorem Placed.ne_target (h : Placed E dir name candidate leaf) :
    dir ++ [leaf] ≠ dir ++ [name] := by
  simpa using h.differs

/-- The swap moves the candidate over the target; one that fails has done so, or nothing. -/
theorem swapPolicyCandidate_ends {v : Option Entry} (hplaced : Placed E dir name candidate leaf)
    (hentry : s.host.tree.entry = update E (dir ++ [leaf]) v) :
    Ends (swapPolicyCandidate env candidate (dir ++ [name])) s
      (fun _ s' => s'.candidate = s.candidate ∧ s'.accepted = s.accepted ∧
        s'.host.tree.entry = update E (dir ++ [name]) v)
      (fun _ s' => s'.candidate = s.candidate ∧ s'.accepted = s.accepted ∧
        (s'.host.tree.entry = update E (dir ++ [leaf]) v ∨
          s'.host.tree.entry = update E (dir ++ [name]) v)) := by
  have hparent : Proper dir := hplaced.proper.left
  have hdir : s.host.tree.entry dir = some .directory := by
    rw [hentry, update_directory hplaced.directory]
  have hmoved : update (update s.host.tree.entry (dir ++ [name])
      (s.host.tree.entry (dir ++ [leaf]))) (dir ++ [leaf]) none =
      update E (dir ++ [name]) v := by
    rw [hentry, update_self, update_moved hplaced.ne_target hplaced.fresh]
  apply Ends.bind
  refine Ends.ensure ?_ fun _ => ⟨rfl, rfl, .inl hentry⟩
  intro _
  apply Ends.bind
  apply ends_onHost
  refine ends_check ?_ fun _ _ => ⟨rfl, rfl, .inl hentry⟩
  intro _ _
  by_cases hdirect : env.backend = .direct
  · rw [if_pos hdirect, hplaced.path]
    apply ends_onHost
    refine (safeRename_ends (h := ⟨s.host.tree, s.host.turn + 1⟩) hdir hparent
      hplaced.differs).mono ?_ ?_
    · intro _ h' hrenamed
      exact ⟨rfl, rfl, hrenamed.trans hmoved⟩
    · intro _ h' hsame
      exact ⟨rfl, rfl, .inl (by rw [hsame, hentry])⟩
  · rw [if_neg hdirect]
    have hmv : ∀ t, mv (leafAt s.host.tree (names candidate)) (dir ++ [name]) s.host.tree = .ok t →
        t.entry = update E (dir ++ [name]) v := by
      intro t ht
      rcases mv_child hdir hparent ht with ⟨source, hsource, -, hlast⟩
      rw [hplaced.path] at hsource
      rw [(leafAt_child hdir (fun _ h => nomatch h) hparent hsource).1, hmoved] at hlast
      exact hlast
    apply Ends.bind
    apply ends_onHost
    refine (ends_execute_single rfl rfl).mono ?_ ?_
    · intro _ h' hdone
      exact Ends.pure ⟨rfl, rfl, hmv _ hdone⟩
    · rintro _ h' (hsame | hdone)
      · exact ⟨rfl, rfl, .inl (by rw [hsame, hentry])⟩
      · exact ⟨rfl, rfl, .inr (hmv _ hdone)⟩

/-- A command without stages leaves the tree alone. -/
theorem execute_harmless {h : Host} {command : String} :
    Ends (execute env command fun _ => harmless) h (fun _ h' => h'.tree = h.tree)
      (fun _ h' => h'.tree = h.tree) := by
  refine ends_execute.mono ?_ ?_
  · rintro _ h' ⟨hstages, -⟩
    exact (Prod.mk.inj hstages).1.symm
  · intro _ h' hdisturbed
    refine hdisturbed.keeps (P := (· = h.tree)) ?_ (fun _ h => h) rfl
    intro stage hmem
    cases hmem

/-- What stands at a target in a state. -/
def PolicyFileState.entry (state : PolicyFileState) : Option Entry :=
  if state.presence = .absent then none else some (.file state.content)

/-- A restore puts the state back, and changes nothing else. -/
theorem restorePolicyState_ends {state : PolicyFileState} {mode : FileMode}
    (hdir : s.host.tree.entry dir = some .directory) (hproper : Proper (dir ++ [name]))
    (hlink : ∀ target, s.host.tree.entry (dir ++ [name]) ≠ some (.link target)) :
    Ends (restorePolicyState env (dir ++ [name]) state mode) s
      (fun _ s' => s'.candidate = s.candidate ∧ s'.accepted = s.accepted ∧
        s'.host.tree.entry =
          update s.host.tree.entry (dir ++ [name]) state.entry)
      (fun _ _ => True) := by
  unfold restorePolicyState PolicyFileState.entry
  by_cases habsent : state.presence = .absent
  · rw [if_pos habsent, if_pos habsent]
    apply ends_onHost
    refine (remove_ends hdir hproper hlink (names_render hproper)).mono ?_ fun _ _ _ => trivial
    intro _ h' hremoved
    exact ⟨rfl, rfl, hremoved⟩
  · rw [if_neg habsent, if_neg habsent]
    apply ends_onHost
    refine (writeFile_ends hdir hproper hlink (names_render hproper)).mono ?_ fun _ _ _ => trivial
    intro _ h' hwritten
    exact ⟨rfl, rfl, hwritten⟩

end placed

end PowerManage.Fsafe
