import PowerManage.Fsafe.Manager

/-!
# What the operations of a manager read and change

On a path that leads to itself `ReadFile`, `Remove` and `WriteFile` read and
change the entry of that name and no other.

Main results:

- `readFile_direct`, `readFile_escalated`: what is read from a file.
- `remove_ends`: what a removal leaves, whether it succeeds or not.
- `writeFile_ends`: what a successful write leaves.
-/

namespace PowerManage.Fsafe

open List Exec FileSystem Paths Relational Interaction
open Utf8 (textBytes)
open Function (update update_comm update_eq_self update_idem update_of_ne update_self)

/-! ## Settled paths -/

variable {path : Bytes}
variable {t : Tree}

/-- A path with the names of a settled location resolves to it, if at all. -/
theorem resolve_settled {loc resolved : List Bytes} (hsettled : Settled t loc)
    (hpath : names path = loc) (h : resolveAndValidatePath t path = .ok resolved) :
    resolved = loc := by
  subst hpath
  exact (resolveAndValidatePath_locates h).1.unique hsettled.2 hsettled.1

theorem validatePath_error {e : FsError} (h : validatePath path = .error e) :
    e.sentinel = .invalidPath := by
  unfold validatePath at h
  split_ifs at h <;> cases h <;> rfl

/-- What exists at a settled location is not reported as missing. -/
theorem resolve_exists {loc : List Bytes} {entry : Entry} {e : FsError} (hsettled : Settled t loc)
    (hentry : t.entry loc = some entry) (h : resolveAndValidatePath t (render loc) = .error e) :
    e.sentinel ≠ .notExist := by
  have hdeepest : deepestExisting t loc.reverse [] = .ok (loc, []) := by
    cases hreverse : loc.reverse with
    | nil =>
      rw [reverse_eq_nil_iff] at hreverse
      rw [hreverse, deepestExisting]
    | cons last above =>
      have hloc : (last :: above).reverse = loc := by rw [← hreverse, reverse_reverse]
      rw [deepestExisting, hloc, lstat, hsettled.walk hentry]
  simp [resolveAndValidatePath, names_render hsettled.2, hdeepest, evalSymlinks] at h
  cases hvalid : validatePath (render loc) with
  | error e' =>
    rw [hvalid] at h
    cases h
    rw [validatePath_error hvalid]
    decide
  | ok _ =>
    rw [hvalid] at h
    simp only [Except.mapError, Bind.bind, Except.bind, hsettled.walk hentry] at h
    cases h

/-! ## Reading -/

/-- The direct backend reads the bytes of a regular file, and reports as missing only what
is. -/
theorem readFile_direct {env : Env} {h : Host} {dir : List Bytes} {name : Bytes}
    (hdirect : env.backend = .direct) (hsettled : Settled h.tree (dir ++ [name])) :
    Ends (readFile env (render (dir ++ [name]))) h
      (fun out h' => h'.tree = h.tree ∧ h.tree.entry (dir ++ [name]) = some (.file out))
      (fun e h' => h'.tree = h.tree ∧
        (e.sentinel = .notExist → h.tree.entry (dir ++ [name]) = none)) := by
  apply Ends.bind
  apply ends_check
  · intro resolved hresolved
    rw [resolve_settled hsettled (names_render hsettled.2) hresolved, if_pos hdirect]
    apply ends_check
    · intro content hread
      simp [openAndRead, bind_eq_ok] at hread
      rcases hread with ⟨loc, hleaf, hread⟩
      rw [(hsettled.leafAt hleaf).1] at hread
      refine ⟨rfl, ?_⟩
      split at hread
      · rename_i hentry
        cases hread
        exact hentry
      all_goals cases hread
    · intro e he
      refine ⟨rfl, fun hnotExist => ?_⟩
      by_contra hsome
      rcases Option.ne_none_iff_exists'.mp hsome with ⟨entry, hentry⟩
      have hread := he hnotExist
      simp only [openAndRead, hsettled.leafAt_exists hentry, hentry, Except.mapError, Bind.bind,
        Except.bind] at hread
      cases entry <;> cases hread <;> cases hnotExist
  · intro e he
    refine ⟨rfl, fun hnotExist => ?_⟩
    by_contra hsome
    rcases Option.ne_none_iff_exists'.mp hsome with ⟨entry, hentry⟩
    exact resolve_exists hsettled hentry (he hnotExist) hnotExist

theorem cat_stage {device : Bytes} {path : List Bytes} :
    ∀ stage ∈ (cat device path).stages, ∀ t t', stage t = .ok t' → t' = t := by
  intro stage hmem t t' hstage
  rw [mem_singleton.mp hmem] at hstage
  dsimp only at hstage
  split at hstage
  · cases hstage
  · split at hstage
    · cases hstage
    · cases hstage
      rfl

theorem cat_disturbed {device : Bytes} {path : List Bytes} {t t' : Tree}
    (h : (cat device path).Disturbed t t') : t' = t :=
  h.keeps (fun stage hmem t1 t2 h1 h2 => (cat_stage stage hmem t1 t2 h2).trans h1)
    (fun _ h => h) rfl

/-- `cat` of a regular file succeeds and prints it. -/
theorem cat_file (device : Bytes) {content : Bytes} {path : List Bytes}
    (hwalk : stat t path = .ok path) (hfile : t.entry path = some (.file content)) :
    runStages (cat device path).stages t = (t, none) ∧ (cat device path).output t = content := by
  simp [cat, runStages, hwalk, hfile, Except.toOption]

/-- An escalated backend reads what the capture keeps of a regular file. -/
theorem readFile_escalated {env : Env} {h : Host} {content : Bytes}
    (hescalated : env.backend ≠ .direct)
    (hfile : ∀ resolved, resolveAndValidatePath h.tree path = .ok resolved →
      h.tree.entry resolved = some (.file content)) :
    Ends (readFile env path) h
      (fun out h' => h'.tree = h.tree ∧ out = stdout content)
      (fun e h' => h'.tree = h.tree ∧ (e.sentinel = .notExist →
        resolveAndValidatePath h.tree path = .error e)) := by
  apply Ends.bind
  apply ends_check
  · intro resolved hresolved
    have hlocates := resolveAndValidatePath_locates hresolved
    have hwalk := (hlocates.1.settled hlocates.2).walk (hfile resolved hresolved) true 40
    have hcat := cat_file (env.device (h.turn + 1)) hwalk (hfile resolved hresolved)
    rw [if_neg hescalated]
    apply Ends.bind
    refine ends_runCommand.mono ?_ fun e h' he => ⟨cat_disturbed he.2, ?_⟩
    · rintro res h' (⟨hzero, hstages, hout⟩ | ⟨hfailed, hdisturbed, hmissing⟩)
      · rw [if_neg (not_not.mpr hzero)]
        dsimp only at hstages
        rw [hcat.1, Prod.mk.injEq] at hstages
        rw [← hstages.1, hcat.2] at hout
        exact Ends.pure ⟨hstages.1.symm, hout⟩
      · rw [if_pos hfailed]
        have hpresent : ¬ isENOENTStderr res.stderr = true := by
          intro henoent
          rcases hmissing henoent with ⟨t, stderr, hstages⟩
          rw [hcat.1] at hstages
          cases hstages
        rw [if_neg hpresent]
        exact Ends.throw ⟨cat_disturbed hdisturbed, by simp [cmdErr]⟩
    · rw [he.1]
      simp
  · intro e he
    exact ⟨rfl, he⟩

/-! ## Removing -/

section changes

variable {env : Env} {h : Host} {dir : List Bytes} {name : Bytes}

variable {t t' : Tree} {content : Bytes} {mode : FileMode}

theorem unlink_child (hdir : t.entry dir = some .directory) (hproper : Proper dir)
    (hunlink : unlink t (dir ++ [name]) = .ok t') :
    t'.entry = update t.entry (dir ++ [name]) none := by
  rcases unlink_ok hunlink with ⟨loc, hleaf, hentry⟩
  rw [(leafAt_child hdir (by simp) hproper hleaf).1] at hentry
  exact hentry

/-- What cannot be unlinked because it is missing is missing. -/
theorem unlink_notExist (hdir : t.entry dir = some .directory) (hproper : Proper dir)
    (hunlink : unlink t (dir ++ [name]) = .error (.walk .notExist)) :
    t.entry = update t.entry (dir ++ [name]) none := by
  have hwalk := t.walk_self true 40 hdir (fun _ _ h => nomatch h) (proper_plain hproper)
  have hleaf : leafAt t (dir ++ [name]) = .ok (dir ++ [name]) := by
    simp [leafAt, hwalk, hdir]
  simp only [unlink, hleaf, Bind.bind, Except.bind] at hunlink
  split at hunlink
  · rename_i hnone
    rw [← hnone, update_eq_self]
  · unfold putAt at hunlink
    split at hunlink <;> cases hunlink

/-- A removal removes the name; one that fails has removed it or done nothing. -/
theorem remove_ends {path : Bytes} (hdir : h.tree.entry dir = some .directory)
    (hproper : Proper (dir ++ [name]))
    (hlink : ∀ target, h.tree.entry (dir ++ [name]) ≠ some (.link target))
    (hpath : names path = dir ++ [name]) :
    Ends (remove env path) h
      (fun _ h' => h'.tree.entry = update h.tree.entry (dir ++ [name]) none)
      (fun _ h' => h'.tree.entry = h.tree.entry ∨
        h'.tree.entry = update h.tree.entry (dir ++ [name]) none) := by
  have hsettled := settled_child hdir hproper hlink
  have hparent := hproper.left
  apply Ends.bind
  refine ends_check ?_ fun _ _ => .inl rfl
  intro resolved hresolved
  rw [resolve_settled hsettled hpath hresolved]
  by_cases hdirect : env.backend = .direct
  · rw [if_pos hdirect]
    apply Ends.bind
    refine Ends.inspect ?_ fun _ _ => .inl rfl
    intro _ _
    refine ends_call ?_ fun _ _ => .inl rfl
    intro _ t hact
    dsimp only at hact ⊢
    split at hact
    · rename_i hunlink
      cases hact
      exact unlink_child hdir hparent hunlink
    · rename_i hunlink
      cases hact
      exact unlink_notExist hdir hparent hunlink
    · cases hact
  · rw [if_neg hdirect]
    apply Ends.bind
    refine ends_check ?_ fun _ _ => .inl rfl
    intro _ _
    apply Ends.bind
    have hstage : ∀ stage ∈ (rm (dir ++ [name])).stages, ∀ t, stage h.tree = .ok t →
        t.entry = update h.tree.entry (dir ++ [name]) none := by
      intro stage hmem t hstage
      rw [mem_singleton.mp hmem] at hstage
      dsimp only at hstage
      split at hstage
      · rename_i hunlink
        cases hstage
        exact unlink_child hdir hparent hunlink
      · rename_i hunlink
        cases hstage
        exact unlink_notExist hdir hparent hunlink
      · cases hstage
    refine (ends_execute_single rfl rfl).mono ?_ ?_
    · intro _ h' hdone
      exact Ends.pure (hstage _ (mem_singleton.mpr rfl) _ hdone)
    · rintro _ h' (hsame | hdone)
      · exact .inl (congrArg Tree.entry hsame)
      · exact .inr (hstage _ (mem_singleton.mpr rfl) _ hdone)

/-! ## Temporary files -/

theorem slash_not_mem_decimal (n : Nat) : slash ∉ decimal n := by
  intro hmem
  rcases mem_map.mp hmem with ⟨c, hc, heq⟩
  have hdigit := Nat.isDigit_of_mem_toDigits (by decide) (by decide) hc
  have hrange : 48 ≤ c.toNat ∧ c.toNat ≤ 57 := by
    rw [Char.isDigit, Bool.and_eq_true, decide_eq_true_iff, decide_eq_true_iff] at hdigit
    exact hdigit
  have hvalue : (UInt8.ofNat c.toNat).toNat = 47 := congrArg UInt8.toNat heq
  rw [UInt8.toNat_ofNat'] at hvalue
  omega

/-- The name of a temporary file is proper, and longer than that of its target. -/
theorem tempName_proper (name : Bytes) (hname : slash ∉ name) (n : Nat) :
    IsName (textBytes "." ++ name ++ textBytes ".tmp-" ++ decimal n) ∧
      textBytes "." ++ name ++ textBytes ".tmp-" ++ decimal n ≠ name := by
  have hlength : (textBytes "." ++ name ++ textBytes ".tmp-" ++ decimal n).length =
      1 + name.length + 5 + (decimal n).length := by
    have hdot : (textBytes ".").length = 1 := rfl
    have htmp : (textBytes ".tmp-").length = 5 := rfl
    rw [length_append, length_append, length_append, hdot, htmp]
  have hneOf : ∀ other : Bytes, other.length ≤ name.length + 5 →
      textBytes "." ++ name ++ textBytes ".tmp-" ++ decimal n ≠ other := by
    intro other hother heq
    rw [heq] at hlength
    omega
  refine ⟨⟨hneOf _ (by simp), ?_, hneOf _ (by simp [current]), hneOf _ (by simp [parent])⟩,
    hneOf _ (by omega)⟩
  have hdot : slash ∉ textBytes "." := by decide
  have htmp : slash ∉ textBytes ".tmp-" := by decide
  simp [hdot, htmp, hname, slash_not_mem_decimal]

/-- Nothing has changed but a new file somewhere else than at `target`. -/
def Stray (t t' : Tree) (target : List Bytes) : Prop :=
  t'.entry = t.entry ∨
    ∃ loc leaf, loc ≠ target ∧ t.entry loc = none ∧ t'.entry = update t.entry loc leaf

theorem setFile_ok {context : Bytes} {loc : List Bytes} {mode : Nat} {u : Unit}
    (hset : setFile context loc content mode t = .ok (u, t')) :
    t'.entry = update t.entry loc (some (.file content)) := by
  simp only [setFile, map_eq_ok, mapError_eq_ok] at hset
  rcases hset with ⟨t'', hput, heq⟩
  cases heq
  exact putAt_ok hput

/-- A copy fills the open file; one that fails leaves a part or nothing. -/
theorem copyInto_ends {context : Bytes} {loc : List Bytes} :
    Ends (copyInto env context loc content) h
      (fun _ h' => h'.tree.entry = update h.tree.entry loc (some (.file content)))
      (fun _ h' => h'.tree.entry = h.tree.entry ∨
        ∃ leaf, h'.tree.entry = update h.tree.entry loc leaf) := by
  simp only [Ends, copyInto, EStateM.run]
  cases hfault : env.fault h.turn with
  | none =>
    simp only [Option.isSome_none, Bool.false_eq_true, if_false]
    cases hset : setFile context loc content tempMode h.tree with
    | error e => exact .inl rfl
    | ok r => exact setFile_ok hset
  | some e =>
    simp only [Option.isSome_some, if_true]
    cases hset : setFile context loc (content.take (env.written h.turn)) tempMode h.tree with
    | error e => exact .inl rfl
    | ok r => exact .inr ⟨_, setFile_ok hset⟩

/-- A filled temporary file has the content; a failure leaves nothing else. -/
theorem fillTemp_ends {path file : List Bytes} {perm : FileMode} :
    Ends (fillTemp env path file content perm) h
      (fun _ h' => h'.tree.entry = update h.tree.entry file (some (.file content)))
      (fun _ h' => h'.tree.entry = h.tree.entry ∨
        ∃ leaf, h'.tree.entry = update h.tree.entry file leaf) := by
  apply Ends.bind
  refine copyInto_ends.mono ?_ fun _ _ h => h
  intro _ h₁ hcopied
  apply Ends.bind
  refine ends_call ?_ fun _ _ => .inr ⟨_, hcopied⟩
  intro _ t hset
  have hchmod : t.entry = update h.tree.entry file (some (.file content)) := by
    rw [setFile_ok hset, hcopied, update_idem]
  apply Ends.bind
  refine ends_call ?_ fun _ _ => .inr ⟨_, hchmod⟩
  intro _ t' hsync
  cases hsync
  refine ends_call ?_ fun _ _ => .inr ⟨_, hchmod⟩
  intro _ t' hclose
  cases hclose
  exact hchmod

/-- A new temporary file, in a directory. -/
theorem createTemp_ends {anchor : Entry} {start : Bytes}
    (hanchor : h.tree.entry dir = some anchor) (hlink : ∀ target, anchor ≠ .link target)
    (hproper : Proper dir) :
    Ends (createTemp env dir start) h
      (fun r h' => ∃ n, r.1 = dir ++ [start ++ decimal n] ∧ r.2 = r.1 ∧
        h.tree.entry dir = some .directory ∧ h.tree.entry r.1 = none ∧
        h'.tree.entry = update h.tree.entry r.1 (some (.file [])))
      (fun _ h' => h'.tree = h.tree) := by
  apply Ends.bind
  apply Ends.get
  refine ends_call ?_ fun _ _ => rfl
  intro r t hcreate
  simp only [bind_eq_ok, mapError_eq_ok] at hcreate
  rcases hcreate with ⟨⟨t', loc⟩, hcreate, hreturn⟩
  cases hreturn
  rcases createFile_ok hcreate with ⟨hleaf, hnone, hentry⟩
  have hchild := leafAt_child hanchor hlink hproper hleaf
  rw [hchild.1] at hnone hentry
  exact ⟨_, rfl, hchild.1, hchild.2, hnone, hentry⟩

theorem osRemove_ends (hdir : h.tree.entry dir = some .directory) (hproper : Proper dir) :
    Ends (osRemove env (dir ++ [name])) h
      (fun _ h' => h'.tree.entry = update h.tree.entry (dir ++ [name]) none)
      (fun _ h' => h'.tree = h.tree) := by
  refine ends_call ?_ fun _ _ => rfl
  intro _ t hremove
  simp only [map_eq_ok, mapError_eq_ok] at hremove
  rcases hremove with ⟨t', hunlink, hreturn⟩
  cases hreturn
  exact unlink_child hdir hproper hunlink

/-- A directory is not one of its entries. -/
theorem child_ne_dir (dir : List Bytes) (name : Bytes) : dir ≠ dir ++ [name] := by
  intro heq
  simpa using congrArg length heq

/-- A temporary file stands next to its target, with the content; a failure leaves the
target alone. -/
theorem writeTempFrom_ends {anchor : Entry} {perm : FileMode}
    (hanchor : h.tree.entry dir = some anchor) (hlink : ∀ target, anchor ≠ .link target)
    (hproper : Proper (dir ++ [name])) :
    Ends (writeTempFrom env (dir ++ [name]) content perm) h
      (fun tmp h' => ∃ leaf, tmp = dir ++ [leaf] ∧ leaf ≠ name ∧ Proper tmp ∧
        h.tree.entry dir = some .directory ∧ h.tree.entry tmp = none ∧
        h'.tree.entry = update h.tree.entry tmp (some (.file content)))
      (fun _ h' => Stray h.tree h'.tree (dir ++ [name])) := by
  have hparent := hproper.left
  have hname := hproper name (by simp)
  apply Ends.bind
  refine Ends.orFail ?_ fun _ _ => .inl rfl
  intro _ _
  apply Ends.bind
  simp only [dropLast_concat, getLastD_concat]
  refine (createTemp_ends hanchor hlink hparent).mono ?_ fun _ h' hsame =>
    .inl (congrArg Tree.entry hsame)
  rintro ⟨tmp, file⟩ h₁ ⟨n, htmp, hfile, hdirectory, hnone, hcreated⟩
  dsimp only at htmp hfile hnone hcreated
  subst file
  have hleaf := tempName_proper name hname.2.1 n
  have hdiffer : tmp ≠ dir ++ [name] := by
    rw [htmp]
    simpa using hleaf.2
  -- Whatever stands at the temporary name, the directory is there to remove it from.
  have hcleanup : ∀ h₂ : Host, (∃ leaf, h₂.tree.entry = update h.tree.entry tmp leaf) →
      Ends (osRemove env tmp) h₂ (fun _ h' => Stray h.tree h'.tree (dir ++ [name]))
        (fun _ h' => Stray h.tree h'.tree (dir ++ [name])) := by
    rintro h₂ ⟨leaf, hentry⟩
    have hdir : h₂.tree.entry dir = some .directory := by
      rw [hentry, update_of_ne (htmp ▸ child_ne_dir dir _), hdirectory]
    rw [htmp] at hdiffer hnone hentry ⊢
    refine (osRemove_ends hdir hparent).mono ?_ ?_
    · intro _ h' hremoved
      rw [hentry, update_idem] at hremoved
      exact .inr ⟨_, _, hdiffer, hnone, hremoved⟩
    · intro _ h' hsame
      rw [hsame]
      exact .inr ⟨_, _, hdiffer, hnone, hentry⟩
  apply Ends.bind
  apply Ends.onFailure
  refine fillTemp_ends.mono ?_ ?_
  · intro _ h₂ hfilled
    rw [hcreated, update_idem] at hfilled
    refine Ends.pure ⟨_, htmp, hleaf.2, ?_, hdirectory, hnone, hfilled⟩
    rw [htmp]
    intro c hc
    rcases mem_append.mp hc with hc | hc
    · exact hparent c hc
    · rw [mem_singleton.mp hc]
      exact hleaf.1
  · rintro _ h₂ (hsame | ⟨leaf, hpart⟩)
    · exact hcleanup h₂ ⟨_, hsame.trans hcreated⟩
    · exact hcleanup h₂ ⟨leaf, by rw [hpart, hcreated, update_idem]⟩

/-! ## Writing -/

/-- A new file that was moved elsewhere leaves no trace at its old place. -/
theorem update_moved {E : List Bytes → Option Entry} {tmp target : List Bytes}
    {v w : Option Entry} (hdiffer : tmp ≠ target) (hnone : E tmp = none) :
    update (update (update E tmp v) target w) tmp none = update E target w := by
  rw [update_comm hdiffer, update_idem, update_comm hdiffer.symm, ← hnone, update_eq_self]

theorem moveTo_child {source : List Bytes} (hdir : t.entry dir = some .directory)
    (hproper : Proper dir) (hdiffer : source ≠ dir ++ [name])
    (hmove : moveTo t source (dir ++ [name]) = .ok t') :
    t'.entry = update (update t.entry (dir ++ [name]) (t.entry source)) source none := by
  rcases moveTo_ok hmove with ⟨target, hleaf, -, hresult⟩
  rw [(leafAt_child hdir (by simp) hproper hleaf).1] at hresult
  rcases hresult with ⟨hsame, -⟩ | ⟨-, hentry⟩
  · exact absurd hsame hdiffer
  · exact hentry

theorem mv_child {origin : Except CallError (List Bytes)} (hdir : t.entry dir = some .directory)
    (hproper : Proper dir) (hmv : mv origin (dir ++ [name]) t = .ok t') :
    ∃ source, origin = .ok source ∧ source ≠ dir ++ [name] ∧
      t'.entry = update (update t.entry (dir ++ [name]) (t.entry source)) source none := by
  simp [mv, bind_eq_ok] at hmv
  rcases hmv with ⟨source, hsource, hother, hmove⟩
  have hdiffer : source ≠ dir ++ [name] := by
    rintro rfl
    rcases moveTo_ok hmove with ⟨target, hleaf, -, -⟩
    rw [(leafAt_child hdir (by simp) hproper hleaf).1] at hleaf
    exact hother hleaf
  exact ⟨source, hsource, hdiffer, moveTo_child hdir hproper hdiffer hmove⟩

theorem safeRename_ends {leaf : Bytes} (hdir : h.tree.entry dir = some .directory)
    (hproper : Proper dir) (hdiffer : leaf ≠ name) :
    Ends (safeRename env (dir ++ [leaf]) (dir ++ [name])) h
      (fun _ h' => h'.tree.entry = update (update h.tree.entry (dir ++ [name])
        (h.tree.entry (dir ++ [leaf]))) (dir ++ [leaf]) none)
      (fun _ h' => h'.tree = h.tree) := by
  unfold safeRename
  refine ends_call ?_ fun _ _ => rfl
  intro _ t hrename
  simp only [map_eq_ok, mapError_eq_ok, rename, bind_eq_ok] at hrename
  rcases hrename with ⟨t', ⟨source, hleaf, hmove⟩, hreturn⟩
  cases hreturn
  rw [(leafAt_child hdir (by simp) hproper hleaf).1] at hmove
  exact moveTo_child hdir hproper (by simpa using hdiffer) hmove

theorem replaceFileFrom_ends (hdir : h.tree.entry dir = some .directory)
    (hproper : Proper (dir ++ [name])) :
    Ends (replaceFileFrom env (dir ++ [name]) content mode) h
      (fun _ h' => h'.tree.entry = update h.tree.entry (dir ++ [name]) (some (.file content)))
      (fun _ _ => True) := by
  have hparent := hproper.left
  apply Ends.bind
  refine (writeTempFrom_ends hdir (by simp) hproper).mono ?_ fun _ _ _ => trivial
  rintro tmp h₁ ⟨leaf, rfl, hdiffer, -, -, hnone, hentry⟩
  have hdir₁ : h₁.tree.entry dir = some .directory := by
    rw [hentry, update_of_ne (child_ne_dir dir leaf), hdir]
  have hplaces : dir ++ [leaf] ≠ dir ++ [name] := by simpa using hdiffer
  apply Ends.onFailure
  refine (safeRename_ends hdir₁ hparent hdiffer).mono ?_ ?_
  · intro _ h₂ hmoved
    rw [hmoved, hentry, update_self, update_moved hplaces hnone]
  · intro _ h₂ _
    exact Ends.of_run (fun _ _ _ => trivial) fun _ _ _ => trivial

variable {loc : Except CallError (List Bytes)}

/-- The stages of a script up to a filled temporary file. -/
theorem mktempStages_ok {tmp : Bytes} {more : List Stage}
    (hrun : runStages (mktempStages tmp loc content mode ++ more) t = (t', none)) :
    ∃ l t₁, loc = .ok l ∧ t.entry l = none ∧
      t₁.entry = update t.entry l (some (.file content)) ∧
      runStages more t₁ = (t', none) := by
  cases loc with
  | error e => simp [mktempStages, runStages] at hrun
  | ok l =>
    simp [mktempStages, runStages_cons_ok] at hrun
    rcases hrun with ⟨t₁, ⟨hnew, hcreate⟩, t₂, hfill, t₃, hchmod, hmore⟩
    refine ⟨l, t₃, rfl, by simpa using hnew, ?_, hmore⟩
    rw [putAt_ok hchmod, putAt_ok hfill, putAt_ok hcreate, update_idem, update_idem]

/-- What a script leaves that fails while it fills a temporary file. -/
theorem mktemp_disturbed {tmp : Bytes} {output : Tree → Bytes} (hdisturbed : Shell.Disturbed
      ⟨mktempStages tmp loc content mode, mktempTrap t loc, output⟩ t t') :
    t'.entry = t.entry ∨
      ∃ l leaf, loc = .ok l ∧ t.entry l = none ∧ t'.entry = update t.entry l leaf := by
  cases loc with
  | error e =>
    refine .inl (congrArg Tree.entry ?_)
    refine hdisturbed.keeps (P := (· = t)) ?_ (fun _ h => h) rfl
    intro stage hmem t₁ t₂ _ hstage
    rw [mem_singleton.mp hmem] at hstage
    cases hstage
  | ok l =>
    by_cases hsome : (t.entry l).isSome = true
    · -- The name is taken: the first stage fails, and the trap is not set.
      left
      have hfirst : ∀ n, (runStages ((mktempStages tmp (.ok l) content mode).take n) t).1 = t := by
        intro n
        cases n with
        | zero => rfl
        | succ n => simp [mktempStages, runStages, hsome]
      rcases hdisturbed with ⟨n, htree⟩ | ⟨t₁, stderr, hrun, htree⟩
      · rw [htree, hfirst n]
      · have hwhole := hfirst 3
        rw [take_of_length_le (by simp [mktempStages]), hrun] at hwhole
        dsimp only at hwhole htree
        rw [htree, hwhole, mktempTrap, if_pos hsome]
    · have hnone : t.entry l = none := by simpa using hsome
      right
      have hkeeps : ∃ leaf, t'.entry = update t.entry l leaf := by
        refine hdisturbed.keeps (P := fun t' => ∃ leaf, t'.entry = update t.entry l leaf) ?_ ?_
          ⟨none, by rw [← hnone, update_eq_self]⟩
        · rintro stage hmem t₁ t₂ ⟨leaf, hentry⟩ hstage
          have hset : ∃ leaf', t₂.entry = update t₁.entry l leaf' := by
            simp [mktempStages] at hmem
            rcases hmem with rfl | rfl | rfl
            · simp at hstage
              exact ⟨_, putAt_ok hstage.2⟩
            · exact ⟨_, putAt_ok (mapError_eq_ok.mp hstage)⟩
            · exact ⟨_, putAt_ok (mapError_eq_ok.mp hstage)⟩
          rcases hset with ⟨leaf', hentry'⟩
          exact ⟨leaf', by rw [hentry', hentry, update_idem]⟩
        · rintro t₁ ⟨leaf, hentry⟩
          dsimp only [mktempTrap]
          rw [if_neg hsome]
          cases hput : putAt t₁ l none ⟨0, 0⟩ with
          | error e => exact ⟨leaf, hentry⟩
          | ok t₂ => exact ⟨none, by
              rw [Except.toOption, Option.getD_some, putAt_ok hput, hentry, update_idem]⟩
      rcases hkeeps with ⟨leaf, hentry⟩
      exact ⟨l, leaf, rfl, hnone, hentry⟩

/-- A file that is written has the content, and nothing else is changed. -/
theorem writeFile_ends {path : Bytes} (hdir : h.tree.entry dir = some .directory)
    (hproper : Proper (dir ++ [name]))
    (hlink : ∀ target, h.tree.entry (dir ++ [name]) ≠ some (.link target))
    (hpath : names path = dir ++ [name]) :
    Ends (writeFile env path content mode) h
      (fun _ h' => h'.tree.entry = update h.tree.entry (dir ++ [name]) (some (.file content)))
      (fun _ _ => True) := by
  have hsettled := settled_child hdir hproper hlink
  have hparent := hproper.left
  apply Ends.bind
  refine Ends.orFail ?_ fun _ _ => trivial
  intro _ _
  apply Ends.bind
  refine ends_check ?_ fun _ _ => trivial
  intro resolved hresolved
  rw [resolve_settled hsettled hpath hresolved]
  apply Ends.bind
  refine ends_check ?_ fun _ _ => trivial
  intro _ _
  by_cases hdirect : env.backend = .direct
  · rw [if_pos hdirect]
    exact replaceFileFrom_ends hdir hproper
  · rw [if_neg hdirect]
    apply Ends.bind
    refine ends_execute.mono ?_ fun _ _ _ => trivial
    rintro _ h₁ ⟨hstages, -⟩
    apply Ends.pure
    rcases mktempStages_ok hstages with ⟨tmp, t₁, hloc, hnone, hentry, hmv⟩
    have hdir₁ : t₁.entry dir = some .directory := by
      have hne : dir ≠ tmp := by
        rintro rfl
        rw [hnone] at hdir
        cases hdir
      rw [hentry, update_of_ne hne, hdir]
    rcases runStages_cons_ok.mp hmv with ⟨t₂, hmoved, hdone⟩
    cases hdone
    rcases mv_child hdir₁ hparent hmoved with ⟨source, hsource, hdiffer, hlast⟩
    rw [hloc] at hsource
    cases hsource
    rw [hlast, hentry, update_self, update_moved hdiffer hnone]

end changes

end PowerManage.Fsafe
