import Mathlib.Logic.Function.Basic
import PowerManage.FileSystem.Tree
import PowerManage.Relational.Program

/-!
# Changes to file trees

System calls that create, write, remove and rename the leaves of a tree.  Each acts on a
path; a path that leads to itself is `Settled`, and on such a path a call changes the
entry of that name and no other.

Main results:

- `Locates.settled`: a resolved path leads to itself.
- `Settled.leafAt`: calls on a settled path act at its own location.
- `createFile_ok`, `unlink_ok`, `moveTo_ok`: what the calls change.
-/

namespace PowerManage.FileSystem

open List Paths Relational

/-! ## What exists -/

variable {t t' : Tree} {dir loc path : List Bytes} {e : Entry} {name : Bytes}

/-- Whatever has something below it is a directory. -/
theorem Tree.directory_above {more : List Bytes} (h : t.entry (loc ++ more) = some e)
    (hmore : more ≠ []) : t.entry loc = some .directory := by
  have hdirectory : ∀ {loc : List Bytes}, (t.entry loc).any Entry.isDirectory = true →
      t.entry loc = some .directory := by
    intro loc hany
    cases hentry : t.entry loc with
    | none => simp [hentry] at hany
    | some e => cases e <;> simp_all [Entry.isDirectory]
  induction more using reverseRecOn generalizing e with
  | nil => exact absurd rfl hmore
  | append_singleton more name ih =>
    rw [← append_assoc] at h
    have hparent := hdirectory (t.within _ name (by rw [h]; rfl))
    by_cases hnil : more = []
    · rwa [hnil, append_nil] at hparent
    · exact ih hparent hnil

theorem Tree.directory_root (t : Tree) : t.entry [] = some .directory := by
  have hroot := t.root
  cases hentry : t.entry [] with
  | none => simp [hentry] at hroot
  | some e => cases e <;> simp_all [Entry.isDirectory]

theorem Tree.walkTo_self (t : Tree) (follow : Bool)
    (onLink : List Bytes → List Bytes → Except WalkError (List Bytes)) (loc : List Bytes)
    {rest : List Bytes} (he : t.entry (loc ++ rest) = some e)
    (hlink : follow = true → ∀ target, e ≠ .link target) (hplain : ∀ c ∈ rest, Plain c) :
    walkTo t follow onLink loc rest = .ok (loc ++ rest) := by
  induction rest generalizing loc with
  | nil => rw [walkTo, append_nil]
  | cons c rest ih =>
    have hc := hplain c mem_cons_self
    have hsplit : loc ++ c :: rest = (loc ++ [c]) ++ rest := by simp
    rw [hsplit] at he ⊢
    have hrest := ih (loc ++ [c]) he (forall_mem_cons.mp hplain).2
    rw [walkTo, if_neg hc.1, if_neg hc.2]
    by_cases hnil : rest = []
    · subst hnil
      rw [append_nil] at he
      rw [he]
      cases e with
      | directory => exact hrest
      | file content => simp
      | special => simp
      | link target =>
        have hstay : ¬ follow = true := fun hfollow => hlink hfollow target rfl
        simp [hstay]
    · rw [Tree.directory_above he hnil]
      exact hrest

theorem Tree.walk_self (t : Tree) (follow : Bool) (links : Nat) (he : t.entry loc = some e)
    (hlink : follow = true → ∀ target, e ≠ .link target) (hplain : ∀ c ∈ loc, Plain c) :
    walk t follow links [] loc = .ok loc := by
  cases links with
  | zero => exact t.walkTo_self follow _ [] he hlink hplain
  | succ links => exact t.walkTo_self follow _ [] he hlink hplain

/-- What stands at a location is found under the names of the location. -/
theorem Tree.resolves_self (t : Tree) (follow : Bool) (he : t.entry loc = some e)
    (hlink : follow = true → ∀ target, e ≠ .link target) (hplain : ∀ c ∈ loc, Plain c) :
    Resolves t follow [] loc loc :=
  walk_sound (t.walk_self follow 0 he hlink hplain)

/-- A path that resolves leads to something, and not to a link. -/
theorem Resolves.target {found : List Bytes} (h : Resolves t true loc path found)
    (hloc : t.entry loc = some .directory) :
    ∃ e, t.entry found = some e ∧ ∀ target, e ≠ .link target := by
  induction h with
  | done => exact ⟨_, hloc, fun _ h => nomatch h⟩
  | skip _ _ ih => exact ih hloc
  | @up loc _ _ _ ih =>
    apply ih
    by_cases hnil : loc = []
    · rw [hnil]
      exact t.directory_root
    · rw [← dropLast_append_getLast hnil] at hloc
      exact Tree.directory_above hloc (by simp)
  | enter _ he _ ih => exact ih he
  | leaf _ he _ hlink => exact ⟨_, he, hlink rfl⟩
  | @through loc _ _ _ target _ _ _ _ ih =>
    apply ih
    unfold linkStart
    split
    · exact t.directory_root
    · exact hloc

/-! ## Settled locations -/

/-- A location that its own names lead to. -/
def Settled (t : Tree) (loc : List Bytes) : Prop :=
  Locates t loc loc ∧ Proper loc

theorem proper_plain {ns : List Bytes} (h : Proper ns) : ∀ c ∈ ns, Plain c :=
  fun c hc => IsName.plain (h c hc)

/-- Where a path leads is settled. -/
theorem Locates.settled (h : Locates t path loc) (hproper : Proper loc) : Settled t loc := by
  rcases h with ⟨existing, missing, base, -, hbase, rfl, hnone⟩
  rcases hbase.target t.directory_root with ⟨e, he, hlink⟩
  have hself := t.resolves_self true he (fun _ => hlink)
    fun c hc => proper_plain hproper c (mem_append_left _ hc)
  exact ⟨⟨base, missing, base, rfl, hself, rfl, hnone⟩, hproper⟩

/-- A name in a directory is settled unless it is a link. -/
theorem settled_child (hdir : t.entry dir = some .directory) (hproper : Proper (dir ++ [name]))
    (hlink : ∀ target, t.entry (dir ++ [name]) ≠ some (.link target)) :
    Settled t (dir ++ [name]) := by
  refine ⟨?_, hproper⟩
  cases hentry : t.entry (dir ++ [name]) with
  | none =>
    have hself := t.resolves_self true hdir
      (fun _ _ h => nomatch h) fun c hc => proper_plain hproper c (mem_append_left _ hc)
    exact ⟨dir, [name], dir, rfl, hself, rfl, by simpa using hentry⟩
  | some e =>
    have hself := t.resolves_self true hentry
      (fun _ target he => hlink target (he ▸ hentry)) (proper_plain hproper)
    exact ⟨dir ++ [name], [], dir ++ [name], by simp, hself, by simp, by simp⟩

theorem Settled.not_link (h : Settled t loc) (target : Bytes) :
    t.entry loc ≠ some (.link target) := by
  rcases h.1 with ⟨existing, missing, base, -, hbase, rfl, hnone⟩
  rcases hbase.target t.directory_root with ⟨e, he, hlink⟩
  intro hentry
  cases missing with
  | nil =>
    rw [append_nil, he] at hentry
    exact hlink target (Option.some.inj hentry)
  | cons name more =>
    have hsplit : base ++ name :: more = (base ++ [name]) ++ more := by simp
    have hmissing := hnone name (by simp)
    rw [hsplit] at hentry
    by_cases hnil : more = []
    · rw [hnil, append_nil, hmissing] at hentry
      cases hentry
    · rw [Tree.directory_above hentry hnil] at hmissing
      cases hmissing

/-- A walk to what exists at a settled location arrives. -/
theorem Settled.walk (h : Settled t loc) (he : t.entry loc = some e) (follow : Bool) (links : Nat) :
    walk t follow links [] loc = .ok loc :=
  t.walk_self follow links he (fun _ target heq => h.not_link target (heq ▸ he))
    (proper_plain h.2)

/-- The directory of a settled location leads to itself, if anywhere. -/
theorem Settled.parent {found : List Bytes} (h : Settled t (dir ++ [name]))
    (hfound : Resolves t true [] dir found) : found = dir := by
  rcases h.1 with ⟨existing, missing, base, -, hbase, hloc, hnone⟩
  rcases hbase.target t.directory_root with ⟨e, he, hlink⟩
  have hproper : Proper dir := h.2.left
  rcases eq_nil_or_concat missing with hnil | ⟨first, last, hmissing⟩
  · rw [hnil, append_nil] at hloc
    have hdir : t.entry dir = some .directory :=
      Tree.directory_above (by rw [hloc]; exact he) (by simp)
    have hself := t.resolves_self true hdir
      (fun _ _ h => nomatch h) (proper_plain hproper)
    exact hfound.unique hself
  · rw [hmissing, concat_eq_append, ← append_assoc] at hloc
    have hdir : dir = base ++ first := (append_inj_left' hloc rfl)
    cases first with
    | nil =>
      rw [append_nil] at hdir
      have hself := t.resolves_self true he
        (fun _ => hlink) (hdir ▸ proper_plain hproper)
      exact hdir ▸ hfound.unique (hdir ▸ hself)
    | cons next more =>
      -- The directory is itself missing, so nothing is found under it.
      rcases hfound.split base (next :: more) hdir (by simp) with ⟨mid, hmid, hrest⟩
      have hself := t.resolves_self true he
        (fun _ => hlink) fun c hc => proper_plain hproper c (by rw [hdir]; simp [hc])
      rw [hmid.unique hself] at hrest
      have hplain : Plain next := proper_plain hproper next (by rw [hdir]; simp)
      exact absurd hrest (Resolves.not_missing hplain (hnone next (by simp [hmissing])))

/-! ## Replacing a leaf -/

/-- A place in a directory that holds no directory itself. -/
def Tree.Replaceable (t : Tree) (loc : List Bytes) : Prop :=
  loc ≠ [] ∧ t.entry loc.dropLast = some .directory ∧ t.entry loc ≠ some .directory

instance (t : Tree) (loc : List Bytes) : Decidable (t.Replaceable loc) :=
  inferInstanceAs (Decidable (_ ∧ _ ∧ _))

/-- Put something at a place, or remove what is there. -/
def Tree.put (t : Tree) (loc : List Bytes) (h : t.Replaceable loc) (leaf : Option Entry)
    (attributes : Attributes) : Tree where
  entry := Function.update t.entry loc leaf
  attributes := Function.update t.attributes loc attributes
  root := by
    rw [Function.update_of_ne (Ne.symm h.1)]
    exact t.root
  within l name hsome := by
    have hdirectory : (t.entry l).any Entry.isDirectory = true := by
      by_cases hl : l ++ [name] = loc
      · have hparent := h.2.1
        rw [← hl, dropLast_concat] at hparent
        simp [hparent, Entry.isDirectory]
      · rw [Function.update_of_ne hl] at hsome
        exact t.within l name hsome
    by_cases hl : l = loc
    · subst hl
      have hnot := h.2.2
      cases hentry : t.entry l with
      | none => simp [hentry] at hdirectory
      | some e =>
        rw [hentry] at hdirectory hnot
        cases e <;> simp_all [Entry.isDirectory]
    · rw [Function.update_of_ne hl]
      exact hdirectory

/-! ## System calls -/

/-- How a call fails. -/
inductive CallError where
  | walk (e : WalkError)
  | exist
  | isDirectory
  deriving DecidableEq, Repr

/-- The place in a directory that a path names, whatever is there. -/
def leafAt (t : Tree) (path : List Bytes) : Except CallError (List Bytes) :=
  match path.getLast?, walk t true 40 [] path.dropLast with
  | none, _ => .error .isDirectory
  | some _, .error e => .error (.walk e)
  | some name, .ok dir =>
    if t.entry dir = some .directory then .ok (dir ++ [name]) else .error (.walk .notDirectory)

/-- Put something at a place that holds no directory. -/
def putAt (t : Tree) (loc : List Bytes) (leaf : Option Entry) (attributes : Attributes) :
    Except CallError Tree :=
  if h : t.Replaceable loc then .ok (t.put loc h leaf attributes) else .error .isDirectory

/-- `open` with `O_CREAT` and `O_EXCL`: the tree, and where the file is. -/
def createFile (t : Tree) (path : List Bytes) (mode : Nat) :
    Except CallError (Tree × List Bytes) := do
  let loc ← leafAt t path
  if (t.entry loc).isSome then .error .exist
  else do
    let t' ← putAt t loc (some (.file [])) ⟨0, mode⟩
    return (t', loc)

def unlink (t : Tree) (path : List Bytes) : Except CallError Tree := do
  let loc ← leafAt t path
  if t.entry loc = none then .error (.walk .notExist)
  else putAt t loc none ⟨0, 0⟩

/-- Move a leaf to a path. -/
def moveTo (t : Tree) (source new : List Bytes) : Except CallError Tree := do
  let target ← leafAt t new
  if t.entry source = none then .error (.walk .notExist)
  else if source = target then .ok t
  else do
    let t' ← putAt t target (t.entry source) (t.attributes source)
    putAt t' source none ⟨0, 0⟩

/-- `rename` of something other than a directory. -/
def rename (t : Tree) (old new : List Bytes) : Except CallError Tree := do
  let source ← leafAt t old
  moveTo t source new

/-! ## What the calls change -/

theorem leafAt_ok (h : leafAt t path = .ok loc) :
    ∃ dir name, path = path.dropLast ++ [name] ∧ Resolves t true [] path.dropLast dir ∧
      t.entry dir = some .directory ∧ loc = dir ++ [name] := by
  unfold leafAt at h
  split at h
  · cases h
  · cases h
  · rename_i name dir hlast hwalk
    split at h
    · rename_i hdir
      cases h
      exact ⟨dir, name, (dropLast_append_getLast? name hlast).symm, walk_sound hwalk, hdir, rfl⟩
    · cases h

/-- A call on a name below something that exists acts there, in a directory. -/
theorem leafAt_child (hdir : t.entry dir = some e) (hlink : ∀ target, e ≠ .link target)
    (hproper : Proper dir) (hleaf : leafAt t (dir ++ [name]) = .ok loc) :
    loc = dir ++ [name] ∧ t.entry dir = some .directory := by
  have hwalk := t.walk_self true 40 hdir (fun _ => hlink) (proper_plain hproper)
  unfold leafAt at hleaf
  rw [dropLast_concat, hwalk, getLast?_concat] at hleaf
  dsimp only at hleaf
  split at hleaf
  · rename_i hdirectory
    cases hleaf
    exact ⟨rfl, hdirectory⟩
  · cases hleaf

/-- A call on a settled path acts at its own location, in a directory. -/
theorem Settled.leafAt (h : Settled t (dir ++ [name]))
    (hleaf : leafAt t (dir ++ [name]) = .ok loc) :
    loc = dir ++ [name] ∧ t.entry dir = some .directory := by
  rcases leafAt_ok hleaf with ⟨found, last, hpath, hfound, hdirectory, rfl⟩
  rw [dropLast_concat] at hpath hfound
  rw [append_cancel_left_eq] at hpath
  rw [← h.parent hfound]
  exact ⟨by rw [singleton_inj.mp hpath], hdirectory⟩

/-- What exists at a settled location is found. -/
theorem Settled.leafAt_exists (h : Settled t (dir ++ [name]))
    (he : t.entry (dir ++ [name]) = some e) :
    FileSystem.leafAt t (dir ++ [name]) = .ok (dir ++ [name]) := by
  have hdir : t.entry dir = some .directory := Tree.directory_above he (by simp)
  have hwalk := t.walk_self true 40 hdir (fun _ _ h => nomatch h)
    fun c hc => proper_plain h.2 c (mem_append_left _ hc)
  simp [FileSystem.leafAt, hwalk, hdir]

theorem putAt_ok {leaf : Option Entry} {attributes : Attributes}
    (h : putAt t loc leaf attributes = .ok t') : t'.entry = Function.update t.entry loc leaf := by
  unfold putAt at h
  split at h
  · cases h
    rfl
  · cases h

/-- A created file is new. -/
theorem createFile_ok {mode : Nat} (h : createFile t path mode = .ok (t', loc)) :
    leafAt t path = .ok loc ∧ t.entry loc = none ∧
      t'.entry = Function.update t.entry loc (some (.file [])) := by
  simp only [createFile, bind_eq_ok, ite_error_eq_ok] at h
  rcases h with ⟨found, hleaf, hnone, t'', hput, hreturn⟩
  cases hreturn
  exact ⟨hleaf, by simpa using hnone, putAt_ok hput⟩

theorem unlink_ok (h : unlink t path = .ok t') :
    ∃ loc, leafAt t path = .ok loc ∧ t'.entry = Function.update t.entry loc none := by
  simp [unlink, bind_eq_ok] at h
  rcases h with ⟨loc, hleaf, -, hput⟩
  exact ⟨loc, hleaf, putAt_ok hput⟩

/-- A leaf moves over whatever stood at its new place. -/
theorem moveTo_ok {source new : List Bytes} (h : moveTo t source new = .ok t') :
    ∃ target, leafAt t new = .ok target ∧ t.entry source ≠ none ∧
      (source = target ∧ t' = t ∨ source ≠ target ∧
        t'.entry =
          Function.update (Function.update t.entry target (t.entry source)) source none) := by
  simp [moveTo, bind_eq_ok] at h
  rcases h with ⟨target, htarget, hsome, hmove⟩
  refine ⟨target, htarget, hsome, ?_⟩
  split at hmove
  · rename_i hsame
    cases hmove
    exact .inl ⟨hsame, rfl⟩
  · rename_i hdiffer
    rw [bind_eq_ok] at hmove
    rcases hmove with ⟨mid, hmid, hlast⟩
    rw [putAt_ok hlast, putAt_ok hmid]
    exact .inr ⟨hdiffer, rfl⟩

end PowerManage.FileSystem
