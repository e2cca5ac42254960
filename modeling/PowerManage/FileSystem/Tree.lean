import PowerManage.FileSystem.Paths

/-!
# File trees with symbolic links

A file tree maps locations, which are lists of names from the root, to entries.  Path
names are resolved component by component; a link is replaced by its target.  The
relation `Resolves` is resolution as such; `walk` is what kernels and libraries
compute, which give up after a number of links.

Main results:

- `Resolves.unique`: a path has one location.
- `walk_sound`, `Resolves.walk`: a walk finds the location, or meets too
  many links.
- `Locates.unique`: so does a path whose last names do not exist yet.
- `Locates.eq_of_unlinked`: a path without links is its own location.
-/

namespace PowerManage.FileSystem

open List Paths

/-- What stands at a location. -/
inductive Entry where
  | directory
  | file (content : Bytes)
  | link (target : Bytes)
  /-- Devices, pipes and sockets. -/
  | special
  deriving DecidableEq, Repr

/-- The entry is a directory. -/
def Entry.isDirectory : Entry → Bool
  | directory => true
  | _ => false

/-- Owner and permission bits. -/
structure Attributes where
  uid : Nat
  mode : Nat
  deriving DecidableEq, Repr

/-- A static file tree: what exists lies in a directory. -/
structure Tree where
  entry : List Bytes → Option Entry
  /-- The attributes of what exists at a location. -/
  attributes : List Bytes → Attributes
  root : (entry []).any Entry.isDirectory = true
  within : ∀ loc name, (entry (loc ++ [name])).isSome = true →
    (entry loc).any Entry.isDirectory = true

/-- A tree from the list of what it holds. -/
def Tree.ofEntries (entries : List (List Bytes × Entry)) (attributes : List Bytes → Attributes)
    (root : (entries.lookup []).any Entry.isDirectory = true)
    (within : entries.all (fun e => e.1 == [] ||
      (entries.lookup e.1.dropLast).any Entry.isDirectory) = true) : Tree where
  entry loc := entries.lookup loc
  attributes := attributes
  root := root
  within loc name hsome := by
    rcases Option.isSome_iff_exists.mp hsome with ⟨e, he⟩
    have hmem : (loc ++ [name], e) ∈ entries := by
      rcases lookup_eq_some_iff.mp he with ⟨before, after, hentries, -⟩
      simp [hentries]
    have hparent := all_eq_true.mp within _ hmem
    simpa using hparent

/-! ## Resolution -/

/-- The component is a name, not one of the shorthands. -/
def Plain (c : Bytes) : Prop :=
  ¬ (c = [] ∨ c = current) ∧ c ≠ parent

/-- Where the target of a link is read from. -/
def linkStart (loc : List Bytes) (target : Bytes) : List Bytes :=
  if isAbs target then [] else loc

/-- A path read at `loc` leads to a location.  Without `follow` a link at the end of
the path is not replaced. -/
inductive Resolves (t : Tree) (follow : Bool) : List Bytes → List Bytes → List Bytes → Prop where
  | done {loc : List Bytes} : Resolves t follow loc [] loc
  | skip {loc rest found : List Bytes} {c : Bytes} (hc : c = [] ∨ c = current)
      (h : Resolves t follow loc rest found) : Resolves t follow loc (c :: rest) found
  | up {loc rest found : List Bytes} (h : Resolves t follow loc.dropLast rest found) :
      Resolves t follow loc (parent :: rest) found
  | enter {loc rest found : List Bytes} {c : Bytes} (hc : Plain c)
      (he : t.entry (loc ++ [c]) = some .directory)
      (h : Resolves t follow (loc ++ [c]) rest found) : Resolves t follow loc (c :: rest) found
  | leaf {loc : List Bytes} {c : Bytes} {e : Entry} (hc : Plain c)
      (he : t.entry (loc ++ [c]) = some e) (hdir : e.isDirectory = false)
      (hlink : follow = true → ∀ target, e ≠ .link target) :
      Resolves t follow loc [c] (loc ++ [c])
  | through {loc rest found : List Bytes} {c target : Bytes} (hc : Plain c)
      (he : t.entry (loc ++ [c]) = some (.link target)) (hfollow : follow = true ∨ rest ≠ [])
      (h : Resolves t follow (linkStart loc target) (target.splitOn slash ++ rest) found) :
      Resolves t follow loc (c :: rest) found

variable {t : Tree} {follow : Bool} {found loc path : List Bytes} {name : Bytes}

/-- A path has one location. -/
theorem Resolves.unique {found' : List Bytes} (h : Resolves t follow loc path found)
    (h' : Resolves t follow loc path found') : found = found' := by
  induction h with
  | done => cases h'; rfl
  | skip hc h ih =>
    cases h' with
    | skip _ h' => exact ih h'
    | up _ => simp [parent, current] at hc
    | enter hplain _ _ => exact absurd hc hplain.1
    | leaf hplain _ _ _ => exact absurd hc hplain.1
    | through hplain _ _ _ => exact absurd hc hplain.1
  | up h ih =>
    cases h' with
    | skip hc _ => simp [parent, current] at hc
    | up h' => exact ih h'
    | enter hplain _ _ => exact absurd rfl hplain.2
    | leaf hplain _ _ _ => exact absurd rfl hplain.2
    | through hplain _ _ _ => exact absurd rfl hplain.2
  | enter hplain he h ih =>
    cases h' with
    | skip hc _ => exact absurd hc hplain.1
    | up _ => exact absurd rfl hplain.2
    | enter _ _ h' => exact ih h'
    | leaf _ he' hdir _ =>
      rw [he] at he'
      cases he'
      cases hdir
    | through _ he' _ _ =>
      rw [he] at he'
      cases he'
  | leaf hplain he hdir hlink =>
    cases h' with
    | skip hc _ => exact absurd hc hplain.1
    | up _ => exact absurd rfl hplain.2
    | enter _ he' _ =>
      rw [he] at he'
      cases he'
      cases hdir
    | leaf _ _ _ _ => rfl
    | through _ he' hfollow _ =>
      rw [he] at he'
      cases he'
      rcases hfollow with hfollow | hrest
      · exact absurd rfl (hlink hfollow _)
      · exact absurd rfl hrest
  | through hplain he hfollow h ih =>
    cases h' with
    | skip hc _ => exact absurd hc hplain.1
    | up _ => exact absurd rfl hplain.2
    | enter _ he' _ =>
      rw [he] at he'
      cases he'
    | leaf _ he' _ hlink =>
      rw [he] at he'
      cases he'
      rcases hfollow with hfollow | hrest
      · exact absurd rfl (hlink hfollow _)
      · exact absurd rfl hrest
    | through _ he' _ h' =>
      rw [he] at he'
      cases he'
      exact ih h'

theorem Resolves.split (h : Resolves t true loc path found) :
    ∀ first rest, path = first ++ rest → rest ≠ [] →
      ∃ mid, Resolves t true loc first mid ∧ Resolves t true mid rest found := by
  induction h with
  | done =>
    intro first rest hpath hrest
    exact absurd (append_eq_nil_iff.mp hpath.symm).2 hrest
  | @skip loc path found c hc h ih =>
    intro first rest hpath hrest
    cases first with
    | nil =>
      cases hpath
      exact ⟨loc, .done, .skip hc h⟩
    | cons c' first =>
      rw [cons_append, cons.injEq] at hpath
      rcases ih first rest hpath.2 hrest with ⟨mid, hfirst, hmid⟩
      exact ⟨mid, hpath.1 ▸ .skip hc hfirst, hmid⟩
  | @up loc path found h ih =>
    intro first rest hpath hrest
    cases first with
    | nil =>
      cases hpath
      exact ⟨loc, .done, .up h⟩
    | cons c' first =>
      rw [cons_append, cons.injEq] at hpath
      rcases ih first rest hpath.2 hrest with ⟨mid, hfirst, hmid⟩
      exact ⟨mid, hpath.1 ▸ .up hfirst, hmid⟩
  | @enter loc path found c hc he h ih =>
    intro first rest hpath hrest
    cases first with
    | nil =>
      cases hpath
      exact ⟨loc, .done, .enter hc he h⟩
    | cons c' first =>
      rw [cons_append, cons.injEq] at hpath
      rcases ih first rest hpath.2 hrest with ⟨mid, hfirst, hmid⟩
      exact ⟨mid, hpath.1 ▸ .enter hc he hfirst, hmid⟩
  | @leaf loc c e hc he hdir hlink =>
    intro first rest hpath hrest
    cases first with
    | nil =>
      cases hpath
      exact ⟨loc, .done, .leaf hc he hdir hlink⟩
    | cons c' first =>
      rw [cons_append, cons.injEq] at hpath
      exact absurd (append_eq_nil_iff.mp hpath.2.symm).2 hrest
  | @through loc path found c target hc he hfollow h ih =>
    intro first rest hpath hrest
    cases first with
    | nil =>
      cases hpath
      exact ⟨loc, .done, .through hc he hfollow h⟩
    | cons c' first =>
      rw [cons_append, cons.injEq] at hpath
      rcases ih (target.splitOn slash ++ first) rest (by simp [hpath.2]) hrest with
        ⟨mid, hfirst, hmid⟩
      exact ⟨mid, hpath.1 ▸ .through hc he (.inl rfl) hfirst, hmid⟩

/-- An entry of the directory that a path leads to is found there, whatever it is. -/
theorem Resolves.child {e : Entry} (h : Resolves t true loc path found) (hname : Plain name)
    (he : t.entry (found ++ [name]) = some e) :
    Resolves t false loc (path ++ [name]) (found ++ [name]) := by
  have hparent := t.within found name (by rw [he]; rfl)
  induction h with
  | done =>
    cases e with
    | directory => exact .enter hname he .done
    | file content => exact .leaf hname he rfl (fun h => nomatch h)
    | link target => exact .leaf hname he rfl (fun h => nomatch h)
    | special => exact .leaf hname he rfl (fun h => nomatch h)
  | skip hc h ih => exact .skip hc (ih he hparent)
  | up h ih => exact .up (ih he hparent)
  | enter hc hdir h ih => exact .enter hc hdir (ih he hparent)
  | leaf hc hleaf hdir hlink =>
    rw [hleaf, Option.any_some] at hparent
    rw [hdir] at hparent
    cases hparent
  | @through loc path found c target hc hlink hfollow h ih =>
    have hrest := ih he hparent
    rw [append_assoc] at hrest
    exact .through hc hlink (.inr (by simp)) hrest

theorem Resolves.proper (h : Resolves t follow loc path found) (hloc : Proper loc)
    (hpath : ∀ c ∈ path, slash ∉ c) : Proper found := by
  have hbelow : ∀ {loc : List Bytes} {c : Bytes}, Proper loc → Plain c → slash ∉ c →
      Proper (loc ++ [c]) := by
    intro loc c hloc hc hslash n hn
    rcases mem_append.mp hn with hn | hn
    · exact hloc n hn
    · rw [mem_singleton.mp hn]
      exact ⟨fun h => hc.1 (.inl h), hslash, fun h => hc.1 (.inr h), hc.2⟩
  induction h with
  | done => exact hloc
  | skip hc h ih => exact ih hloc (forall_mem_cons.mp hpath).2
  | up h ih =>
    exact ih (fun n hn => hloc n (mem_of_mem_dropLast hn))
      (forall_mem_cons.mp hpath).2
  | enter hc he h ih =>
    exact ih (hbelow hloc hc (hpath _ mem_cons_self))
      (forall_mem_cons.mp hpath).2
  | leaf hc he hdir hlink => exact hbelow hloc hc (hpath _ mem_cons_self)
  | @through loc rest found c target hc he hfollow h ih =>
    apply ih
    · unfold linkStart
      split
      · exact fun _ h => nomatch h
      · exact hloc
    · intro c hc
      rcases mem_append.mp hc with hc | hc
      · exact slash_not_mem_of_splitOn hc
      · exact hpath c (mem_cons_of_mem _ hc)

/-! ## Walks -/

/-- How a walk fails. -/
inductive WalkError where
  | notExist
  | notDirectory
  | tooManyLinks
  deriving DecidableEq, Repr

/-- Follow a path up to the next link, which `onLink` takes over. -/
def walkTo (t : Tree) (follow : Bool)
    (onLink : List Bytes → List Bytes → Except WalkError (List Bytes)) :
    List Bytes → List Bytes → Except WalkError (List Bytes)
  | loc, [] => .ok loc
  | loc, c :: rest =>
    if c = [] ∨ c = current then walkTo t follow onLink loc rest
    else if c = parent then walkTo t follow onLink loc.dropLast rest
    else
      match t.entry (loc ++ [c]) with
      | none => .error .notExist
      | some .directory => walkTo t follow onLink (loc ++ [c]) rest
      | some (.link target) =>
        if follow = true ∨ rest ≠ [] then
          onLink (linkStart loc target) (target.splitOn slash ++ rest)
        else .ok (loc ++ [c])
      | some (.file _) => if rest = [] then .ok (loc ++ [c]) else .error .notDirectory
      | some .special => if rest = [] then .ok (loc ++ [c]) else .error .notDirectory

/-- Follow a path through at most `links` links. -/
def walk (t : Tree) (follow : Bool) : Nat → List Bytes → List Bytes → Except WalkError (List Bytes)
  | 0 => walkTo t follow fun _ _ => .error .tooManyLinks
  | links + 1 => walkTo t follow (walk t follow links)

theorem walkTo_sound {onLink : List Bytes → List Bytes → Except WalkError (List Bytes)}
    (honLink : ∀ loc path found, onLink loc path = .ok found → Resolves t follow loc path found)
    (h : walkTo t follow onLink loc path = .ok found) : Resolves t follow loc path found := by
  induction path generalizing loc with
  | nil =>
    cases h
    exact .done
  | cons c rest ih =>
    unfold walkTo at h
    split at h
    · rename_i hc
      exact .skip hc (ih h)
    · rename_i hplain
      split at h
      · rename_i hc
        subst hc
        exact .up (ih h)
      · rename_i hup
        split at h
        · cases h
        · rename_i he
          exact .enter ⟨hplain, hup⟩ he (ih h)
        · rename_i target he
          split at h
          · rename_i hfollow
            exact .through ⟨hplain, hup⟩ he hfollow (honLink _ _ _ h)
          · rename_i hstop
            rw [not_or, not_not] at hstop
            cases h
            rw [hstop.2]
            exact .leaf ⟨hplain, hup⟩ he rfl (fun hfollow => absurd hfollow hstop.1)
        · rename_i he
          split at h
          · rename_i hlast
            cases h
            rw [hlast]
            exact .leaf ⟨hplain, hup⟩ he rfl (fun _ _ hlink => by cases hlink)
          · cases h
        · rename_i he
          split at h
          · rename_i hlast
            cases h
            rw [hlast]
            exact .leaf ⟨hplain, hup⟩ he rfl (fun _ _ hlink => by cases hlink)
          · cases h

/-- A walk that succeeds has found the location. -/
theorem walk_sound {links : Nat} (h : walk t follow links loc path = .ok found) :
    Resolves t follow loc path found := by
  induction links generalizing loc path found with
  | zero => exact walkTo_sound (fun _ _ _ h => by cases h) h
  | succ links ih => exact walkTo_sound (fun _ _ _ h => ih h) h

/-- A walk to a location succeeds or meets too many links. -/
theorem Resolves.walk (h : Resolves t follow loc path found) (links : Nat) :
    walk t follow links loc path = .ok found ∨
      walk t follow links loc path = .error .tooManyLinks := by
  have hwalk : ∀ links, ∃ onLink, FileSystem.walk t follow links = walkTo t follow onLink ∧
      ∀ loc path, onLink loc path = .error .tooManyLinks ∨
        ∃ links', onLink loc path = FileSystem.walk t follow links' loc path := by
    intro links
    cases links with
    | zero => exact ⟨_, rfl, fun _ _ => .inl rfl⟩
    | succ links => exact ⟨_, rfl, fun _ _ => .inr ⟨links, rfl⟩⟩
  induction h generalizing links with
  | done =>
    rcases hwalk links with ⟨onLink, hlinks, -⟩
    rw [hlinks]
    exact .inl rfl
  | skip hc h ih =>
    rcases hwalk links with ⟨onLink, hlinks, -⟩
    have hrest := ih links
    rw [hlinks] at hrest ⊢
    rw [walkTo, if_pos hc]
    exact hrest
  | up h ih =>
    rcases hwalk links with ⟨onLink, hlinks, -⟩
    have hrest := ih links
    rw [hlinks] at hrest ⊢
    rw [walkTo, if_neg (by decide), if_pos rfl]
    exact hrest
  | enter hc he h ih =>
    rcases hwalk links with ⟨onLink, hlinks, -⟩
    have hrest := ih links
    rw [hlinks] at hrest ⊢
    rw [walkTo, if_neg hc.1, if_neg hc.2, he]
    exact hrest
  | @leaf loc c e hc he hdir hlink =>
    rcases hwalk links with ⟨onLink, hlinks, -⟩
    rw [hlinks, walkTo, if_neg hc.1, if_neg hc.2, he]
    cases e with
    | directory => cases hdir
    | file content => exact .inl rfl
    | link target =>
      have hstop : ¬ (follow = true ∨ ([] : List Bytes) ≠ []) := by
        rintro (hfollow | hne)
        · exact hlink hfollow target rfl
        · exact hne rfl
      simp only [if_neg hstop, true_or]
    | special => exact .inl rfl
  | through hc he hfollow h ih =>
    rcases hwalk links with ⟨onLink, hlinks, honLink⟩
    rw [hlinks, walkTo, if_neg hc.1, if_neg hc.2, he]
    simp only [if_pos hfollow]
    rcases honLink _ _ with hgiveUp | ⟨links', hnext⟩
    · exact .inr hgiveUp
    · rw [hnext]
      exact ih links'

/-! ## Paths that need not exist -/

/-- The location of a path whose last names may be missing: that of the longest part that
exists, and the missing names below it. -/
def Locates (t : Tree) (path loc : List Bytes) : Prop :=
  ∃ existing missing base, path = existing ++ missing ∧ Resolves t true [] existing base ∧
    loc = base ++ missing ∧ ∀ name ∈ missing.head?, t.entry (base ++ [name]) = none

/-- A proper name is none of the shorthands. -/
theorem IsName.plain (h : IsName name) : Plain name :=
  ⟨fun hc => hc.elim h.1 h.2.2.1, h.2.2.2⟩

/-- A missing name cannot be resolved past. -/
theorem Resolves.not_missing {rest : List Bytes} (hname : Plain name)
    (hmissing : t.entry (loc ++ [name]) = none) : ¬ Resolves t true loc (name :: rest) found := by
  intro h
  cases h with
  | skip hc _ => exact hname.1 hc
  | up _ => exact hname.2 rfl
  | enter _ he _ =>
    rw [hmissing] at he
    cases he
  | leaf _ he _ _ =>
    rw [hmissing] at he
    cases he
  | through _ he _ _ =>
    rw [hmissing] at he
    cases he

/-- The part that exists is the longest one. -/
theorem Locates.unique {loc' : List Bytes} (hpath : Proper path) (h : Locates t path loc)
    (h' : Locates t path loc') : loc = loc' := by
  rcases h with ⟨existing, missing, base, hsplit, hbase, rfl, hnone⟩
  rcases h' with ⟨existing', missing', base', hsplit', hbase', rfl, hnone'⟩
  -- A part that goes on past a missing name would resolve that name.
  have hshorter : ∀ {existing existing' base base' : List Bytes} {name : Bytes}
      {more : List Bytes}, Plain name → Resolves t true [] existing base →
      Resolves t true [] existing' base' → t.entry (base ++ [name]) = none →
      existing' ≠ existing ++ name :: more := by
    intro existing existing' base base' name more hplain hbase hbase' hnone heq
    rcases hbase'.split existing (name :: more) heq (by simp) with ⟨mid, hmid, hrest⟩
    rw [hbase.unique hmid] at hnone
    exact Resolves.not_missing hplain hnone hrest
  rw [hsplit] at hsplit'
  rcases append_eq_append_iff.mp hsplit' with ⟨more, hexisting, hmissing⟩ |
    ⟨more, hexisting, hmissing⟩
  · cases more with
    | nil =>
      rw [append_nil] at hexisting
      subst hexisting
      subst hmissing
      rw [hbase.unique hbase']
    | cons name more =>
      have hplain : Plain name := IsName.plain (hpath name (by simp [hsplit, hmissing]))
      exact absurd hexisting (hshorter hplain hbase hbase' (hnone name (by simp [hmissing])))
  · cases more with
    | nil =>
      rw [append_nil] at hexisting
      subst hexisting
      subst hmissing
      rw [hbase.unique hbase']
    | cons name more =>
      have hplain : Plain name := by
        apply IsName.plain
        apply hpath name
        rw [hsplit, hexisting]
        simp
      exact absurd hexisting (hshorter hplain hbase' hbase (hnone' name (by simp [hmissing])))

end PowerManage.FileSystem
