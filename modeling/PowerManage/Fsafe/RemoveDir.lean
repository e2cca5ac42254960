import PowerManage.FileSystem.Inodes

/-!
# Removing a directory tree

`removeDirSecure` holds directories open and names entries in them only, so that other
processes cannot lead it out of its tree.

Main results:

- `removeDirSecure_stays_inside`: whatever other processes do meanwhile, each
  entry removed is one of a directory reached by opening real directories along the path; and
  if they do nothing, a success removes the tree and nothing else.
-/

namespace PowerManage.Fsafe

open List FileSystem FileSystem.Inodes Interaction Paths
open Script.Safe

/-- Why a removal fails. -/
inductive RemoveError where
  | protectedTarget
  | invalidPath (path : Bytes)
  | openRoot (e : Errno)
  | component (comp p : Bytes) (e : Errno)
  | realDirectory (name : Bytes) (e : Errno)
  | list (name : Bytes) (e : Errno)
  | probe (name child : Bytes) (e : Errno)
  | unlink (name child : Bytes) (e : Errno)
  | close (name : Bytes) (e : Errno)
  | rmdir (name : Bytes) (e : Errno)
  /-- The model does not follow a run to this depth. -/
  | unfinished
  deriving DecidableEq, Repr

abbrev Remover (α : Type) : Type := Script Call Call.Answer RemoveError α

def dir (path : Bytes) : Bytes :=
  clean (path.reverse.dropWhile (· ≠ slash)).reverse

/-- `filepath.Base` of a cleaned path other than the root. -/
def base (path : Bytes) : Bytes :=
  (path.reverse.takeWhile (· ≠ slash)).reverse

def openComponents (p : Bytes) : Nat → List Bytes → Remover Nat
  | f, [] => .ret f
  | f, comp :: rest =>
    (Script.asking (.component comp p) (.openat f comp) id).bind (openComponents p · rest)

/-- Open a directory with one call per component. -/
def openNoFollowChain (path : Bytes) : Remover Nat :=
  let p := clean path
  if isAbs p = false then .fail (.invalidPath path)
  else
    (Script.asking .openRoot .openRoot id).bind fun f =>
      if p = [slash] then .ret f else openComponents p f (p.tail.splitOn slash)

/-- One child: the attempt to open it tells what it is. -/
def removeChild (sub : Nat → Bytes → Remover Unit) (name : Bytes) (dfd : Nat) (child : Bytes) :
    Remover Unit :=
  .ask (.openat dfd child) fun
    | .ok _ => sub dfd child
    | .error e =>
      if e = .loop ∨ e = .notDirectory then
        Script.asking (.unlink name child) (.unlinkat dfd child false) id
      else .fail (.probe name child e)

def removeChildren (sub : Nat → Bytes → Remover Unit) (name : Bytes) (dfd : Nat) :
    List Bytes → Remover Unit
  | [] => .ret ()
  | child :: rest =>
    (removeChild sub name dfd child).bind fun _ => removeChildren sub name dfd rest

/-- Remove an entry with all below it, to some depth. -/
def removeAtRecursive : Nat → Nat → Bytes → Remover Unit
  | 0, _, _ => .fail .unfinished
  | depth + 1, dirfd, name =>
    (Script.asking (.realDirectory name) (.openat dirfd name) id).bind fun dfd =>
    (Script.asking (.list name) (.readdirnames dfd) id).bind fun names =>
    (removeChildren (removeAtRecursive depth) name dfd names).bind fun _ =>
    (Script.asking (.close name) (.close dfd) id).bind fun _ =>
    Script.asking (.rmdir name) (.unlinkat dirfd name true) id

def removeDirSecure (depth : Nat) (path : Bytes) : Remover Unit :=
  let p := clean path
  if p = [slash] then .fail .protectedTarget
  else (openNoFollowChain (dir p)).bind (removeAtRecursive depth · (base p))

/-! ## The path -/

theorem mem_reduce {rooted : Bool} {read rest : List Bytes} {c : Bytes}
    (h : c ∈ reduce rooted read rest) : c ∈ read ∨ c ∈ rest ∧ c ≠ [] := by
  fun_induction reduce rooted read rest with
  | case1 read => exact .inl (mem_reverse.mp h)
  | _ => grind

/-- Cleaning keeps relative paths relative. -/
theorem isAbs_clean (path : Bytes) : isAbs (clean path) = isAbs path := by
  unfold clean
  cases habs : isAbs path with
  | true => rfl
  | false =>
    cases hns : reduce false [] (path.splitOn slash) with
    | nil => rfl
    | cons n ns =>
      have hn := (mem_reduce (c := n) (by rw [hns]; exact mem_cons_self)).resolve_left
        (not_mem_nil)
      have hslash := slash_not_mem_of_splitOn hn.1
      obtain ⟨b, n, rfl⟩ := exists_cons_of_ne_nil hn.2
      have hb : b ≠ slash := fun hb => hslash (by simp [hb])
      cases ns <;> simpa [isAbs] using hb

theorem isAbs_dir {path : Bytes} (h : isAbs path = false) : isAbs (dir path) = false := by
  rw [dir, isAbs_clean]
  rcases hdir : (path.reverse.dropWhile (· ≠ slash)).reverse with _ | ⟨b, rest⟩
  · rfl
  · have hsuffix : (path.reverse.dropWhile (· ≠ slash)) <:+ path.reverse := dropWhile_suffix _
    rw [← reverse_prefix, reverse_reverse, hdir] at hsuffix
    obtain ⟨more, rfl⟩ := hsuffix
    exact h

/-- The directory and the last name of a cleaned path. -/
theorem dir_base_render {ns : List Bytes} {name : Bytes} (h : Proper (ns ++ [name])) :
    dir (render (ns ++ [name])) = render ns ∧ base (render (ns ++ [name])) = name := by
  have hslash : ∀ b ∈ name.reverse, decide (b ≠ slash) = true := fun b hb =>
    decide_eq_true fun heq => (h name (by simp)).2.1 (heq ▸ mem_reverse.mp hb)
  obtain ⟨start, habs, hrender⟩ : ∃ start, isAbs (start ++ [slash]) = true ∧
      render (ns ++ [name]) = start ++ slash :: name := by
    by_cases hnil : ns = []
    · exact ⟨[], rfl, by simp [hnil, render]⟩
    · exact ⟨render ns, rfl, by rw [render_append hnil (by simp)]; simp⟩
  have hreverse : (start ++ slash :: name).reverse = name.reverse ++ slash :: start.reverse := by
    simp
  have hdrop : (start ++ slash :: name).reverse.dropWhile (· ≠ slash) = slash :: start.reverse := by
    rw [hreverse, dropWhile_append_of_pos hslash]
    simp
  constructor
  · have hnames := dirNames_render h
    rw [dirNames, hrender, hdrop] at hnames
    rw [dir, hrender, hdrop, clean, if_pos (by simpa using habs), hnames]
  · rw [base, hrender, hreverse, takeWhile_append_of_pos hslash]
    simp

/-- The chain for a cleaned path opens its names one by one. -/
theorem openNoFollowChain_render {ns : List Bytes} (h : Proper ns) :
    openNoFollowChain (render ns) = (Script.asking .openRoot .openRoot id).bind fun f =>
      openComponents (render ns) f ns := by
  unfold openNoFollowChain
  simp only [clean_render h, isAbs_render, Bool.true_eq_false, if_false]
  congr 1
  funext f
  cases ns with
  | nil => rfl
  | cons n ns =>
    have hroot : render (n :: ns) ≠ [slash] := by
      intro heq
      have hnames := congrArg names heq
      rw [names_render h] at hnames
      cases hnames
    have hsplit : (render (n :: ns)).tail.splitOn slash = n :: ns :=
      splitOn_intercalate slash (fun m hm => (h m hm).2.1) (cons_ne_nil n ns)
    rw [if_neg hroot, hsplit]

/-- A run opens the directory of the names before the last one. -/
theorem removeDirSecure_eq (depth : Nat) (path : Bytes) :
    (∃ e, e ≠ .unfinished ∧ removeDirSecure depth path = .fail e) ∨
      ∃ ns name, names path = ns ++ [name] ∧ Proper (ns ++ [name]) ∧
        removeDirSecure depth path = ((Script.asking .openRoot .openRoot id).bind fun f =>
          openComponents (render ns) f ns).bind (removeAtRecursive depth · name) := by
  unfold removeDirSecure
  cases habs : isAbs path with
  | false =>
    have hp : isAbs (clean path) = false := by rw [isAbs_clean, habs]
    refine .inl ⟨.invalidPath (dir (clean path)), by simp, ?_⟩
    rw [if_neg (by rintro h; rw [h] at hp; cases hp)]
    simp only [openNoFollowChain, isAbs_clean, isAbs_dir hp, if_true]
    rfl
  | true =>
    have hp : clean path = render (names path) := if_pos habs
    have hproper := names_isName path
    rcases eq_nil_or_concat' (names path) with hnil | ⟨ns, name, hns⟩
    · refine .inl ⟨.protectedTarget, by simp, ?_⟩
      simp [hp, hnil, render]
    · rw [hns] at hp hproper
      obtain ⟨hdir, hbase⟩ := dir_base_render hproper
      refine .inr ⟨ns, name, hns, hproper, ?_⟩
      have hroot : render (ns ++ [name]) ≠ [slash] := by
        intro heq
        have hnames := congrArg names heq
        rw [names_render hproper] at hnames
        exact append_ne_nil_of_right_ne_nil ns (cons_ne_nil name []) hnames
      simp only [hp, hdir, hbase, if_neg hroot]
      rw [openNoFollowChain_render hproper.left]

/-! ## Runs -/

theorem reached_mono {t t' : List Event} {path : List Bytes} {d : Nat} (h : Reached t path d)
    (hmore : t <:+ t') : Reached t' path d := by
  obtain ⟨new, rfl⟩ := hmore
  induction new with
  | nil => exact h
  | cons e new ih => exact ih.later

/-- Other processes change nothing. -/
def Quiet (other : Inodes → Inodes → Prop) : Prop :=
  ∀ fs fs', other fs fs' → fs' = fs

/-- The entry is gone, and before it entries below it. -/
def Gone (d : Nat) (name : Bytes) (fs fs' : Inodes) : Prop :=
  ∃ top fs₁, fs.child d name = some top ∧ Confined top fs fs₁ ∧ fs' = fs₁.remove d name

section runs

variable {other : Inodes → Inodes → Prop} {target : List Bytes}

/-- Every removal so far is anchored. -/
def Inside (target : List Bytes) (w : World) : Prop :=
  Anchored target w.trace

/-- What a part of a run keeps: the trace grows, and its removals are anchored. -/
def Kept (target : List Bytes) (w w' : World) : Prop :=
  w.trace <:+ w'.trace ∧ Inside target w'

variable {path : List Bytes} {name : Bytes} {w : World}
variable {error : Errno → RemoveError} {d : Nat}

/-- Opening a directory in one that was reached. -/
theorem opens_safe (hname : IsName name) (hreach : Reached w.trace path d)
    (hinv : Inside target w) :
    (Script.asking error (.openat d name) id : Remover Nat).Safe (calls other) (Inside target)
      (fun c w' => Kept target w w' ∧ Reached w'.trace (path ++ [name]) c ∧
        other w.fs w'.fs ∧ w'.fs.child d name = some c) w := by
  refine asking ?_
  rintro (e | c) w' ⟨fs, hother, hcall, rfl⟩
  · exact ⟨hinv, fun c hc => nomatch hc⟩
  · refine ⟨hinv, ?_⟩
    rintro _ ⟨⟩
    obtain ⟨hchild, hreal⟩ := hcall hname
    exact ⟨⟨suffix_cons _ _, hinv⟩, hreach.opened hchild hreal, hother, hchild⟩

theorem openComponents_safe {p : Bytes} {ns : List Bytes} (hns : Proper ns)
    (hreach : Reached w.trace path d) (hinv : Inside target w) :
    (openComponents p d ns).Safe (calls other) (Inside target)
      (fun c w' => Inside target w' ∧ Reached w'.trace (path ++ ns) c ∧
        (Quiet other → w'.fs = w.fs ∧ w.fs.find d ns = some c)) w := by
  induction ns generalizing d path w with
  | nil => exact ⟨hinv, by simpa using hreach, fun _ => ⟨rfl, rfl⟩⟩
  | cons n ns ih =>
    refine bind ((opens_safe (hns n mem_cons_self) hreach hinv).mono ?_)
    rintro c w' ⟨⟨-, hinv'⟩, hreach', hother, hchild⟩
    refine (ih (forall_mem_cons.mp hns).2 hreach' hinv').mono ?_
    rintro c' w'' ⟨hinv'', hreach'', hrest⟩
    rw [append_assoc] at hreach''
    refine ⟨hinv'', hreach'', fun hquiet => ?_⟩
    obtain ⟨hfs, hfind⟩ := hrest hquiet
    rw [hquiet _ _ hother] at hfs hfind hchild
    refine ⟨hfs, ?_⟩
    rw [find, hchild]
    exact hfind

/-- Removing an entry of a directory that was reached. -/
theorem unlinks_safe {removeDir : Bool} (hreach : Reached w.trace path d)
    (htarget : target <+: path ++ [name]) (hinv : Inside target w) :
    (Script.asking error (.unlinkat d name removeDir) id : Remover Unit).Safe (calls other)
      (Inside target)
      (fun _ w' => Kept target w w' ∧ (Quiet other → w'.fs = w.fs.remove d name)) w := by
  refine asking ?_
  rintro (e | c) w' ⟨fs, hother, hcall⟩
  · subst hcall
    exact ⟨hinv, fun c hc => nomatch hc⟩
  · obtain ⟨⟨c, hchild, -⟩, rfl⟩ := hcall
    have hanchored : Anchored target (.removed fs d name :: w.trace) :=
      ⟨⟨path, hreach, htarget, by simp [hchild]⟩, hinv⟩
    refine ⟨hanchored, fun _ _ => ⟨⟨suffix_cons _ _, hanchored⟩, fun hquiet => ?_⟩⟩
    rw [hquiet _ _ hother]

variable {sub : Nat → Bytes → Remover Unit}

/-- What the recursion does with one child. -/
theorem removeChild_safe {dfd : Nat} {child : Bytes}
    (hsub : ∀ w, Reached w.trace path dfd → Inside target w →
      (sub dfd child).Safe (calls other) (Inside target)
        (fun _ w' => Kept target w w' ∧ (Quiet other → Gone dfd child w.fs w'.fs)) w)
    (htarget : target <+: path) (hreach : Reached w.trace path dfd) (hinv : Inside target w) :
    (removeChild sub name dfd child).Safe (calls other) (Inside target)
      (fun _ w' => Kept target w w' ∧ (Quiet other → Confined dfd w.fs w'.fs)) w := by
  rintro (e | c) w' ⟨fs, hother, -, rfl⟩
  · refine ⟨hinv, ?_⟩
    dsimp only
    split
    · refine (unlinks_safe (w := ⟨fs, w.trace⟩) hreach
        (htarget.trans (prefix_append _ _)) hinv).mono ?_
      rintro _ w₂ ⟨hkept, hfs⟩
      refine ⟨hkept, fun hquiet => ?_⟩
      rw [hfs hquiet, hquiet _ _ hother]
      exact Confined.refl.remove child
    · exact trivial
  · refine ⟨hinv, (hsub ⟨fs, .opened fs dfd child c :: w.trace⟩ hreach.later hinv).mono ?_⟩
    rintro _ w₂ ⟨⟨hgrown, hinv₂⟩, hgone⟩
    refine ⟨⟨(suffix_cons _ _).trans hgrown, hinv₂⟩, fun hquiet => ?_⟩
    obtain ⟨top, fs₁, htop, hconfined, hfs⟩ := hgone hquiet
    rw [hfs]
    dsimp only at htop hconfined
    rw [hquiet _ _ hother] at htop hconfined
    have hbelow : w.fs.Below dfd top := ⟨[child], by simp [find, htop]⟩
    exact (Confined.refl.trans hbelow hconfined).remove child

theorem removeChildren_safe {dfd : Nat} {ns : List Bytes}
    (hsub : ∀ child w, IsName child → Reached w.trace path dfd → Inside target w →
      (sub dfd child).Safe (calls other) (Inside target)
        (fun _ w' => Kept target w w' ∧ (Quiet other → Gone dfd child w.fs w'.fs)) w)
    (htarget : target <+: path) (hns : Proper ns) (hreach : Reached w.trace path dfd)
    (hinv : Inside target w) :
    (removeChildren sub name dfd ns).Safe (calls other) (Inside target)
      (fun _ w' => Kept target w w' ∧ (Quiet other → Confined dfd w.fs w'.fs)) w := by
  induction ns generalizing w with
  | nil => exact ⟨⟨suffix_rfl, hinv⟩, fun _ => Confined.refl⟩
  | cons child ns ih =>
    refine bind ((removeChild_safe (fun w => hsub child w
      (hns child mem_cons_self)) htarget hreach hinv).mono ?_)
    rintro _ w₁ ⟨⟨hgrown, hinv₁⟩, hconfined₁⟩
    refine (ih (forall_mem_cons.mp hns).2 (reached_mono hreach hgrown) hinv₁).mono ?_
    rintro _ w₂ ⟨⟨hgrown₂, hinv₂⟩, hconfined₂⟩
    exact ⟨⟨hgrown.trans hgrown₂, hinv₂⟩,
      fun hquiet => (hconfined₁ hquiet).trans ⟨[], rfl⟩ (hconfined₂ hquiet)⟩

/-- What is listed has proper names. -/
theorem proper_of_listed {ns : List Bytes}
    (h : ∀ n ∈ ns, ∃ fs, other w.fs fs ∧ (fs.child d n).isSome = true) : Proper ns := by
  intro n hn
  obtain ⟨fs, -, hsome⟩ := h n hn
  obtain ⟨c, hc⟩ := Option.isSome_iff_exists.mp hsome
  exact isName_of_child hc

theorem removeAtRecursive_safe (depth : Nat) {dirfd : Nat} (hname : IsName name)
    (htarget : target <+: path ++ [name]) (hreach : Reached w.trace path dirfd)
    (hinv : Inside target w) :
    (removeAtRecursive depth dirfd name).Safe (calls other) (Inside target)
      (fun _ w' => Kept target w w' ∧ (Quiet other → Gone dirfd name w.fs w'.fs)) w := by
  induction depth generalizing dirfd path name w with
  | zero => exact trivial
  | succ depth ih =>
    refine bind ((opens_safe hname hreach hinv).mono ?_)
    rintro dfd w₁ ⟨⟨hgrown₁, hinv₁⟩, hreach₁, hother₁, hchild⟩
    refine bind (asking ?_)
    rintro (e | ns) w₂ ⟨fs₂, hother₂, hcall⟩
    · subst hcall
      exact ⟨hinv₁, fun _ h => nomatch h⟩
    obtain ⟨hlisted, -, rfl⟩ := hcall
    refine ⟨hinv₁, ?_⟩
    rintro _ ⟨⟩
    refine bind ((removeChildren_safe (fun child w hchild hreach hinv =>
      ih hchild (htarget.trans (prefix_append _ _)) hreach hinv) htarget
      (w := ⟨fs₂, w₁.trace⟩) (proper_of_listed hlisted) hreach₁ hinv₁).mono ?_)
    rintro _ w₃ ⟨⟨hgrown₃, hinv₃⟩, hconfined⟩
    refine bind (asking ?_)
    rintro a w₄ ⟨fs₄, hother₄, rfl⟩
    refine ⟨hinv₃, fun _ _ => ?_⟩
    have hgrown : w.trace <:+ w₃.trace := hgrown₁.trans hgrown₃
    refine (unlinks_safe (w := ⟨fs₄, w₃.trace⟩) (reached_mono hreach hgrown) htarget hinv₃).mono ?_
    rintro _ w₅ ⟨⟨hgrown₅, hinv₅⟩, hfs₅⟩
    refine ⟨⟨hgrown.trans hgrown₅, hinv₅⟩, fun hquiet => ?_⟩
    rw [hquiet _ _ hother₁] at hother₂ hchild
    have hbelow := hconfined hquiet
    rw [hquiet _ _ hother₂] at hbelow
    refine ⟨dfd, w₃.fs, hchild, hbelow, ?_⟩
    rw [hfs₅ hquiet, hquiet _ _ hother₄]

/-! ### Depth -/

variable {depth : Nat}

/-- No chain of names leads further down than that. -/
def Shallow (fs : Inodes) (d depth : Nat) : Prop :=
  ∀ loc c, fs.find d loc = some c → loc.length < depth

/-- Undisturbed, all that happens to entries is that they go. -/
theorem removes_only {α : Type} (hquiet : Quiet other) (p : Remover α) (w : World) :
    p.Safe (calls other) (fun _ => True)
      (fun _ w' => ∀ i n c, w'.fs.child i n = some c → w.fs.child i n = some c) w := by
  induction p generalizing w with
  | ret a => exact fun _ _ _ h => h
  | fail e => exact trivial
  | ask q next ih =>
    rintro a w' ⟨fs, hother, hcall⟩
    obtain rfl := hquiet _ _ hother
    refine ⟨trivial, (ih a w').mono fun _ w'' h i n c hc => ?_⟩
    have hchild := h i n c hc
    have hfs : w'.fs = w.fs ∨ ∃ dir name, w'.fs = w.fs.remove dir name := by
      cases q <;> rcases a with e | a <;> grind
    rcases hfs with hfs | ⟨dir, name, hfs⟩
    · rwa [hfs] at hchild
    · rw [hfs, child_remove] at hchild
      split at hchild
      · cases hchild
      · exact hchild

theorem openComponents_finishes {p : Bytes} {ns : List Bytes} :
    ¬ (openComponents p d ns).Fails (calls other) .unfinished w := by
  induction ns generalizing d w with
  | nil => exact id
  | cons n ns ih =>
    intro h
    obtain ⟨_, _, _, -, -, h⟩ := h.of_asking (by simp)
    exact ih h

theorem removeChildren_finishes {ns : List Bytes} (hquiet : Quiet other)
    (hsub : ∀ child w, IsName child → Shallow w.fs d depth →
      ¬ (sub d child).Fails (calls other) .unfinished w)
    (hns : Proper ns) (hshallow : Shallow w.fs d depth) :
    ¬ (removeChildren sub name d ns).Fails (calls other) .unfinished w := by
  induction ns generalizing w with
  | nil => exact id
  | cons child ns ih =>
    obtain ⟨hchild, hns⟩ := forall_mem_cons.mp hns
    intro h
    rcases h.of_bind (removes_only hquiet _ w) with
      ⟨e | c, w', ⟨fs, hother, -, rfl⟩, h⟩ | ⟨_, w₁, hless, h⟩
    · dsimp only at h
      split at h
      · obtain ⟨_, h⟩ := h.asking
        cases h
      · cases h
    · obtain rfl := hquiet _ _ hother
      exact hsub child ⟨w.fs, .opened w.fs d child c :: w.trace⟩ hchild hshallow h
    · exact ih hns (fun loc c hfind => hshallow loc c (find_of_child hless hfind)) h

/-- The model follows a run to its end if it goes as deep as the tree. -/
theorem removeAtRecursive_finishes (hquiet : Quiet other) (hname : IsName name)
    (hshallow : Shallow w.fs d depth) :
    ¬ (removeAtRecursive depth d name).Fails (calls other) .unfinished w := by
  induction depth generalizing d name w with
  | zero => exact absurd (hshallow [] d rfl) (Nat.lt_irrefl 0)
  | succ depth ih =>
    intro h
    obtain ⟨_, dfd, _, ⟨fs, hother, hopened⟩, rfl, h⟩ := h.of_asking (by simp)
    obtain ⟨hopened, rfl⟩ := hopened
    obtain rfl := hquiet _ _ hother
    obtain ⟨_, ns, _, ⟨fs, hother, hlisted⟩, rfl, h⟩ := h.of_asking (by simp)
    obtain ⟨hlisted, -, rfl⟩ := hlisted
    obtain rfl := hquiet _ _ hother
    rcases h.of_bind (removes_only hquiet _ _) with h | ⟨_, _, -, h⟩
    · refine removeChildren_finishes hquiet (fun child w hchild hless => ih hchild hless)
        (proper_of_listed hlisted) (fun loc c hfind => ?_) h
      have hfound : w.fs.find d (name :: loc) = some c := by
        rw [find, (hopened hname).1]
        exact hfind
      exact Nat.lt_of_succ_lt_succ (hshallow _ c hfound)
    · obtain ⟨_, _, _, -, -, h⟩ := h.of_asking (by simp)
      obtain ⟨_, h⟩ := h.asking
      cases h

end runs

/-- With enough depth the model follows every undisturbed run to its end. -/
theorem removeDirSecure_finishes {other : Inodes → Inodes → Prop} (hquiet : Quiet other)
    {depth : Nat} {fs : Inodes} (hshallow : ∀ d, Shallow fs d depth) (path : Bytes) :
    ¬ (removeDirSecure depth path).Fails (calls other) .unfinished ⟨fs, []⟩ := by
  intro h
  rcases removeDirSecure_eq depth path with ⟨e, hne, he⟩ | ⟨ns, name, -, hproper, heq⟩
  · rw [he] at h
    exact hne h
  · rw [heq] at h
    rcases h.of_bind (removes_only hquiet _ _) with h | ⟨c, w, hless, h⟩
    · obtain ⟨_, _, _, -, -, h⟩ := h.of_asking (by simp)
      exact openComponents_finishes h
    · exact removeAtRecursive_finishes hquiet (hproper name (by simp))
        (fun loc c' hloc => hshallow c loc c' (find_of_child hless hloc)) h

/-- Whatever other processes may do between the calls, each entry removed is one of a directory
reached by opening real directories along the path.  If they do nothing, a success removes what
is at the path and below, and leaves all else in place. -/
theorem removeDirSecure_stays_inside (other : Inodes → Inodes → Prop) (depth : Nat) (path : Bytes)
    (fs : Inodes) :
    (removeDirSecure depth path).Safe (calls other) (fun w => Anchored (names path) w.trace)
      (fun _ w => Quiet other → fs.Treelike →
        names path ≠ [] ∧ (fs.find root (names path)).isSome = true ∧
        (∀ loc, w.fs.find root loc = if names path <+: loc then none else fs.find root loc) ∧
        ∀ i, (fs.node i).isDirectory = false → w.fs.node i = fs.node i) ⟨fs, []⟩ := by
  rcases removeDirSecure_eq depth path with ⟨e, -, he⟩ | ⟨ns, name, hnames, hproper, heq⟩
  · rw [he]
    exact trivial
  have hname : IsName name := hproper name (by simp)
  rw [heq, hnames]
  refine bind (bind (asking ?_))
  rintro (e | d) w ⟨fs', hother, hroot, rfl⟩
  · exact ⟨trivial, fun _ h => nomatch h⟩
  refine ⟨trivial, ?_⟩
  rintro _ ⟨⟩
  cases hroot d rfl
  refine (openComponents_safe (w := ⟨fs', []⟩) hproper.left Reached.root trivial).mono ?_
  rintro c w₁ ⟨hinv, hreach, hopened⟩
  refine (removeAtRecursive_safe depth hname prefix_rfl hreach hinv).mono ?_
  rintro _ w₂ ⟨-, hgone⟩ hquiet htree
  obtain ⟨hfs, hfind⟩ := hopened hquiet
  obtain ⟨top, fs₁, htop, hconfined, hfs₂⟩ := hgone hquiet
  dsimp only at hfs hfind
  rw [hquiet _ _ hother] at hfs hfind
  rw [hfs] at htop hconfined
  refine ⟨by simp, ?_, ?_, ?_⟩
  · rw [find_snoc.mpr ⟨c, hfind, htop⟩]
    rfl
  · intro loc
    rw [hfs₂]
    exact hconfined.find_remove htree hfind htop loc
  · intro i hi
    have hsame := hconfined.file hi
    rw [hfs₂]
    unfold Inodes.remove
    dsimp only
    rw [hsame, Node.without_of_not hi, ite_self]

/-- A directory `/a` that holds a link `l` to the root. -/
def linkedTree : Inodes where
  node
    | 2 => .directory [([97], 3)]
    | 3 => .directory [([108], 4)]
    | _ => .link [slash]
  proper i e he := by
    split at he <;> simp_all [Node.entries] <;> decide

/-- The link does not make it less of a tree; undisturbed, the removal succeeds and spares what
the link leads to. -/
theorem removeDirSecure_linkedTree :
    Quiet Eq ∧ linkedTree.Treelike ∧
      ∃ w, (removeDirSecure 2 [slash, 97]).run Call.perform ⟨linkedTree, []⟩ = (.ok (), w) ∧
        w.fs.find root [[97]] = none ∧ w.fs.node 4 = .link [slash] := by
  have hchild : ∀ d n c, linkedTree.child d n = some c →
      d = 2 ∧ n = [97] ∧ c = 3 ∨ d = 3 ∧ n = [108] ∧ c = 4 := by
    intro d n c h
    unfold child linkedTree at h
    dsimp only at h
    split at h <;> simp_all [Node.entries, lookup_cons] <;> split at h <;> simp_all
  have htree : linkedTree.Treelike := by
    constructor
    · intro d n h
      rcases hchild d n _ h with ⟨-, -, h⟩ | ⟨-, -, h⟩ <;> cases h
    · intro d n d' n' c h h' _
      have := hchild d n c h
      have := hchild d' n' c h'
      grind
  obtain ⟨-, -, hfind, hfile⟩ := (removeDirSecure_stays_inside Eq 2 [slash, 97] linkedTree).run
    perform_allowed rfl (fun _ _ h => h.symm) htree
  refine ⟨fun _ _ h => h.symm, htree, _, rfl, ?_, hfile 4 rfl⟩
  rw [hfind, if_pos (by decide)]

end PowerManage.Fsafe
