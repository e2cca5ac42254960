import PowerManage.FileSystem.Paths
import PowerManage.Interaction.Script

/-!
# Directories as inodes, and calls on open directories

Directories hold names of inodes, so that a process that holds a directory open keeps it
whatever becomes of its name.  The calls name an open directory and an entry in it, and do
not follow links.  Other processes may change the inodes before each call.

Main results:

- `Treelike.unique_path`: a directory of a tree is found at one place only.
- `Confined.find_remove`: changes below a directory whose entry is then removed
  leave everything in place that is not below the entry.
-/

namespace PowerManage.FileSystem

open List Interaction Paths

/-- What an inode is. -/
inductive Node where
  | directory (entries : List (Bytes × Nat))
  | link (target : Bytes)
  | file (content : Bytes)
  /-- Devices, pipes and sockets. -/
  | special

namespace Node

def isDirectory : Node → Bool
  | directory _ => true
  | _ => false

def entries : Node → List (Bytes × Nat)
  | directory es => es
  | _ => []

/-- The node without the entry of a name. -/
def without (name : Bytes) : Node → Node
  | directory es => directory (es.filter (·.1 ≠ name))
  | n => n

/-- Only the named entry is dropped. -/
theorem entries_without (n : Node) (name : Bytes) :
    (n.without name).entries = n.entries.filter (·.1 ≠ name) := by
  cases n <;> rfl

/-- Files have no entry to drop. -/
theorem without_of_not {n : Node} (h : n.isDirectory = false) (name : Bytes) :
    n.without name = n := by
  cases n with
  | directory es => cases h
  | _ => rfl

end Node

/-- All inodes; entries have proper names. -/
structure Inodes where
  node : Nat → Node
  proper : ∀ i, ∀ e ∈ (node i).entries, IsName e.1

/-- The inode of `/`. -/
def root : Nat := 2

namespace Inodes

/-- The inode of a name in a directory. -/
def child (fs : Inodes) (dir : Nat) (name : Bytes) : Option Nat :=
  (fs.node dir).entries.lookup name

/-- The entry of a name is gone. -/
def remove (fs : Inodes) (dir : Nat) (name : Bytes) : Inodes where
  node i := if i = dir then (fs.node i).without name else fs.node i
  proper i e he := by
    by_cases hi : i = dir
    · rw [if_pos hi, Node.entries_without] at he
      exact fs.proper i e (mem_of_mem_filter he)
    · rw [if_neg hi] at he
      exact fs.proper i e he

/-- The inode at the end of a list of names, without following links. -/
def find (fs : Inodes) : Nat → List Bytes → Option Nat
  | dir, [] => some dir
  | dir, name :: rest => (fs.child dir name).bind (fs.find · rest)

/-- The inode is found somewhere below another one. -/
def Below (fs : Inodes) (top i : Nat) : Prop :=
  ∃ path, fs.find top path = some i

variable {fs : Inodes} {c dir : Nat}

/-- Entries have names that a path can hold. -/
theorem isName_of_child {name : Bytes} (h : fs.child dir name = some c) : IsName name := by
  obtain ⟨l₁, l₂, hsplit, -⟩ := lookup_eq_some_iff.mp h
  exact fs.proper dir (name, c) (by simp [hsplit])

/-- Only directories have entries. -/
theorem isDirectory_of_child {name : Bytes} (h : fs.child dir name = some c) :
    (fs.node dir).isDirectory = true := by
  rw [child] at h
  cases hnode : fs.node dir with
  | directory es => rfl
  | _ => simp [hnode, Node.entries] at h

/-- Removal hides one name in one directory. -/
theorem child_remove (fs : Inodes) (dir i : Nat) (name n : Bytes) :
    (fs.remove dir name).child i n = if i = dir ∧ n = name then none else fs.child i n := by
  unfold child remove
  by_cases hi : i = dir
  · simp only [hi, if_true, true_and, Node.entries_without]
    generalize (fs.node dir).entries = es
    induction es with
    | nil => simp
    | cons e es ih =>
      obtain ⟨key, c⟩ := e
      by_cases he : key = name
      · by_cases hn : n = name
        · simpa [filter_cons, he, hn] using ih
        · simpa [filter_cons, lookup_cons, he, hn, beq_false_of_ne hn] using ih
      · by_cases hn : n = key
        · simp [he, hn]
        · simpa [lookup_cons, he, hn, beq_false_of_ne hn] using ih
  · simp [hi]

/-- Paths are followed piece by piece. -/
theorem find_append (fs : Inodes) (dir : Nat) (p q : List Bytes) :
    fs.find dir (p ++ q) = (fs.find dir p).bind (fs.find · q) := by
  induction p generalizing dir with
  | nil => rfl
  | cons n p ih =>
    simp only [cons_append, find]
    cases fs.child dir n with
    | none => rfl
    | some c => exact ih c

/-- The last name is looked up where the others lead. -/
theorem find_snoc {p : List Bytes} {n : Bytes} :
    fs.find dir (p ++ [n]) = some c ↔ ∃ d, fs.find dir p = some d ∧ fs.child d n = some c := by
  simp [find_append, find, Option.bind_eq_some_iff]

/-- Where entries have only gone, what is found was found before. -/
theorem find_of_child {fs₁ : Inodes} (h : ∀ i n c, fs₁.child i n = some c → fs.child i n = some c)
    {d i : Nat} {path : List Bytes} (hfind : fs₁.find d path = some i) :
    fs.find d path = some i := by
  induction path generalizing d with
  | nil => exact hfind
  | cons n path ih =>
    obtain ⟨c, hc, hrest⟩ := Option.bind_eq_some_iff.mp hfind
    exact Option.bind_eq_some_iff.mpr ⟨c, h d n c hc, ih hrest⟩

/-- The inodes are a tree: the root is in no directory, a directory in one at most. -/
structure Treelike (fs : Inodes) : Prop where
  root : ∀ d n, fs.child d n ≠ some root
  unique : ∀ d n d' n' c, fs.child d n = some c → fs.child d' n' = some c →
    (fs.node c).isDirectory = true → d = d' ∧ n = n'

/-- A directory of a tree is found at one place only. -/
theorem Treelike.unique_path (h : fs.Treelike) {p q : List Bytes} {i : Nat}
    (hp : fs.find FileSystem.root p = some i) (hq : fs.find FileSystem.root q = some i)
    (hi : (fs.node i).isDirectory = true) : p = q := by
  induction p using reverseRecOn generalizing q i with
  | nil =>
    cases hp
    rcases eq_nil_or_concat' q with rfl | ⟨q, n, rfl⟩
    · rfl
    · obtain ⟨d, -, hd⟩ := find_snoc.mp hq
      exact absurd hd (h.root d n)
  | append_singleton p n ih =>
    obtain ⟨d, hd, hn⟩ := find_snoc.mp hp
    rcases eq_nil_or_concat' q with rfl | ⟨q, m, rfl⟩
    · cases hq
      exact absurd hn (h.root d n)
    · obtain ⟨d', hd', hm⟩ := find_snoc.mp hq
      obtain ⟨rfl, rfl⟩ := h.unique _ _ _ _ _ hn hm hi
      rw [ih hd hd' (isDirectory_of_child hn)]

/-! ## Changes below a directory -/

/-- Entries have gone, in directories below `top` only. -/
structure Confined (top : Nat) (fs fs' : Inodes) : Prop where
  child : ∀ i n c, fs'.child i n = some c → fs.child i n = some c
  frame : ∀ i, fs.Below top i → (fs.node i).isDirectory = true ∨ fs'.node i = fs.node i
  outside : ∀ i, ¬ fs.Below top i → fs'.node i = fs.node i

namespace Confined

variable {fs fs₁ fs₂ : Inodes} {top : Nat}

/-- Nothing removed is confined to any directory. -/
theorem refl : Confined top fs fs :=
  ⟨fun _ _ _ h => h, fun _ _ => .inr rfl, fun _ _ => rfl⟩

/-- What is still found was there before. -/
theorem find (h : Confined top fs fs₁) {d i : Nat} {path : List Bytes}
    (hfind : fs₁.find d path = some i) : fs.find d path = some i :=
  find_of_child h.child hfind

/-- Files keep their content. -/
theorem file (h : Confined top fs fs₁) {i : Nat} (hi : (fs.node i).isDirectory = false) :
    fs₁.node i = fs.node i := by
  by_cases hbelow : fs.Below top i
  · exact (h.frame i hbelow).resolve_left (by simp [hi])
  · exact h.outside i hbelow

/-- Removals below an entry of the directory are confined to it. -/
theorem trans (h : Confined top fs fs₁) {c : Nat} (hc : fs₁.Below top c)
    (h' : Confined c fs₁ fs₂) : Confined top fs fs₂ := by
  have hbelow : ∀ i, fs₁.Below c i → fs.Below top i := by
    rintro i ⟨path, hpath⟩
    obtain ⟨more, hmore⟩ := hc
    exact ⟨more ++ path, h.find (by rw [find_append, hmore]; exact hpath)⟩
  refine ⟨fun i n x hx => h.child i n x (h'.child i n x hx), fun i _ => ?_, fun i hi => ?_⟩
  · by_cases hdir : (fs.node i).isDirectory = true
    · exact .inl hdir
    · have hsame := h.file (Bool.eq_false_iff.mpr hdir)
      rw [← hsame]
      exact .inr (h'.file (by rw [hsame]; exact Bool.eq_false_iff.mpr hdir))
  · rw [h'.outside i fun hin => hi (hbelow i hin), h.outside i hi]

/-- Removing an entry of the directory itself is confined to it. -/
theorem remove (h : Confined top fs fs₁) (name : Bytes) :
    Confined top fs (fs₁.remove top name) := by
  refine h.trans ⟨[], rfl⟩ ⟨fun i n c hc => ?_, fun i _ => ?_, fun i hi => ?_⟩
  · rw [child_remove] at hc
    split at hc
    · cases hc
    · exact hc
  · by_cases hdir : (fs₁.node i).isDirectory = true
    · exact .inl hdir
    · refine .inr ?_
      unfold Inodes.remove
      dsimp only
      rw [Node.without_of_not (Bool.eq_false_iff.mpr hdir), ite_self]
  · exact if_neg fun htop => hi ⟨[], by rw [htop]; rfl⟩

/-- With the entry of `top` removed, what is not below the entry is where it was. -/
theorem find_remove (htree : fs.Treelike) (h : Confined top fs fs₁) {dir : Nat}
    {path : List Bytes} {name : Bytes} (hdir : fs.find root path = some dir)
    (htop : fs.child dir name = some top) (loc : List Bytes) :
    (fs₁.remove dir name).find root loc =
      if path ++ [name] <+: loc then none else fs.find root loc := by
  have helsewhere : ∀ loc, ¬ path ++ [name] <+: loc →
      (fs₁.remove dir name).find root loc = fs.find root loc := by
    intro loc
    induction loc using reverseRecOn with
    | nil => exact fun _ => rfl
    | append_singleton loc n ih =>
      intro hloc
      have hbefore := ih fun hin => hloc (hin.trans (prefix_append _ _))
      rw [find_append, find_append, hbefore]
      cases hi : fs.find root loc with
      | none => rfl
      | some i =>
        have hchild : (fs₁.remove dir name).child i n = fs.child i n := by
          have hentry : ¬ (i = dir ∧ n = name) := by
            rintro ⟨rfl, rfl⟩
            rw [htree.unique_path hi hdir (isDirectory_of_child htop)] at hloc
            exact hloc (prefix_refl _)
          rw [child_remove, if_neg hentry]
          have hnode : fs₁.node i = fs.node i := by
            by_cases hbelow : fs.Below top i
            · refine (h.frame i hbelow).resolve_left fun hreal => ?_
              obtain ⟨more, hmore⟩ := hbelow
              have hagain : fs.find root (path ++ [name] ++ more) = some i := by
                rw [find_append, find_snoc.mpr ⟨dir, hdir, htop⟩]
                exact hmore
              rw [htree.unique_path hi hagain hreal, append_assoc] at hloc
              exact hloc (prefix_append _ _)
            · exact h.outside i hbelow
          rw [Inodes.child, hnode, Inodes.child]
        simp [Inodes.find, hchild]
  by_cases hloc : path ++ [name] <+: loc
  · obtain ⟨more, rfl⟩ := hloc
    have hpath := helsewhere path fun hlong => by
      have := hlong.length_le
      rw [length_append, length_singleton] at this
      omega
    rw [if_pos (prefix_append _ _), append_assoc, find_append, hpath, hdir]
    simp [Inodes.find, child_remove]
  · rw [if_neg hloc, helsewhere loc hloc]

end Confined

end Inodes

/-! ## Calls -/

inductive Errno where
  | noEntry
  | loop
  | notDirectory
  | other
  deriving DecidableEq, Repr

/-- The calls on open directories. -/
inductive Call where
  | openRoot
  /-- With `O_DIRECTORY` and `O_NOFOLLOW`. -/
  | openat (dir : Nat) (name : Bytes)
  | readdirnames (dir : Nat)
  | close (dir : Nat)
  | unlinkat (dir : Nat) (name : Bytes) (removeDir : Bool)

def Call.Answer : Call → Type
  | openRoot => Except Errno Nat
  | openat _ _ => Except Errno Nat
  | readdirnames _ => Except Errno (List Bytes)
  | close _ => Except Errno Unit
  | unlinkat _ _ _ => Except Errno Unit

/-- A directory that was opened, an entry that was removed, and the inodes at that moment. -/
inductive Event where
  | opened (fs : Inodes) (dir : Nat) (name : Bytes) (found : Nat)
  | removed (fs : Inodes) (dir : Nat) (name : Bytes)

/-- The inodes, and what the calls have done, the last one first. -/
structure World where
  fs : Inodes
  trace : List Event

/-- Why a directory is not opened. -/
def Refuses (fs : Inodes) (dir : Nat) (name : Bytes) : Errno → Prop
  | .noEntry => fs.child dir name = none
  | .loop => ∃ c target, fs.child dir name = some c ∧ fs.node c = .link target
  | .notDirectory => ∃ c, fs.child dir name = some c ∧ (fs.node c).isDirectory = false
  | .other => True

/-- The answers of the kernel; `other` is what other processes do before a call.  Names
that are not proper, such as `..`, may lead anywhere; a directory is listed with what
has been in it all the time, and perhaps more. -/
def calls (other : Inodes → Inodes → Prop) : Script.Env Call Call.Answer World :=
  fun q w a w' => ∃ fs, other w.fs fs ∧
    match q, a with
    | .openRoot, a => (∀ d, a = .ok d → d = root) ∧ w' = ⟨fs, w.trace⟩
    | .openat dir name, .ok found =>
      (IsName name → fs.child dir name = some found ∧ (fs.node found).isDirectory = true) ∧
        w' = ⟨fs, .opened fs dir name found :: w.trace⟩
    | .openat dir name, .error e => (IsName name → Refuses fs dir name e) ∧ w' = ⟨fs, w.trace⟩
    | .readdirnames dir, .ok names =>
      (∀ n ∈ names, ∃ fs₁, other w.fs fs₁ ∧ (fs₁.child dir n).isSome = true) ∧
        (∀ n, (∀ fs₁, other w.fs fs₁ → (fs₁.child dir n).isSome = true) → n ∈ names) ∧
        w' = ⟨fs, w.trace⟩
    | .readdirnames _, .error _ => w' = ⟨fs, w.trace⟩
    | .close _, _ => w' = ⟨fs, w.trace⟩
    | .unlinkat dir name removeDir, .ok () =>
      (∃ c, fs.child dir name = some c ∧
        if removeDir then fs.node c = .directory [] else (fs.node c).isDirectory = false) ∧
        w' = ⟨fs.remove dir name, .removed fs dir name :: w.trace⟩
    | .unlinkat _ _ _, .error _ => w' = ⟨fs, w.trace⟩

/-- What an undisturbed kernel answers. -/
def Call.perform : (q : Call) → World → q.Answer × World
  | .openRoot, w => (.ok root, w)
  | .openat dir name, w =>
    match w.fs.child dir name with
    | none => (.error .noEntry, w)
    | some c =>
      match w.fs.node c with
      | .directory _ => (.ok c, ⟨w.fs, .opened w.fs dir name c :: w.trace⟩)
      | .link _ => (.error .loop, w)
      | _ => (.error .notDirectory, w)
  | .readdirnames dir, w => (.ok ((w.fs.node dir).entries.map Prod.fst), w)
  | .close _, w => (.ok (), w)
  | .unlinkat dir name removeDir, w =>
    match w.fs.child dir name with
    | none => (.error .noEntry, w)
    | some c =>
      if (w.fs.node c).isDirectory = removeDir ∧ (w.fs.node c).entries = [] then
        (.ok (), ⟨w.fs.remove dir name, .removed w.fs dir name :: w.trace⟩)
      else (.error .other, w)

/-- These answers are allowed. -/
theorem perform_allowed (q : Call) (w : World) : calls Eq q w (q.perform w).1 (q.perform w).2 := by
  refine ⟨w.fs, rfl, ?_⟩
  cases q with
  | openRoot => exact ⟨fun d hd => (Except.ok.inj hd).symm, rfl⟩
  | openat dir name =>
    cases hchild : w.fs.child dir name with
    | none => simp [Call.perform, hchild, Refuses]
    | some c =>
      cases hnode : w.fs.node c <;>
        simp [Call.perform, hchild, hnode, Refuses, Node.isDirectory]
  | readdirnames dir =>
    have hlisted : ∀ n, n ∈ (w.fs.node dir).entries.map Prod.fst ↔
        (w.fs.child dir n).isSome = true := by
      intro n
      rw [Inodes.child, ← not_iff_not, Bool.not_eq_true, Option.isSome_eq_false_iff,
        Option.isNone_iff_eq_none, lookup_eq_none_iff]
      aesop
    exact ⟨fun n hn => ⟨w.fs, rfl, (hlisted n).mp hn⟩,
      fun n hn => (hlisted n).mpr (hn w.fs rfl), rfl⟩
  | close dir => rfl
  | unlinkat dir name removeDir =>
    cases hchild : w.fs.child dir name with
    | none => simp [Call.perform, hchild]
    | some c =>
      by_cases hempty : (w.fs.node c).isDirectory = removeDir ∧ (w.fs.node c).entries = []
      · simp only [Call.perform, hchild, if_pos hempty]
        refine ⟨⟨c, rfl, ?_⟩, trivial⟩
        obtain ⟨rfl, hempty⟩ := hempty
        cases hnode : w.fs.node c <;> simp_all [Node.isDirectory, Node.entries]
      · simp only [Call.perform, hchild, if_neg hempty]

/-- The directory was reached from the root by opening real directories one in the other. -/
inductive Reached : List Event → List Bytes → Nat → Prop where
  | root {t : List Event} : Reached t [] root
  | later {t : List Event} {e : Event} {path : List Bytes} {d : Nat} :
      Reached t path d → Reached (e :: t) path d
  | opened {t : List Event} {path : List Bytes} {d c : Nat} {fs : Inodes} {name : Bytes} :
      Reached t path d → fs.child d name = some c → (fs.node c).isDirectory = true →
      Reached (.opened fs d name c :: t) (path ++ [name]) c

/-- Every entry removed was one of a directory reached so, at `target` or below it. -/
def Anchored (target : List Bytes) : List Event → Prop
  | [] => True
  | .opened _ _ _ _ :: t => Anchored target t
  | .removed fs dir name :: t =>
    (∃ path, Reached t path dir ∧ target <+: path ++ [name] ∧ (fs.child dir name).isSome = true) ∧
      Anchored target t

end PowerManage.FileSystem
