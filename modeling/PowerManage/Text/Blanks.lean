import Mathlib.Data.List.DropRight
import Mathlib.Data.List.Infix

/-!
# Blanks in a text

A blank may be written with several symbols.  A code of blanks is a list of words such that
no word starts with a symbol that stands inside another one, so that the words in a text never
overlap.  Every symbol of a text is marked with whether it belongs to a blank; trimming a text
and splitting it into fields work on the marks.

Main results:

- `mark_append_plain`: a symbol that is in no word separates the marks of a text.
- `mark_trim`: a trimmed text keeps its marks.
- `prefix_trim_iff`: what a trimmed text starts with.
- `fields_intercalate`: fields that are joined with a blank are read back.
-/

namespace PowerManage

open List
open Prod (fst snd)

/-- Words that stand for blanks. -/
structure BlankCode (α : Type) where
  words : List (List α)
  nonempty : ∀ w ∈ words, w ≠ []
  apart : ∀ v ∈ words, ∀ w ∈ words, ∀ a ∈ v.head?, a ∉ w.tail

namespace BlankCode

variable {α : Type} [DecidableEq α] (C : BlankCode α)

theorem apart_of_all {words : List (List α)}
    (h : (words.all fun v => words.all fun w => v.head?.all (!w.tail.contains ·)) = true) :
    ∀ v ∈ words, ∀ w ∈ words, ∀ a ∈ v.head?, a ∉ w.tail := by
  intro v hv w hw a ha
  have hhead := all_eq_true.mp (all_eq_true.mp h v hv) w hw
  rw [Option.mem_def.mp ha] at hhead
  simpa using hhead

/-- The length of the blank a text starts with, 0 if there is none. -/
def width (text : List α) : Nat :=
  match C.words.find? (·.isPrefixOf text) with
  | some w => w.length
  | none => 0

/-- Every symbol with whether it belongs to a blank; the first `skip` symbols do. -/
def markFrom : Nat → List α → List (α × Bool)
  | _, [] => []
  | 0, a :: text =>
    if C.width (a :: text) = 0 then (a, false) :: markFrom 0 text
    else (a, true) :: markFrom (C.width (a :: text) - 1) text
  | skip + 1, a :: text => (a, true) :: markFrom skip text

/-- Every symbol with whether it belongs to a blank. -/
def mark (text : List α) : List (α × Bool) :=
  C.markFrom 0 text

/-- A text without the blanks at its two ends. -/
def trim (text : List α) : List α :=
  (((C.mark text).dropWhile snd).rdropWhile snd).map fst

/-- The parts of a text between its blanks. -/
def fields (text : List α) : List (List α) :=
  (((C.mark text).splitOnP snd).filter (! ·.isEmpty)).map (·.map fst)

/-- The symbol is in no blank. -/
def Plain (a : α) : Prop :=
  ∀ w ∈ C.words, a ∉ w

/-- All symbols of the text belong to blanks. -/
def Blank (text : List α) : Prop :=
  ∀ m ∈ C.mark text, m.2 = true

/-- No symbol of the text belongs to a blank. -/
def Blankless (text : List α) : Prop :=
  ∀ m ∈ C.mark text, m.2 = false

/-- No word has the symbol after its first one. -/
def Joint (a : α) : Prop :=
  ∀ w ∈ C.words, a ∉ w.tail

instance (a : α) : Decidable (C.Plain a) :=
  inferInstanceAs (Decidable (∀ w ∈ C.words, a ∉ w))

instance (text : List α) : Decidable (C.Blankless text) :=
  inferInstanceAs (Decidable (∀ m ∈ C.mark text, m.2 = false))

variable {C}

/-! ## The first blank -/

variable {a : α} {first text : List α} {skip : Nat} {back front : List (α × Bool)} {β : Type}
variable {p : β → Bool}

omit [DecidableEq α] in
theorem Plain.joint (h : C.Plain a) : C.Joint a :=
  fun w hw hmem => h w hw (mem_of_mem_tail hmem)

theorem width_eq_zero : C.width text = 0 ↔ ∀ w ∈ C.words, ¬ w <+: text := by
  unfold width
  cases hfind : C.words.find? (·.isPrefixOf text) with
  | none =>
    rw [find?_eq_none] at hfind
    simp only [true_iff]
    intro w hw hstart
    exact hfind w hw ( isPrefixOf_iff_prefix.mpr hstart)
  | some w =>
    have hw := mem_of_find?_eq_some hfind
    have hstart := find?_some hfind
    simp only [length_eq_zero_iff]
    constructor
    · intro hnil
      exact absurd hnil (C.nonempty w hw)
    · intro hall
      exact absurd ( isPrefixOf_iff_prefix.mp hstart) (hall w hw)

/-- A text that starts with a blank starts with a word. -/
theorem exists_word (h : C.width text ≠ 0) :
    ∃ w ∈ C.words, w <+: text ∧ w.length = C.width text := by
  unfold width at h ⊢
  cases hfind : C.words.find? (·.isPrefixOf text) with
  | none => rw [hfind] at h; exact absurd rfl h
  | some w =>
    have hstart := find?_some hfind
    exact ⟨w, mem_of_find?_eq_some hfind, isPrefixOf_iff_prefix.mp hstart, rfl⟩

/-- The first blank is seen in every part of the text that is long enough. -/
theorem width_of_start {short : List α} (h : short <+: text) (hle : C.width text ≤ short.length) :
    C.width short = C.width text := by
  have hsame : C.words.find? (·.isPrefixOf short) = C.words.find? (·.isPrefixOf text) := by
    cases hfind : C.words.find? (·.isPrefixOf text) with
    | none =>
      rw [find?_eq_none] at hfind ⊢
      intro w hw hstart
      exact hfind w hw ( isPrefixOf_iff_prefix.mpr (( isPrefixOf_iff_prefix.mp hstart).trans h))
    | some w =>
      have hlength : w.length ≤ short.length := by
        simpa [width, hfind] using hle
      rw [find?_eq_some_iff_append] at hfind ⊢
      rcases hfind with ⟨hw, before, after, hwords, hnone⟩
      refine ⟨?_, before, after, hwords, ?_⟩
      · rw [ isPrefixOf_iff_prefix] at hw ⊢
        exact prefix_of_prefix_length_le hw h hlength
      · intro v hv
        have hnot := hnone v hv
        rw [Bool.not_eq_true', ← Bool.not_eq_true, isPrefixOf_iff_prefix] at hnot ⊢
        exact fun hstart => hnot (hstart.trans h)
  rw [width, width, hsame]

/-- A blank does not reach over a symbol that no word has inside. -/
theorem width_le_of_joint (ha : C.Joint a) {rest : List α} (hfirst : first ≠ []) :
    C.width (first ++ a :: rest) ≤ first.length := by
  by_cases hzero : C.width (first ++ a :: rest) = 0
  · omega
  rcases exists_word hzero with ⟨w, hw, hstart, hlength⟩
  by_contra hlong
  -- a longer word would have the symbol behind its first one
  have hlong' : (first ++ [a]).length ≤ w.length := by
    rw [length_append, length_singleton]
    omega
  have hinside : first ++ [a] <+: w :=
    prefix_of_prefix_length_le ⟨rest, by simp⟩ hstart hlong'
  rcases hinside with ⟨more, hmore⟩
  cases first with
  | nil => exact hfirst rfl
  | cons b first =>
    refine ha w hw ?_
    rw [← hmore]
    simp

/-! ## Marks -/

@[simp]
theorem map_fst_markFrom (skip : Nat) (text : List α) : (C.markFrom skip text).map fst = text := by
  induction text generalizing skip with
  | nil => cases skip <;> rfl
  | cons a text ih =>
    cases skip with
    | zero =>
      rw [markFrom]
      split <;> simp [ih]
    | succ skip => simp [markFrom, ih]

@[simp]
theorem map_fst_mark (text : List α) : (C.mark text).map fst = text :=
  map_fst_markFrom 0 text

@[simp]
theorem length_markFrom (skip : Nat) (text : List α) :
    (C.markFrom skip text).length = text.length := by
  rw [← length_map (f := fst), map_fst_markFrom]

@[simp]
theorem mark_nil : C.mark ([] : List α) = [] :=
  rfl

/-- The marks of a text that goes on with a symbol no word has inside. -/
theorem markFrom_append (ha : C.Joint a) (hskip : skip ≤ first.length) (rest : List α) :
    C.markFrom skip (first ++ a :: rest) = C.markFrom skip first ++ C.mark (a :: rest) := by
  induction first generalizing skip with
  | nil =>
    have hzero : skip = 0 := by simpa using hskip
    rw [hzero]
    rfl
  | cons b first ih =>
    cases skip with
    | succ skip =>
      rw [cons_append, markFrom, markFrom, ih (by simpa using hskip), cons_append]
    | zero =>
      have hle : C.width ((b :: first) ++ a :: rest) ≤ (b :: first).length :=
        width_le_of_joint ha (cons_ne_nil _ _)
      have hwidth := width_of_start (prefix_append (b :: first) (a :: rest)) hle
      rw [cons_append] at hwidth hle ⊢
      rw [markFrom, markFrom, hwidth]
      by_cases hzero : C.width (b :: (first ++ a :: rest)) = 0
      · rw [if_pos hzero, if_pos hzero, ih (Nat.zero_le _), cons_append]
      · rw [if_neg hzero, if_neg hzero, cons_append, ih]
        rw [length_cons] at hle
        omega

theorem mark_append (ha : C.Joint a) (first rest : List α) :
    C.mark (first ++ a :: rest) = C.mark first ++ C.mark (a :: rest) :=
  markFrom_append ha (Nat.zero_le _) rest

theorem mark_cons_plain (ha : C.Plain a) (rest : List α) :
    C.mark (a :: rest) = (a, false) :: C.mark rest := by
  have hzero : C.width (a :: rest) = 0 := by
    rw [width_eq_zero]
    intro w hw hstart
    cases w with
    | nil => exact C.nonempty [] hw rfl
    | cons b w =>
      rw [cons_prefix_cons] at hstart
      exact ha _ hw (by simp [hstart.1])
  rw [mark, markFrom, if_pos hzero]
  rfl

/-- A plain symbol separates the marks of a text. -/
theorem mark_append_plain (ha : C.Plain a) (first rest : List α) :
    C.mark (first ++ a :: rest) = C.mark first ++ (a, false) :: C.mark rest := by
  rw [mark_append ha.joint, mark_cons_plain ha]

theorem mark_plain_append (h : ∀ a ∈ first, C.Plain a) (rest : List α) :
    C.mark (first ++ rest) = first.map (·, false) ++ C.mark rest := by
  induction first with
  | nil => rfl
  | cons a first ih =>
    rw [cons_append, mark_cons_plain (h a mem_cons_self), ih (forall_mem_cons.mp h).2]
    rfl

theorem blankless_of_plain (h : ∀ a ∈ text, C.Plain a) : C.Blankless text := by
  have hmark := mark_plain_append h ([] : List α)
  rw [append_nil, mark_nil, append_nil] at hmark
  intro m hm
  rw [hmark] at hm
  rcases mem_map.mp hm with ⟨a, -, ha⟩
  rw [← ha]

theorem markFrom_suffix (h : C.markFrom skip text = front ++ back) :
    ∃ skip', back = C.markFrom skip' (back.map fst) := by
  induction front generalizing skip text with
  | nil =>
    refine ⟨skip, ?_⟩
    rw [nil_append] at h
    rw [← h, map_fst_markFrom]
  | cons m front ih =>
    cases text with
    | nil => cases skip <;> simp [markFrom] at h
    | cons a text =>
      cases skip with
      | zero =>
        rw [markFrom] at h
        split at h
        · exact ih (cons.inj h).2
        · exact ih (cons.inj h).2
      | succ skip =>
        exact ih (cons.inj h).2

/-- From a symbol outside of blanks on, the marks are those of the rest alone. -/
theorem mark_suffix (h : C.mark text = front ++ back) (hhead : ∀ m ∈ back.head?, m.2 = false) :
    C.mark (back.map fst) = back := by
  rcases markFrom_suffix h with ⟨skip, hback⟩
  cases back with
  | nil => rfl
  | cons m back =>
    cases skip with
    | zero => exact hback.symm
    | succ skip =>
      rw [map_cons, markFrom, cons.injEq] at hback
      have hfalse := hhead m rfl
      rw [hback.1] at hfalse
      cases hfalse

/-- What is skipped belongs to a blank. -/
theorem flagged_of_skip (h : C.markFrom skip text = front ++ back) (hskip : front.length ≤ skip) :
    ∀ m ∈ front, m.2 = true := by
  induction front generalizing skip text with
  | nil => simp
  | cons m front ih =>
    cases text with
    | nil => cases skip <;> simp [markFrom] at h
    | cons a text =>
      cases skip with
      | zero => simp at hskip
      | succ skip =>
        rw [markFrom, cons_append, cons.injEq] at h
        rw [forall_mem_cons]
        exact ⟨by rw [← h.1], ih h.2 (by simpa using hskip)⟩

/-- Up to a symbol outside of blanks, the marks are those of the front alone. -/
theorem markFrom_front (h : C.markFrom skip text = front ++ back)
    (hlast : ∀ m ∈ front.getLast?, m.2 = false) : C.markFrom skip (front.map fst) = front := by
  induction front generalizing skip text with
  | nil => cases skip <;> rfl
  | cons m front ih =>
    have hlast' : ∀ m ∈ front.getLast?, m.2 = false := by
      intro m' hm'
      cases front with
      | nil => cases hm'
      | cons n front => exact hlast m' (by rwa [getLast?_cons_cons])
    have hsymbols : text = m.1 :: (front.map fst ++ back.map fst) := by
      rw [← map_fst_markFrom (C := C) skip text, h]
      simp
    rw [hsymbols] at h
    rw [map_cons]
    cases skip with
    | succ skip =>
      rw [markFrom, cons_append, cons.injEq] at h
      rw [markFrom, ih h.2 hlast', h.1]
    | zero =>
      rw [markFrom] at h
      have hfits : C.width (m.1 :: (front.map fst ++ back.map fst)) ≤
          (m.1 :: front.map fst).length := by
        by_contra hlong
        -- a blank that goes on behind the front would cover its last symbol
        rw [length_cons, length_map] at hlong
        rw [if_neg (by omega), cons_append, cons.injEq] at h
        have hfront := flagged_of_skip h.2 (by omega)
        have hall : ∀ n ∈ m :: front, n.2 = true := by
          rw [forall_mem_cons]
          exact ⟨by rw [← h.1], hfront⟩
        have hsome := getLast?_isSome.mpr (cons_ne_nil m front)
        rcases Option.isSome_iff_exists.mp hsome with ⟨n, hn⟩
        have htrue := hall n (mem_of_getLast? hn)
        rw [hlast n hn] at htrue
        cases htrue
      have hwidth := width_of_start (C := C)
        (prefix_append (m.1 :: front.map fst) (back.map fst)) hfits
      rw [cons_append] at hwidth
      rw [markFrom, hwidth]
      split at h
      · rename_i hzero
        rw [cons_append, cons.injEq] at h
        rw [if_pos hzero, ih h.2 hlast', h.1]
      · rename_i hzero
        rw [cons_append, cons.injEq] at h
        rw [if_neg hzero, ih h.2 hlast', h.1]

theorem mark_front (h : C.mark text = front ++ back) (hlast : ∀ m ∈ front.getLast?, m.2 = false) :
    C.mark (front.map fst) = front :=
  markFrom_front h hlast

/-- A part of a text without blanks has none by itself. -/
theorem mark_part {part : List (α × Bool)} (h : C.mark text = front ++ part ++ back)
    (hpart : ∀ m ∈ part, m.2 = false) : C.mark (part.map fst) = part := by
  rw [append_assoc] at h
  have hrest : C.mark ((part ++ back).map fst) = part ++ back ∨ part = [] := by
    cases part with
    | nil => exact .inr rfl
    | cons m part =>
      left
      refine mark_suffix h ?_
      intro n hn
      rw [cons_append, head?_cons, Option.mem_some_iff] at hn
      rw [← hn]
      exact hpart m mem_cons_self
  rcases hrest with hrest | hnil
  · exact mark_front hrest fun m hm => hpart m (mem_of_getLast? hm)
  · rw [hnil]
    rfl

/-! ## Trimming -/

/-- A trimmed text keeps its marks. -/
theorem mark_trim (text : List α) :
    C.mark (C.trim text) = ((C.mark text).dropWhile snd).rdropWhile snd := by
  have hleft : C.mark (((C.mark text).dropWhile snd).map fst) =
      (C.mark text).dropWhile snd := by
    have hsplit : C.mark text =
        (C.mark text).takeWhile snd ++ (C.mark text).dropWhile snd :=
      takeWhile_append_dropWhile.symm
    refine mark_suffix hsplit ?_
    intro m hm
    have hne : (C.mark text).dropWhile snd ≠ [] := by
      intro hnil
      rw [hnil] at hm
      cases hm
    rw [head?_eq_some_head hne, Option.mem_some_iff] at hm
    rw [← hm]
    exact head_dropWhile_not _ hne
  rcases rdropWhile_prefix snd ((C.mark text).dropWhile snd) with ⟨back, hback⟩
  refine mark_front (hleft.trans hback.symm) ?_
  intro m hm
  have hne : ((C.mark text).dropWhile snd).rdropWhile snd ≠ [] := by
    intro hnil
    rw [hnil] at hm
    cases hm
  rw [getLast?_eq_some_getLast hne, Option.mem_some_iff] at hm
  rw [← hm]
  exact Bool.not_eq_true _ ▸ rdropWhile_last_not snd _ hne

/-- A text without blanks stays as it is. -/
theorem trim_of_blankless (h : C.Blankless text) : C.trim text = text := by
  have hleft : (C.mark text).dropWhile snd = C.mark text := by
    cases hmark : C.mark text with
    | nil => rfl
    | cons m marks =>
      have hm := h m (by rw [hmark]; exact mem_cons_self)
      rw [dropWhile_cons_of_neg (by simp [hm])]
  have hright : (C.mark text).rdropWhile snd = C.mark text := by
    cases hmark : C.mark text using reverseRecOn with
    | nil => rfl
    | append_singleton marks m =>
      have hm := h m (by rw [hmark]; simp)
      rw [rdropWhile_concat_neg _ _ _ (by simp [hm])]
  rw [trim, hleft, hright, map_fst_mark]

/-- Dropping from the right stops at an element that stays. -/
theorem rdropWhile_append_stop (front : List β) {b : β} (hb : p b = false) (back : List β) :
    (front ++ b :: back).rdropWhile p = front ++ b :: back.rdropWhile p := by
  induction back using reverseRecOn with
  | nil => rw [rdropWhile_concat, hb]; simp
  | append_singleton back x ih =>
    rw [← cons_append, ← append_assoc, rdropWhile_concat, rdropWhile_concat, ih]
    by_cases hx : p x = true
    · rw [if_pos hx, if_pos hx]
    · rw [if_neg hx, if_neg hx]
      simp

theorem rdropWhile_append_of_forall {front : List β} (h : ∀ b ∈ front, p b = false)
    (back : List β) : (front ++ back).rdropWhile p = front ++ back.rdropWhile p := by
  cases front using reverseRecOn with
  | nil => rfl
  | append_singleton front b =>
    rw [append_assoc, singleton_append, rdropWhile_append_stop _ (h b (by simp)),
      append_assoc, singleton_append]

/-- A text without the blanks at its end. -/
def trimRight (C : BlankCode α) (text : List α) : List α :=
  ((C.mark text).rdropWhile snd).map fst

/-- A trimmed text around a plain symbol. -/
theorem mark_trim_append_plain (ha : C.Plain a) (first rest : List α) :
    C.mark (C.trim (first ++ a :: rest)) =
      (C.mark first).dropWhile snd ++ (a, false) :: (C.mark rest).rdropWhile snd := by
  rw [mark_trim, mark_append_plain ha]
  have hdrop : (C.mark first ++ (a, false) :: C.mark rest).dropWhile snd =
      (C.mark first).dropWhile snd ++ (a, false) :: C.mark rest := by
    rw [dropWhile_append]
    by_cases hempty : ((C.mark first).dropWhile snd).isEmpty = true
    · rw [if_pos hempty, isEmpty_iff.mp hempty]
      rfl
    · rw [if_neg hempty]
  rw [hdrop, rdropWhile_append_stop _ rfl]

theorem trim_append_plain (ha : C.Plain a) (first rest : List α) :
    C.trim (first ++ a :: rest) =
      ((C.mark first).dropWhile snd).map fst ++ a :: C.trimRight rest := by
  rw [← map_fst_mark (C := C) (C.trim (first ++ a :: rest)), mark_trim_append_plain ha,
    map_append, map_cons, trimRight]

/-- A trimmed text consists of symbols of the text, and it loses no plain symbol. -/
theorem mem_trim_iff (ha : C.Plain a) : a ∈ C.trim text ↔ a ∈ text := by
  constructor
  · intro h
    rcases mem_map.mp h with ⟨m, hm, hma⟩
    have hmem : m ∈ C.mark text :=
      (dropWhile_suffix _).subset (( rdropWhile_prefix _ _).subset hm)
    rw [← hma, ← map_fst_mark (C := C) text]
    exact mem_map_of_mem hmem
  · intro h
    rcases append_of_mem h with ⟨first, rest, htext⟩
    rw [htext, trim_append_plain ha]
    simp

/-- A trimmed text starts with plain symbols if they follow the first blanks. -/
theorem prefix_trim_iff {word : List α} (hplain : ∀ a ∈ word, C.Plain a) (hne : word ≠ []) :
    word <+: C.trim text ↔ ∃ blanks rest, text = blanks ++ word ++ rest ∧ C.Blank blanks := by
  cases word with
  | nil => exact absurd rfl hne
  | cons a word =>
    have ha := hplain a mem_cons_self
    constructor
    · rintro ⟨more, hmore⟩
      have hsplit : C.mark text =
          (C.mark text).takeWhile snd ++ (C.mark text).dropWhile snd :=
        takeWhile_append_dropWhile.symm
      rcases rdropWhile_prefix snd ((C.mark text).dropWhile snd) with
        ⟨back, hback⟩
      have htext : text = ((C.mark text).takeWhile snd).map fst ++
          (a :: (word ++ more ++ back.map fst)) := by
        rw [trim] at hmore
        calc text = (C.mark text).map fst := (map_fst_mark text).symm
          _ = ((C.mark text).takeWhile snd).map fst ++
              ((C.mark text).dropWhile snd).map fst := by
            rw [← map_append, ← hsplit]
          _ = _ := by
            rw [← hback, map_append, ← hmore]
            simp
      refine ⟨((C.mark text).takeWhile snd).map fst, more ++ back.map fst, ?_, ?_⟩
      · exact htext.trans (by simp)
      · have hmark := mark_append ha.joint (((C.mark text).takeWhile snd).map fst)
          (word ++ more ++ back.map fst)
        rw [← htext] at hmark
        have hsame := append_inj_left (hsplit.symm.trans hmark) (by simp [mark])
        intro m hm
        rw [← hsame] at hm
        exact mem_takeWhile_imp hm
    · rintro ⟨blanks, rest, htext, hblank⟩
      have hdrop : (C.mark blanks).dropWhile snd = [] :=
        dropWhile_eq_nil_iff.mpr hblank
      have hword : ∀ m ∈ word.map (·, false), m.2 = false := by
        intro m hm
        rcases mem_map.mp hm with ⟨b, -, hb⟩
        rw [← hb]
      rw [htext, append_assoc, cons_append, trim_append_plain ha, hdrop, trimRight,
        mark_plain_append (forall_mem_cons.mp hplain).2,
        rdropWhile_append_of_forall hword, map_append, map_map]
      have hsymbols : word.map (fst ∘ fun b => (b, false)) = word :=
        List.map_id'' (fun _ => rfl) word
      rw [hsymbols]
      simp

/-! ## Fields -/

/-- The parts between the marked symbols. -/
def unmarkedParts (marks : List (α × Bool)) : List (List α) :=
  ((marks.splitOnP snd).filter (! ·.isEmpty)).map (·.map fst)

theorem fields_eq (text : List α) : C.fields text = unmarkedParts (C.mark text) :=
  rfl

omit [DecidableEq α] in
@[simp]
theorem unmarkedParts_nil : unmarkedParts ([] : List (α × Bool)) = [] := by
  simp [unmarkedParts]

omit [DecidableEq α] in
/-- A marked symbol separates the parts. -/
theorem unmarkedParts_append_cons (front : List (α × Bool)) {m : α × Bool} (hm : m.2 = true)
    (back : List (α × Bool)) :
    unmarkedParts (front ++ m :: back) = unmarkedParts front ++ unmarkedParts back := by
  rw [unmarkedParts, splitOnP_append_cons _ _ hm, filter_append, map_append]
  rfl

omit [DecidableEq α] in
theorem unmarkedParts_dropWhile (marks : List (α × Bool)) :
    unmarkedParts (marks.dropWhile snd) = unmarkedParts marks := by
  induction marks with
  | nil => rfl
  | cons m marks ih =>
    by_cases hm : m.2 = true
    · have hcons := unmarkedParts_append_cons [] hm marks
      rw [nil_append, unmarkedParts_nil, nil_append] at hcons
      rw [dropWhile_cons_of_pos hm, ih, hcons]
    · rw [dropWhile_cons_of_neg hm]

omit [DecidableEq α] in
theorem unmarkedParts_rdropWhile (marks : List (α × Bool)) :
    unmarkedParts (marks.rdropWhile snd) = unmarkedParts marks := by
  induction marks using reverseRecOn with
  | nil => rfl
  | append_singleton marks m ih =>
    by_cases hm : m.2 = true
    · rw [rdropWhile_concat_pos _ _ _ hm, ih, unmarkedParts_append_cons _ hm,
        unmarkedParts_nil, append_nil]
    · rw [rdropWhile_concat_neg _ _ _ hm]

/-- Trimming a text does not change its fields. -/
theorem fields_trim (text : List α) : C.fields (C.trim text) = C.fields text := by
  rw [fields_eq, fields_eq, mark_trim, unmarkedParts_rdropWhile, unmarkedParts_dropWhile]

/-- The fields of a text after a plain symbol, when the whole is trimmed first. -/
theorem fields_trimRight_append (ha : C.Plain a) (first rest : List α) :
    C.fields (C.trimRight rest) = C.fields rest := by
  have hmark := mark_trim_append_plain ha first rest
  rw [trim_append_plain ha, mark_append_plain ha] at hmark
  have hlength : (C.mark (((C.mark first).dropWhile snd).map fst)).length =
      ((C.mark first).dropWhile snd).length := by
    simp [mark]
  have hrest := (cons.inj (append_inj_right hmark hlength)).2
  rw [fields_eq, hrest, unmarkedParts_rdropWhile, ← fields_eq]

/-- The first part of a split list is at its start. -/
theorem prefix_of_splitOnP {l first : List β} {rest : List (List β)}
    (h : l.splitOnP p = first :: rest) : first <+: l := by
  induction l generalizing first rest with
  | nil =>
    rw [splitOnP_nil, cons.injEq] at h
    rw [← h.1]
  | cons b l ih =>
    rw [splitOnP_cons_eq_if_modifyHead] at h
    by_cases hb : p b = true
    · rw [if_pos hb, cons.injEq] at h
      rw [← h.1]
      exact nil_prefix
    · rw [if_neg hb] at h
      cases hsplit : l.splitOnP p with
      | nil => rw [hsplit] at h; cases h
      | cons first' rest' =>
        rw [hsplit, modifyHead_cons, cons.injEq] at h
        rw [← h.1, cons_prefix_cons]
        exact ⟨rfl, ih hsplit⟩

/-- A part of a split list lies in the list, and no element of it is a separator. -/
theorem mem_splitOnP {l part : List β} (h : part ∈ l.splitOnP p) :
    (∃ front back, l = front ++ part ++ back) ∧ ∀ b ∈ part, p b = false := by
  induction l generalizing part with
  | nil =>
    rw [splitOnP_nil, mem_singleton] at h
    rw [h]
    exact ⟨⟨[], [], rfl⟩, by simp⟩
  | cons b l ih =>
    rw [splitOnP_cons_eq_if_modifyHead] at h
    by_cases hb : p b = true
    · rw [if_pos hb, mem_cons] at h
      rcases h with h | h
      · rw [h]
        exact ⟨⟨[], b :: l, rfl⟩, by simp⟩
      · rcases ih h with ⟨⟨front, back, hl⟩, hpart⟩
        exact ⟨⟨b :: front, back, by rw [hl]; simp⟩, hpart⟩
    · rw [if_neg hb] at h
      cases hsplit : l.splitOnP p with
      | nil => rw [hsplit] at h; cases h
      | cons first rest =>
        rw [hsplit, modifyHead_cons, mem_cons] at h
        rcases h with h | h
        · rcases prefix_of_splitOnP hsplit with ⟨back, hback⟩
          have hfirst := (ih (by rw [hsplit]; exact mem_cons_self)).2
          rw [h]
          refine ⟨⟨[], back, by rw [← hback]; rfl⟩, ?_⟩
          rw [forall_mem_cons]
          exact ⟨Bool.not_eq_true _ ▸ hb, hfirst⟩
        · rcases ih (by rw [hsplit]; exact mem_cons_of_mem _ h) with
            ⟨⟨front, back, hl⟩, hpart⟩
          exact ⟨⟨b :: front, back, by rw [hl]; simp⟩, hpart⟩

/-- What a field is: it is not empty, it has no blank, and it is a part of the text. -/
theorem mem_fields {field : List α} (h : field ∈ C.fields text) :
    field ≠ [] ∧ C.Blankless field ∧ field <:+: text := by
  rcases mem_map.mp h with ⟨part, hpart, hfield⟩
  rw [mem_filter] at hpart
  rcases mem_splitOnP hpart.1 with ⟨⟨front, back, hmark⟩, hunmarked⟩
  rw [← hfield]
  refine ⟨?_, ?_, front.map fst, back.map fst, ?_⟩
  · intro hnil
    rw [map_eq_nil_iff] at hnil
    rw [hnil] at hpart
    exact absurd hpart.2 (by simp)
  · intro m hm
    rw [mark_part hmark hunmarked] at hm
    exact hunmarked m hm
  · rw [← map_append, ← map_append, ← hmark, map_fst_mark]

/-- The symbol is a blank by itself and in no other word. -/
def Single (C : BlankCode α) (a : α) : Prop :=
  [a] ∈ C.words ∧ ∀ w ∈ C.words, a ∈ w → w = [a]

instance (a : α) : Decidable (C.Single a) :=
  inferInstanceAs (Decidable ([a] ∈ C.words ∧ ∀ w ∈ C.words, a ∈ w → w = [a]))

omit [DecidableEq α] in
theorem Single.joint (h : C.Single a) : C.Joint a := by
  intro w hw hmem
  rw [h.2 w hw (mem_of_mem_tail hmem)] at hmem
  cases hmem

theorem mark_cons_single (h : C.Single a) (rest : List α) :
    C.mark (a :: rest) = (a, true) :: C.mark rest := by
  have hne : C.width (a :: rest) ≠ 0 := by
    intro hzero
    exact width_eq_zero.mp hzero [a] h.1 ⟨rest, rfl⟩
  rcases exists_word hne with ⟨w, hw, hstart, hlength⟩
  have hword : w = [a] := by
    cases w with
    | nil => exact absurd rfl (C.nonempty [] hw)
    | cons b w =>
      rw [cons_prefix_cons] at hstart
      exact h.2 _ hw (by simp [hstart.1])
  rw [hword, length_singleton] at hlength
  rw [mark, markFrom, if_neg hne, ← hlength]
  rfl

/-- A text without blanks is its only field. -/
theorem fields_of_blankless (h : C.Blankless text) (hne : text ≠ []) : C.fields text = [text] := by
  have hmark : (C.mark text).isEmpty = false := by
    cases text with
    | nil => exact absurd rfl hne
    | cons a text =>
      rw [isEmpty_eq_false_iff]
      intro hnil
      have hlength := congrArg length hnil
      simp [mark] at hlength
  rw [fields, splitOnP_eq_singleton h]
  simp [hmark]

/-- A single blank in front of a text adds no field. -/
theorem fields_cons_single (h : C.Single a) (rest : List α) :
    C.fields (a :: rest) = C.fields rest := by
  have hparts := unmarkedParts_append_cons ([] : List (α × Bool)) (m := (a, true)) rfl
    (C.mark rest)
  rw [nil_append, unmarkedParts_nil, nil_append] at hparts
  rw [fields_eq, mark_cons_single h, hparts, fields_eq]

/-- Fields that are joined with a single blank are read back. -/
theorem fields_intercalate (h : C.Single a) {parts : List (List α)}
    (hparts : ∀ part ∈ parts, part ≠ [] ∧ C.Blankless part) :
    C.fields ([a].intercalate parts) = parts := by
  induction parts with
  | nil => rfl
  | cons part parts ih =>
    have hpart := hparts part mem_cons_self
    have hfield := fields_of_blankless hpart.2 hpart.1
    cases parts with
    | nil => rw [intercalate_singleton, hfield]
    | cons next parts =>
      rw [intercalate_cons_cons, append_assoc, singleton_append, fields_eq,
        mark_append h.joint, mark_cons_single h, unmarkedParts_append_cons _ rfl,
        ← fields_eq, ← fields_eq, hfield,
        ih (forall_mem_cons.mp hparts).2]
      rfl

end BlankCode
end PowerManage
