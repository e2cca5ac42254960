import Mathlib.Data.List.Basic
import Mathlib.Data.List.TakeDrop

/-!
# UTF-8 as bytes

Decoding of byte strings into runes and stray bytes, validity, replacement of
invalid bytes and truncation at a rune boundary.

Everything rests on four facts about one decoding step: it splits its input, it
looks only at the rune it returns, a zero byte is a rune of its own, and no
longer rune contains one.

Main results:

- `tokens_append_zero`: decoding stops at a zero byte.
- `valid_iff_flatten`: valid text is a sequence of runes.
- `valid_toValid`: replacing stray bytes gives valid text.
- `take_trim`: truncation keeps every valid beginning that fits.
-/

namespace PowerManage

/-- A byte string. -/
abbrev Bytes : Type := List UInt8

end PowerManage

namespace PowerManage.Utf8

/-- Byte strings are compared byte by byte. -/
instance lawfulBEqBytes : LawfulBEq Bytes :=
  inferInstanceAs (LawfulBEq (List UInt8))

/-! ## One decoding step -/

/-- A byte that may follow a leading byte. -/
def continuation (b : UInt8) : Bool :=
  0x80 ≤ b && b ≤ 0xBF

/-- The second byte of a rune; some leading bytes restrict it further. -/
def second (lead b : UInt8) : Bool :=
  if lead = 0xE0 then 0xA0 ≤ b && b ≤ 0xBF
  else if lead = 0xED then 0x80 ≤ b && b ≤ 0x9F
  else if lead = 0xF0 then 0x90 ≤ b && b ≤ 0xBF
  else if lead = 0xF4 then 0x80 ≤ b && b ≤ 0x8F
  else continuation b

/-- The first rune of a byte string and what follows it. -/
def rune : Bytes → Option (Bytes × Bytes)
  | [] => none
  | lead :: rest =>
    if lead < 0x80 then some ([lead], rest)
    else if lead < 0xC2 then none
    else if lead < 0xE0 then
      match rest with
      | b :: rest => if second lead b then some ([lead, b], rest) else none
      | _ => none
    else if lead < 0xF0 then
      match rest with
      | b :: c :: rest =>
        if second lead b && continuation c then some ([lead, b, c], rest) else none
      | _ => none
    else if lead < 0xF5 then
      match rest with
      | b :: c :: d :: rest =>
        if second lead b && continuation c && continuation d then
          some ([lead, b, c, d], rest)
        else none
      | _ => none
    else none

/-- The bytes of one rune, wherever they stand. -/
def IsRune (r : Bytes) : Prop :=
  ∀ more, rune (r ++ more) = some (r, more)

variable {bs r : Bytes}

theorem rune_cases {rest : Bytes} (h : rune bs = some (r, rest)) :
    bs = r ++ rest ∧ r ≠ [] ∧ IsRune r ∧ (0 ∈ r → r = [0]) := by
  have hcontinuation : ∀ b, continuation b = true → (0 : UInt8) ≠ b := by
    rintro b hb rfl
    exact absurd hb (by decide)
  have hsecond : ∀ lead b, second lead b = true → (0 : UInt8) ≠ b := by
    rintro lead b hb rfl
    unfold second at hb
    split_ifs at hb <;> revert hb <;> decide
  cases bs with
  | nil => simp [rune] at h
  | cons lead tail =>
    unfold rune at h
    by_cases hascii : lead < 0x80
    · simp [hascii] at h
      obtain ⟨rfl, rfl⟩ := h
      refine ⟨rfl, by simp, fun more => by simp [rune, hascii], fun hzero => ?_⟩
      rw [List.mem_singleton.mp hzero]
    -- A longer rune has a large leading byte and no zero among the others.
    have hlead : (0 : UInt8) ≠ lead := by
      rintro rfl
      exact hascii (by decide)
    simp only [hascii, if_false] at h
    by_cases hstray : lead < 0xC2
    · simp [hstray] at h
    simp only [hstray, if_false] at h
    by_cases htwo : lead < 0xE0
    · simp only [htwo, if_true] at h
      split at h
      · rename_i b rest'
        by_cases hb : second lead b = true
        · simp [hb] at h
          obtain ⟨rfl, rfl⟩ := h
          refine ⟨rfl, by simp, fun more => by simp [rune, hascii, hstray, htwo, hb], ?_⟩
          simp [hlead, hsecond lead b hb]
        · simp [hb] at h
      · simp at h
    simp only [htwo, if_false] at h
    by_cases hthree : lead < 0xF0
    · simp only [hthree, if_true] at h
      split at h
      · rename_i b c rest'
        by_cases hb : (second lead b && continuation c) = true
        · simp [hb] at h
          obtain ⟨rfl, rfl⟩ := h
          refine ⟨rfl, by simp, fun more => by simp [rune, hascii, hstray, htwo, hthree, hb], ?_⟩
          rw [Bool.and_eq_true] at hb
          simp [hlead, hsecond lead b hb.1, hcontinuation c hb.2]
        · simp [hb] at h
      · simp at h
    simp only [hthree, if_false] at h
    by_cases hfour : lead < 0xF5
    · simp only [hfour, if_true] at h
      split at h
      · rename_i b c d rest'
        by_cases hb : (second lead b && continuation c && continuation d) = true
        · simp [hb] at h
          obtain ⟨rfl, rfl⟩ := h
          refine ⟨rfl, by simp,
            fun more => by simp [rune, hascii, hstray, htwo, hthree, hfour, hb], ?_⟩
          rw [Bool.and_eq_true, Bool.and_eq_true] at hb
          simp [hlead, hsecond lead b hb.1.1, hcontinuation c hb.1.2, hcontinuation d hb.2]
        · simp [hb] at h
      · simp at h
    · simp [hfour] at h

theorem isRune_zero : IsRune [0] := by
  intro more
  simp [rune]

theorem IsRune.ne_nil (h : IsRune r) : r ≠ [] := by
  have hcases := rune_cases (h [])
  exact hcases.2.1

/-- A zero byte ends whatever is being decoded. -/
theorem rune_append_zero {p : Bytes} (hp : p ≠ []) (bs : Bytes) :
    rune (p ++ 0 :: bs) = (rune p).map fun (r, rest) => (r, rest ++ 0 :: bs) := by
  cases hrune : rune p with
  | some split =>
    obtain ⟨hsplit, -, hr, -⟩ := rune_cases hrune
    rw [hsplit, List.append_assoc, hr]
    rfl
  | none =>
    cases hlong : rune (p ++ 0 :: bs) with
    | none => rfl
    | some split =>
      -- Otherwise the rune would end before the zero byte and be seen in `p`.
      obtain ⟨r, rest⟩ := split
      obtain ⟨hsplit, hne, hr, hzero⟩ := rune_cases hlong
      have hstart : ∃ p', p = r ++ p' := by
        rcases List.append_eq_append_iff.mp hsplit with ⟨q, hr', hq⟩ | ⟨q, hp', -⟩
        · cases q with
          | nil => exact ⟨[], by simpa using hr'.symm⟩
          | cons b q =>
            obtain ⟨rfl, -⟩ := List.cons.inj hq
            have hsingle := hzero (by simp [hr'])
            rw [hsingle] at hr'
            have hlength := congrArg List.length hr'
            have hpos := List.length_pos_iff.mpr hp
            simp at hlength
            omega
        · exact ⟨q, hp'⟩
      obtain ⟨p', rfl⟩ := hstart
      rw [hr] at hrune
      exact absurd hrune (by simp)

/-! ## Decoding -/

/-- A rune, or a byte that belongs to none. -/
inductive Token where
  | rune (bytes : Bytes)
  | stray (byte : UInt8)
  deriving DecidableEq, Repr

/-- Decode with at most `n` steps. -/
def tokensWithin : Nat → Bytes → List Token
  | 0, _ => []
  | _ + 1, [] => []
  | n + 1, b :: bs =>
    match Utf8.rune (b :: bs) with
    | some (r, rest) => .rune r :: tokensWithin n rest
    | none => .stray b :: tokensWithin n bs

/-- Decode a byte string. -/
def tokens (bs : Bytes) : List Token :=
  tokensWithin bs.length bs

theorem tokensWithin_congr {m n : Nat} (hm : bs.length ≤ m) (hn : bs.length ≤ n) :
    tokensWithin m bs = tokensWithin n bs := by
  induction m generalizing n bs with
  | zero =>
    obtain rfl := List.length_eq_zero_iff.mp (Nat.le_zero.mp hm)
    cases n <;> rfl
  | succ m ih =>
    cases bs with
    | nil => cases n <;> rfl
    | cons b bs =>
      cases n with
      | zero => exact absurd hn (by simp)
      | succ n =>
        simp at hm hn
        unfold tokensWithin
        cases hrune : rune (b :: bs) with
        | none => rw [ih (n := n) (by omega) (by omega)]
        | some split =>
          obtain ⟨hsplit, hne, -, -⟩ := rune_cases hrune
          have hlength := congrArg List.length hsplit
          have hpos := List.length_pos_iff.mpr hne
          simp at hlength
          simp only
          rw [ih (n := n) (by omega) (by omega)]

@[simp]
theorem tokens_nil : tokens [] = [] :=
  rfl

theorem tokens_rune (hr : IsRune r) (rest : Bytes) :
    tokens (r ++ rest) = .rune r :: tokens rest := by
  cases r with
  | nil => exact absurd rfl hr.ne_nil
  | cons b r =>
    have hrune := hr rest
    simp at hrune ⊢
    unfold tokens
    rw [List.length_cons, tokensWithin, hrune]
    simp only
    have hlength : rest.length ≤ (r ++ rest).length := by
      rw [List.length_append]
      omega
    rw [tokensWithin_congr hlength (Nat.le_refl _)]

theorem tokens_stray {b : UInt8} (h : rune (b :: bs) = none) :
    tokens (b :: bs) = .stray b :: tokens bs := by
  unfold tokens
  rw [List.length_cons, tokensWithin, h]

/-- Induction along the decoding of a byte string. -/
theorem decode_induction {P : Bytes → Prop} (hnil : P [])
    (hrune : ∀ r rest, IsRune r → P rest → P (r ++ rest))
    (hstray : ∀ b bs, rune (b :: bs) = none → P bs → P (b :: bs)) (bs : Bytes) : P bs := by
  generalize hn : bs.length = n
  induction n using Nat.strongRecOn generalizing bs with
  | ind n ih =>
    cases bs with
    | nil => exact hnil
    | cons b bs =>
      cases h : rune (b :: bs) with
      | none => exact hstray b bs h (ih bs.length (by simp [← hn]) bs rfl)
      | some split =>
        obtain ⟨r, rest⟩ := split
        obtain ⟨hsplit, hne, hr, -⟩ := rune_cases h
        have hpos := List.length_pos_iff.mpr hne
        rw [hsplit] at hn ⊢
        rw [List.length_append] at hn
        exact hrune r rest hr (ih rest.length (by omega) rest rfl)

/-- Decoding stops at a zero byte. -/
theorem tokens_append_zero (p bs : Bytes) :
    tokens (p ++ 0 :: bs) = tokens p ++ .rune [0] :: tokens bs := by
  induction p using decode_induction with
  | hnil => exact tokens_rune isRune_zero bs
  | hrune r rest hr ih => rw [List.append_assoc, tokens_rune hr, tokens_rune hr, ih]; rfl
  | hstray b p hstray ih =>
    have hlong : rune (b :: (p ++ 0 :: bs)) = none := by
      have happend := rune_append_zero (List.cons_ne_nil b p) bs
      rw [hstray] at happend
      exact happend
    rw [List.cons_append, tokens_stray hlong, tokens_stray hstray, ih]
    rfl

/-! ## Validity -/

def Token.isRune : Token → Bool
  | rune _ => true
  | stray _ => false

/-- Every byte belongs to a rune. -/
def valid (bs : Bytes) : Bool :=
  (tokens bs).all Token.isRune

@[simp]
theorem valid_nil : valid [] = true :=
  rfl

@[simp]
theorem valid_rune_append (hr : IsRune r) (bs : Bytes) : valid (r ++ bs) = valid bs := by
  simp [valid, tokens_rune hr, Token.isRune]

/-- Valid text is a sequence of runes. -/
theorem valid_iff_flatten :
    valid bs = true ↔ ∃ rs : List Bytes, (∀ r ∈ rs, IsRune r) ∧ bs = rs.flatten := by
  constructor
  · induction bs using decode_induction with
    | hnil => exact fun _ => ⟨[], by simp, rfl⟩
    | hrune r rest hr ih =>
      intro h
      rw [valid_rune_append hr] at h
      obtain ⟨rs, hrs, rfl⟩ := ih h
      exact ⟨r :: rs, List.forall_mem_cons.mpr ⟨hr, hrs⟩, rfl⟩
    | hstray b bs hstray ih =>
      intro h
      simp [valid, tokens_stray hstray, Token.isRune] at h
  · rintro ⟨rs, hrs, rfl⟩
    induction rs with
    | nil => rfl
    | cons r rs ih =>
      rw [List.flatten_cons, valid_rune_append (hrs r (by simp))]
      exact ih (List.forall_mem_cons.mp hrs).2

@[simp]
theorem valid_append {a : Bytes} (ha : valid a = true) (b : Bytes) : valid (a ++ b) = valid b := by
  obtain ⟨rs, hrs, rfl⟩ := valid_iff_flatten.mp ha
  clear ha
  induction rs with
  | nil => rfl
  | cons r rs ih =>
    rw [List.flatten_cons, List.append_assoc, valid_rune_append (hrs r (by simp))]
    exact ih (List.forall_mem_cons.mp hrs).2

/-! ## Replacement -/

/-- Write runes out and every run of stray bytes as one replacement. -/
def render (replacement : Bytes) : Bool → List Token → Bytes
  | _, [] => []
  | _, .rune r :: ts => r ++ render replacement false ts
  | true, .stray _ :: ts => render replacement true ts
  | false, .stray _ :: ts => replacement ++ render replacement true ts

/-- Replace the stray bytes of a byte string. -/
def toValid (replacement bs : Bytes) : Bytes :=
  render replacement false (tokens bs)

theorem render_append_rune (replacement : Bytes) (inRun : Bool) (ts us : List Token) (r : Bytes) :
    render replacement inRun (ts ++ .rune r :: us) =
      render replacement inRun ts ++ (r ++ render replacement false us) := by
  induction ts generalizing inRun with
  | nil => cases inRun <;> rfl
  | cons t ts ih =>
    cases t with
    | rune r' => cases inRun <;> simp [render, ih]
    | stray b => cases inRun <;> simp [render, ih]

/-- A zero byte separates the text before it from the text after it. -/
theorem toValid_append_zero (replacement p bs : Bytes) :
    toValid replacement (p ++ 0 :: bs) =
      toValid replacement p ++ 0 :: toValid replacement bs := by
  unfold toValid
  rw [tokens_append_zero, render_append_rune]
  rfl

/-- Replacing stray bytes gives valid text. -/
theorem valid_toValid {replacement : Bytes} (hvalid : valid replacement = true) (bs : Bytes) :
    valid (toValid replacement bs) = true := by
  have hrender : ∀ inRun, valid (render replacement inRun (tokens bs)) = true := by
    induction bs using decode_induction with
    | hnil => exact fun inRun => by cases inRun <;> rfl
    | hrune r rest hr ih =>
      intro inRun
      rw [tokens_rune hr]
      cases inRun <;> simp [render, valid_rune_append hr, ih]
    | hstray b bs hstray ih =>
      intro inRun
      rw [tokens_stray hstray]
      cases inRun <;> simp [render, valid_append hvalid, ih]
  exact hrender false

theorem zero_mem_toValid {replacement : Bytes} (hreplacement : 0 ∉ replacement) (hzero : 0 ∉ bs) :
    0 ∉ toValid replacement bs := by
  have hrender : ∀ inRun, 0 ∉ render replacement inRun (tokens bs) := by
    induction bs using decode_induction with
    | hnil => exact fun inRun => by cases inRun <;> simp [render]
    | hrune r rest hr ih =>
      rw [List.mem_append, not_or] at hzero
      intro inRun
      rw [tokens_rune hr]
      cases inRun <;> simp [render, hzero.1, ih hzero.2]
    | hstray b bs hstray ih =>
      rw [List.mem_cons, not_or] at hzero
      intro inRun
      rw [tokens_stray hstray]
      cases inRun <;> simp [render, hreplacement, ih hzero.2]
  exact hrender false

/-! ## Truncation -/

/-- The longest valid beginning of at most `n` bytes. -/
def trim (bs : Bytes) : Nat → Bytes
  | 0 => []
  | n + 1 => if valid (bs.take (n + 1)) then bs.take (n + 1) else trim bs n

/-- Truncation cuts the text at a length that leaves it valid. -/
theorem trim_eq_take (bs : Bytes) (n : Nat) :
    ∃ k ≤ n, trim bs n = bs.take k ∧ valid (bs.take k) = true := by
  induction n with
  | zero => exact ⟨0, Nat.le_refl _, by simp [trim], by simp⟩
  | succ n ih =>
    unfold trim
    by_cases hvalid : valid (bs.take (n + 1)) = true
    · exact ⟨n + 1, Nat.le_refl _, by simp [hvalid], hvalid⟩
    · obtain ⟨k, hk, htrim, hvalid'⟩ := ih
      exact ⟨k, by omega, by simp [hvalid, htrim], hvalid'⟩

/-- Truncation keeps every valid beginning that fits. -/
theorem take_trim {k n : Nat} (hk : k ≤ n) (hvalid : valid (bs.take k) = true) :
    (trim bs n).take k = bs.take k := by
  induction n with
  | zero => simp [Nat.le_zero.mp hk]
  | succ n ih =>
    unfold trim
    by_cases hnext : valid (bs.take (n + 1)) = true
    · simp [hnext, List.take_take, hk]
    · have hne : k ≠ n + 1 := by
        rintro rfl
        exact hnext hvalid
      simp only [hnext, Bool.false_eq_true, if_false]
      exact ih (by omega)

/-! ## Strings -/

/-- The bytes of a string. -/
def textBytes (s : String) : Bytes :=
  s.toByteArray.data.toList

theorem textBytes_inj {s t : String} : textBytes s = textBytes t ↔ s = t := by
  constructor
  · intro h
    apply String.toByteArray_inj.mp
    apply ByteArray.ext
    exact Array.toList_inj.mp h
  · exact fun h => congrArg textBytes h

end PowerManage.Utf8
