import Mathlib.Data.List.Basic
import Mathlib.Tactic.Ring
import PowerManage.Text.Utf8

/-!
# Length-prefixed framing

Fixed-width big-endian numbers and sequences of byte strings, each written after
its length.  A sequence is recovered from its bytes whatever the strings hold,
also when the number of strings is not known.

Main results:

- `ofBigEndian_bigEndian`: a number that fits is read back.
- `frame_append_inj`: the first frame of a byte string is determined.
- `frames_inj`: different sequences have different bytes.
-/

namespace PowerManage.Wire

/-! ## Big-endian numbers -/

/-- A number in `width` bytes, the most significant first. -/
def bigEndian : Nat → Nat → Bytes
  | 0, _ => []
  | width + 1, n => bigEndian width (n / 256) ++ [UInt8.ofNat n]

/-- The number that bytes write out. -/
def ofBigEndian (bytes : Bytes) : Nat :=
  bytes.foldl (fun n b => n * 256 + b.toNat) 0

@[simp]
theorem length_bigEndian (width n : Nat) : (bigEndian width n).length = width := by
  induction width generalizing n with
  | zero => rfl
  | succ width ih => simp [bigEndian, ih]

/-- A number that fits its width is read back. -/
theorem ofBigEndian_bigEndian {width n : Nat} (h : n < 256 ^ width) :
    ofBigEndian (bigEndian width n) = n := by
  induction width generalizing n with
  | zero =>
    have hzero : n = 0 := by simpa using h
    simp [hzero, bigEndian, ofBigEndian]
  | succ width ih =>
    have hhigh : n / 256 < 256 ^ width := by
      rw [Nat.div_lt_iff_lt_mul (by decide), ← pow_succ]
      exact h
    have hread := ih hhigh
    unfold ofBigEndian at hread ⊢
    rw [bigEndian, List.foldl_append, hread]
    have hlow : (UInt8.ofNat n).toNat = n % 256 := by simp
    simp only [List.foldl_cons, List.foldl_nil, hlow]
    omega

/-- Numbers that fit are determined by their bytes. -/
theorem bigEndian_inj {width m n : Nat} (hm : m < 256 ^ width) (hn : n < 256 ^ width)
    (h : bigEndian width m = bigEndian width n) : m = n := by
  have hread := congrArg ofBigEndian h
  rwa [ofBigEndian_bigEndian hm, ofBigEndian_bigEndian hn] at hread

/-! ## Frames -/

/-- A byte string that fits in memory: its length is a signed 64-bit number. -/
structure Slice where
  bytes : Bytes
  bounded : bytes.length < 2 ^ 63
  deriving DecidableEq

/-- The bytes after their length. -/
def frame (bytes : Bytes) : Bytes :=
  bigEndian 8 bytes.length ++ bytes

/-- A sequence of byte strings, one frame after the other. -/
def frames (fields : List Bytes) : Bytes :=
  fields.flatMap frame

/-- The length of a byte string can be written. -/
def Framable (bytes : Bytes) : Prop :=
  bytes.length < 256 ^ 8

instance (bytes : Bytes) : Decidable (Framable bytes) :=
  inferInstanceAs (Decidable (_ < _))

theorem Slice.framable (s : Slice) : Framable s.bytes :=
  Nat.lt_trans s.bounded (by decide)

theorem frame_ne_nil (bytes : Bytes) : frame bytes ≠ [] := by
  intro h
  have hlength := congrArg List.length h
  simp [frame] at hlength

/-- The first frame and what follows it are determined by the bytes. -/
theorem frame_append_inj {x y after after' : Bytes} (hx : Framable x) (hy : Framable y)
    (h : frame x ++ after = frame y ++ after') : x = y ∧ after = after' := by
  unfold frame at h
  rw [List.append_assoc, List.append_assoc] at h
  -- The length fields are equally long, so they agree and fix where the frames end.
  have hparts := List.append_inj h (by simp)
  have hlength : x.length = y.length := bigEndian_inj hx hy hparts.1
  exact List.append_inj hparts.2 hlength

/-- A sequence is recovered from its frames. -/
theorem frames_inj {xs ys : List Bytes} (hxs : ∀ x ∈ xs, Framable x)
    (hys : ∀ y ∈ ys, Framable y) (h : frames xs = frames ys) : xs = ys := by
  induction xs generalizing ys with
  | nil =>
    cases ys with
    | nil => rfl
    | cons y ys => simp [frames, frame_ne_nil] at h
  | cons x xs ih =>
    cases ys with
    | nil => simp [frames, frame_ne_nil] at h
    | cons y ys =>
      have hparts := frame_append_inj (hxs x List.mem_cons_self) (hys y List.mem_cons_self) h
      have htail := ih (List.forall_mem_cons.mp hxs).2
        (List.forall_mem_cons.mp hys).2 hparts.2
      rw [hparts.1, htail]

end PowerManage.Wire
