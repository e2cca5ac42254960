import Mathlib.Tactic.Linarith
import Mathlib.Tactic.Ring

/-!
# Go's time values

`time.Time` as the runtime represents it: nanoseconds within the second, and
either the seconds since the year 1 or, with a monotonic reading, the packed wall
seconds since 1885.  Seconds are signed 64-bit numbers: `time.Unix` wraps
around, `Add` stops at the end of the range, `Sub` saturates.

Main results:

- `Time.sub_eq`: a difference is exact, or the nearest duration.
- `Time.unix_nanos`: a time stands for the instant it was made from
  exactly when its seconds do not wrap around.
-/

namespace PowerManage.Go

/-! ## Signed 64-bit numbers -/

/-- The smallest `int64`. -/
def minInt64 : Int := -9223372036854775808

/-- The largest `int64`. -/
def maxInt64 : Int := 9223372036854775807

/-- A number reduced to 64 bits, with sign. -/
def wrap64 (n : Int) : Int :=
  (n + 9223372036854775808) % 18446744073709551616 - 9223372036854775808

/-- A number moved into the range of 64 bits. -/
def clamp64 (n : Int) : Int :=
  if n < minInt64 then minInt64 else if maxInt64 < n then maxInt64 else n

theorem wrap64_range (n : Int) : minInt64 ≤ wrap64 n ∧ wrap64 n ≤ maxInt64 := by
  unfold wrap64 minInt64 maxInt64
  omega

theorem wrap64_of_range {n : Int} (h : minInt64 ≤ n) (h' : n ≤ maxInt64) : wrap64 n = n := by
  unfold minInt64 at h
  unfold maxInt64 at h'
  unfold wrap64
  omega

/-! ## Representation -/

/-- Nanoseconds in a second. -/
def second : Int := 1000000000

/-- `unixToInternal`: the seconds from the year 1 to 1970. -/
def unixToInternal : Int := 62135596800

/-- `wallToInternal`: the seconds from the year 1 to 1885. -/
def wallToInternal : Int := 59453308800

/-- `time.Time`, its `wall` word in its three fields. -/
structure Time where
  hasMonotonic : Bool
  /-- The 33-bit seconds since 1885, if there is a monotonic reading. -/
  wallSec : Int
  wallNsec : Int
  /-- The seconds since the year 1, or the monotonic reading. -/
  ext : Int
  wallSec_range : 0 ≤ wallSec ∧ wallSec ≤ 8589934591
  wallNsec_range : 0 ≤ wallNsec ∧ wallNsec < second
  ext_range : minInt64 ≤ ext ∧ ext ≤ maxInt64

namespace Time

def sec (t : Time) : Int :=
  if t.hasMonotonic then wallToInternal + t.wallSec else t.ext

theorem sec_range (t : Time) : minInt64 ≤ t.sec ∧ t.sec ≤ maxInt64 := by
  have hwall := t.wallSec_range
  have hext := t.ext_range
  unfold sec wallToInternal
  unfold minInt64 maxInt64 at *
  split
  · omega
  · exact hext

def isZero (t : Time) : Bool :=
  t.sec == 0 && t.wallNsec == 0

def after (t u : Time) : Bool :=
  if t.hasMonotonic && u.hasMonotonic then decide (u.ext < t.ext)
  else decide (u.sec < t.sec) || (t.sec == u.sec && decide (u.wallNsec < t.wallNsec))

def before (t u : Time) : Bool :=
  if t.hasMonotonic && u.hasMonotonic then decide (t.ext < u.ext)
  else decide (t.sec < u.sec) || (t.sec == u.sec && decide (t.wallNsec < u.wallNsec))

def equal (t u : Time) : Bool :=
  if t.hasMonotonic && u.hasMonotonic then t.ext == u.ext
  else t.sec == u.sec && t.wallNsec == u.wallNsec

def stripMono (t : Time) : Time :=
  { t with hasMonotonic := false, wallSec := 0, ext := t.sec
           wallSec_range := by decide
           ext_range := t.sec_range }

/-- The end of `addSec`, on a time without a monotonic reading. -/
def addExt (t : Time) (d : Int) : Time :=
  let sum := wrap64 (t.ext + d)
  { t with
      ext := if decide (t.ext < sum) == decide (0 < d) then sum
        else if 0 < d then maxInt64 else -maxInt64
      ext_range := by
        have := wrap64_range (t.ext + d)
        split
        · exact this
        · split <;> decide }

def addSec (t : Time) (d : Int) : Time :=
  if t.hasMonotonic then
    if h : 0 ≤ t.wallSec + d ∧ t.wallSec + d ≤ 8589934591 then
      { t with wallSec := t.wallSec + d, wallSec_range := h }
    else t.stripMono.addExt d
  else t.addExt d

/-- The end of `Add`: the monotonic reading moves with the wall clock, or is
dropped when it would overflow. -/
def addMono (t : Time) (d : Int) : Time :=
  if t.hasMonotonic then
    let te := wrap64 (t.ext + d)
    if (d < 0 ∧ t.ext < te) ∨ (0 < d ∧ te < t.ext) then t.stripMono
    else { t with ext := te, ext_range := wrap64_range _ }
  else t

/-- The carry of `Add` out of the nanoseconds: seconds, then nanoseconds. -/
def carry (nsec d : Int) : Int × Int :=
  let dsec := d.tdiv second
  let nsec := nsec + d.tmod second
  if second ≤ nsec then (dsec + 1, nsec - second)
  else if nsec < 0 then (dsec - 1, nsec + second)
  else (dsec, nsec)

/-- The carry keeps the number of nanoseconds. -/
theorem carry_eq (nsec d : Int) (h : 0 ≤ nsec ∧ nsec < second) :
    (carry nsec d).1 * second + (carry nsec d).2 = nsec + d ∧
      0 ≤ (carry nsec d).2 ∧ (carry nsec d).2 < second := by
  have hdiv : d.tdiv second * second + d.tmod second = d := Int.tdiv_mul_add_tmod d second
  have hlow : -second < d.tmod second := Int.lt_tmod_of_pos d (by decide)
  have hhigh : d.tmod second < second := Int.tmod_lt_of_pos d (by decide)
  unfold carry
  dsimp only
  unfold second at *
  split_ifs <;> refine ⟨?_, ?_, ?_⟩ <;> dsimp only <;> omega

def add (t : Time) (d : Int) : Time :=
  let moved : Time :=
    { t with wallNsec := (carry t.wallNsec d).2
             wallNsec_range := (carry_eq t.wallNsec d t.wallNsec_range).2 }
  (moved.addSec (carry t.wallNsec d).1).addMono d

def subMono (t u : Int) : Int :=
  let d := wrap64 (t - u)
  if d < 0 ∧ u < t then maxInt64
  else if 0 < d ∧ t < u then minInt64
  else d

/-- `Time.Sub`, in nanoseconds. -/
def sub (t u : Time) : Int :=
  if t.hasMonotonic && u.hasMonotonic then subMono t.ext u.ext
  else
    let d := wrap64 (wrap64 (wrap64 (t.sec - u.sec) * second) + (t.wallNsec - u.wallNsec))
    if (u.add d).equal t then d
    else if t.before u then minInt64
    else maxInt64

/-- The normal form that `time.Unix` gives its arguments: seconds, then the
nanoseconds within a second. -/
def normalize (seconds nanos : Int) : Int × Int :=
  if nanos < 0 ∨ second ≤ nanos then
    let n := nanos.tdiv second
    let rest := nanos - n * second
    if rest < 0 then (wrap64 (wrap64 (seconds + n) - 1), rest + second)
    else (wrap64 (seconds + n), rest)
  else (seconds, nanos)

/-- The seconds are those of the exact sum, up to 64 bits; the nanoseconds are exact. -/
theorem normalize_eq (seconds nanos : Int) :
    wrap64 (normalize seconds nanos).1 = wrap64 ((seconds * second + nanos) / second) ∧
      (normalize seconds nanos).2 = (seconds * second + nanos) % second := by
  have hdiv : nanos.tdiv second * second + nanos.tmod second = nanos :=
    Int.tdiv_mul_add_tmod nanos second
  have hlow : -second < nanos.tmod second := Int.lt_tmod_of_pos nanos (by decide)
  have hhigh : nanos.tmod second < second := Int.tmod_lt_of_pos nanos (by decide)
  unfold normalize
  dsimp only
  unfold second wrap64 at *
  split_ifs <;> refine ⟨?_, ?_⟩ <;> dsimp only <;> omega

/-- `time.Unix` of 64-bit seconds and nanoseconds that need not be within a
second. -/
def unix (seconds nanos : Int) : Time where
  hasMonotonic := false
  wallSec := 0
  wallNsec := (normalize seconds nanos).2
  ext := wrap64 ((normalize seconds nanos).1 + unixToInternal)
  wallSec_range := by decide
  wallNsec_range := by
    rw [(normalize_eq seconds nanos).2]
    exact ⟨Int.emod_nonneg _ (by decide), Int.emod_lt_of_pos _ (by decide)⟩
  ext_range := wrap64_range _

/-! ## Instants -/

/-- The nanoseconds since 1970. -/
def nanos (t : Time) : Int :=
  (t.sec - unixToInternal) * second + t.wallNsec

/-- Two times are compared by their wall clocks. -/
def ByWall (t u : Time) : Prop :=
  (t.hasMonotonic && u.hasMonotonic) = false

variable {t u : Time}

theorem after_iff (h : ByWall t u) : t.after u = true ↔ u.nanos < t.nanos := by
  have ht := t.wallNsec_range
  have hu := u.wallNsec_range
  unfold ByWall at h
  simp only [after, h, Bool.false_eq_true, if_false, Bool.or_eq_true, Bool.and_eq_true,
    decide_eq_true_eq, beq_iff_eq]
  unfold nanos
  unfold second at *
  omega

theorem before_iff (h : ByWall t u) : t.before u = true ↔ t.nanos < u.nanos := by
  have ht := t.wallNsec_range
  have hu := u.wallNsec_range
  unfold ByWall at h
  simp only [before, h, Bool.false_eq_true, if_false, Bool.or_eq_true, Bool.and_eq_true,
    decide_eq_true_eq, beq_iff_eq]
  unfold nanos
  unfold second at *
  omega

theorem equal_iff (h : ByWall t u) :
    t.equal u = true ↔ t.sec = u.sec ∧ t.wallNsec = u.wallNsec := by
  unfold ByWall at h
  simp [equal, h]

/-! ## Sums and differences -/

/-- Seconds stop at the ends of the range; the lower end is one short. -/
def addedSec (s d : Int) : Int :=
  if maxInt64 < s + d then maxInt64
  else if s + d < minInt64 then -maxInt64
  else s + d

theorem addExt_ext (t : Time) {d : Int} (h : minInt64 ≤ d ∧ d ≤ maxInt64) :
    (t.addExt d).ext = addedSec t.ext d := by
  have hext := t.ext_range
  unfold addExt addedSec
  dsimp only
  unfold wrap64 maxInt64 minInt64 at *
  split_ifs with h1 h2 h3 h4 h5 <;> simp only [beq_iff_eq, decide_eq_decide] at h1 <;> omega

/-- The seconds after adding seconds, whichever way they are stored. -/
theorem addSec_sec (t : Time) {d : Int} (h : -9223372038 ≤ d ∧ d ≤ 9223372038) :
    (t.addSec d).sec = addedSec t.sec d := by
  have hwide : minInt64 ≤ d ∧ d ≤ maxInt64 := by
    unfold minInt64 maxInt64
    omega
  by_cases hmono : t.hasMonotonic = true
  · by_cases hfits : 0 ≤ t.wallSec + d ∧ t.wallSec + d ≤ 8589934591
    · simp only [addSec, hmono, if_true, dif_pos hfits, sec, addedSec]
      unfold wallToInternal maxInt64 minInt64
      split_ifs <;> omega
    · have hstrip := addExt_ext t.stripMono hwide
      simp only [addSec, hmono, if_true, dif_neg hfits]
      exact hstrip
  · rw [Bool.not_eq_true] at hmono
    have hplain := addExt_ext t hwide
    simp only [addSec, hmono, Bool.false_eq_true, if_false]
    unfold sec
    simpa [addExt, hmono] using hplain

theorem addSec_wallNsec (t : Time) (d : Int) : (t.addSec d).wallNsec = t.wallNsec := by
  unfold addSec
  split
  · split <;> rfl
  · rfl

/-- Moving the monotonic reading changes neither clock nor calendar. -/
theorem addMono_wall (t : Time) (d : Int) :
    (t.addMono d).sec = t.sec ∧ (t.addMono d).wallNsec = t.wallNsec := by
  by_cases hmono : t.hasMonotonic = true
  · simp only [addMono, hmono, if_true]
    split
    · exact ⟨rfl, rfl⟩
    · simp [sec, hmono]
  · simp [addMono, hmono]

/-- What `Add` does to the wall clock. -/
theorem add_wall (t : Time) {d : Int} (h : minInt64 ≤ d ∧ d ≤ maxInt64) :
    (t.add d).sec = addedSec t.sec (carry t.wallNsec d).1 ∧
      (t.add d).wallNsec = (carry t.wallNsec d).2 := by
  have hcarry := carry_eq t.wallNsec d t.wallNsec_range
  have hbound : -9223372038 ≤ (carry t.wallNsec d).1 ∧ (carry t.wallNsec d).1 ≤ 9223372038 := by
    have hnsec := t.wallNsec_range
    unfold minInt64 maxInt64 at h
    unfold second at *
    omega
  unfold add
  rw [(addMono_wall _ d).1, (addMono_wall _ d).2, addSec_sec _ hbound, addSec_wallNsec]
  exact ⟨rfl, rfl⟩

theorem add_byWall (h : ByWall t u) (d : Int) : ByWall (u.add d) t := by
  unfold ByWall at *
  rw [Bool.and_eq_false_iff] at *
  rcases h with ht | hu
  · exact .inr ht
  · refine .inl ?_
    simp [add, addMono, addSec, addExt, hu]

/-- Adding a difference reduced to 64 bits reaches the other time only if nothing was
reduced: otherwise it is a multiple of 2^64 nanoseconds away, which is further than the
ends of the range could hide. -/
theorem addedSec_reaches {s s' n n' c : Int} (hs : minInt64 ≤ s ∧ s ≤ maxInt64)
    (hn : 0 ≤ n ∧ n < second) (hn' : 0 ≤ n' ∧ n' < second)
    (hcarry : c * second + n' = n + wrap64 ((s' - s) * second + (n' - n))) (h : addedSec s c = s') :
    wrap64 ((s' - s) * second + (n' - n)) = (s' - s) * second + (n' - n) := by
  have hrange := wrap64_range ((s' - s) * second + (n' - n))
  have hk : ∃ k : Int, wrap64 ((s' - s) * second + (n' - n)) =
      (s' - s) * second + (n' - n) - k * 18446744073709551616 := by
    refine ⟨((s' - s) * second + (n' - n) + 9223372036854775808) / 18446744073709551616, ?_⟩
    unfold wrap64
    omega
  rcases hk with ⟨k, hk⟩
  have hmissed : (s + c - s') * second = -k * 18446744073709551616 := by
    linarith
  have hc : -9223372038 ≤ c ∧ c ≤ 9223372038 := by
    unfold minInt64 maxInt64 at hrange
    unfold second at *
    omega
  have hsmall : -9223372039 ≤ s + c - s' ∧ s + c - s' ≤ 9223372039 := by
    unfold addedSec at h
    unfold minInt64 maxInt64 at *
    split_ifs at h <;> omega
  have hzero : k = 0 := by
    unfold second at hmissed
    apply le_antisymm
    · apply Int.lt_add_one_iff.mp
      linarith [hsmall.1]
    · apply Int.sub_one_lt_iff.mp
      linarith [hsmall.2]
  omega

/-- A difference by the wall clock is exact, or the nearest duration. -/
theorem sub_eq (h : ByWall t u) : t.sub u = clamp64 (t.nanos - u.nanos) := by
  have htn := t.wallNsec_range
  have hun := u.wallNsec_range
  have hts := t.sec_range
  have hus := u.sec_range
  -- The 64-bit computation yields the exact difference up to a multiple of 2^64.
  have hdiff : wrap64 (wrap64 (wrap64 (t.sec - u.sec) * second) + (t.wallNsec - u.wallNsec)) =
      wrap64 (t.nanos - u.nanos) := by
    unfold nanos wrap64 second
    omega
  have hrange := wrap64_range (t.nanos - u.nanos)
  have hadd := add_wall u hrange
  have hcarry := carry_eq u.wallNsec (wrap64 (t.nanos - u.nanos)) hun
  have hequal := equal_iff (add_byWall h (wrap64 (t.nanos - u.nanos)))
  have hbefore := before_iff h
  rw [hadd.1, hadd.2] at hequal
  unfold sub
  unfold ByWall at h
  simp only [h, Bool.false_eq_true, if_false, hdiff]
  generalize carry u.wallNsec (wrap64 (t.nanos - u.nanos)) = c at *
  by_cases hexact : minInt64 ≤ t.nanos - u.nanos ∧ t.nanos - u.nanos ≤ maxInt64
  · have hsame := wrap64_of_range hexact.1 hexact.2
    have hreached : addedSec u.sec c.1 = t.sec ∧ c.2 = t.wallNsec := by
      unfold nanos at *
      unfold addedSec
      unfold minInt64 maxInt64 second at *
      split_ifs <;> omega
    rw [if_pos (hequal.mpr hreached), hsame]
    unfold clamp64
    rw [if_neg (by omega), if_neg (by omega)]
  · have hmissed : ¬ (addedSec u.sec c.1 = t.sec ∧ c.2 = t.wallNsec) := by
      rintro ⟨hsec, hnsec⟩
      have hdiffer : t.nanos - u.nanos = (t.sec - u.sec) * second + (c.2 - u.wallNsec) := by
        unfold nanos
        rw [hnsec]
        ring
      rw [hdiffer] at hcarry hrange hexact
      rw [addedSec_reaches hus hun hcarry.2 hcarry.1 hsec] at hrange
      exact hexact hrange
    rw [if_neg (fun heq => hmissed (hequal.mp heq))]
    unfold clamp64
    by_cases hlow : t.nanos < u.nanos
    · rw [if_pos (hbefore.mpr hlow), if_pos (by unfold minInt64 maxInt64 at *; omega)]
    · rw [if_neg (fun hb => hlow (hbefore.mp hb)), if_neg (by unfold minInt64; omega),
        if_pos (by unfold minInt64 maxInt64 at *; omega)]

/-! ## Unix times -/

/-- The seconds of `time.Unix` fit the representation. -/
def UnixFits (seconds nanos : Int) : Prop :=
  (seconds * second + nanos) / second + unixToInternal ≤ maxInt64

instance (seconds nanos : Int) : Decidable (UnixFits seconds nanos) :=
  inferInstanceAs (Decidable (_ ≤ _))

theorem unix_sec (seconds nanos : Int) :
    (unix seconds nanos).sec = wrap64 ((seconds * second + nanos) / second + unixToInternal) := by
  have hnormal := (normalize_eq seconds nanos).1
  unfold unix sec
  dsimp only
  rw [if_neg Bool.false_ne_true]
  unfold wrap64 at *
  omega

/-- A time made from seconds and nanoseconds stands for their sum, or for the instant
2^64 seconds earlier. -/
theorem unix_nanos {seconds nanos : Int} (hs : minInt64 ≤ seconds ∧ seconds ≤ maxInt64)
    (hn : -2147483648 ≤ nanos ∧ nanos ≤ 2147483647) :
    (unix seconds nanos).nanos = seconds * second + nanos -
      if UnixFits seconds nanos then 0 else 18446744073709551616 * second := by
  unfold Time.nanos
  have hnsec : (unix seconds nanos).wallNsec = (seconds * second + nanos) % second :=
    (normalize_eq seconds nanos).2
  rw [unix_sec, hnsec]
  unfold UnixFits wrap64
  unfold minInt64 maxInt64 second unixToInternal at *
  split_ifs <;> omega

end Time

/-! ## Durations as text -/

/-- `fmtFrac`: the last `digits` decimal digits as a fraction, without
trailing zeros. -/
def fractionText (v digits : Nat) : String :=
  let padded := (List.range digits).reverse.map fun i => Nat.digitChar (v / 10 ^ i % 10)
  match (padded.reverse.dropWhile (· == '0')).reverse with
  | [] => ""
  | fraction => String.ofList ('.' :: fraction)

/-- `Duration.String`, of nanoseconds. -/
def durationText (d : Int) : String :=
  let u := d.natAbs
  let sign := if d < 0 then "-" else ""
  if u = 0 then "0s"
  else if u < 1000 then sign ++ toString u ++ "ns"
  else if u < 1000000 then sign ++ toString (u / 1000) ++ fractionText u 3 ++ "µs"
  else if u < 1000000000 then sign ++ toString (u / 1000000) ++ fractionText u 6 ++ "ms"
  else
    let seconds := u / 1000000000
    let minutes := seconds / 60
    let hours := minutes / 60
    sign ++ (if 0 < hours then toString hours ++ "h" else "") ++
      (if 0 < minutes then toString (minutes % 60) ++ "m" else "") ++
      toString (seconds % 60) ++ fractionText u 9 ++ "s"

example : durationText 900000000000 = "15m0s" := by decide

example : durationText (-1500000) = "-1.5ms" := by decide

end PowerManage.Go
