import Mathlib.Algebra.Order.Field.Rat
import Mathlib.Tactic.FieldSimp
import Mathlib.Tactic.Linarith
import PowerManage.Sign.Separation

/-!
# Freshness of accepted commands

`VerifyCommand` compares Go time values that it makes from the covered protobuf
timestamps.  `AsTime` wraps around for seconds near the end of the 64-bit range:
such a timestamp reads as an instant 2^64 seconds earlier.  Up to that the checks are
exact, also where a difference saturates.

Main results:

- `verifyCommand_ok`: what an accepted command has passed, in nanoseconds of
  the time values.
- `verifyCommand_fresh_iff`: an accepted command is fresh in exact time just
  when its issue time does not wrap around, and its expiry neither or no window is
  bounded.
-/

namespace PowerManage.Sign

open Go Relational Wire

/-! ## Exact instants -/

/-- The nanoseconds since 1970 that a timestamp writes down. -/
def Timestamp.exactNanos (t : Timestamp) : Int :=
  t.seconds.toInt * second + t.nanos.toInt

/-- The instant that a timestamp writes down, in seconds. -/
def Timestamp.instant (t : Timestamp) : ℚ :=
  t.seconds.toInt + t.nanos.toInt / 1000000000

/-- The instant of a time value, in seconds. -/
def timeInstant (t : Time) : ℚ :=
  (t.sec - unixToInternal : Int) + t.wallNsec / 1000000000

/-- The timestamp does not fit Go's representation: `AsTime` wraps around. -/
def Timestamp.Wraps (t : Timestamp) : Prop :=
  maxInt64 < t.exactNanos / second + unixToInternal

instance (t : Timestamp) : Decidable t.Wraps :=
  inferInstanceAs (Decidable (_ < _))

/-- What the checks on an accepted command stand for, in exact time. -/
structure Fresh (cmd : SignedCommand) (opts : VerifyOptions) (issued expires : Timestamp)
    (payload : Bytes) : Prop where
  ordered : issued.instant ≤ expires.instant
  /-- Issued at most five minutes ahead. -/
  issuedInTime : issued.instant ≤ timeInstant opts.now + 300
  unexpired : timeInstant opts.now ≤ expires.instant
  /-- Fifteen minutes for an instant command. -/
  instantWindow : opts.instant = true → expires.instant - issued.instant ≤ 900
  terminalWindow : cmd.commandType = terminalGrantType → expires.instant - issued.instant ≤ 60
  addressed : cmd.targetDeviceID = opts.deviceID
  covered : payload = cmd.payload.bytes

theorem Timestamp.instant_eq (t : Timestamp) : t.instant = t.exactNanos / 1000000000 := by
  unfold Timestamp.instant exactNanos second
  push_cast
  field_simp

theorem timeInstant_eq (t : Time) : timeInstant t = t.nanos / 1000000000 := by
  unfold timeInstant Time.nanos second
  push_cast
  field_simp

/-- Instants compare as their nanoseconds do. -/
theorem nanos_le_iff (a b c : Int) :
    (a : ℚ) / 1000000000 ≤ b / 1000000000 + c ↔ a ≤ b + c * second := by
  have hscale : (b : ℚ) / 1000000000 + c = ((b + c * second : Int) : ℚ) / 1000000000 := by
    unfold second
    push_cast
    field_simp
  rw [hscale, div_le_div_iff_of_pos_right (by norm_num), Int.cast_le]

variable {opts : VerifyOptions}

theorem fresh_iff {cmd : SignedCommand} {issued expires : Timestamp} {payload : Bytes} :
    Fresh cmd opts issued expires payload ↔
      issued.exactNanos ≤ expires.exactNanos ∧
      issued.exactNanos ≤ opts.now.nanos + maxFutureClockSkew ∧
      opts.now.nanos ≤ expires.exactNanos ∧
      (opts.instant = true → expires.exactNanos - issued.exactNanos ≤ maxInstantWindow) ∧
      (cmd.commandType = terminalGrantType →
        expires.exactNanos - issued.exactNanos ≤ maxTerminalGrantWindow) ∧
      cmd.targetDeviceID = opts.deviceID ∧ payload = cmd.payload.bytes := by
  have hordered := nanos_le_iff issued.exactNanos expires.exactNanos 0
  have hissued := nanos_le_iff issued.exactNanos opts.now.nanos 300
  have hunexpired := nanos_le_iff opts.now.nanos expires.exactNanos 0
  have hinstant := nanos_le_iff expires.exactNanos issued.exactNanos 900
  have hterminal := nanos_le_iff expires.exactNanos issued.exactNanos 60
  rw [← Timestamp.instant_eq, ← Timestamp.instant_eq] at hordered hinstant hterminal
  rw [← Timestamp.instant_eq, ← timeInstant_eq] at hissued hunexpired
  push_cast at hordered hissued hunexpired hinstant hterminal
  rw [add_zero, zero_mul, add_zero] at hordered hunexpired
  rw [add_comm, ← sub_le_iff_le_add] at hinstant hterminal
  have hwindows : ∀ w : Int, expires.exactNanos ≤ issued.exactNanos + w ↔
      expires.exactNanos - issued.exactNanos ≤ w := by
    intro w
    omega
  rw [hwindows] at hinstant hterminal
  unfold maxFutureClockSkew maxInstantWindow maxTerminalGrantWindow
  constructor
  · intro h
    exact ⟨hordered.mp h.ordered, hissued.mp h.issuedInTime, hunexpired.mp h.unexpired,
      fun hi => hinstant.mp (h.instantWindow hi), fun ht => hterminal.mp (h.terminalWindow ht),
      h.addressed, h.covered⟩
  · rintro ⟨h1, h2, h3, h4, h5, h6, h7⟩
    exact ⟨hordered.mpr h1, hissued.mpr h2, hunexpired.mpr h3, fun hi => hinstant.mpr (h4 hi),
      fun ht => hterminal.mpr (h5 ht), h6, h7⟩

/-! ## What the verifier checks -/

/-- A bound inside the range of durations is not affected by saturation. -/
theorem lt_clamp64_iff {a n : Int} (hlow : minInt64 ≤ a) (hhigh : a < maxInt64) :
    a < clamp64 n ↔ a < n := by
  unfold clamp64
  split_ifs <;> omega

/-- The time checks, in nanoseconds of the time values. -/
theorem checkFreshness_ok {commandType : String} {issued expires : Time}
    (hissued : ∀ u, Time.ByWall issued u) (hexpires : ∀ u, Time.ByWall expires u)
    (h : checkFreshness commandType issued expires opts = .ok ()) :
    issued.nanos ≤ expires.nanos ∧ issued.nanos ≤ opts.now.nanos + maxFutureClockSkew ∧
      opts.now.nanos ≤ expires.nanos ∧
      (opts.instant = true → expires.nanos - issued.nanos ≤ maxInstantWindow) ∧
      (commandType = terminalGrantType →
        expires.nanos - issued.nanos ≤ maxTerminalGrantWindow) := by
  simp only [checkFreshness, ite_error_eq_ok, Time.after_iff (hissued _),
    Time.before_iff (hexpires _), Time.sub_eq (hissued _), Time.sub_eq (hexpires _),
    lt_clamp64_iff (a := maxFutureClockSkew) (by decide) (by decide),
    lt_clamp64_iff (a := maxInstantWindow) (by decide) (by decide),
    lt_clamp64_iff (a := maxTerminalGrantWindow) (by decide) (by decide)] at h
  rcases h with ⟨hordered, hskew, hunexpired, hinstant, hterminal, -⟩
  refine ⟨by omega, ?_, by omega, ?_, ?_⟩
  · by_contra hlate
    have hpositive : (0 : Int) < maxFutureClockSkew := by decide
    exact hskew ⟨by omega, by omega⟩
  · intro hi
    by_contra hlong
    exact hinstant ⟨hi, by omega⟩
  · intro ht
    by_contra hlong
    exact hterminal ⟨ht, by omega⟩

/-- The time value of a timestamp, exact unless it wraps around. -/
theorem asTime_nanos (t : Timestamp) :
    (asTime (some t)).nanos =
      t.exactNanos - if t.Wraps then 18446744073709551616 * second else 0 := by
  have hlow := Int64.le_toInt t.seconds
  have hhigh := Int64.toInt_lt t.seconds
  have hlow' := Int32.le_toInt t.nanos
  have hhigh' := Int32.toInt_lt t.nanos
  have hseconds : minInt64 ≤ t.seconds.toInt ∧ t.seconds.toInt ≤ maxInt64 := by
    unfold minInt64 maxInt64
    omega
  have hunix := Time.unix_nanos hseconds
    (show -2147483648 ≤ t.nanos.toInt ∧ t.nanos.toInt ≤ 2147483647 by omega)
  have hfits : Time.UnixFits t.seconds.toInt t.nanos.toInt ↔ ¬ t.Wraps := by
    unfold Time.UnixFits Timestamp.Wraps Timestamp.exactNanos
    omega
  rw [asTime, hunix]
  by_cases hwraps : t.Wraps
  · rw [if_neg (fun h => hfits.mp h hwraps), if_pos hwraps]
    rfl
  · rw [if_pos (hfits.mpr hwraps), if_neg hwraps]
    rfl

theorem byWall_asTime (t : Timestamp) (u : Time) : Time.ByWall (asTime (some t)) u :=
  rfl

/-- What an accepted command has passed. -/
theorem verifyCommand_ok {x : Crypto} {publicKey : Key} {cmd : SignedCommand}
    {payload : Bytes} (h : verifyCommand x publicKey cmd opts = .ok payload) :
    ∃ issued expires, cmd.issuedAt = some issued ∧ cmd.expiresAt = some expires ∧
      cmd.targetDeviceID = opts.deviceID ∧ payload = cmd.payload.bytes ∧
      checkFreshness cmd.commandType (asTime (some issued)) (asTime (some expires)) opts =
        .ok () := by
  simp only [verifyCommand, ite_error_eq_ok, bind_eq_ok, not_not] at h
  rcases h with ⟨-, _, -, preimage, hpreimage, haddressed, _, -, _, hfresh, hreturn⟩
  rcases commandPreimage_ok hpreimage with ⟨domain, issued, expires, -, hissued, hexpires, -⟩
  rw [hissued, hexpires] at hfresh
  exact ⟨issued, expires, hissued, hexpires, haddressed, (Except.ok.inj hreturn).symm, hfresh⟩

/-! ## Exactness -/

/-- The timestamps that wrap around are the late ones. -/
theorem Timestamp.wraps_iff (t : Timestamp) :
    t.Wraps ↔ 9223371974719179008 * second ≤ t.exactNanos := by
  unfold Timestamp.Wraps maxInt64 unixToInternal second
  omega

theorem Timestamp.exactNanos_range (t : Timestamp) :
    -9223372036854775811 * second ≤ t.exactNanos ∧
      t.exactNanos ≤ 9223372036854775811 * second := by
  have hseconds := Int64.le_toInt t.seconds
  have hseconds' := Int64.toInt_lt t.seconds
  have hnanos := Int32.le_toInt t.nanos
  have hnanos' := Int32.toInt_lt t.nanos
  unfold Timestamp.exactNanos second
  omega

theorem nanos_lt (t : Time) : t.nanos < 9223371974719179008 * second := by
  have hsec := t.sec_range
  have hnsec := t.wallNsec_range
  unfold Time.nanos
  unfold maxInt64 unixToInternal second at *
  omega

/-- An accepted command is fresh in exact time if and only if its issue time does not wrap
around, and neither does its expiry where a window is bounded. -/
theorem verifyCommand_fresh_iff {x : Crypto} {publicKey : Key} {cmd : SignedCommand}
    {opts : VerifyOptions} {payload : Bytes}
    (h : verifyCommand x publicKey cmd opts = .ok payload) :
    ∃ issued expires, cmd.issuedAt = some issued ∧ cmd.expiresAt = some expires ∧
      (Fresh cmd opts issued expires payload ↔
        ¬ issued.Wraps ∧ (opts.instant = true ∨ cmd.commandType = terminalGrantType →
          ¬ expires.Wraps)) := by
  rcases verifyCommand_ok h with
    ⟨issued, expires, hissued, hexpires, haddressed, hpayload, hchecks⟩
  refine ⟨issued, expires, hissued, hexpires, ?_⟩
  have hpassed := checkFreshness_ok (byWall_asTime _) (byWall_asTime _) hchecks
  rw [asTime_nanos, asTime_nanos] at hpassed
  have hnow := nanos_lt opts.now
  have hissuedRange := issued.exactNanos_range
  have hexpiresRange := expires.exactNanos_range
  have hissuedWraps := issued.wraps_iff
  have hexpiresWraps := expires.wraps_iff
  rw [fresh_iff]
  by_cases hwi : issued.Wraps
  · -- The issue time lies beyond every expiry that does not wrap, and beyond now.
    have hlate := hissuedWraps.mp hwi
    rw [if_pos hwi] at hpassed
    constructor
    · rintro ⟨hordered, hskew, -⟩
      have hskewBound : maxFutureClockSkew ≤ 300 * second := le_rfl
      by_cases hwe : expires.Wraps
      · rw [if_pos hwe] at hpassed
        unfold second at *
        omega
      · have hearly := mt hexpiresWraps.mpr hwe
        omega
    · exact fun hcondition => absurd hwi hcondition.1
  · rw [if_neg hwi, sub_zero] at hpassed
    by_cases hwe : expires.Wraps
    · -- The expiry read as a time of the far past bounds the issue time by it, so only the
      -- two windows are wrong.
      have hlate := hexpiresWraps.mp hwe
      rw [if_pos hwe] at hpassed
      rcases hpassed with ⟨hordered, hskew, hunexpired, -⟩
      have hwindow : ∀ w, w ≤ 900 * second → ¬ expires.exactNanos - issued.exactNanos ≤ w := by
        intro w hw
        unfold second at *
        omega
      constructor
      · rintro ⟨-, -, -, hinstant, hterminal, -⟩
        refine ⟨hwi, ?_⟩
        rintro (hi | ht)
        · exact absurd (hinstant hi) (hwindow _ le_rfl)
        · exact absurd (hterminal ht) (hwindow _ (by decide))
      · rintro ⟨-, hbounded⟩
        have hunbounded := fun hcase => hbounded hcase hwe
        refine ⟨?_, hskew, ?_, fun hi => absurd (.inl hi) hunbounded,
          fun ht => absurd (.inr ht) hunbounded, haddressed, hpayload⟩
        · unfold second at *
          omega
        · unfold second at *
          omega
    · rw [if_neg hwe, sub_zero] at hpassed
      rcases hpassed with ⟨hordered, hskew, hunexpired, hinstant, hterminal⟩
      exact ⟨fun _ => ⟨hwi, fun _ => hwe⟩, fun _ => ⟨hordered, hskew, hunexpired, hinstant,
        hterminal, haddressed, hpayload⟩⟩

/-- The sample command, accepted and fresh. -/
theorem verifyCommand_fresh_sample :
    verifyCommand sampleCrypto samplePublicKey
        { sampleCommand with signature := sampleSignature } sampleOptions = .ok [1, 2, 3] ∧
      Fresh { sampleCommand with signature := sampleSignature } sampleOptions ⟨1000, 0⟩ ⟨1060, 0⟩
        [1, 2, 3] := by
  have haccepted : verifyCommand sampleCrypto samplePublicKey
      { sampleCommand with signature := sampleSignature } sampleOptions = .ok [1, 2, 3] := rfl
  refine ⟨haccepted, ?_⟩
  rcases verifyCommand_fresh_iff haccepted with ⟨issued, expires, hissued, hexpires, hiff⟩
  cases hissued
  cases hexpires
  exact hiff.mpr (by decide)

/-- The sample command with the last second that the wire format can write as its issue
time, signed. -/
def lateCommand : SignedCommand :=
  { sampleCommand with
      issuedAt := some ⟨9223372036854775807, 0⟩
      signature := frames (commandFields actionSignatureDomain sampleCommand
        ⟨9223372036854775807, 0⟩ ⟨1060, 0⟩) }

/-- A command that is issued 292 billion years ahead, after it has expired, is accepted. -/
theorem lateCommand_accepted :
    signCommand sampleCrypto samplePublicKey [] { lateCommand with signature := [] } =
        .ok lateCommand ∧
      verifyCommand sampleCrypto samplePublicKey lateCommand
        { sampleOptions with instant := false } = .ok [1, 2, 3] ∧
      ¬ Fresh lateCommand { sampleOptions with instant := false } ⟨9223372036854775807, 0⟩
        ⟨1060, 0⟩ [1, 2, 3] := by
  refine ⟨rfl, rfl, ?_⟩
  intro hfresh
  have hordered := (fresh_iff.mp hfresh).1
  exact absurd hordered (by decide)

end PowerManage.Sign
