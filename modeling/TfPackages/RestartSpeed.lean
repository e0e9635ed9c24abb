import TfPackages.RestartIntake
import TfPackages.RestartTests

/-! # The rate that the speed test measures

`port_runTestSpeed` reads the counter `rx_bytes` of the port, a decimal number of
up to 64 bits, and divides the bits since the call before by the seconds since
then.  Three things are lost on the way.  `strtol` stops at `LONG_MAX`, the bits are
counted in 32 bits, so that 2^29 bytes count as none, and the first call takes the
counter itself for the bytes since `port_setSpeedParam`.

`rate_exact_iff` says which step between two readings is measured exactly,
`first_rate_iff` when the old bytes do not show in the rate of the first call, and
`measures_rates_iff` puts the two together for a series of readings.
-/
namespace TfPackages.Restart
open Scanf

/-! ## Reading the counter -/

/-- The size of a `long`. -/
inductive LongSize where
  | bits32
  | bits64
deriving DecidableEq, Repr

/-- `LONG_MAX`. -/
def LongSize.longMax : LongSize → Nat
  | .bits32 => 2 ^ 31 - 1
  | .bits64 => 2 ^ 63 - 1

/-- `strtol(str, NULL, 10)` for either size. -/
def strtolOf (long : LongSize) (str : List Char) : Int :=
  match scanInt str with
  | some (v, _) => max (-(long.longMax : Int) - 1) (min v long.longMax)
  | none => 0

/-- The counter `rx_bytes` of a port at some time. -/
structure CounterReading where
  counter : UInt64
  /-- `time(NULL)` -/
  now : Nat
deriving DecidableEq, Repr

/-- `rx_byte_current`: the number in the file, cut to an `int32_t`. -/
def rxByteCurrent (long : LongSize) (counter : UInt64) : UInt32 :=
  UInt32.ofInt (strtolOf long (output (Nat.toDigits 10 counter.toNat)))

/-- What `port_runTestSpeed` finds.  The link and the host do not matter to it. -/
def CounterReading.measure (long : LongSize) (r : CounterReading) : Measure where
  operstate := "up\n"
  ping := fun _ => (errOk, 0)
  rxBytes := rxByteCurrent long r.counter
  now := r.now

/-! ## A series of readings -/

/-- A port and the reading its last test has made. -/
structure Sampling where
  port : ParamPort
  last : CounterReading

/-- One call of `port_runTestSpeed`. -/
def sample (long : LongSize) (s : Sampling) (r : CounterReading) : Sampling :=
  ⟨portRunTestSpeed s.port (r.measure long), r⟩

/-- The average rate in kbit/s. -/
def kbitRate (bytes seconds : Nat) : Nat := 8 * bytes / seconds / 1000

/-- Two readings that follow each other: at most 59 s apart, on a link of up to
1 Gbit/s. -/
structure Follows (a b : CounterReading) : Prop where
  counter : a.counter ≤ b.counter
  now : a.now < b.now
  delay : b.now ≤ a.now + 59
  link : b.counter.toNat - a.counter.toNat ≤ 125000000 * (b.now - a.now)

instance (a b : CounterReading) : Decidable (Follows a b) :=
  decidable_of_iff (a.counter ≤ b.counter ∧ a.now < b.now ∧ b.now ≤ a.now + 59 ∧
      b.counter.toNat - a.counter.toNat ≤ 125000000 * (b.now - a.now))
    ⟨fun ⟨h1, h2, h3, h4⟩ => ⟨h1, h2, h3, h4⟩, fun ⟨h1, h2, h3, h4⟩ => ⟨h1, h2, h3, h4⟩⟩

/-- The readings from `port_setSpeedParam` on. -/
structure Series where
  /-- The counter and the time at `port_setSpeedParam`, which reads the time only. -/
  start : CounterReading
  first : CounterReading
  later : List CounterReading
  counter_le : start.counter ≤ first.counter
  now_le : start.now ≤ first.now
  follows : List.IsChain Follows (first :: later)

/-- The port after `port_setSpeedParam`. -/
def Series.setUp (s : Series) (clock : Clock) (line : PortTexts (List Char)) (p : ParamPort) :
    ParamPort :=
  portSetSpeedParam { clock with timePrev := UInt32.ofNat s.start.now } line p

/-- The call reports the average rate between the two readings. -/
def Exact (long : LongSize) (s : Sampling) (r : CounterReading) : Prop :=
  (sample long s r).port.rxSpeedKbit.toNat =
    kbitRate (r.counter.toNat - s.last.counter.toNat) (r.now - s.last.now)

/-- Every call after the first reports the average rate, and the first one reports
what it would report without the bytes received before. -/
structure MeasuresRates (long : LongSize) (port : ParamPort) (s : Series) : Prop where
  first : (portRunTestSpeed port (s.first.measure long)).rxSpeedKbit =
    (portRunTestSpeed port
      (CounterReading.measure long ⟨s.first.counter - s.start.counter, s.first.now⟩)).rxSpeedKbit
  later : Runs.Meets (sample long) (Exact long) (sample long ⟨port, s.start⟩ s.first) s.later

/-- The bytes by which a counter is past `LONG_MAX`. -/
def pastMax (long : LongSize) (r : CounterReading) : Nat := r.counter.toNat - long.longMax

/-- The bytes up to `LONG_MAX` are less than 4 Gbit, and those past it do not make
up a kbit/s. -/
structure CountedInFull (long : LongSize) (a b : CounterReading) : Prop where
  range : b.counter.toNat - a.counter.toNat - (pastMax long b - pastMax long a) < 2 ^ 29
  rate : kbitRate (b.counter.toNat - a.counter.toNat) (b.now - a.now) =
    kbitRate (b.counter.toNat - a.counter.toNat - (pastMax long b - pastMax long a))
      (b.now - a.now)

/-- What the first call counts of the bytes since `port_setSpeedParam`, in bits. -/
def newBits (long : LongSize) (a b : CounterReading) : Nat :=
  8 * min (b.counter.toNat - a.counter.toNat) long.longMax % 2 ^ 32

/-- What it counts besides, of the bytes received before. -/
def oldBits (long : LongSize) (a b : CounterReading) : Nat :=
  8 * (min b.counter.toNat long.longMax -
    min (b.counter.toNat - a.counter.toNat) long.longMax) % 2 ^ 32

/-- The bits that make up the unit of the rate.  The rate is not divided when no
second has passed. -/
def bitsPerUnit (a b : CounterReading) : Nat :=
  if (b.now - a.now) % 2 ^ 32 = 0 then 1 else (b.now - a.now) % 2 ^ 32 * 1000

/-- The old bits do not fill up the unit begun by the new ones, or they go round the
32 bits and back into it. -/
def OldBitsDropped (long : LongSize) (a b : CounterReading) : Prop :=
  if newBits long a b + oldBits long a b < 2 ^ 32 then
    newBits long a b % bitsPerUnit a b + oldBits long a b < bitsPerUnit a b
  else 2 ^ 32 ≤ newBits long a b % bitsPerUnit a b + oldBits long a b

/-! ## One step -/

/-- What is stored of the counter. -/
theorem toNat_rxByteCurrent (long : LongSize) (c : UInt64) :
    (rxByteCurrent long c).toNat = min c.toNat long.longMax % 2 ^ 32 := by
  have hdigits : Digits (Nat.toDigits 10 c.toNat) :=
    ⟨Nat.toDigits_ne_nil, fun d hd => Nat.isDigit_of_mem_toDigits (by decide) (by decide) hd⟩
  have hlength : (Nat.toDigits 10 c.toNat).length ≤ 63 := by
    rw [Nat.length_toDigits_le_iff (by decide) (by decide)]
    have hlt := c.toNat_lt
    omega
  have hvalue : decimal ((Nat.toDigits 10 c.toNat).take 63) = c.toNat := by
    rw [List.take_of_length_le hlength, decimal]
    simp
  obtain ⟨rest, hscan⟩ := scanInt_output hdigits
  rw [hvalue] at hscan
  have hstrtol : strtolOf long (output (Nat.toDigits 10 c.toNat)) =
      (min c.toNat long.longMax : Nat) := by
    rw [strtolOf, hscan]
    dsimp only
    omega
  rw [rxByteCurrent, hstrtol, UInt32.ofInt, UInt32.toNat_ofNat']
  omega

/-- What the rate comes to, in exact arithmetic. -/
theorem toNat_rxSpeedKbit (bytes seconds : UInt32) (h : seconds ≠ 0) :
    (rxSpeedKbit bytes seconds).toNat =
      8 * bytes.toNat % 2 ^ 32 / seconds.toNat / 1000 := by
  have hbits : (bytes * 8).toNat = 8 * bytes.toNat % 2 ^ 32 := by
    rw [UInt32.toNat_mul, Nat.mul_comm]
    rfl
  rw [rxSpeedKbit, if_neg h, UInt32.toNat_div, UInt32.toNat_div, hbits]
  rfl

/-- `delta_time` -/
theorem toNat_deltaTime {a b : Nat} (h : a ≤ b) :
    (UInt32.ofNat b - UInt32.ofNat a).toNat = (b - a) % 2 ^ 32 := by
  rw [UInt32.toNat_sub, UInt32.toNat_ofNat', UInt32.toNat_ofNat']
  omega

/-- A word of bits holds the rate exactly if it holds the bits. -/
theorem wrapped_rate_iff {counted bytes seconds : Nat} (hle : counted ≤ bytes) (hpos : 0 < seconds)
    (hdelay : seconds ≤ 59) :
    8 * counted % 2 ^ 32 / seconds / 1000 = kbitRate bytes seconds ↔
      counted < 2 ^ 29 ∧ kbitRate bytes seconds = kbitRate counted seconds := by
  by_cases hlt : counted < 2 ^ 29
  · have hfits : 8 * counted % 2 ^ 32 = 8 * counted := Nat.mod_eq_of_lt (by omega)
    rw [hfits]
    exact ⟨fun h => ⟨hlt, h.symm⟩, fun h => h.2.symm⟩
  · refine ⟨fun h => absurd h (Nat.ne_of_lt ?_), fun h => absurd h.1 hlt⟩
    -- 2^32 bits are more than 1 kbit/s over 59 s
    have hunit : 0 < seconds * 1000 := by omega
    have hmore : 8 * counted % 2 ^ 32 + seconds * 1000 ≤ 8 * bytes := by omega
    rw [kbitRate, Nat.div_div_eq_div_mul, Nat.div_div_eq_div_mul]
    calc 8 * counted % 2 ^ 32 / (seconds * 1000)
        < 8 * counted % 2 ^ 32 / (seconds * 1000) + 1 := Nat.lt_succ_self _
      _ = (8 * counted % 2 ^ 32 + seconds * 1000) / (seconds * 1000) :=
        (Nat.add_div_right _ hunit).symm
      _ ≤ 8 * bytes / (seconds * 1000) := Nat.div_le_div_right hmore

/-- What the port keeps of the last reading. -/
def Keeps (long : LongSize) (s : Sampling) : Prop :=
  s.port.rxBytePrev = rxByteCurrent long s.last.counter ∧
    s.port.timePrev = UInt32.ofNat s.last.now

theorem keeps_sample (long : LongSize) (s : Sampling) (r : CounterReading) :
    Keeps long (sample long s r) := ⟨rfl, rfl⟩

/-- **When one call reports the average rate.** -/
theorem rate_exact_iff {long : LongSize} {s : Sampling} {r : CounterReading} (hs : Keeps long s)
    (hr : Follows s.last r) : Exact long s r ↔ CountedInFull long s.last r := by
  obtain ⟨hbytes, htime⟩ := hs
  have hmono := UInt64.le_iff_toNat_le.mp hr.counter
  have hlater := hr.now
  have hdelay := hr.delay
  have hseconds : (UInt32.ofNat r.now - UInt32.ofNat s.last.now).toNat = r.now - s.last.now := by
    rw [toNat_deltaTime (by omega), Nat.mod_eq_of_lt (by omega)]
  have hne : UInt32.ofNat r.now - UInt32.ofNat s.last.now ≠ 0 := by
    intro h
    rw [h] at hseconds
    have hzero : (0 : UInt32).toNat = 0 := rfl
    omega
  have hdelta : 8 * (rxByteCurrent long r.counter - rxByteCurrent long s.last.counter).toNat
        % 2 ^ 32 =
      8 * (r.counter.toNat - s.last.counter.toNat - (pastMax long r - pastMax long s.last))
        % 2 ^ 32 := by
    rw [UInt32.toNat_sub, toNat_rxByteCurrent, toNat_rxByteCurrent, pastMax, pastMax]
    omega
  have hspeed : (sample long s r).port.rxSpeedKbit =
      rxSpeedKbit (rxByteCurrent long r.counter - rxByteCurrent long s.last.counter)
        (UInt32.ofNat r.now - UInt32.ofNat s.last.now) := by
    rw [← hbytes, ← htime]
    rfl
  rw [Exact, hspeed, toNat_rxSpeedKbit _ _ hne, hseconds, hdelta,
    wrapped_rate_iff (Nat.sub_le _ _) (by omega) (by omega)]
  exact ⟨fun h => ⟨h.1, h.2⟩, fun h => ⟨h.1, h.2⟩⟩

/-! ## The first call -/

theorem bitsPerUnit_pos (a b : CounterReading) : 0 < bitsPerUnit a b := by
  unfold bitsPerUnit
  split <;> omega

/-- A sum within a modulus has the quotient of its first part. -/
theorem wrapped_add_div_iff {new old unit modulus : Nat} (hunit : 0 < unit)
    (hnew : new < modulus) (hold : old < modulus) :
    (new + old) % modulus / unit = new / unit ↔
      if new + old < modulus then new % unit + old < unit else modulus ≤ new % unit + old := by
  have hsplit := Nat.div_add_mod new unit
  have hrest := Nat.mod_lt new hunit
  rw [Nat.div_eq_iff hunit, Nat.mul_comm (new / unit) unit]
  split
  case isTrue hfits =>
    rw [Nat.mod_eq_of_lt hfits]
    omega
  case isFalse hround =>
    have hmod : (new + old) % modulus = new + old - modulus := by
      rw [Nat.mod_eq_sub_mod (by omega), Nat.mod_eq_of_lt (by omega)]
    rw [hmod]
    omega

/-- What the first call reports when the counter reads `c`. -/
theorem first_rate (long : LongSize) (clock : Clock) (line : PortTexts (List Char))
    (p : ParamPort) (s : Series) (c : UInt64) :
    (portRunTestSpeed (s.setUp clock line p)
        (CounterReading.measure long ⟨c, s.first.now⟩)).rxSpeedKbit.toNat =
      8 * min c.toNat long.longMax % 2 ^ 32 / bitsPerUnit s.start s.first := by
  have hspeed : (portRunTestSpeed (s.setUp clock line p)
      (CounterReading.measure long ⟨c, s.first.now⟩)).rxSpeedKbit =
        rxSpeedKbit (rxByteCurrent long c - 0)
          (UInt32.ofNat s.first.now - UInt32.ofNat s.start.now) := rfl
  have hbits : 8 * (rxByteCurrent long c - 0).toNat % 2 ^ 32 =
      8 * min c.toNat long.longMax % 2 ^ 32 := by
    rw [UInt32.sub_zero, toNat_rxByteCurrent]
    omega
  rw [hspeed, bitsPerUnit, ← toNat_deltaTime s.now_le]
  by_cases hzero : UInt32.ofNat s.first.now - UInt32.ofNat s.start.now = 0
  · rw [rxSpeedKbit, if_pos hzero, hzero, if_pos UInt32.toNat_zero, Nat.div_one, ← hbits,
      UInt32.toNat_mul, Nat.mul_comm]
    rfl
  · have hpos : ¬ (UInt32.ofNat s.first.now - UInt32.ofNat s.start.now).toNat = 0 :=
      fun h => hzero (UInt32.toNat_inj.mp h)
    rw [toNat_rxSpeedKbit _ _ hzero, if_neg hpos, hbits, Nat.div_div_eq_div_mul]

/-- **When the old bytes do not show in the first rate.** -/
theorem first_rate_iff (long : LongSize) (clock : Clock) (line : PortTexts (List Char))
    (p : ParamPort) (s : Series) :
    (portRunTestSpeed (s.setUp clock line p) (s.first.measure long)).rxSpeedKbit =
        (portRunTestSpeed (s.setUp clock line p) (CounterReading.measure long
          ⟨s.first.counter - s.start.counter, s.first.now⟩)).rxSpeedKbit ↔
      OldBitsDropped long s.start s.first := by
  have hcounter : (s.first.counter - s.start.counter).toNat =
      s.first.counter.toNat - s.start.counter.toNat := UInt64.toNat_sub_of_le _ _ s.counter_le
  have hsum : 8 * min s.first.counter.toNat long.longMax % 2 ^ 32 =
      (newBits long s.start s.first + oldBits long s.start s.first) % 2 ^ 32 := by
    rw [newBits, oldBits]
    omega
  rw [← UInt32.toNat_inj, first_rate, first_rate, hcounter, hsum, ← newBits]
  exact wrapped_add_div_iff (bitsPerUnit_pos _ _) (Nat.mod_lt _ (by decide))
    (Nat.mod_lt _ (by decide))

/-! ## Every call of a series -/

theorem meets_exact_iff {long : LongSize} {s : Sampling} {rs : List CounterReading}
    (hs : Keeps long s) (hrs : List.IsChain Follows (s.last :: rs)) :
    Runs.Meets (sample long) (Exact long) s rs ↔
      List.IsChain (CountedInFull long) (s.last :: rs) := by
  induction rs generalizing s with
  | nil => exact ⟨fun _ => .singleton _, fun _ => trivial⟩
  | cons r rs ih =>
    obtain ⟨hr, hrest⟩ := List.isChain_cons_cons.mp hrs
    rw [Runs.Meets, rate_exact_iff hs hr, List.isChain_cons_cons,
      ih (keeps_sample long s r) hrest]
    rfl

/-- **The rates of a series.**  The later ones are the average rates exactly if no
bits are lost between two readings, and the first one leaves the old bytes out
exactly if rounding drops them. -/
theorem measures_rates_iff (long : LongSize) (clock : Clock) (line : PortTexts (List Char))
    (p : ParamPort) (s : Series) :
    MeasuresRates long (s.setUp clock line p) s ↔
      OldBitsDropped long s.start s.first ∧
        List.IsChain (CountedInFull long) (s.first :: s.later) := by
  have hfirst := first_rate_iff long clock line p s
  have hlater := meets_exact_iff
    (keeps_sample long ⟨s.setUp clock line p, s.start⟩ s.first) s.follows
  exact ⟨fun h => ⟨hfirst.mp h.first, hlater.mp h.later⟩,
    fun h => ⟨hfirst.mpr h.1, hlater.mpr h.2⟩⟩

/-- A port of a device whose clock has just been set, with an empty configuration. -/
def freshPort (s : Series) : ParamPort :=
  s.setUp ⟨0, 0, fun _ _ _ => 0, id⟩ ⟨[], [], [], [], [], []⟩ (paramPortInit 1)

/-- 4 Gbit in five seconds. -/
def fourGigabit : Series where
  start := ⟨0, 0⟩
  first := ⟨0, 1⟩
  later := [⟨0x20000000, 6⟩]
  counter_le := by decide
  now_le := by decide
  follows := .cons_cons (by decide) (.singleton _)

/-- A port that has received 1 Mbit before the test is set up, and nothing since. -/
def usedPort : Series where
  start := ⟨125000, 0⟩
  first := ⟨125000, 1⟩
  later := []
  counter_le := by decide
  now_le := by decide
  follows := .singleton _

/-- 4 Gbit are reported as no traffic, and old traffic as new. -/
theorem rates_misreported :
    ¬ MeasuresRates .bits64 (freshPort fourGigabit) fourGigabit ∧
      ¬ MeasuresRates .bits64 (freshPort usedPort) usedPort := by
  refine ⟨fun h => ?_, fun h => ?_⟩
  · have hkeeps : Keeps .bits64 (sample .bits64 ⟨freshPort fourGigabit, ⟨0, 0⟩⟩ ⟨0, 1⟩) :=
      keeps_sample ..
    have hstep := (rate_exact_iff hkeeps (by decide)).mp h.later.1
    exact absurd hstep.range (by decide)
  · exact absurd h.first (by decide)

end TfPackages.Restart
