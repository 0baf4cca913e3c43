import KerberizedMikey.CLib.Timespec
import KerberizedMikey.CLib.Decimal

/-!
# Latency of a request

The programs subtract two time stamps with a copy of `diff`, and the two clients append
the difference in milliseconds to a log.  `diff` borrows `LONG_MAX` where a second is
10^9 nanoseconds, and the clients multiply seconds in 32 bits:

    diff start stop exact       ↔  start.tv_nsec ≤ stop.tv_nsec          (diff_exact_iff)
    the logged number is right  ↔  tv_sec ≤ 2                            (logged_right_iff)
-/

namespace KerberizedMikey

open CLib

/-! ## diff -/

/-- The body of `diff`; `borrow` is added to a negative `tv_nsec`. -/
def diffWith (borrow : Int64) (start stop : Timespec) : Option Timespec :=
  if stop.tvNsec < start.tvNsec then do
    let sec ← long (stop.tvSec.toInt - start.tvSec.toInt)
    let tvSec ← long (sec.toInt - 1)
    let nsec ← long (stop.tvNsec.toInt - start.tvNsec.toInt)
    let tvNsec ← long (borrow.toInt + nsec.toInt)
    return ⟨tvSec, tvNsec⟩
  else do
    let tvSec ← long (stop.tvSec.toInt - start.tvSec.toInt)
    let tvNsec ← long (stop.tvNsec.toInt - start.tvNsec.toInt)
    return ⟨tvSec, tvNsec⟩

/-- `LONG_MAX`. -/
def longMax : Int64 := Int64.maxValue

/-- The programs with a `diff` of their own. -/
inductive TimedProgram
  | sclient
  | sclient2
  | gcks1
  | gcks2

/-- `diff`, the same text in each program. -/
def TimedProgram.diff : TimedProgram → Timespec → Timespec → Option Timespec
  | .sclient => diffWith longMax
  | .sclient2 => diffWith longMax
  | .gcks1 => diffWith longMax
  | .gcks2 => diffWith longMax

theorem TimedProgram.diff_eq (p : TimedProgram) : p.diff = diffWith longMax := by
  cases p <;> rfl

section
variable (borrow : Int64) {start stop : Timespec}

theorem diffWith_of_le (hs : start.Valid) (he : stop.Valid) (hle : start.nanos ≤ stop.nanos)
    (hsec : stop.tvSec.toInt - start.tvSec.toInt ≤ 10 ^ 6)
    (h : start.tvNsec.toInt ≤ stop.tvNsec.toInt) :
    ∃ t, diffWith borrow start stop = some t ∧
      t.tvSec.toInt = stop.tvSec.toInt - start.tvSec.toInt ∧
      t.tvNsec.toInt = stop.tvNsec.toInt - start.tvNsec.toInt := by
  have h0 := Timespec.tvSec_le hs he hle
  have := hs.nonneg
  have := he.lt
  obtain ⟨s, hs1, hs2⟩ := long_of_small (z := stop.tvSec.toInt - start.tvSec.toInt)
    (by omega) (by omega)
  obtain ⟨n, hn1, hn2⟩ := long_of_small (z := stop.tvNsec.toInt - start.tvNsec.toInt)
    (by omega) (by omega)
  refine ⟨⟨s, n⟩, ?_, hs2, hn2⟩
  rw [diffWith, if_neg (by rw [Int64.lt_iff_toInt_lt]; omega), hs1, hn1]
  rfl

theorem diffWith_of_gt (hb : 0 ≤ borrow.toInt) (hs : start.Valid) (he : stop.Valid)
    (hle : start.nanos ≤ stop.nanos) (hsec : stop.tvSec.toInt - start.tvSec.toInt ≤ 10 ^ 6)
    (h : stop.tvNsec.toInt < start.tvNsec.toInt) :
    ∃ t, diffWith borrow start stop = some t ∧
      t.tvSec.toInt = stop.tvSec.toInt - start.tvSec.toInt - 1 ∧
      t.tvNsec.toInt = borrow.toInt + (stop.tvNsec.toInt - start.tvNsec.toInt) := by
  have h0 := Timespec.tvSec_lt hle h
  have := he.nonneg
  have := hs.lt
  have := borrow.toInt_lt
  obtain ⟨s, hs1, hs2⟩ := long_of_small (z := stop.tvSec.toInt - start.tvSec.toInt)
    (by omega) (by omega)
  obtain ⟨s', hs1', hs2'⟩ := long_of_small (z := s.toInt - 1) (by omega) (by omega)
  obtain ⟨n, hn1, hn2⟩ := long_of_small (z := stop.tvNsec.toInt - start.tvNsec.toInt)
    (by omega) (by omega)
  obtain ⟨n', hn1', hn2'⟩ := long_of_range (z := borrow.toInt + n.toInt) (by omega) (by omega)
  refine ⟨⟨s', n'⟩, ?_, by rw [hs2', hs2], by rw [hn2', hn2]⟩
  rw [diffWith, if_pos (Int64.lt_iff_toInt_lt.mpr h), hs1]
  simp only [bind, Option.bind, hs1', hn1, hn1', pure]

/-- The difference, normalised. -/
def ExactDiff (d : Option Timespec) (start stop : Timespec) : Prop :=
  ∃ t, d = some t ∧ t.Valid ∧ t.nanos = stop.nanos - start.nanos

/-- **What to borrow.**  A second, or nothing has to be borrowed. -/
theorem diffWith_exact_iff (hb : 0 ≤ borrow.toInt) (hs : start.Valid) (he : stop.Valid)
    (hle : start.nanos ≤ stop.nanos) (hsec : stop.tvSec.toInt - start.tvSec.toInt ≤ 10 ^ 6) :
    ExactDiff (diffWith borrow start stop) start stop ↔
      start.tvNsec.toInt ≤ stop.tvNsec.toInt ∨ borrow.toInt = 10 ^ 9 := by
  have := hs.nonneg
  have := hs.lt
  have := he.nonneg
  have := he.lt
  rcases Int.lt_or_le stop.tvNsec.toInt start.tvNsec.toInt with h | h
  · obtain ⟨t, ht, hsec', hnsec⟩ := diffWith_of_gt borrow hb hs he hle hsec h
    rw [ht]
    constructor
    · rintro ⟨u, hu, -, hn⟩
      cases hu
      unfold Timespec.nanos at hn
      omega
    · intro hor
      refine ⟨t, rfl, ⟨by omega, by omega⟩, ?_⟩
      unfold Timespec.nanos
      omega
  · obtain ⟨t, ht, hsec', hnsec⟩ := diffWith_of_le borrow hs he hle hsec h
    rw [ht]
    refine iff_of_true ⟨t, rfl, ⟨by omega, by omega⟩, ?_⟩ (.inl h)
    unfold Timespec.nanos
    omega

/-- **When `diff` is exact**, in each program: when it does not borrow.  It never overflows. -/
theorem diff_exact_iff (p : TimedProgram) (hs : start.Valid) (he : stop.Valid)
    (hle : start.nanos ≤ stop.nanos) (hsec : stop.tvSec.toInt - start.tvSec.toInt ≤ 10 ^ 6) :
    (p.diff start stop).isSome ∧
    (ExactDiff (p.diff start stop) start stop ↔ start.tvNsec.toInt ≤ stop.tvNsec.toInt) := by
  have hmax : longMax.toInt = 2 ^ 63 - 1 := by decide
  rw [p.diff_eq]
  constructor
  · rcases Int.lt_or_le stop.tvNsec.toInt start.tvNsec.toInt with h | h
    · obtain ⟨t, ht, -⟩ := diffWith_of_gt longMax (by omega) hs he hle hsec h
      rw [ht]
      rfl
    · obtain ⟨t, ht, -⟩ := diffWith_of_le longMax hs he hle hsec h
      rw [ht]
      rfl
  · rw [diffWith_exact_iff longMax (by omega) hs he hle hsec]
    omega

end

/-- Half a second after a time stamp. -/
theorem diff_exact_half :
    ExactDiff (TimedProgram.diff .sclient ⟨7, 100000000⟩ ⟨7, 600000000⟩) ⟨7, 100000000⟩
      ⟨7, 600000000⟩ :=
  (diff_exact_iff .sclient ⟨by decide, by decide⟩ ⟨by decide, by decide⟩ (by decide)
    (by decide)).2.mpr (by decide)

/-- The same half second across a full one. -/
theorem diff_borrowed :
    (TimedProgram.diff .sclient ⟨7, 700000000⟩ ⟨8, 200000000⟩) =
      some ⟨0, 9223372036354775807⟩ ∧
    ¬ExactDiff (TimedProgram.diff .sclient ⟨7, 700000000⟩ ⟨8, 200000000⟩) ⟨7, 700000000⟩
      ⟨8, 200000000⟩ := by
  have h : TimedProgram.diff .sclient ⟨7, 700000000⟩ ⟨8, 200000000⟩ =
      some ⟨0, 9223372036354775807⟩ := by decide
  refine ⟨h, ?_⟩
  rintro ⟨t, ht, hv, -⟩
  rw [h] at ht
  cases ht
  exact absurd hv.lt (by decide)

/-! ## The logged milliseconds -/

/-- `(int)(diff_ts.tv_sec) * 1000000000` as the 32 bits hold it. -/
def intProduct (diffTs : Timespec) : Int32 := diffTs.tvSec.toInt32 * 1000000000

/-- The `int` product is not the mathematical one. -/
def ProductOverflows (diffTs : Timespec) : Prop :=
  (intProduct diffTs).toInt ≠ diffTs.tvSec.toInt32.toInt * 1000000000

/-- `time_elapsed`, in nanoseconds. -/
def timeElapsed (diffTs : Timespec) : Int64 := (intProduct diffTs).toInt64 + diffTs.tvNsec

/-- The number given to `fprintf(timeLog, ...)`. -/
def loggedMs (diffTs : Timespec) : Int64 := timeElapsed diffTs / 1000000

/-- The clients that keep a log. -/
inductive LoggingClient
  | sclient
  | sclient2

/-- The formats `"%ld \n"` and `"%ld\n"`. -/
def LoggingClient.logLine : LoggingClient → Int64 → Bytes
  | .sclient, ms => fmtInt ms.toInt ++ [32, 10]
  | .sclient2, ms => fmtInt ms.toInt ++ [10]

/-- The range the test programs take: not `last_val > 100 || last_val < 0`. -/
def inRange (lastVal : Int) : Bool := !(decide (lastVal > 100) || decide (lastVal < 0))

theorem inRange_iff (v : Int) : inRange v = true ↔ 0 ≤ v ∧ v ≤ 100 := by
  unfold inRange
  rw [Bool.not_eq_true', Bool.or_eq_false_iff, decide_eq_false_iff_not, decide_eq_false_iff_not]
  omega

/-- The harness reads the number of the line. -/
theorem strtol_logLine (c : LoggingClient) (ms : Int64) : strtol (c.logLine ms) = ms.toInt := by
  have h1 := ms.le_toInt
  have h2 := ms.toInt_lt
  cases c with
  | sclient => exact strtol_fmtInt_append _ [32, 10] (fun b hb => by cases hb; decide) h1 h2
  | sclient2 => exact strtol_fmtInt_append _ [10] (fun b hb => by cases hb; decide) h1 h2

section
variable {t : Timespec}

/-- What is logged: the product and the nanoseconds over a million, rounded to zero. -/
theorem toInt_loggedMs (hv : t.Valid) :
    (loggedMs t).toInt = ((intProduct t).toInt + t.tvNsec.toInt).tdiv 1000000 := by
  have hsum : (timeElapsed t).toInt = (intProduct t).toInt + t.tvNsec.toInt := by
    have := hv.nonneg
    have := hv.lt
    have := (intProduct t).toInt_lt
    have := (intProduct t).le_toInt
    unfold timeElapsed
    rw [Int64.toInt_add, Int32.toInt_toInt64]
    exact Int.bmod_eq_of_le (by omega) (by omega)
  unfold loggedMs
  rw [Int64.toInt_div_of_ne_right _ _ (by decide), hsum]
  rfl

variable (hv : t.Valid) (h0 : 0 ≤ t.tvSec.toInt) (h31 : t.tvSec.toInt < 2 ^ 31)
include h0 h31

theorem toInt_toInt32_tvSec : t.tvSec.toInt32.toInt = t.tvSec.toInt := by
  rw [Int64.toInt_toInt32]
  exact Int.bmod_eq_of_le (by omega) (by omega)

/-- The product, up to a multiple of 2^32. -/
theorem intProduct_eq :
    (intProduct t).toInt = (t.tvSec.toInt * 1000000000).bmod (2 ^ 32) := by
  unfold intProduct
  rw [Int32.toInt_mul, toInt_toInt32_tvSec h0 h31]
  rfl

theorem productOverflows_iff : ProductOverflows t ↔ 2 < t.tvSec.toInt := by
  unfold ProductOverflows
  rw [toInt_toInt32_tvSec h0 h31]
  have hlt := (intProduct t).toInt_lt
  constructor
  · intro hne
    by_contra hle
    apply hne
    rw [intProduct_eq h0 h31]
    exact Int.bmod_eq_of_le (by omega) (by omega)
  · intro h
    omega

include hv

theorem loggedMs_of_le (h : t.tvSec.toInt ≤ 2) :
    (loggedMs t).toInt = t.tvSec.toInt * 1000 + t.tvNsec.toInt / 1000000 := by
  have hno : ¬ProductOverflows t := by
    rw [productOverflows_iff h0 h31]
    omega
  have hp : (intProduct t).toInt = t.tvSec.toInt * 1000000000 := by
    rw [← toInt_toInt32_tvSec h0 h31]
    exact not_not.mp hno
  have := hv.nonneg
  rw [toInt_loggedMs hv, hp, Int.tdiv_eq_ediv_of_nonneg (by omega)]
  omega

/-- A product of 32 bits is too small from the third second on. -/
theorem loggedMs_of_gt (h : 2 < t.tvSec.toInt) :
    (loggedMs t).toInt ≠ t.tvSec.toInt * 1000 + t.tvNsec.toInt / 1000000 := by
  have := hv.nonneg
  have := hv.lt
  have hlt := (intProduct t).toInt_lt
  rw [toInt_loggedMs hv]
  rcases Int.lt_or_le ((intProduct t).toInt + t.tvNsec.toInt) 0 with hneg | hpos
  · have hdiv := Int.tdiv_nonneg (a := -((intProduct t).toInt + t.tvNsec.toInt))
      (b := 1000000) (by omega) (by decide)
    rw [Int.neg_tdiv] at hdiv
    omega
  · rw [Int.tdiv_eq_ediv_of_nonneg hpos]
    -- three seconds is the wrapped product that comes closest
    by_cases h3 : t.tvSec.toInt = 3
    · rw [intProduct_eq h0 h31, h3,
        show (3 * 1000000000 : Int).bmod (2 ^ 32) = -1294967296 by decide]
      omega
    · omega

omit h0 h31 hv in
theorem inRange_logLine (c : LoggingClient) :
    inRange (strtol (c.logLine (loggedMs t))) = true ↔
      0 ≤ (loggedMs t).toInt ∧ (loggedMs t).toInt ≤ 100 := by
  rw [strtol_logLine, inRange_iff]

end

/-- What the log is for. -/
structure LoggedRight (c : LoggingClient) (t : Timespec) : Prop where
  no_overflow : ¬ProductOverflows t
  value : (loggedMs t).toInt = t.tvSec.toInt * 1000 + t.tvNsec.toInt / 1000000
  /-- The harness takes a run of under 101 ms, and no other. -/
  accepted : inRange (strtol (c.logLine (loggedMs t))) = true ↔ t.nanos < 101 * 10 ^ 6

theorem loggedRight_of_le (c : LoggingClient) {t : Timespec} (hv : t.Valid)
    (h0 : 0 ≤ t.tvSec.toInt) (h : t.tvSec.toInt ≤ 2) : LoggedRight c t := by
  have hvalue := loggedMs_of_le hv h0 (by omega) h
  have := hv.nonneg
  have := hv.lt
  refine ⟨?_, hvalue, ?_⟩
  · rw [productOverflows_iff h0 (by omega)]
    omega
  · rw [inRange_logLine, hvalue, Timespec.nanos]
    omega

/-- **When the log is right**: below three seconds.  There it grows with the time. -/
theorem logged_right_iff (c : LoggingClient) :
    (∀ t : Timespec, t.Valid → 0 ≤ t.tvSec.toInt → t.tvSec.toInt < 2 ^ 31 →
      (LoggedRight c t ↔ t.tvSec.toInt ≤ 2)) ∧
    ∀ t u : Timespec, t.Valid → u.Valid → 0 ≤ t.tvSec.toInt → u.tvSec.toInt ≤ 2 →
      t.nanos ≤ u.nanos → (loggedMs t).toInt ≤ (loggedMs u).toInt := by
  constructor
  · intro t hv h0 h31
    constructor
    · intro hr
      by_contra h
      exact loggedMs_of_gt hv h0 h31 (Int.lt_of_not_ge h) hr.value
    · exact loggedRight_of_le c hv h0
  · intro t u ht hu h0 h2 hle
    have hsec := Timespec.tvSec_le ht hu hle
    have := ht.nonneg
    have := hu.nonneg
    rw [loggedMs_of_le ht h0 (by omega) (by omega), loggedMs_of_le hu (by omega) (by omega) h2]
    unfold Timespec.nanos at hle
    omega

/-- 42 ms, and 99 ms after it. -/
theorem logged_right_42 :
    LoggedRight .sclient ⟨0, 42999999⟩ ∧
    (loggedMs ⟨0, 42999999⟩).toInt ≤ (loggedMs ⟨0, 99000000⟩).toInt := by
  obtain ⟨hiff, hmono⟩ := logged_right_iff .sclient
  exact ⟨(hiff _ ⟨by decide, by decide⟩ (by decide) (by decide)).mpr (by decide),
    hmono _ _ ⟨by decide, by decide⟩ ⟨by decide, by decide⟩ (by decide) (by decide) (by decide)⟩

/-- Three seconds are logged as a negative number, and 4.3 seconds as 5 ms, which the
harness takes. -/
theorem logged_wrong :
    ProductOverflows ⟨3, 0⟩ ∧ (loggedMs ⟨3, 0⟩).toInt = -1294 ∧
    ProductOverflows ⟨4, 300000000⟩ ∧ (loggedMs ⟨4, 300000000⟩).toInt = 5 ∧
    inRange (strtol (LoggingClient.logLine .sclient (loggedMs ⟨4, 300000000⟩))) = true ∧
    ¬LoggedRight .sclient ⟨4, 300000000⟩ := by
  have h3 : ProductOverflows ⟨3, 0⟩ :=
    (productOverflows_iff (by decide) (by decide)).mpr (by decide)
  have h4 : ProductOverflows ⟨4, 300000000⟩ :=
    (productOverflows_iff (by decide) (by decide)).mpr (by decide)
  have h5 : (loggedMs ⟨4, 300000000⟩).toInt = 5 := by decide
  refine ⟨h3, by decide, h4, h5, ?_, fun hr => hr.no_overflow h4⟩
  rw [inRange_logLine, h5]
  decide

end KerberizedMikey
