import KerberizedMikey.CLib.Runs
import KerberizedMikey.CLib.Variance

/-!
# The running statistics of the test programs

`run_test1` and its copies repeat a test until the coefficient of variation of its
results is below a target.  The mean and variance are updated with each result; a result
that does not lower the coefficient is rolled back.  Modelled over an exact field `K`
with any `sqrt`.

The statistics are those of the plain recurrence on the accepted results:

    Run (TestStep …) (start startingK) trace s  →
      s.rs.stats s.n = plain sqrt (accepted trace)                       (run_stats)
-/

namespace KerberizedMikey

open CLib

/-! ## Quotients -/

/-- A quotient `x / y` of doubles with `0 ≤ x`. -/
inductive Ratio (K : Type*)
  | num (q : K)
  | inf
  | nan

section
variable {K : Type*} [Field K] [LinearOrder K]

def Ratio.div (x y : K) : Ratio K :=
  if y ≠ 0 then .num (x / y) else if x = 0 then .nan else .inf

/-- `a >= b`; false with a NaN. -/
def Ratio.ge : Ratio K → Ratio K → Bool
  | .nan, _ => false
  | _, .nan => false
  | .inf, _ => true
  | .num _, .inf => false
  | .num p, .num q => decide (q ≤ p)

/-- `a < t`. -/
def Ratio.lt (a : Ratio K) (t : K) : Bool :=
  match a with
  | .num q => decide (q < t)
  | .inf => false
  | .nan => false

/-! ## The source -/

/-- `running_stats_t`. -/
structure RunningStats (K : Type*) where
  k : Nat
  coeffTarget : K
  mean : K
  variance : K
  stdDev : K
  coeffVariance : Ratio K

/-- `set_default_running_stats`. -/
def setDefaultRunningStats (startingK : Nat) : RunningStats K where
  k := startingK
  coeffTarget := 5 / 100
  mean := 0
  variance := 0
  stdDev := 0
  coeffVariance := .num 0

/-- What became of a result of the test. -/
inductive Outcome
  /-- The do-while loop goes on. -/
  | retried
  | rolledBack
  | accepted
deriving DecidableEq

/-- The variables at the end of an iteration of `run_test1`; `met` is set on `break`. -/
structure TestLoop (K : Type*) where
  j : Nat
  n : Nat
  prevY : Int
  rs : RunningStats K
  met : Bool

/-- Before the first iteration, which has `n = j = 1`. -/
def start (startingK : Nat) : TestLoop K :=
  ⟨0, 0, -1, setDefaultRunningStats startingK, false⟩

/-- The loop is left by `break` or by its condition `j <= max_k`. -/
def TestLoop.returned (maxK : Nat) (s : TestLoop K) : Prop := s.met = true ∨ maxK ≤ s.j

instance (maxK : Nat) (s : TestLoop K) : Decidable (s.returned maxK) :=
  inferInstanceAs (Decidable (_ ∨ _))

variable (sqrt : K → K)

/-- Mean, and from the third iteration on variance, standard deviation and coefficient,
with the result `y`. -/
def RunningStats.update (rs : RunningStats K) (j n : Nat) (y : Int) : RunningStats K :=
  let mean := (rs.mean * ((n : K) - 1) + y) / n
  if j > 2 then
    let variance := (((n : K) - 2) * rs.variance + (y - mean) * (y - rs.mean)) / ((n : K) - 1)
    let stdDev := sqrt variance
    { rs with mean, variance, stdDev, coeffVariance := .div stdDev mean }
  else { rs with mean }

/-- The test of the rollback, made where the coefficient is computed. -/
def rollsBack (startingK j : Nat) (rs prev : RunningStats K) : Bool :=
  decide (j > 2) && (rs.coeffVariance.ge prev.coeffVariance && decide (j > startingK))

/-- The end of an iteration. -/
def TestLoop.checkTarget (startingK : Nat) (s : TestLoop K) : TestLoop K :=
  if startingK ≤ s.j ∧ s.rs.coeffVariance.lt s.rs.coeffTarget then
    { s with rs := { s.rs with k := s.n }, met := true }
  else s

/-- `run_test1`, from one result of the test to the next. -/
def takeResult (startingK : Nat) (s : TestLoop K) (y : Int) : TestLoop K × Outcome :=
  let prevY := if s.prevY = -1 then y else s.prevY
  -- y > prev_y * 1.1
  if 10 * y > 11 * prevY then ({ s with prevY }, .retried)
  else
    let j := s.j + 1
    let n := s.n + 1
    let rs := s.rs.update sqrt j n y
    if rollsBack startingK j rs s.rs then
      let rs := { rs with
        variance := s.rs.variance
        stdDev := s.rs.stdDev
        mean := s.rs.mean
        coeffVariance := s.rs.coeffVariance }
      (TestLoop.checkTarget startingK ⟨j, n - 1, y, rs, false⟩, .rolledBack)
    else (TestLoop.checkTarget startingK ⟨j, n, y, rs, false⟩, .accepted)

/-- `run_test1`, `run_test2`, `run_test3` and `run_test4`, which differ in the test they
call, on the results of the calls; `none` when more are needed. -/
def runTest (startingK maxK : Nat) : List Int → TestLoop K → Option (TestLoop K)
  | [], s => if s.returned maxK then some s else none
  | y :: ys, s =>
    if s.returned maxK then some s else runTest startingK maxK ys (takeResult sqrt startingK s y).1

/-- One result, with what becomes of it. -/
def TestStep (startingK maxK : Nat) (s : TestLoop K) (r : Int × Outcome) (s' : TestLoop K) :
    Prop :=
  ¬s.returned maxK ∧ takeResult sqrt startingK s r.1 = (s', r.2)

end

/-- The results the do-while loop lets through, in order. -/
def iterations (trace : List (Int × Outcome)) : List (Int × Outcome) :=
  trace.filter fun r => r.2 ≠ .retried

/-- The results that were kept, in order. -/
def accepted (trace : List (Int × Outcome)) : List Int :=
  (trace.filter fun r => r.2 = .accepted).map Prod.fst

section
variable {K : Type*} [Field K] [LinearOrder K] (sqrt : K → K)

/-! ## The plain recurrence -/

/-- The statistics of `n` results. -/
structure Stats (K : Type*) where
  n : Nat
  mean : K
  variance : K
  stdDev : K
  coeffVariance : Ratio K

def RunningStats.stats (rs : RunningStats K) (n : Nat) : Stats K :=
  ⟨n, rs.mean, rs.variance, rs.stdDev, rs.coeffVariance⟩

/-- One more result. -/
def Stats.add (s : Stats K) (y : Int) : Stats K :=
  let n := s.n + 1
  let mean := (s.mean * ((n : K) - 1) + y) / n
  if n > 2 then
    let variance := (((n : K) - 2) * s.variance + (y - mean) * (y - s.mean)) / ((n : K) - 1)
    let stdDev := sqrt variance
    ⟨n, mean, variance, stdDev, .div stdDev mean⟩
  else { s with n, mean }

/-- All results, without a rollback. -/
def plain (ys : List Int) : Stats K := ys.foldl (Stats.add sqrt) ⟨0, 0, 0, 0, .num 0⟩

@[simp] theorem plain_append (ys : List Int) (y : Int) :
    plain sqrt (ys ++ [y]) = (plain sqrt ys).add sqrt y := by
  rw [plain, List.foldl_append]
  rfl

theorem update_stats (rs : RunningStats K) {j n : Nat} (y : Int) (h : 2 < j ↔ 2 < n + 1) :
    (rs.update sqrt j (n + 1) y).stats (n + 1) = (rs.stats n).add sqrt y := by
  unfold RunningStats.update Stats.add
  dsimp only [RunningStats.stats]
  by_cases hj : 2 < j
  · rw [if_pos hj, if_pos (h.mp hj)]
  · rw [if_neg hj, if_neg (mt h.mpr hj)]

/-! ## One step -/

omit [Field K] in
theorem checkTarget_cases (startingK : Nat) (s : TestLoop K) :
    (startingK ≤ s.j ∧ s.rs.coeffVariance.lt s.rs.coeffTarget = true ∧
      s.checkTarget startingK = { s with rs := { s.rs with k := s.n }, met := true }) ∨
    (¬(startingK ≤ s.j ∧ s.rs.coeffVariance.lt s.rs.coeffTarget = true) ∧
      s.checkTarget startingK = s) := by
  unfold TestLoop.checkTarget
  by_cases h : startingK ≤ s.j ∧ s.rs.coeffVariance.lt s.rs.coeffTarget = true
  · exact .inl ⟨h.1, h.2, if_pos h⟩
  · exact .inr ⟨h, if_neg h⟩

/-- `k` and the target are not touched by the update. -/
theorem update_k (rs : RunningStats K) (j n : Nat) (y : Int) :
    (rs.update sqrt j n y).k = rs.k ∧ (rs.update sqrt j n y).coeffTarget = rs.coeffTarget := by
  unfold RunningStats.update
  dsimp only
  split <;> exact ⟨rfl, rfl⟩

/-- The update from the third iteration on, by its values. -/
theorem update_eq {rs : RunningStats K} {j n : Nat} {y : Int} {m v : K} (hj : 2 < j)
    (hm : (rs.mean * ((n : K) - 1) + y) / n = m)
    (hv : (((n : K) - 2) * rs.variance + (y - m) * (y - rs.mean)) / ((n : K) - 1) = v) :
    rs.update sqrt j n y =
      { rs with mean := m, variance := v, stdDev := sqrt v, coeffVariance := .div (sqrt v) m } := by
  unfold RunningStats.update
  dsimp only
  rw [if_pos hj, hm, hv]

/-- **What a result can do**: nothing, or be the next iteration, which keeps the old
statistics or takes the updated ones. -/
theorem takeResult_cases (startingK : Nat) (s : TestLoop K) (y : Int) :
    (∃ prevY, takeResult sqrt startingK s y = ({ s with prevY }, .retried)) ∨
    (rollsBack startingK (s.j + 1) (s.rs.update sqrt (s.j + 1) (s.n + 1) y) s.rs = true ∧
      takeResult sqrt startingK s y =
        (TestLoop.checkTarget startingK ⟨s.j + 1, s.n, y, s.rs, false⟩, .rolledBack)) ∨
    (rollsBack startingK (s.j + 1) (s.rs.update sqrt (s.j + 1) (s.n + 1) y) s.rs = false ∧
      takeResult sqrt startingK s y =
        (TestLoop.checkTarget startingK
          ⟨s.j + 1, s.n + 1, y, s.rs.update sqrt (s.j + 1) (s.n + 1) y, false⟩, .accepted)) := by
  unfold takeResult
  dsimp only
  by_cases hy : 10 * y > 11 * (if s.prevY = -1 then y else s.prevY)
  · rw [if_pos hy]
    exact .inl ⟨_, rfl⟩
  rw [if_neg hy]
  right
  cases hr : rollsBack startingK (s.j + 1) (s.rs.update sqrt (s.j + 1) (s.n + 1) y) s.rs with
  | true =>
    left
    refine ⟨rfl, ?_⟩
    have hk := update_k sqrt s.rs (s.j + 1) (s.n + 1) y
    rw [if_pos rfl, hk.1, hk.2, Nat.add_sub_cancel]
  | false =>
    right
    exact ⟨rfl, if_neg (by simp)⟩

omit [Field K] in
theorem two_lt_of_rollsBack {startingK j : Nat} {rs prev : RunningStats K}
    (h : rollsBack startingK j rs prev = true) :
    2 < j ∧ startingK < j ∧ rs.coeffVariance.ge prev.coeffVariance = true := by
  unfold rollsBack at h
  simp only [Bool.and_eq_true, decide_eq_true_eq] at h
  exact ⟨h.1, h.2.2, h.2.1⟩

omit [Field K] in
theorem rollsBack_of_le {startingK j : Nat} (rs prev : RunningStats K) (h : j ≤ startingK) :
    rollsBack startingK j rs prev = false := by
  cases hr : rollsBack startingK j rs prev with
  | false => rfl
  | true =>
    have := (two_lt_of_rollsBack hr).2.1
    omega

omit [Field K] in
theorem rollsBack_of_ge {startingK j : Nat} {rs prev : RunningStats K} {p q : K}
    (h2 : 2 < j) (hj : startingK < j) (hq : rs.coeffVariance = .num q)
    (hp : prev.coeffVariance = .num p) (h : p ≤ q) : rollsBack startingK j rs prev = true := by
  simp [rollsBack, h2, hj, hq, hp, Ratio.ge, h]

omit [Field K] in
theorem rollsBack_of_lt {startingK j : Nat} {rs prev : RunningStats K} {p q : K}
    (hq : rs.coeffVariance = .num q) (hp : prev.coeffVariance = .num p) (h : q < p) :
    rollsBack startingK j rs prev = false := by
  cases hr : rollsBack startingK j rs prev with
  | false => rfl
  | true =>
    have hge := (two_lt_of_rollsBack hr).2.2
    rw [hq, hp] at hge
    exact absurd (of_decide_eq_true hge) (not_le_of_gt h)

/-- A result that is taken, kept and not the last one. -/
theorem takeResult_accepted {startingK : Nat} {s : TestLoop K} {y : Int} {rs : RunningStats K}
    (hrs : s.rs.update sqrt (s.j + 1) (s.n + 1) y = rs)
    (hy : 10 * y ≤ 11 * (if s.prevY = -1 then y else s.prevY))
    (hr : rollsBack startingK (s.j + 1) rs s.rs = false)
    (ht : ¬(startingK ≤ s.j + 1 ∧ rs.coeffVariance.lt rs.coeffTarget = true)) :
    takeResult sqrt startingK s y = (⟨s.j + 1, s.n + 1, y, rs, false⟩, .accepted) := by
  unfold takeResult
  dsimp only
  rw [if_neg (by omega), hrs, if_neg (by rw [hr]; exact Bool.false_ne_true), TestLoop.checkTarget,
    if_neg ht]

/-- A result that is taken and rolled back, and not the last one. -/
theorem takeResult_rolledBack {startingK : Nat} {s : TestLoop K} {y : Int} {rs : RunningStats K}
    (hrs : s.rs.update sqrt (s.j + 1) (s.n + 1) y = rs)
    (hy : 10 * y ≤ 11 * (if s.prevY = -1 then y else s.prevY))
    (hr : rollsBack startingK (s.j + 1) rs s.rs = true)
    (ht : ¬(startingK ≤ s.j + 1 ∧ s.rs.coeffVariance.lt s.rs.coeffTarget = true)) :
    takeResult sqrt startingK s y = (⟨s.j + 1, s.n, y, s.rs, false⟩, .rolledBack) := by
  obtain ⟨hk, htarget⟩ := update_k sqrt s.rs (s.j + 1) (s.n + 1) y
  rw [hrs] at hk htarget
  unfold takeResult
  dsimp only
  rw [if_neg (by omega), hrs, if_pos hr, hk, htarget, Nat.add_sub_cancel, TestLoop.checkTarget,
    if_neg ht]

/-- `TestStep` by the outcome of its label. -/
theorem testStep_cases {startingK maxK : Nat} {s s' : TestLoop K} {y : Int} {o : Outcome}
    (h : TestStep sqrt startingK maxK s (y, o) s') :
    (o = .retried ∧ ∃ prevY, s' = { s with prevY }) ∨
    (o = .rolledBack ∧
      rollsBack startingK (s.j + 1) (s.rs.update sqrt (s.j + 1) (s.n + 1) y) s.rs = true ∧
      s' = TestLoop.checkTarget startingK ⟨s.j + 1, s.n, y, s.rs, false⟩) ∨
    (o = .accepted ∧
      rollsBack startingK (s.j + 1) (s.rs.update sqrt (s.j + 1) (s.n + 1) y) s.rs = false ∧
      s' = TestLoop.checkTarget startingK
        ⟨s.j + 1, s.n + 1, y, s.rs.update sqrt (s.j + 1) (s.n + 1) y, false⟩) := by
  have h2 := h.2
  rcases takeResult_cases sqrt startingK s y with ⟨prevY, he⟩ | ⟨hr, he⟩ | ⟨hr, he⟩
  all_goals
    dsimp only at h2
    rw [he] at h2
    cases h2
  · exact .inl ⟨rfl, prevY, rfl⟩
  · exact .inr (.inl ⟨rfl, hr, rfl⟩)
  · exact .inr (.inr ⟨rfl, hr, rfl⟩)

/-! ## All steps -/

theorem iterations_append (trace : List (Int × Outcome)) (r : Int × Outcome) :
    iterations (trace ++ [r]) =
      if r.2 = .retried then iterations trace else iterations trace ++ [r] := by
  unfold iterations
  rw [List.filter_append, List.filter_singleton]
  by_cases h : r.2 = .retried <;> simp [h]

theorem accepted_append (trace : List (Int × Outcome)) (r : Int × Outcome) :
    accepted (trace ++ [r]) =
      if r.2 = .accepted then accepted trace ++ [r.1] else accepted trace := by
  unfold accepted
  rw [List.filter_append, List.filter_singleton]
  by_cases h : r.2 = .accepted <;> simp [h]

/-- What the run has done when `s` is reached. -/
structure LoopInv (startingK : Nat) (trace : List (Int × Outcome)) (s : TestLoop K) : Prop where
  j_eq : s.j = (iterations trace).length
  n_eq : s.n = (accepted trace).length
  n_le : s.n ≤ s.j
  le_n : min startingK s.j ≤ s.n
  early : ∀ r ∈ (iterations trace).take startingK, r.2 = .accepted
  stats : s.rs.stats s.n = plain sqrt (accepted trace)
  target : s.rs.coeffTarget = 5 / 100
  met : s.met = true ↔ startingK ≤ s.j ∧ s.rs.coeffVariance.lt (5 / 100) = true
  k : s.rs.k = if s.met then s.n else startingK

section
variable {startingK maxK : Nat} {sqrt}

theorem loopInv_start (hk : 2 ≤ startingK) : LoopInv sqrt startingK [] (start startingK) where
  j_eq := rfl
  n_eq := rfl
  n_le := Nat.le_refl _
  le_n := Nat.min_le_right _ _
  early := by simp [iterations]
  stats := rfl
  target := rfl
  met := by
    constructor
    · intro h
      cases h
    · intro h
      have : startingK ≤ 0 := h.1
      omega
  k := rfl

/-- The end of an iteration settles `met` and `k`. -/
theorem LoopInv.checkTarget {trace : List (Int × Outcome)} {s : TestLoop K}
    (h0 : s.met = false) (hk : s.rs.k = startingK) (j_eq : s.j = (iterations trace).length)
    (n_eq : s.n = (accepted trace).length) (n_le : s.n ≤ s.j) (le_n : min startingK s.j ≤ s.n)
    (early : ∀ r ∈ (iterations trace).take startingK, r.2 = .accepted)
    (stats : s.rs.stats s.n = plain sqrt (accepted trace)) (target : s.rs.coeffTarget = 5 / 100) :
    LoopInv sqrt startingK trace (s.checkTarget startingK) := by
  rcases checkTarget_cases startingK s with ⟨hj, hlt, he⟩ | ⟨hno, he⟩
  · rw [target] at hlt
    rw [he]
    exact ⟨j_eq, n_eq, n_le, le_n, early, stats, target, iff_of_true rfl ⟨hj, hlt⟩, rfl⟩
  · rw [target] at hno
    rw [he]
    exact ⟨j_eq, n_eq, n_le, le_n, early, stats, target,
      iff_of_false (by simp [h0]) hno, by rw [hk, h0]; rfl⟩

theorem LoopInv.k_eq {trace : List (Int × Outcome)} {s : TestLoop K}
    (hi : LoopInv sqrt startingK trace s) (h0 : s.met = false) : s.rs.k = startingK := by
  rw [hi.k, h0]
  rfl

/-- A result that is retried is not recorded. -/
theorem LoopInv.retry {trace : List (Int × Outcome)} {s : TestLoop K}
    (hi : LoopInv sqrt startingK trace s) (y prevY : Int) :
    LoopInv sqrt startingK (trace ++ [(y, .retried)]) { s with prevY } := by
  have hit : iterations (trace ++ [(y, Outcome.retried)]) = iterations trace := by
    rw [iterations_append]
    rfl
  have hacc : accepted (trace ++ [(y, Outcome.retried)]) = accepted trace := by
    rw [accepted_append]
    rfl
  refine ⟨?_, ?_, hi.n_le, hi.le_n, ?_, ?_, hi.target, hi.met, hi.k⟩
  · rw [hit]
    exact hi.j_eq
  · rw [hacc]
    exact hi.n_eq
  · rw [hit]
    exact hi.early
  · rw [hacc]
    exact hi.stats

/-- A rollback is an iteration that leaves `n` and the statistics. -/
theorem LoopInv.rollBack {trace : List (Int × Outcome)} {s : TestLoop K}
    (hi : LoopInv sqrt startingK trace s) (h0 : s.met = false) (hlate : startingK < s.j + 1)
    (y : Int) :
    LoopInv sqrt startingK (trace ++ [(y, .rolledBack)])
      (TestLoop.checkTarget startingK ⟨s.j + 1, s.n, y, s.rs, false⟩) := by
  have hj := hi.j_eq
  have hle := hi.n_le
  have hge := hi.le_n
  have hit : iterations (trace ++ [(y, Outcome.rolledBack)]) =
      iterations trace ++ [(y, .rolledBack)] := by
    rw [iterations_append]
    rfl
  have hacc : accepted (trace ++ [(y, Outcome.rolledBack)]) = accepted trace := by
    rw [accepted_append]
    rfl
  refine LoopInv.checkTarget rfl (hi.k_eq h0) ?_ ?_ ?_ ?_ ?_ ?_ hi.target
  · rw [hit, List.length_append, ← hj]
    rfl
  · rw [hacc]
    exact hi.n_eq
  · show s.n ≤ s.j + 1
    omega
  · show min startingK (s.j + 1) ≤ s.n
    omega
  · rw [hit, List.take_append_of_le_length (by omega)]
    exact hi.early
  · rw [hacc]
    exact hi.stats

/-- An accepted result is one more for the plain recurrence. -/
theorem LoopInv.accept (hk : 2 ≤ startingK) {trace : List (Int × Outcome)} {s : TestLoop K}
    (hi : LoopInv sqrt startingK trace s) (h0 : s.met = false) (y : Int) :
    LoopInv sqrt startingK (trace ++ [(y, .accepted)])
      (TestLoop.checkTarget startingK
        ⟨s.j + 1, s.n + 1, y, s.rs.update sqrt (s.j + 1) (s.n + 1) y, false⟩) := by
  have hj := hi.j_eq
  have hle := hi.n_le
  have hge := hi.le_n
  have hit : iterations (trace ++ [(y, Outcome.accepted)]) =
      iterations trace ++ [(y, .accepted)] := by
    rw [iterations_append]
    rfl
  have hacc : accepted (trace ++ [(y, Outcome.accepted)]) =
      accepted trace ++ [y] := by
    rw [accepted_append]
    rfl
  obtain ⟨hkeep, htarget⟩ := update_k sqrt s.rs (s.j + 1) (s.n + 1) y
  refine LoopInv.checkTarget rfl (hkeep.trans (hi.k_eq h0)) ?_ ?_ ?_ ?_ ?_ ?_
    (htarget.trans hi.target)
  · rw [hit, List.length_append, ← hj]
    rfl
  · rw [hacc, List.length_append, ← hi.n_eq]
    rfl
  · show s.n + 1 ≤ s.j + 1
    omega
  · show min startingK (s.j + 1) ≤ s.n + 1
    omega
  · intro r hm
    rw [hit, List.take_append, List.mem_append] at hm
    rcases hm with hm | hm
    · exact hi.early r hm
    · have := List.mem_of_mem_take hm
      rw [List.mem_singleton] at this
      rw [this]
  · rw [hacc, plain_append, ← hi.stats]
    exact update_stats sqrt s.rs y (by omega)

/-- **Each step keeps the account.** -/
theorem loopInv_step (hk : 2 ≤ startingK) {trace : List (Int × Outcome)} {s s' : TestLoop K}
    {r : Int × Outcome} (hi : LoopInv sqrt startingK trace s)
    (h : TestStep sqrt startingK maxK s r s') : LoopInv sqrt startingK (trace ++ [r]) s' := by
  obtain ⟨y, o⟩ := r
  have h0 : s.met = false := by
    cases hm : s.met with
    | false => rfl
    | true => exact absurd (.inl hm) h.1
  rcases testStep_cases sqrt h with ⟨rfl, prevY, rfl⟩ | ⟨rfl, hr, rfl⟩ | ⟨rfl, hr, rfl⟩
  · exact hi.retry y prevY
  · exact hi.rollBack h0 (two_lt_of_rollsBack hr).2.1 y
  · exact hi.accept hk h0 y

/-- **What every reached state records.** -/
theorem loopInv_run (hk : 2 ≤ startingK) {trace : List (Int × Outcome)} {s : TestLoop K}
    (run : Run (TestStep sqrt startingK maxK) (start startingK) trace s) :
    LoopInv sqrt startingK trace s :=
  run.trace_invariant (loopInv_start hk) fun _ _ _ _ hi h => loopInv_step hk hi h

/-- What `run_test1` returns is the end of a run over a prefix of the results. -/
theorem runTest_eq_some_iff (results : List Int) (s u : TestLoop K) :
    runTest sqrt startingK maxK results s = some u ↔
      ∃ trace, Run (TestStep sqrt startingK maxK) s trace u ∧ u.returned maxK ∧
        trace.map Prod.fst <+: results := by
  induction results generalizing s with
  | nil =>
    rw [runTest]
    constructor
    · intro h
      split at h
      · next hr =>
        cases h
        exact ⟨[], .nil, hr, List.nil_prefix⟩
      · cases h
    · rintro ⟨trace, run, hr, hpre⟩
      have : trace = [] := by simpa using hpre
      subst this
      cases run.nil_eq
      exact if_pos hr
  | cons y ys ih =>
    rw [runTest]
    by_cases hs : s.returned maxK
    · rw [if_pos hs]
      constructor
      · intro h
        cases h
        exact ⟨[], .nil, hs, List.nil_prefix⟩
      · rintro ⟨trace, run, -, -⟩
        cases trace with
        | nil => rw [run.nil_eq]
        | cons r trace =>
          obtain ⟨t, h, -⟩ := Run.cons_iff.mp run
          exact absurd hs h.1
    rw [if_neg hs, ih]
    constructor
    · rintro ⟨trace, run, hr, hpre⟩
      refine ⟨(y, (takeResult sqrt startingK s y).2) :: trace, Run.cons_iff.mpr ⟨_, ⟨hs, rfl⟩, run⟩,
        hr, ?_⟩
      rw [List.map_cons]
      exact (List.prefix_cons_inj y).mpr hpre
    · rintro ⟨trace, run, hr, hpre⟩
      cases trace with
      | nil =>
        rw [run.nil_eq] at hr
        exact absurd hr hs
      | cons r trace =>
        obtain ⟨t, h, hrun⟩ := Run.cons_iff.mp run
        rw [List.map_cons, List.cons_prefix_cons] at hpre
        obtain ⟨rfl, hpre⟩ := hpre
        refine ⟨trace, ?_, hr, hpre⟩
        rw [h.2]
        exact hrun

end

end

end KerberizedMikey
