import KerberizedMikey.TestSuite.RunningStats
import Mathlib.Analysis.Real.Sqrt

/-!
# What run_test1 reports

The mean is the mean of the accepted results, but the variance starts from 0 at the third
result, where that of the first two should be:

    variance = sample variance  ↔  the first two results are equal      (running_stats_iff)
    rs->k    = accepted results ↔  the target was met, or nothing was
                                   accepted after starting_k            (logged_k_iff)

A result that is rolled back leaves nothing behind (`rolled_back_no_trace`).
-/

namespace KerberizedMikey

open CLib

section
variable {K : Type*} [Field K] [LinearOrder K] {sqrt : K → K}

/-! ## Accepted results and iterations -/

theorem accepted_eq (trace : List (Int × Outcome)) :
    accepted trace = ((iterations trace).filter fun r => r.2 = .accepted).map Prod.fst := by
  unfold accepted iterations
  rw [List.filter_filter]
  congr 1
  apply List.filter_congr
  rintro ⟨y, o⟩ -
  cases o <;> rfl

theorem length_accepted (trace : List (Int × Outcome)) :
    (accepted trace).length = (iterations trace).countP fun r => r.2 = .accepted := by
  rw [accepted_eq, List.length_map, List.countP_eq_length_filter]

variable {startingK maxK : Nat} {trace : List (Int × Outcome)} {s : TestLoop K}

/-- The first two iterations are kept. -/
theorem LoopInv.first_two (hk : 2 ≤ startingK) (hi : LoopInv sqrt startingK trace s)
    (h : 2 ≤ (accepted trace).length) :
    ∃ x y ys rs, accepted trace = x :: y :: ys ∧
      iterations trace = (x, .accepted) :: (y, .accepted) :: rs := by
  have hlen : 2 ≤ (iterations trace).length := by
    rw [← hi.j_eq]
    have := hi.n_le
    rw [hi.n_eq] at this
    omega
  match hit : iterations trace, hlen with
  | (x, o) :: (y, o') :: rs, _ =>
    have htake : ∀ r ∈ [(x, o), (y, o')], r.2 = .accepted := by
      intro r hr
      apply hi.early r
      obtain ⟨k, rfl⟩ : ∃ k, startingK = k + 2 := ⟨startingK - 2, by omega⟩
      rw [hit]
      rcases List.mem_pair.mp hr with rfl | rfl
      · exact List.mem_cons_self
      · exact List.mem_cons_of_mem _ List.mem_cons_self
    have ho : o = .accepted := htake (x, o) (by simp)
    have ho' : o' = .accepted := htake (y, o') (by simp)
    subst ho ho'
    refine ⟨x, y, (rs.filter fun r => r.2 = .accepted).map Prod.fst, rs, ?_, rfl⟩
    rw [accepted_eq, hit]
    rfl

/-! ## The batch statistics -/

/-- The results as numbers of the field. -/
def values (K : Type*) [Field K] (ys : List Int) : List K := ys.map Int.cast

omit [LinearOrder K] in
theorem values_append (ys : List Int) (y : Int) :
    values K (ys ++ [y]) = values K ys ++ [(y : K)] := by
  rw [values, List.map_append]
  rfl

omit [LinearOrder K] in
@[simp] theorem length_values (ys : List Int) : (values K ys).length = ys.length :=
  List.length_map _

theorem plain_n (ys : List Int) : (plain sqrt ys).n = ys.length := by
  induction ys using List.reverseRecOn with
  | nil => rfl
  | append_singleton ys y ih =>
    rw [plain_append, List.length_append, List.length_singleton, ← ih]
    unfold Stats.add
    dsimp only
    split <;> rfl

theorem add_mean (s : Stats K) (y : Int) :
    (s.add sqrt y).mean = (s.mean * s.n + y) / (s.n + 1) := by
  have hmean : (s.add sqrt y).mean =
      (s.mean * (((s.n + 1 : Nat) : K) - 1) + y) / (s.n + 1 : Nat) := by
    unfold Stats.add
    dsimp only
    split <;> rfl
  rw [hmean]
  push_cast
  rw [add_sub_cancel_right]

theorem add_variance (sqrt : K → K) (s : Stats K) (y : Int) (h : 2 ≤ s.n) :
    (s.add sqrt y).variance =
      (((s.n : K) - 1) * s.variance + (y - (s.add sqrt y).mean) * (y - s.mean)) / s.n := by
  have hn : s.n + 1 > 2 := by omega
  have hadd : (s.add sqrt y).variance =
      ((((s.n + 1 : Nat) : K) - 2) * s.variance + (y - (s.add sqrt y).mean) * (y - s.mean)) /
        (((s.n + 1 : Nat) : K) - 1) := by
    unfold Stats.add
    dsimp only
    rw [if_pos hn]
  rw [hadd]
  push_cast
  rw [add_sub_cancel_right, show (s.n : K) + 1 - 2 = s.n - 1 by ring]

section
variable [IsStrictOrderedRing K]

/-- The mean is kept exactly. -/
theorem plain_mean (ys : List Int) :
    (plain sqrt ys).mean = mean (values K ys) := by
  induction ys using List.reverseRecOn with
  | nil => simp [plain, mean, values]
  | append_singleton ys y ih =>
    rw [plain_append, add_mean, ih, plain_n, values_append]
    cases ys with
    | nil => simp [mean, values]
    | cons x ys =>
      have h := mean_append (l := values K (x :: ys)) (y : K) (List.cons_ne_nil _ _)
      rw [length_values] at h
      exact h.symm

/-- **The defect of the variance** stays what it is after two results, in the sum of the
squares. -/
theorem plain_variance (sqrt : K → K) (x y : Int) (ys : List Int) :
    (((x :: y :: ys).length : K) - 1) *
      (sampleVariance (values K (x :: y :: ys)) - (plain sqrt (x :: y :: ys)).variance) =
        ((x : K) - y) ^ 2 / 2 := by
  induction ys using List.reverseRecOn with
  | nil =>
    have h0 : (plain sqrt [x, y]).variance = 0 := rfl
    rw [h0, show values K [x, y] = [(x : K), (y : K)] from rfl, sampleVariance_pair]
    simp only [List.length_cons, List.length_nil]
    push_cast
    ring
  | append_singleton ys z ih =>
    have hlen : 2 ≤ (values K (x :: y :: ys)).length := by simp
    have hn : ((x :: y :: ys).length : K) ≠ 0 := Nat.cast_ne_zero.mpr (Nat.succ_ne_zero _)
    have hv := sampleVariance_append (z : K) hlen
    rw [length_values] at hv
    have hp := add_variance sqrt (plain sqrt (x :: y :: ys)) z (by rw [plain_n]; simp)
    rw [← plain_append, plain_mean, plain_mean, plain_n, values_append] at hp
    rw [show x :: y :: (ys ++ [z]) = (x :: y :: ys) ++ [z] from rfl, values_append, hv, hp, ← ih,
      List.length_append, List.length_singleton]
    push_cast
    field_simp
    ring

theorem plain_variance_iff (x y : Int) (ys : List Int) :
    (plain sqrt (x :: y :: ys)).variance = sampleVariance (values K (x :: y :: ys)) ↔
      x = y := by
  have h := plain_variance sqrt x y ys
  have hn : ((x :: y :: ys).length : K) - 1 ≠ 0 := by
    have := succ_ne_zero (K := K) ys.length
    simp only [List.length_cons]
    push_cast
    rwa [add_sub_cancel_right]
  constructor
  · intro he
    rw [he, sub_self, mul_zero] at h
    have hsq : ((x : K) - y) ^ 2 = 0 := by linarith
    have hxy : (x : K) = y := sub_eq_zero.mp (pow_eq_zero_iff two_ne_zero |>.mp hsq)
    exact_mod_cast hxy
  · rintro rfl
    rw [sub_self, zero_pow two_ne_zero, zero_div, mul_eq_zero] at h
    exact (sub_eq_zero.mp (h.resolve_left hn)).symm

/-- **When the variance is right**, after every iteration: when the first two results are
equal.  The mean is right always. -/
theorem running_stats_iff (hk : 2 ≤ startingK)
    (run : Run (TestStep sqrt startingK maxK) (start startingK) trace s) :
    s.n = (accepted trace).length ∧
    (accepted trace ≠ [] → s.rs.mean = mean (values K (accepted trace))) ∧
    (2 ≤ (accepted trace).length →
      (s.rs.variance = sampleVariance (values K (accepted trace)) ↔
        ((iterations trace).map Prod.fst)[0]? = ((iterations trace).map Prod.fst)[1]?)) := by
  have hi := loopInv_run hk run
  have hmean : s.rs.mean = (plain sqrt (accepted trace)).mean := by
    rw [← hi.stats]
    rfl
  have hvar : s.rs.variance = (plain sqrt (accepted trace)).variance := by
    rw [← hi.stats]
    rfl
  refine ⟨hi.n_eq, ?_, ?_⟩
  · intro _
    rw [hmean, plain_mean]
  · intro h
    obtain ⟨x, y, ys, rs, hacc, hit⟩ := hi.first_two hk h
    rw [hvar, hacc, hit, plain_variance_iff]
    constructor
    · rintro rfl
      rfl
    · intro he
      exact Option.some.inj he

end

/-! ## What a rollback leaves -/

/-- A step whose mean, if it computes one, is not zero. -/
def NonzeroStep (sqrt : K → K) (startingK maxK : Nat) (s : TestLoop K) (r : Int × Outcome)
    (s' : TestLoop K) : Prop :=
  TestStep sqrt startingK maxK s r s' ∧
    (r.2 ≠ .retried → (s.rs.update sqrt (s.j + 1) (s.n + 1) r.1).mean ≠ 0)

/-- A coefficient over a mean that is not zero is a number. -/
theorem update_coeffVariance {rs : RunningStats K} {j n : Nat} {y : Int} {p : K}
    (hp : rs.coeffVariance = .num p) (hm : (rs.update sqrt j n y).mean ≠ 0) :
    ∃ q, (rs.update sqrt j n y).coeffVariance = .num q := by
  unfold RunningStats.update at hm ⊢
  dsimp only at hm ⊢
  by_cases hj : j > 2
  · rw [if_pos hj] at hm ⊢
    exact ⟨_, if_pos hm⟩
  · rw [if_neg hj]
    exact ⟨p, hp⟩

omit [Field K] in
theorem checkTarget_coeffVariance (startingK : Nat) (s : TestLoop K) :
    (s.checkTarget startingK).rs.coeffVariance = s.rs.coeffVariance := by
  rcases checkTarget_cases startingK s with ⟨-, -, he⟩ | ⟨-, he⟩ <;> rw [he]

/-- From `starting_k` on, a step keeps the coefficient or lowers it. -/
theorem coeffVariance_step (hk : 2 ≤ startingK) {s' : TestLoop K} {r : Int × Outcome} {p : K}
    (hp : s.rs.coeffVariance = .num p) (h : NonzeroStep sqrt startingK maxK s r s') :
    ∃ q, s'.rs.coeffVariance = .num q ∧ (startingK ≤ s.j → q ≤ p) := by
  obtain ⟨y, o⟩ := r
  obtain ⟨hstep, hm⟩ := h
  rcases testStep_cases sqrt hstep with ⟨-, prevY, rfl⟩ | ⟨-, -, rfl⟩ | ⟨rfl, hr, rfl⟩
  · exact ⟨p, hp, fun _ => le_refl p⟩
  · exact ⟨p, by rw [checkTarget_coeffVariance]; exact hp, fun _ => le_refl p⟩
  · obtain ⟨q, hq⟩ := update_coeffVariance hp (hm (show Outcome.accepted ≠ .retried by decide))
    refine ⟨q, by rw [checkTarget_coeffVariance]; exact hq, ?_⟩
    intro hj
    -- an accepted result is below the coefficient it replaces
    unfold rollsBack at hr
    have hthird : s.j + 1 > 2 := by omega
    have hlate : s.j + 1 > startingK := by omega
    rw [hq, hp, decide_eq_true hthird, decide_eq_true hlate, Bool.true_and, Bool.and_true] at hr
    exact le_of_lt (lt_of_not_ge (of_decide_eq_false hr))

theorem coeffVariance_run (hk : 2 ≤ startingK)
    (run : Run (NonzeroStep sqrt startingK maxK) (start startingK) trace s) :
    ∃ p, s.rs.coeffVariance = .num p := by
  refine run.invariant (I := fun s => ∃ p, s.rs.coeffVariance = .num p) (P := fun _ => True)
    ⟨0, rfl⟩ ?_ fun _ _ => trivial
  rintro t r u - ⟨p, hp⟩ h
  obtain ⟨q, hq, -⟩ := coeffVariance_step hk hp h
  exact ⟨q, hq⟩

/-- **Rolled-back results leave no trace.**  The statistics of a run are those of the plain
recurrence on its accepted results, and from `starting_k` on the coefficient does not
increase. -/
theorem rolled_back_no_trace (sqrt : K → K) (maxK : Nat) (hk : 2 ≤ startingK) :
    (∀ (trace : List (Int × Outcome)) (s : TestLoop K),
      Run (TestStep sqrt startingK maxK) (start startingK) trace s →
        s.rs.stats s.n = plain sqrt (accepted trace) ∧ s.n = (accepted trace).length) ∧
    ∀ (trace : List (Int × Outcome)) (s s' : TestLoop K) (r : Int × Outcome),
      Run (NonzeroStep sqrt startingK maxK) (start startingK) trace s →
      NonzeroStep sqrt startingK maxK s r s' → startingK ≤ s.j →
        ∃ p q, s.rs.coeffVariance = .num p ∧ s'.rs.coeffVariance = .num q ∧ q ≤ p := by
  constructor
  · intro trace s run
    have hi := loopInv_run hk run
    exact ⟨hi.stats, hi.n_eq⟩
  · intro trace s s' r run h hj
    obtain ⟨p, hp⟩ := coeffVariance_run hk run
    obtain ⟨q, hq, hle⟩ := coeffVariance_step hk hp h
    exact ⟨p, q, hp, hq, hle hj⟩

/-! ## The logged k -/

/-- Without a break, what is accepted is the first `starting_k` iterations and some later
ones. -/
theorem LoopInv.n_eq_startingK_iff (hi : LoopInv sqrt startingK trace s) (hj : startingK ≤ s.j) :
    s.n = startingK ↔ ∀ r ∈ (iterations trace).drop startingK, r.2 = .rolledBack := by
  have hsplit := List.take_append_drop startingK (iterations trace)
  have htake : ((iterations trace).take startingK).countP (fun r => r.2 = .accepted) =
      startingK := by
    rw [List.countP_eq_length.mpr (by simpa using hi.early), List.length_take, ← hi.j_eq]
    omega
  have hn : s.n = startingK + ((iterations trace).drop startingK).countP
      fun r => r.2 = .accepted := by
    have happ : ((iterations trace).take startingK ++ (iterations trace).drop startingK).countP
        (fun r => r.2 = .accepted) = ((iterations trace).take startingK).countP _ +
          ((iterations trace).drop startingK).countP _ := List.countP_append
    rw [hsplit, htake] at happ
    rw [hi.n_eq, length_accepted, happ]
  have hzero : s.n = startingK ↔
      ((iterations trace).drop startingK).countP (fun r => r.2 = .accepted) = 0 := by
    omega
  rw [hzero, List.countP_eq_zero]
  constructor
  · rintro h ⟨y, o⟩ hr
    have hne := h _ hr
    have hit : o ≠ .retried := by
      have := (List.mem_filter.mp (List.mem_of_mem_drop hr)).2
      simpa using this
    cases o with
    | retried => exact absurd rfl hit
    | rolledBack => rfl
    | accepted => simp at hne
  · intro h r hr
    rw [h r hr]
    simp

/-- **When the logged `k` is the number of samples**: the coefficient reached the target,
or nothing was accepted after `starting_k`. -/
theorem logged_k_iff (hk : 2 ≤ startingK) (hmax : startingK ≤ maxK)
    (run : Run (TestStep sqrt startingK maxK) (start startingK) trace s)
    (hret : s.returned maxK) :
    s.rs.k = (accepted trace).length ↔
      (plain sqrt (accepted trace)).coeffVariance.lt (5 / 100) = true ∨
        ∀ r ∈ (iterations trace).drop startingK, r.2 = .rolledBack := by
  have hi := loopInv_run hk run
  have hj : startingK ≤ s.j := by
    rcases hret with hmet | hle
    · exact (hi.met.mp hmet).1
    · omega
  have hcoeff : (plain sqrt (accepted trace)).coeffVariance = s.rs.coeffVariance := by
    rw [← hi.stats]
    rfl
  have hlt : s.rs.coeffVariance.lt (5 / 100) = true ↔ s.met = true := by
    rw [hi.met]
    exact ⟨fun h => ⟨hj, h⟩, fun h => h.2⟩
  rw [hcoeff, hlt, ← hi.n_eq_startingK_iff hj, ← hi.n_eq, hi.k]
  cases s.met with
  | true => simp
  | false => simp [eq_comm]

/-! ## Four results -/

/-- The state after two results that are no reason to stop. -/
theorem run_two [IsStrictOrderedRing K] (hk : 3 ≤ startingK) (hmax : 2 ≤ maxK) {x y : Int}
    (hx : 0 < x) (hy : 0 < y) (hxy : 10 * y ≤ 11 * x) :
    Run (NonzeroStep sqrt startingK maxK) (start startingK) [(x, .accepted), (y, .accepted)]
      ⟨2, 2, y, { setDefaultRunningStats startingK with mean := ((x : K) + y) / 2 }, false⟩ := by
  have h1 : (setDefaultRunningStats startingK : RunningStats K).update sqrt 1 1 x =
      { setDefaultRunningStats startingK with mean := (x : K) } := by
    simp [RunningStats.update, setDefaultRunningStats]
  have h2 : RunningStats.update sqrt
      { setDefaultRunningStats startingK with mean := (x : K) } 2 2 y =
        { setDefaultRunningStats startingK with mean := ((x : K) + y) / 2 } := by
    simp [RunningStats.update]
    norm_num
  have hx' : (x : K) ≠ 0 := Int.cast_ne_zero.mpr (by omega)
  have hxy' : ((x : K) + y) / 2 ≠ 0 := by
    refine div_ne_zero ?_ two_ne_zero
    exact_mod_cast (show x + y ≠ 0 by omega)
  have hnot : ∀ j, j ≤ 2 → ¬(startingK ≤ j ∧ Ratio.lt (K := K) (.num 0) (5 / 100) = true) := by
    intro j hj h
    omega
  have hrun (s : TestLoop K) (hm : s.met = false) (hj : s.j ≤ 1) : ¬s.returned maxK := by
    rintro (h | h)
    · rw [hm] at h
      cases h
    · omega
  have hstep1 : NonzeroStep sqrt startingK maxK (start startingK) (x, .accepted)
      ⟨1, 1, x, { setDefaultRunningStats startingK with mean := (x : K) }, false⟩ := by
    refine ⟨⟨hrun _ rfl (Nat.zero_le _), ?_⟩, ?_⟩
    · exact takeResult_accepted sqrt h1 (by rw [start, if_pos rfl]; omega) rfl (hnot 1 (by decide))
    · intro _
      show (RunningStats.update sqrt (setDefaultRunningStats startingK) 1 1 x).mean ≠ 0
      rw [h1]
      exact hx'
  have hstep2 : NonzeroStep sqrt startingK maxK
      ⟨1, 1, x, { setDefaultRunningStats startingK with mean := (x : K) }, false⟩ (y, .accepted)
      ⟨2, 2, y, { setDefaultRunningStats startingK with mean := ((x : K) + y) / 2 }, false⟩ := by
    refine ⟨⟨hrun _ rfl (Nat.le_refl _), ?_⟩, ?_⟩
    · exact takeResult_accepted sqrt h2 (by rw [if_neg (by show x ≠ -1; omega)]; exact hxy) rfl
        (hnot 2 (by decide))
    · intro _
      show (RunningStats.update sqrt { setDefaultRunningStats startingK with mean := (x : K) } 2 2
        y).mean ≠ 0
      rw [h2]
      exact hxy'
  exact (Run.nil.snoc hstep1).snoc hstep2

variable (sqrt) in
/-- The state after the results 100, 100 and 80. -/
def afterThree : TestLoop K where
  j := 3
  n := 3
  prevY := 80
  rs := { setDefaultRunningStats 3 with
    mean := 280 / 3
    variance := 400 / 3
    stdDev := sqrt (400 / 3)
    coeffVariance := .num (sqrt (400 / 3) / (280 / 3)) }
  met := false

end

def threeResults : List (Int × Outcome) := [(100, .accepted), (100, .accepted), (80, .accepted)]

theorem afterThree_far : ¬((Ratio.num (√(400 / 3) / (280 / 3))).lt (5 / 100 : ℝ) = true) := by
  intro h
  have hlt := of_decide_eq_true h
  have hsq : (14 / 3 : ℝ) ≤ √(400 / 3) := Real.le_sqrt_of_sq_le (by norm_num)
  rw [div_lt_iff₀ (by norm_num)] at hlt
  linarith

theorem run_three {maxK : Nat} (hmax : 3 ≤ maxK) :
    Run (NonzeroStep Real.sqrt 3 maxK) (start 3) threeResults (afterThree Real.sqrt) := by
  have h2 : Run (NonzeroStep Real.sqrt 3 maxK) (start 3) [(100, .accepted), (100, .accepted)]
      ⟨2, 2, 100, { setDefaultRunningStats 3 with mean := (((100 : Int) : ℝ) + (100 : Int)) / 2 },
        false⟩ :=
    run_two (by decide) (by omega) (by decide) (by decide) (by decide)
  have hu : RunningStats.update Real.sqrt
      { setDefaultRunningStats 3 with mean := (((100 : Int) : ℝ) + (100 : Int)) / 2 } 3 3 80 =
        (afterThree Real.sqrt).rs := by
    rw [update_eq Real.sqrt (m := 280 / 3) (v := 400 / 3) (by decide)
      (by push_cast; norm_num) (by simp only [setDefaultRunningStats]; push_cast; norm_num),
      Ratio.div, if_pos (by norm_num)]
    rfl
  refine h2.snoc (a := (80, .accepted)) ⟨⟨?_, takeResult_accepted Real.sqrt hu (by decide)
    (rollsBack_of_le _ _ (by decide)) fun h => afterThree_far h.2⟩, ?_⟩
  · rintro (h | h)
    · cases h
    · have : maxK ≤ 2 := h
      omega
  · intro _
    show (RunningStats.update Real.sqrt _ 3 3 80).mean ≠ 0
    rw [hu]
    show (280 / 3 : ℝ) ≠ 0
    norm_num

theorem afterThree_goes_on : ¬(afterThree Real.sqrt).returned 4 := by
  rintro (h | h)
  · cases h
  · have : 4 ≤ 3 := h
    omega

/-- 88 lowers the coefficient, which stays above the target. -/
theorem step_four :
    NonzeroStep Real.sqrt 3 4 (afterThree Real.sqrt) (88, .accepted)
      ⟨4, 4, 88, ⟨3, 5 / 100, 92, 96, √96, .num (√96 / 92)⟩, false⟩ := by
  have hu : (afterThree Real.sqrt).rs.update Real.sqrt 4 4 88 =
      ⟨3, 5 / 100, 92, 96, √96, .num (√96 / 92)⟩ := by
    rw [update_eq Real.sqrt (m := 92) (v := 96) (by decide)
      (by simp only [afterThree]; push_cast; norm_num)
      (by simp only [afterThree]; push_cast; norm_num), Ratio.div, if_pos (by norm_num)]
    rfl
  have hfar : ¬(3 ≤ 3 + 1 ∧ (Ratio.num (√96 / 92)).lt (5 / 100 : ℝ) = true) := by
    rintro ⟨-, h⟩
    have hlt := of_decide_eq_true h
    have hsq : (23 / 5 : ℝ) ≤ √96 := Real.le_sqrt_of_sq_le (by norm_num)
    rw [div_lt_iff₀ (by norm_num)] at hlt
    linarith
  have hlower : √96 / 92 < √(400 / 3) / (280 / 3) := by
    have h1 : √96 ≤ (49 / 5 : ℝ) := Real.sqrt_le_iff.mpr (by norm_num)
    have h2 : (23 / 2 : ℝ) ≤ √(400 / 3) := Real.le_sqrt_of_sq_le (by norm_num)
    rw [div_lt_div_iff₀ (by norm_num) (by norm_num)]
    linarith
  refine ⟨⟨afterThree_goes_on, takeResult_accepted Real.sqrt hu (by decide)
    (rollsBack_of_lt rfl rfl hlower) hfar⟩, ?_⟩
  intro _
  show (RunningStats.update Real.sqrt _ 4 4 88).mean ≠ 0
  rw [hu]
  norm_num

/-- 60 raises it, and is rolled back. -/
theorem step_back :
    NonzeroStep Real.sqrt 3 4 (afterThree Real.sqrt) (60, .rolledBack)
      ⟨4, 3, 60, (afterThree Real.sqrt).rs, false⟩ := by
  have hu : (afterThree Real.sqrt).rs.update Real.sqrt 4 4 60 =
      ⟨3, 5 / 100, 85, 1100 / 3, √(1100 / 3), .num (√(1100 / 3) / 85)⟩ := by
    rw [update_eq Real.sqrt (m := 85) (v := 1100 / 3) (by decide)
      (by simp only [afterThree]; push_cast; norm_num)
      (by simp only [afterThree]; push_cast; norm_num), Ratio.div, if_pos (by norm_num)]
    rfl
  have hraise : √(400 / 3) / (280 / 3) ≤ √(1100 / 3) / 85 := by
    have h1 : √(400 / 3) ≤ (12 : ℝ) := Real.sqrt_le_iff.mpr (by norm_num)
    have h2 : (19 : ℝ) ≤ √(1100 / 3) := Real.le_sqrt_of_sq_le (by norm_num)
    rw [div_le_div_iff₀ (by norm_num) (by norm_num)]
    linarith
  refine ⟨⟨afterThree_goes_on, takeResult_rolledBack Real.sqrt hu (by decide)
    (rollsBack_of_ge (by decide) (by decide) rfl rfl hraise) fun h => afterThree_far h.2⟩, ?_⟩
  intro _
  show (RunningStats.update Real.sqrt _ 4 4 60).mean ≠ 0
  rw [hu]
  norm_num

/-- 90 is more than a tenth above 80, and is not taken. -/
theorem step_retried :
    NonzeroStep Real.sqrt 3 4 (afterThree Real.sqrt) (90, .retried) (afterThree Real.sqrt) := by
  refine ⟨⟨afterThree_goes_on, ?_⟩, fun h => absurd rfl h⟩
  unfold takeResult
  exact if_pos (by decide)

/-- The fourth result is rolled back. -/
theorem run_four :
    Run (NonzeroStep Real.sqrt 3 4) (start 3)
      (threeResults ++ [(90, .retried)] ++ [(60, .rolledBack)])
      ⟨4, 3, 60, (afterThree Real.sqrt).rs, false⟩ :=
  ((run_three (show 3 ≤ 4 by decide)).snoc step_retried).snoc step_back

/-- Two equal results and a third. -/
theorem running_stats_equal :
    ∃ s : TestLoop ℝ, Run (TestStep Real.sqrt 3 3) (start 3) threeResults s ∧ s.n = 3 ∧
      s.rs.mean = mean (values ℝ [100, 100, 80]) ∧
      s.rs.variance = sampleVariance (values ℝ [100, 100, 80]) := by
  have run := (run_three (Nat.le_refl 3)).mono fun _ _ _ h => h.1
  obtain ⟨hn, hm, hv⟩ := running_stats_iff (by decide) run
  exact ⟨_, run, hn, hm (by decide), (hv (by decide)).mpr rfl⟩

/-- After 100 and 90 the variance should be 50, and is 0. -/
theorem running_stats_second :
    let trace : List (Int × Outcome) := [(100, .accepted), (90, .accepted)]
    ∃ s : TestLoop ℝ, Run (TestStep Real.sqrt 5 20) (start 5) trace s ∧
      accepted trace = [100, 90] ∧ s.rs.variance = 0 ∧
      sampleVariance (values ℝ (accepted trace)) = 50 := by
  intro trace
  refine ⟨_, (run_two (by decide) (by decide) (by decide) (by decide) (by decide)).mono
    fun _ _ _ h => h.1, rfl, rfl, ?_⟩
  rw [show values ℝ (accepted trace) = [((100 : Int) : ℝ), ((90 : Int) : ℝ)] from rfl,
    sampleVariance_pair]
  norm_num

/-- With `starting_k` 3 and `max_k` 4, the fourth of the results 100, 100, 80, 60 is rolled
back. -/
theorem rolled_back_no_trace_four :
    ∃ s s' : TestLoop ℝ,
      Run (NonzeroStep Real.sqrt 3 4) (start 3)
        [(100, .accepted), (100, .accepted), (80, .accepted)] s ∧
      NonzeroStep Real.sqrt 3 4 s (60, .rolledBack) s' ∧
      s'.rs.stats s'.n = plain Real.sqrt [100, 100, 80] ∧ s'.n = 3 ∧
      ∃ p q, s.rs.coeffVariance = .num p ∧ s'.rs.coeffVariance = .num q ∧ q ≤ p := by
  obtain ⟨hstats, hmono⟩ := rolled_back_no_trace Real.sqrt 4 (by decide : 2 ≤ 3)
  have run := run_three (show 3 ≤ 4 by decide)
  obtain ⟨h, hn⟩ := hstats _ _ ((run.snoc step_back).mono fun _ _ _ h => h.1)
  exact ⟨_, _, run, step_back, h, hn, hmono _ _ _ _ run step_back (Nat.le_refl 3)⟩

/-- An iteration after `starting_k` that is rolled back: the logged `k` is `starting_k`. -/
theorem logged_k_three :
    ∃ s : TestLoop ℝ,
      Run (TestStep Real.sqrt 3 4) (start 3)
        (threeResults ++ [(90, .retried)] ++ [(60, .rolledBack)]) s ∧
      s.returned 4 ∧ s.j = 4 ∧ s.rs.k = 3 := by
  have run := run_four.mono fun _ _ _ h => h.1
  refine ⟨_, run, .inr (Nat.le_refl 4), rfl, ?_⟩
  exact (logged_k_iff (by decide) (by decide) run (.inr (Nat.le_refl 4))).mpr (.inr (by decide))

/-- With `starting_k` 3 and `max_k` 4, statistics of four results are logged with k = 3. -/
theorem logged_k_wrong :
    ∃ s : TestLoop ℝ, runTest Real.sqrt 3 4 [100, 100, 80, 88] (start 3) = some s ∧
      s.rs.stats s.n = plain Real.sqrt [100, 100, 80, 88] ∧ s.n = 4 ∧ s.rs.k = 3 := by
  have hrun := ((run_three (show 3 ≤ 4 by decide)).snoc step_four).mono fun _ _ _ h => h.1
  refine ⟨_, (runTest_eq_some_iff _ _ _).mpr ⟨_, hrun, .inr (Nat.le_refl 4), List.prefix_refl _⟩,
    (loopInv_run (by decide) hrun).stats, rfl, rfl⟩

end KerberizedMikey
