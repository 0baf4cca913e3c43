import KerberizedMikey.TestSuite.RunTest
import KerberizedMikey.TestSuite.TimingLog
import Mathlib.Data.Fintype.Order
import Mathlib.Data.List.Chain
import Mathlib.Order.Interval.Finset.Nat
import Mathlib.Order.OrderIsoNat

/-!
# What a test returns, and when run_test1 does

A finished test returns the sum of the times it counted (`test_total`), so no result is
negative, and the -1 that stands for "no result yet" in `run_test1` is never taken for one.

From one result it takes to the next, `run_test1` lets the time grow by a tenth at most
(`taken_growth`).  A longer one is repeated until it is short enough:

    run_test1 never returns  ↔  from some result on, every one is more than 1.1 times
                                  the last one taken                  (run_test_hangs_iff)
-/

namespace KerberizedMikey

open CLib

/-! ## The time of a test -/

/-- The time a counted run logged. -/
def countedMs : ClientExec × Bool → Option Int
  | (.logs ms, true) => some ms.toInt
  | _ => none

/-- `test4` returns the time for each client. -/
def test4Time (numOfClients : Nat) (t : TimedTest) (log : TextFile) : Int :=
  (totalTime t log).tdiv numOfClients

section
variable {c : LoggingClient} {t : TimedTest} {s : TestState} {trace : List (ClientExec × Bool)}

theorem countedLine_strtol (c : LoggingClient) (trace : List (ClientExec × Bool)) :
    (trace.filterMap (countedLine c)).map strtol = trace.filterMap countedMs := by
  rw [List.map_filterMap]
  congr 1
  funext r
  match r with
  | (.logs ms, true) => exact congrArg some (strtol_logLine c ms)
  | (.logs _, false) => rfl
  | (.silent, _) => rfl
  | (.fails, _) => rfl

theorem sum_bounds {l : List Int} {b : Int} (h : ∀ z ∈ l, 0 ≤ z ∧ z ≤ b) :
    0 ≤ l.sum ∧ l.sum ≤ b * l.length := by
  induction l with
  | nil => simp
  | cons z l ih =>
    obtain ⟨h0, hb⟩ := h z List.mem_cons_self
    obtain ⟨ih0, ihb⟩ := ih fun w hw => h w (List.mem_cons_of_mem _ hw)
    rw [List.sum_cons, List.length_cons]
    push_cast
    rw [mul_add, mul_one]
    omega

/-- The total of a finished test, line by line. -/
theorem total_eq (run : Run (PassStep c t) ⟨0, 0, []⟩ trace s) (hs : s.finished t) :
    totalTime t s.log = (trace.filterMap countedMs).sum ∧
      (∀ ms ∈ trace.filterMap countedMs, 0 ≤ ms ∧ ms ≤ 100) ∧
      (trace.filterMap countedMs).length + silentCounted trace = t.outer * t.inner := by
  have hi := logInv_run run
  have hcount := (finished_counts hs hi.inLoops).symm.trans hi.count
  have hlen := hi.length
  have hmap : s.log.map strtol = trace.filterMap countedMs := by
    rw [hi.log_eq, countedLine_strtol]
  have hcounted : (trace.filterMap countedMs).length = s.log.length := by
    rw [← hmap, List.length_map]
  refine ⟨?_, ?_, by omega⟩
  · rw [totalTime, sumLines_eq 0 hi.good.fits (by omega), Int.zero_add, hmap]
  · intro ms hms
    rw [← hmap] at hms
    obtain ⟨line, hline, rfl⟩ := List.mem_map.mp hms
    obtain ⟨ms, rfl, h⟩ := hi.good line hline
    rw [strtol_logLine]
    exact h

theorem total_bounds (run : Run (PassStep c t) ⟨0, 0, []⟩ trace s) (hs : s.finished t) :
    0 ≤ totalTime t s.log ∧ totalTime t s.log ≤ 100 * (t.outer * t.inner : Nat) := by
  obtain ⟨htotal, hrange, hcount⟩ := total_eq run hs
  obtain ⟨h0, h100⟩ := sum_bounds hrange
  rw [htotal]
  omega

/-- **The time a test returns**: the sum of those it counted, each from 0 to 100; the runs
counted without a line of their own add nothing. -/
theorem test_total (run : Run (PassStep c t) ⟨0, 0, []⟩ trace s) (hs : s.finished t) :
    totalTime t s.log = (trace.filterMap countedMs).sum ∧
      (∀ ms ∈ trace.filterMap countedMs, 0 ≤ ms ∧ ms ≤ 100) ∧
      (trace.filterMap countedMs).length + silentCounted trace = t.outer * t.inner ∧
      0 ≤ totalTime t s.log ∧ totalTime t s.log ≤ 100 * (t.outer * t.inner : Nat) := by
  obtain ⟨htotal, hrange, hcount⟩ := total_eq run hs
  obtain ⟨h0, h100⟩ := total_bounds run hs
  exact ⟨htotal, hrange, hcount, h0, h100⟩

theorem test4Time_bounds {N A : Nat} (hN : 0 < N)
    (run : Run (PassStep c (.test1 N A)) ⟨0, 0, []⟩ trace s) (hs : s.finished (.test1 N A)) :
    0 ≤ test4Time N (.test1 N A) s.log ∧ test4Time N (.test1 N A) s.log ≤ 100 * A := by
  obtain ⟨h0, h100⟩ := total_bounds run hs
  have hpos : (0 : Int) < N := by exact_mod_cast hN
  have hle : totalTime (.test1 N A) s.log ≤ 100 * A * N := by
    calc totalTime (.test1 N A) s.log ≤ 100 * (N * A : Nat) := h100
      _ = 100 * A * N := by push_cast; ring
  rw [test4Time, Int.tdiv_eq_ediv_of_nonneg h0]
  exact ⟨Int.ediv_nonneg h0 hpos.le, Int.ediv_le_of_le_mul hpos hle⟩

end

/-- One client for two groups: 42 ms, and a second run that logs nothing. -/
theorem test_total_silent :
    ∃ s : TestState, Run (PassStep .sclient (.test1 1 2)) ⟨0, 0, []⟩
        [(.logs 42, true), (.silent, true)] s ∧
      s.finished (.test1 1 2) ∧ totalTime (.test1 1 2) s.log = [42].sum ∧
      [(42 : Int)].length + 1 = 2 := by
  have h2 : PassStep .sclient (.test1 1 2) ⟨0, 1, [LoggingClient.logLine .sclient 42]⟩
      (.silent, true) ⟨1, 0, [LoggingClient.logLine .sclient 42]⟩ := ⟨by decide, by decide⟩
  have run := (Run.nil.snoc pass_42).snoc h2
  have hs : (⟨1, 0, [LoggingClient.logLine .sclient 42]⟩ : TestState).finished (.test1 1 2) :=
    .inl (Nat.le_refl 1)
  obtain ⟨htotal, -, hcount, -⟩ := test_total run hs
  exact ⟨_, run, hs, htotal, hcount⟩

/-! ## One result -/

section
variable {K : Type*} [Field K] [LinearOrder K] {sqrt : K → K} {startingK maxK : Nat}

/-- `prev_y` where a result is compared with it. -/
def TestLoop.limit (s : TestLoop K) (y : Int) : Int := if s.prevY = -1 then y else s.prevY

omit [Field K] in
theorem checkTarget_prevY (startingK : Nat) (s : TestLoop K) :
    (s.checkTarget startingK).prevY = s.prevY ∧ (s.checkTarget startingK).j = s.j := by
  rcases checkTarget_cases startingK s with ⟨-, -, h⟩ | ⟨-, h⟩ <;> rw [h] <;> exact ⟨rfl, rfl⟩

variable (sqrt) in
/-- A result is too long, or taken. -/
theorem takeResult_limit (startingK : Nat) (s : TestLoop K) (y : Int) :
    (11 * s.limit y < 10 * y ∧
      takeResult sqrt startingK s y = ({ s with prevY := s.limit y }, .retried)) ∨
    (10 * y ≤ 11 * s.limit y ∧ (takeResult sqrt startingK s y).2 ≠ .retried ∧
      (takeResult sqrt startingK s y).1.prevY = y ∧
      (takeResult sqrt startingK s y).1.j = s.j + 1) := by
  unfold takeResult
  dsimp only
  by_cases hy : 10 * y > 11 * (if s.prevY = -1 then y else s.prevY)
  · rw [if_pos hy]
    exact .inl ⟨hy, rfl⟩
  · rw [if_neg hy]
    right
    refine ⟨Int.not_lt.mp hy, ?_⟩
    split
    · exact ⟨by rintro ⟨⟩, (checkTarget_prevY _ _).1, (checkTarget_prevY _ _).2⟩
    · exact ⟨by rintro ⟨⟩, (checkTarget_prevY _ _).1, (checkTarget_prevY _ _).2⟩

/-! ## From one taken result to the next -/

/-- The results taken, in order. -/
def taken (trace : List (Int × Outcome)) : List Int := (iterations trace).map Prod.fst

theorem taken_append (trace : List (Int × Outcome)) (y : Int) (o : Outcome) :
    taken (trace ++ [(y, o)]) = if o = .retried then taken trace else taken trace ++ [y] := by
  rw [taken, iterations_append]
  by_cases h : o = .retried
  · rw [if_pos h, if_pos h, taken]
  · rw [if_neg h, if_neg h, List.map_append]
    rfl

/-- `prev_y` is the last result taken; the first one is taken at once. -/
structure TakenInv (trace : List (Int × Outcome)) (s : TestLoop K) : Prop where
  chain : (taken trace).IsChain fun y y' => 10 * y' ≤ 11 * y
  first : (taken trace).head? = (trace.map Prod.fst).head?
  last : (trace = [] ∧ s.prevY = -1) ∨ ((taken trace).getLast? = some s.prevY ∧ 0 ≤ s.prevY)

section
variable {trace : List (Int × Outcome)} {s s' : TestLoop K}

omit [Field K] [LinearOrder K] in
/-- A result that is too long leaves `prev_y`. -/
theorem TakenInv.retry {y : Int} (hi : TakenInv trace s) (h0 : 0 ≤ y)
    (hlong : 11 * s.limit y < 10 * y) :
    s.limit y = s.prevY ∧ TakenInv (trace ++ [(y, .retried)]) { s with prevY := s.limit y } := by
  rcases hi.last with ⟨-, hnone⟩ | ⟨hlast, hpos⟩
  · -- the first result is its own limit
    rw [TestLoop.limit, if_pos hnone] at hlong
    omega
  have hlimit : s.limit y = s.prevY := if_neg (by omega)
  have htaken : taken (trace ++ [(y, Outcome.retried)]) = taken trace := taken_append trace y _
  refine ⟨hlimit, ?_, ?_, .inr ⟨?_, ?_⟩⟩
  · rw [htaken]
    exact hi.chain
  · have hne : trace ≠ [] := by
      rintro rfl
      cases hlast
    rw [htaken, hi.first, List.map_append, List.head?_append_of_ne_nil]
    simpa using hne
  · rw [htaken, hlast, hlimit]
  · show 0 ≤ s.limit y
    rw [hlimit]
    exact hpos

omit [Field K] [LinearOrder K] in
/-- A result that is taken follows the last one. -/
theorem TakenInv.take {y : Int} {o : Outcome} (hi : TakenInv trace s) (h0 : 0 ≤ y)
    (ho : o ≠ .retried) (hle : 10 * y ≤ 11 * s.limit y) (hprev : s'.prevY = y) :
    TakenInv (trace ++ [(y, o)]) s' := by
  have htaken : taken (trace ++ [(y, o)]) = taken trace ++ [y] := by
    rw [taken_append, if_neg ho]
  refine ⟨?_, ?_, .inr ⟨?_, by rw [hprev]; exact h0⟩⟩
  · rw [htaken]
    apply List.IsChain.append hi.chain (List.isChain_singleton _)
    intro x hx z hz
    cases hz
    rcases hi.last with ⟨rfl, -⟩ | ⟨hlast, hpos⟩
    · cases hx
    · rw [hlast] at hx
      cases hx
      rwa [TestLoop.limit, if_neg (by omega)] at hle
  · rw [htaken, List.map_append, List.head?_append, List.head?_append, hi.first]
    rfl
  · rw [htaken, List.getLast?_concat, hprev]

theorem takenInv_step {r : Int × Outcome} (hi : TakenInv trace s) (h0 : 0 ≤ r.1)
    (h : TestStep sqrt startingK maxK s r s') : TakenInv (trace ++ [r]) s' := by
  obtain ⟨y, o⟩ := r
  obtain ⟨-, h⟩ := h
  obtain rfl : (takeResult sqrt startingK s y).2 = o := congrArg Prod.snd h
  obtain rfl : (takeResult sqrt startingK s y).1 = s' := congrArg Prod.fst h
  rcases takeResult_limit sqrt startingK s y with ⟨hlong, he⟩ | ⟨hle, hne, hprev, -⟩
  · rw [he]
    exact (hi.retry h0 hlong).2
  · exact hi.take h0 hne hle hprev

theorem takenInv_run (run : Run (TestStep sqrt startingK maxK) (start startingK) trace s)
    (h0 : ∀ r ∈ trace, 0 ≤ r.1) : TakenInv trace s := by
  induction run with
  | nil => exact ⟨List.isChain_nil, rfl, .inl ⟨rfl, rfl⟩⟩
  | snoc _ h ih =>
    exact takenInv_step (ih fun r hr => h0 r (List.mem_append_left _ hr)) (h0 _ (by simp)) h

end

/-- A chain grows by no more than a tenth at each link. -/
theorem growth_of_chain {ys : List Int} (h : ys.IsChain fun y y' => 10 * y' ≤ 11 * y)
    (i j : Nat) (hj : i + j < ys.length) : 10 ^ j * ys[i + j] ≤ 11 ^ j * ys[i] := by
  induction j with
  | zero => simp
  | succ j ih =>
    have hlink : 10 * ys[i + j + 1] ≤ 11 * ys[i + j] := List.isChain_iff_getElem.mp h (i + j) hj
    have ih := ih (by omega)
    calc (10 : Int) ^ (j + 1) * ys[i + (j + 1)] = 10 ^ j * (10 * ys[i + j + 1]) := by
          rw [pow_succ, mul_assoc]
          rfl
      _ ≤ 10 ^ j * (11 * ys[i + j]) := by gcongr
      _ = 11 * (10 ^ j * ys[i + j]) := by ring
      _ ≤ 11 * (11 ^ j * ys[i]) := by gcongr
      _ = 11 ^ (j + 1) * ys[i] := by ring

/-- **What run_test1 takes**: the first result, and no other that is more than a tenth above
the one before; after `j` more the time has grown by `1.1 ^ j` at most, and a 0 is followed
by nothing else. -/
theorem taken_growth {trace : List (Int × Outcome)} {s : TestLoop K}
    (run : Run (TestStep sqrt startingK maxK) (start startingK) trace s)
    (h0 : ∀ r ∈ trace, 0 ≤ r.1) :
    (taken trace).head? = (trace.map Prod.fst).head? ∧
      ∀ (i j : Nat) (hj : i + j < (taken trace).length),
        10 ^ j * (taken trace)[i + j] ≤ 11 ^ j * (taken trace)[i] := by
  have hi := takenInv_run run h0
  exact ⟨hi.first, fun i j hj => growth_of_chain hi.chain i j hj⟩

end

/-- 90 after 80 is not taken, and 60 is. -/
theorem taken_growth_three :
    let trace := threeResults ++ [(90, .retried)] ++ [(60, .rolledBack)]
    ∃ s : TestLoop ℝ, Run (TestStep Real.sqrt 3 4) (start 3) trace s ∧
      taken trace = [100, 100, 80, 60] ∧ (10 : Int) ^ 3 * 60 ≤ 11 ^ 3 * 100 := by
  intro trace
  have run := run_four.mono fun _ _ _ h => h.1
  exact ⟨_, run, rfl, (taken_growth run (by decide)).2 0 3 (by decide)⟩

/-! ## When run_test1 returns -/

section
variable {K : Type*} [Field K] [LinearOrder K] {sqrt : K → K} {startingK maxK : Nat}

variable (sqrt startingK) in
/-- The state after `n` results, if the loop has not been left. -/
def after (y : Nat → Int) : Nat → TestLoop K
  | 0 => start startingK
  | n + 1 => (takeResult sqrt startingK (after y n) (y n)).1

/-- The first `n` results. -/
def results (y : Nat → Int) (n : Nat) : List Int := (List.range n).map y

theorem results_succ (y : Nat → Int) (n : Nat) : results y (n + 1) = results y n ++ [y n] := by
  rw [results, List.range_succ, List.map_append]
  rfl

theorem results_prefix (y : Nat → Int) (n k : Nat) : results y n <+: results y (n + k) := by
  induction k with
  | zero => exact List.prefix_refl _
  | succ k ih =>
    rw [← Nat.add_assoc, results_succ]
    exact ih.trans (List.prefix_append _ _)

/-- As long as the loop is not left it goes through these states. -/
theorem run_after (y : Nat → Int) {n : Nat}
    (h : ∀ k, k < n → ¬(after sqrt startingK y k).returned maxK) :
    ∃ trace, Run (TestStep sqrt startingK maxK) (start startingK) trace
      (after sqrt startingK y n) ∧ trace.map Prod.fst = results y n := by
  induction n with
  | zero => exact ⟨[], .nil, rfl⟩
  | succ n ih =>
    obtain ⟨trace, run, hfst⟩ := ih fun k hk => h k (Nat.lt_succ_of_lt hk)
    refine ⟨trace ++ [(y n, (takeResult sqrt startingK (after sqrt startingK y n) (y n)).2)],
      run.snoc ⟨h n (Nat.lt_succ_self n), rfl⟩, ?_⟩
    rw [List.map_append, hfst, results_succ]
    rfl

/-- And it goes through no others. -/
theorem after_of_run {y : Nat → Int} {trace : List (Int × Outcome)} {s : TestLoop K}
    (run : Run (TestStep sqrt startingK maxK) (start startingK) trace s)
    (hfst : trace.map Prod.fst = results y trace.length) :
    s = after sqrt startingK y trace.length ∧
      ∀ k, k < trace.length → ¬(after sqrt startingK y k).returned maxK := by
  induction run with
  | nil =>
    refine ⟨rfl, ?_⟩
    intro k hk
    cases hk
  | @snoc trace t r u run h ih =>
    rw [List.length_append, List.length_singleton, List.map_append, results_succ] at hfst
    obtain ⟨hfst, hr⟩ := List.append_inj' hfst rfl
    obtain ⟨rfl, hnot⟩ := ih hfst
    have hr : r.1 = y trace.length := List.singleton_inj.mp hr
    rw [List.length_append, List.length_singleton]
    refine ⟨?_, ?_⟩
    · rw [after, ← hr, h.2]
    · intro k hk
      rcases Nat.lt_succ_iff_lt_or_eq.mp hk with hk | rfl
      · exact hnot k hk
      · exact h.1

/-- `run_test1` does not return when no state of these is one to return in. -/
theorem runTest_eq_none_iff (y : Nat → Int) :
    (∀ n, runTest sqrt startingK maxK (results y n) (start startingK) = none) ↔
      ∀ k, ¬(after sqrt startingK y k).returned maxK := by
  constructor
  · intro h k
    induction k using Nat.strong_induction_on with
    | _ k ih =>
      intro hret
      obtain ⟨trace, run, hfst⟩ := run_after y ih
      have hsome := (runTest_eq_some_iff (results y k) (start startingK) _).mpr
        ⟨trace, run, hret, by rw [hfst]⟩
      rw [h k] at hsome
      cases hsome
  · intro h n
    by_contra hne
    obtain ⟨u, hu⟩ := Option.ne_none_iff_exists'.mp hne
    obtain ⟨trace, run, hret, hpre⟩ := (runTest_eq_some_iff _ _ _).mp hu
    have hlen : trace.length ≤ n := by
      have := hpre.length_le
      rwa [List.length_map, results, List.length_map, List.length_range] at this
    have hfst : trace.map Prod.fst = results y trace.length := by
      have hpre' := results_prefix y trace.length (n - trace.length)
      rw [Nat.add_sub_cancel' hlen] at hpre'
      have hprefix := List.prefix_of_prefix_length_le hpre hpre' (by simp [results])
      exact hprefix.eq_of_length (by simp [results])
    rw [(after_of_run run hfst).1] at hret
    exact h _ hret

variable (sqrt startingK) in
/-- A result moves `j` on by one, or it is too long. -/
theorem j_after (y : Nat → Int) (n : Nat) :
    (after sqrt startingK y (n + 1)).j = (after sqrt startingK y n).j + 1 ∨
      (11 * (after sqrt startingK y n).limit (y n) < 10 * y n ∧
        after sqrt startingK y (n + 1) = { after sqrt startingK y n with
          prevY := (after sqrt startingK y n).limit (y n) }) := by
  rcases takeResult_limit sqrt startingK (after sqrt startingK y n) (y n) with
    ⟨hlong, he⟩ | ⟨-, -, -, hj⟩
  · exact .inr ⟨hlong, congrArg Prod.fst he⟩
  · exact .inl hj

/-- What is bounded and does not go down is constant in the end. -/
theorem exists_stable {f : Nat → Nat} {b : Nat} (hmono : Monotone f) (hb : ∀ n, f n ≤ b) :
    ∃ N, ∀ n, N ≤ n → f n = f N := by
  obtain ⟨N, hN⟩ := WellFoundedGT.monotone_chain_condition
    (⟨fun n => ⟨f n, hb n⟩, fun _ _ h => hmono h⟩ : Nat →o Set.Iic b)
  exact ⟨N, fun n hn => (congrArg Subtype.val (hN n hn)).symm⟩

/-- Behind a result taken, a result that is too long changes nothing. -/
theorem after_of_long {y : Nat → Int} {N : Nat} (hpos : 0 ≤ (after sqrt startingK y N).prevY)
    (hlong : ∀ m, N ≤ m → 11 * (after sqrt startingK y N).prevY < 10 * y m) (d : Nat) :
    after sqrt startingK y (N + d) = after sqrt startingK y N := by
  induction d with
  | zero => rfl
  | succ d ih =>
    have hlimit : (after sqrt startingK y (N + d)).limit (y (N + d)) =
        (after sqrt startingK y N).prevY := by
      rw [ih]
      exact if_neg (by omega)
    rw [← Nat.add_assoc, after]
    rcases takeResult_limit sqrt startingK (after sqrt startingK y (N + d)) (y (N + d)) with
      ⟨-, he⟩ | ⟨hle, -⟩
    · rw [he, hlimit, ih]
    · rw [hlimit] at hle
      have := hlong (N + d) (Nat.le_add_right N d)
      omega

/-- If the loop is never left, `j` stops, and from there on every result is too long. -/
theorem long_of_never {y : Nat → Int} (h0 : ∀ m, 0 ≤ y m)
    (hnever : ∀ k, ¬(after sqrt startingK y k).returned maxK) :
    ∃ N, 0 ≤ (after sqrt startingK y (N + 1)).prevY ∧
      ∀ m, N + 1 ≤ m → 11 * (after sqrt startingK y (N + 1)).prevY < 10 * y m := by
  have hmono : Monotone fun n => (after sqrt startingK y n).j := by
    apply monotone_nat_of_le_succ
    intro n
    rcases j_after sqrt startingK y n with hj | ⟨-, he⟩
    · omega
    · rw [he]
  have hbound : ∀ n, (after sqrt startingK y n).j ≤ maxK := by
    intro n
    by_contra hlt
    exact hnever n (.inr (by omega))
  obtain ⟨N, hN⟩ := exists_stable hmono hbound
  have hlong : ∀ m, N ≤ m → 11 * (after sqrt startingK y m).limit (y m) < 10 * y m ∧
      after sqrt startingK y (m + 1) = { after sqrt startingK y m with
        prevY := (after sqrt startingK y m).limit (y m) } := by
    intro m hm
    rcases j_after sqrt startingK y m with hj | h
    · have h1 := hN m hm
      have h2 := hN (m + 1) (by omega)
      omega
    · exact h
  -- something has been taken by now
  have hpos : 0 ≤ (after sqrt startingK y (N + 1)).prevY := by
    obtain ⟨trace, run, hfst⟩ := run_after y (n := N + 1) fun k _ => hnever k
    have hres : ∀ r ∈ trace, 0 ≤ r.1 := by
      intro r hr
      have hmem : r.1 ∈ results y (N + 1) := by
        rw [← hfst]
        exact List.mem_map_of_mem hr
      obtain ⟨m, -, hm⟩ := List.mem_map.mp hmem
      rw [← hm]
      exact h0 m
    rcases (takenInv_run run hres).last with ⟨rfl, -⟩ | ⟨-, h⟩
    · rw [results_succ] at hfst
      simp at hfst
    · exact h
  refine ⟨N, hpos, ?_⟩
  have hkeep : ∀ d, (after sqrt startingK y (N + 1 + d)).prevY =
      (after sqrt startingK y (N + 1)).prevY := by
    intro d
    induction d with
    | zero => rfl
    | succ d ih =>
      rw [← Nat.add_assoc, (hlong (N + 1 + d) (by omega)).2]
      show TestLoop.limit _ _ = _
      rw [TestLoop.limit, if_neg (by omega), ih]
  intro m hm
  obtain ⟨d, rfl⟩ := Nat.exists_eq_add_of_le hm
  have := (hlong (N + 1 + d) (by omega)).1
  rwa [TestLoop.limit, if_neg (by rw [hkeep]; omega), hkeep] at this

/-- **When run_test1 never returns**: when after some result, with the loop not left, every
result is more than a tenth above the last one taken. -/
theorem run_test_hangs_iff {y : Nat → Int} (h0 : ∀ m, 0 ≤ y m) :
    (∀ n, runTest sqrt startingK maxK (results y n) (start startingK) = none) ↔
      ∃ (trace : List (Int × Outcome)) (s : TestLoop K),
        Run (TestStep sqrt startingK maxK) (start startingK) trace s ∧
        trace.map Prod.fst = results y trace.length ∧ ¬s.returned maxK ∧ 0 ≤ s.prevY ∧
        ∀ m, trace.length ≤ m → 11 * s.prevY < 10 * y m := by
  rw [runTest_eq_none_iff]
  constructor
  · intro hnever
    obtain ⟨N, hpos, hlong⟩ := long_of_never h0 hnever
    obtain ⟨trace, run, hfst⟩ := run_after y (n := N + 1) fun k _ => hnever k
    have hlen : trace.length = N + 1 := by
      rw [← List.length_map Prod.fst, hfst, results, List.length_map, List.length_range]
    exact ⟨trace, _, run, by rw [hlen]; exact hfst, hnever _, hpos, by rw [hlen]; exact hlong⟩
  · rintro ⟨trace, s, run, hfst, hret, hpos, hlong⟩ k
    obtain ⟨rfl, hbefore⟩ := after_of_run run hfst
    rcases Nat.lt_or_ge k trace.length with hk | hk
    · exact hbefore k hk
    · obtain ⟨d, rfl⟩ := Nat.exists_eq_add_of_le hk
      rw [after_of_long hpos hlong]
      exact hret

end

/-- Nobody needs a millisecond, and then somebody does each time. -/
theorem run_test_hangs_zero :
    ¬∃ n, runTest Real.sqrt 5 20 (results (fun m => if m = 0 then 0 else 1) n) (start 5) ≠
      none := by
  have hstep : TestStep Real.sqrt 5 20 (start 5) (0, .accepted)
      ⟨1, 1, 0, (setDefaultRunningStats 5).update Real.sqrt 1 1 0, false⟩ := by
    refine ⟨by decide, takeResult_accepted Real.sqrt rfl (by decide)
      (rollsBack_of_le _ _ (by decide)) ?_⟩
    rintro ⟨h, -⟩
    exact absurd h (by decide)
  rintro ⟨n, hn⟩
  refine hn ((run_test_hangs_iff (y := fun m => if m = 0 then 0 else 1) ?_).mpr
    ⟨_, _, Run.nil.snoc hstep, rfl, by decide, le_refl 0, ?_⟩ n)
  · intro m
    split <;> decide
  · intro m hm
    have hm : 1 ≤ m := hm
    show (11 * 0 : Int) < 10 * if m = 0 then 0 else 1
    rw [if_neg (by omega)]
    decide

/-! ## The statistics -/

section
variable {K : Type*} [Field K] [LinearOrder K] {sqrt : K → K} {startingK maxK : Nat}
  [IsStrictOrderedRing K]

variable (sqrt) in
/-- The distances of a value from the means behind and before it have one sign. -/
theorem mul_dev_nonneg (s : Stats K) (y : Int) :
    0 ≤ (y - (s.add sqrt y).mean) * (y - s.mean) := by
  have hn : (0 : K) < s.n + 1 := by positivity
  have hdev : (y : K) - (s.add sqrt y).mean = s.n * (y - s.mean) / (s.n + 1) := by
    rw [add_mean]
    field_simp
    ring
  rw [hdev, div_mul_eq_mul_div, mul_assoc, ← sq]
  positivity

/-- `sqrt` is given no negative number. -/
theorem plain_variance_nonneg (ys : List Int) : 0 ≤ (plain sqrt ys).variance := by
  induction ys using List.reverseRecOn with
  | nil => exact le_refl (0 : K)
  | append_singleton ys y ih =>
    rw [plain_append]
    by_cases hn : 2 ≤ (plain sqrt ys).n
    · rw [add_variance sqrt _ y hn]
      have hn' : (1 : K) ≤ (plain sqrt ys).n := by
        exact_mod_cast (show 1 ≤ (plain sqrt ys).n by omega)
      have hdev := mul_dev_nonneg sqrt (plain sqrt ys) y
      have hold : 0 ≤ (((plain sqrt ys).n : K) - 1) * (plain sqrt ys).variance :=
        mul_nonneg (sub_nonneg.mpr hn') ih
      exact div_nonneg (add_nonneg hold hdev) (by linarith)
    · unfold Stats.add
      dsimp only
      rw [if_neg (by omega)]
      exact ih

/-- The mean lies between bounds of the values. -/
theorem mean_bounds {l : List K} (hne : l ≠ []) {a b : K} (h : ∀ x ∈ l, a ≤ x ∧ x ≤ b) :
    a ≤ mean l ∧ mean l ≤ b := by
  have hpos : (0 : K) < l.length := by
    exact_mod_cast List.length_pos_iff.mpr hne
  have hlow := List.card_nsmul_le_sum l a fun x hx => (h x hx).1
  have hhigh := List.sum_le_card_nsmul l b fun x hx => (h x hx).2
  rw [nsmul_eq_mul] at hlow hhigh
  rw [mean, le_div_iff₀ hpos, div_le_iff₀ hpos, mul_comm a, mul_comm b]
  exact ⟨hlow, hhigh⟩

theorem mean_run_bounds {trace : List (Int × Outcome)} {s : TestLoop K} (hk : 2 ≤ startingK)
    (run : Run (TestStep sqrt startingK maxK) (start startingK) trace s)
    (hne : accepted trace ≠ []) {a b : Int} (h : ∀ z ∈ accepted trace, a ≤ z ∧ z ≤ b) :
    (a : K) ≤ s.rs.mean ∧ s.rs.mean ≤ b := by
  have hmean : s.rs.mean = (plain sqrt (accepted trace)).mean := by
    rw [← (loopInv_run hk run).stats]
    rfl
  rw [hmean, plain_mean]
  apply mean_bounds
  · intro hnil
    exact hne (List.map_eq_nil_iff.mp hnil)
  · intro z hz
    obtain ⟨w, hw, rfl⟩ := List.mem_map.mp hz
    exact ⟨by exact_mod_cast (h w hw).1, by exact_mod_cast (h w hw).2⟩

theorem variance_run_nonneg {trace : List (Int × Outcome)} {s : TestLoop K} (hk : 2 ≤ startingK)
    (run : Run (TestStep sqrt startingK maxK) (start startingK) trace s) : 0 ≤ s.rs.variance := by
  have hvar : s.rs.variance = (plain sqrt (accepted trace)).variance := by
    rw [← (loopInv_run hk run).stats]
    rfl
  rw [hvar]
  exact plain_variance_nonneg _

/-- **The statistics at any moment** of `run_test1`, from the second accepted result on: the
mean lies between the results; the variance is not negative, and below the sample variance
by what the first two results leave out. -/
theorem statistics_bounds {trace : List (Int × Outcome)} {s : TestLoop K} (hk : 2 ≤ startingK)
    (run : Run (TestStep sqrt startingK maxK) (start startingK) trace s) {x y : Int}
    {ys : List Int} (hacc : accepted trace = x :: y :: ys) :
    (∀ a b : Int, (∀ z ∈ accepted trace, a ≤ z ∧ z ≤ b) →
      (a : K) ≤ s.rs.mean ∧ s.rs.mean ≤ b) ∧
    0 ≤ s.rs.variance ∧
    s.rs.variance = sampleVariance (values K (accepted trace)) -
      ((x : K) - y) ^ 2 / (2 * (ys.length + 1)) := by
  refine ⟨fun a b hab => mean_run_bounds hk run (by simp [hacc]) hab,
    variance_run_nonneg hk run, ?_⟩
  have hvar : s.rs.variance = (plain sqrt (accepted trace)).variance := by
    rw [← (loopInv_run hk run).stats]
    rfl
  rw [hvar, hacc]
  have h := plain_variance sqrt x y ys
  have hn : (ys.length : K) + 1 ≠ 0 := succ_ne_zero _
  simp only [List.length_cons] at h
  push_cast at h
  rw [show (ys.length : K) + 1 + 1 - 1 = ys.length + 1 by ring] at h
  have hdiff : sampleVariance (values K (x :: y :: ys)) - (plain sqrt (x :: y :: ys)).variance =
      ((x : K) - y) ^ 2 / (2 * (ys.length + 1)) := by
    rw [eq_div_iff (mul_ne_zero two_ne_zero hn)]
    calc _ = 2 * (((ys.length : K) + 1) * (sampleVariance (values K (x :: y :: ys)) -
          (plain sqrt (x :: y :: ys)).variance)) := by ring
      _ = 2 * (((x : K) - y) ^ 2 / 2) := by rw [h]
      _ = ((x : K) - y) ^ 2 := mul_div_cancel₀ _ two_ne_zero
  rw [← hdiff]
  ring

end

/-- The results 100, 100 and 80, and 60, which is rolled back. -/
theorem statistics_bounds_three :
    ∃ s : TestLoop ℝ,
      Run (TestStep Real.sqrt 3 4) (start 3)
        (threeResults ++ [(90, .retried)] ++ [(60, .rolledBack)]) s ∧
      (80 ≤ s.rs.mean ∧ s.rs.mean ≤ 100) ∧ 0 ≤ s.rs.variance := by
  have run := run_four.mono fun _ _ _ h => h.1
  obtain ⟨hmean, hvar, -⟩ := statistics_bounds (by decide) run rfl
  exact ⟨_, run, by exact_mod_cast hmean 80 100 (by decide), hvar⟩

end KerberizedMikey
