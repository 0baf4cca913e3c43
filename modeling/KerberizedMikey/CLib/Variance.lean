import Mathlib.Algebra.BigOperators.Group.List.Basic
import Mathlib.Algebra.Order.Field.Basic
import Mathlib.Algebra.Ring.CharZero
import Mathlib.Tactic.FieldSimp
import Mathlib.Tactic.Ring

/-!
# Mean and sample variance, one value at a time

    mean (l ++ [y])           = (mean l * n + y) / (n + 1)               (mean_append)
    sampleVariance (l ++ [y]) = ((n - 1) * sampleVariance l + d) / n     (sampleVariance_append)

with `n` the length of `l` and `d = (y - mean (l ++ [y])) * (y - mean l)`.
-/

namespace CLib

section
variable {K : Type*} [Field K]

def mean (l : List K) : K := l.sum / l.length

/-- The squared deviations from the mean. -/
def sumSqDev (l : List K) : K := (l.map fun x => (x - mean l) ^ 2).sum

/-- The unbiased sample variance. -/
def sampleVariance (l : List K) : K := sumSqDev l / (l.length - 1)

theorem sum_sq_sub (l : List K) (m : K) :
    (l.map fun x => (x - m) ^ 2).sum = (l.map (· ^ 2)).sum - 2 * m * l.sum + l.length * m ^ 2 := by
  induction l with
  | nil => simp
  | cons x l ih =>
    rw [List.map_cons, List.sum_cons, ih, List.map_cons, List.sum_cons, List.sum_cons,
      List.length_cons]
    push_cast
    ring

variable [CharZero K]

theorem length_ne_zero {l : List K} (h : l ≠ []) : (l.length : K) ≠ 0 :=
  Nat.cast_ne_zero.mpr fun h0 => h (List.length_eq_zero_iff.mp h0)

theorem succ_ne_zero (n : Nat) : (n : K) + 1 ≠ 0 := Nat.cast_add_one_ne_zero n

theorem mean_mul_length {l : List K} (h : l ≠ []) : mean l * l.length = l.sum :=
  div_mul_cancel₀ _ (length_ne_zero h)

theorem mean_append {l : List K} (y : K) (h : l ≠ []) :
    mean (l ++ [y]) = (mean l * l.length + y) / (l.length + 1) := by
  rw [mean_mul_length h, mean, List.sum_append, List.sum_singleton, List.length_append,
    List.length_singleton]
  push_cast
  rfl

theorem sumSqDev_eq {l : List K} (h : l ≠ []) :
    sumSqDev l = (l.map (· ^ 2)).sum - l.length * mean l ^ 2 := by
  rw [sumSqDev, sum_sq_sub, ← mean_mul_length h]
  ring

/-- A value adds the product of its distances from the two means. -/
theorem sumSqDev_append {l : List K} (y : K) (h : l ≠ []) :
    sumSqDev (l ++ [y]) = sumSqDev l + (y - mean (l ++ [y])) * (y - mean l) := by
  have hne : l ++ [y] ≠ [] := by simp
  have hn := succ_ne_zero (K := K) l.length
  rw [sumSqDev_eq hne, sumSqDev_eq h, mean_append y h, List.map_append, List.sum_append,
    List.map_singleton, List.sum_singleton, List.length_append, List.length_singleton]
  push_cast
  field_simp
  ring

theorem sampleVariance_append {l : List K} (y : K) (h : 2 ≤ l.length) :
    sampleVariance (l ++ [y]) =
      ((l.length - 1) * sampleVariance l + (y - mean (l ++ [y])) * (y - mean l)) / l.length := by
  have hne : l ≠ [] := by
    rintro rfl
    cases h
  have h1 : (l.length : K) - 1 ≠ 0 := by
    obtain ⟨n, hn⟩ : ∃ n, l.length = n + 2 := ⟨l.length - 2, by omega⟩
    have := succ_ne_zero (K := K) n
    rw [hn]
    push_cast
    rwa [show (n : K) + 2 - 1 = n + 1 by ring]
  rw [sampleVariance, sampleVariance, sumSqDev_append y hne, mul_div_cancel₀ _ h1,
    List.length_append, List.length_singleton]
  push_cast
  rw [add_sub_cancel_right]

/-- The variance of two values. -/
theorem sampleVariance_pair (x y : K) : sampleVariance [x, y] = (x - y) ^ 2 / 2 := by
  have h2 : (2 : K) ≠ 0 := two_ne_zero
  simp only [sampleVariance, sumSqDev, mean, List.map_cons, List.map_nil, List.sum_cons,
    List.sum_nil, List.length_cons, List.length_nil]
  push_cast
  field_simp
  ring

end

end CLib
