import Mathlib.Data.List.Induction
import Mathlib.Tactic.Common

/-!
# Runs of a labelled transition system

`Run step s as t`: from `s`, steps labelled `as` in this order reach `t`.  A
property of single steps becomes one of whole runs:

* `Run.invariant` : what every step preserves holds at the end
* `Run.trace_invariant` : the same for a relation between the labels so far and the state
* `Run.exists_iff` : where a step of label `a` exists just when `P a`, a run does when all do
* `Run.map`    : where each step is one of another system, each run is
* `Run.simulate`  : where each step of one system is a step of another, or none, of the
  states' images, each run is a run of the images
-/

namespace CLib

section
variable {σ α : Type*} {step : σ → α → σ → Prop} {s : σ}

inductive Run (step : σ → α → σ → Prop) (s : σ) : List α → σ → Prop
  | nil : Run step s [] s
  | snoc {as : List α} {t : σ} {a : α} {u : σ} (run : Run step s as t) (h : step t a u) :
      Run step s (as ++ [a]) u

theorem Run.mono {step' : σ → α → σ → Prop} (h : ∀ t a u, step t a u → step' t a u)
    {as : List α} {t : σ} (run : Run step s as t) : Run step' s as t := by
  induction run with
  | nil => exact .nil
  | snoc _ hs ih => exact ih.snoc (h _ _ _ hs)

/-- **Invariants.**  Only the steps whose labels satisfy `P` need to preserve `I`. -/
theorem Run.invariant {I : σ → Prop} {P : α → Prop} (h0 : I s)
    (hstep : ∀ t a u, P a → I t → step t a u → I u)
    {as : List α} {t : σ} (run : Run step s as t) (hP : ∀ a ∈ as, P a) : I t := by
  induction run with
  | nil => exact h0
  | @snoc as t a u _ h ih =>
    have hI := ih fun b hb => hP b (List.mem_append_left _ hb)
    exact hstep t a u (hP a (by simp)) hI h

/-- **Trace invariants.**  `I` relates the labels so far to the state. -/
theorem Run.trace_invariant {I : List α → σ → Prop} (h0 : I [] s)
    (hstep : ∀ as t a u, I as t → step t a u → I (as ++ [a]) u)
    {as : List α} {t : σ} (run : Run step s as t) : I as t := by
  induction run with
  | nil => exact h0
  | snoc _ h ih => exact hstep _ _ _ _ ih h

theorem Run.append_singleton_iff {as : List α} {a : α} {u : σ} :
    Run step s (as ++ [a]) u ↔ ∃ t, Run step s as t ∧ step t a u := by
  constructor
  · intro h
    generalize hbs : as ++ [a] = bs at h
    cases h with
    | nil => simp at hbs
    | @snoc as' t a' _ run hstep =>
      obtain ⟨rfl, ha⟩ := List.append_inj' hbs rfl
      cases ha
      exact ⟨t, run, hstep⟩
  · rintro ⟨t, run, hstep⟩
    exact run.snoc hstep

theorem Run.append {as bs : List α} {t u : σ} (h₁ : Run step s as t) (h₂ : Run step t bs u) :
    Run step s (as ++ bs) u := by
  induction h₂ with
  | nil => rwa [List.append_nil]
  | snoc _ h ih =>
    rw [← List.append_assoc]
    exact ih.snoc h

theorem Run.nil_eq {t : σ} (run : Run step s [] t) : t = s := by
  generalize h : ([] : List α) = as at run
  cases run with
  | nil => rfl
  | snoc => simp at h

theorem Run.cons_iff {a : α} {as : List α} {u : σ} :
    Run step s (a :: as) u ↔ ∃ t, step s a t ∧ Run step t as u := by
  constructor
  · intro run
    induction as using List.reverseRecOn generalizing u with
    | nil =>
      obtain ⟨t, h0, h⟩ := append_singleton_iff.mp (show Run step s ([] ++ [a]) u from run)
      cases h0.nil_eq
      exact ⟨u, h, .nil⟩
    | append_singleton as b ih =>
      obtain ⟨w, h0, hb⟩ := append_singleton_iff.mp
        (show Run step s ((a :: as) ++ [b]) u from run)
      obtain ⟨t, h, hrun⟩ := ih h0
      exact ⟨t, h, hrun.snoc hb⟩
  · rintro ⟨t, h, run⟩
    induction run with
    | nil => exact Run.nil.snoc h
    | snoc _ hb ih => exact ih.snoc hb

/-- **When a run exists.**  The labels alone decide, if an invariant makes each step
depend on its label only. -/
theorem Run.exists_iff {I : σ → Prop} {P : α → Prop} (h0 : I s)
    (hstep : ∀ t a u, I t → step t a u → I u)
    (hP : ∀ t a, I t → ((∃ u, step t a u) ↔ P a)) (as : List α) :
    (∃ t, Run step s as t) ↔ ∀ a ∈ as, P a := by
  induction as using List.reverseRecOn with
  | nil => exact iff_of_true ⟨s, .nil⟩ (by simp)
  | append_singleton as a ih =>
    constructor
    · rintro ⟨u, run⟩ b hb
      obtain ⟨t, run, h⟩ := Run.append_singleton_iff.mp run
      have hI : I t := run.invariant (P := fun _ => True) h0 (fun t a u _ => hstep t a u)
        fun _ _ => trivial
      rcases List.mem_append.mp hb with hb | hb
      · exact ih.mp ⟨t, run⟩ b hb
      · rw [List.mem_singleton.mp hb]
        exact (hP t a hI).mp ⟨u, h⟩
    · intro hall
      obtain ⟨t, run⟩ := ih.mpr fun b hb => hall b (List.mem_append_left _ hb)
      have hI : I t := run.invariant (P := fun _ => True) h0 (fun t a u _ => hstep t a u)
        fun _ _ => trivial
      obtain ⟨u, h⟩ := (hP t a hI).mpr (hall a (by simp))
      exact ⟨u, run.snoc h⟩

theorem Run.map {τ β : Type*} {step' : τ → β → τ → Prop} {f : σ → τ} {g : α → β}
    (hstep : ∀ t a u, step t a u → step' (f t) (g a) (f u)) {as : List α} {t : σ}
    (run : Run step s as t) : Run step' (f s) (as.map g) (f t) := by
  induction run with
  | nil => exact .nil
  | @snoc as t a u _ h ih =>
    rw [List.map_append]
    exact ih.snoc (hstep t a u h)

/-- **Simulation** along `f`, on the states that satisfy an invariant `I`. -/
theorem Run.simulate {τ β : Type*} {step' : τ → β → τ → Prop} {f : σ → τ} {I : σ → Prop}
    {P : α → Prop} (h0 : I s)
    (hstep : ∀ t a u, P a → I t → step t a u →
      I u ∧ (f u = f t ∨ ∃ b, step' (f t) b (f u)))
    {as : List α} {t : σ} (run : Run step s as t) (hP : ∀ a ∈ as, P a) :
    I t ∧ ∃ bs, Run step' (f s) bs (f t) := by
  induction run with
  | nil => exact ⟨h0, [], .nil⟩
  | @snoc as t a u _ h ih =>
    obtain ⟨hI, bs, hrun⟩ := ih fun b hb => hP b (List.mem_append_left _ hb)
    obtain ⟨hI', hu | ⟨b, hb⟩⟩ := hstep t a u (hP a (by simp)) hI h
    · exact ⟨hI', bs, by rw [hu]; exact hrun⟩
    · exact ⟨hI', bs ++ [b], .snoc hrun hb⟩

end

end CLib
