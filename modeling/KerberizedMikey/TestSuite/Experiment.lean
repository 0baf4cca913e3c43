import KerberizedMikey.TestSuite.Returns
import Mathlib.Data.List.Forall2

/-!
# A whole test program

`main` of the test programs: for each point of the plot a measurement with model 1 and one
with model 2.  A measurement is three tests for nothing, then `run_test1` on the results of
further ones, and a line in the data file of the model; in the end `paste` joins the two
files.  Whatever the clients log on the way:

    one line for each point, of both models, whose mean and k are in range, and whose
      variance is not negative                                       (experiment_table)

so a point is never plotted against the other model's value for another point.
-/

namespace KerberizedMikey

open CLib

namespace Experiment

/-! ## The source -/

/-- A test with its numbers of clients and groups; `test4` divides by the clients. -/
inductive Test
  | test1 (numOfClients assignedGroupCount : Nat)
  | test2 (numOfClients groupCount : Nat)
  | test3 (groupCount groupSize : Nat)
  | test4 (numOfClients assignedGroupCount : Nat) (h : 0 < numOfClients)

def Test.loops : Test → TimedTest
  | .test1 numOfClients assignedGroupCount => .test1 numOfClients assignedGroupCount
  | .test2 numOfClients groupCount => .test1 numOfClients groupCount
  | .test3 groupCount groupSize => .test3 groupCount groupSize
  | .test4 numOfClients assignedGroupCount _ => .test1 numOfClients assignedGroupCount

/-- The value returned. -/
def Test.time (t : Test) (log : TextFile) : Int :=
  match t with
  | .test4 numOfClients _ _ => test4Time numOfClients t.loops log
  | _ => totalTime t.loops log

/-- `x_val` of `log_data`. -/
def Test.xVal : Test → Nat
  | .test1 numOfClients _ => numOfClients
  | .test2 _ groupCount => groupCount
  | .test3 _ groupSize => groupSize
  | .test4 _ assignedGroupCount _ => assignedGroupCount

def ignoreCount : Nat := 3
def startingK : Nat := 5
def maxK : Nat := 20

/-- A test from an empty log to its end. -/
def Returns (c : LoggingClient) (t : Test) (y : Int) : Prop :=
  ∃ (trace : List (ClientExec × Bool)) (s : TestState),
    Run (PassStep c t.loops) ⟨0, 0, []⟩ trace s ∧ s.finished t.loops ∧ t.time s.log = y

/-- A line of a data file. -/
structure Row (K : Type*) where
  xVal : Nat
  rs : RunningStats K

/-- Where a measurement is. -/
inductive Stage (K : Type*)
  | preTest (j : Nat)
  | measure (loop : TestLoop K)

/-- The variables of `main` and the two data files. -/
structure Main (K : Type*) where
  /-- The points that are done. -/
  index : Nat := 0
  ksm2 : Bool := false
  stage : Stage K := .preTest 0
  ksm1Data : List (Row K) := []
  ksm2Data : List (Row K) := []

namespace Main

section
variable {K : Type*} [Field K] [LinearOrder K] (sqrt : K → K)

/-- `log_data`, and the next measurement. -/
def logData (e : Main K) (row : Row K) : Main K :=
  if e.ksm2 then
    { e with
      index := e.index + 1
      ksm2 := false
      stage := .preTest 0
      ksm2Data := e.ksm2Data ++ [row] }
  else { e with ksm2 := true, stage := .preTest 0, ksm1Data := e.ksm1Data ++ [row] }

/-- After a test that has returned `y`. -/
def next (e : Main K) (t : Test) (y : Int) : Main K :=
  match e.stage with
  | .preTest j =>
    if j + 1 < ignoreCount then { e with stage := .preTest (j + 1) }
    -- set_default_running_stats, and run_test1
    else { e with stage := .measure (start startingK) }
  | .measure loop =>
    let loop := (takeResult sqrt startingK loop y).1
    if loop.returned maxK then e.logData ⟨t.xVal, loop.rs⟩ else { e with stage := .measure loop }

def client (e : Main K) : LoggingClient := if e.ksm2 then .sclient2 else .sclient

/-- One test of the program. -/
def Step (plan : List Test) (e : Main K) (y : Int) (e' : Main K) : Prop :=
  ∃ t, plan[e.index]? = some t ∧ Returns e.client t y ∧ e' = e.next sqrt t y

end

end Main

/-- `paste`: the lines of two files side by side; a file that is out of lines gives nothing. -/
def mergeData {K : Type*} : List (Row K) → List (Row K) → List (Option (Row K) × Option (Row K))
  | [], rows' => rows'.map fun r' => (none, some r')
  | rows, [] => rows.map fun r => (some r, none)
  | r :: rows, r' :: rows' => (some r, some r') :: mergeData rows rows'

/-! ## What a test returns -/

/-- The longest time a test can return. -/
def Test.maxTime : Test → Nat
  | .test4 _ assignedGroupCount _ => 100 * assignedGroupCount
  | t => 100 * (t.loops.outer * t.loops.inner)

theorem time_bounds {c : LoggingClient} {t : Test} {y : Int} (h : Returns c t y) :
    0 ≤ y ∧ y ≤ t.maxTime := by
  obtain ⟨trace, s, run, hs, rfl⟩ := h
  cases t with
  | test1 N A => exact_mod_cast total_bounds run hs
  | test2 N G => exact_mod_cast total_bounds run hs
  | test3 G S => exact_mod_cast total_bounds run hs
  | test4 N A hN => exact_mod_cast test4Time_bounds hN run hs

/-! ## One measurement -/

section
variable {K : Type*} [Field K] [LinearOrder K] [IsStrictOrderedRing K] {sqrt : K → K}

/-- A line that can be plotted for the test. -/
structure Row.Sound (t : Test) (row : Row K) : Prop where
  xVal : row.xVal = t.xVal
  mean : 0 ≤ row.rs.mean ∧ row.rs.mean ≤ t.maxTime
  variance : 0 ≤ row.rs.variance
  k : startingK ≤ row.rs.k ∧ row.rs.k ≤ maxK

omit [IsStrictOrderedRing K] in
/-- Not more iterations than `max_k`. -/
theorem j_le_of_run {maxK : Nat} {trace : List (Int × Outcome)} {s : TestLoop K}
    (run : Run (TestStep sqrt startingK maxK) (start startingK) trace s) : s.j ≤ maxK := by
  apply run.trace_invariant (I := fun _ s => s.j ≤ maxK) (Nat.zero_le _)
  intro _ s r s' hj h
  have hlt : s.j < maxK := by
    by_contra hge
    exact h.1 (.inr (by omega))
  obtain ⟨y, o⟩ := r
  have hs : (takeResult sqrt startingK s y).1 = s' := congrArg Prod.fst h.2
  rcases takeResult_limit sqrt startingK s y with ⟨-, he⟩ | ⟨-, -, -, hj'⟩
  · rw [he] at hs
    rw [← hs]
    exact hj
  · rw [hs] at hj'
    omega

/-- **What run_test1 leaves behind.** -/
theorem sound_of_run {t : Test} {trace : List (Int × Outcome)} {s : TestLoop K}
    (run : Run (TestStep sqrt startingK maxK) (start startingK) trace s)
    (hret : s.returned maxK) (hy : ∀ r ∈ trace, 0 ≤ r.1 ∧ r.1 ≤ t.maxTime) :
    Row.Sound t ⟨t.xVal, s.rs⟩ := by
  have hk : 2 ≤ startingK := by decide
  have hi := loopInv_run hk run
  have hj : startingK ≤ s.j := by
    rcases hret with hmet | hle
    · exact (hi.met.mp hmet).1
    · exact Nat.le_trans (by decide) hle
  have hn : startingK ≤ s.n := by
    have := hi.le_n
    omega
  have hne : accepted trace ≠ [] := by
    intro hnil
    have := hi.n_eq
    rw [hnil] at this
    have : s.n = 0 := this
    rw [this] at hn
    revert hn
    decide
  have hacc : ∀ z ∈ accepted trace, 0 ≤ z ∧ z ≤ (t.maxTime : Int) := by
    intro z hz
    obtain ⟨r, hr, rfl⟩ := List.mem_map.mp hz
    exact hy r (List.mem_of_mem_filter hr)
  obtain ⟨h0, hmax⟩ := mean_run_bounds hk run hne hacc
  refine ⟨rfl, ⟨by exact_mod_cast h0, by exact_mod_cast hmax⟩, variance_run_nonneg hk run, ?_⟩
  have hjmax : s.j ≤ maxK := j_le_of_run run
  show startingK ≤ s.rs.k ∧ s.rs.k ≤ maxK
  rw [hi.k]
  cases s.met with
  | true => exact ⟨hn, Nat.le_trans hi.n_le hjmax⟩
  | false =>
    show startingK ≤ startingK ∧ startingK ≤ maxK
    decide

/-! ## All measurements -/

variable (sqrt) in
/-- Where `main` is: the lines so far, and the iterations of the measurement. -/
structure Inv (plan : List Test) (e : Main K) : Prop where
  ksm1Data : List.Forall₂ Row.Sound (plan.take (e.index + if e.ksm2 then 1 else 0)) e.ksm1Data
  ksm2Data : List.Forall₂ Row.Sound (plan.take e.index) e.ksm2Data
  index : e.index ≤ plan.length
  stage : ∀ loop, e.stage = .measure loop → ∀ t, plan[e.index]? = some t →
    ¬loop.returned maxK ∧ ∃ trace, Run (TestStep sqrt startingK maxK) (start startingK) trace loop ∧
      ∀ r ∈ trace, 0 ≤ r.1 ∧ r.1 ≤ t.maxTime

omit [IsStrictOrderedRing K] in
theorem inv_begin (plan : List Test) : Inv sqrt plan ({} : Main K) where
  ksm1Data := .nil
  ksm2Data := .nil
  index := Nat.zero_le _
  stage := by rintro loop ⟨⟩

theorem take_succ_of_getElem? {plan : List Test} {i : Nat} {t : Test} (h : plan[i]? = some t) :
    plan.take (i + 1) = plan.take i ++ [t] := by
  rw [List.take_add_one, h]
  rfl

omit [IsStrictOrderedRing K] in
/-- A measurement that is finished is a line of its file. -/
theorem inv_logData {plan : List Test} {e : Main K} (hi : Inv sqrt plan e) {t : Test}
    (ht : plan[e.index]? = some t) {row : Row K} (hrow : row.Sound t) :
    Inv sqrt plan (e.logData row) := by
  obtain ⟨h1, h2, hle, -⟩ := hi
  have hlt : e.index < plan.length := (List.getElem?_eq_some_iff.mp ht).1
  unfold Main.logData
  cases hk : e.ksm2 with
  | true =>
    rw [hk] at h1
    refine ⟨h1, ?_, hlt, by rintro loop ⟨⟩⟩
    show List.Forall₂ _ (plan.take (e.index + 1)) (e.ksm2Data ++ [row])
    rw [take_succ_of_getElem? ht]
    exact List.rel_append h2 (.cons hrow .nil)
  | false =>
    rw [hk] at h1
    refine ⟨?_, h2, hle, by rintro loop ⟨⟩⟩
    show List.Forall₂ _ (plan.take (e.index + 1)) (e.ksm1Data ++ [row])
    rw [take_succ_of_getElem? ht]
    exact List.rel_append h1 (.cons hrow .nil)

/-- **One test.** -/
theorem inv_step {plan : List Test} {e e' : Main K} {y : Int} (hi : Inv sqrt plan e)
    (h : Main.Step sqrt plan e y e') : Inv sqrt plan e' := by
  obtain ⟨t, ht, hy, rfl⟩ := h
  have hbounds := time_bounds hy
  unfold Main.next
  cases hs : e.stage with
  | preTest j =>
    dsimp only
    split
    · exact ⟨hi.ksm1Data, hi.ksm2Data, hi.index, by rintro loop ⟨⟩⟩
    · refine ⟨hi.ksm1Data, hi.ksm2Data, hi.index, ?_⟩
      rintro loop ⟨⟩ t' -
      refine ⟨?_, [], .nil, by simp⟩
      rintro (⟨⟨⟩⟩ | h)
      revert h
      show ¬20 ≤ 0
      decide
  | measure loop =>
    obtain ⟨hret, trace, run, htrace⟩ := hi.stage loop hs t ht
    obtain ⟨loop', o, hstep⟩ : ∃ loop' o, takeResult sqrt startingK loop y = (loop', o) :=
      ⟨_, _, rfl⟩
    have run' := run.snoc (a := (y, o)) (u := loop') ⟨hret, hstep⟩
    have htrace' : ∀ r ∈ trace ++ [(y, o)], 0 ≤ r.1 ∧ r.1 ≤ t.maxTime := by
      intro r hr
      rcases List.mem_append.mp hr with hr | hr
      · exact htrace r hr
      · rw [List.mem_singleton.mp hr]
        exact hbounds
    dsimp only
    rw [hstep]
    split
    · next hret' => exact inv_logData hi ht (sound_of_run run' hret' htrace')
    · next hret' =>
      refine ⟨hi.ksm1Data, hi.ksm2Data, hi.index, ?_⟩
      rintro _ ⟨⟩ t' ht'
      cases ht.symm.trans ht'
      exact ⟨hret', _, run', htrace'⟩

omit [IsStrictOrderedRing K] in
theorem mergeData_of_sound {plan : List Test} {rows rows' : List (Row K)}
    (h : List.Forall₂ Row.Sound plan rows) (h' : List.Forall₂ Row.Sound plan rows') :
    List.Forall₂ (fun t line => ∃ r r', line = (some r, some r') ∧ r.Sound t ∧ r'.Sound t) plan
      (mergeData rows rows') := by
  induction h generalizing rows' with
  | nil =>
    cases h'
    exact .nil
  | @cons t r plan rows hr _ ih =>
    cases h' with
    | cons hr' hrest => exact .cons ⟨r, _, rfl, hr, hr'⟩ (ih hrest)

/-- **The plotted data.**  Whatever the clients log: when the program is through, the file
has a line for each point, and both halves of the line are measurements of this point, with
a mean that its test can take, a variance that is not negative and a `k` from 5 to 20. -/
theorem experiment_table {plan : List Test} {ys : List Int} {e : Main K}
    (run : Run (Main.Step sqrt plan) {} ys e) (hend : plan.length ≤ e.index) :
    List.Forall₂ (fun t line => ∃ r r', line = (some r, some r') ∧ r.Sound t ∧ r'.Sound t) plan
      (mergeData e.ksm1Data e.ksm2Data) := by
  have hi : Inv sqrt plan e := run.invariant (P := fun _ => True) (inv_begin plan)
    (fun _ _ _ _ hi h => inv_step hi h) fun _ _ => trivial
  have htake : ∀ n, plan.take (e.index + n) = plan := fun n =>
    List.take_of_length_le (by omega)
  have h1 := hi.ksm1Data
  have h2 := hi.ksm2Data
  rw [htake] at h1
  rw [show e.index = e.index + 0 from rfl, htake] at h2
  exact mergeData_of_sound h1 h2

end

/-- One client for one group, and each of its runs logs 42 ms. -/
theorem returns_42 (c : LoggingClient) : Returns c (.test1 1 1) 42 := by
  have h : PassStep c (.test1 1 1) ⟨0, 0, []⟩ (.logs 42, true) ⟨1, 0, [c.logLine 42]⟩ := by
    cases c <;> exact ⟨by decide, by decide⟩
  refine ⟨_, _, Run.nil.snoc h, .inl (Nat.le_refl 1), ?_⟩
  cases c <;> decide

/-- As long as the first point is measured. -/
theorem run_42 (n : Nat)
    (h : ∀ k, k < n → ((fun e : Main ℚ => e.next id (.test1 1 1) 42)^[k] {}).index = 0) :
    Run (Main.Step id [.test1 1 1]) {} (List.replicate n 42)
      ((fun e : Main ℚ => e.next id (.test1 1 1) 42)^[n] {}) := by
  induction n with
  | zero => exact .nil
  | succ n ih =>
    rw [List.replicate_succ', Function.iterate_succ_apply']
    refine (ih fun k hk => h k (Nat.lt_succ_of_lt hk)).snoc ⟨.test1 1 1, ?_, returns_42 _, rfl⟩
    rw [h n (Nat.lt_succ_self n)]
    rfl

/-- One point: three tests for nothing and five that are measured, with each model. -/
theorem experiment_table_42 :
    ∃ e : Main ℚ, e.ksm1Data.length = 1 ∧ e.ksm2Data.length = 1 ∧
      List.Forall₂ (fun t line => ∃ r r', line = (some r, some r') ∧ r.Sound t ∧ r'.Sound t)
        [.test1 1 1] (mergeData e.ksm1Data e.ksm2Data) :=
  ⟨_, by decide +kernel, by decide +kernel,
    experiment_table (run_42 16 (by decide +kernel)) (by decide +kernel)⟩

end Experiment

end KerberizedMikey
