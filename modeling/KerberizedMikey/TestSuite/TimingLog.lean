import KerberizedMikey.Latency
import KerberizedMikey.CLib.Runs
import KerberizedMikey.CLib.TextFile

/-!
# The timing log

`test1` and `test3` run clients one after the other.  After each run the last line of the
log is looked at: in range, it is counted for the run; else it is deleted and the client
runs again.  A client that logs nothing is counted when the line before is in range:

    the log has one line for each run counted  ↔  no client is silent after
                                                   a line in range was logged  (timing_log_iff)
-/

namespace KerberizedMikey

open CLib

/-! ## The source -/

/-- The two test loops: so many rounds of so many client runs that count. -/
inductive TimedTest
  /-- Each client asks for its groups. -/
  | test1 (numOfClients assignedGroupCount : Nat)
  /-- Each group is asked for by its members. -/
  | test3 (groupCount groupSize : Nat)

def TimedTest.outer : TimedTest → Nat
  | .test1 numOfClients _ => numOfClients
  | .test3 groupCount _ => groupCount

def TimedTest.inner : TimedTest → Nat
  | .test1 _ assignedGroupCount => assignedGroupCount
  | .test3 _ groupSize => groupSize

/-- What `client_exec` does. -/
inductive ClientExec
  /-- A negative value is returned. -/
  | fails
  /-- The client ends before it logs. -/
  | silent
  | logs (ms : Int64)
deriving DecidableEq

/-- `get_last_value`. -/
def getLastValue (log : TextFile) : Int :=
  match fgets 128 (lastLine log) with
  | some (line, _) => strtol line
  -- LONG_MAX
  | none => 2 ^ 63 - 1

/-- `del_last_line.sh`: `sed '$d'`. -/
def delLastLine (log : TextFile) : TextFile := log.dropLast

/-- The log after a client; `none` is `exit(1)`. -/
def clientExec (c : LoggingClient) (log : TextFile) : ClientExec → Option TextFile
  | .fails => none
  | .silent => some log
  | .logs ms => some (log ++ [c.logLine ms])

/-- The loop variables, counted from 0, and the log. -/
structure TestState where
  i : Nat
  j : Nat
  log : TextFile
deriving DecidableEq

/-- Both loops are through. -/
def TestState.finished (t : TimedTest) (s : TestState) : Prop := t.outer ≤ s.i ∨ t.inner = 0

instance (t : TimedTest) (s : TestState) : Decidable (s.finished t) :=
  inferInstanceAs (Decidable (_ ∨ _))

/-- `j++`, and `i++` behind the inner loop. -/
def TestState.next (t : TimedTest) (s : TestState) : TestState :=
  if s.j + 1 < t.inner then { s with j := s.j + 1 } else { s with i := s.i + 1, j := 0 }

/-- The body of the loops: the state behind it, and whether the run counted. -/
def clientPass (c : LoggingClient) (t : TimedTest) (s : TestState) (e : ClientExec) :
    Option (TestState × Bool) :=
  match clientExec c s.log e with
  | none => none
  | some log =>
    if inRange (getLastValue log) then some ({ s with log }.next t, true)
    -- j--, taken back by j++
    else some ({ s with log := delLastLine log }, false)

def PassStep (c : LoggingClient) (t : TimedTest) (s : TestState) (r : ClientExec × Bool)
    (s' : TestState) : Prop :=
  ¬s.finished t ∧ clientPass c t s r.1 = some (s', r.2)

/-- The value returned: one `fgets` for each run that counted. -/
def totalTime (t : TimedTest) (log : TextFile) : Int := sumLines 128 (t.outer * t.inner) log 0

/-! ## One run of a client -/

/-- What a client logs is in range. -/
def ClientExec.Good : ClientExec → Prop
  | .logs ms => 0 ≤ ms.toInt ∧ ms.toInt ≤ 100
  | .fails => False
  | .silent => False

theorem length_logLine_lt (c : LoggingClient) (ms : Int64) : (c.logLine ms).length < 128 := by
  have := length_fmtInt_le ms.le_toInt ms.toInt_lt
  cases c <;> simp only [LoggingClient.logLine, List.length_append, List.length_cons,
    List.length_nil] <;> omega

theorem getLastValue_append (c : LoggingClient) (log : TextFile) (ms : Int64) :
    getLastValue (log ++ [c.logLine ms]) = ms.toInt := by
  have hlast : lastLine (log ++ [c.logLine ms]) = [c.logLine ms] := by simp [lastLine]
  rw [getLastValue, hlast, fgets_cons [] (length_logLine_lt c ms)]
  exact strtol_logLine c ms

@[simp] theorem getLastValue_nil : getLastValue [] = 2 ^ 63 - 1 := rfl

/-- The line a counted run stands for. -/
def countedLine (c : LoggingClient) : ClientExec × Bool → Option Bytes
  | (.logs ms, true) => some (c.logLine ms)
  | _ => none

/-- The log holds lines of counted runs. -/
def GoodLog (c : LoggingClient) (log : TextFile) : Prop :=
  ∀ line ∈ log, ∃ ms, line = c.logLine ms ∧ 0 ≤ ms.toInt ∧ ms.toInt ≤ 100

theorem inRange_getLastValue {c : LoggingClient} {log : TextFile} (hl : GoodLog c log) :
    inRange (getLastValue log) = true ↔ log ≠ [] := by
  rcases List.eq_nil_or_concat log with rfl | ⟨front, line, rfl⟩
  · rw [getLastValue_nil]
    exact iff_of_false (by decide) (by simp)
  · obtain ⟨ms, rfl, h⟩ := hl line (by simp)
    rw [List.concat_eq_append, getLastValue_append, inRange_iff]
    exact iff_of_true h (by simp)

/-- **A pass over a good log.**  A line counts if it is in range and is gone if not; no
line counts if there is one already. -/
theorem clientPass_cases {c : LoggingClient} {t : TimedTest} {s s' : TestState} {e : ClientExec}
    {counted : Bool} (hl : GoodLog c s.log) (h : clientPass c t s e = some (s', counted)) :
    (∃ ms, e = .logs ms ∧ e.Good ∧ counted = true ∧
      s' = { s with log := s.log ++ [c.logLine ms] }.next t) ∨
    ((∃ ms, e = .logs ms) ∧ ¬e.Good ∧ counted = false ∧ s' = s) ∨
    (e = .silent ∧ s.log ≠ [] ∧ counted = true ∧ s' = s.next t) ∨
    (e = .silent ∧ s.log = [] ∧ counted = false ∧ s' = s) := by
  unfold clientPass at h
  cases e with
  | fails => cases h
  | logs ms =>
    have hv := getLastValue_append c s.log ms
    simp only [clientExec, hv] at h
    by_cases hr : inRange ms.toInt = true
    · rw [if_pos hr] at h
      cases h
      exact .inl ⟨ms, rfl, (inRange_iff _).mp hr, rfl, rfl⟩
    · rw [if_neg hr, delLastLine, List.dropLast_concat] at h
      cases h
      exact .inr (.inl ⟨⟨ms, rfl⟩, mt (inRange_iff _).mpr hr, rfl, rfl⟩)
  | silent =>
    simp only [clientExec] at h
    by_cases hne : s.log = []
    · rw [if_neg (mt (inRange_getLastValue hl).mp (not_not.mpr hne)), delLastLine, hne] at h
      cases h
      refine .inr (.inr (.inr ⟨rfl, hne, rfl, ?_⟩))
      cases s
      cases hne
      rfl
    · rw [if_pos ((inRange_getLastValue hl).mpr hne)] at h
      cases h
      exact .inr (.inr (.inl ⟨rfl, hne, rfl, rfl⟩))

/-! ## All runs of clients -/

/-- Where the loop variables can be. -/
def TestState.InLoops (t : TimedTest) (s : TestState) : Prop :=
  s.i ≤ t.outer ∧ (s.j = 0 ∨ s.i < t.outer ∧ s.j < t.inner)

/-- The loop variables count the runs. -/
theorem next_counts {t : TimedTest} {s : TestState} (hs : ¬s.finished t) (hi : s.InLoops t) :
    (s.next t).InLoops t ∧
      (s.next t).i * t.inner + (s.next t).j = s.i * t.inner + s.j + 1 := by
  unfold TestState.finished at hs
  obtain ⟨-, hj⟩ := hi
  have hlt : s.j < t.inner := by omega
  unfold TestState.next
  by_cases h : s.j + 1 < t.inner
  · rw [if_pos h]
    exact ⟨⟨by show s.i ≤ _; omega, .inr ⟨by show s.i < _; omega, h⟩⟩, rfl⟩
  · rw [if_neg h]
    refine ⟨⟨by show s.i + 1 ≤ _; omega, .inl rfl⟩, ?_⟩
    show (s.i + 1) * t.inner + 0 = _
    rw [Nat.succ_mul]
    omega

theorem finished_counts {t : TimedTest} {s : TestState} (hs : s.finished t) (hi : s.InLoops t) :
    s.i * t.inner + s.j = t.outer * t.inner := by
  obtain ⟨hle, hj⟩ := hi
  rcases hs with h | h
  · have hi : s.i = t.outer := by omega
    rw [hi]
    omega
  · rw [h, Nat.mul_zero, Nat.mul_zero]
    omega

theorem next_setLog (t : TimedTest) (s : TestState) (log : TextFile) :
    ({ s with log } : TestState).next t = { s.next t with log } := by
  unfold TestState.next
  dsimp only
  split <;> rfl

theorem log_next (t : TimedTest) (s : TestState) : (s.next t).log = s.log := by
  unfold TestState.next
  split <;> rfl

/-- No client is silent once a line in range was logged. -/
def SilentFirst (es : List ClientExec) : Prop :=
  ∀ front rest, es = front ++ .silent :: rest → ∀ e ∈ front, ¬e.Good

theorem silentFirst_append (es : List ClientExec) (e : ClientExec) :
    SilentFirst (es ++ [e]) ↔ SilentFirst es ∧ (e = .silent → ∀ e' ∈ es, ¬e'.Good) := by
  constructor
  · intro h
    refine ⟨?_, ?_⟩
    · intro front rest hes
      exact h front (rest ++ [e]) (by rw [hes, List.append_assoc]; rfl)
    · rintro rfl
      exact h es [] rfl
  · rintro ⟨hes, he⟩ front rest hsplit
    rcases List.eq_nil_or_concat rest with rfl | ⟨rest, last, rfl⟩
    · obtain ⟨rfl, hlast⟩ := List.append_inj' hsplit rfl
      exact he (List.cons.inj hlast).1
    · rw [List.concat_eq_append, ← List.cons_append, ← List.append_assoc] at hsplit
      obtain ⟨rfl, -⟩ := List.append_inj' hsplit rfl
      exact hes front rest rfl

/-- The runs that counted without a line of their own. -/
def silentCounted (trace : List (ClientExec × Bool)) : Nat :=
  trace.countP fun r => r.2 && decide (r.1 = .silent)

/-- What the log and the loop variables say about the runs so far. -/
structure LogInv (c : LoggingClient) (t : TimedTest) (trace : List (ClientExec × Bool))
    (s : TestState) : Prop where
  good : GoodLog c s.log
  log_eq : s.log = trace.filterMap (countedLine c)
  nonempty : s.log ≠ [] ↔ ∃ e ∈ trace.map Prod.fst, e.Good
  length : s.log.length + silentCounted trace = trace.countP Prod.snd
  count : s.i * t.inner + s.j = trace.countP Prod.snd
  inLoops : s.InLoops t
  silent : silentCounted trace = 0 ↔ SilentFirst (trace.map Prod.fst)

section
variable {c : LoggingClient} {t : TimedTest} {s s' : TestState}
  {trace : List (ClientExec × Bool)}

theorem logInv_nil (c : LoggingClient) (t : TimedTest) : LogInv c t [] ⟨0, 0, []⟩ where
  good := by simp [GoodLog]
  log_eq := rfl
  nonempty := by simp
  length := rfl
  count := by simp
  inLoops := ⟨Nat.zero_le _, .inl rfl⟩
  silent := by
    refine iff_of_true rfl ?_
    intro front rest h
    simp at h

theorem not_good_silent : ¬ClientExec.silent.Good := fun h => h

theorem exists_good_append {es : List ClientExec} {e : ClientExec} (h : ¬e.Good) :
    (∃ e' ∈ es ++ [e], e'.Good) ↔ ∃ e' ∈ es, e'.Good := by
  constructor
  · rintro ⟨e', he', hg⟩
    rcases List.mem_append.mp he' with he' | he'
    · exact ⟨e', he', hg⟩
    · rw [List.mem_singleton.mp he'] at hg
      exact absurd hg h
  · rintro ⟨e', he', hg⟩
    exact ⟨e', List.mem_append_left _ he', hg⟩

theorem silentCounted_append (trace : List (ClientExec × Bool)) (r : ClientExec × Bool) :
    silentCounted (trace ++ [r]) =
      silentCounted trace + if r.2 = true ∧ r.1 = .silent then 1 else 0 := by
  rw [silentCounted, List.countP_append, List.countP_singleton]
  simp [silentCounted]

/-- A run that does not count leaves the log and the loop variables. -/
theorem LogInv.uncounted {e : ClientExec} (hi : LogInv c t trace s) (hbad : ¬e.Good)
    (hnil : e = .silent → s.log = []) : LogInv c t (trace ++ [(e, false)]) s := by
  have hmap : (trace ++ [(e, false)]).map Prod.fst = trace.map Prod.fst ++ [e] := List.map_append
  have hsilent : silentCounted (trace ++ [(e, false)]) = silentCounted trace := by
    rw [silentCounted_append, if_neg (by simp), Nat.add_zero]
  have hcount : (trace ++ [(e, false)]).countP Prod.snd = trace.countP Prod.snd := by
    rw [List.countP_append]
    rfl
  refine ⟨hi.good, ?_, ?_, ?_, ?_, hi.inLoops, ?_⟩
  · rw [List.filterMap_append, ← hi.log_eq]
    cases e <;> exact (List.append_nil _).symm
  · rw [hmap, exists_good_append hbad, hi.nonempty]
  · rw [hsilent, hcount, hi.length]
  · rw [hcount, hi.count]
  · rw [hsilent, hmap, silentFirst_append, hi.silent]
    constructor
    · intro h
      refine ⟨h, ?_⟩
      intro he e' he' hg
      exact hi.nonempty.mpr ⟨e', he', hg⟩ (hnil he)
    · intro h
      exact h.1

/-- A run that counts moves the loop variables on. -/
theorem LogInv.next_count {e : ClientExec} (hi : LogInv c t trace s) (hs : ¬s.finished t) :
    (s.next t).InLoops t ∧
      (s.next t).i * t.inner + (s.next t).j = (trace ++ [(e, true)]).countP Prod.snd := by
  obtain ⟨hloops, hcount⟩ := next_counts hs hi.inLoops
  refine ⟨hloops, ?_⟩
  rw [hcount, hi.count, List.countP_append]
  rfl

/-- A line in range is one line more, for one run more. -/
theorem LogInv.counted {ms : Int64} (hi : LogInv c t trace s) (hs : ¬s.finished t)
    (hgood : (ClientExec.logs ms).Good) :
    LogInv c t (trace ++ [(.logs ms, true)])
      (({ s with log := s.log ++ [c.logLine ms] } : TestState).next t) := by
  have hmap : (trace ++ [(ClientExec.logs ms, true)]).map Prod.fst =
      trace.map Prod.fst ++ [.logs ms] := List.map_append
  have hsilent : silentCounted (trace ++ [(ClientExec.logs ms, true)]) = silentCounted trace := by
    rw [silentCounted_append, if_neg (by simp), Nat.add_zero]
  obtain ⟨hloops, hcount⟩ := hi.next_count (e := .logs ms) hs
  rw [next_setLog]
  refine ⟨?_, ?_, ?_, ?_, hcount, hloops, ?_⟩
  · intro line hline
    rcases List.mem_append.mp hline with hline | hline
    · exact hi.good line hline
    · exact ⟨ms, List.mem_singleton.mp hline, hgood⟩
  · rw [List.filterMap_append, ← hi.log_eq]
    rfl
  · rw [hmap]
    exact iff_of_true (by simp) ⟨_, by simp, hgood⟩
  · rw [hsilent, List.countP_append, ← hi.length]
    simp only [List.length_append, List.length_singleton, List.countP_singleton, if_pos]
    omega
  · rw [hsilent, hmap, silentFirst_append, hi.silent]
    simp

/-- A silent run counts for the line of an earlier one. -/
theorem LogInv.counted_silent (hi : LogInv c t trace s) (hs : ¬s.finished t)
    (hne : s.log ≠ []) : LogInv c t (trace ++ [(.silent, true)]) (s.next t) := by
  have hmap : (trace ++ [(ClientExec.silent, true)]).map Prod.fst =
      trace.map Prod.fst ++ [.silent] := List.map_append
  have hsilent : silentCounted (trace ++ [(ClientExec.silent, true)]) =
      silentCounted trace + 1 := by
    rw [silentCounted_append, if_pos ⟨rfl, rfl⟩]
  obtain ⟨hloops, hcount⟩ := hi.next_count (e := .silent) hs
  refine ⟨by rw [log_next]; exact hi.good, ?_, ?_, ?_, hcount, hloops, ?_⟩
  · rw [log_next, List.filterMap_append, ← hi.log_eq]
    exact (List.append_nil _).symm
  · rw [hmap, exists_good_append not_good_silent, log_next, hi.nonempty]
  · rw [hsilent, List.countP_append, ← hi.length, log_next]
    rfl
  · rw [hsilent, hmap, silentFirst_append]
    obtain ⟨e, he, hg⟩ := hi.nonempty.mp hne
    refine iff_of_false (Nat.succ_ne_zero _) ?_
    intro h
    exact h.2 rfl e he hg

/-- **Each client run keeps the account.** -/
theorem logInv_step {r : ClientExec × Bool} (hi : LogInv c t trace s) (h : PassStep c t s r s') :
    LogInv c t (trace ++ [r]) s' := by
  obtain ⟨e, counted⟩ := r
  obtain ⟨hrun, hpass⟩ := h
  rcases clientPass_cases hi.good hpass with ⟨ms, rfl, hgood, rfl, rfl⟩ |
    ⟨⟨ms, rfl⟩, hbad, rfl, rfl⟩ | ⟨rfl, hne, rfl, rfl⟩ | ⟨rfl, hnil, rfl, rfl⟩
  · exact hi.counted hrun hgood
  · -- a line out of range is gone again
    apply hi.uncounted hbad
    intro he
    cases he
  · exact hi.counted_silent hrun hne
  · -- nothing to count, nothing to delete
    apply hi.uncounted not_good_silent
    intro _
    exact hnil

theorem logInv_run (run : Run (PassStep c t) ⟨0, 0, []⟩ trace s) : LogInv c t trace s :=
  run.trace_invariant (logInv_nil c t) fun _ _ _ _ hi h => logInv_step hi h

/-! ## The account -/

/-- What the log of a finished test should be. -/
structure Accounted (c : LoggingClient) (t : TimedTest) (trace : List (ClientExec × Bool))
    (log : TextFile) : Prop where
  length : log.length = t.outer * t.inner
  /-- The lines are those of the runs that counted. -/
  lines : log = trace.filterMap (countedLine c)
  inRange : ∀ line ∈ log, 0 ≤ strtol line ∧ strtol line ≤ 100
  total : totalTime t log = (log.map strtol).sum
  no_silent : ∀ r ∈ trace, r.2 = true → r.1 ≠ .silent

theorem silentCounted_eq_zero (trace : List (ClientExec × Bool)) :
    silentCounted trace = 0 ↔ ∀ r ∈ trace, r.2 = true → r.1 ≠ .silent := by
  rw [silentCounted, List.countP_eq_zero]
  simp

theorem GoodLog.fits {log : TextFile} (h : GoodLog c log) : Fits 128 log := by
  intro line hline
  obtain ⟨ms, rfl, -⟩ := h line hline
  exact length_logLine_lt c ms

/-- **When the account is right**, for each finished test: when no client is silent after a
line in range. -/
theorem timing_log_iff (run : Run (PassStep c t) ⟨0, 0, []⟩ trace s) (hs : s.finished t) :
    Accounted c t trace s.log ↔ SilentFirst (trace.map Prod.fst) := by
  have hi := logInv_run run
  have hcount := (finished_counts hs hi.inLoops).symm.trans hi.count
  have hlen := hi.length
  rw [← hi.silent]
  constructor
  · intro ha
    have := ha.length
    omega
  · intro h0
    refine ⟨by omega, hi.log_eq, ?_, ?_, (silentCounted_eq_zero trace).mp h0⟩
    · intro line hline
      obtain ⟨ms, rfl, hms⟩ := hi.good line hline
      rw [strtol_logLine]
      exact hms
    · rw [totalTime, sumLines_eq 0 hi.good.fits (by omega), Int.zero_add]

end

theorem pass_42 : PassStep .sclient (.test1 1 2) ⟨0, 0, []⟩ (.logs 42, true)
    ⟨0, 1, [LoggingClient.logLine .sclient 42]⟩ :=
  ⟨by decide, by decide⟩

/-- One client for two groups: 42 ms, a run of 250 ms that is rejected, and 17 ms. -/
theorem timing_log_right :
    Accounted .sclient (.test1 1 2) [(.logs 42, true), (.logs 250, false), (.logs 17, true)]
      [LoggingClient.logLine .sclient 42, LoggingClient.logLine .sclient 17] := by
  have h2 : PassStep .sclient (.test1 1 2) ⟨0, 1, [LoggingClient.logLine .sclient 42]⟩
      (.logs 250, false) ⟨0, 1, [LoggingClient.logLine .sclient 42]⟩ := ⟨by decide, by decide⟩
  have h3 : PassStep .sclient (.test1 1 2) ⟨0, 1, [LoggingClient.logLine .sclient 42]⟩
      (.logs 17, true)
      ⟨1, 0, [LoggingClient.logLine .sclient 42, LoggingClient.logLine .sclient 17]⟩ :=
    ⟨by decide, by decide⟩
  refine (timing_log_iff ((Run.nil.snoc pass_42).snoc h2 |>.snoc h3)
    (.inl (Nat.le_refl 1))).mpr ?_
  intro front rest h
  have hmem : ClientExec.silent ∈ [ClientExec.logs 42, .logs 250, .logs 17] := by
    rw [show [ClientExec.logs 42, .logs 250, .logs 17] = front ++ .silent :: rest from h]
    simp
  exact absurd hmem (by decide)

/-- One client for two groups logs 42 ms, and nothing in its second run: both are counted,
for one line. -/
theorem timing_log_silent :
    Run (PassStep .sclient (.test1 1 2)) ⟨0, 0, []⟩ [(.logs 42, true), (.silent, true)]
      ⟨1, 0, [LoggingClient.logLine .sclient 42]⟩ ∧
    (⟨1, 0, [LoggingClient.logLine .sclient 42]⟩ : TestState).finished (.test1 1 2) ∧
    totalTime (.test1 1 2) [LoggingClient.logLine .sclient 42] = 42 ∧
    ¬Accounted .sclient (.test1 1 2) [(.logs 42, true), (.silent, true)]
      [LoggingClient.logLine .sclient 42] := by
  have h2 : PassStep .sclient (.test1 1 2) ⟨0, 1, [LoggingClient.logLine .sclient 42]⟩
      (.silent, true) ⟨1, 0, [LoggingClient.logLine .sclient 42]⟩ := ⟨by decide, by decide⟩
  refine ⟨(Run.nil.snoc pass_42).snoc h2, .inl (Nat.le_refl 1), by decide, ?_⟩
  intro ha
  exact ha.no_silent (.silent, true) (by decide) rfl rfl

end KerberizedMikey
