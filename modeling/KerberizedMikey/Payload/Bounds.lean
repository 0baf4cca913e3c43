import KerberizedMikey.Payload.Parse

/-!
# The payload loop stays inside the message

`PayloadChain` walks a message by what its payloads declare, without the decoders.  Every run
of the loop stays inside just when each payload of the chain fits what is left:

    StaysInside M message first ↔ PayloadChain M PayloadFits first message

(`parse_stays_inside_iff`).  One turn over a payload that fits keeps `limit` equal to
what is left (`step_of_chain`); a run that stays inside finds only payloads that fit
(`fits_of_staysInside`).
-/

namespace KerberizedMikey

open CLib

section
variable {M : PayloadCode} {message : Bytes} {s : ParseState} {next : UInt8} {size : Nat}

/-! ## The chain -/

variable (M) in
/-- The payloads of a message, found by their declared sizes alone; each satisfies `P`. -/
inductive PayloadChain (P : Int → Bytes → Nat → Prop) : Int → Bytes → Prop
  | stop {t : Int} {start : Bytes} (h : M.declared t start = none) : PayloadChain P t start
  | asserted {t : Int} {start : Bytes} {next : UInt8} {size : Nat}
      (h : M.declared t start = some (next, size)) (hs : M.Asserts t size) : PayloadChain P t start
  | payload {t : Int} {start : Bytes} {next : UInt8} {size : Nat}
      (h : M.declared t start = some (next, size)) (hs : ¬M.Asserts t size)
      (hp : P t start size) (rest : PayloadChain P next.toNat (start.drop size)) :
      PayloadChain P t start

/-- A declared size that is left in the message. -/
def PayloadFits (_ : Int) (start : Bytes) (size : Nat) : Prop := size ≤ start.length

theorem ParseState.Aligned.after (ha : s.Aligned message)
    (hf : size ≤ (message.drop s.msgpos).length) : (s.after next size).Aligned message := by
  have hl := ha.length_drop
  refine ⟨?_, ?_⟩
  · show s.limit - size = _ - ((s.msgpos + size : Nat) : Int)
    rw [ha.1]
    omega
  · show 0 ≤ s.limit - size
    omega

theorem parseStart_aligned {t : Int} {msgpos : Nat} (h : msgpos ≤ message.length) :
    (parseStart message t msgpos).Aligned message := by
  refine ⟨rfl, ?_⟩
  show 0 ≤ (message.length : Int) - msgpos
  omega

theorem after_start (s : ParseState) (next : UInt8) (size : Nat) :
    message.drop (s.after next size).msgpos = (message.drop s.msgpos).drop size := by
  rw [List.drop_drop]
  rfl

theorem size_pos {t : Int} {start : Bytes} (h : M.declared t start = some (next, size)) :
    0 < size := by
  obtain ⟨-, ⟨-, nCs, -, rfl⟩ | ⟨-, _, _, _, _, -, rfl⟩⟩ := declared_cases h <;> omega

variable (M message) in
/-- The turns of `parse` from the front of the message. -/
abbrev ParseRun (first : Int) : List Parsed → ParseState → Prop :=
  Run (ParseStep M message) (parseStart message first 0)

variable (M message) in
/-- What a run over a chain of `P`-payloads keeps. -/
structure ChainRun (P : Int → Bytes → Nat → Prop) (ps : List Parsed) (s : ParseState) : Prop where
  aligned : s.Aligned message
  chain : PayloadChain M P s.nextPayloadType (message.drop s.msgpos)
  ends : ∀ p ∈ ps, p.endPtr ≤ message.length
  prints : ∀ p ∈ ps, ∃ t start size, P t start size ∧
    (p.PrintsInside ↔ M.PrintFits t start size)

variable (M message) in
/-- **The parser stays inside the message**, over every run from its front: `limit` is
what is left, every payload ends in the message, the decoders read and write inside
their buffers, and a payload that declares more than is left is rejected. -/
def StaysInside (first : Int) : Prop :=
  ∀ ps s, ParseRun M message first ps s →
    s.Aligned message ∧ (∀ p ∈ ps, p.endPtr ≤ message.length) ∧
      (∀ f, parseNext M message s ≠ .error (.fault f)) ∧
      ∀ next size, M.declared s.nextPayloadType (message.drop s.msgpos) = some (next, size) →
        s.limit < size →
          parseNext M message s = .error .throws ∨ parseNext M message s = .error .aborts

variable (M message) in
/-- The debug lines of the run's constructors stay inside as well. -/
def PrintsInside (first : Int) : Prop :=
  ∀ ps s, ParseRun M message first ps s → ∀ p ∈ ps, p.PrintsInside

/-! ## Runs over a chain -/

section
variable {P : Int → Bytes → Nat → Prop}
  (hP : ∀ {t start size}, P t start size → PayloadFits t start size)
include hP

/-- What a chain that fits makes of one turn. -/
theorem step_of_chain (ha : s.Aligned message)
    (hc : PayloadChain M P s.nextPayloadType (message.drop s.msgpos)) {p : Parsed} {s' : ParseState}
    (h : ParseStep M message s p s') :
    s'.Aligned message ∧ PayloadChain M P s'.nextPayloadType (message.drop s'.msgpos) ∧
      p.endPtr ≤ message.length ∧
      ∃ size, P s.nextPayloadType (message.drop s.msgpos) size ∧
        (p.PrintsInside ↔ M.PrintFits s.nextPayloadType (message.drop s.msgpos) size) := by
  cases hc with
  | stop hd =>
    obtain he | he | he := parseNext_of_none ha hd <;>
    · rw [ParseStep, he] at h
      cases h
  | asserted hd hs =>
    rw [ParseStep, parseNext_of_asserts ha hd hs] at h
    cases h
  | @payload _ _ next size hd hs hp rest =>
    obtain ⟨q, hq, hend, hprint⟩ := parseNext_of_fits ha hd hs (hP hp)
    rw [ParseStep, hq] at h
    cases h
    refine ⟨ha.after (hP hp), ?_, ?_, size, hp, hprint⟩
    · rw [after_start]
      exact rest
    · have hfit := hP hp
      have hl := ha.1
      unfold PayloadFits at hfit
      rw [List.length_drop] at hfit
      have := ha.2
      omega

theorem run_of_chain {first : Int} (hc : PayloadChain M P first message)
    {ps : List Parsed} {s : ParseState} (run : ParseRun M message first ps s) :
    ChainRun M message P ps s := by
  refine run.trace_invariant (I := ChainRun M message P) ?_ ?_
  · exact ⟨parseStart_aligned (Nat.zero_le _), hc, by simp, by simp⟩
  · intro ps s p s' h hstep
    obtain ⟨ha, hs, hend, size, hp, hprint⟩ := step_of_chain hP h.aligned h.chain hstep
    refine ⟨ha, hs, ?_, ?_⟩
    · intro q hq
      rcases List.mem_append.mp hq with hq | hq
      · exact h.ends q hq
      · rw [List.mem_singleton.mp hq]
        exact hend
    · intro q hq
      rcases List.mem_append.mp hq with hq | hq
      · exact h.prints q hq
      · rw [List.mem_singleton.mp hq]
        exact ⟨_, _, size, hp, hprint⟩

/-- The converse: a chain whose payloads satisfy `P` wherever a run reaches them.  By
induction on what is left of the message. -/
theorem chain_of_runs {first : Int}
    (hruns : ∀ ps s, ParseRun M message first ps s → s.Aligned message ∧
      ∀ next size, M.declared s.nextPayloadType (message.drop s.msgpos) = some (next, size) →
        ¬M.Asserts s.nextPayloadType size →
          P s.nextPayloadType (message.drop s.msgpos) size)
    {ps : List Parsed} {s : ParseState} (run : ParseRun M message first ps s) :
    PayloadChain M P s.nextPayloadType (message.drop s.msgpos) := by
  induction hn : (message.drop s.msgpos).length using Nat.strong_induction_on
    generalizing ps s with
  | _ n ih =>
    obtain ⟨ha, hdecl⟩ := hruns ps s run
    cases hd : M.declared s.nextPayloadType (message.drop s.msgpos) with
    | none => exact .stop hd
    | some out =>
      obtain ⟨next, size⟩ := out
      by_cases hs : M.Asserts s.nextPayloadType size
      · exact .asserted hd hs
      have hp := hdecl next size hd hs
      obtain ⟨p, hstep, -⟩ := parseNext_of_fits ha hd hs (hP hp)
      refine .payload hd hs hp ?_
      rw [← after_start]
      apply ih _ ?_ (run.snoc hstep) rfl
      have hpos := size_pos hd
      have hfit : size ≤ (message.drop s.msgpos).length := hP hp
      rw [after_start, List.length_drop]
      omega

theorem staysInside_of_chain {first : Int} (hc : PayloadChain M P first message) :
    StaysInside M message first := by
  intro ps s run
  obtain ⟨ha, hs, hends, -⟩ := run_of_chain hP hc run
  refine ⟨ha, hends, ?_⟩
  cases hs with
  | stop hd =>
    constructor
    · intro f hf
      obtain he | he | he := parseNext_of_none ha hd <;>
      · rw [he] at hf
        cases hf
    · intro next size hd'
      rw [hd] at hd'
      cases hd'
  | asserted hd hs =>
    have he := parseNext_of_asserts ha hd hs
    constructor
    · intro f hf
      rw [he] at hf
      cases hf
    · intro _ _ _ _
      exact .inr he
  | payload hd hs hp _ =>
    obtain ⟨p, he, -⟩ := parseNext_of_fits ha hd hs (hP hp)
    constructor
    · intro f hf
      rw [he] at hf
      cases hf
    · intro next size hd' hlt
      rw [hd] at hd'
      cases hd'
      have hfit := hP hp
      unfold PayloadFits at hfit
      rw [ha.length_drop] at hlt
      omega

end

/-- What `parse` returns on such a message. -/
theorem parse_of_chain {first : Int} (hc : PayloadChain M PayloadFits first message) :
    ∃ ps s e, parse M message first 0 = some (ps, s, e) ∧ (∀ f, e ≠ .fault f) ∧
      s.msgpos ≤ message.length := by
  obtain ⟨ps, s, e, hp, run, hend⟩ := parse_ends M message first 0
  obtain ⟨⟨hl, h0⟩, -, hfault, -⟩ := staysInside_of_chain id hc ps s run
  refine ⟨ps, s, e, hp, ?_, by omega⟩
  intro f hf
  apply hfault f
  rw [hend, hf]

/-- Where a run stays inside, what it reaches fits, or the assert stops it. -/
theorem fits_of_staysInside {first : Int} (h : StaysInside M message first) {ps : List Parsed}
    {s : ParseState} (run : ParseRun M message first ps s)
    (hd : M.declared s.nextPayloadType (message.drop s.msgpos) = some (next, size))
    (hs : ¬M.Asserts s.nextPayloadType size) :
    PayloadFits s.nextPayloadType (message.drop s.msgpos) size := by
  obtain ⟨ha, -, hfault, hreject⟩ := h ps s run
  by_contra hf
  have hlt : (message.drop s.msgpos).length < size := Nat.lt_of_not_le hf
  have hrej := hreject next size hd (by rw [ha.length_drop]; omega)
  obtain ⟨f, he⟩ | ⟨p, he⟩ := parseNext_of_oversize ha hd hs hlt
  · exact hfault f he
  · rw [he] at hrej
    obtain hrej | hrej := hrej <;> cases hrej

/-- **Safety.**  The parser stays inside a message just when every payload found by the
declared sizes is left in it, unless the assert stops it at a dummy map.  With the
constructor's debug line, also: an extension up to the very end holds a NUL. -/
theorem parse_stays_inside_iff (M : PayloadCode) (message : Bytes) (first : Int) :
    (StaysInside M message first ↔ PayloadChain M PayloadFits first message) ∧
      (StaysInside M message first ∧ PrintsInside M message first ↔
        PayloadChain M (fun t start size => PayloadFits t start size ∧ M.PrintFits t start size)
          first message) := by
  have hstart : message.drop (parseStart message first 0).msgpos = message := rfl
  refine ⟨⟨?_, staysInside_of_chain id⟩, ?_, ?_⟩
  · intro h
    have hc := chain_of_runs (P := PayloadFits) id (fun ps s run => ⟨(h ps s run).1,
      fun next size hd hs => fits_of_staysInside h run hd hs⟩) Run.nil
    rwa [hstart] at hc
  · rintro ⟨h, hprint⟩
    have hc := chain_of_runs
      (P := fun t start size => PayloadFits t start size ∧ M.PrintFits t start size)
      And.left (fun ps s run => ⟨(h ps s run).1, ?_⟩) (Run.nil (s := parseStart message first 0))
    · rwa [hstart] at hc
    intro next size hd hs
    have hfit := fits_of_staysInside h run hd hs
    obtain ⟨p, hstep, -, hp⟩ := parseNext_of_fits (h ps s run).1 hd hs hfit
    exact ⟨hfit, hp.mp (hprint _ _ (run.snoc hstep) p (by simp))⟩
  · intro hc
    refine ⟨staysInside_of_chain And.left hc, ?_⟩
    intro ps s run p hp
    obtain ⟨t, start, size, hP, hprint⟩ := (run_of_chain And.left hc run).prints p hp
    exact hprint.mpr hP.2

end

/-- A header without crypto sessions, then an extension that declares 5 bytes and has none. -/
def overlongMessage : Bytes := [1, 0, 21, 0, 0, 0, 0, 0, 0, 8] ++ [0, 2, 0, 5]

/-- The constructor reads past the message. -/
theorem parse_leaves_message : ¬StaysInside plainPayloadCode overlongMessage (-1) := by
  intro h
  have run : ParseRun plainPayloadCode overlongMessage (-1)
      ([] ++ [⟨.hdr ⟨[]⟩ 0, 21, 10⟩]) ⟨21, 10, 4⟩ := Run.nil.snoc rfl
  obtain ⟨-, -, hfault, -⟩ := h _ _ run
  exact hfault .overRead rfl

end KerberizedMikey
