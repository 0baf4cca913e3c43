import KerberizedMikey.Clients
import KerberizedMikey.PlainMikey
import KerberizedMikey.TestSuite.Shuffle
import Mathlib.Data.List.GetD
import Mathlib.Data.Nat.ModEq
import Mathlib.Logic.Function.Basic

/-!
# Who asks for what in the test programs

`test1` to `test4` run their clients in two loops, with a ticket cache for each client.
The clients are started by `client_exec` for one of the two models; a run that is not
counted is repeated, for model 2 with a new cache.

* `counted_pairs` : a finished test has counted each client run of its loops once, in order
* `ksm2_joins_fresh` : in model 2 each time logged is that of a join with its own exchange,
  as no pair of client and group occurs twice and a repeated run has a new cache
* `ksm1_asks_once` : in model 1 each client asks the KDC once
-/

namespace KerberizedMikey

open CLib

/-! ## The programs -/

/-- The loops of a test, and whose cache and which group the run `(i, j)` has; clients and
groups have the numbers of their names. -/
structure Schedule where
  loops : TimedTest
  client : Nat → Nat → Nat
  group : Nat → Nat → Nat

/-- The array after the shuffle. -/
def shuffled (randMax : Nat) (rands : List Nat) (a : List Nat) : List Nat :=
  (shuffleLoop randMax a.length rands 0 a).getD []

/-- `test1`, with `rand i` from `rand()` for the `i`-th client: `group%d` of `a[j-1]`. -/
def test1 (randMax : Nat) (rand : Nat → List Nat)
    (numOfClients assignedGroupCount groupCount : Nat) : Schedule where
  loops := .test1 numOfClients assignedGroupCount
  client i _ := i
  group i j := (shuffled randMax (rand i) (groupNumbers groupCount)).getD j 0

/-- `test2`: all existing groups. -/
def test2 (numOfClients groupCount : Nat) : Schedule where
  loops := .test1 numOfClients groupCount
  client i _ := i
  group _ j := j + 1

/-- `test3`: the clients `a[j]` of the `i`-th group. -/
def test3 (randMax : Nat) (rand : Nat → List Nat) (numOfClients groupCount groupSize : Nat) :
    Schedule where
  loops := .test3 groupCount groupSize
  client i j := (shuffled randMax (rand i) (clientNumbers numOfClients)).getD j 0
  group i _ := i + 1

/-- `test4`: `gid`, from `group_index_start` on. -/
def test4 (groupIndexStart : Nat → Nat) (numOfClients assignedGroupCount groupCount : Nat) :
    Schedule where
  loops := .test1 numOfClients assignedGroupCount
  client i _ := i
  group i j := (groupIndexStart i + j) % groupCount + 1

/-- `group%d`. -/
def groupName (n : Nat) : Bytes := ascii "group" ++ fmtInt n

theorem groupName_inj {n n' : Nat} (h : groupName n = groupName n') : n = n' := by
  have hf : fmtNat n = fmtNat n' := List.append_cancel_left h
  rw [← digitsVal_fmtNat n, hf, digitsVal_fmtNat]

namespace Schedule

/-- The `n`-th run: client and group. -/
def pair (sch : Schedule) (n : Nat) : Nat × Nat :=
  (sch.client (n / sch.loops.inner) (n % sch.loops.inner),
    sch.group (n / sch.loops.inner) (n % sch.loops.inner))

/-- The runs of the loops in order. -/
def pairs (sch : Schedule) : List (Nat × Nat) :=
  (List.range (sch.loops.outer * sch.loops.inner)).map sch.pair

/-- No client asks for a group twice. -/
def Distinct (sch : Schedule) : Prop := sch.pairs.Nodup

theorem Distinct.eq {sch : Schedule} (h : sch.Distinct) {n n' : Nat}
    (hn : n < sch.loops.outer * sch.loops.inner) (hn' : n' < sch.loops.outer * sch.loops.inner)
    (he : sch.pair n = sch.pair n') : n = n' :=
  List.inj_on_of_nodup_map h (List.mem_range.mpr hn) (List.mem_range.mpr hn') he

theorem distinct_of {sch : Schedule}
    (h : ∀ i j i' j', i < sch.loops.outer → j < sch.loops.inner → i' < sch.loops.outer →
      j' < sch.loops.inner → sch.client i j = sch.client i' j' →
      sch.group i j = sch.group i' j' → i = i' ∧ j = j') : sch.Distinct := by
  have hdiv : ∀ n, n < sch.loops.outer * sch.loops.inner →
      n / sch.loops.inner < sch.loops.outer ∧ n % sch.loops.inner < sch.loops.inner := by
    intro n hn
    have hpos : 0 < sch.loops.inner := by
      rcases Nat.eq_zero_or_pos sch.loops.inner with h0 | h0
      · rw [h0, Nat.mul_zero] at hn
        omega
      · exact h0
    exact ⟨Nat.div_lt_of_lt_mul (by rw [Nat.mul_comm]; exact hn), Nat.mod_lt _ hpos⟩
  apply List.Nodup.map_on _ List.nodup_range
  intro n hn n' hn' he
  obtain ⟨h1, h2⟩ := hdiv n (List.mem_range.mp hn)
  obtain ⟨h1', h2'⟩ := hdiv n' (List.mem_range.mp hn')
  obtain ⟨hq, hr⟩ := h _ _ _ _ h1 h2 h1' h2' (congrArg Prod.fst he) (congrArg Prod.snd he)
  rw [← Nat.div_add_mod n sch.loops.inner, hq, hr, Nat.div_add_mod]

end Schedule

/-! ## No pair twice -/

/-- What `rand()` returns for one shuffle of `n` entries. -/
def RandOk (randMax n : Nat) (rands : List Nat) : Prop :=
  rands.length = n - 1 ∧ ∀ r ∈ rands, r ≤ randMax

theorem shuffled_perm {randMax : Nat} {rands : List Nat} {a : List Nat}
    (h : RandOk randMax a.length rands) (ha : 1 ≤ a.length) :
    (shuffled randMax rands a).Perm a := by
  obtain ⟨hlen, hr⟩ := h
  have hvalid : ValidPicks (picks randMax a.length rands 0) (a.length - 0) :=
    validPicks_picks (by omega) hr
  obtain ⟨b, hb, hperm⟩ := fisherYates_perm (Nat.zero_le a.length) hvalid
  rw [shuffled, shuffleLoop_eq, hb]
  exact hperm

/-- Different places of a shuffled array hold different numbers. -/
theorem shuffled_inj {randMax : Nat} {rands : List Nat} {a : List Nat} (hnodup : a.Nodup)
    (h : RandOk randMax a.length rands) {j j' : Nat} (hj : j < a.length) (hj' : j' < a.length)
    (he : (shuffled randMax rands a).getD j 0 = (shuffled randMax rands a).getD j' 0) :
    j = j' := by
  have hperm := shuffled_perm h (by omega)
  have hlen := hperm.length_eq
  rw [List.getD_eq_getElem _ _ (by omega), List.getD_eq_getElem _ _ (by omega)] at he
  exact (hperm.nodup_iff.mpr hnodup).getElem_inj_iff.mp he

theorem test1_distinct {randMax N A G : Nat} {rand : Nat → List Nat} (hA : A ≤ G)
    (hr : ∀ i, i < N → RandOk randMax G (rand i)) : (test1 randMax rand N A G).Distinct := by
  have hlen : (groupNumbers G).length = G := by simp [groupNumbers]
  apply Schedule.distinct_of
  intro i j i' j' hi hj _ hj' hc hg
  obtain rfl : i = i' := hc
  change j < A at hj
  change j' < A at hj'
  refine ⟨rfl, shuffled_inj (nodup_groupNumbers G) ?_ ?_ ?_ hg⟩
  · rw [hlen]
    exact hr i hi
  · omega
  · omega

theorem test2_distinct (N G : Nat) : (test2 N G).Distinct := by
  apply Schedule.distinct_of
  intro i j i' j' _ _ _ _ hc hg
  exact ⟨hc, Nat.succ.inj hg⟩

theorem test3_distinct {randMax N G S : Nat} {rand : Nat → List Nat} (hS : S ≤ N)
    (hr : ∀ i, i < G → RandOk randMax N (rand i)) : (test3 randMax rand N G S).Distinct := by
  have hlen : (clientNumbers N).length = N := by simp [clientNumbers]
  apply Schedule.distinct_of
  intro i j i' j' hi hj _ hj' hc hg
  obtain rfl : i = i' := Nat.succ.inj hg
  change j < S at hj
  change j' < S at hj'
  refine ⟨rfl, shuffled_inj (nodup_clientNumbers N) ?_ ?_ ?_ hc⟩
  · rw [hlen]
    exact hr i hi
  · omega
  · omega

theorem test4_distinct {start : Nat → Nat} {N A G : Nat} (hA : A ≤ G) :
    (test4 start N A G).Distinct := by
  apply Schedule.distinct_of
  intro i j i' j' _ hj _ hj' hc hg
  obtain rfl : i = i' := hc
  change j < A at hj
  change j' < A at hj'
  refine ⟨rfl, ?_⟩
  have hmod : start i + j ≡ start i + j' [MOD G] := Nat.succ.inj hg
  have hj := Nat.ModEq.add_left_cancel' (start i) hmod
  exact Nat.ModEq.eq_of_lt_of_lt hj (by omega) (by omega)

/-- The four programs, with what their `main`s and `rand()` hold to. -/
inductive TestProgram : Schedule → Prop
  | test1 {randMax N A G : Nat} {rand : Nat → List Nat} (hA : A ≤ G)
      (hr : ∀ i, i < N → RandOk randMax G (rand i)) : TestProgram (test1 randMax rand N A G)
  | test2 (N G : Nat) : TestProgram (test2 N G)
  | test3 {randMax N G S : Nat} {rand : Nat → List Nat} (hS : S ≤ N)
      (hr : ∀ i, i < G → RandOk randMax N (rand i)) : TestProgram (test3 randMax rand N G S)
  | test4 {start : Nat → Nat} {N A G : Nat} (hA : A ≤ G) : TestProgram (test4 start N A G)

theorem TestProgram.distinct {sch : Schedule} (h : TestProgram sch) : sch.Distinct := by
  cases h with
  | test1 hA hr => exact test1_distinct hA hr
  | test2 N G => exact test2_distinct N G
  | test3 hS hr => exact test3_distinct hS hr
  | test4 hA => exact test4_distinct hA

/-! ## Clients with their caches -/

/-- A test under way: loop variables and log, and the service tickets of each client. -/
structure Bench where
  test : TestState
  caches : Nat → List Creds

/-- The caches are made anew, by `create_client_cache`. -/
def Bench.start : Bench := ⟨⟨0, 0, []⟩, fun _ => []⟩

/-- What depends on `ksm`: the client that `client_exec` starts for a client number and a
group number, and whether a run that is not counted gets a new cache. -/
structure Model (ε : Type) where
  logger : LoggingClient
  run : ε → Nat → Nat → List Creds → ClientRun
  refresh : Bool

/-- A client run of a test. -/
structure Attempt (ε : Type) where
  env : ε
  client : Nat
  group : Nat
  run : ClientRun
  counted : Bool

section
variable {ε : Type}

/-- What is asked for. -/
def Attempt.pair (a : Attempt ε) : Nat × Nat := (a.client, a.group)

/-- The log sees it so. -/
def Attempt.pass (a : Attempt ε) : ClientExec × Bool := (a.run.exec, a.counted)

/-- The cache after the body of the loops. -/
def Model.cacheAfter (M : Model ε) (a : Attempt ε) (cache : List Creds) : List Creds :=
  -- delete_client_cache, create_client_cache
  if !a.counted && M.refresh then [] else a.run.cacheAfter cache

/-- The body of the loops. -/
structure Model.Step (M : Model ε) (sch : Schedule) (s : Bench) (a : Attempt ε) (s' : Bench) :
    Prop where
  client : a.client = sch.client s.test.i s.test.j
  group : a.group = sch.group s.test.i s.test.j
  run : a.run = M.run a.env a.client a.group (s.caches a.client)
  pass : PassStep M.logger sch.loops s.test a.pass s'.test
  caches : s'.caches = Function.update s.caches a.client (M.cacheAfter a (s.caches a.client))

end

/-- What a run of sclient meets. -/
structure SclientEnv where
  calls : SclientCalls
  world : Krb5World
  input : SclientInput

/-- What a run of sclient2 meets. -/
structure Sclient2Env where
  calls : Sclient2Calls
  world : Krb5World
  input : Sclient2Input

/-- `"%s/%s%d.cache"`. -/
def cacheFilepath (runtimeDir baseClientName : Bytes) (client : Nat) : Bytes :=
  runtimeDir ++ ascii "/" ++ baseClientName ++ fmtInt client ++ ascii ".cache"

/-- `ksm != 2`: one service for all groups. -/
def ksm1 {ρ : Type} (L : LibMikey ρ) (runtimeDir timeLog : Bytes) : Model SclientEnv where
  logger := .sclient
  run env client group cache :=
    sclient L env.calls env.world
      [ascii "LOCALHOST", fmtInt 7777, ascii "ksm1_gcks1", groupName group,
        cacheFilepath runtimeDir (ascii "ksm1_test_client") client, timeLog]
      env.input cache (ascii "ksm1_gcks1")
  refresh := false

/-- `ksm == 2`: each group is a service. -/
def ksm2 {ρ : Type} (L : LibMikey ρ) (runtimeDir timeLog : Bytes) : Model Sclient2Env where
  logger := .sclient2
  run env client group cache :=
    sclient2Main L env.calls env.world
      [ascii "LOCALHOST", groupName group,
        cacheFilepath runtimeDir (ascii "ksm2_test_client") client, timeLog]
      env.input cache (groupName group)
  refresh := true

/-! ## What a finished test has counted -/

section
variable {ε : Type} {M : Model ε} {sch : Schedule} {as : List (Attempt ε)} {a : Attempt ε}
  {s s' : Bench}

/-- The number of runs counted so far. -/
def Bench.place (sch : Schedule) (s : Bench) : Nat := s.test.i * sch.loops.inner + s.test.j

theorem Model.passes (run : Run (M.Step sch) .start as s) :
    Run (PassStep M.logger sch.loops) ⟨0, 0, []⟩ (as.map Attempt.pass) s.test :=
  run.map (f := Bench.test) fun _ _ _ h => h.pass

/-- Each run asks for the pair at its place. -/
theorem Model.Step.asks (h : M.Step sch s a s') (hi : s.test.InLoops sch.loops) :
    s.place sch < sch.loops.outer * sch.loops.inner ∧ a.pair = sch.pair (s.place sch) := by
  have hnot := h.pass.1
  unfold TestState.finished at hnot
  obtain ⟨-, hj⟩ := hi
  have hlt : s.test.j < sch.loops.inner := by omega
  have hdiv : s.place sch / sch.loops.inner = s.test.i := by
    rw [Bench.place, Nat.mul_comm, Nat.mul_add_div (by omega), Nat.div_eq_of_lt hlt, Nat.add_zero]
  have hmod : s.place sch % sch.loops.inner = s.test.j := by
    rw [Bench.place, Nat.mul_comm, Nat.mul_add_mod, Nat.mod_eq_of_lt hlt]
  constructor
  · calc s.place sch < s.test.i * sch.loops.inner + sch.loops.inner := by
          unfold Bench.place; omega
      _ = (s.test.i + 1) * sch.loops.inner := (Nat.succ_mul _ _).symm
      _ ≤ sch.loops.outer * sch.loops.inner := Nat.mul_le_mul_right _ (by omega)
  · rw [Attempt.pair, Schedule.pair, hdiv, hmod, h.client, h.group]

/-- The place moves on by one with a counted run, and stays with another. -/
theorem Model.place_eq (run : Run (M.Step sch) .start as s) :
    s.test.InLoops sch.loops ∧ s.place sch = as.countP (·.counted) := by
  have hi := logInv_run (Model.passes run)
  refine ⟨hi.inLoops, ?_⟩
  rw [Bench.place, hi.count, List.countP_map]
  rfl

theorem Model.place_step (run : Run (M.Step sch) .start as s) (h : M.Step sch s a s') :
    s'.place sch = s.place sch + if a.counted then 1 else 0 := by
  rw [(Model.place_eq (run.snoc h)).2, (Model.place_eq run).2, List.countP_append,
    List.countP_singleton]

/-- **What has been counted** at any moment of a test: the pairs of the places before. -/
theorem Model.counted_so_far (run : Run (M.Step sch) .start as s) :
    (as.filter (·.counted)).map Attempt.pair = (List.range (s.place sch)).map sch.pair := by
  induction run with
  | nil => simp [Bench.place, Bench.start]
  | @snoc as s a s' run h ih =>
    have hplace := Model.place_step run h
    obtain ⟨-, hpair⟩ := h.asks (Model.place_eq run).1
    rw [List.filter_append, List.map_append, ih, hplace]
    cases hc : a.counted with
    | false => simp [hc]
    | true => simp [hc, List.range_succ, hpair]

/-- **What a finished test has counted**: each client run of its loops once, in order,
whatever was repeated in between. -/
theorem counted_pairs (hsch : TestProgram sch) (run : Run (M.Step sch) .start as s)
    (hs : s.test.finished sch.loops) :
    (as.filter (·.counted)).map Attempt.pair = sch.pairs ∧ sch.pairs.Nodup := by
  refine ⟨?_, hsch.distinct⟩
  rw [Model.counted_so_far run, Schedule.pairs, Bench.place,
    finished_counts hs (Model.place_eq run).1]

end

/-! Two clients and one group: 250 ms of the first are rejected, 42 and 17 ms counted. -/

/-- The key server's message for the ticket of group1. -/
def groupOneText : Bytes := writePart group1Ticket.keyblock ++ writePart [5]

/-- The KDC gives out the ticket for group1, the message comes, and it takes `ms`. -/
def groupOneEnv (ms : Int64) : Sclient2Env where
  calls := allSucceed
  world := group1World
  input := ⟨true, true, List.replicate 1024 0, segment groupOneText, some ms⟩

def groupOneAttempt (client : Nat) (ms : Int64) (counted : Bool) : Attempt Sclient2Env where
  env := groupOneEnv ms
  client := client
  group := 1
  run := ⟨some ⟨0, some group1Ticket, [⟨0x40400000, .ok group1Ticket⟩], [group1Ticket]⟩,
    .ok (.finishes (some ⟨[5], none⟩) (some ms))⟩
  counted := counted

theorem groupOneAttempt_run (client : Nat) (ms : Int64) (counted : Bool) :
    (groupOneAttempt client ms counted).run =
      (ksm2 plainMikey (ascii "bin") (ascii "log")).run (groupOneEnv ms) client 1 [] := by
  have htext : (groupOneEnv ms).input.text = .ok groupOneText := by
    show recvString (List.replicate 1024 0) 2048 (segment groupOneText) = _
    rw [← List.append_nil (segment groupOneText)]
    apply recvString_segment [] (by decide) (by decide) _ (by decide)
    rw [List.length_replicate]
    decide
  have hinst : installReply plainMikey group1Ticket.keyblock groupOneText =
      .ok ⟨[5], none⟩ := by decide
  have htail : sclient2Tail plainMikey [ascii "LOCALHOST", groupName 1,
      cacheFilepath (ascii "bin") (ascii "ksm2_test_client") client, ascii "log"]
      (groupOneEnv ms).input (some group1Ticket) =
    .ok (.finishes (some ⟨[5], none⟩) (some ms)) := by
    rw [sclient2Tail, htext]
    show (do
      let ka ← installReply plainMikey group1Ticket.keyblock groupOneText
      return logTime (some ms) (some (ascii "log")) (some ka)) = _
    rw [hinst]
    rfl
  have hwaits : sclient2 allSucceed group1World [] (groupName 1) = .waits
      ⟨0, some group1Ticket, [⟨0x40400000, .ok group1Ticket⟩], [group1Ticket]⟩ := by
    rfl
  show _ = sclient2Main plainMikey allSucceed group1World _ (groupOneEnv ms).input [] _
  rw [sclient2Main, hwaits]
  show _ = ClientRun.mk _ (sclient2Tail plainMikey _ (groupOneEnv ms).input (some group1Ticket))
  rw [htail]
  rfl

def groupOneAttempts : List (Attempt Sclient2Env) :=
  [groupOneAttempt 0 250 false, groupOneAttempt 0 42 true, groupOneAttempt 1 17 true]

theorem groupOne_run :
    Run ((ksm2 plainMikey (ascii "bin") (ascii "log")).Step (test2 2 1)) .start groupOneAttempts
      ⟨⟨2, 0, [LoggingClient.logLine .sclient2 42, LoggingClient.logLine .sclient2 17]⟩,
        Function.update (Function.update (Function.update (fun _ => []) 0 []) 0 [group1Ticket])
          1 [group1Ticket]⟩ := by
  have h1 : ((ksm2 plainMikey (ascii "bin") (ascii "log")).Step (test2 2 1)) .start
      (groupOneAttempt 0 250 false) ⟨⟨0, 0, []⟩, Function.update (fun _ => []) 0 []⟩ :=
    ⟨rfl, rfl, groupOneAttempt_run 0 250 false, ⟨by decide, by decide⟩, rfl⟩
  have h2 : ((ksm2 plainMikey (ascii "bin") (ascii "log")).Step (test2 2 1))
      ⟨⟨0, 0, []⟩, Function.update (fun _ => []) 0 []⟩ (groupOneAttempt 0 42 true)
      ⟨⟨1, 0, [LoggingClient.logLine .sclient2 42]⟩,
        Function.update (Function.update (fun _ => []) 0 []) 0 [group1Ticket]⟩ :=
    ⟨rfl, rfl, groupOneAttempt_run 0 42 true, ⟨by decide, by decide⟩, rfl⟩
  exact ((Run.nil.snoc h1).snoc h2).snoc
    ⟨rfl, rfl, groupOneAttempt_run 1 17 true, ⟨by decide, by decide⟩, rfl⟩

theorem counted_pairs_one :
    ∃ s : Bench,
      Run ((ksm2 plainMikey (ascii "bin") (ascii "log")).Step (test2 2 1)) .start
        groupOneAttempts s ∧
      (groupOneAttempts.filter (·.counted)).map Attempt.pair = [(0, 1), (1, 1)] ∧
      [(0, 1), (1, 1)].Nodup :=
  ⟨_, groupOne_run, counted_pairs (.test2 2 1) groupOne_run (.inl (Nat.le_refl 2))⟩

/-! ## Model 2: a ticket for each join -/

section
variable {ρ : Type} {L : LibMikey ρ} {runtimeDir timeLog : Bytes} {sch : Schedule}
  {as : List (Attempt Sclient2Env)} {a : Attempt Sclient2Env} {s s' : Bench}

/-- The KDC answers for the service it is asked for. -/
def Answered (a : Attempt Sclient2Env) : Prop :=
  ∀ kdcopt creds, a.env.world.kdc kdcopt = .ok creds → creds.server = groupName a.group

/-- The service tickets a client has are for groups it was counted for. -/
def CachesBehind (sch : Schedule) (s : Bench) : Prop :=
  ∀ client, ∀ creds ∈ s.caches client,
    ∃ n < s.place sch, ∃ group, sch.pair n = (client, group) ∧ creds.server = groupName group

theorem ksm2_cacheAfter (h : ((ksm2 L runtimeDir timeLog).Step sch) s a s') (ha : Answered a)
    {creds : Creds} (hc : creds ∈ a.run.cacheAfter (s.caches a.client)) :
    creds ∈ s.caches a.client ∨ creds.server = groupName a.group := by
  unfold ClientRun.cacheAfter at hc
  cases ho : a.run.obtained with
  | none =>
    rw [ho] at hc
    exact .inl hc
  | some o =>
    rw [ho] at hc
    rw [h.run] at ho
    rcases (sclient2_obtains ho).mem_cache hc with hc | ⟨kdcopt, hk⟩
    · exact .inl hc
    · exact .inr (ha kdcopt creds hk)

theorem cachesBehind_run (run : Run ((ksm2 L runtimeDir timeLog).Step sch) .start as s)
    (hkdc : ∀ a ∈ as, Answered a) : CachesBehind sch s := by
  induction run with
  | nil =>
    intro client creds hc
    cases hc
  | @snoc as s a s' run h ih =>
    have ih := ih fun b hb => hkdc b (List.mem_append_left _ hb)
    have hplace := Model.place_step run h
    obtain ⟨-, hpair⟩ := h.asks (Model.place_eq run).1
    intro client creds hc
    rw [h.caches] at hc
    by_cases hcl : client = a.client
    · subst hcl
      rw [Function.update_self, Model.cacheAfter] at hc
      cases hcount : a.counted with
      | false =>
        -- a new cache
        rw [hcount] at hc
        cases hc
      | true =>
        rw [hcount] at hc hplace
        rw [if_pos rfl] at hplace
        rcases ksm2_cacheAfter h (hkdc a (by simp)) hc with hold | hnew
        · obtain ⟨n, hn, hrest⟩ := ih _ creds hold
          exact ⟨n, by omega, hrest⟩
        · exact ⟨s.place sch, by omega, a.group, hpair.symm, hnew⟩
    · rw [Function.update_of_ne hcl] at hc
      obtain ⟨n, hn, hrest⟩ := ih client creds hc
      exact ⟨n, by omega, hrest⟩

/-- A join: an exchange with `KDC_OPT_MIKEY` for the group, and an offer installed under
the session key of its ticket. -/
def FreshJoin (L : LibMikey ρ) (a : Attempt Sclient2Env) (ms : Int64) : Prop :=
  ∃ e ∈ a.run.exchanges, ∃ creds text ka,
    e.kdcOptions &&& kdcOptMikey ≠ 0 ∧ e.result = .ok creds ∧
    creds.server = groupName a.group ∧ a.env.input.text = .ok text ∧
    installReply L creds.keyblock text = .ok ka ∧
    a.run.ending = .ok (.finishes (some ka) (some ms))

/-- No ticket is left from before where no pair occurs twice. -/
theorem freshJoin_of_step (hsch : sch.Distinct) (hc : CachesBehind sch s)
    (hloops : s.test.InLoops sch.loops) (h : ((ksm2 L runtimeDir timeLog).Step sch) s a s')
    (ha : Answered a) {ms : Int64} (hlogs : a.run.exec = .logs ms) : FreshJoin L a ms := by
  obtain ⟨hplace, hpair⟩ := h.asks hloops
  rw [h.run] at hlogs
  obtain ⟨o, creds, text, ka, -, hmain, hout, htext, hinst⟩ := sclient2_logs hlogs
  have hrun : a.run = ⟨some o, .ok (.finishes (some ka) (some ms))⟩ := h.run.trans hmain
  have hobt := sclient2_obtains (congrArg ClientRun.obtained hmain)
  cases hobt with
  | fails => cases hout
  | @cached creds' hcached =>
    -- the pair of that ticket has had its place already
    exfalso
    obtain ⟨n, hn, group, hn', hserver⟩ := hc _ creds' (List.mem_of_find?_eq_some hcached)
    have hasked := List.find?_some hcached
    rw [Bool.and_eq_true, beq_iff_eq] at hasked
    have hgroup : group = a.group := groupName_inj (hserver.symm.trans hasked.1)
    have heq : n = s.place sch := by
      apply hsch.eq (by omega) hplace
      rw [hn', ← hpair, hgroup, Attempt.pair]
    omega
  | @asks creds' kdcopt _ hopt hk =>
    cases hout
    refine ⟨⟨kdcopt, .ok creds⟩, ?_, creds, text, ka, hopt options_and_mikey, rfl,
      ha kdcopt creds hk, htext, hinst, by rw [hrun]⟩
    rw [hrun]
    exact List.mem_append_right _ (List.mem_singleton_self _)

/-- **Each time sclient2 logs in a test is that of a join of its own**, counted or not: the
test programs never measure one with a cached ticket. -/
theorem ksm2_joins_fresh (hsch : TestProgram sch)
    (run : Run ((ksm2 L runtimeDir timeLog).Step sch) .start as s)
    (hkdc : ∀ a ∈ as, Answered a) (ha : a ∈ as) {ms : Int64} (hlogs : a.run.exec = .logs ms) :
    FreshJoin L a ms := by
  induction run with
  | nil => cases ha
  | @snoc as s b s' run h ih =>
    have hkdc' : ∀ a ∈ as, Answered a := fun b hb => hkdc b (List.mem_append_left _ hb)
    rcases List.mem_append.mp ha with ha | ha
    · exact ih hkdc' ha
    · obtain rfl := List.mem_singleton.mp ha
      exact freshJoin_of_step hsch.distinct (cachesBehind_run run hkdc') (Model.place_eq run).1 h
        (hkdc a (by simp)) hlogs

end

/-- The run that was repeated had its own exchange, too. -/
theorem ksm2_joins_fresh_rejected :
    ∃ s : Bench,
      Run ((ksm2 plainMikey (ascii "bin") (ascii "log")).Step (test2 2 1)) .start
        groupOneAttempts s ∧
      FreshJoin plainMikey (groupOneAttempt 0 250 false) 250 := by
  have hkdc : ∀ a ∈ groupOneAttempts, Answered a := by
    intro a ha kdcopt creds hk
    rcases List.mem_cons.mp ha with rfl | ha
    · cases hk
      rfl
    rcases List.mem_pair.mp ha with rfl | rfl
    all_goals
      cases hk
      rfl
  exact ⟨_, groupOne_run,
    ksm2_joins_fresh (.test2 2 1) groupOne_run hkdc List.mem_cons_self rfl⟩

/-! ## Model 1: one ticket for each client -/

section
variable {ρ : Type} {L : LibMikey ρ} {runtimeDir timeLog : Bytes} {sch : Schedule}
  {all as : List (Attempt SclientEnv)} {a : Attempt SclientEnv} {s s' : Bench}

/-- The KDC answers for the key server, with tickets good for all the runs, and caches can
be written. -/
structure Lasting (all : List (Attempt SclientEnv)) : Prop where
  server : ∀ a ∈ all, ∀ kdcopt creds, a.env.world.kdc kdcopt = .ok creds →
    creds.server = ascii "ksm1_gcks1"
  endtime : ∀ a ∈ all, ∀ kdcopt creds, a.env.world.kdc kdcopt = .ok creds →
    ∀ b ∈ all, b.env.world.now < creds.endtime
  stored : ∀ a ∈ all, a.env.world.stored = true

/-- A client has no ticket, or one that all its runs with a ticket used. -/
structure OneTicket (all as : List (Attempt SclientEnv)) (s : Bench) : Prop where
  cache : ∀ client, s.caches client = [] ∨ ∃ creds, s.caches client = [creds] ∧
    creds.server = ascii "ksm1_gcks1" ∧ ∀ b ∈ all, b.env.world.now < creds.endtime
  used : ∀ a ∈ as, ∀ creds, a.run.creds = some creds → s.caches a.client = [creds]

theorem cached_singleton {w : Krb5World} {creds : Creds} {server : Bytes}
    (hs : creds.server = server) (hnow : w.now < creds.endtime) :
    w.cached [creds] server = some creds := by
  unfold Krb5World.cached
  rw [List.find?_cons_of_pos]
  rw [hs, beq_self_eq_true, Bool.true_and, decide_eq_true hnow]

/-- One run: nobody is asked if there is a ticket, and the ticket used is the one there is
behind the run. -/
theorem ksm1_step (hl : Lasting all) (ha : a ∈ all)
    (h : ((ksm1 L runtimeDir timeLog).Step sch) s a s') (hi : OneTicket all as s) :
    (∀ creds, s.caches a.client = [creds] →
      a.run.exchanges = [] ∧ s'.caches a.client = [creds]) ∧
    (∀ creds, a.run.creds = some creds → s'.caches a.client = [creds]) ∧
    (s'.caches a.client = [] ∨ ∃ creds, s'.caches a.client = [creds] ∧
      creds.server = ascii "ksm1_gcks1" ∧ ∀ b ∈ all, b.env.world.now < creds.endtime) := by
  have hcaches : s'.caches a.client = a.run.cacheAfter (s.caches a.client) := by
    rw [h.caches, Function.update_self, Model.cacheAfter]
    show (if (!a.counted && false) = true then _ else _) = _
    rw [Bool.and_false]
    rfl
  rw [hcaches]
  unfold ClientRun.cacheAfter ClientRun.exchanges ClientRun.creds
  cases ho : a.run.obtained with
  | none =>
    refine ⟨fun creds hc => ⟨rfl, hc⟩, ?_, hi.cache a.client⟩
    rintro creds ⟨⟩
  | some o =>
    rw [h.run] at ho
    have hobt := sclient_obtains ho
    rcases hi.cache a.client with hnil | ⟨creds, hc, hserver, hend⟩
    · rw [hnil] at hobt ⊢
      cases hobt with
      | fails => exact ⟨by rintro _ ⟨⟩, by rintro _ ⟨⟩, .inl rfl⟩
      | cached hcached => cases hcached
      | @asks creds kdcopt _ _ hk =>
        dsimp only
        rw [if_pos (hl.stored a ha)]
        refine ⟨by rintro _ ⟨⟩, ?_, .inr ⟨creds, rfl, hl.server a ha kdcopt creds hk,
          hl.endtime a ha kdcopt creds hk⟩⟩
        rintro _ ⟨⟩
        rfl
    · rw [hc] at hobt ⊢
      have hthere := cached_singleton hserver (hend a ha)
      cases hobt with
      | fails _ exchanges hor =>
        refine ⟨?_, by rintro _ ⟨⟩, .inr ⟨creds, rfl, hserver, hend⟩⟩
        intro creds' hc'
        refine ⟨hor.resolve_left ?_, hc'⟩
        rw [hthere]
        rintro ⟨⟩
      | cached hcached =>
        cases hthere.symm.trans hcached
        refine ⟨fun _ hc' => ⟨rfl, hc'⟩, ?_, .inr ⟨creds, rfl, hserver, hend⟩⟩
        rintro _ ⟨⟩
        rfl
      | asks _ hnone => cases hthere.symm.trans hnone

theorem oneTicket_step (hl : Lasting all) (ha : a ∈ all)
    (h : ((ksm1 L runtimeDir timeLog).Step sch) s a s') (hi : OneTicket all as s) :
    OneTicket all (as ++ [a]) s' := by
  obtain ⟨hkeep, hused, hcache⟩ := ksm1_step hl ha h hi
  have hother : ∀ client, client ≠ a.client → s'.caches client = s.caches client := by
    intro client hne
    rw [h.caches, Function.update_of_ne hne]
  constructor
  · intro client
    by_cases hcl : client = a.client
    · rw [hcl]
      exact hcache
    · rw [hother client hcl]
      exact hi.cache client
  · intro b hb creds hcreds
    rcases List.mem_append.mp hb with hb | hb
    · have hold := hi.used b hb creds hcreds
      by_cases hcl : b.client = a.client
      · rw [hcl] at hold ⊢
        exact (hkeep creds hold).2
      · rw [hother _ hcl]
        exact hold
    · rw [List.mem_singleton.mp hb] at hcreds ⊢
      exact hused creds hcreds

theorem oneTicket_run (hl : Lasting all)
    (run : Run ((ksm1 L runtimeDir timeLog).Step sch) .start as s) (hsub : ∀ a ∈ as, a ∈ all) :
    OneTicket all as s := by
  induction run with
  | nil => exact ⟨fun _ => .inl rfl, by rintro _ ⟨⟩⟩
  | snoc run h ih =>
    exact oneTicket_step hl (hsub _ (by simp)) h
      (ih fun b hb => hsub b (List.mem_append_left _ hb))

/-- Once a client's run has credentials, no later run of it asks the KDC, and those with
credentials have the same. -/
def AsksOnce (a b : Attempt SclientEnv) : Prop :=
  a.client = b.client → ∀ creds, a.run.creds = some creds →
    b.run.exchanges = [] ∧ ∀ creds', b.run.creds = some creds' → creds' = creds

/-- **A client of model 1 asks the KDC once in a test**, for all its groups and whatever is
repeated. -/
theorem ksm1_asks_once (run : Run ((ksm1 L runtimeDir timeLog).Step sch) .start as s)
    (hl : Lasting as) : as.Pairwise AsksOnce := by
  have key : ∀ front s, Run ((ksm1 L runtimeDir timeLog).Step sch) .start front s →
      (∀ a ∈ front, a ∈ as) → front.Pairwise AsksOnce := by
    intro front s run hsub
    induction run with
    | nil => exact .nil
    | @snoc front s b s' run h ih =>
      have hsub' : ∀ a ∈ front, a ∈ as := fun a ha => hsub a (List.mem_append_left _ ha)
      have hi := oneTicket_run hl run hsub'
      obtain ⟨hkeep, hused, -⟩ := ksm1_step hl (hsub b (by simp)) h hi
      rw [List.pairwise_append]
      refine ⟨ih hsub', List.pairwise_singleton _ _, ?_⟩
      intro a ha b' hb' hcl creds hcreds
      rw [List.mem_singleton.mp hb'] at hcl ⊢
      have hold := hi.used a ha creds hcreds
      rw [hcl] at hold
      obtain ⟨hexch, hnow⟩ := hkeep creds hold
      refine ⟨hexch, ?_⟩
      intro creds' hcreds'
      have := (hused creds' hcreds').symm.trans hnow
      exact List.singleton_inj.mp this
  exact key as s run fun _ ha => ha

end

/-! One client and two groups. -/

def gcksTicket : Creds := ⟨ascii "ksm1_gcks1", 36000, [1, 0, 2]⟩

def gcksText : Bytes := writePart gcksTicket.keyblock ++ writePart [5]

/-- The key server accepts, and its reply comes in one piece. -/
def gcksEnv (ms : Int64) : SclientEnv where
  calls := ⟨true, 0, .ok [⟨true, true⟩], true, 0, 0, 0, 0, 0, 0, fun _ _ => .ok true, some ms⟩
  world := ⟨1000, fun _ => 0x40000000, [], none, fun _ => .ok gcksTicket, true⟩
  input := ⟨segment ([0, 12] ++ gcksText), (0, 0), zeros⟩

def gcksAttempt (ms : Int64) (group : Nat) (exchanges : List Exchange) : Attempt SclientEnv where
  env := gcksEnv ms
  client := 0
  group := group
  run := ⟨some ⟨0, some gcksTicket, exchanges, [gcksTicket]⟩,
    .ok (.finishes (some ⟨[5], none⟩) (some ms))⟩
  counted := true

theorem gcksAttempt_run (ms : Int64) (group : Nat) {cache : List Creds}
    {exchanges : List Exchange}
    (h : getCredentials (gcksEnv ms).world cache apOptsMutualRequired (ascii "ksm1_gcks1") =
      ⟨0, some gcksTicket, exchanges, [gcksTicket]⟩) :
    (gcksAttempt ms group exchanges).run =
      (ksm1 plainMikey (ascii "bin") (ascii "log")).run (gcksEnv ms) 0 group cache := by
  have hrecv : sclientReceive (gcksEnv ms).input.es (0, 0) zeros =
      .ok (some ⟨12, gcksText, []⟩) := by
    show sclientReceive (segment ([0, 12] ++ gcksText)) (0, 0) zeros = _
    decide
  have hinst : installReply plainMikey gcksTicket.keyblock gcksText = .ok ⟨[5], none⟩ := by
    decide
  have hobt : (gcksEnv ms).calls.obtainCredentials (gcksEnv ms).world cache
      apOptsMutualRequired (ascii "ksm1_gcks1") =
      ⟨0, some gcksTicket, exchanges, [gcksTicket]⟩ := h
  show _ = sclient plainMikey (gcksEnv ms).calls (gcksEnv ms).world
    [ascii "LOCALHOST", fmtInt 7777, ascii "ksm1_gcks1", groupName group, _, ascii "log"]
    (gcksEnv ms).input cache (ascii "ksm1_gcks1")
  have hconnect : ∀ g f : Bytes, sclientConnect (gcksEnv ms).calls [ascii "LOCALHOST",
      fmtInt 7777, ascii "ksm1_gcks1", g, f, ascii "log"] = .ok (some ⟨true, true⟩) := by
    intro g f
    rfl
  rw [sclient, hconnect]
  dsimp only
  rw [hobt]
  have htail : ∀ g f : Bytes, sclientTail plainMikey (gcksEnv ms).calls [ascii "LOCALHOST",
      fmtInt 7777, ascii "ksm1_gcks1", g, f, ascii "log"] (gcksEnv ms).input ⟨true, true⟩
      (some gcksTicket) = .ok (.finishes (some ⟨[5], none⟩) (some ms)) := by
    intro g f
    rw [sclientTail, show (gcksEnv ms).calls.sendauth ⟨true, true⟩ gcksTicket = .ok true from rfl]
    show Except.bind (sclientReceive (gcksEnv ms).input.es (0, 0) zeros) _ = _
    rw [hrecv]
    show Except.bind (installReply plainMikey gcksTicket.keyblock gcksText)
      (fun ka => .ok (logTime (some ms) (some (ascii "log")) (some ka))) = _
    rw [hinst]
    rfl
  rw [htail]
  rfl

/-- The second run has the ticket of the first. -/
theorem ksm1_asks_once_two :
    AsksOnce (gcksAttempt 30 1 [⟨0x40000000, .ok gcksTicket⟩]) (gcksAttempt 20 2 []) := by
  have h1 : ((ksm1 plainMikey (ascii "bin") (ascii "log")).Step (test2 1 2)) .start
      (gcksAttempt 30 1 [⟨0x40000000, .ok gcksTicket⟩])
      ⟨⟨0, 1, [LoggingClient.logLine .sclient 30]⟩,
        Function.update (fun _ => []) 0 [gcksTicket]⟩ :=
    ⟨rfl, rfl, gcksAttempt_run 30 1 rfl, ⟨by decide, by decide⟩, rfl⟩
  have run := (Run.nil.snoc h1).snoc (a := gcksAttempt 20 2 []) (u := ⟨⟨1, 0,
      [LoggingClient.logLine .sclient 30, LoggingClient.logLine .sclient 20]⟩,
      Function.update (Function.update (fun _ => []) 0 [gcksTicket]) 0 [gcksTicket]⟩)
    ⟨rfl, rfl, gcksAttempt_run 20 2 rfl, ⟨by decide, by decide⟩, rfl⟩
  have hworld : ∀ a ∈ [gcksAttempt 30 1 [⟨0x40000000, .ok gcksTicket⟩], gcksAttempt 20 2 []],
      a.env.world = (gcksEnv 0).world := by
    intro a ha
    rcases List.mem_pair.mp ha with rfl | rfl <;> rfl
  have hl : Lasting [gcksAttempt 30 1 [⟨0x40000000, .ok gcksTicket⟩], gcksAttempt 20 2 []] := by
    constructor
    · intro a ha kdcopt creds hk
      rw [hworld a ha] at hk
      cases hk
      rfl
    · intro a ha kdcopt creds hk b hb
      rw [hworld a ha] at hk
      rw [hworld b hb]
      cases hk
      decide
    · intro a ha
      rw [hworld a ha]
      rfl
  exact List.rel_of_pairwise_cons (ksm1_asks_once run hl) List.mem_cons_self

end KerberizedMikey
