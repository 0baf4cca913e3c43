import KerberizedMikey.CLib.Decimal
import KerberizedMikey.CLib.Getopt
import Mathlib.Data.List.Induction

/-!
# The command line of gcks1

gcks1's `main` from its arguments to the first `accept`.  The options come through `getopt`,
and a second operand is taken for the port.  Without a port `main` thinks it was started by
inetd, with the connection as its descriptor 0, and goes on to `listen` on -1.

    gcks1 comes to accept with o  ↔  its arguments are written options and operands, each
      option as given last, the calls succeed, and the port is not 0      (gcks1_start_iff)

so in which order the options stand does not matter, and inetd cannot start it.
-/

namespace KerberizedMikey

open CLib

/-! ## The source -/

/-- `port`, `service` and the file behind `keytab`; NULL is the default keytab. -/
structure Gcks1Options where
  port : Int16 := 0
  /-- `SAMPLE_SERVICE`. -/
  service : Bytes := ascii "sample"
  keytab : Option Bytes := none
deriving DecidableEq

/-- The results of the calls of gcks1's `main` before its first `accept`. -/
structure Gcks1Calls where
  /-- `clock_getres` and `clock_gettime`. -/
  clock : Bool
  initContext : Int32
  ktResolve : Bytes → Int32
  snameToPrincipal : Bytes → Int32
  socket : Bool
  bind : Int16 → Bool
  /-- On descriptor 0. -/
  getpeername : Bool
  /-- On a socket; -1 is refused. -/
  listen : Bool

/-- `"p:S:s:"`: 112 is 'p', 83 is 'S' and 115 is 's'. -/
def gcks1Optstring (ch : UInt8) : Option Bool :=
  if ch = 112 ∨ ch = 83 ∨ ch = 115 then some true else none

/-- `short port = atoi(…)`. -/
def portOf (s : Bytes) : Int16 := (atoi s).toInt16

/-- The `switch` on an option; an error is the code of the exit. -/
def gcks1Option (c : Gcks1Calls) (o : Gcks1Options) : Opt → Except Nat Gcks1Options
  | .opt 112 (some optarg) => .ok { o with port := portOf optarg }
  | .opt 115 (some optarg) => .ok { o with service := optarg }
  | .opt 83 (some optarg) =>
    if c.ktResolve optarg ≠ 0 then .error 2 else .ok { o with keytab := some optarg }
  -- usage
  | _ => .error 1

/-- `if (argc > 1) port = atoi(argv[1])`, behind the options. -/
def portOperand (o : Gcks1Options) : List Bytes → Gcks1Options
  | _ :: port :: _ => { o with port := portOf port }
  | _ => o

/-- gcks1's `main` up to its first `accept`; `argv` starts with `argv[1]`. -/
def gcks1Start (c : Gcks1Calls) (argv : List Bytes) : Except Nat Gcks1Options :=
  if !c.clock then .error 0
  else if c.initContext ≠ 0 then .error 1
  else do
    let o ← (getopt gcks1Optstring argv).1.foldlM (gcks1Option c) {}
    let o := portOperand o (getopt gcks1Optstring argv).2
    if c.snameToPrincipal o.service ≠ 0 then .error 1
    else if o.port ≠ 0 then
      if !c.socket then .error 3
      else if !c.bind o.port then .error 3
      else if !c.listen then .error 3
      else .ok o
    else if !c.getpeername then .error 1
    -- `listen(-1, 2)`
    else .error 3

/-! ## What the arguments mean -/

/-- The argument given last for an option. -/
def lastGiven (ch : UInt8) (opts : List (UInt8 × Bytes)) : Option Bytes :=
  ((opts.filter fun p => p.1 = ch).getLast?).map Prod.snd

/-- The options, each as given last. -/
def givenOptions (opts : List (UInt8 × Bytes)) : Gcks1Options where
  port := ((lastGiven 112 opts).map portOf).getD 0
  service := (lastGiven 115 opts).getD (ascii "sample")
  keytab := lastGiven 83 opts

/-- The calls succeed that these options lead to. -/
structure Gcks1Calls.Succeed (c : Gcks1Calls) (opts : List (UInt8 × Bytes)) (o : Gcks1Options) :
    Prop where
  clock : c.clock = true
  initContext : c.initContext = 0
  ktResolve : ∀ optarg, (83, optarg) ∈ opts → c.ktResolve optarg = 0
  snameToPrincipal : c.snameToPrincipal o.service = 0
  socket : c.socket = true
  bind : c.bind o.port = true
  listen : c.listen = true

/-! ## The options -/

theorem lastGiven_append (ch : UInt8) (opts : List (UInt8 × Bytes)) (p : UInt8 × Bytes) :
    lastGiven ch (opts ++ [p]) = if p.1 = ch then some p.2 else lastGiven ch opts := by
  unfold lastGiven
  rw [List.filter_append]
  by_cases h : p.1 = ch
  · simp [h]
  · simp [h]

theorem optstring_iff (ch : UInt8) :
    gcks1Optstring ch = some true ↔ ch = 112 ∨ ch = 83 ∨ ch = 115 := by
  unfold gcks1Optstring
  split <;> simp_all

/-- **One option.** -/
theorem gcks1Option_ok_iff (c : Gcks1Calls) (opts : List (UInt8 × Bytes)) {ch : UInt8}
    (hch : gcks1Optstring ch = some true) (optarg : Bytes) (o : Gcks1Options) :
    gcks1Option c (givenOptions opts) (.opt ch (some optarg)) = .ok o ↔
      (ch = 83 → c.ktResolve optarg = 0) ∧ o = givenOptions (opts ++ [(ch, optarg)]) := by
  rcases (optstring_iff ch).mp hch with rfl | rfl | rfl
  · have hgiven : givenOptions (opts ++ [(112, optarg)]) =
        { givenOptions opts with port := portOf optarg } := by
      simp [givenOptions, lastGiven_append]
    rw [hgiven]
    constructor
    · intro h
      exact ⟨by rintro ⟨⟩, (Except.ok.inj h).symm⟩
    · rintro ⟨-, rfl⟩
      rfl
  · have hgiven : givenOptions (opts ++ [(83, optarg)]) =
        { givenOptions opts with keytab := some optarg } := by
      simp [givenOptions, lastGiven_append]
    rw [hgiven, gcks1Option]
    by_cases hkt : c.ktResolve optarg = 0
    · rw [if_neg (not_not.mpr hkt)]
      constructor
      · intro h
        exact ⟨fun _ => hkt, (Except.ok.inj h).symm⟩
      · rintro ⟨-, rfl⟩
        rfl
    · rw [if_pos hkt]
      exact iff_of_false (by rintro ⟨⟩) fun h => hkt (h.1 rfl)
  · have hgiven : givenOptions (opts ++ [(115, optarg)]) =
        { givenOptions opts with service := optarg } := by
      simp [givenOptions, lastGiven_append]
    rw [hgiven]
    constructor
    · intro h
      exact ⟨by rintro ⟨⟩, (Except.ok.inj h).symm⟩
    · rintro ⟨-, rfl⟩
      rfl

/-- **The loop over the options** keeps the last argument of each. -/
theorem foldlM_gcks1Option (c : Gcks1Calls) (opts : List (UInt8 × Bytes))
    (hopts : ∀ p ∈ opts, gcks1Optstring p.1 = some true) (o : Gcks1Options) :
    (opts.map fun p => Opt.opt p.1 (some p.2)).foldlM (gcks1Option c) {} = .ok o ↔
      (∀ optarg, (83, optarg) ∈ opts → c.ktResolve optarg = 0) ∧ o = givenOptions opts := by
  induction opts using List.reverseRecOn generalizing o with
  | nil =>
    constructor
    · intro h
      cases h
      exact ⟨by simp, rfl⟩
    · rintro ⟨-, rfl⟩
      rfl
  | append_singleton opts p ih =>
    have hinit : ∀ q ∈ opts, gcks1Optstring q.1 = some true := fun q hq =>
      hopts q (List.mem_append_left _ hq)
    obtain ⟨ch, optarg⟩ := p
    have hstep := gcks1Option_ok_iff c opts (hopts (ch, optarg) (by simp)) optarg
    rw [List.map_append, List.foldlM_append, bind_eq_ok_iff]
    simp only [ih hinit, List.map_singleton, List.foldlM_cons, List.foldlM_nil, bind_pure]
    constructor
    · rintro ⟨o', ⟨hkt, rfl⟩, ho⟩
      obtain ⟨hch, rfl⟩ := (hstep o).mp ho
      refine ⟨?_, rfl⟩
      intro a ha
      rcases List.mem_append.mp ha with ha | ha
      · exact hkt a ha
      · cases List.mem_singleton.mp ha
        exact hch rfl
    · rintro ⟨hkt, rfl⟩
      refine ⟨_, ⟨fun a ha => hkt a (List.mem_append_left _ ha), rfl⟩, (hstep _).mpr ⟨?_, rfl⟩⟩
      rintro rfl
      exact hkt optarg (by simp)

/-- An option that is unknown, or lacks its argument, ends gcks1. -/
theorem foldlM_unknown (c : Gcks1Calls) {opts : List Opt} (h : .unknown ∈ opts)
    (o o' : Gcks1Options) : opts.foldlM (gcks1Option c) o ≠ .ok o' := by
  induction opts generalizing o with
  | nil => cases h
  | cons p opts ih =>
    rw [List.foldlM_cons]
    intro he
    obtain ⟨o1, ho1, he⟩ := bind_eq_ok_iff.mp he
    rcases List.mem_cons.mp h with rfl | h
    · cases ho1
    · exact ih h o1 he

/-- `main` behind the options. -/
theorem gcks1Start_ok_iff (c : Gcks1Calls) (argv : List Bytes) (o : Gcks1Options) :
    gcks1Start c argv = .ok o ↔
      ∃ o', (getopt gcks1Optstring argv).1.foldlM (gcks1Option c) {} = .ok o' ∧
        o = portOperand o' (getopt gcks1Optstring argv).2 ∧ o.port ≠ 0 ∧ c.clock = true ∧
        c.initContext = 0 ∧ c.snameToPrincipal o.service = 0 ∧ c.socket = true ∧
        c.bind o.port = true ∧ c.listen = true := by
  unfold gcks1Start
  cases hclock : c.clock with
  | false => simp
  | true =>
    by_cases hinit : c.initContext = 0
    case neg => simp [hinit]
    simp only [Bool.not_true, Bool.false_eq_true, if_false, hinit, ne_eq, not_true,
      bind_eq_ok_iff, true_and]
    refine exists_congr fun o' => and_congr_right fun _ => ?_
    generalize portOperand o' (getopt gcks1Optstring argv).2 = p
    constructor
    · intro h
      split at h
      · cases h
      next hsname =>
      split at h
      · next hport =>
        split at h
        · cases h
        next hsocket =>
        split at h
        · cases h
        next hbind =>
        split at h
        · cases h
        next hlisten =>
        cases h
        simp_all
      · split at h <;> cases h
    · rintro ⟨rfl, hport, hsname, hsocket, hbind, hlisten⟩
      simp [hport, hsname, hsocket, hbind, hlisten]

/-! ## The command lines that start gcks1 -/

/-- **When gcks1 comes to its first `accept`**, and with which options: its arguments are
written options and operands, in any order; each option counts as given last, a second
operand is the port; the calls succeed; and the port is not 0. -/
theorem gcks1_start_iff (c : Gcks1Calls) (argv : List Bytes) (o : Gcks1Options) :
    gcks1Start c argv = .ok o ↔
      ∃ (items : List Item) (rest operands : List Bytes) (opts : List (UInt8 × Bytes)),
        argv = items.flatMap Item.words ++ rest ∧ Rest rest operands ∧
        opts = items.filterMap Item.option ∧ (∀ p ∈ opts, p.1 = 112 ∨ p.1 = 83 ∨ p.1 = 115) ∧
        o = portOperand (givenOptions opts) (items.filterMap Item.operand? ++ operands) ∧
        c.Succeed opts o ∧ o.port ≠ 0 := by
  have hdash : gcks1Optstring dash ≠ some true := by decide
  rw [gcks1Start_ok_iff]
  constructor
  · rintro ⟨o', hfold, ho, hport, hclock, hinit, hsname, hsocket, hbind, hlisten⟩
    have hknown : ∀ p ∈ (getopt gcks1Optstring argv).1, p ≠ .unknown := by
      rintro p hp rfl
      exact foldlM_unknown c hp _ _ hfold
    have hflag : ∀ ch, gcks1Optstring ch ≠ some false := by
      intro ch
      unfold gcks1Optstring
      split <;> simp
    obtain ⟨items, rest, operands, rfl, hrest, hopts⟩ := (getopt_ok_iff hdash hflag argv).mp hknown
    rw [getopt_words hdash items hopts hrest] at hfold ho
    obtain ⟨hkt, rfl⟩ := (foldlM_gcks1Option c _ hopts o').mp hfold
    exact ⟨items, rest, operands, _, rfl, hrest, rfl, fun p hp => (optstring_iff _).mp (hopts p hp),
      ho, ⟨hclock, hinit, hkt, hsname, hsocket, hbind, hlisten⟩, hport⟩
  · rintro ⟨items, rest, operands, _, rfl, hrest, rfl, hopts, ho, hs, hport⟩
    have hopts := fun p hp => (optstring_iff p.1).mpr (hopts p hp)
    rw [getopt_words hdash items hopts hrest]
    exact ⟨_, (foldlM_gcks1Option c _ hopts _).mpr ⟨hs.ktResolve, rfl⟩, ho, hport, hs.clock,
      hs.initContext, hs.snameToPrincipal, hs.socket, hs.bind, hs.listen⟩

/-- `gcks1_run.sh` with its options in another order, and `gcks1 8888`. -/
example :
    let c : Gcks1Calls := ⟨true, 0, fun _ => 0, fun _ => 0, true, fun _ => true, true, true⟩
    gcks1Start c [ascii "-S", ascii "gcks1.keytab", ascii "-p8888", ascii "-s", ascii "gcks1"] =
        .ok ⟨8888, ascii "gcks1", some (ascii "gcks1.keytab")⟩ ∧
      gcks1Start c [ascii "8888"] = .error 3 := by
  decide

end KerberizedMikey
