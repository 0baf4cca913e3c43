import KerberizedMikey.CLib.Memory
import Mathlib.Logic.Relation

/-!
# recvauth_common with and without multicast_group

The patch gives `recvauth_common` a parameter that the two existing entry points pass
as NULL, prints its line number in seven places, and adds one statement to the success
path, just before `cleanup:`,

    multicast_group->data = (*auth_context)->authentp->authorization_data[0]->contents;

The body is that of krb5 1.8, stretch by stretch (`Block`); what it calls is `Krb5Recv`.
A call that does not come back ends both versions alike and is left out.

    without its printf lines the patched body is the original one     (strip_recvauthBodyShown)
    the body is left at its end  ↔  the calls on the way Completes    (recvauthBody_next_iff)

The entry points behave as before exactly when the calls do not complete the exchange
(recvauth_unchanged_iff).
-/

namespace KerberizedMikey

open CLib

/-- The arguments that steer the body; `version` is whether that pointer is non-NULL. -/
structure RecvArgs where
  applVersion : Option CString
  version : Bool
  flags : UInt32

/-- The locals of `recvauth_common`; `outbuf` is `outbuf.data`. -/
structure RecvVars where
  retval : Int32 := 0
  problem : Int32 := 0
  response : UInt8 := 0
  outbuf : Option Bytes := none
  apOption : UInt32 := 0
  localAuthcon : Bool := false
  localRcache : Bool := false

/-- How a stretch of the body is left. -/
inductive Flow
  | next
  /-- `return(code)`. -/
  | returns (code : Int32)
  /-- `goto cleanup`. -/
  | cleanup
deriving DecidableEq

/-- `krb5_authdata`. -/
structure AuthData where
  adType : Int32
  length : Nat
  contents : Bytes

/-- `krb5_data`. -/
structure KrbData where
  length : Nat
  data : Option Bytes

/-- `KRB5_RECVAUTH_SKIP_VERSION`. -/
def recvauthSkipVersion : UInt32 := 0x0001

/-- `KRB5_RECVAUTH_BADAUTHVERS`. -/
def recvauthBadauthvers : UInt32 := 0x0002

/-- `KRB5_SENDAUTH_BADAUTHVERS`. -/
def sendauthBadauthvers : Int32 := -1765328180

/-- `KRB5_SENDAUTH_BADAPPLVERS`. -/
def sendauthBadapplvers : Int32 := -1765328179

/-- The bit of `AP_OPTS_MUTUAL_REQUIRED` in `ap_option`. -/
def recvMutualRequired : UInt32 := 0x20000000

/-- `sendauth_version`. -/
def sendauthVersion : CString := ⟨ascii "KRB5_SENDAUTH_V1.0", by decide⟩

/-- The krb5 1.8 calls of `recvauth_common`, over the state `σ` of files, `inbuf`, ticket,
version and contexts. -/
structure Krb5Recv (σ : Type) where
  readMessage : σ → Int32 × σ
  /-- `strcmp` finds a difference between the message just read and a version string. -/
  differs : CString → σ → Bool
  /-- `*version = inbuf`. -/
  storeVersion : σ → σ
  /-- `krb5_net_write` of the response byte; `false` is a negative result. -/
  netWrite : UInt8 → σ → Bool × σ
  writeMessage : Option Bytes → σ → Int32 × σ
  /-- `*auth_context == NULL`. -/
  authContextNull : σ → Bool
  authConInit : σ → Int32 × σ
  /-- `krb5_auth_con_getrcache` finds no replay cache. -/
  rcacheNull : σ → Bool
  getServerRcache : σ → Int32 × σ
  authConSetrcache : σ → Int32 × σ
  /-- The error code, `ap_option`. -/
  rdReq : σ → Int32 × UInt32 × σ
  /-- The error message for `problem`: `strdup` of its text, and `krb5_mk_error`. -/
  mkError : Int32 → σ → Except Int32 Bytes × σ
  mkRep : σ → Except Int32 Bytes × σ
  /-- `(*auth_context)->authentp->authorization_data`: NULL, or the elements before the
  terminating NULL. -/
  authorizationData : σ → Option (List AuthData)
  authConFree : σ → σ
  /-- `krb5_rc_close(context, rcache)` and `krb5_auth_con_setrcache` of NULL. -/
  rcClose : σ → σ

/-- A stretch of the body. -/
abbrev Block (σ : Type) := RecvVars → σ → Flow × RecvVars × σ

section
variable {σ : Type}

/-- One stretch after the other. -/
def Block.andThen (b c : Block σ) : Block σ := fun v s =>
  match b v s with
  | (.next, v, s) => c v s
  | out => out

variable (K : Krb5Recv σ)

/-- `if (!(flags & KRB5_RECVAUTH_SKIP_VERSION)) { ... }` -/
def checkSendauthVersion (flags : UInt32) : Block σ := fun v s =>
  if flags &&& recvauthSkipVersion = 0 then
    let (retval, s) := K.readMessage s
    if retval ≠ 0 then (.returns retval, { v with retval }, s)
    else if K.differs sendauthVersion s then
      (.next, { v with retval, problem := sendauthBadauthvers, response := 1 }, s)
    else (.next, { v with retval }, s)
  else (.next, v, s)

/-- `if (flags & KRB5_RECVAUTH_BADAUTHVERS) { ... }` -/
def checkFlags (flags : UInt32) : Block σ := fun v s =>
  if flags &&& recvauthBadauthvers ≠ 0 then
    (.next, { v with problem := sendauthBadauthvers, response := 1 }, s)
  else (.next, v, s)

/-- "Do the same thing for the application version string." -/
def checkApplVersion (args : RecvArgs) : Block σ := fun v s =>
  let (retval, s) := K.readMessage s
  if retval ≠ 0 then (.returns retval, { v with retval }, s)
  else
    let differs := args.applVersion.any fun applVersion => K.differs applVersion s
    let v := if differs && v.problem = 0 then
        { v with retval, problem := sendauthBadapplvers, response := 2 }
      else { v with retval }
    (.next, v, if args.version && v.problem = 0 then K.storeVersion s else s)

/-- The response byte; `problem` is returned when it cannot be written, too. -/
def writeResponse : Block σ := fun v s =>
  let (written, s) := K.netWrite v.response s
  if !written then (.returns v.problem, v, s)
  else if v.problem ≠ 0 then (.returns v.problem, v, s)
  else (.next, v, s)

/-- `if ((retval = krb5_read_message(context, fd, &inbuf))) return retval;` -/
def readApReq : Block σ := fun v s =>
  let (retval, s) := K.readMessage s
  if retval ≠ 0 then (.returns retval, { v with retval }, s) else (.next, { v with retval }, s)

/-- `if (*auth_context == NULL) { problem = krb5_auth_con_init(...); ... }` -/
def initAuthContext : Block σ := fun v s =>
  if K.authContextNull s then
    let (problem, s) := K.authConInit s
    (.next, { v with problem, localAuthcon := true }, s)
  else (.next, v, s)

/-- `if ((!problem) && rcache == NULL) { ... }` -/
def initRcache : Block σ := fun v s =>
  if v.problem = 0 ∧ K.rcacheNull s then
    let (problem, s) := K.getServerRcache s
    if problem = 0 then
      let (problem, s) := K.authConSetrcache s
      (.next, { v with problem, localRcache := true }, s)
    else (.next, { v with problem, localRcache := true }, s)
  else (.next, v, s)

/-- `if (!problem) { problem = krb5_rd_req(...); ... }` -/
def readRequest : Block σ := fun v s =>
  if v.problem = 0 then
    let (problem, apOption, s) := K.rdReq s
    (.next, { v with problem, apOption }, s)
  else (.next, v, s)

/-- `if (problem) { ... } else { outbuf.length = 0; outbuf.data = 0; }` -/
def errorReply : Block σ := fun v s =>
  if v.problem ≠ 0 then
    match K.mkError v.problem s with
    | (.error retval, s) => (.cleanup, { v with retval }, s)
    | (.ok message, s) => (.next, { v with outbuf := some message }, s)
  else (.next, { v with outbuf := none }, s)

/-- `retval = krb5_write_message(context, fd, &outbuf);` and the exits after it. -/
def writeReply : Block σ := fun v s =>
  let (retval, s) := K.writeMessage v.outbuf s
  if v.outbuf.isSome then (.cleanup, { v with retval := v.problem }, s)
  else if retval ≠ 0 then (.cleanup, { v with retval }, s)
  else (.next, { v with retval }, s)

/-- `if ((ap_option & AP_OPTS_MUTUAL_REQUIRED)) { ... }` -/
def mutualAuth : Block σ := fun v s =>
  if v.apOption &&& recvMutualRequired ≠ 0 then
    match K.mkRep s with
    | (.error retval, s) => (.returns retval, { v with retval }, s)
    | (.ok rep, s) =>
      let (retval, s) := K.writeMessage (some rep) s
      (.next, { v with retval }, s)
  else (.next, v, s)

/-- The body up to `cleanup:`. -/
def recvauthBody (args : RecvArgs) : Block σ :=
  (checkSendauthVersion K args.flags).andThen <| (checkFlags args.flags).andThen <|
    (checkApplVersion K args).andThen <| (writeResponse K).andThen <| (readApReq K).andThen <|
      (initAuthContext K).andThen <| (initRcache K).andThen <| (readRequest K).andThen <|
        (errorReply K).andThen <| (writeReply K).andThen (mutualAuth K)

/-- `cleanup:` and `return retval`. -/
def Krb5Recv.cleanup (v : RecvVars) (s : σ) : Int32 × σ :=
  if v.retval ≠ 0 then
    if v.localAuthcon then (v.retval, K.authConFree s)
    else if v.localRcache && !K.rcacheNull s then (v.retval, K.rcClose s)
    else (v.retval, s)
  else (v.retval, s)

/-- `recvauth_common` of krb5 1.8: the error code and the state. -/
def recvauthCommonOriginal (args : RecvArgs) (s : σ) : Int32 × σ :=
  match recvauthBody K args {} s with
  | (.returns code, _, s) => (code, s)
  | (.cleanup, v, s) => K.cleanup v s
  | (.next, v, s) => K.cleanup v s

/-! ## The patched function -/

/-- A stretch of the patched body, with the line numbers it prints. -/
abbrev ShownBlock (σ : Type) := RecvVars → σ → List Nat × Flow × RecvVars × σ

/-- A stretch that prints nothing. -/
def Block.quiet (b : Block σ) : ShownBlock σ := fun v s => ([], b v s)

/-- `printf("%s(%d)\n",__FILE__,__LINE__);` on that line of recvauth.c. -/
def printLine (line : Nat) : ShownBlock σ := fun v s => ([line], .next, v, s)

def ShownBlock.andThen (b c : ShownBlock σ) : ShownBlock σ := fun v s =>
  match b v s with
  | (shown, .next, v, s) => (shown ++ (c v s).1, (c v s).2)
  | out => out

/-- The patched body up to the added statement. -/
def recvauthBodyShown (args : RecvArgs) : ShownBlock σ :=
  (printLine 64).andThen <| (printLine 74).andThen <|
    (checkSendauthVersion K args.flags).quiet.andThen <|
    (checkFlags args.flags).quiet.andThen <| (checkApplVersion K args).quiet.andThen <|
    (writeResponse K).quiet.andThen <| (readApReq K).quiet.andThen <|
  (printLine 126).andThen <| (initAuthContext K).quiet.andThen <|
    (initRcache K).quiet.andThen <|
  (printLine 149).andThen <| (readRequest K).quiet.andThen <| (errorReply K).quiet.andThen <|
  (printLine 199).andThen <| (writeReply K).quiet.andThen (mutualAuth K).quiet

/-- The added statement. -/
def setMulticastGroup (multicastGroup : Option KrbData) (s : σ) : Except Fault (Option KrbData) :=
  match multicastGroup, K.authorizationData s with
  | some group, some (ad :: _) => .ok (some { group with data := some ad.contents })
  | _, _ => .error .nullDeref

/-- `recvauth_common` with the patch: the printed line numbers; error code, state, and
`*multicast_group`. -/
def recvauthCommonShown (args : RecvArgs) (multicastGroup : Option KrbData) (s : σ) :
    List Nat × Except Fault ((Int32 × σ) × Option KrbData) :=
  match recvauthBodyShown K args {} s with
  | (shown, .returns code, _, s) => (shown, .ok ((code, s), multicastGroup))
  | (shown, .cleanup, v, s) => (shown, .ok (K.cleanup v s, multicastGroup))
  | (shown, .next, v, s) =>
    match setMulticastGroup K multicastGroup s with
    | .error f => (shown ++ [219], .error f)
    | .ok multicastGroup => (shown ++ [219, 221], .ok (K.cleanup v s, multicastGroup))

/-- `recvauth_common` with the patch, without what it prints. -/
def recvauthCommon (args : RecvArgs) (multicastGroup : Option KrbData) (s : σ) :
    Except Fault ((Int32 × σ) × Option KrbData) :=
  (recvauthCommonShown K args multicastGroup s).2

/-- The arguments of `krb5_recvauth`. -/
def recvauthArgs (applVersion : Option CString) (flags : UInt32) : RecvArgs :=
  ⟨applVersion, false, flags⟩

/-- The arguments of `krb5_recvauth_version`. -/
def recvauthVersionArgs (flags : UInt32) : RecvArgs := ⟨none, true, flags⟩

/-- `krb5_recvauth`. -/
def krb5Recvauth (applVersion : Option CString) (flags : UInt32) (s : σ) :
    Except Fault (Int32 × σ) :=
  (recvauthCommon K (recvauthArgs applVersion flags) none s).map (·.1)

/-- `krb5_recvauth_version`. -/
def krb5RecvauthVersion (flags : UInt32) (s : σ) : Except Fault (Int32 × σ) :=
  (recvauthCommon K (recvauthVersionArgs flags) none s).map (·.1)

/-- `krb5_recvauth_gcks`. -/
def krb5RecvauthGcks (applVersion : Option CString) (flags : UInt32) (multicastGroup : KrbData)
    (s : σ) : Except Fault ((Int32 × σ) × Option KrbData) :=
  recvauthCommon K (recvauthArgs applVersion flags) (some multicastGroup) s

/-- The body is left by a `return` or `goto cleanup`: no success path is reached. -/
def LeavesEarly (args : RecvArgs) (s : σ) : Prop := (recvauthBody K args {} s).1 ≠ .next

/-! ## Where the body ends

What the calls have to return for an exchange to be completed. -/

/-- The sendauth version string is read and is the right one, or is not asked for. -/
def SendauthVersionAgrees (flags : UInt32) (s s' : σ) : Prop :=
  if flags &&& recvauthSkipVersion = 0 then
    K.readMessage s = (0, s') ∧ K.differs sendauthVersion s' = false
  else s' = s

/-- The application version string is read and is the right one. -/
def ApplVersionAgrees (args : RecvArgs) (s s' : σ) : Prop :=
  ∃ s1, K.readMessage s = (0, s1) ∧ (∀ applVersion ∈ args.applVersion,
    K.differs applVersion s1 = false) ∧ s' = if args.version then K.storeVersion s1 else s1

/-- There is an auth context, or one can be made. -/
def ContextReady (s s' : σ) : Prop :=
  if K.authContextNull s then K.authConInit s = (0, s') else s' = s

/-- There is a replay cache, or one can be set up. -/
def RcacheReady (s s' : σ) : Prop :=
  if K.rcacheNull s then ∃ s1, K.getServerRcache s = (0, s1) ∧ K.authConSetrcache s1 = (0, s')
  else s' = s

/-- The answer for mutual authentication can be made, if one is due. -/
def MutualReady (apOption : UInt32) (s : σ) : Prop :=
  apOption &&& recvMutualRequired ≠ 0 → ∃ rep s', K.mkRep s = (.ok rep, s')

/-- **A completed exchange.**  Each call on the way succeeds: the versions agree, the
response is written, the AP-REQ is read and accepted, and the reply can be sent. -/
def Completes (args : RecvArgs) (s : σ) : Prop :=
  ∃ s1, SendauthVersionAgrees K args.flags s s1 ∧ args.flags &&& recvauthBadauthvers = 0 ∧
  ∃ s2, ApplVersionAgrees K args s1 s2 ∧
  ∃ s3, K.netWrite 0 s2 = (true, s3) ∧
  ∃ s4, K.readMessage s3 = (0, s4) ∧
  ∃ s5, ContextReady K s4 s5 ∧
  ∃ s6, RcacheReady K s5 s6 ∧
  ∃ apOption s7, K.rdReq s6 = (0, apOption, s7) ∧
  ∃ s8, K.writeMessage none s7 = (0, s8) ∧ MutualReady K apOption s8

/-- What is left of the body, from variables with `I`, is left at its end exactly when there
is no problem so far and `φ` holds of the state. -/
def Block.EndsWhen (b : Block σ) (I : RecvVars → Prop) (φ : σ → Prop) : Prop :=
  ∀ v s, I v → ((b v s).1 = .next ↔ v.problem = 0 ∧ φ s)

/-- A response byte other than 0 goes with a problem. -/
def RecvVars.Consistent (v : RecvVars) : Prop := v.problem = 0 → v.response = 0

theorem badauthvers_ne_zero : sendauthBadauthvers ≠ 0 := by decide

theorem badapplvers_ne_zero : sendauthBadapplvers ≠ 0 := by decide

variable {K} {c : Block σ} {φ : σ → Prop}

/-- A stretch that goes on with `v1`, `s1`. -/
theorem andThen_of_next {b : Block σ} {v v1 : RecvVars} {s s1 : σ}
    (h : b v s = (.next, v1, s1)) : b.andThen c v s = c v1 s1 := by
  rw [Block.andThen, h]

/-- A stretch that leaves the body. -/
theorem andThen_of_leave {b : Block σ} {v v1 : RecvVars} {s s1 : σ} {flow : Flow}
    (h : b v s = (flow, v1, s1)) (hf : flow ≠ .next) : (b.andThen c v s).1 ≠ .next := by
  rw [Block.andThen, h]
  cases flow with
  | next => exact absurd rfl hf
  | returns code => exact hf
  | cleanup => exact hf

theorem mutualAuth_endsWhen (apOption : UInt32) (v : RecvVars) (hv : v.apOption = apOption)
    (s : σ) : (mutualAuth K v s).1 = .next ↔ MutualReady K apOption s := by
  unfold mutualAuth MutualReady
  rw [hv]
  by_cases ha : apOption &&& recvMutualRequired = 0
  · rw [if_neg (not_not.mpr ha)]
    exact iff_of_true rfl fun h => absurd ha h
  · rw [if_pos ha]
    rcases K.mkRep s with ⟨rep | rep, s1⟩
    · refine iff_of_false (by simp) fun h => ?_
      obtain ⟨rep, s', ⟨⟩⟩ := h ha
    · exact iff_of_true rfl fun _ => ⟨rep, s1, rfl⟩

/-- From the error reply on: nothing is reported, the empty reply is written. -/
theorem reply_endsWhen (apOption : UInt32) :
    ((errorReply K).andThen ((writeReply K).andThen (mutualAuth K))).EndsWhen
      (·.apOption = apOption)
      fun s => ∃ s8, K.writeMessage none s = (0, s8) ∧ MutualReady K apOption s8 := by
  intro v s hv
  beta_reduce
  by_cases hp : v.problem = 0
  · have hreply : errorReply K v s = (.next, { v with outbuf := none }, s) :=
      if_neg (not_not.mpr hp)
    rw [andThen_of_next hreply, and_iff_right hp]
    rcases hw : K.writeMessage none s with ⟨retval, s8⟩
    by_cases hr : retval = 0
    · subst hr
      have hwrite : writeReply K { v with outbuf := none } s =
          (.next, { v with outbuf := none, retval := 0 }, s8) := by
        simp [writeReply, hw]
      rw [andThen_of_next hwrite,
        mutualAuth_endsWhen apOption { v with outbuf := none, retval := 0 } hv]
      constructor
      · intro h
        exact ⟨s8, rfl, h⟩
      · rintro ⟨s8, ⟨⟩, h⟩
        exact h
    · have hwrite : writeReply K { v with outbuf := none } s =
          (.cleanup, { v with outbuf := none, retval }, s8) := by
        simp [writeReply, hw, hr]
      refine iff_of_false (andThen_of_leave hwrite (by simp)) ?_
      rintro ⟨s8, ⟨⟩, -⟩
      exact hr rfl
  · refine iff_of_false ?_ fun h => hp h.1
    -- the error message is sent, if it can be made
    rcases hm : K.mkError v.problem s with ⟨retval | message, s1⟩
    · have hreply : errorReply K v s = (.cleanup, { v with retval }, s1) := by
        simp only [errorReply, if_pos hp, hm]
      exact andThen_of_leave hreply (by simp)
    · have hreply : errorReply K v s = (.next, { v with outbuf := some message }, s1) := by
        simp only [errorReply, if_pos hp, hm]
      have hleave : ∃ v' s', writeReply K { v with outbuf := some message } s1 =
          (.cleanup, v', s') := ⟨_, _, rfl⟩
      obtain ⟨v', s', hleave⟩ := hleave
      rw [andThen_of_next hreply]
      exact andThen_of_leave hleave (by simp)

theorem readRequest_endsWhen {φ : UInt32 → σ → Prop}
    (hc : ∀ apOption, c.EndsWhen (·.apOption = apOption) (φ apOption)) :
    ((readRequest K).andThen c).EndsWhen (fun _ => True)
      fun s => ∃ apOption s7, K.rdReq s = (0, apOption, s7) ∧ φ apOption s7 := by
  intro v s _
  beta_reduce
  by_cases hp : v.problem = 0
  · rcases hr : K.rdReq s with ⟨problem, apOption, s7⟩
    have hread : readRequest K v s = (.next, { v with problem, apOption }, s7) := by
      simp only [readRequest, if_pos hp, hr]
    rw [andThen_of_next hread, hc apOption _ s7 rfl, and_iff_right hp]
    constructor
    · rintro ⟨hproblem, h⟩
      exact ⟨apOption, s7, Prod.ext hproblem rfl, h⟩
    · rintro ⟨_, _, ⟨⟩, h⟩
      exact ⟨rfl, h⟩
  · have hread : readRequest K v s = (.next, v, s) := if_neg hp
    rw [andThen_of_next hread, hc v.apOption v s rfl]
    exact iff_of_false (fun h => hp h.1) fun h => hp h.1

theorem initRcache_endsWhen (hc : c.EndsWhen (fun _ => True) φ) :
    ((initRcache K).andThen c).EndsWhen (fun _ => True)
      fun s => ∃ s6, RcacheReady K s s6 ∧ φ s6 := by
  intro v s _
  beta_reduce
  unfold RcacheReady
  by_cases hp : v.problem = 0
  · rw [and_iff_right hp]
    cases hn : K.rcacheNull s with
    | false =>
      have hinit : initRcache K v s = (.next, v, s) := by simp [initRcache, hn]
      rw [andThen_of_next hinit, hc v s trivial, and_iff_right hp]
      simp
    | true =>
      rcases hg : K.getServerRcache s with ⟨problem, s1⟩
      by_cases hz : problem = 0
      · subst hz
        rcases hset : K.authConSetrcache s1 with ⟨problem, s6⟩
        have hinit : initRcache K v s = (.next, { v with problem, localRcache := true }, s6) := by
          simp [initRcache, hp, hn, hg, hset]
        rw [andThen_of_next hinit, hc _ s6 trivial]
        constructor
        · rintro ⟨hproblem, h⟩
          exact ⟨s6, ⟨s1, rfl, hset.trans (Prod.ext hproblem rfl)⟩, h⟩
        · rintro ⟨s6', ⟨s1', ⟨⟩, hset'⟩, h⟩
          rw [hset] at hset'
          cases hset'
          exact ⟨rfl, h⟩
      · have hinit : initRcache K v s = (.next, { v with problem, localRcache := true }, s1) := by
          simp [initRcache, hp, hn, hg, hz]
        rw [andThen_of_next hinit, hc _ s1 trivial]
        refine iff_of_false (fun h => hz h.1) ?_
        rintro ⟨s6, ⟨s1', ⟨⟩, -⟩, -⟩
        exact hz rfl
  · have hinit : initRcache K v s = (.next, v, s) := by simp [initRcache, hp]
    rw [andThen_of_next hinit, hc v s trivial]
    exact iff_of_false (fun h => hp h.1) fun h => hp h.1

theorem initAuthContext_endsWhen (hc : c.EndsWhen (fun _ => True) φ) :
    ((initAuthContext K).andThen c).EndsWhen (·.problem = 0)
      fun s => ∃ s5, ContextReady K s s5 ∧ φ s5 := by
  intro v s hp
  beta_reduce
  unfold ContextReady
  rw [and_iff_right hp]
  cases hn : K.authContextNull s with
  | false =>
    have hinit : initAuthContext K v s = (.next, v, s) := by simp [initAuthContext, hn]
    rw [andThen_of_next hinit, hc v s trivial, and_iff_right hp]
    simp
  | true =>
    rcases hi : K.authConInit s with ⟨problem, s5⟩
    have hinit : initAuthContext K v s =
        (.next, { v with problem, localAuthcon := true }, s5) := by
      simp [initAuthContext, hn, hi]
    rw [andThen_of_next hinit, hc _ s5 trivial]
    constructor
    · rintro ⟨hproblem, h⟩
      exact ⟨s5, Prod.ext hproblem rfl, h⟩
    · rintro ⟨_, ⟨⟩, h⟩
      exact ⟨rfl, h⟩

theorem readApReq_endsWhen (hc : c.EndsWhen (·.problem = 0) φ) :
    ((readApReq K).andThen c).EndsWhen (·.problem = 0)
      fun s => ∃ s4, K.readMessage s = (0, s4) ∧ φ s4 := by
  intro v s hp
  beta_reduce
  rw [and_iff_right hp]
  rcases hr : K.readMessage s with ⟨retval, s4⟩
  by_cases hz : retval = 0
  · subst hz
    have hread : readApReq K v s = (.next, { v with retval := 0 }, s4) := by
      simp [readApReq, hr]
    rw [andThen_of_next hread, hc { v with retval := 0 } s4 hp]
    constructor
    · rintro ⟨-, h⟩
      exact ⟨s4, rfl, h⟩
    · rintro ⟨_, ⟨⟩, h⟩
      exact ⟨hp, h⟩
  · have hread : readApReq K v s = (.returns retval, { v with retval }, s4) := by
      simp [readApReq, hr, hz]
    refine iff_of_false (andThen_of_leave hread (by simp)) ?_
    rintro ⟨_, ⟨⟩, -⟩
    exact hz rfl

theorem writeResponse_endsWhen (hc : c.EndsWhen (·.problem = 0) φ) :
    ((writeResponse K).andThen c).EndsWhen (·.Consistent)
      fun s => ∃ s3, K.netWrite 0 s = (true, s3) ∧ φ s3 := by
  intro v s hv
  beta_reduce
  by_cases hp : v.problem = 0
  · rw [and_iff_right hp]
    rcases hw : K.netWrite 0 s with ⟨written, s3⟩
    cases written with
    | false =>
      have hwrite : writeResponse K v s = (.returns v.problem, v, s3) := by
        simp [writeResponse, hv hp, hw]
      refine iff_of_false (andThen_of_leave hwrite (by simp)) ?_
      rintro ⟨_, ⟨⟩, -⟩
    | true =>
      have hwrite : writeResponse K v s = (.next, v, s3) := by
        simp [writeResponse, hv hp, hw, hp]
      rw [andThen_of_next hwrite, hc v s3 hp]
      constructor
      · rintro ⟨-, h⟩
        exact ⟨s3, rfl, h⟩
      · rintro ⟨_, ⟨⟩, h⟩
        exact ⟨hp, h⟩
  · refine iff_of_false ?_ fun h => hp h.1
    rcases hw : K.netWrite v.response s with ⟨written, s3⟩
    have hwrite : writeResponse K v s = (.returns v.problem, v, s3) := by
      cases written <;> simp [writeResponse, hw, hp]
    exact andThen_of_leave hwrite (by simp)

theorem any_differs_eq_false_iff (applVersion : Option CString) (s : σ) :
    (applVersion.any fun applVersion => K.differs applVersion s) = false ↔
      ∀ a ∈ applVersion, K.differs a s = false := by
  cases applVersion <;> simp

theorem checkApplVersion_endsWhen (args : RecvArgs) (hc : c.EndsWhen (·.Consistent) φ) :
    ((checkApplVersion K args).andThen c).EndsWhen (·.Consistent)
      fun s => ∃ s2, ApplVersionAgrees K args s s2 ∧ φ s2 := by
  intro v s hv
  beta_reduce
  unfold ApplVersionAgrees
  rcases hr : K.readMessage s with ⟨retval, s1⟩
  by_cases hz : retval = 0
  case neg =>
    have hcheck : checkApplVersion K args v s = (.returns retval, { v with retval }, s1) := by
      simp [checkApplVersion, hr, hz]
    refine iff_of_false (andThen_of_leave hcheck (by simp)) ?_
    rintro ⟨-, _, ⟨_, ⟨⟩, -⟩, -⟩
    exact hz rfl
  subst hz
  by_cases hp : v.problem = 0
  case neg =>
    have hcheck : checkApplVersion K args v s = (.next, { v with retval := 0 }, s1) := by
      simp [checkApplVersion, hr, hp]
    rw [andThen_of_next hcheck, hc { v with retval := 0 } s1 hv]
    exact iff_of_false (fun h => hp h.1) fun h => hp h.1
  rw [and_iff_right hp]
  cases hd : args.applVersion.any fun applVersion => K.differs applVersion s1 with
  | true =>
    have hcheck : checkApplVersion K args v s =
        (.next, { v with retval := 0, problem := sendauthBadapplvers, response := 2 }, s1) := by
      simp [checkApplVersion, hr, hp, hd, badapplvers_ne_zero]
    rw [andThen_of_next hcheck, hc _ s1 fun h => absurd h badapplvers_ne_zero]
    refine iff_of_false (fun h => badapplvers_ne_zero h.1) ?_
    rintro ⟨_, ⟨_, ⟨⟩, hagree, -⟩, -⟩
    rw [(any_differs_eq_false_iff args.applVersion s1).mpr hagree] at hd
    cases hd
  | false =>
    have hagree := (any_differs_eq_false_iff args.applVersion s1).mp hd
    have hcheck : checkApplVersion K args v s =
        (.next, { v with retval := 0 }, if args.version then K.storeVersion s1 else s1) := by
      simp [checkApplVersion, hr, hp, hd]
    rw [andThen_of_next hcheck, hc { v with retval := 0 } _ hv]
    constructor
    · rintro ⟨-, h⟩
      exact ⟨_, ⟨s1, rfl, hagree, rfl⟩, h⟩
    · rintro ⟨_, ⟨_, ⟨⟩, -, rfl⟩, h⟩
      exact ⟨hp, h⟩

/-- The sendauth version string and the flag. -/
theorem checkSendauthVersion_endsWhen (flags : UInt32) (hc : c.EndsWhen (·.Consistent) φ) :
    ((checkSendauthVersion K flags).andThen ((checkFlags flags).andThen c)).EndsWhen
      (·.Consistent)
      fun s => ∃ s1, SendauthVersionAgrees K flags s s1 ∧ flags &&& recvauthBadauthvers = 0 ∧
        φ s1 := by
  have hflags : ((checkFlags flags).andThen c).EndsWhen (·.Consistent)
      fun s => flags &&& recvauthBadauthvers = 0 ∧ φ s := by
    intro v s hv
    beta_reduce
    by_cases hf : flags &&& recvauthBadauthvers = 0
    · have hcheck : checkFlags flags v s = (.next, v, s) := if_neg (not_not.mpr hf)
      rw [andThen_of_next hcheck, hc v s hv, and_iff_right hf]
    · have hcheck : checkFlags flags v s =
          (.next, { v with problem := sendauthBadauthvers, response := 1 }, s) := if_pos hf
      rw [andThen_of_next hcheck, hc _ s fun h => absurd h badauthvers_ne_zero]
      exact iff_of_false (fun h => badauthvers_ne_zero h.1) fun h => hf h.2.1
  intro v s hv
  beta_reduce
  unfold SendauthVersionAgrees
  by_cases hskip : flags &&& recvauthSkipVersion = 0
  case neg =>
    have hcheck : checkSendauthVersion K flags v s = (.next, v, s) := if_neg hskip
    rw [andThen_of_next hcheck, hflags v s hv]
    simp only [if_neg hskip, exists_eq_left]
  simp only [if_pos hskip]
  rcases hr : K.readMessage s with ⟨retval, s1⟩
  by_cases hz : retval = 0
  case neg =>
    have hcheck : checkSendauthVersion K flags v s = (.returns retval, { v with retval }, s1) := by
      simp [checkSendauthVersion, hskip, hr, hz]
    refine iff_of_false (andThen_of_leave hcheck (by simp)) ?_
    rintro ⟨-, _, ⟨⟨⟩, -⟩, -⟩
    exact hz rfl
  subst hz
  cases hd : K.differs sendauthVersion s1 with
  | true =>
    have hcheck : checkSendauthVersion K flags v s =
        (.next, { v with retval := 0, problem := sendauthBadauthvers, response := 1 }, s1) := by
      simp [checkSendauthVersion, hskip, hr, hd]
    rw [andThen_of_next hcheck, hflags _ s1 fun h => absurd h badauthvers_ne_zero]
    refine iff_of_false (fun h => badauthvers_ne_zero h.1) ?_
    rintro ⟨-, _, ⟨⟨⟩, hd'⟩, -⟩
    rw [hd] at hd'
    cases hd'
  | false =>
    have hcheck : checkSendauthVersion K flags v s = (.next, { v with retval := 0 }, s1) := by
      simp [checkSendauthVersion, hskip, hr, hd]
    rw [andThen_of_next hcheck, hflags { v with retval := 0 } s1 hv]
    constructor
    · rintro ⟨hp, h⟩
      exact ⟨hp, s1, ⟨rfl, hd⟩, h⟩
    · rintro ⟨hp, _, ⟨⟨⟩, -⟩, h⟩
      exact ⟨hp, h⟩

/-- **Where the body ends.** -/
theorem recvauthBody_next_iff (args : RecvArgs) (s : σ) :
    (recvauthBody K args {} s).1 = .next ↔ Completes K args s := by
  have hbody : (recvauthBody K args).EndsWhen (·.Consistent) (Completes K args) :=
    checkSendauthVersion_endsWhen args.flags <| checkApplVersion_endsWhen args <|
      writeResponse_endsWhen <| readApReq_endsWhen <| initAuthContext_endsWhen <|
        initRcache_endsWhen <| readRequest_endsWhen reply_endsWhen
  exact (hbody {} s fun _ => rfl).trans (and_iff_right rfl)

variable (K)

theorem leavesEarly_iff (args : RecvArgs) (s : σ) :
    LeavesEarly K args s ↔ ¬ Completes K args s :=
  not_congr (recvauthBody_next_iff args s)

/-! ## The printed lines -/

/-- A stretch without its `printf` lines. -/
def ShownBlock.strip (b : ShownBlock σ) : Block σ := fun v s => (b v s).2

@[simp] theorem strip_quiet (b : Block σ) : b.quiet.strip = b := rfl

@[simp] theorem strip_printLine_andThen (line : Nat) (c : ShownBlock σ) :
    ((printLine line).andThen c).strip = c.strip := rfl

@[simp] theorem strip_quiet_andThen (b : Block σ) (c : ShownBlock σ) :
    (b.quiet.andThen c).strip = b.andThen c.strip := by
  funext v s
  unfold ShownBlock.strip ShownBlock.andThen Block.quiet Block.andThen
  rcases b v s with ⟨flow, v1, s1⟩
  cases flow <;> rfl

/-- **Without its printf lines the patched body is the original one.** -/
theorem strip_recvauthBodyShown (args : RecvArgs) :
    (recvauthBodyShown K args).strip = recvauthBody K args := by
  simp only [recvauthBodyShown, recvauthBody, strip_printLine_andThen, strip_quiet_andThen,
    strip_quiet]

/-- The patched function by the way the body ends. -/
theorem recvauthCommon_eq (args : RecvArgs) (multicastGroup : Option KrbData) (s : σ) :
    recvauthCommon K args multicastGroup s =
      match recvauthBody K args {} s with
      | (.returns code, _, s) => .ok ((code, s), multicastGroup)
      | (.cleanup, v, s) => .ok (K.cleanup v s, multicastGroup)
      | (.next, v, s) =>
        (setMulticastGroup K multicastGroup s).map fun group => (K.cleanup v s, group) := by
  rw [← strip_recvauthBodyShown]
  unfold recvauthCommon recvauthCommonShown ShownBlock.strip
  rcases recvauthBodyShown K args {} s with ⟨shown, flow, v, s1⟩
  cases flow with
  | next => cases hset : setMulticastGroup K multicastGroup s1 <;> simp only [hset] <;> rfl
  | returns code => rfl
  | cleanup => rfl

/-- What a stretch prints: these lines to its end, or the first of them. -/
def ShownBlock.Prints (b : ShownBlock σ) (lines : List Nat) : Prop :=
  ∀ v s, (b v s).1 <+: lines ∧ ((b v s).2.1 = .next → (b v s).1 = lines)

theorem Block.quiet_prints (b : Block σ) : b.quiet.Prints [] :=
  fun _ _ => ⟨List.prefix_rfl, fun _ => rfl⟩

theorem printLine_prints (line : Nat) : (printLine line : ShownBlock σ).Prints [line] :=
  fun _ _ => ⟨List.prefix_rfl, fun _ => rfl⟩

theorem ShownBlock.Prints.andThen {b c : ShownBlock σ} {lines lines' : List Nat}
    (hb : b.Prints lines) (hc : c.Prints lines') : (b.andThen c).Prints (lines ++ lines') := by
  intro v s
  have h := hb v s
  unfold ShownBlock.andThen
  revert h
  rcases b v s with ⟨shown, flow, v1, s1⟩
  intro h
  cases flow with
  | next =>
    obtain rfl : shown = lines := h.2 rfl
    obtain ⟨hpre, hall⟩ := hc v1 s1
    refine ⟨(List.prefix_append_right_inj shown).mpr hpre, fun hnext => ?_⟩
    exact congrArg (shown ++ ·) (hall hnext)
  | returns code =>
    refine ⟨h.1.trans (List.prefix_append _ _), ?_⟩
    rintro ⟨⟩
  | cleanup =>
    refine ⟨h.1.trans (List.prefix_append _ _), ?_⟩
    rintro ⟨⟩

/-- The lines of recvauth.c on which the patch prints. -/
def recvauthLines : List Nat := [64, 74, 126, 149, 199, 219, 221]

/-- **What the patch prints**: its lines in their order, up to where the function ends. -/
theorem recvauthCommonShown_lines (args : RecvArgs) (multicastGroup : Option KrbData) (s : σ) :
    (recvauthCommonShown K args multicastGroup s).1 <+: recvauthLines := by
  have hq := fun b : Block σ => b.quiet_prints
  have hbody : (recvauthBodyShown K args).Prints [64, 74, 126, 149, 199] :=
    (printLine_prints 64).andThen <| (printLine_prints 74).andThen <| (hq _).andThen <|
      (hq _).andThen <| (hq _).andThen <| (hq _).andThen <| (hq _).andThen <|
      (printLine_prints 126).andThen <| (hq _).andThen <| (hq _).andThen <|
      (printLine_prints 149).andThen <| (hq _).andThen <| (hq _).andThen <|
      (printLine_prints 199).andThen <| (hq _).andThen (hq _)
  have h := hbody {} s
  unfold recvauthCommonShown
  revert h
  rcases recvauthBodyShown K args {} s with ⟨shown, flow, v, s1⟩
  intro h
  cases flow with
  | next =>
    obtain rfl : shown = [64, 74, 126, 149, 199] := h.2 rfl
    cases hset : setMulticastGroup K multicastGroup s1 with
    | error f =>
      simp only [hset]
      exact ⟨[221], rfl⟩
    | ok group =>
      simp only [hset]
      exact List.prefix_rfl
  | returns code => exact h.1.trans ⟨[219, 221], rfl⟩
  | cleanup => exact h.1.trans ⟨[219, 221], rfl⟩

/-! ## The two versions -/

/-- With a NULL group the patched function is the original one or faults. -/
theorem recvauthCommon_null (args : RecvArgs) (s : σ) :
    (LeavesEarly K args s ∧ recvauthCommon K args none s =
      .ok (recvauthCommonOriginal K args s, none)) ∨
    (¬ LeavesEarly K args s ∧ recvauthCommon K args none s = .error .nullDeref) := by
  rw [recvauthCommon_eq]
  unfold LeavesEarly recvauthCommonOriginal
  rcases recvauthBody K args {} s with ⟨flow, v, s'⟩
  cases flow with
  | next => exact .inr ⟨by simp, rfl⟩
  | returns code => exact .inl ⟨by simp, rfl⟩
  | cleanup => exact .inl ⟨by simp, rfl⟩

theorem recvauthCommon_null_iff (args : RecvArgs) (s : σ) :
    (recvauthCommon K args none s).map (·.1) = .ok (recvauthCommonOriginal K args s) ↔
      ¬ Completes K args s := by
  rw [← leavesEarly_iff]
  rcases recvauthCommon_null K args s with ⟨he, h⟩ | ⟨he, h⟩
  · rw [h]
    exact iff_of_true rfl he
  · rw [h]
    refine iff_of_false ?_ he
    rintro ⟨⟩

/-- **When the receive-auth API is unchanged.**  Both entry points return the code and
state of the unpatched function exactly when some call on the way does not succeed. -/
theorem recvauth_unchanged_iff (applVersion : Option CString) (flags : UInt32) (s : σ) :
    (krb5Recvauth K applVersion flags s =
        .ok (recvauthCommonOriginal K (recvauthArgs applVersion flags) s) ↔
      ¬ Completes K (recvauthArgs applVersion flags) s) ∧
    (krb5RecvauthVersion K flags s =
        .ok (recvauthCommonOriginal K (recvauthVersionArgs flags) s) ↔
      ¬ Completes K (recvauthVersionArgs flags) s) :=
  ⟨recvauthCommon_null_iff K _ s, recvauthCommon_null_iff K _ s⟩

/-! ## krb5_recvauth_gcks -/

variable {K}

theorem setMulticastGroup_cons {s : σ} {ad : AuthData} {rest : List AuthData}
    (h : K.authorizationData s = some (ad :: rest)) (group : KrbData) :
    setMulticastGroup K (some group) s = .ok (some { group with data := some ad.contents }) := by
  simp only [setMulticastGroup, h]

/-- No list, or no element in it. -/
theorem setMulticastGroup_of_no_element {s : σ}
    (h : ∀ ad rest, K.authorizationData s ≠ some (ad :: rest)) (group : Option KrbData) :
    setMulticastGroup K group s = .error .nullDeref := by
  unfold setMulticastGroup
  split
  · next ad rest hads => exact absurd hads (h ad rest)
  · rfl

/-- An early end leaves the caller's group alone. -/
theorem krb5RecvauthGcks_of_early {applVersion : Option CString} {flags : UInt32} {s : σ}
    (h : LeavesEarly K (recvauthArgs applVersion flags) s) (group : KrbData) :
    ∃ code s', krb5RecvauthGcks K applVersion flags group s = .ok ((code, s'), some group) := by
  unfold LeavesEarly at h
  rw [krb5RecvauthGcks, recvauthCommon_eq]
  revert h
  rcases recvauthBody K (recvauthArgs applVersion flags) {} s with ⟨flow, v, s1⟩
  intro h
  cases flow with
  | next => exact absurd rfl h
  | returns code => exact ⟨code, s1, rfl⟩
  | cleanup => exact ⟨_, _, rfl⟩

/-- At the end of the body the added statement decides. -/
theorem krb5RecvauthGcks_of_next {applVersion : Option CString} {flags : UInt32} {s s1 : σ}
    {v : RecvVars} (h : recvauthBody K (recvauthArgs applVersion flags) {} s = (.next, v, s1))
    (group : KrbData) :
    krb5RecvauthGcks K applVersion flags group s =
      (setMulticastGroup K (some group) s1).map fun group => (K.cleanup v s1, group) := by
  rw [krb5RecvauthGcks, recvauthCommon_eq, h]

end

/-- A library on which every call succeeds; the state is what was written to `fd`. -/
def succeedingRecv : Krb5Recv Bytes where
  readMessage s := (0, s)
  differs _ _ := false
  storeVersion s := s
  netWrite response s := (true, s ++ [response])
  writeMessage outbuf s := (0, s ++ [0, 0, 0, 0] ++ outbuf.getD [])
  authContextNull _ := true
  authConInit s := (0, s)
  rcacheNull _ := true
  getServerRcache s := (0, s)
  authConSetrcache s := (0, s)
  rdReq s := (0, 0, s)
  mkError problem s := (.error problem, s)
  mkRep s := (.ok [], s)
  authorizationData _ := none
  authConFree s := s
  rcClose s := s

/-- A successful authentication: code 0 before the patch, a NULL dereference after it. -/
theorem recvauth_null_deref :
    let appl : CString := ⟨ascii "KRB5_sample_protocol_v1.0", by decide⟩
    recvauthCommonOriginal succeedingRecv (recvauthArgs (some appl) 0) [] = (0, [0, 0, 0, 0, 0]) ∧
    krb5Recvauth succeedingRecv (some appl) 0 [] = .error .nullDeref ∧
    recvauthCommonOriginal succeedingRecv (recvauthVersionArgs 0) [] = (0, [0, 0, 0, 0, 0]) ∧
    krb5RecvauthVersion succeedingRecv 0 [] = .error .nullDeref := by
  decide

end KerberizedMikey
