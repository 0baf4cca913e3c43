import KerberizedMikey.AuthGate
import KerberizedMikey.Credentials
import KerberizedMikey.Km1Framing
import KerberizedMikey.Km2Transport
import KerberizedMikey.TestSuite.TimingLog

/-!
# The two clients from start to end

`main` of sclient and of sclient2: the checks before and after `obtain_credentials`, the
message they receive, the offer they install and the line in the timing log.  The test
programs see no more of a run than that line (`ClientRun.exec`).

    sclient logs a time   →  it had a ticket, and sendauth was rejected or an offer was
                               installed                                  (sclient_logs)
    sclient2 logs a time  →  it had a ticket and installed an offer      (sclient2_logs)
-/

namespace KerberizedMikey

open CLib

/-- `exit(1)` or `return 0`, or the end of `main` with the offer installed and the
milliseconds logged. -/
inductive ClientEnd
  | exits
  | finishes (ka : Option KeyAgreementPSK) (ms : Option Int64)

/-- What `obtain_credentials` did, if it was called, and how the run ends. -/
structure ClientRun where
  obtained : Option Obtained
  ending : Except Fault ClientEnd

/-- What `system` and the log show of it: a crash and an exit look the same. -/
def ClientRun.exec (r : ClientRun) : ClientExec :=
  match r.ending with
  | .ok (.finishes _ (some ms)) => .logs ms
  | .ok (.finishes _ none) => .silent
  | .ok .exits => .silent
  | .error _ => .silent

/-- The cache after the run. -/
def ClientRun.cacheAfter (r : ClientRun) (cache : List Creds) : List Creds :=
  match r.obtained with
  | none => cache
  | some o => o.cache

/-- The exchanges of the run. -/
def ClientRun.exchanges (r : ClientRun) : List Exchange :=
  match r.obtained with
  | none => []
  | some o => o.exchanges

/-! ## sclient -/

/-- An address of `getaddrinfo`: do `socket` and `connect` succeed? -/
structure Address where
  socket : Bool
  connect : Bool

/-- What `krb5_sendauth` returns: 0, with a reply or without; `KRB5_SENDAUTH_REJECTED`;
another error. -/
inductive SendauthResult
  | ok (repRet : Bool)
  | rejected
  | failed
deriving DecidableEq

/-- The results of the other calls of sclient's `main`. -/
structure SclientCalls where
  /-- `clock_getres` and the first `clock_gettime`. -/
  clock : Bool
  initContext : Int32
  getaddrinfo : Except Int32 (List Address)
  startClock : Bool
  snameToPrincipal : Int32
  ccResolve : Int32
  ccGetPrincipal : Int32
  unparseName : Int32
  /-- `krb5_copy_principal` in `obtain_credentials`, for the server and the client. -/
  copyServer : Int32
  copyClient : Int32
  /-- Given the socket and the credentials. -/
  sendauth : Address → Creds → SendauthResult
  /-- The time in milliseconds, if the last `clock_gettime` succeeds. -/
  endClock : Option Int64

/-- The loop over the addresses: `connect` is tried once, and its failure only printed. -/
def openSocket : List Address → Option Address
  | [] => none
  | ap :: aps => if ap.socket then some ap else openSocket aps

/-- sclient's `main` up to `obtain_credentials`; `argv` starts with `argv[1]`.  The socket,
or `none` for an exit. -/
def sclientConnect (c : SclientCalls) (argv : List Bytes) : Except Fault (Option Address) :=
  if !c.clock then .ok none
  else if argv.length > 6 then .ok none
  else if c.initContext ≠ 0 then .ok none
  else if !c.startClock then .ok none
  else
    match c.getaddrinfo with
    | .error _ => .ok none
    | .ok ap =>
      if c.snameToPrincipal ≠ 0 then .ok none
      else
        match openSocket ap with
        | none => .ok none
        | some sock =>
          -- strlen(argv[3])
          match argv[2]? with
          | none => .error .nullDeref
          | some _ =>
            if c.ccResolve ≠ 0 then .ok none
            else if c.ccGetPrincipal ≠ 0 then .ok none
            else if c.unparseName ≠ 0 then .ok none
            else .ok (some sock)

/-- `obtain_credentials`, the text of sclient2's: of these return codes it looks at the two
of `krb5_copy_principal`. -/
def SclientCalls.obtainCredentials (c : SclientCalls) (w : Krb5World) (cache : List Creds)
    (options : UInt32) (server : Bytes) : Obtained :=
  KerberizedMikey.obtainCredentials
    ⟨0, 0, 0, 0, c.copyServer, c.copyClient, 0, true, true, true, true⟩ w cache options server

section
variable {ρ : Type} (L : LibMikey ρ)

/-- What sclient's connection holds for it, and its memory. -/
structure SclientInput where
  es : List Event
  xmitlen : UInt8 × UInt8
  malloc : Malloc

/-- The end of `main`: `argv[6]` is the log. -/
def logTime (endClock : Option Int64) (timeLog : Option Bytes) (ka : Option KeyAgreementPSK) :
    ClientEnd :=
  match endClock with
  | none => .exits
  | some ms => .finishes ka (timeLog.map fun _ => ms)

/-- sclient's `main` after `obtain_credentials`, whose value is overwritten; `creds` is
written through first, set or not. -/
def sclientTail (c : SclientCalls) (argv : List Bytes) (input : SclientInput) (sock : Address) :
    Option Creds → Except Fault ClientEnd
  | none => .error .overWrite
  | some creds =>
    match c.sendauth sock creds with
    | .failed => .ok .exits
    | .rejected => .ok (logTime c.endClock argv[5]? none)
    | .ok false => .ok .exits
    | .ok true => do
      match ← sclientReceive input.es input.xmitlen input.malloc with
      | none => return .exits
      | some reply =>
        let ka ← installReply L creds.keyblock reply.text
        return logTime c.endClock argv[5]? (some ka)

/-- sclient's `main`. -/
def sclient (c : SclientCalls) (w : Krb5World) (argv : List Bytes) (input : SclientInput)
    (cache : List Creds) (server : Bytes) : ClientRun :=
  match sclientConnect c argv with
  | .error f => ⟨none, .error f⟩
  | .ok none => ⟨none, .ok .exits⟩
  | .ok (some sock) =>
    let obtained := c.obtainCredentials w cache apOptsMutualRequired server
    ⟨some obtained, sclientTail L c argv input sock obtained.outCreds⟩

/-! ## sclient2 -/

/-- What sclient2 meets from `accept` on: a connection or -1, what `recv_data` held before,
what arrives, and the time. -/
structure Sclient2Input where
  clock : Bool
  accept : Bool
  recvData : Bytes
  es : List Event
  endClock : Option Int64

/-- `accept` and `recv`: on a connection of -1 also `recv` returns -1, and `recv_data[-1]` is
set. -/
def Sclient2Input.text (input : Sclient2Input) : Except Fault Bytes :=
  if input.accept then sclient2Recv input.recvData input.es else .error .overWrite

/-- sclient2's `main` from `accept` on; `creds` is read, set or not. -/
def sclient2Tail (argv : List Bytes) (input : Sclient2Input) (creds : Option Creds) :
    Except Fault ClientEnd := do
  let text ← input.text
  match creds with
  | none => .error .overRead
  | some creds =>
    let ka ← installReply L creds.keyblock text
    return logTime input.endClock argv[3]? (some ka)

/-- sclient2's `main`. -/
def sclient2Main (c : Sclient2Calls) (w : Krb5World) (argv : List Bytes) (input : Sclient2Input)
    (cache : List Creds) (server : Bytes) : ClientRun :=
  if !input.clock then ⟨none, .ok .exits⟩
  else
    match sclient2 c w cache server with
    | .exits obtained => ⟨obtained, .ok .exits⟩
    | .waits obtained => ⟨some obtained, sclient2Tail L argv input obtained.outCreds⟩

end

/-! ## What obtain_credentials leaves -/

/-- What `obtain_credentials` can have done: failed, taken the cached ticket, or asked for
one and perhaps stored it. -/
inductive Obtains (w : Krb5World) (cache : List Creds) (options : UInt32) (server : Bytes) :
    Obtained → Prop
  | fails (retval : Int32) (exchanges : List Exchange)
      (h : w.cached cache server = none ∨ exchanges = []) :
      Obtains w cache options server ⟨retval, none, exchanges, cache⟩
  | cached {creds : Creds} (h : w.cached cache server = some creds) :
      Obtains w cache options server ⟨0, some creds, [], cache⟩
  | asks {creds : Creds} (kdcopt : UInt32) (h : w.cached cache server = none)
      (hopt : options &&& kdcOptMikey ≠ 0 → kdcopt &&& kdcOptMikey ≠ 0)
      (hk : w.kdc kdcopt = .ok creds) :
      Obtains w cache options server ⟨0, some creds, w.tgts ++ [⟨kdcopt, .ok creds⟩],
        if w.stored then cache ++ [creds] else cache⟩

theorem getCredentials_obtains (w : Krb5World) (cache : List Creds) (options : UInt32)
    (server : Bytes) : Obtains w cache options server (getCredentials w cache options server) := by
  unfold getCredentials
  cases hc : w.cached cache server with
  | some creds => exact .cached hc
  | none =>
    have hopt : options &&& kdcOptMikey ≠ 0 →
        (if options &&& kdcOptMikey ≠ 0 then w.kdcOptions options ||| kdcOptMikey
          else w.kdcOptions options) &&& kdcOptMikey ≠ 0 := by
      intro h
      rw [if_pos h]
      exact or_mikey_and_mikey _
    unfold getCredFromKdcOpt
    dsimp only
    cases w.tgtError with
    | some e => exact .fails e.val w.tgts (.inl hc)
    | none =>
      cases hk : w.kdc (if options &&& kdcOptMikey ≠ 0 then w.kdcOptions options ||| kdcOptMikey
          else w.kdcOptions options) with
      | error e => exact .fails e.val _ (.inl hc)
      | ok creds => exact .asks _ hc hopt hk

theorem obtainCredentials_obtains (c : Sclient2Calls) (w : Krb5World) (cache : List Creds)
    (options : UInt32) (server : Bytes) :
    Obtains w cache options server (obtainCredentials c w cache options server) := by
  unfold obtainCredentials
  split
  · exact .fails _ [] (.inr rfl)
  split
  · exact .fails _ [] (.inr rfl)
  · exact getCredentials_obtains w cache options server

/-- A ticket in the cache is an old one or the KDC's. -/
theorem Obtains.mem_cache {w : Krb5World} {cache : List Creds} {options : UInt32}
    {server : Bytes} {o : Obtained} {creds : Creds} (h : Obtains w cache options server o)
    (hc : creds ∈ o.cache) : creds ∈ cache ∨ ∃ kdcopt, w.kdc kdcopt = .ok creds := by
  cases h with
  | fails => exact .inl hc
  | cached => exact .inl hc
  | @asks new kdcopt _ _ hk =>
    dsimp only at hc
    split at hc
    · rcases List.mem_append.mp hc with hc | hc
      · exact .inl hc
      · rw [List.mem_singleton.mp hc]
        exact .inr ⟨kdcopt, hk⟩
    · exact .inl hc

/-- The credentials of the run, if it has any. -/
def ClientRun.creds (r : ClientRun) : Option Creds := r.obtained.bind (·.outCreds)

section
variable {ρ : Type} {L : LibMikey ρ}

theorem sclient_obtains {c : SclientCalls} {w : Krb5World} {argv : List Bytes}
    {input : SclientInput} {cache : List Creds} {server : Bytes} {o : Obtained}
    (h : (sclient L c w argv input cache server).obtained = some o) :
    Obtains w cache apOptsMutualRequired server o := by
  unfold sclient at h
  split at h
  · cases h
  · cases h
  · cases h
    exact obtainCredentials_obtains _ w cache apOptsMutualRequired server

theorem sclient2_obtains {c : Sclient2Calls} {w : Krb5World} {argv : List Bytes}
    {input : Sclient2Input} {cache : List Creds} {server : Bytes} {o : Obtained}
    (h : (sclient2Main L c w argv input cache server).obtained = some o) :
    Obtains w cache (apOptsMutualRequired ||| kdcOptMikey) server o := by
  have hobt : (sclient2 c w cache server).obtained = some o := by
    unfold sclient2Main at h
    split at h
    · cases h
    split at h
    · next hs =>
      rw [hs]
      exact h
    · next hs =>
      rw [hs]
      exact h
  rw [sclient2_obtained rfl hobt]
  exact obtainCredentials_obtains c w cache _ server

end

/-! ## What a logged time says -/

theorem logs_iff (r : ClientRun) (ms : Int64) :
    r.exec = .logs ms ↔ ∃ ka, r.ending = .ok (.finishes ka (some ms)) := by
  obtain ⟨o, ending⟩ := r
  unfold ClientRun.exec
  constructor
  · intro h
    match ending, h with
    | .ok (.finishes ka (some ms')), h =>
      cases h
      exact ⟨ka, rfl⟩
  · rintro ⟨ka, h⟩
    dsimp only at h
    rw [h]

theorem logTime_eq_finishes {endClock : Option Int64} {timeLog : Option Bytes}
    {ka ka' : Option KeyAgreementPSK} {ms : Option Int64}
    (h : logTime endClock timeLog ka = .finishes ka' ms) : ka' = ka := by
  unfold logTime at h
  cases endClock with
  | none => cases h
  | some t =>
    cases h
    rfl

section
variable {ρ : Type} {L : LibMikey ρ}

variable (L) in
/-- What sclient did with its ticket, by the offer it has installed in the end. -/
def Served (c : SclientCalls) (input : SclientInput) (creds : Creds) :
    Option KeyAgreementPSK → Prop
  | none => ∃ sock, c.sendauth sock creds = .rejected
  | some ka => ∃ reply, sclientReceive input.es input.xmitlen input.malloc = .ok (some reply) ∧
      installReply L creds.keyblock reply.text = .ok ka

theorem served_of_tail {c : SclientCalls} {argv : List Bytes} {input : SclientInput}
    {sock : Address} {creds : Creds} {ka : Option KeyAgreementPSK} {ms : Option Int64}
    (h : sclientTail L c argv input sock (some creds) = .ok (.finishes ka ms)) :
    Served L c input creds ka := by
  unfold sclientTail at h
  cases hs : c.sendauth sock creds with
  | failed =>
    simp only [hs] at h
    cases h
  | rejected =>
    simp only [hs] at h
    rw [logTime_eq_finishes (Except.ok.inj h)]
    exact ⟨sock, hs⟩
  | ok repRet =>
    cases repRet with
    | false =>
      simp only [hs] at h
      cases h
    | true =>
      simp only [hs] at h
      obtain ⟨reply, hrecv, h⟩ := bind_eq_ok_iff.mp h
      cases reply with
      | none => cases h
      | some reply =>
        obtain ⟨ka', hinst, h⟩ := bind_eq_ok_iff.mp h
        rw [logTime_eq_finishes (Except.ok.inj h)]
        exact ⟨reply, hrecv, hinst⟩

/-- **A time logged by sclient**: it had credentials, and either `krb5_sendauth` was
rejected or an offer was installed under their session key. -/
theorem sclient_logs {c : SclientCalls} {w : Krb5World} {argv : List Bytes}
    {input : SclientInput} {cache : List Creds} {server : Bytes} {ms : Int64}
    (h : (sclient L c w argv input cache server).exec = .logs ms) :
    ∃ o creds ka, o = c.obtainCredentials w cache apOptsMutualRequired server ∧
      sclient L c w argv input cache server = ⟨some o, .ok (.finishes ka (some ms))⟩ ∧
      o.outCreds = some creds ∧ Served L c input creds ka := by
  obtain ⟨ka, hend⟩ := (logs_iff _ ms).mp h
  cases hs : sclientConnect c argv with
  | error f =>
    simp only [sclient, hs] at hend
    cases hend
  | ok sock =>
    cases sock with
    | none =>
      simp only [sclient, hs] at hend
      cases hend
    | some sock =>
      simp only [sclient, hs] at hend ⊢
      cases hc : (c.obtainCredentials w cache apOptsMutualRequired server).outCreds with
      | none =>
        rw [hc] at hend
        cases hend
      | some creds =>
        rw [hc] at hend
        exact ⟨_, creds, ka, rfl, by rw [hend], hc, served_of_tail hend⟩

theorem installed_of_sclient2Tail {argv : List Bytes} {input : Sclient2Input}
    {out : Option Creds} {ka : Option KeyAgreementPSK} {ms : Option Int64}
    (h : sclient2Tail L argv input out = .ok (.finishes ka ms)) :
    ∃ creds text ka', out = some creds ∧ input.text = .ok text ∧
      installReply L creds.keyblock text = .ok ka' ∧ ka = some ka' := by
  obtain ⟨text, htext, h⟩ := bind_eq_ok_iff.mp h
  cases out with
  | none => cases h
  | some creds =>
    obtain ⟨ka', hinst, h⟩ := bind_eq_ok_iff.mp h
    exact ⟨creds, text, ka', rfl, htext, hinst, logTime_eq_finishes (Except.ok.inj h)⟩

/-- **A time logged by sclient2**: it had credentials and installed an offer under their
session key. -/
theorem sclient2_logs {c : Sclient2Calls} {w : Krb5World} {argv : List Bytes}
    {input : Sclient2Input} {cache : List Creds} {server : Bytes} {ms : Int64}
    (h : (sclient2Main L c w argv input cache server).exec = .logs ms) :
    ∃ o creds text ka,
      o = obtainCredentials c w cache (apOptsMutualRequired ||| kdcOptMikey) server ∧
      sclient2Main L c w argv input cache server =
        ⟨some o, .ok (.finishes (some ka) (some ms))⟩ ∧
      o.outCreds = some creds ∧ input.text = .ok text ∧
      installReply L creds.keyblock text = .ok ka := by
  obtain ⟨ka, hend⟩ := (logs_iff _ ms).mp h
  cases hclock : input.clock with
  | false =>
    simp only [sclient2Main, hclock, Bool.not_false, if_true] at hend
    cases hend
  | true =>
    cases hs : sclient2 c w cache server with
    | exits o =>
      simp only [sclient2Main, hclock, hs, Bool.not_true, Bool.false_eq_true, if_false] at hend
      cases hend
    | waits o =>
      simp only [sclient2Main, hclock, hs, Bool.not_true, Bool.false_eq_true, if_false]
        at hend ⊢
      obtain ⟨creds, text, ka', hc, htext, hinst, rfl⟩ := installed_of_sclient2Tail hend
      exact ⟨o, creds, text, ka', ((sclient2_waits_iff c w cache server o).mp hs).2,
        by rw [hend], hc, htext, hinst⟩

end

end KerberizedMikey
