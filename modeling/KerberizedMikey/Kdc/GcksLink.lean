import KerberizedMikey.Kdc.TgsReq
import KerberizedMikey.Km2Binding

/-!
# The KDC when its key server fails

`do_gcks_req` returns -1 when `socket` or `connect` fails, calls `exit(1)` when
`setsockopt` does, never looks at what `send` returns and falls off its end;
`process_tgs_req` drops its value.  So a call does one of six things, and only two
of them leave the KDC as it was (`call_cases`):

    no debug log                  fprintf to a NULL stream, or past the payload's data
    no socket                     -1, nothing opened
    name not found                host->h_addr_list of a NULL host
    setsockopt fails              the KDC exits
    connect fails                 -1, the socket stays open
    connected                     no value, the socket is closed

    a reply means that the key server was told   ↔  no reply, or the whole message is
                                                    taken               (tgs_reply_told_iff)
    no request harms the KDC      ↔  every net is Clean                 (kdc_unharmed_iff)
    sockets held after a run      =  sockets before + failed connects   (openSockets_of_run)
-/

namespace KerberizedMikey

open CLib

/-- A call with the value of its `send`, `none` for -1. -/
structure GcksTry (ρ : Type) extends GcksReq ρ where
  accepted : Option Nat

/-- The part of the text that the connection took. -/
def GcksCall.handed (call : GcksCall) (accepted : Option Nat) : Option Bytes := do
  let text ← call.sent
  let n ← accepted
  return text.take n

section
variable {ρ : Type} (L : LibMikey ρ) (gcksKey : Bytes)

namespace GcksTry

/-- The connection with the key server took the whole message. -/
def Told (t : GcksTry ρ) : Prop :=
  ∃ m call, t.message L gcksKey = .ok m ∧ t.call L gcksKey = .ok call ∧
    call.handed t.accepted = some m.bytes

/-- `process_tgs_req` for the request. -/
def tgsRun (t : GcksTry ρ) (kdcOptions : UInt32) (c : TgsCalls) : TgsRun :=
  processTgsReq kdcOptions { c with gcksReq := t.call L gcksKey }

/-- **A reply implies that the key server was told.** -/
structure ReplyMeansTold (t : GcksTry ρ) (run : TgsRun) : Prop where
  reply : run.ending = .assemble → run.calledGcksReq = true ∧ t.Told L gcksKey
  /-- Otherwise the request fails. -/
  error : ¬ (run.calledGcksReq = true ∧ t.Told L gcksKey) →
    ∃ status errcode, errcode ≠ 0 ∧ run.ending = .cleanup status errcode

/-- `do_gcks_req` reports whether it sent the message, and `process_tgs_req` listens. -/
structure ValueDecides (t : GcksTry ρ) (run : TgsRun) : Prop where
  value : run.calledGcksReq = true →
    ((∃ sent fds, t.call L gcksKey = .ok ⟨sent, fds, .returns 0⟩) ↔ t.Told L gcksKey)
  acts : run.calledGcksReq = true → run.ending = .assemble →
    ∃ sent fds, t.call L gcksKey = .ok ⟨sent, fds, .returns 0⟩

/-- The log works, all calls succeed and the message, which has to fit `tmpBuf[BUFSIZ]`, is
taken whole. -/
def GoesThrough (t : GcksTry ρ) : Prop :=
  t.net.log.Works ∧ (t.net.socket = true ∧ t.net.resolves = true ∧ t.net.setsockopt = true ∧
    t.net.connect = true) ∧
  ∃ m n, t.message L gcksKey = .ok m ∧ m.bytes.length < bufsiz ∧ t.accepted = some n ∧
    m.bytes.length ≤ n

end GcksTry

/-! ## What a call does -/

/-- What can become of the connection. -/
theorem sendToGcks_cases (net : KdcNet) (text : Bytes) :
    (net.socket = false ∧ sendToGcks net text = .ok ⟨none, 0, .returns (-1)⟩) ∨
    (net.socket = true ∧ net.resolves = false ∧ sendToGcks net text = .error .nullDeref) ∨
    (net.socket = true ∧ net.resolves = true ∧ net.setsockopt = false ∧
      sendToGcks net text = .ok ⟨none, 1, .exits⟩) ∨
    (net.socket = true ∧ net.resolves = true ∧ net.setsockopt = true ∧ net.connect = false ∧
      sendToGcks net text = .ok ⟨none, 1, .returns (-1)⟩) ∨
    (net.socket = true ∧ net.resolves = true ∧ net.setsockopt = true ∧ net.connect = true ∧
      sendToGcks net text = .ok ⟨some text, 0, .fallsOff⟩) := by
  obtain ⟨log, resolves, socket, setsockopt, connect⟩ := net
  cases socket
  · exact .inl ⟨rfl, rfl⟩
  refine .inr ?_
  cases resolves
  · exact .inl ⟨rfl, rfl, rfl⟩
  refine .inr ?_
  cases setsockopt
  · exact .inl ⟨rfl, rfl, rfl, rfl⟩
  refine .inr ?_
  cases connect
  · exact .inl ⟨rfl, rfl, rfl, rfl, rfl⟩
  · exact .inr ⟨rfl, rfl, rfl, rfl, rfl⟩

/-- **The six things a call can do.** -/
theorem GcksTry.call_cases {t : GcksTry ρ} {m : CString} (hm : t.message L gcksKey = .ok m) :
    (¬ t.net.log.Works ∧ ∃ f, t.call L gcksKey = .error f) ∨
    t.net.log.Works ∧
      ((t.net.socket = false ∧ t.call L gcksKey = .ok ⟨none, 0, .returns (-1)⟩) ∨
      (t.net.socket = true ∧ t.net.resolves = false ∧ t.call L gcksKey = .error .nullDeref) ∨
      (t.net.socket = true ∧ t.net.resolves = true ∧ t.net.setsockopt = false ∧
        t.call L gcksKey = .ok ⟨none, 1, .exits⟩) ∨
      (t.net.socket = true ∧ t.net.resolves = true ∧ t.net.setsockopt = true ∧
        t.net.connect = false ∧ t.call L gcksKey = .ok ⟨none, 1, .returns (-1)⟩) ∨
      (t.net.socket = true ∧ t.net.resolves = true ∧ t.net.setsockopt = true ∧
        t.net.connect = true ∧
        t.call L gcksKey = .ok ⟨some (m.bytes.take (bufsiz - 1)), 0, .fallsOff⟩)) := by
  rcases t.toGcksReq.call_spec hm with ⟨hlog, hc⟩ | hlog
  · rw [hc]
    exact .inr ⟨hlog, sendToGcks_cases t.net (m.bytes.take (bufsiz - 1))⟩
  · exact .inl hlog

/-- Cutting twice leaves the bytes whole when neither cut is inside them. -/
theorem take_take_eq_self_iff (bs : Bytes) (k n : Nat) :
    (bs.take k).take n = bs ↔ bs.length ≤ k ∧ bs.length ≤ n := by
  rw [List.take_take]
  constructor
  · intro h
    have hl := congrArg List.length h
    rw [List.length_take] at hl
    omega
  · rintro ⟨hk, hn⟩
    exact List.take_of_length_le (by omega)

/-- The key server is told exactly when everything goes through. -/
theorem GcksTry.told_iff (t : GcksTry ρ) : t.Told L gcksKey ↔ t.GoesThrough L gcksKey := by
  obtain ⟨ext, hm, -⟩ := t.message_ok L gcksKey
  constructor
  · rintro ⟨m, call, hm', hc, hh⟩
    have hcases := GcksTry.call_cases L gcksKey hm'
    rw [hc] at hcases
    rcases hcases with ⟨-, f, h⟩ | ⟨hlog, ⟨-, h⟩ | ⟨-, -, h⟩ | ⟨-, -, -, h⟩ | ⟨-, -, -, -, h⟩ |
      ⟨hs, hr, ho, hn, h⟩⟩
    all_goals cases h
    · cases hh
    · cases hh
    · cases hh
    · cases ha : t.accepted with
      | none =>
        rw [ha] at hh
        cases hh
      | some n =>
        rw [ha] at hh
        have htake : (m.bytes.take (bufsiz - 1)).take n = m.bytes := Option.some.inj hh
        obtain ⟨hk, hl⟩ := (take_take_eq_self_iff _ _ _).mp htake
        exact ⟨hlog, ⟨hs, hr, ho, hn⟩, m, n, hm', by unfold bufsiz at hk ⊢; omega, ha, hl⟩
  · rintro ⟨hlog, ⟨hs, hr, ho, hn⟩, m, n, hm', hb, ha, hl⟩
    refine ⟨m, ⟨some (m.bytes.take (bufsiz - 1)), 0, .fallsOff⟩, hm', ?_, ?_⟩
    · rcases t.toGcksReq.call_spec hm' with ⟨-, hc⟩ | ⟨hno, -⟩
      · rw [hc]
        simp only [sendToGcks, hs, hr, ho, hn]
        rfl
      · exact absurd hlog hno
    · rw [ha]
      refine congrArg some ((take_take_eq_self_iff _ _ _).mpr ⟨?_, hl⟩)
      omega

/-- A call never returns 0. -/
theorem GcksTry.call_ne_zero (t : GcksTry ρ) (sent : Option Bytes) (fds : Nat) :
    t.call L gcksKey ≠ .ok ⟨sent, fds, .returns 0⟩ := by
  obtain ⟨ext, hm, -⟩ := t.message_ok L gcksKey
  intro h
  have hcases := GcksTry.call_cases L gcksKey hm
  rw [h] at hcases
  rcases hcases with ⟨-, f, h'⟩ | ⟨-, ⟨-, h'⟩ | ⟨-, -, h'⟩ | ⟨-, -, -, h'⟩ | ⟨-, -, -, -, h'⟩ |
    ⟨-, -, -, -, h'⟩⟩
  all_goals cases h'

/-- What goes through comes back. -/
theorem GcksTry.returns_of_goesThrough {t : GcksTry ρ} (h : t.GoesThrough L gcksKey) :
    gcksReqReturns (t.call L gcksKey) = true := by
  obtain ⟨hlog, ⟨hs, hr, ho, hn⟩, m, n, hm, -⟩ := h
  rcases t.toGcksReq.call_spec hm with ⟨-, hc⟩ | ⟨hno, -⟩
  · rw [hc]
    simp only [sendToGcks, hs, hr, ho, hn]
    rfl
  · exact absurd hlog hno

end

/-! ## A reply and the key server -/

section
variable {ρ : Type} (L : LibMikey ρ) (gcksKey : Bytes)

/-- **The request's run**: the block's error, the end of the process in it, or the end that
the call decides. -/
theorem GcksTry.tgsRun_spec (t : GcksTry ρ) {kdcOptions : UInt32}
    (hm : isflagset kdcOptions kdcOptMikey = true) (c : TgsCalls) :
    (c.UnparseReturns ∧ ¬ c.CheckedStepsPass ∧
      (t.tgsRun L gcksKey kdcOptions c).calledGcksReq = false ∧ ∃ status errcode, errcode ≠ 0 ∧
        (t.tgsRun L gcksKey kdcOptions c).ending = .cleanup status errcode) ∨
    (¬ c.UnparseReturns ∧ ¬ c.CheckedStepsPass ∧
      (t.tgsRun L gcksKey kdcOptions c).calledGcksReq = false ∧
      (t.tgsRun L gcksKey kdcOptions c).ending = .dies) ∨
    (c.UnparseReturns ∧ c.CheckedStepsPass ∧
      (t.tgsRun L gcksKey kdcOptions c).calledGcksReq = true ∧
      (t.tgsRun L gcksKey kdcOptions c).ending =
        if gcksReqReturns (t.call L gcksKey) then .assemble else .dies) := by
  have hrun : t.tgsRun L gcksKey kdcOptions c =
      mikeyBlock { c with gcksReq := t.call L gcksKey } := by
    rw [GcksTry.tgsRun, processTgsReq, if_pos hm]
  rw [hrun]
  rcases mikeyBlock_spec { c with gcksReq := t.call L gcksKey } with
    ⟨hu, hf, hcall, status, errcode, -, he, hend⟩ | ⟨hu, hf, hcall, hend⟩ | ⟨hu, hp, hblock⟩
  · exact .inl ⟨hu, hf, hcall, status, errcode, he, hend⟩
  · exact .inr (.inl ⟨hu, hf, hcall, hend⟩)
  · exact .inr (.inr ⟨hu, hp, by rw [hblock], by rw [hblock]⟩)

/-- **When a reply means that the key server was told.**  The first sentence holds when
every call goes through or the request never reaches `do_gcks_req`, unless the process dies
before; the function's value, which is never 0, makes only the latter requests right. -/
theorem tgs_reply_told_iff (t : GcksTry ρ) (kdcOptions : UInt32) (c : TgsCalls)
    (hm : isflagset kdcOptions kdcOptMikey = true) :
    (t.ReplyMeansTold L gcksKey (t.tgsRun L gcksKey kdcOptions c) ∧
        t.ValueDecides L gcksKey (t.tgsRun L gcksKey kdcOptions c) ↔
      c.UnparseReturns ∧ ¬ c.CheckedStepsPass) ∧
    (t.ReplyMeansTold L gcksKey (t.tgsRun L gcksKey kdcOptions c) ↔
      c.UnparseReturns ∧ (c.CheckedStepsPass → t.GoesThrough L gcksKey)) := by
  rcases t.tgsRun_spec L gcksKey hm c with ⟨hu, hf, hcall, status, errcode, he, hend⟩ |
    ⟨hu, hf, hcall, hend⟩ | ⟨hu, hp, hcall, hend⟩
  · -- an error before `do_gcks_req`: no reply, and no value that could decide
    have hreply : t.ReplyMeansTold L gcksKey (t.tgsRun L gcksKey kdcOptions c) := by
      refine ⟨fun h => ?_, fun _ => ⟨status, errcode, he, hend⟩⟩
      rw [hend] at h
      cases h
    have hvalue : t.ValueDecides L gcksKey (t.tgsRun L gcksKey kdcOptions c) := by
      constructor
      · intro h
        rw [hcall] at h
        cases h
      · intro h
        rw [hcall] at h
        cases h
    exact ⟨iff_of_true ⟨hreply, hvalue⟩ ⟨hu, hf⟩,
      iff_of_true hreply ⟨hu, fun hp => absurd hp hf⟩⟩
  · -- the process dies in `krb5_unparse_name`: no error reaches the client
    have hreply : ¬ t.ReplyMeansTold L gcksKey (t.tgsRun L gcksKey kdcOptions c) := by
      intro h
      obtain ⟨status, errcode, -, hclean⟩ := h.error fun ht => by
        rw [hcall] at ht
        cases ht.1
      rw [hend] at hclean
      cases hclean
    exact ⟨iff_of_false (fun h => hreply h.1) (fun h => hu h.1),
      iff_of_false hreply (fun h => hu h.1)⟩
  · have hmain : t.ReplyMeansTold L gcksKey (t.tgsRun L gcksKey kdcOptions c) ↔
        t.GoesThrough L gcksKey := by
      constructor
      · intro h
        by_contra hng
        have hnt : ¬ ((t.tgsRun L gcksKey kdcOptions c).calledGcksReq = true ∧
            t.Told L gcksKey) := fun ht => hng ((t.told_iff L gcksKey).mp ht.2)
        obtain ⟨status, errcode, -, hclean⟩ := h.error hnt
        rw [hend] at hclean
        cases hr : gcksReqReturns (t.call L gcksKey) <;> rw [hr] at hclean <;> cases hclean
      · intro hg
        have ht := (t.told_iff L gcksKey).mpr hg
        exact ⟨fun _ => ⟨hcall, ht⟩, fun hn => absurd ⟨hcall, ht⟩ hn⟩
    refine ⟨iff_of_false ?_ (fun h => h.2 hp),
      hmain.trans ⟨fun h => ⟨hu, fun _ => h⟩, fun h => h.2 hp⟩⟩
    rintro ⟨hreply, hvalue⟩
    have hg := hmain.mp hreply
    rw [if_pos (GcksTry.returns_of_goesThrough L gcksKey hg)] at hend
    obtain ⟨sent, fds, h0⟩ := hvalue.acts hcall hend
    exact t.call_ne_zero L gcksKey sent fds h0

end

def passingCalls : TgsCalls := ⟨0, 0, 0, true, 0, 0, 0, 0, 0, 0, .ok ⟨none, 0, .fallsOff⟩⟩

/-- A request of alice, with a connection that takes up to 8191 bytes. -/
def takenTry : GcksTry Bytes := { served aliceRequest with accepted := some (bufsiz - 1) }

/-- The same while the key server is down. -/
def refusedTry : GcksTry Bytes :=
  { served aliceRequest with net := { KdcNet.up with connect := false }, accepted := none }

/-- The key server refuses the connection, the reply is assembled all the same. -/
theorem tgs_reply_untold :
    (refusedTry.tgsRun plainMikey [7, 0, 9] kdcOptMikey passingCalls).ending = .assemble ∧
    ¬ refusedTry.Told plainMikey [7, 0, 9] ∧
    ¬ (refusedTry.ReplyMeansTold plainMikey [7, 0, 9]
        (refusedTry.tgsRun plainMikey [7, 0, 9] kdcOptMikey passingCalls) ∧
      refusedTry.ValueDecides plainMikey [7, 0, 9]
        (refusedTry.tgsRun plainMikey [7, 0, 9] kdcOptMikey passingCalls)) := by
  have hend : (refusedTry.tgsRun plainMikey [7, 0, 9] kdcOptMikey passingCalls).ending =
      .assemble := by
    obtain ⟨ext, hm, -⟩ := refusedTry.message_ok plainMikey [7, 0, 9]
    have hflag : isflagset kdcOptMikey kdcOptMikey = true := by decide
    rcases refusedTry.tgsRun_spec plainMikey [7, 0, 9] hflag passingCalls with
      ⟨-, hf, -⟩ | ⟨-, hf, -⟩ | ⟨-, -, -, h⟩
    · exact absurd ⟨rfl, rfl, rfl, rfl, rfl⟩ hf
    · exact absurd ⟨rfl, rfl, rfl, rfl, rfl⟩ hf
    · rcases refusedTry.toGcksReq.call_spec hm with ⟨-, hc⟩ | ⟨hlog, -⟩
      · rw [h, hc]
        rfl
      · exact absurd (by decide) hlog
  have hnt : ¬ refusedTry.Told plainMikey [7, 0, 9] := by
    rw [GcksTry.told_iff]
    rintro ⟨-, ⟨-, -, -, h⟩, -⟩
    cases h
  exact ⟨hend, hnt, fun h => hnt (h.1.reply hend).2⟩

/-- A reply, after socket, connect and send have gone through. -/
theorem tgs_reply_told_alice :
    (takenTry.tgsRun plainMikey [7, 0, 9] kdcOptMikey passingCalls).ending = .assemble ∧
      takenTry.ReplyMeansTold plainMikey [7, 0, 9]
        (takenTry.tgsRun plainMikey [7, 0, 9] kdcOptMikey passingCalls) := by
  obtain ⟨m, hm, hc⟩ := GcksReq.call_of_up (q := takenTry.toGcksReq) rfl aliceRequest_fits
  have hlen := aliceRequest_fits m hm
  have hreply := ((tgs_reply_told_iff plainMikey [7, 0, 9] takenTry kdcOptMikey passingCalls
    (by decide)).2.mpr ⟨.inl rfl, fun _ => ⟨by decide, ⟨rfl, rfl, rfl, rfl⟩, m, bufsiz - 1, hm,
      hlen, rfl, by omega⟩⟩)
  refine ⟨?_, hreply⟩
  rw [GcksTry.tgsRun, hc]
  rfl

/-! ## Requests one after the other -/

/-- The KDC process and the sockets it holds. -/
structure Kdc where
  alive : Bool := true
  openSockets : Nat

/-- Comes back with nothing left open. -/
def KdcNet.Clean (net : KdcNet) : Prop :=
  net.log.Works ∧
    (net.socket = false ∨ net.resolves = true ∧ net.setsockopt = true ∧ net.connect = true)

instance (net : KdcNet) : Decidable net.Clean := by
  unfold KdcNet.Clean
  infer_instance

/-- `connect` fails: -1 is returned with the socket open. -/
def KdcNet.leaks (net : KdcNet) : Bool :=
  decide net.log.Works && net.socket && net.resolves && net.setsockopt && !net.connect

section
variable {ρ : Type} (L : LibMikey ρ) (gcksKey : Bytes)

/-- A request served by a KDC that runs. -/
inductive Kdc.Step : Kdc → GcksTry ρ → Kdc → Prop
  | returns (s : Kdc) (t : GcksTry ρ) (call : GcksCall) (hs : s.alive = true)
      (h : t.call L gcksKey = .ok call) (hr : gcksReqReturns (.ok call) = true) :
      Step s t { s with openSockets := s.openSockets + call.openSockets }
  | dies (s : Kdc) (t : GcksTry ρ) (hs : s.alive = true)
      (hr : gcksReqReturns (t.call L gcksKey) = false) : Step s t ⟨false, 0⟩

/-- The call comes back to `process_tgs_req` and has closed what it opened. -/
structure Kdc.Unharmed (s : Kdc) (t : GcksTry ρ) (s' : Kdc) : Prop where
  returns : gcksReqReturns (t.call L gcksKey) = true
  noNullHost : t.call L gcksKey ≠ .error .nullDeref
  alive : s'.alive = true
  openSockets : s'.openSockets = s.openSockets

variable {L gcksKey}

theorem Kdc.step_of_returns {s s' : Kdc} {t : GcksTry ρ} {call : GcksCall}
    (h : Kdc.Step L gcksKey s t s') (hc : t.call L gcksKey = .ok call)
    (hr : gcksReqReturns (.ok call) = true) :
    s' = { s with openSockets := s.openSockets + call.openSockets } := by
  cases h with
  | returns call' hs h' hr' =>
    rw [hc] at h'
    cases h'
    rfl
  | dies hs hr' =>
    rw [hc, hr] at hr'
    cases hr'

theorem Kdc.step_of_dies {s s' : Kdc} {t : GcksTry ρ} (h : Kdc.Step L gcksKey s t s')
    (hr : gcksReqReturns (t.call L gcksKey) = false) : s' = ⟨false, 0⟩ := by
  cases h with
  | returns call hs h' hr' =>
    rw [h', hr'] at hr
    cases hr
  | dies hs hr' => rfl

theorem Kdc.alive_of_step {s s' : Kdc} {t : GcksTry ρ} (h : Kdc.Step L gcksKey s t s') :
    s.alive = true := by
  cases h with
  | returns call hs h' hr' => exact hs
  | dies hs hr' => exact hs

variable (L gcksKey) in
/-- A KDC that runs takes every request. -/
theorem Kdc.step_exists (t : GcksTry ρ) {s : Kdc} (hs : s.alive = true) :
    ∃ s', Kdc.Step L gcksKey s t s' := by
  cases hr : gcksReqReturns (t.call L gcksKey) with
  | false => exact ⟨_, .dies s t hs hr⟩
  | true =>
    cases hc : t.call L gcksKey with
    | error f =>
      rw [hc] at hr
      cases hr
    | ok call =>
      rw [hc] at hr
      exact ⟨_, .returns s t call hs hc hr⟩

/-- **One request**, in what it does to the process: nothing, a socket left open, or the
end. -/
theorem Kdc.step_cases {s s' : Kdc} {t : GcksTry ρ} (h : Kdc.Step L gcksKey s t s') :
    (t.net.Clean ∧ t.net.leaks = false ∧ s.Unharmed L gcksKey t s') ∨
    (¬ t.net.Clean ∧ t.net.leaks = true ∧ s'.openSockets = s.openSockets + 1 ∧
      s'.alive = true) ∨
    (¬ t.net.Clean ∧ t.net.leaks = false ∧ s'.alive = false) := by
  obtain ⟨ext, hm, -⟩ := t.message_ok L gcksKey
  have hs := Kdc.alive_of_step h
  unfold KdcNet.Clean KdcNet.leaks
  rcases GcksTry.call_cases L gcksKey hm with ⟨hlog, f, hcall⟩ | ⟨hlog, ⟨h1, hcall⟩ |
    ⟨h1, h2, hcall⟩ | ⟨h1, h2, h3, hcall⟩ | ⟨h1, h2, h3, h4, hcall⟩ | ⟨h1, h2, h3, h4, hcall⟩⟩
  · have hs' := Kdc.step_of_dies h (by rw [hcall]; rfl)
    refine .inr (.inr ⟨by simp [hlog], by simp [hlog], ?_⟩)
    rw [hs']
  · have hs' := Kdc.step_of_returns h hcall rfl
    refine .inl ⟨⟨hlog, .inl h1⟩, by simp [h1], ⟨by rw [hcall]; rfl, by simp [hcall], ?_, ?_⟩⟩
    · rw [hs']
      exact hs
    · rw [hs']
      rfl
  · have hs' := Kdc.step_of_dies h (by rw [hcall]; rfl)
    refine .inr (.inr ⟨by simp [h1, h2], by simp [h1, h2], ?_⟩)
    rw [hs']
  · have hs' := Kdc.step_of_dies h (by rw [hcall]; rfl)
    refine .inr (.inr ⟨by simp [h1, h3], by simp [h1, h3], ?_⟩)
    rw [hs']
  · have hs' := Kdc.step_of_returns h hcall rfl
    refine .inr (.inl ⟨by simp [h1, h4], by simp [hlog, h1, h2, h3, h4], ?_, ?_⟩)
    · rw [hs']
    · rw [hs']
      exact hs
  · have hs' := Kdc.step_of_returns h hcall rfl
    refine .inl ⟨⟨hlog, .inr ⟨h2, h3, h4⟩⟩, by simp [h4],
      ⟨by rw [hcall]; rfl, by simp [hcall], ?_, ?_⟩⟩
    · rw [hs']
      exact hs
    · rw [hs']
      rfl

/-- **The step lemma.** -/
theorem Kdc.unharmed_iff {s s' : Kdc} {t : GcksTry ρ} (h : Kdc.Step L gcksKey s t s') :
    s.Unharmed L gcksKey t s' ↔ t.net.Clean := by
  rcases Kdc.step_cases h with ⟨hc, -, hu⟩ | ⟨hc, -, hfds, -⟩ | ⟨hc, -, hdead⟩
  · exact iff_of_true hu hc
  · refine iff_of_false (fun hu => ?_) hc
    have := hu.openSockets
    omega
  · refine iff_of_false (fun hu => ?_) hc
    have := hu.alive
    rw [hdead] at this
    cases this

/-- **A whole run**: each failed `connect` costs a socket, which never comes back. -/
theorem Kdc.openSockets_of_run {k s : Kdc} {as : List (GcksTry ρ)}
    (run : Run (Kdc.Step L gcksKey) k as s) (hs : s.alive = true) :
    s.openSockets = k.openSockets + as.countP fun t => t.net.leaks := by
  induction run with
  | nil => rfl
  | @snoc as s t s' _ h ih =>
    rw [List.countP_append, List.countP_singleton]
    have hs0 := ih (Kdc.alive_of_step h)
    rcases Kdc.step_cases h with ⟨-, hl, hu⟩ | ⟨-, hl, hfds, -⟩ | ⟨-, -, hdead⟩
    · have := hu.openSockets
      simp only [hl, Bool.false_eq_true, if_false]
      omega
    · simp only [hl, if_true]
      omega
    · rw [hs] at hdead
      cases hdead

variable (L gcksKey) in
/-- A KDC that meets no failing step gets through all requests. -/
theorem Kdc.run_exists {k : Kdc} (hk : k.alive = true) (as : List (GcksTry ρ))
    (hclean : ∀ t ∈ as, t.net.Clean) :
    ∃ s, Run (Kdc.Step L gcksKey) k as s ∧ s.alive = true := by
  induction as using List.reverseRecOn with
  | nil => exact ⟨k, .nil, hk⟩
  | append_singleton as t ih =>
    obtain ⟨s, run, hs⟩ := ih fun u hu => hclean u (List.mem_append_left _ hu)
    obtain ⟨s', h⟩ := Kdc.step_exists L gcksKey t hs
    exact ⟨s', run.snoc h, ((Kdc.unharmed_iff h).mpr (hclean t (by simp))).alive⟩

/-- **When a run of requests leaves the KDC unharmed.**  Each call of a run does, if and
only if for each request the debug log works, and either there is no socket to be had or
the host is found, the option is set and the connection made. -/
theorem kdc_unharmed_iff (L : LibMikey ρ) (gcksKey : Bytes) (openSockets : Nat)
    (as : List (GcksTry ρ)) :
    (∀ bs t cs s s', as = bs ++ t :: cs → Run (Kdc.Step L gcksKey) ⟨true, openSockets⟩ bs s →
      Kdc.Step L gcksKey s t s' → s.Unharmed L gcksKey t s') ↔ ∀ t ∈ as, t.net.Clean := by
  constructor
  · intro h
    -- the requests before a failing one are clean, so the KDC reaches it
    induction as using List.reverseRecOn with
    | nil =>
      intro t ht
      cases ht
    | append_singleton as t ih =>
      have hclean := ih fun bs u cs s s' has => h bs u (cs ++ [t]) s s' (by rw [has]; simp)
      obtain ⟨s, run, hs⟩ := Kdc.run_exists L gcksKey (k := ⟨true, openSockets⟩) rfl as hclean
      obtain ⟨s', hstep⟩ := Kdc.step_exists L gcksKey t hs
      intro u hu
      rcases List.mem_append.mp hu with hu | hu
      · exact hclean u hu
      · rw [List.mem_singleton.mp hu]
        exact (Kdc.unharmed_iff hstep).mp (h as t [] s s' (by simp) run hstep)
  · intro hclean bs t cs s s' has _ hstep
    refine (Kdc.unharmed_iff hstep).mpr (hclean t ?_)
    rw [has]
    simp

end

/-- A key server that is down costs the KDC a socket for each request. -/
theorem kdc_harmed_by_refused_connection :
    ∃ s', Kdc.Step plainMikey [7, 0, 9] ⟨true, 3⟩ refusedTry s' ∧ s'.openSockets = 4 ∧
      ¬ ∀ (openSockets : Nat) (as : List (GcksTry Bytes)) bs t cs s s', as = bs ++ t :: cs →
        Run (Kdc.Step plainMikey [7, 0, 9]) ⟨true, openSockets⟩ bs s →
        Kdc.Step plainMikey [7, 0, 9] s t s' → s.Unharmed plainMikey [7, 0, 9] t s' := by
  obtain ⟨s', h⟩ := Kdc.step_exists plainMikey [7, 0, 9] refusedTry (s := ⟨true, 3⟩) rfl
  have hfds : s'.openSockets = 4 := by
    rcases Kdc.step_cases h with ⟨hc, -⟩ | ⟨-, -, hfds, -⟩ | ⟨-, hl, -⟩
    · exact absurd hc (by decide)
    · exact hfds
    · cases hl
  refine ⟨s', h, hfds, fun hall => ?_⟩
  have := (hall 3 [refusedTry] [] refusedTry [] _ s' rfl .nil h).openSockets
  rw [hfds] at this
  cases this

end KerberizedMikey
