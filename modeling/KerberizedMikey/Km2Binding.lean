import KerberizedMikey.Gcks2Loop
import KerberizedMikey.CLib.Relay

/-!
# Model 2 as a system: KDC, network, key server

The KDC serves requests at any time (`do_gcks_req`), its messages travel in any order,
and gcks2 takes one at a time.

Seen through `Request.target` (name, host, key) the system is a relay of these triples
(`step_relay`), which crashes over a request without one.  The target of a well-named
request is its view, the client's own name and address with the key of its ticket, so by the
relay's conservation

    sent + unsent = consumed,   served = in flight + in hand + consumed        (km2_binding)

where `unsent` are requests dropped because a network call of gcks2 failed.
-/

namespace KerberizedMikey

open CLib

namespace Request

/-- Who should get which key where. -/
def view (req : Request) : Bytes × Bytes × Bytes :=
  (req.cname.bytes, req.addrText, req.sessionKey)

/-- Names without `|` that fit `connInfo[1024]`, an address that fits `client_addr[30]`. -/
structure WellNamed (req : Request) : Prop where
  cname : req.cname.bytes ≠ [] ∧ bar ∉ req.cname.bytes
  sname : req.sname.bytes ≠ [] ∧ bar ∉ req.sname.bytes
  fits : (connInfoText req.cname.bytes req.addrText req.addr.port.toInt32
    req.sname.bytes).length ≤ 1023
  addr : req.addrText.length < 30

/-- The key of a well-named request is for the client itself. -/
theorem WellNamed.target_eq {req : Request} (h : req.WellNamed) : req.target = some req.view := by
  obtain ⟨hane, hab, -⟩ := req.addrText_field
  have hf : termFields bar req.text =
      [req.cname.bytes, req.addrText, fmtInt req.addr.port.toInt32.toInt, req.sname.bytes] := by
    rw [text, List.take_of_length_le h.fits, termFields_connInfoText,
      fields_of_not_mem bar _ h.cname.2 h.cname.1, fields_of_not_mem bar _ hab hane,
      fields_of_not_mem bar _ h.sname.2 h.sname.1]
    rfl
  simp only [target, hf, if_pos h.addr, view]

end Request

/-- The whole system. -/
structure Km2 extends Gcks2 InFlight where
  served : Multiset Request := 0
  inflight : Multiset InFlight := 0
  consumed : Multiset Request := 0
  sent : Multiset ClientMessage := 0
  unsent : Multiset Request := 0

inductive Act (ρ : Type)
  | serve (q : GcksReq ρ)
  | receive (m : InFlight)
  | gcks2 (a : Gcks2.Act ρ)

/-- The system after a call of gcks2. -/
def Km2.after {ρ : Type} (s : Km2) (g : Gcks2 InFlight) : Gcks2.Out ρ InFlight → Km2
  | .keeps => { s with toGcks2 := g }
  | .sends m _ reply =>
    { s with toGcks2 := g, consumed := m.req ::ₘ s.consumed, sent := reply ::ₘ s.sent }
  | .drops m =>
    { s with toGcks2 := g, consumed := m.req ::ₘ s.consumed, unsent := m.req ::ₘ s.unsent }

section
variable {ρ : Type} (L : LibMikey ρ) (gcksKey : Bytes)

inductive Km2.Step : Km2 → Act ρ → Km2 → Prop
  | serve (s : Km2) (q : GcksReq ρ) (text : Bytes) (fds : Nat) (ending : CallEnd)
      (h : q.call L gcksKey = .ok ⟨some text, fds, ending⟩) :
      Step s (.serve q)
        { s with served := q.req ::ₘ s.served, inflight := ⟨q.req, text⟩ ::ₘ s.inflight }
  | receive (s : Km2) (m : InFlight) (rest : Multiset InFlight) (hp : s.phase = .accept)
      (hm : s.inflight = m ::ₘ rest) :
      Step s (.receive m) { s with inflight := rest, phase := .received m }
  | gcks2 (s : Km2) (a : Gcks2.Act ρ) (out : Gcks2.Out ρ InFlight) (g : Gcks2 InFlight)
      (h : Gcks2.Step L gcksKey InFlight.text s.toGcks2 a out g) :
      Step s (.gcks2 a) (s.after g out)

/-- The message of a served request fits `tmpBuf[BUFSIZ]`. -/
def Act.Fits : Act ρ → Prop
  | .serve q => q.Fits L gcksKey
  | _ => True

/-- A served request is well named and its message fits. -/
def Act.Ok : Act ρ → Prop
  | .serve q => q.req.WellNamed ∧ q.Fits L gcksKey
  | _ => True

/-- gcks2's `socket` and `gethostbyname` succeed. -/
def Act.NetworkUp : Act ρ → Prop
  | .gcks2 (.send net _) => net.socket = true ∧ ∀ host, net.resolves host = true
  | _ => True

variable {L gcksKey}

theorem Act.fits_of_ok {a : Act ρ} (h : a.Ok L gcksKey) : a.Fits L gcksKey := by
  cases a with
  | serve q => exact h.2
  | receive m => trivial
  | gcks2 a => trivial

/-! ## The system is a relay -/

/-- The request whose message gcks2 is handling. -/
def Phase.inHand : Phase InFlight → Multiset Request
  | .received m => {m.req}
  | .processed m _ => {m.req}
  | _ => 0

def Phase.running {μ : Type} : Phase μ → Bool
  | .stopped => false
  | _ => true

/-- The system as a relay of targets. -/
def Km2.relay (s : Km2) : Relay (Option (Bytes × Bytes × Bytes)) where
  issued := s.served.map Request.target
  pending := s.inflight.map fun m => m.req.target
  held := s.phase.inHand.map Request.target
  finished := s.consumed.map Request.target
  delivered := s.sent.map fun m => some m.view
  dropped := s.unsent.map Request.target
  running := s.phase.running

variable (L gcksKey)

/-- Every message carries its request, and so do the variables between the two calls. -/
structure Km2.Inv (s : Km2) : Prop where
  inflight : ∀ m ∈ s.inflight, Carries L gcksKey m.req m.text
  gcks2 : s.toGcks2.Inv L gcksKey
  served : s.served = s.inflight.map (·.req) + s.phase.inHand + s.consumed
  unsent : s.unsent ≤ s.consumed

/-- What makes the relay deliver an item, drop it or crash over it: a client that takes the
message; no socket; no target, or no address for its host. -/
structure Km2.Means (s : Km2) (a : Act ρ) (b : Relay.Act (Option (Bytes × Bytes × Bytes))) :
    Prop where
  deliver : ∀ x, b = .deliver x → ∃ m v net r reply, a = .gcks2 (.send net r) ∧
    s.phase = .processed m v ∧ net.connects = true ∧
    clientMessage L r v.connInfo.clientName v.connInfo.clientAddr v.sessionKey = .ok reply ∧
    x = some reply.view
  drop : ∀ x, b = .drop x → ∃ net r, a = .gcks2 (.send net r) ∧ net.socket = false
  crash : ∀ x, b = .crash x →
    x = none ∨ ∃ net r host, a = .gcks2 (.send net r) ∧ net.resolves host = false

variable {L gcksKey}

theorem Km2.inv_init : Km2.Inv L gcksKey {} where
  inflight m hm := by simp at hm
  gcks2 := Gcks2.inv_accept rfl
  served := rfl
  unsent := le_refl _

/-- A message that gcks2 is done with, sent or not. -/
theorem Km2.served_after {s : Km2} {m : InFlight} (hs : s.Inv L gcksKey)
    (hp : s.phase.inHand = {m.req}) :
    s.served = s.inflight.map (·.req) + 0 + (m.req ::ₘ s.consumed) := by
  rw [hs.served, hp, add_zero, add_assoc, Multiset.singleton_add]

/-- **One step.**  It keeps the invariant, and is a step of the relay or none. -/
theorem Km2.step_relay (hL : L.Lawful) {s t : Km2} {a : Act ρ} (ha : a.Fits L gcksKey)
    (hs : s.Inv L gcksKey) (h : Km2.Step L gcksKey s a t) :
    t.Inv L gcksKey ∧
      (t.relay = s.relay ∨ ∃ b, Relay.Step s.relay b t.relay ∧ s.Means L a b) := by
  have hs' := hs
  obtain ⟨hin, hg, hserved, hunsent⟩ := hs'
  cases h with
  | serve q text fds ending h =>
    refine ⟨⟨?_, hg, by simp [hserved], hunsent⟩, .inr ⟨.issue q.req.target, ?_, ?_, ?_, ?_⟩⟩
    · intro m hm
      rcases Multiset.mem_cons.mp hm with rfl | hm
      · exact carries_of_call hL ha h
      · exact hin m hm
    · simpa [relay] using Relay.Step.issue s.relay q.req.target
    all_goals rintro x ⟨⟩
  | receive m rest hp hm =>
    refine ⟨⟨?_, ⟨?_, ?_⟩, ?_, hunsent⟩, .inr ⟨.take m.req.target, ?_, ?_, ?_, ?_⟩⟩
    · exact fun n hn => hin n (by rw [hm]; exact Multiset.mem_cons_of_mem hn)
    · rintro n ⟨⟩
      exact hin m (by rw [hm]; exact Multiset.mem_cons_self m rest)
    · rintro n v ⟨⟩
    · rw [hserved, hm, hp]
      simp [Phase.inHand, ← Multiset.singleton_add, add_comm]
    · have := Relay.Step.take s.relay m.req.target (rest.map fun m => m.req.target)
        (by simp [relay, hm]) (by simp [relay, hp, Phase.inHand])
        (by simp [relay, hp, Phase.running])
      simpa [relay, Phase.inHand, Phase.running, hp] using this
    all_goals rintro x ⟨⟩
  | gcks2 a out g h =>
    have hg' := Gcks2.inv_step hg h
    rcases Gcks2.step_cases hg h with ⟨m, v, hp, hb, rfl, rfl⟩ |
      ⟨m, v, net, r, reply, rfl, hp, htarget, hc, hm, rfl, rfl⟩ |
      ⟨m, v, net, r, rfl, hp, hsock, rfl, rfl⟩ | ⟨m, hp, hwhy, rfl, rfl⟩
    · refine ⟨⟨hin, hg', ?_, hunsent⟩, .inl ?_⟩
      · rw [after, hserved, hp]
        rfl
      · simp [relay, after, hp, Phase.inHand, Phase.running]
    · refine ⟨⟨hin, hg', served_after hs (by rw [hp]; rfl), ?_⟩,
        .inr ⟨.deliver m.req.target, ?_, ?_, ?_, ?_⟩⟩
      · exact hunsent.trans (Multiset.le_cons_self _ _)
      · have := Relay.Step.deliver s.relay m.req.target (by simp [relay, hp, Phase.inHand])
        simpa [relay, after, hp, Phase.inHand, Phase.running, htarget] using this
      · rintro _ ⟨⟩
        exact ⟨m, v, net, r, reply, rfl, hp, hc, hm, htarget⟩
      all_goals rintro _ ⟨⟩
    · refine ⟨⟨hin, hg', served_after hs (by rw [hp]; rfl), ?_⟩,
        .inr ⟨.drop m.req.target, ?_, ?_, ?_, ?_⟩⟩
      · exact (Multiset.cons_le_cons_iff _).mpr hunsent
      · have := Relay.Step.drop s.relay m.req.target (by simp [relay, hp, Phase.inHand])
        simpa [relay, after, hp, Phase.inHand, Phase.running] using this
      · rintro _ ⟨⟩
      · rintro _ ⟨⟩
        exact ⟨net, r, rfl, hsock⟩
      · rintro _ ⟨⟩
    · have hhand : s.phase.inHand = {m.req} := by
        rcases hp with hp | ⟨v, hp⟩ <;> rw [hp] <;> rfl
      refine ⟨⟨hin, hg', served_after hs hhand, ?_⟩, .inr ⟨.crash m.req.target, ?_, ?_, ?_, ?_⟩⟩
      · exact (Multiset.cons_le_cons_iff _).mpr hunsent
      · have := Relay.Step.crash s.relay m.req.target (by simp [relay, hhand])
        simpa [relay, after, hhand, Phase.inHand, Phase.running] using this
      · rintro _ ⟨⟩
      · rintro _ ⟨⟩
      · rintro _ ⟨⟩
        rcases hwhy with hnone | ⟨net, r, host, ha, hres⟩
        · exact .inl hnone
        · exact .inr ⟨net, r, host, by rw [ha], hres⟩

/-- **A run** is one of the relay. -/
theorem Km2.run_relay (hL : L.Lawful) {acts : List (Act ρ)} {s : Km2}
    (run : Run (Km2.Step L gcksKey) {} acts s) (hfit : ∀ a ∈ acts, a.Fits L gcksKey) :
    s.Inv L gcksKey ∧ ∃ bs, Run Relay.Step Relay.init bs s.relay :=
  run.simulate (f := Km2.relay) (P := Act.Fits L gcksKey) Km2.inv_init (fun _ _ _ ha hs h => by
    obtain ⟨ht, he | ⟨b, hb, -⟩⟩ := Km2.step_relay hL ha hs h
    · exact ⟨ht, .inl he⟩
    · exact ⟨ht, .inr ⟨b, hb⟩⟩) hfit

/-! ## Well-named requests -/

theorem Km2.wellNamed_step {s t : Km2} {a : Act ρ} (ha : a.Ok L gcksKey)
    (hs : ∀ req ∈ s.served, req.WellNamed) (h : Km2.Step L gcksKey s a t) :
    ∀ req ∈ t.served, req.WellNamed := by
  cases h with
  | serve q text fds ending h =>
    intro req hreq
    rcases Multiset.mem_cons.mp hreq with rfl | hreq
    · exact ha.1
    · exact hs req hreq
  | receive m rest hp hm => exact hs
  | gcks2 a out g h => cases out <;> exact hs

/-- While gcks2's network calls succeed, no request is dropped. -/
theorem Km2.unsent_step {s t : Km2} {a : Act ρ} (hs : s.Inv L gcksKey)
    (hnamed : ∀ req ∈ s.served, req.WellNamed) (hup : a.NetworkUp)
    (h : Km2.Step L gcksKey s a t) : t.unsent = s.unsent := by
  cases h with
  | serve | receive => rfl
  | gcks2 a out g h =>
    rcases Gcks2.step_cases hs.gcks2 h with ⟨m, v, hp, hb, rfl, rfl⟩ |
      ⟨m, v, net, r, reply, rfl, hp, htarget, hc, hm, rfl, rfl⟩ |
      ⟨m, v, net, r, rfl, hp, hsock, rfl, rfl⟩ | ⟨m, hp, hwhy, rfl, rfl⟩
    · rfl
    · rfl
    · rw [hup.1] at hsock
      cases hsock
    · -- a well-named request has a target, and its host is found
      rcases hwhy with hnone | ⟨net, r, host, rfl, hres⟩
      · have hmem : m.req ∈ s.phase.inHand := by
          rcases hp with hp | ⟨v, hp⟩ <;> rw [hp] <;> exact Multiset.mem_singleton_self _
        have hreq : m.req ∈ s.served := by
          rw [hs.served]
          exact Multiset.mem_add.mpr (.inl (Multiset.mem_add.mpr (.inr hmem)))
        rw [(hnamed m.req hreq).target_eq] at hnone
        cases hnone
      · rw [hup.2 host] at hres
        cases hres

theorem Km2.unsent_eq_zero (hL : L.Lawful) {acts : List (Act ρ)} {s : Km2}
    (run : Run (Km2.Step L gcksKey) {} acts s)
    (hok : ∀ a ∈ acts, a.Ok L gcksKey ∧ a.NetworkUp) : s.unsent = 0 := by
  have h : s.Inv L gcksKey ∧ (∀ req ∈ s.served, req.WellNamed) ∧ s.unsent = 0 := by
    refine run.invariant
      (I := fun s => s.Inv L gcksKey ∧ (∀ req ∈ s.served, req.WellNamed) ∧ s.unsent = 0)
      ⟨Km2.inv_init, by simp, rfl⟩ ?_ hok
    rintro s a t ⟨ha, hup⟩ ⟨hs, hnamed, h0⟩ h
    refine ⟨(Km2.step_relay hL (Act.fits_of_ok ha) hs h).1, Km2.wellNamed_step ha hnamed h, ?_⟩
    rw [Km2.unsent_step hs hnamed hup h, h0]
  exact h.2.2

/-- Targets of well-named requests are views. -/
theorem map_target_of_wellNamed {reqs : Multiset Request} (h : ∀ req ∈ reqs, req.WellNamed) :
    reqs.map Request.target = (reqs.map Request.view).map some := by
  rw [Multiset.map_map]
  exact Multiset.map_congr rfl fun req hreq => (h req hreq).target_eq

/-- **No mixing, loss or duplication of session keys.**  In every reachable state, the
messages gcks2 has sent carry name, address and whole key of exactly the requests it
has consumed, apart from those it dropped, which a working network never makes it
do; and no request's key is in two messages. -/
theorem km2_binding (hL : L.Lawful) {acts : List (Act ρ)} {s : Km2}
    (run : Run (Km2.Step L gcksKey) {} acts s) (hok : ∀ a ∈ acts, a.Ok L gcksKey) :
    s.sent.map ClientMessage.view + s.unsent.map Request.view = s.consumed.map Request.view ∧
    s.served = s.inflight.map (·.req) + s.phase.inHand + s.consumed ∧
    s.sent.map ClientMessage.view ≤ s.served.map Request.view ∧
    ((∀ a ∈ acts, a.NetworkUp) →
      s.sent.map ClientMessage.view = s.consumed.map Request.view) := by
  obtain ⟨hI, bs, hrun⟩ := Km2.run_relay hL run fun a ha => Act.fits_of_ok (hok a ha)
  have hnamed : ∀ req ∈ s.served, req.WellNamed :=
    run.invariant (I := fun s => ∀ req ∈ s.served, req.WellNamed) (by simp)
      (fun _ _ _ ha hs h => Km2.wellNamed_step ha hs h) hok
  have hconsumed : ∀ req ∈ s.consumed, req.WellNamed := fun req hreq =>
    hnamed req (by rw [hI.served]; exact Multiset.mem_add.mpr (.inr hreq))
  have hfin : s.sent.map ClientMessage.view + s.unsent.map Request.view =
      s.consumed.map Request.view := by
    have h : s.sent.map (fun m => some m.view) + s.unsent.map Request.target =
        s.consumed.map Request.target := (Relay.conserved hrun).finished
    rw [map_target_of_wellNamed hconsumed, map_target_of_wellNamed fun req hreq =>
      hconsumed req (Multiset.mem_of_le hI.unsent hreq)] at h
    refine Multiset.map_injective (Option.some_injective _) ?_
    rw [Multiset.map_add, ← h, Multiset.map_map]
    rfl
  refine ⟨hfin, hI.served, ?_, ?_⟩
  · calc s.sent.map ClientMessage.view
        ≤ s.sent.map ClientMessage.view + s.unsent.map Request.view := Multiset.le_add_right _ _
      _ = s.consumed.map Request.view := hfin
      _ ≤ s.served.map Request.view := by
        rw [hI.served, Multiset.map_add]
        exact Multiset.le_add_left _ _
  · intro hup
    have hun := Km2.unsent_eq_zero hL run fun a ha => ⟨hok a ha, hup a ha⟩
    rw [← hfin, hun, Multiset.map_zero, add_zero]

/-- **One pass** with a working network. -/
theorem Km2.pass {s : Km2} (m : InFlight) (rest : Multiset InFlight)
    {x : Bytes × Bytes × Bytes} (hp : s.phase = .accept) (hin : s.inflight = m ::ₘ rest)
    (hm : Carries L gcksKey m.req m.text) (hx : m.req.target = some x) (r : ρ) :
    ∃ olds reply, Run (Km2.Step L gcksKey) s
      [.receive m, .gcks2 .process, .gcks2 (.send ClientNet.up r)]
      { s with
        phase := .accept
        olds := olds
        inflight := rest
        consumed := m.req ::ₘ s.consumed
        sent := reply ::ₘ s.sent } := by
  obtain ⟨v, hv, hprocess⟩ := Gcks2.processes (ρ := ρ) InFlight.text (g := ⟨.received m, s.olds⟩)
    rfl hm hx
  obtain ⟨reply, -, -, hsend⟩ := Gcks2.sends L gcksKey InFlight.text
    (g := ⟨.processed m v, v.olds⟩) rfl hv hx r
  exact ⟨v.olds, reply, ((Run.nil.snoc (.receive s m rest hp hin)).snoc
    (.gcks2 _ _ .keeps _ hprocess)).snoc (.gcks2 _ _ (.sends m r reply) _ hsend)⟩

end

/-! ## Two clients -/

def aliceRequest : Request :=
  ⟨aliceName, groupOne, ⟨some (.inet ![127, 0, 0, 1]), 40000⟩, [1, 0, 2], by decide⟩

def bobRequest : Request :=
  ⟨bobName, groupOne, ⟨some (.inet ![10, 0, 0, 2]), 40001⟩, [3, 0, 4], by decide⟩

/-- A call of `do_gcks_req` on which everything works. -/
def served (req : Request) : GcksReq Bytes := ⟨req, KdcNet.up, [5], calloc 1024⟩

theorem aliceRequest_wellNamed : aliceRequest.WellNamed :=
  ⟨by decide, by decide, by decide, by decide⟩

theorem aliceRequest_fits : (served aliceRequest).Fits plainMikey [7, 0, 9] :=
  GcksReq.fits_of_all (by decide +kernel)

theorem bobRequest_wellNamed : bobRequest.WellNamed :=
  ⟨by decide, by decide, by decide, by decide⟩

theorem bobRequest_fits : (served bobRequest).Fits plainMikey [7, 0, 9] :=
  GcksReq.fits_of_all (by decide +kernel)

/-- alice is served before bob, whose message comes to gcks2 first. -/
theorem km2_binding_alice :
    ∃ (ma mb : InFlight) (s : Km2), ma.req = aliceRequest ∧ mb.req = bobRequest ∧
      Run (Km2.Step plainMikey [7, 0, 9]) {} [.serve (served aliceRequest),
        .serve (served bobRequest), .receive mb, .gcks2 .process, .gcks2 (.send ClientNet.up [6]),
        .receive ma, .gcks2 .process, .gcks2 (.send ClientNet.up [5])] s ∧
      s.sent.map ClientMessage.view =
        {(ascii "alice@LOCALHOST", ascii "127.0.0.1", [1, 0, 2]),
          (ascii "bob@LOCALHOST", ascii "10.0.0.2", [3, 0, 4])} := by
  obtain ⟨a, ha, hca⟩ := GcksReq.call_of_up rfl aliceRequest_fits
  obtain ⟨b, hb, hcb⟩ := GcksReq.call_of_up rfl bobRequest_fits
  let ma : InFlight := ⟨aliceRequest, a.bytes⟩
  let mb : InFlight := ⟨bobRequest, b.bytes⟩
  let s : Km2 := { served := {bobRequest, aliceRequest}, inflight := {mb, ma} }
  have hserved : Run (Km2.Step plainMikey [7, 0, 9]) {}
      [.serve (served aliceRequest), .serve (served bobRequest)] s :=
    (Run.nil.snoc (.serve {} (served aliceRequest) a.bytes 0 .fallsOff hca)).snoc
      (.serve _ (served bobRequest) b.bytes 0 .fallsOff hcb)
  obtain ⟨olds, reply, hbob⟩ := Km2.pass (s := s) mb {ma} rfl rfl
    (carries_of_message plainMikey_lawful hb) bobRequest_wellNamed.target_eq [6]
  let t : Km2 :=
    { s with olds := olds, inflight := {ma}, consumed := {bobRequest}, sent := {reply} }
  obtain ⟨olds', reply', halice⟩ := Km2.pass (s := t) ma 0 rfl rfl
    (carries_of_message plainMikey_lawful ha) aliceRequest_wellNamed.target_eq [5]
  have run := (hserved.append hbob).append halice
  have hacts : ∀ act ∈ [Act.serve (served aliceRequest), .serve (served bobRequest),
      .receive mb, .gcks2 .process, .gcks2 (.send ClientNet.up [6]), .receive ma,
      .gcks2 .process, .gcks2 (.send ClientNet.up [5])],
      act.Ok plainMikey [7, 0, 9] ∧ act.NetworkUp := by
    intro act hact
    simp only [List.mem_cons, List.not_mem_nil, or_false] at hact
    rcases hact with rfl | rfl | rfl | rfl | rfl | rfl | rfl | rfl
    · exact ⟨⟨aliceRequest_wellNamed, aliceRequest_fits⟩, trivial⟩
    · exact ⟨⟨bobRequest_wellNamed, bobRequest_fits⟩, trivial⟩
    · exact ⟨trivial, trivial⟩
    · exact ⟨trivial, trivial⟩
    · exact ⟨trivial, rfl, fun _ => rfl⟩
    · exact ⟨trivial, trivial⟩
    · exact ⟨trivial, trivial⟩
    · exact ⟨trivial, rfl, fun _ => rfl⟩
  obtain ⟨-, -, -, hsent⟩ := km2_binding plainMikey_lawful run fun act hact => (hacts act hact).1
  refine ⟨ma, mb, _, rfl, rfl, run, ?_⟩
  rw [hsent fun act hact => (hacts act hact).2]
  rfl

end KerberizedMikey
