import KerberizedMikey.Km2Binding

/-!
# Model 2: which messages get through

gcks2 retries `connect` until the client of the message in hand listens, and takes no other
message meanwhile.  With a network that works otherwise, and `up` the hosts on which a
client listens on port 9999, the system is a relay that waits (`upStep_relay`), for requests
of any names and addresses:

    all messages under way can be delivered  ↔  each of them has a target, which listens
                                                                        (km2_drains_iff)
    gcks2 holds a message whose target does not listen  →  it holds it for good, delivers
      nothing more, and takes no message                                   (km2_blocked)
-/

namespace KerberizedMikey

open CLib

section
variable {ρ : Type} (L : LibMikey ρ) (gcksKey : Bytes) (up : Bytes → Prop)

/-- gcks2's network calls succeed, and its connect loop ends if the host is up. -/
def Act.MeetsHosts (s : Km2) : Act ρ → Prop
  | .gcks2 (.send net r) => net.socket = true ∧ (∀ host, net.resolves host = true) ∧
      ∀ m v reply, s.phase = .processed m v →
        clientMessage L r v.connInfo.clientName v.connInfo.clientAddr v.sessionKey = .ok reply →
        (net.connects = true ↔ up reply.host)
  | _ => True

/-- A step of the system with these hosts. -/
def Km2.UpStep (s : Km2) (a : Act ρ) (t : Km2) : Prop :=
  Km2.Step L gcksKey s a t ∧ a.MeetsHosts L up s

/-- There is a target, and its host is up. -/
def Listens (x : Option (Bytes × Bytes × Bytes)) : Prop := ∃ y, x = some y ∧ up y.2.1

/-- Served and not forwarded yet. -/
def Km2.underWay (s : Km2) : Multiset Request := s.inflight.map (·.req) + s.phase.inHand

variable {L gcksKey up}

/-- **The system is a relay that waits.** -/
theorem Km2.upStep_relay (hL : L.Lawful) {s t : Km2} {a : Act ρ} (ha : a.Fits L gcksKey)
    (hs : s.Inv L gcksKey) (h : Km2.UpStep L gcksKey up s a t) :
    t.Inv L gcksKey ∧
      (t.relay = s.relay ∨ ∃ b, Relay.WaitStep (Listens up) (· = none) s.relay b t.relay) := by
  obtain ⟨hstep, hnet⟩ := h
  obtain ⟨ht, he | ⟨b, hb, hmeans⟩⟩ := Km2.step_relay hL ha hs hstep
  · exact ⟨ht, .inl he⟩
  refine ⟨ht, .inr ⟨b, hb, ?_, ?_, ?_⟩⟩
  · intro x hx
    obtain ⟨m, v, net, r, reply, rfl, hp, hc, hm, rfl⟩ := hmeans.deliver x hx
    exact ⟨reply.view, rfl, (hnet.2.2 m v reply hp hm).mp hc⟩
  · intro x hx
    obtain ⟨net, r, rfl, hsock⟩ := hmeans.drop x hx
    rw [hnet.1] at hsock
    cases hsock
  · intro x hx
    rcases hmeans.crash x hx with hnone | ⟨net, r, host, rfl, hres⟩
    · exact hnone
    · rw [hnet.2.1 host] at hres
      cases hres

/-- Runs of the system are runs of the relay. -/
theorem Km2.upRun_relay (hL : L.Lawful) {s : Km2} (hs : s.Inv L gcksKey) {acts : List (Act ρ)}
    {t : Km2} (run : Run (Km2.UpStep L gcksKey up) s acts t)
    (hfit : ∀ a ∈ acts, a.Fits L gcksKey) :
    t.Inv L gcksKey ∧ ∃ bs, Run (Relay.WaitStep (Listens up) (· = none)) s.relay bs t.relay :=
  run.simulate (f := Km2.relay) (P := Act.Fits L gcksKey) hs
    (fun _ _ _ ha hs h => Km2.upStep_relay hL ha hs h) hfit

/-! ## Progress -/

variable (up) in
theorem Km2.processes {s : Km2} (hs : s.Inv L gcksKey) {m : InFlight}
    (hp : s.phase = .received m) {x : Bytes × Bytes × Bytes} (hx : m.req.target = some x) :
    ∃ v, v.Binds m.req ∧ Km2.UpStep L gcksKey up s (.gcks2 .process : Act ρ)
      { s with phase := .processed m v, olds := v.olds } := by
  obtain ⟨v, hv, hprocess⟩ := Gcks2.processes (ρ := ρ) InFlight.text hp
    (hs.gcks2.received m hp) hx
  exact ⟨v, hv, .gcks2 s .process .keeps _ hprocess, trivial⟩

variable (L gcksKey) in
theorem Km2.sends {s : Km2} {m : InFlight} {v : GcksVars} (hp : s.phase = .processed m v)
    (hv : v.Binds m.req) {x : Bytes × Bytes × Bytes} (hx : m.req.target = some x)
    (hup : up x.2.1) (r : ρ) :
    ∃ reply : ClientMessage, reply.view = x ∧
      Km2.UpStep L gcksKey up s (.gcks2 (.send ClientNet.up r))
        { s with
          phase := .accept
          consumed := m.req ::ₘ s.consumed
          sent := reply ::ₘ s.sent } := by
  obtain ⟨reply, hview, hm, hsend⟩ := Gcks2.sends L gcksKey InFlight.text hp hv hx r
  refine ⟨reply, hview, .gcks2 s _ (.sends m r reply) _ hsend, rfl, fun _ => rfl, ?_⟩
  intro m' v' reply' hp' hm'
  rw [hp] at hp'
  cases hp'
  rw [hm] at hm'
  cases hm'
  rw [← hview] at hup
  exact iff_of_true rfl hup

variable (up) in
/-- gcks2 forwards the message in hand, if its target listens. -/
theorem Km2.finishes {s : Km2} (hs : s.Inv L gcksKey) (r : ρ) (hp : s.phase ≠ .stopped)
    (hup : ∀ req ∈ s.phase.inHand, Listens up req.target) :
    ∃ acts t, Run (Km2.UpStep L gcksKey up) s acts t ∧ (∀ a ∈ acts, a.Fits L gcksKey) ∧
      t.phase = .accept ∧ t.inflight = s.inflight ∧
      t.sent.map (fun m => some m.view) =
        s.sent.map (fun m => some m.view) + s.phase.inHand.map Request.target := by
  cases hphase : s.phase with
  | accept =>
    refine ⟨[], s, .nil, ?_, hphase, rfl, ?_⟩
    · intro a ha
      cases ha
    · exact (add_zero _).symm
  | received m =>
    rw [hphase] at hup
    obtain ⟨x, hx, hlisten⟩ := hup m.req (Multiset.mem_singleton_self _)
    obtain ⟨v, hv, hproc⟩ := Km2.processes up (ρ := ρ) hs hphase hx
    obtain ⟨reply, hview, hsend⟩ := Km2.sends L gcksKey
      (s := { s with phase := .processed m v, olds := v.olds }) rfl hv hx hlisten r
    refine ⟨_, _, (Run.nil.snoc hproc).snoc hsend, ?_, rfl, rfl, ?_⟩
    · intro a ha
      rcases List.mem_pair.mp ha with rfl | rfl <;> trivial
    · show (reply ::ₘ s.sent).map _ = _
      rw [Multiset.map_cons, hview, Phase.inHand, Multiset.map_singleton, hx, add_comm,
        Multiset.singleton_add]
  | processed m v =>
    rw [hphase] at hup
    obtain ⟨x, hx, hlisten⟩ := hup m.req (Multiset.mem_singleton_self _)
    obtain ⟨reply, hview, hsend⟩ := Km2.sends L gcksKey hphase (hs.gcks2.processed m v hphase) hx
      hlisten r
    refine ⟨_, _, Run.nil.snoc hsend, ?_, rfl, rfl, ?_⟩
    · intro a ha
      rw [List.mem_singleton.mp ha]
      trivial
    · show (reply ::ₘ s.sent).map _ = _
      rw [Multiset.map_cons, hview, Phase.inHand, Multiset.map_singleton, hx, add_comm,
        Multiset.singleton_add]
  | stopped => exact absurd hphase hp

/-- From `accept` gcks2 forwards all messages under way, if their targets listen; by induction
on the messages. -/
theorem Km2.drains (hL : L.Lawful) (r : ρ) (q : Multiset InFlight) {s : Km2}
    (hs : s.Inv L gcksKey) (hp : s.phase = .accept) (hq : s.inflight = q)
    (hup : ∀ m ∈ q, Listens up m.req.target) :
    ∃ acts t, Run (Km2.UpStep L gcksKey up) s acts t ∧ (∀ a ∈ acts, a.Fits L gcksKey) ∧
      t.sent.map (fun m => some m.view) =
        s.sent.map (fun m => some m.view) + q.map fun m => m.req.target := by
  induction q using Multiset.induction generalizing s with
  | empty =>
    refine ⟨[], s, .nil, ?_, ?_⟩
    · intro a ha
      cases ha
    · rw [Multiset.map_zero, add_zero]
  | cons m q ih =>
    have htake : Km2.UpStep L gcksKey up s (.receive m)
        { s with inflight := q, phase := .received m } :=
      ⟨.receive s m q hp hq, trivial⟩
    have hs₁ := (Km2.step_relay hL (a := .receive m) trivial hs htake.1).1
    obtain ⟨acts, t, run, hfit, hpt, hin, hsent⟩ := Km2.finishes up hs₁ r
      (by rintro ⟨⟩) (by
        intro req hreq
        rw [Multiset.mem_singleton.mp hreq]
        exact hup m (Multiset.mem_cons_self m q))
    have hs₂ := (Km2.upRun_relay hL hs₁ run hfit).1
    obtain ⟨acts', u, run', hfit', hsent'⟩ := ih hs₂ hpt hin fun n hn =>
      hup n (Multiset.mem_cons_of_mem hn)
    refine ⟨_, u, (Run.nil.snoc htake).append (run.append run'), ?_, ?_⟩
    · intro a ha
      rcases List.mem_append.mp ha with ha | ha
      · rw [List.mem_singleton.mp ha]
        trivial
      rcases List.mem_append.mp ha with ha | ha
      · exact hfit a ha
      · exact hfit' a ha
    · rw [hsent', hsent, Multiset.map_cons, ← Multiset.singleton_add, ← add_assoc]
      rfl

variable (up) in
/-- **What can still be delivered.**  In every reachable state in which gcks2 runs: all
requests under way, exactly when each of them has a target, and it listens. -/
theorem km2_drains_iff [Nonempty ρ] (hL : L.Lawful) {acts : List (Act ρ)} {s : Km2}
    (run : Run (Km2.Step L gcksKey) {} acts s) (hfit : ∀ a ∈ acts, a.Fits L gcksKey)
    (hp : s.phase ≠ .stopped) :
    (∃ (acts' : List (Act ρ)) (t : Km2), Run (Km2.UpStep L gcksKey up) s acts' t ∧
      (∀ a ∈ acts', a.Fits L gcksKey) ∧
      s.sent.map (fun m => some m.view) + s.underWay.map Request.target ≤
        t.sent.map fun m => some m.view) ↔
      ∀ req ∈ s.underWay, ∃ name host key, req.target = some (name, host, key) ∧ up host := by
  have hs := (Km2.run_relay hL run hfit).1
  have hlisten : (∀ req ∈ s.underWay, Listens up req.target) ↔
      ∀ req ∈ s.underWay, ∃ name host key, req.target = some (name, host, key) ∧ up host := by
    refine forall₂_congr fun req _ => ?_
    simp [Listens]
  rw [← hlisten]
  constructor
  · rintro ⟨acts', t, run', hfit', hle⟩ req hreq
    obtain ⟨-, bs, hrelay⟩ := Km2.upRun_relay hL hs run' hfit'
    obtain ⟨new, hnew, hall⟩ := Relay.delivered_run hrelay
    change t.sent.map (fun m => some m.view) = s.sent.map (fun m => some m.view) + new at hnew
    rw [hnew, add_le_add_iff_left] at hle
    exact hall req.target (Multiset.mem_of_le hle (Multiset.mem_map_of_mem _ hreq))
  · intro hup
    obtain ⟨r⟩ := ‹Nonempty ρ›
    obtain ⟨acts₁, t, run₁, hfit₁, hpt, hin, hsent⟩ := Km2.finishes up hs r hp
      fun req hreq => hup req (Multiset.mem_add.mpr (.inr hreq))
    have ht := (Km2.upRun_relay hL hs run₁ hfit₁).1
    obtain ⟨acts₂, u, run₂, hfit₂, hsent₂⟩ := Km2.drains hL r s.inflight ht hpt hin fun m hm =>
      hup m.req (Multiset.mem_add.mpr (.inl (Multiset.mem_map_of_mem _ hm)))
    refine ⟨acts₁ ++ acts₂, u, run₁.append run₂, ?_, ?_⟩
    · intro a ha
      rcases List.mem_append.mp ha with ha | ha
      · exact hfit₁ a ha
      · exact hfit₂ a ha
    · rw [hsent₂, hsent, Km2.underWay, Multiset.map_add, Multiset.map_map, add_assoc,
        add_comm (s.phase.inHand.map Request.target)]
      exact le_refl _

/-! ## Blocking -/

/-- **One client that does not listen blocks all others.**  From the moment gcks2 has its
message, as long as gcks2's other network calls succeed, no run takes the message from it,
delivers anything to anybody or takes a message from those in flight. -/
theorem km2_blocked (hL : L.Lawful) {acts : List (Act ρ)} {s : Km2}
    (run : Run (Km2.Step L gcksKey) {} acts s) (hfit : ∀ a ∈ acts, a.Fits L gcksKey)
    {req : Request} (hreq : req ∈ s.phase.inHand) {name host key : Bytes}
    (htarget : req.target = some (name, host, key)) (hdown : ¬up host)
    {acts' : List (Act ρ)} {t : Km2} (run' : Run (Km2.UpStep L gcksKey up) s acts' t)
    (hfit' : ∀ a ∈ acts', a.Fits L gcksKey) :
    t.phase.inHand.map Request.target = {some (name, host, key)} ∧
    t.sent.map ClientMessage.view = s.sent.map ClientMessage.view ∧ s.inflight ≤ t.inflight := by
  have hs := (Km2.run_relay hL run hfit).1
  have hx : ¬Listens up (some (name, host, key)) := by
    rintro ⟨y, ⟨⟩, hup⟩
    exact hdown hup
  have hheld : s.relay.held = {some (name, host, key)} := by
    show s.phase.inHand.map Request.target = _
    rw [← htarget]
    cases hphase : s.phase with
    | accept | stopped =>
      rw [hphase] at hreq
      cases Multiset.notMem_zero _ hreq
    | received m | processed m v =>
      rw [hphase] at hreq
      rw [Multiset.mem_singleton.mp hreq]
      rfl
  have hblocked : ∀ {as : List (Act ρ)} {u : Km2}, Run (Km2.UpStep L gcksKey up) s as u →
      (∀ a ∈ as, a.Fits L gcksKey) → u.relay.held = {some (name, host, key)} ∧
        u.relay.delivered = s.relay.delivered := by
    intro as u run hfit
    obtain ⟨-, bs, hrelay⟩ := Km2.upRun_relay hL hs run hfit
    obtain ⟨h, hd, -⟩ := Relay.blocked hheld hx (Option.some_ne_none _) hrelay
    exact ⟨h, hd⟩
  refine ⟨(hblocked run' hfit').1, ?_, ?_⟩
  · refine Multiset.map_injective (Option.some_injective _) ?_
    rw [Multiset.map_map, Multiset.map_map]
    exact (hblocked run' hfit').2
  · induction run' with
    | nil => exact le_refl _
    | @snoc acts' t a u run' h ih =>
      have hfit'' : ∀ a ∈ acts', a.Fits L gcksKey := fun b hb =>
        hfit' b (List.mem_append_left _ hb)
      have hle := ih hfit''
      cases h.1 with
      | serve q text fds ending h => exact hle.trans (Multiset.le_cons_self _ _)
      | receive m rest hp hm =>
        -- it would have to be at `accept`
        have hhand : t.phase.inHand.map Request.target = _ := (hblocked run' hfit'').1
        rw [hp] at hhand
        exact absurd hhand.symm (Multiset.singleton_ne_zero _)
      | gcks2 a out g h => cases out <;> exact hle

end

/-- A request served, and nothing else. -/
theorem serve_run {req : Request} (hfit : (served req).Fits plainMikey [7, 0, 9]) :
    ∃ m : InFlight, m.req = req ∧ Run (Km2.Step plainMikey [7, 0, 9]) {} [.serve (served req)]
      { served := {req}, inflight := {m} } := by
  obtain ⟨m, -, hc⟩ := GcksReq.call_of_up rfl hfit
  exact ⟨⟨req, m.bytes⟩, rfl, Run.nil.snoc (.serve {} (served req) m.bytes 0 .fallsOff hc)⟩

/-- alice's key can be delivered if a client listens on alice's host. -/
theorem km2_drains_alice :
    ∃ (s t : Km2) (acts : List (Act Bytes)), s.inflight.map (·.req) = {aliceRequest} ∧
      Run (Km2.UpStep plainMikey [7, 0, 9] (· = ascii "127.0.0.1")) s acts t ∧
      {some aliceRequest.view} ≤ t.sent.map fun m => some m.view := by
  obtain ⟨m, hm, run⟩ := serve_run aliceRequest_fits
  obtain ⟨acts, t, run', -, hle⟩ := (km2_drains_iff (· = ascii "127.0.0.1")
    plainMikey_lawful run (by
      intro a ha
      rw [List.mem_singleton.mp ha]
      exact aliceRequest_fits) (by rintro ⟨⟩)).mpr (by
    intro req hreq
    have : req = aliceRequest := by simpa [Km2.underWay, Phase.inHand, hm] using hreq
    rw [this]
    exact ⟨_, _, _, aliceRequest_wellNamed.target_eq, by decide⟩)
  refine ⟨_, t, acts, ?_, run', ?_⟩
  · rw [Multiset.map_singleton, hm]
  · simpa [Km2.underWay, Phase.inHand, hm, aliceRequest_wellNamed.target_eq] using hle

/-- No client listens on alice's host: bob's message stays where it is. -/
theorem km2_blocked_alice :
    ∃ (s t : Km2) (acts : List (Act Bytes)), aliceRequest ∈ s.phase.inHand ∧
      s.inflight.map (·.req) = {bobRequest} ∧
      Run (Km2.UpStep plainMikey [7, 0, 9] (· = ascii "10.0.0.2")) s acts t ∧ acts ≠ [] ∧
      t.phase.inHand.map Request.target = {some aliceRequest.view} ∧
      t.sent.map ClientMessage.view = s.sent.map ClientMessage.view ∧
      s.inflight ≤ t.inflight := by
  obtain ⟨m, hm, run⟩ := serve_run aliceRequest_fits
  obtain ⟨m', -, hc⟩ := GcksReq.call_of_up rfl bobRequest_fits
  have run := (run.snoc (.serve _ (served bobRequest) m'.bytes 0 .fallsOff hc)).snoc
    (.receive _ m {⟨bobRequest, m'.bytes⟩} rfl
      (Multiset.cons_swap ⟨bobRequest, m'.bytes⟩ m 0))
  have hfit : ∀ a ∈ [Act.serve (served aliceRequest), .serve (served bobRequest), .receive m],
      a.Fits plainMikey [7, 0, 9] := by
    intro a ha
    simp only [List.mem_cons, List.not_mem_nil, or_false] at ha
    rcases ha with rfl | rfl | rfl
    · exact aliceRequest_fits
    · exact bobRequest_fits
    · trivial
  have htarget : m.req.target = some aliceRequest.view := by
    rw [hm]
    exact aliceRequest_wellNamed.target_eq
  obtain ⟨v, -, hprocess⟩ := Km2.processes (ρ := Bytes) (· = ascii "10.0.0.2")
    (Km2.run_relay plainMikey_lawful run hfit).1 rfl htarget
  have hreq : aliceRequest ∈ Phase.inHand (.received m) := by
    rw [← hm]
    exact Multiset.mem_singleton_self _
  refine ⟨_, _, _, hreq, rfl, Run.nil.snoc hprocess, by simp, ?_⟩
  refine km2_blocked plainMikey_lawful run hfit hreq aliceRequest_wellNamed.target_eq (by decide)
    (Run.nil.snoc hprocess) ?_
  intro a ha
  rw [List.mem_singleton.mp ha]
  trivial

end KerberizedMikey
