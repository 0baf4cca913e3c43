import KerberizedMikey.ConnInfo

/-!
# The loop of gcks2

gcks2 takes one message at a time: `process_mikey_message`, then `send_mikey_message`,
whose connect loop may never end.  What it may be given for a message is left open (`μ`);
`Gcks2.Out` says what became of the one in hand.

On a message that the KDC made for a request, whatever the tokenizer still holds
(`Carries`), gcks2 turns to the client that the first two fields of the request's `connInfo`
name, with the session key of its ticket:

    req.target = some (name, host, key)  →  these are name, host and PSK of what is sent
    req.target = none                    →  gcks2 reads past a buffer
                                                      (carries_of_call, forward_of_binds)

So what a call can do with such a message depends on the target and the network alone
(`Gcks2.step_cases`).
-/

namespace KerberizedMikey

open CLib

/-- Where gcks2 is. -/
inductive Phase (μ : Type)
  /-- At `accept`. -/
  | accept
  /-- The message is in `recv_data`. -/
  | received (m : μ)
  /-- After `process_mikey_message`. -/
  | processed (m : μ) (v : GcksVars)
  /-- The process has died. -/
  | stopped

/-- The process; `olds` is the tokenizer state it keeps between passes. -/
structure Gcks2 (μ : Type) where
  phase : Phase μ := .accept
  olds : Option Bytes := none

namespace Gcks2

inductive Act (ρ : Type)
  | process
  | send (net : ClientNet) (r : ρ)

/-- What a call has done with the message in hand. -/
inductive Out (ρ μ : Type)
  | keeps
  | sends (m : μ) (r : ρ) (reply : ClientMessage)
  /-- The pass ends without a message to the client. -/
  | drops (m : μ)

/-- One of the two calls of a pass; a fault ends the process. -/
inductive Step {ρ μ : Type} (L : LibMikey ρ) (gcksKey : Bytes) (text : μ → Bytes) :
    Gcks2 μ → Act ρ → Out ρ μ → Gcks2 μ → Prop
  | process (g : Gcks2 μ) (m : μ) (v : GcksVars) (hp : g.phase = .received m)
      (h : processMikeyMessage L gcksKey (text m) { olds := g.olds } = (v, none)) :
      Step L gcksKey text g .process .keeps ⟨.processed m v, v.olds⟩
  | processFault (g : Gcks2 μ) (m : μ) (v : GcksVars) (f : Fault) (hp : g.phase = .received m)
      (h : processMikeyMessage L gcksKey (text m) { olds := g.olds } = (v, some f)) :
      Step L gcksKey text g .process (.drops m) ⟨.stopped, g.olds⟩
  | send (g : Gcks2 μ) (m : μ) (v : GcksVars) (net : ClientNet) (r : ρ) (reply : ClientMessage)
      (hp : g.phase = .processed m v) (h : forward L net r v = .ok (.sent reply)) :
      Step L gcksKey text g (.send net r) (.sends m r reply) ⟨.accept, g.olds⟩
  | sendNoSocket (g : Gcks2 μ) (m : μ) (v : GcksVars) (net : ClientNet) (r : ρ)
      (hp : g.phase = .processed m v) (h : forward L net r v = .ok .noSocket) :
      Step L gcksKey text g (.send net r) (.drops m) ⟨.accept, g.olds⟩
  | sendFault (g : Gcks2 μ) (m : μ) (v : GcksVars) (net : ClientNet) (r : ρ) (f : Fault)
      (hp : g.phase = .processed m v) (h : forward L net r v = .error f) :
      Step L gcksKey text g (.send net r) (.drops m) ⟨.stopped, g.olds⟩

end Gcks2

/-- A message of `do_gcks_req` and the request it was made for. -/
structure InFlight where
  req : Request
  text : Bytes

def ClientNet.up : ClientNet := ⟨true, fun _ => true, true⟩

/-- The triple a message to a client carries: `peerUri`, `gethostbyname`'s host, PSK. -/
def ClientMessage.view (m : ClientMessage) : Bytes × Bytes × Bytes := (m.peerUri, m.host, m.psk)

namespace Request

/-- What `parse_conn_info` makes of the request. -/
def parsed (req : Request) : Option ClientConnInfo :=
  match termFields bar req.text with
  | name :: addr :: port :: group :: _ => some ⟨some name, some addr, some group, atoi port⟩
  | _ => none

/-- Who gets the key, and where: the first two fields, if there are four and the second fits
`client_addr[30]`. -/
def target (req : Request) : Option (Bytes × Bytes × Bytes) :=
  match termFields bar req.text with
  | name :: host :: _ :: _ :: _ =>
    if host.length < 30 then some (name, host, req.sessionKey) else none
  | _ => none

theorem mem_termFields_text {req : Request} {t : Bytes} (h : t ∈ termFields bar req.text) :
    0 ∉ t ∧ t.length ≤ 1023 := by
  have hs := sublist_of_mem_fields bar (mem_fields_of_mem_termFields bar h)
  exact ⟨fun hz => req.not_mem_text (hs.subset hz), hs.length_le.trans req.length_text⟩

end Request

section
variable {ρ : Type} (L : LibMikey ρ) (gcksKey : Bytes)

/-- The loop's variables hold the key and the fields of one request. -/
structure GcksVars.Binds (v : GcksVars) (req : Request) : Prop where
  sessionKey : v.sessionKey = some req.sessionKey
  connInfo : req.parsed = some v.connInfo

/-- Processing the text binds the variables to the request, whatever came before, or finds
nobody to send to. -/
def Carries (req : Request) (text : Bytes) : Prop :=
  ∀ v, (∃ v', processMikeyMessage L gcksKey text v = (v', none) ∧ v'.Binds req) ∨
    (req.target = none ∧ ∃ v' f, processMikeyMessage L gcksKey text v = (v', some f))

variable {L gcksKey}

/-- **The KDC's message carries its request**, key and identity. -/
theorem carries_of_message (hL : L.Lawful) {q : GcksReq ρ} {m : CString}
    (hm : q.message L gcksKey = .ok m) : Carries L gcksKey q.req m.bytes := by
  obtain ⟨ext, hm', hsend, hext⟩ := q.message_ok L gcksKey
  rw [hm] at hm'
  cases hm'
  obtain ⟨rest, hrecv⟩ := hL.receive_initMessage gcksKey q.req.sessionKey (some ext)
    (ascii "KDC") q.r hsend
  obtain ⟨m, hp, ho⟩ := hext { psk := gcksKey } q.req.sessionKey rest
  have hauth : responderAuthenticate L { psk := gcksKey }
      (L.initMessage gcksKey q.req.sessionKey (some ext) (ascii "KDC") q.r).bytes =
      .ok (true, some m) := by
    simp only [responderAuthenticate, hrecv, Option.map_some, hp, bind, Except.bind]
    rfl
  intro v
  rcases parseConnInfo_spec q.req.text q.req.not_mem_text v.olds with
    ⟨name, addr, port, group, more, r, hf, hc⟩ | ⟨hlt, hc⟩
  · refine .inl ⟨⟨some q.req.sessionKey, ⟨some name, some addr, some group, atoi port⟩, some r⟩,
      ?_, rfl, ?_⟩
    · simp only [processMikeyMessage, hauth, ho, hc]
    · rw [Request.parsed, hf]
  · refine .inr ⟨?_, { v with sessionKey := some q.req.sessionKey }, .overRead, ?_⟩
    · unfold Request.target
      split
      · next hf =>
        rw [hf] at hlt
        simp only [List.length_cons] at hlt
        omega
      · rfl
    · simp only [processMikeyMessage, hauth, ho, hc]

/-- So does what a call sends. -/
theorem carries_of_call (hL : L.Lawful) {q : GcksReq ρ} (hfit : q.Fits L gcksKey) {text : Bytes}
    {fds : Nat} {ending : CallEnd} (h : q.call L gcksKey = .ok ⟨some text, fds, ending⟩) :
    Carries L gcksKey q.req text := by
  obtain ⟨m, hm, rfl⟩ := q.message_of_call hfit h
  exact carries_of_message hL hm

/-- **What forwarding bound variables can end in.** -/
theorem forward_of_binds {v : GcksVars} {req : Request} (hv : v.Binds req) (net : ClientNet)
    (r : ρ) :
    (∃ m : ClientMessage, req.target = some m.view ∧
      clientMessage L r v.connInfo.clientName v.connInfo.clientAddr v.sessionKey = .ok m ∧
      forward L net r v =
        if !net.socket then .ok .noSocket
        else if !net.resolves m.host then .error .nullDeref
        else if !net.connects then .ok .connecting
        else .ok (.sent m)) ∨
    (req.target = none ∧ forward L net r v = .error .overRead) := by
  obtain ⟨hkey, hconn⟩ := hv
  unfold Request.parsed at hconn
  split at hconn
  · next name addr port group more hf =>
    have hinfo : v.connInfo = ⟨some name, some addr, some group, atoi port⟩ :=
      (Option.some.inj hconn).symm
    obtain ⟨hn0, hnl⟩ := req.mem_termFields_text (t := name) (by simp [hf])
    obtain ⟨ha0, -⟩ := req.mem_termFields_text (t := addr) (by simp [hf])
    obtain ⟨text, hm⟩ := clientMessage_eq L r name addr req.sessionKey hn0 ha0 (by omega)
    by_cases hlen : addr.length < 30
    · rw [if_pos hlen] at hm
      refine .inl ⟨⟨req.sessionKey, name, addr, 9999, text⟩, ?_, ?_, ?_⟩
      · simp only [Request.target, hf, if_pos hlen]
        rfl
      · rw [hinfo, hkey, hm]
      · simp only [forward, hkey, hinfo, sendMikeyMessage, hm, bind, Except.bind]
        rfl
    · rw [if_neg hlen] at hm
      refine .inr ⟨?_, ?_⟩
      · simp only [Request.target, hf, if_neg hlen]
      · simp only [forward, hkey, hinfo, sendMikeyMessage, hm, bind, Except.bind]
  · cases hconn

/-- A message that is sent is for the target of the bound request. -/
theorem target_of_forward {v : GcksVars} {req : Request} (hv : v.Binds req) {net : ClientNet}
    {r : ρ} {m : ClientMessage} (h : forward L net r v = .ok (.sent m)) :
    req.target = some m.view := by
  rcases forward_of_binds (L := L) hv net r with ⟨m', htarget, -, hf⟩ | ⟨-, hf⟩
  · rw [hf] at h
    split at h
    · cases h
    split at h
    · cases h
    split at h
    · cases h
    · cases h
      exact htarget
  · rw [hf] at h
    cases h

/-! ## A pass over the KDC's message -/

namespace Gcks2

variable (L gcksKey) in
/-- What gcks2 knows of a message of the KDC. -/
structure Inv (g : Gcks2 InFlight) : Prop where
  received : ∀ m, g.phase = .received m → Carries L gcksKey m.req m.text
  processed : ∀ m v, g.phase = .processed m v → v.Binds m.req

theorem inv_accept {g : Gcks2 InFlight} (h : g.phase = .accept) : g.Inv L gcksKey where
  received m hm := by
    rw [h] at hm
    cases hm
  processed m v hm := by
    rw [h] at hm
    cases hm

/-- **What a call does with the KDC's message**: it binds the variables, sends to the target,
gives up for want of a socket, or dies, for want of a target or of a host's address. -/
theorem step_cases {g g' : Gcks2 InFlight} {a : Act ρ} {out : Out ρ InFlight}
    (hg : g.Inv L gcksKey) (h : Step L gcksKey InFlight.text g a out g') :
    (∃ m v, g.phase = .received m ∧ v.Binds m.req ∧ out = .keeps ∧
      g' = ⟨.processed m v, v.olds⟩) ∨
    (∃ m v net r reply, a = .send net r ∧ g.phase = .processed m v ∧
      m.req.target = some reply.view ∧ net.connects = true ∧
      clientMessage L r v.connInfo.clientName v.connInfo.clientAddr v.sessionKey = .ok reply ∧
      out = .sends m r reply ∧ g' = ⟨.accept, g.olds⟩) ∨
    (∃ m v net r, a = .send net r ∧ g.phase = .processed m v ∧ net.socket = false ∧
      out = .drops m ∧ g' = ⟨.accept, g.olds⟩) ∨
    ∃ m, (g.phase = .received m ∨ ∃ v, g.phase = .processed m v) ∧
      (m.req.target = none ∨ ∃ net r host, a = .send net r ∧ net.resolves host = false) ∧
      out = .drops m ∧ g' = ⟨.stopped, g.olds⟩ := by
  cases h with
  | process m v hp h =>
    rcases hg.received m hp { olds := g.olds } with ⟨v', hv, hb⟩ | ⟨-, v', f, hv⟩
    all_goals rw [hv] at h; cases h
    exact .inl ⟨m, v, hp, hb, rfl, rfl⟩
  | processFault m v f hp h =>
    rcases hg.received m hp { olds := g.olds } with ⟨v', hv, -⟩ | ⟨htarget, -⟩
    · rw [hv] at h
      cases h
    · exact .inr (.inr (.inr ⟨m, .inl hp, .inl htarget, rfl, rfl⟩))
  | send m v net r reply hp h =>
    rcases forward_of_binds (L := L) (hg.processed m v hp) net r with
      ⟨reply', htarget, hm, hf⟩ | ⟨-, hf⟩
    all_goals rw [hf] at h
    · split at h
      · cases h
      split at h
      · cases h
      split at h
      · cases h
      next hc =>
        cases h
        refine .inr (.inl ⟨m, v, net, r, reply, rfl, hp, htarget, ?_, hm, rfl, rfl⟩)
        simpa using hc
    · cases h
  | sendNoSocket m v net r hp h =>
    rcases forward_of_binds (L := L) (hg.processed m v hp) net r with
      ⟨reply, -, -, hf⟩ | ⟨-, hf⟩
    all_goals rw [hf] at h
    · split at h
      · next hs =>
        refine .inr (.inr (.inl ⟨m, v, net, r, rfl, hp, ?_, rfl, rfl⟩))
        simpa using hs
      split at h
      · cases h
      split at h <;> cases h
    · cases h
  | sendFault m v net r f hp h =>
    refine .inr (.inr (.inr ⟨m, .inr ⟨v, hp⟩, ?_, rfl, rfl⟩))
    rcases forward_of_binds (L := L) (hg.processed m v hp) net r with
      ⟨reply, -, -, hf⟩ | ⟨htarget, -⟩
    · rw [hf] at h
      split at h
      · cases h
      split at h
      · next hr => exact .inr ⟨net, r, reply.host, rfl, by simpa using hr⟩
      split at h <;> cases h
    · exact .inl htarget

theorem inv_step {g g' : Gcks2 InFlight} {a : Act ρ} {out : Out ρ InFlight}
    (hg : g.Inv L gcksKey) (h : Step L gcksKey InFlight.text g a out g') : g'.Inv L gcksKey := by
  rcases step_cases hg h with ⟨m, v, -, hb, -, rfl⟩ | ⟨-, -, -, -, -, -, -, -, -, -, -, rfl⟩ |
    ⟨-, -, -, -, -, -, -, -, rfl⟩ | ⟨-, -, -, -, rfl⟩
  · refine ⟨?_, ?_⟩
    · rintro _ ⟨⟩
    · rintro _ _ ⟨⟩
      exact hb
  · exact inv_accept rfl
  · exact inv_accept rfl
  · refine ⟨?_, ?_⟩
    · rintro _ ⟨⟩
    · rintro _ _ ⟨⟩

/-! One pass, with a network that works. -/

theorem processes {μ : Type} (text : μ → Bytes) {g : Gcks2 μ} {m : μ} {req : Request}
    {x : Bytes × Bytes × Bytes} (hp : g.phase = .received m)
    (hm : Carries L gcksKey req (text m)) (hx : req.target = some x) :
    ∃ v, v.Binds req ∧
      Step L gcksKey text g (.process : Act ρ) .keeps ⟨.processed m v, v.olds⟩ := by
  rcases hm { olds := g.olds } with ⟨v, hv, hb⟩ | ⟨hnone, -⟩
  · exact ⟨v, hb, .process g m v hp hv⟩
  · rw [hx] at hnone
    cases hnone

variable (L gcksKey) in
theorem sends {μ : Type} (text : μ → Bytes) {g : Gcks2 μ} {m : μ} {v : GcksVars} {req : Request}
    {x : Bytes × Bytes × Bytes} (hp : g.phase = .processed m v) (hv : v.Binds req)
    (hx : req.target = some x) (r : ρ) :
    ∃ reply, reply.view = x ∧
      clientMessage L r v.connInfo.clientName v.connInfo.clientAddr v.sessionKey = .ok reply ∧
      Step L gcksKey text g (.send ClientNet.up r) (.sends m r reply) ⟨.accept, g.olds⟩ := by
  rcases forward_of_binds (L := L) hv ClientNet.up r with ⟨reply, htarget, hm, hf⟩ | ⟨hnone, -⟩
  · rw [hx] at htarget
    exact ⟨reply, (Option.some.inj htarget).symm, hm, .send g m v ClientNet.up r reply hp hf⟩
  · rw [hx] at hnone
    cases hnone

end Gcks2

end

end KerberizedMikey
