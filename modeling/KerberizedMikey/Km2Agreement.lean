import KerberizedMikey.Km2Binding
import KerberizedMikey.AuthGate

/-!
# Model 2 against an attacker

Any text may reach gcks2, and any text a waiting sclient2: messages that are lost,
repeated, late, cut short, altered or sent to the wrong client, and texts of an attacker who
has the keys `Known`.  He cannot make a text that authenticates under another key.  gcks2 acts
on texts that do not authenticate as well, so he can make it send messages under keys that it
takes from them, or end it (gcks2_run.sh starts it again); but

    a client installs from a text that authenticates under a key the attacker lacks  →
      the TGK is one that gcks2 made for this key                         (km2_agreement)
    gcks2 had this key from a text that authenticates  →
      the KDC issued it, and gcks2 sent to the target of its request

so name and address are bound to the key just if gcks2's own message authenticated.
-/

namespace KerberizedMikey

open CLib

/-- A message of gcks2, the text it had received, and the randomness used. -/
structure Forwarded (ρ : Type) where
  received : Bytes
  r : ρ
  m : ClientMessage

/-- What a client with this session key has installed from a text. -/
structure Installed where
  sessionKey : Bytes
  text : Bytes
  ka : KeyAgreementPSK

/-- KDC, gcks2 and clients; what was made so far stays in the attacker's hands. -/
structure Km2Net (ρ : Type) extends Gcks2 Bytes where
  /-- The messages of the KDC, with the requests they were made for. -/
  kdc : List InFlight := []
  forwarded : List (Forwarded ρ) := []
  installed : List Installed := []

namespace Km2Net

inductive Act (ρ : Type)
  | serve (q : GcksReq ρ)
  | receive (text : Bytes)
  | gcks2 (a : Gcks2.Act ρ)
  | restart
  | install (sessionKey text : Bytes)

section
variable {ρ : Type} (L : LibMikey ρ) (gcksKey : Bytes) (Known : Bytes → Prop)

/-- After a call of gcks2. -/
def after (s : Km2Net ρ) (g : Gcks2 Bytes) : Gcks2.Out ρ Bytes → Km2Net ρ
  | .keeps => { s with toGcks2 := g }
  | .sends text r m => { s with toGcks2 := g, forwarded := ⟨text, r, m⟩ :: s.forwarded }
  | .drops _ => { s with toGcks2 := g }

/-- Without gcks2's key nobody but the KDC makes a text that authenticates under it. -/
def Genuine (kdc : List InFlight) (text : Bytes) : Prop :=
  ¬Known gcksKey → (L.receive gcksKey text).1 = true → ∃ q ∈ kdc, q.text = text

/-- Nor does anybody but gcks2 without the client's key, which is as long as that of the
message. -/
def Unforged (forwarded : List (Forwarded ρ)) (sessionKey text : Bytes) : Prop :=
  ¬Known sessionKey → (L.receive sessionKey text).1 = true →
    ∃ f ∈ forwarded, f.m.text = text ∧ sessionKey.length = f.m.psk.length

inductive Step : Km2Net ρ → Act ρ → Km2Net ρ → Prop
  | serve (s : Km2Net ρ) (q : GcksReq ρ) (text : Bytes) (fds : Nat) (ending : CallEnd)
      (h : q.call L gcksKey = .ok ⟨some text, fds, ending⟩) :
      Step s (.serve q) { s with kdc := ⟨q.req, text⟩ :: s.kdc }
  | receive (s : Km2Net ρ) (text : Bytes) (hp : s.phase = .accept)
      (h : Genuine L gcksKey Known s.kdc text) :
      Step s (.receive text) { s with phase := .received text }
  | gcks2 (s : Km2Net ρ) (a : Gcks2.Act ρ) (out : Gcks2.Out ρ Bytes) (g : Gcks2 Bytes)
      (h : Gcks2.Step L gcksKey id s.toGcks2 a out g) : Step s (.gcks2 a) (s.after g out)
  /-- However gcks2 ended (a fault, an exit, a kill), gcks2_run.sh starts it again. -/
  | restart (s : Km2Net ρ) : Step s .restart { s with toGcks2 := {} }
  | install (s : Km2Net ρ) (sessionKey text : Bytes) (ka : KeyAgreementPSK)
      (hmac : Unforged L Known s.forwarded sessionKey text)
      (h : installReply L sessionKey text = .ok ka) :
      Step s (.install sessionKey text)
        { s with installed := ⟨sessionKey, text, ka⟩ :: s.installed }

/-- The message of a served request fits. -/
def Act.Fits : Act ρ → Prop
  | .serve q => q.Fits L gcksKey
  | _ => True

end

end Km2Net

/-! ## What the programs put into a message -/

section
variable {ρ : Type} {L : LibMikey ρ} {gcksKey : Bytes}

theorem tgk_of_parseExtension {raw : RawMessage} {m : MikeyMessage}
    (h : parseExtension raw = .ok m) : m.tgk = raw.tgk := by
  obtain ⟨tgk, extension⟩ := raw
  cases extension with
  | none =>
    cases h
    rfl
  | some start =>
    obtain ⟨out, -, he⟩ := bind_eq_ok_iff.mp h
    cases he
    rfl

theorem tgk_of_setMikeyOffer {config : MikeyTestConfig} {m : MikeyMessage}
    {ka : KeyAgreementPSK} (h : setMikeyOffer config (some m) = .ok ka) : ka.tgk = m.tgk := by
  obtain ⟨tgk, extension⟩ := m
  cases extension with
  | none =>
    cases h
    rfl
  | some p =>
    rw [setMikeyOffer] at h
    by_cases ht : p.type = mikeyExtTypeKrb5Id
    · rw [if_pos ht] at h
      obtain ⟨connInfo, -, he⟩ := bind_eq_ok_iff.mp h
      cases he
      rfl
    · rw [if_neg ht] at h
      cases h
      rfl

/-- What a client installs is the TGK of the text. -/
theorem tgk_of_installReply {sessionKey text : Bytes} {ka : KeyAgreementPSK}
    (h : installReply L sessionKey text = .ok ka) :
    ∃ raw, (L.receive sessionKey text).2 = some raw ∧ ka.tgk = raw.tgk := by
  obtain ⟨⟨ok, message⟩, ha, ho⟩ := bind_eq_ok_iff.mp h
  rcases hr : L.receive sessionKey text with ⟨ok', _ | raw⟩
  · simp only [responderAuthenticate, hr] at ha
    cases ha
    cases ho
  · refine ⟨raw, rfl, ?_⟩
    simp only [responderAuthenticate, hr] at ha
    obtain ⟨m, hp, he⟩ := bind_eq_ok_iff.mp ha
    cases he
    exact (tgk_of_setMikeyOffer ho).trans (tgk_of_parseExtension hp)

/-- gcks2 takes that of its text for the session key. -/
theorem sessionKey_of_process {text : Bytes} {olds : Option Bytes} {v : GcksVars}
    (h : processMikeyMessage L gcksKey text { olds } = (v, none)) :
    ∃ raw, (L.receive gcksKey text).2 = some raw ∧ v.sessionKey = some raw.tgk := by
  rcases processMikeyMessage_of_installReply L gcksKey text olds with ⟨ka, hi, hk⟩ | ⟨f, -, he⟩
  · obtain ⟨raw, hr, ht⟩ := tgk_of_installReply hi
    rw [h] at hk
    exact ⟨raw, hr, by rw [← ht]; exact hk⟩
  · rw [h] at he
    cases he

theorem eq_some_of_deref {p : Option Bytes} {s : Bytes} (h : deref p = .ok s) : p = some s := by
  cases p with
  | none => cases h
  | some t =>
    cases h
    rfl

/-- The message for a client has a fresh TGK under the session key. -/
theorem text_of_clientMessage {r : ρ} {clientName cAddr sessionKey : Option Bytes}
    {m : ClientMessage} (h : clientMessage L r clientName cAddr sessionKey = .ok m) :
    sessionKey = some m.psk ∧
      m.text = (L.initMessage m.psk (L.generateTgk r) none m.peerUri r).bytes := by
  obtain ⟨psk, hk, h⟩ := bind_eq_ok_iff.mp h
  -- the two names, copied and read again
  obtain ⟨name, -, h⟩ := bind_eq_ok_iff.mp h
  obtain ⟨addr, -, h⟩ := bind_eq_ok_iff.mp h
  obtain ⟨nameBuf, -, h⟩ := bind_eq_ok_iff.mp h
  obtain ⟨addrBuf, -, h⟩ := bind_eq_ok_iff.mp h
  obtain ⟨peerUri, -, h⟩ := bind_eq_ok_iff.mp h
  obtain ⟨text, ht, h⟩ := bind_eq_ok_iff.mp h
  obtain ⟨host, -, h⟩ := bind_eq_ok_iff.mp h
  cases h
  cases ht
  exact ⟨eq_some_of_deref hk, rfl⟩

theorem text_of_forward {v : GcksVars} {net : ClientNet} {r : ρ} {m : ClientMessage}
    (h : forward L net r v = .ok (.sent m)) :
    v.sessionKey = some m.psk ∧
      m.text = (L.initMessage m.psk (L.generateTgk r) none m.peerUri r).bytes := by
  obtain ⟨m', hm, h⟩ := bind_eq_ok_iff.mp h
  have heq : m' = m := by
    split at h
    · cases h
    split at h
    · cases h
    split at h
    · cases h
    · cases h
      rfl
  rw [← heq]
  exact text_of_clientMessage hm

/-- What gcks2 sends to a client has no extension. -/
theorem sendable_generateTgk (hL : L.Lawful) (r : ρ) : Sendable (L.generateTgk r) none where
  tgk := hL.generateTgk_length r
  extension ext he := by cases he

/-- The client that has the key installs that TGK. -/
theorem installReply_initMessage (hL : L.Lawful) (psk peerUri : Bytes) (r : ρ) :
    installReply L psk (L.initMessage psk (L.generateTgk r) none peerUri r).bytes =
      .ok ⟨L.generateTgk r, none⟩ := by
  obtain ⟨rest, hr⟩ := hL.receive_initMessage psk _ none peerUri r (sendable_generateTgk hL r)
  simp only [installReply, responderAuthenticate, hr, Option.map_none, parseExtension, bind,
    Except.bind]
  rfl

/-- A message opens under its PSK only, of all keys of this length, and the TGK is in it. -/
theorem psk_of_receive_initMessage (hL : L.Lawful) (hK : L.Keyed) {a psk tgk : Bytes}
    {extension : Option Bytes} {peerUri : Bytes} {r : ρ} {raw : RawMessage}
    (hsend : Sendable tgk extension) (hlen : a.length = psk.length)
    (h : L.receive a (L.initMessage psk tgk extension peerUri r).bytes = (true, some raw)) :
    a = psk ∧ raw.tgk = tgk := by
  have ha : a = psk := hK _ _ _ _ _ _ hsend hlen (congrArg Prod.fst h)
  obtain ⟨rest, hr⟩ := hL.receive_initMessage psk tgk extension peerUri r hsend
  rw [ha, hr] at h
  cases h
  exact ⟨ha, rfl⟩

/-- So a client that installs from an authentic message has its key and takes its TGK. -/
theorem ka_of_installReply_initMessage (hL : L.Lawful) (hK : L.Keyed) {a psk peerUri : Bytes}
    {r : ρ} {ka : KeyAgreementPSK} (hlen : a.length = psk.length)
    (ha : (L.receive a (L.initMessage psk (L.generateTgk r) none peerUri r).bytes).1 = true)
    (h : installReply L a (L.initMessage psk (L.generateTgk r) none peerUri r).bytes = .ok ka) :
    psk = a ∧ ka = ⟨L.generateTgk r, none⟩ := by
  have hpsk : a = psk := hK _ _ _ _ _ _ (sendable_generateTgk hL r) hlen ha
  rw [hpsk, installReply_initMessage hL] at h
  exact ⟨hpsk.symm, (Except.ok.inj h).symm⟩

end

/-! ## What stays true -/

namespace Km2Net

section
variable {ρ : Type} (L : LibMikey ρ) (gcksKey : Bytes) (Known : Bytes → Prop)

/-- The variables gcks2 has set for a text. -/
def Sets (kdc : List InFlight) (text : Bytes) (v : GcksVars) : Prop :=
  ¬Known gcksKey → (L.receive gcksKey text).1 = true → ∃ q ∈ kdc, q.text = text ∧ v.Binds q.req

/-- A message of gcks2: its text, and whom it is for. -/
structure Sends (kdc : List InFlight) (f : Forwarded ρ) : Prop where
  text : f.m.text = (L.initMessage f.m.psk (L.generateTgk f.r) none f.m.peerUri f.r).bytes
  target : ¬Known gcksKey → (L.receive gcksKey f.received).1 = true →
    ∃ q ∈ kdc, q.text = f.received ∧ q.req.sessionKey = f.m.psk ∧ q.req.target = some f.m.view

/-- What a client installs, and that a text under a key of its own came from gcks2. -/
structure Installs (forwarded : List (Forwarded ρ)) (e : Installed) : Prop where
  reply : installReply L e.sessionKey e.text = .ok e.ka
  source : Unforged L Known forwarded e.sessionKey e.text

structure Inv (s : Km2Net ρ) : Prop where
  kdc : ∀ q ∈ s.kdc, Carries L gcksKey q.req q.text
  received : ∀ text, s.phase = .received text → Genuine L gcksKey Known s.kdc text
  processed : ∀ text v, s.phase = .processed text v → Sets L gcksKey Known s.kdc text v
  forwarded : ∀ f ∈ s.forwarded, Sends L gcksKey Known s.kdc f
  installed : ∀ e ∈ s.installed, Installs L Known s.forwarded e

variable {L gcksKey Known}

theorem inv_init : Inv L gcksKey Known ({} : Km2Net ρ) where
  kdc q hq := by cases hq
  received text h := by cases h
  processed text v h := by cases h
  forwarded f hf := by cases hf
  installed e he := by cases he

/-! One more message of the KDC or of gcks2 leaves all this as it is. -/

section
variable {kdc : List InFlight} (q₀ : InFlight)

theorem Genuine.cons {text : Bytes} (h : Genuine L gcksKey Known kdc text) :
    Genuine L gcksKey Known (q₀ :: kdc) text := by
  intro hn ha
  obtain ⟨q, hq, he⟩ := h hn ha
  exact ⟨q, List.mem_cons_of_mem _ hq, he⟩

theorem Sets.cons {text : Bytes} {v : GcksVars} (h : Sets L gcksKey Known kdc text v) :
    Sets L gcksKey Known (q₀ :: kdc) text v := by
  intro hn ha
  obtain ⟨q, hq, he⟩ := h hn ha
  exact ⟨q, List.mem_cons_of_mem _ hq, he⟩

theorem Sends.cons {f : Forwarded ρ} (h : Sends L gcksKey Known kdc f) :
    Sends L gcksKey Known (q₀ :: kdc) f where
  text := h.text
  target hn ha := by
    obtain ⟨q, hq, he⟩ := h.target hn ha
    exact ⟨q, List.mem_cons_of_mem _ hq, he⟩

end

theorem Installs.cons {forwarded : List (Forwarded ρ)} (f₀ : Forwarded ρ) {e : Installed}
    (h : Installs L Known forwarded e) : Installs L Known (f₀ :: forwarded) e where
  reply := h.reply
  source hn ha := by
    obtain ⟨f, hf, he⟩ := h.source hn ha
    exact ⟨f, List.mem_cons_of_mem _ hf, he⟩

/-- gcks2 sets its variables from a text that could reach it. -/
theorem sets_of_process {kdc : List InFlight} (hk : ∀ q ∈ kdc, Carries L gcksKey q.req q.text)
    {text : Bytes} (hr : Genuine L gcksKey Known kdc text) {v : GcksVars} {olds : Option Bytes}
    (h : processMikeyMessage L gcksKey text { olds } = (v, none)) :
    Sets L gcksKey Known kdc text v := by
  intro hn ha
  obtain ⟨q, hq, rfl⟩ := hr hn ha
  rcases hk q hq { olds } with ⟨v', hv, hb⟩ | ⟨-, v', f, hv⟩
  all_goals rw [h] at hv; cases hv
  exact ⟨q, hq, rfl, hb⟩

/-- **One step**, of any of the parties or the attacker. -/
theorem inv_step (hL : L.Lawful) {s t : Km2Net ρ} {a : Act ρ} (ha : a.Fits L gcksKey)
    (hs : s.Inv L gcksKey Known) (h : Step L gcksKey Known s a t) : t.Inv L gcksKey Known := by
  obtain ⟨hkdc, hrec, hproc, hfwd, hinst⟩ := hs
  cases h with
  | serve q text fds ending h =>
    refine ⟨?_, ?_, ?_, ?_, hinst⟩
    · intro q' hq
      rcases List.mem_cons.mp hq with rfl | hq
      · exact carries_of_call hL ha h
      · exact hkdc q' hq
    · intro text' hp
      exact (hrec text' hp).cons _
    · intro text' v hp
      exact (hproc text' v hp).cons _
    · intro f hf
      exact (hfwd f hf).cons _
  | receive text hp h =>
    refine ⟨hkdc, ?_, ?_, hfwd, hinst⟩
    · rintro _ ⟨⟩
      exact h
    · rintro _ _ ⟨⟩
  | gcks2 a out g h =>
    cases h with
    | process text v hp h =>
      refine ⟨hkdc, ?_, ?_, hfwd, hinst⟩
      · rintro _ ⟨⟩
      · rintro _ _ ⟨⟩
        exact sets_of_process hkdc (hrec text hp) h
    | send text v net r m hp h =>
      obtain ⟨hkey, htext⟩ := text_of_forward h
      refine ⟨hkdc, ?_, ?_, ?_, ?_⟩
      · rintro _ ⟨⟩
      · rintro _ _ ⟨⟩
      · intro f hf
        rcases List.mem_cons.mp hf with rfl | hf
        · refine ⟨htext, ?_⟩
          intro hn hauth
          obtain ⟨q, hq, he, hb⟩ := hproc text v hp hn hauth
          have hpsk : q.req.sessionKey = m.psk := Option.some.inj (hb.sessionKey.symm.trans hkey)
          exact ⟨q, hq, he, hpsk, target_of_forward hb h⟩
        · exact hfwd f hf
      · intro e he
        exact (hinst e he).cons _
    | processFault | sendNoSocket | sendFault =>
      refine ⟨hkdc, ?_, ?_, hfwd, hinst⟩
      · rintro _ ⟨⟩
      · rintro _ _ ⟨⟩
  | restart =>
    refine ⟨hkdc, ?_, ?_, hfwd, hinst⟩
    · rintro _ ⟨⟩
    · rintro _ _ ⟨⟩
  | install sessionKey text ka hmac h =>
    refine ⟨hkdc, hrec, hproc, hfwd, ?_⟩
    intro e he
    rcases List.mem_cons.mp he with rfl | he
    · exact ⟨h, hmac⟩
    · exact hinst e he

theorem inv_run (hL : L.Lawful) {acts : List (Act ρ)} {s : Km2Net ρ}
    (run : Run (Step L gcksKey Known) {} acts s) (hfit : ∀ a ∈ acts, a.Fits L gcksKey) :
    s.Inv L gcksKey Known :=
  run.invariant (P := Act.Fits L gcksKey) inv_init (fun _ _ _ ha hs h => inv_step hL ha hs h) hfit

end

end Km2Net

/-! ## Agreement -/

section
variable {ρ : Type} {L : LibMikey ρ} {gcksKey : Bytes} {Known : Bytes → Prop}

/-- **Key agreement.**  Whatever reaches gcks2 and the clients: what is installed from a
text that authenticates under a key the attacker lacks is a TGK that gcks2 made for this
key.  If gcks2's own text authenticated, under a key that the attacker lacks too, then the KDC
had issued the client's key in a request, and gcks2's message went to its target. -/
theorem km2_agreement (hL : L.Lawful) (hK : L.Keyed) {acts : List (Km2Net.Act ρ)}
    {s : Km2Net ρ} (run : Run (Km2Net.Step L gcksKey Known) {} acts s)
    (hfit : ∀ a ∈ acts, a.Fits L gcksKey) {e : Installed} (he : e ∈ s.installed)
    (hn : ¬Known e.sessionKey) (ha : (L.receive e.sessionKey e.text).1 = true) :
    ∃ f ∈ s.forwarded, f.m.text = e.text ∧ f.m.psk = e.sessionKey ∧
      e.ka = ⟨L.generateTgk f.r, none⟩ ∧
      (¬Known gcksKey → (L.receive gcksKey f.received).1 = true →
        ∃ q ∈ s.kdc, q.text = f.received ∧ q.req.sessionKey = e.sessionKey ∧
          q.req.target = some f.m.view ∧ (q.req.WellNamed → f.m.view = q.req.view)) := by
  have hs := Km2Net.inv_run hL run hfit
  obtain ⟨hreply, hsource⟩ := hs.installed e he
  obtain ⟨f, hf, htext, hlen⟩ := hsource hn ha
  obtain ⟨hinit, htarget⟩ := hs.forwarded f hf
  rw [← htext, hinit] at hreply ha
  obtain ⟨hpsk, hka⟩ := ka_of_installReply_initMessage hL hK hlen ha hreply
  refine ⟨f, hf, htext, hpsk, hka, fun hg hauth => ?_⟩
  obtain ⟨q, hq, hqtext, hkey, hview⟩ := htarget hg hauth
  refine ⟨q, hq, hqtext, hkey.trans hpsk, hview, fun hnamed => ?_⟩
  rw [hnamed.target_eq] at hview
  exact (Option.some.inj hview).symm

/-- A request on its way to its client, with a working network. -/
def Km2Net.delivery (q : GcksReq ρ) (text reply : Bytes) : List (Km2Net.Act ρ) :=
  [.serve q, .receive text, .gcks2 .process, .gcks2 (.send ClientNet.up q.r),
    .install q.req.sessionKey reply]

theorem Km2Net.delivery_fits {q : GcksReq ρ} (hfit : q.Fits L gcksKey) (text reply : Bytes) :
    ∀ a ∈ delivery q text reply, a.Fits L gcksKey := by
  intro a ha
  simp only [delivery, List.mem_cons, List.not_mem_nil, or_false] at ha
  rcases ha with rfl | rfl | rfl | rfl | rfl
  · exact hfit
  all_goals trivial

variable (Known) in
/-- Nothing in the way, the client of a request installs from a text under its own key. -/
theorem Km2Net.installs (hL : L.Lawful) {q : GcksReq ρ} (hnet : q.net = KdcNet.up)
    (hfit : q.Fits L gcksKey) (hnamed : q.req.WellNamed) :
    ∃ (text reply : Bytes) (s : Km2Net ρ) (e : Installed),
      Run (Km2Net.Step L gcksKey Known) {} (delivery q text reply) s ∧
      s.kdc = [⟨q.req, text⟩] ∧ e ∈ s.installed ∧ e.sessionKey = q.req.sessionKey ∧
      (L.receive e.sessionKey e.text).1 = true := by
  obtain ⟨km, hm, hcall⟩ := GcksReq.call_of_up hnet hfit
  obtain ⟨v, hv, hprocess⟩ := Gcks2.processes (ρ := ρ) id (g := ⟨.received km.bytes, none⟩) rfl
    (carries_of_message hL hm) hnamed.target_eq
  obtain ⟨m, hview, -, hsend⟩ := Gcks2.sends L gcksKey id
    (g := ⟨.processed km.bytes v, v.olds⟩) rfl hv hnamed.target_eq q.r
  have hpsk : m.psk = q.req.sessionKey := congrArg (·.2.2) hview
  have htext : m.text = (L.initMessage m.psk (L.generateTgk q.r) none m.peerUri q.r).bytes := by
    cases hsend with
    | send _ _ _ _ _ hp h =>
      cases hp
      exact (text_of_forward h).2
  obtain ⟨rest, hauth⟩ := hL.receive_initMessage m.psk _ none m.peerUri q.r
    (sendable_generateTgk hL q.r)
  rw [← htext, hpsk] at hauth
  have hinst := installReply_initMessage hL m.psk m.peerUri q.r
  rw [← htext, hpsk] at hinst
  have run := (((((@Run.nil _ _ (Km2Net.Step L gcksKey Known) ({} : Km2Net ρ)).snoc
    (.serve {} q km.bytes 0 .fallsOff hcall)).snoc
    (.receive _ km.bytes rfl fun _ _ => ⟨_, List.mem_singleton_self _, rfl⟩)).snoc
    (.gcks2 _ _ .keeps _ hprocess)).snoc (.gcks2 _ _ (.sends km.bytes q.r m) _ hsend)).snoc
    (.install _ q.req.sessionKey m.text _
      (fun _ _ => ⟨_, List.mem_cons_self, rfl, by rw [← hpsk]⟩) hinst)
  exact ⟨km.bytes, m.text, _, ⟨q.req.sessionKey, m.text, _⟩, run, rfl, List.mem_cons_self, rfl,
    by rw [hauth]⟩

end

/-- alice, with an attacker who has a key of his own. -/
theorem km2_agreement_alice :
    ∃ (text reply : Bytes) (s : Km2Net Bytes) (e : Installed) (f : Forwarded Bytes),
      Run (Km2Net.Step plainMikey [7, 0, 9] (· = [6, 6, 6])) {}
        (Km2Net.delivery (served aliceRequest) text reply) s ∧
      e ∈ s.installed ∧ f ∈ s.forwarded ∧ e.sessionKey = [1, 0, 2] ∧
      e.ka = ⟨plainMikey.generateTgk f.r, none⟩ := by
  obtain ⟨text, reply, s, e, run, -, he, hkey, ha⟩ := Km2Net.installs (· = [6, 6, 6])
    plainMikey_lawful (q := served aliceRequest) rfl aliceRequest_fits aliceRequest_wellNamed
  have hkey : e.sessionKey = [1, 0, 2] := hkey
  obtain ⟨f, hf, -, -, hka, -⟩ := km2_agreement plainMikey_lawful plainMikey_keyed run
    (Km2Net.delivery_fits aliceRequest_fits text reply) he (by rw [hkey]; decide) ha
  exact ⟨text, reply, s, e, f, run, he, hf, hkey, hka⟩

end KerberizedMikey
