import KerberizedMikey.Km1Agreement
import KerberizedMikey.CLib.Knowledge

/-!
# Model 1 against an attacker

The attacker of Km2Secrecy on the connections of gcks1: he reads every reply, opens those he
has a key for, and may put any bytes in place of a reply, or cut it anywhere.  He cannot make
a text that authenticates under a key he lacks, nor open a ticket.  If TGKs are fresh,

    he knows the TGK of a reply  ↔  he knew the session key of the ticket
    a client whose key he did not know installs from a text that authenticates under it  →
      the TGK is one gcks1 made for a ticket with this key, and he never gets it (km1_secrecy)
-/

namespace KerberizedMikey

open CLib

section
variable {σ π : Type}

/-- gcks1, the replies it has written, and what clients have installed. -/
structure Km1Net (K : Krb5Gcks1 σ π) (ρ : Type) where
  gcks : Gcks1 π
  replies : List (Connection K ρ × Bytes) := []
  installed : List Installed := []

namespace Km1Net

/-- A pass of gcks1, or what the client with this session key reads. -/
inductive Act (K : Krb5Gcks1 σ π) (ρ : Type)
  | serve (c : Connection K ρ)
  | read (sessionKey : Bytes) (es : List Event) (xmitlen : UInt8 × UInt8) (malloc : Malloc)

section
variable {ρ : Type} {K : Krb5Gcks1 σ π} (L : LibMikey ρ) (Known : Bytes → Prop)

/-- In one of the replies, behind its length, who has the key `a`, as long as that of the
ticket, finds `c`. -/
inductive Opens (replies : List (Connection K ρ × Bytes)) : Bytes → Bytes → Prop
  | reply (e : Connection K ρ × Bytes) (he : e ∈ replies) (ticket : Ticket π)
      (ht : e.1.Authenticates ticket) (a : Bytes) (raw : RawMessage)
      (hlen : a.length = ticket.session.length)
      (h : L.receive a (e.2.drop 2) = (true, some raw)) : Opens replies a raw.tgk

/-- What the attacker has by now, who had the keys `Known`. -/
def Knows (s : Km1Net K ρ) : Bytes → Prop := Learns Known (Opens L s.replies)

/-- Without the client's key nobody but gcks1 makes a text that authenticates under it, and
gcks1 does for a ticket whose key is as long. -/
def Unforged (s : Km1Net K ρ) (sessionKey text : Bytes) : Prop :=
  ¬s.Knows L Known sessionKey → (L.receive sessionKey text).1 = true →
    ∃ e ∈ s.replies, e.2.drop 2 = text ∧
      ∃ ticket, e.1.Authenticates ticket ∧ sessionKey.length = ticket.session.length

inductive Attack : Km1Net K ρ → Act K ρ → Km1Net K ρ → Prop
  | serve (s : Km1Net K ρ) (c : Connection K ρ) (reply : Bytes) (st : Gcks1 π)
      (h : s.gcks.pass K L c = .ok (.loops reply st)) :
      Attack s (.serve c) { s with gcks := st, replies := (c, reply) :: s.replies }
  | read (s : Km1Net K ρ) (sessionKey : Bytes) (es : List Event) (xmitlen : UInt8 × UInt8)
      (malloc : Malloc) (reply : Reply) (ka : KeyAgreementPSK)
      (hread : sclientReceive es xmitlen malloc = .ok (some reply))
      (hmac : Unforged L Known s sessionKey reply.text)
      (h : installReply L sessionKey reply.text = .ok ka) :
      Attack s (.read sessionKey es xmitlen malloc)
        { s with installed := ⟨sessionKey, reply.text, ka⟩ :: s.installed }

def Act.Ok : Act K ρ → Prop
  | .serve c => Answerable K L c
  | .read _ _ _ _ => True

/-- The TGKs that gcks1 makes. -/
def tgks (acts : List (Act K ρ)) : List Bytes :=
  acts.filterMap fun
    | .serve c => some (L.generateTgk c.r)
    | _ => none

/-- No TGK is made twice, or is the session key of a ticket, or one of the attacker's. -/
structure Fresh (acts : List (Act K ρ)) : Prop where
  nodup : (tgks L acts).Nodup
  sessionKeys : ∀ c, .serve c ∈ acts → ∀ ticket, c.Authenticates ticket →
    ticket.session ∉ tgks L acts
  unknown : ∀ k ∈ tgks L acts, ¬Known k

/-- What a client installs, and that a text under a key of its own came from gcks1. -/
structure Installs (s : Km1Net K ρ) (e : Installed) : Prop where
  reply : installReply L e.sessionKey e.text = .ok e.ka
  source : Unforged L Known s e.sessionKey e.text

/-- The replies of a run, and what was installed. -/
structure Made (acts : List (Act K ρ)) (s : Km1Net K ρ) : Prop where
  idle : s.gcks.Idle
  replies : ∀ e ∈ s.replies, IsReply K L e.1 e.2 ∧ .serve e.1 ∈ acts
  tgks : (s.replies.map fun e => L.generateTgk e.1.r).reverse.Sublist (tgks L acts)
  installed : ∀ e ∈ s.installed, Installs L Known s e

end

section
variable {ρ : Type} {K : Krb5Gcks1 σ π} {L : LibMikey ρ} {Known : Bytes → Prop}

/-- Behind the length, the message for the ticket. -/
theorem drop_of_isReply {c : Connection K ρ} {wire : Bytes} (h : IsReply K L c wire) :
    ∃ ticket, c.Authenticates ticket ∧ ∃ peerUri,
      wire.drop 2 = (L.initMessage ticket.session (L.generateTgk c.r) none peerUri c.r).bytes := by
  obtain ⟨ticket, ht, cname, m, hm, -, h2, hw⟩ := h
  rw [gcks1Reply_eq m h2] at hw
  cases hw
  refine ⟨ticket, ht, cname.bytes, ?_⟩
  rw [← hm]
  rfl

/-! ## The replies of a run -/

/-- With more replies the attacker knows no less. -/
theorem Knows.mono {s t : Km1Net K ρ} (hr : s.replies ⊆ t.replies) {k : Bytes}
    (h : s.Knows L Known k) : t.Knows L Known k := by
  refine Learns.mono (fun _ hk => hk) ?_ h
  rintro a _ ⟨e, he, ticket, ht, _, raw, hlen, ho⟩
  exact .reply e (hr he) ticket ht _ raw hlen ho

theorem Installs.mono {s t : Km1Net K ρ} (hr : s.replies ⊆ t.replies) {e : Installed}
    (h : Installs L Known s e) : Installs L Known t e where
  reply := h.reply
  source hn ha := by
    obtain ⟨e', he', htext⟩ := h.source (fun hs => hn (hs.mono hr)) ha
    exact ⟨e', hr he', htext⟩

theorem tgks_append (acts : List (Act K ρ)) (a : Act K ρ) :
    tgks L (acts ++ [a]) = tgks L acts ++ tgks L [a] :=
  List.filterMap_append

theorem made_step {acts : List (Act K ρ)} {s t : Km1Net K ρ} {a : Act K ρ} (ha : a.Ok L)
    (hs : Made L Known acts s) (h : Attack L Known s a t) : Made L Known (acts ++ [a]) t := by
  have hreplies : ∀ e ∈ s.replies, IsReply K L e.1 e.2 ∧ .serve e.1 ∈ acts ++ [a] :=
    fun e he => ⟨(hs.replies e he).1, List.mem_append_left _ (hs.replies e he).2⟩
  cases h with
  | serve c reply st h =>
    obtain ⟨hreply, hidle⟩ := isReply_of_pass hs.idle ha h
    refine ⟨hidle, ?_, ?_, ?_⟩
    · intro e he
      rcases List.mem_cons.mp he with rfl | he
      · exact ⟨hreply, by simp⟩
      · exact hreplies e he
    · rw [tgks_append, List.map_cons, List.reverse_cons]
      exact hs.tgks.append (List.Sublist.refl _)
    · intro e he
      exact (hs.installed e he).mono (List.subset_cons_self _ _)
  | read sessionKey es xmitlen malloc reply ka hread hmac h =>
    refine ⟨hs.idle, hreplies, ?_, ?_⟩
    · rw [tgks_append]
      exact hs.tgks.trans (List.sublist_append_left _ _)
    · intro e he
      rcases List.mem_cons.mp he with rfl | he
      · exact ⟨h, hmac⟩
      · exact (hs.installed e he).mono (s := s)
          (t := { s with installed := ⟨sessionKey, reply.text, ka⟩ :: s.installed })
          fun _ h => h

variable (K) in
/-- gcks1 when it first reaches its loop, and no client yet. -/
def start (stack : { block : Bytes // block.length = bufsiz }) : Km1Net K ρ :=
  { gcks := .start stack }

theorem made_run (stack : { block : Bytes // block.length = bufsiz }) {acts : List (Act K ρ)}
    {s : Km1Net K ρ} (run : Run (Attack L Known) (start K stack) acts s)
    (hok : ∀ a ∈ acts, a.Ok L) : Made L Known acts s := by
  refine run.trace_invariant (I := fun as t => (∀ a ∈ as, a.Ok L) → Made L Known as t) ?_ ?_ hok
  · intro _
    refine ⟨Gcks1.idle_start stack, ?_, List.Sublist.slnil, ?_⟩
    · rintro e ⟨⟩
    · rintro e ⟨⟩
  · intro as t a u ih h hok
    have ha : a.Ok L := hok a (by simp)
    exact made_step ha (ih fun b hb => hok b (List.mem_append_left _ hb)) h

/-! ## What the attacker can open -/

theorem opens_iff (hL : L.Lawful) (hK : L.Keyed) {acts : List (Act K ρ)} {s : Km1Net K ρ}
    (hs : Made L Known acts s) {a c : Bytes} :
    Opens L s.replies a c ↔ ∃ e ∈ s.replies, ∃ ticket, e.1.Authenticates ticket ∧
      ticket.session = a ∧ L.generateTgk e.1.r = c := by
  constructor
  · rintro ⟨e, he, ticket, ht, a, raw, hlen, h⟩
    obtain ⟨ticket', ht', peerUri, hdrop⟩ := drop_of_isReply (hs.replies e he).1
    cases ht.unique ht'
    rw [hdrop] at h
    obtain ⟨ha, hc⟩ := psk_of_receive_initMessage hL hK (sendable_generateTgk hL e.1.r) hlen h
    exact ⟨e, he, ticket, ht, ha.symm, hc.symm⟩
  · rintro ⟨e, he, ticket, ht, rfl, rfl⟩
    obtain ⟨ticket', ht', peerUri, hdrop⟩ := drop_of_isReply (hs.replies e he).1
    cases ht.unique ht'
    obtain ⟨rest, hr⟩ := hL.receive_initMessage ticket.session (L.generateTgk e.1.r) none
      peerUri e.1.r (sendable_generateTgk hL e.1.r)
    rw [← hdrop] at hr
    exact .reply e he ticket ht _ _ rfl hr

theorem Made.mem_tgks {acts : List (Act K ρ)} {s : Km1Net K ρ} (hs : Made L Known acts s)
    {e : Connection K ρ × Bytes} (he : e ∈ s.replies) :
    L.generateTgk e.1.r ∈ Km1Net.tgks L acts :=
  hs.tgks.subset (List.mem_reverse.mpr (List.mem_map_of_mem (f := fun e => L.generateTgk e.1.r) he))

/-- A key that is no TGK is in no reply. -/
theorem known_of_knows (hL : L.Lawful) (hK : L.Keyed) {acts : List (Act K ρ)}
    {s : Km1Net K ρ} (hs : Made L Known acts s) {k : Bytes} (hk : k ∉ Km1Net.tgks L acts)
    (h : s.Knows L Known k) : Known k := by
  rcases learns_iff.mp h with h | ⟨a, -, ho⟩
  · exact h
  · obtain ⟨e, he, ticket, -, -, rfl⟩ := (opens_iff hL hK hs).mp ho
    exact absurd (hs.mem_tgks he) hk

theorem knows_tgk_iff (hL : L.Lawful) (hK : L.Keyed) {acts : List (Act K ρ)} {s : Km1Net K ρ}
    (hs : Made L Known acts s) (hnew : Fresh L Known acts) {e : Connection K ρ × Bytes}
    (he : e ∈ s.replies) {ticket : Ticket π} (ht : e.1.Authenticates ticket) :
    s.Knows L Known (L.generateTgk e.1.r) ↔ Known ticket.session := by
  have ho := (opens_iff hL hK hs).mpr ⟨e, he, ticket, ht, rfl, rfl⟩
  have hinj := List.inj_on_of_nodup_map
    (List.nodup_reverse.mp (hnew.nodup.sublist hs.tgks))
  have hsession := hnew.sessionKeys e.1 (hs.replies e he).2 ticket ht
  rw [Knows, learns_iff_of_unique (hnew.unknown _ (hs.mem_tgks he)) ho]
  · exact ⟨known_of_knows hL hK hs hsession, .known _⟩
  · intro b hb
    obtain ⟨e', he', ticket', ht', rfl, hc⟩ := (opens_iff hL hK hs).mp hb
    cases hinj he' he hc
    rw [ht.unique ht']

end

end Km1Net

section
variable {ρ : Type} {K : Krb5Gcks1 σ π} {L : LibMikey ρ} {Known : Bytes → Prop}

/-- **Secrecy.**  Whatever the attacker makes of the replies: of the TGKs in them he has those
of the tickets whose session keys he had.  What a client with another key installs from an
authentic text is the TGK of a reply to a ticket with this key, and he never gets it. -/
theorem km1_secrecy (hL : L.Lawful) (hK : L.Keyed)
    (stack : { block : Bytes // block.length = bufsiz }) {acts : List (Km1Net.Act K ρ)}
    {s : Km1Net K ρ} (run : Run (Km1Net.Attack L Known) (.start K stack) acts s)
    (hok : ∀ a ∈ acts, a.Ok L) (hnew : Km1Net.Fresh L Known acts) :
    (∀ e ∈ s.replies, ∃ ticket, e.1.Authenticates ticket ∧
      (s.Knows L Known (L.generateTgk e.1.r) ↔ Known ticket.session)) ∧
    ∀ e ∈ s.installed, ¬Known e.sessionKey → e.sessionKey ∉ Km1Net.tgks L acts →
      (L.receive e.sessionKey e.text).1 = true →
      ¬s.Knows L Known e.ka.tgk ∧
      ∃ e' ∈ s.replies, ∃ ticket, e'.1.Authenticates ticket ∧
        ticket.session = e.sessionKey ∧ e.ka = ⟨L.generateTgk e'.1.r, none⟩ := by
  have hs := Km1Net.made_run stack run hok
  refine ⟨?_, ?_⟩
  · intro e he
    obtain ⟨ticket, ht, -⟩ := (hs.replies e he).1
    exact ⟨ticket, ht, Km1Net.knows_tgk_iff hL hK hs hnew he ht⟩
  · intro e he hn htgk ha
    obtain ⟨hreply, hsource⟩ := hs.installed e he
    obtain ⟨e', he', htext, ticket, ht, hlen⟩ := hsource
      (fun h => hn (Km1Net.known_of_knows hL hK hs htgk h)) ha
    obtain ⟨ticket', ht', peerUri, hdrop⟩ := Km1Net.drop_of_isReply (hs.replies e' he').1
    cases ht.unique ht'
    rw [← htext, hdrop] at hreply ha
    obtain ⟨hpsk, hka⟩ := ka_of_installReply_initMessage hL hK hlen ha hreply
    refine ⟨?_, e', he', ticket, ht, hpsk, hka⟩
    rw [hka, Km1Net.knows_tgk_iff hL hK hs hnew he' ht, hpsk]
    exact hn

end

end

/-- alice's reply, and an attacker with a key of his own. -/
theorem km1_secrecy_alice :
    ∃ (s : Km1Net scriptedRecv Bytes) (wire : Bytes), ∃ e ∈ s.installed,
      Run (Km1Net.Attack plainMikey (· = [6, 6, 6])) (.start scriptedRecv zeroStack)
        [.serve aliceClient, .read [1, 0, 2] (segment wire) (7, 7) zeros] s ∧
      e.sessionKey = [1, 0, 2] ∧ e.ka = ⟨[5], none⟩ ∧
      ¬s.Knows plainMikey (· = [6, 6, 6]) [5] := by
  have hauthc := memberClient_authenticates aliceTicket [5]
  obtain ⟨wire, st, hpass, -, -⟩ := pass_of_valid (L := plainMikey)
    (Gcks1.idle_start zeroStack) (memberClient_valid aliceTicket [5]) hauthc
  obtain ⟨⟨ticket, ht, cname, m, hm, h1, h2, hw⟩, -⟩ :=
    isReply_of_pass (Gcks1.idle_start zeroStack) aliceClient_answerable hpass
  cases ht.unique hauthc
  obtain ⟨rest, -, hread⟩ := sclientReceive_reply h1 h2 hw (err_not_mem_segment wire)
    (bytesOf_segment wire) (7, 7) zeros
  rw [if_pos (show (zeros (m.bytes.length + 1)).isSome = true from rfl)] at hread
  have hinst := installReply_initMessage plainMikey_lawful [1, 0, 2] cname.bytes [5]
  obtain ⟨x, hauth⟩ := plainMikey_lawful.receive_initMessage [1, 0, 2] _ none cname.bytes [5]
    (sendable_generateTgk plainMikey_lawful [5])
  have hm' : m = plainMikey.initMessage [1, 0, 2] (plainMikey.generateTgk [5]) none cname.bytes
      [5] := hm
  rw [← hm'] at hinst hauth
  have hdrop : wire.drop 2 = m.bytes := by
    rw [gcks1Reply_eq m h2] at hw
    cases hw
    rfl
  have run := ((@Run.nil _ _ (Km1Net.Attack plainMikey (· = [6, 6, 6]))
    (.start scriptedRecv zeroStack)).snoc (.serve _ aliceClient wire st hpass)).snoc
    (.read _ [1, 0, 2] (segment wire) (7, 7) zeros _ _ hread
      (fun _ _ => ⟨_, List.mem_cons_self, hdrop, aliceTicket, hauthc, rfl⟩) hinst)
  have hnew : Km1Net.Fresh plainMikey (· = [6, 6, 6])
      [.serve aliceClient, .read [1, 0, 2] (segment wire) (7, 7) zeros] := by
    refine ⟨List.nodup_singleton _, ?_, ?_⟩
    · intro c hc ticket ht
      have hc' : c = aliceClient := by simpa using hc
      rw [hc'] at ht
      cases ht.unique hauthc
      show [1, 0, 2] ∉ [[5]]
      decide
    · show ∀ k ∈ [[5]], ¬k = [6, 6, 6]
      decide
  obtain ⟨-, hsecret⟩ := km1_secrecy plainMikey_lawful plainMikey_keyed zeroStack run (by
    intro a ha
    rcases List.mem_cons.mp ha with rfl | ha
    · exact aliceClient_answerable
    · rw [List.mem_singleton.mp ha]
      trivial) hnew
  have hn : ¬([1, 0, 2] : Bytes) = [6, 6, 6] := by decide
  have htgk : ([1, 0, 2] : Bytes) ∉ [[5]] := by decide
  have hkeep := (hsecret _ List.mem_cons_self hn htgk (congrArg Prod.fst hauth)).1
  exact ⟨_, wire, _, List.mem_cons_self, run, rfl, rfl, hkeep⟩

end KerberizedMikey
