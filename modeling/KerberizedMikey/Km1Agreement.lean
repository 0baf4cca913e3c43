import KerberizedMikey.Km2Agreement
import KerberizedMikey.Gcks1

/-!
# Model 1 as a system

gcks1 serves its clients one after the other, always from the same buffer; meanwhile the
clients read their connections, each in its own time and in pieces of any size.  What a
client installs is the TGK that gcks1 made for its own ticket; it can always get there, and
nobody else authenticates its reply:

    Run Km1.Step  →  every offer installed is the client's own, and every reply that was
      written can be read and installed, under its session key only, of all keys of this
      length                                                              (km1_agreement)
-/

namespace KerberizedMikey

open CLib

section
variable {σ π : Type}

/-- gcks1, the replies it has written to its connections, and the offers installed. -/
structure Km1 (K : Krb5Gcks1 σ π) (ρ : Type) where
  gcks : Gcks1 π
  replies : List (Connection K ρ × Bytes) := []
  installed : List (Connection K ρ × KeyAgreementPSK) := []

/-- A pass of gcks1, or the calls of `net_read` of one client and what they meet. -/
inductive Km1.Act (K : Krb5Gcks1 σ π) (ρ : Type)
  | serve (c : Connection K ρ)
  | read (c : Connection K ρ) (es : List Event) (xmitlen : UInt8 × UInt8) (malloc : Malloc)

variable {ρ : Type} (K : Krb5Gcks1 σ π) (L : LibMikey ρ)

/-- The reply on its way through the client's `main`: a read without errors, and the offer
under the session key of the client's ticket. -/
structure InstallsReply (c : Connection K ρ) (wire : Bytes) (es : List Event)
    (xmitlen : UInt8 × UInt8) (malloc : Malloc) (ka : KeyAgreementPSK) : Prop where
  no_err : .err ∉ es
  bytes : bytesOf es = wire
  install : ∃ ticket reply, c.Authenticates ticket ∧
    sclientReceive es xmitlen malloc = .ok (some reply) ∧
    installReply L ticket.session reply.text = .ok ka

inductive Km1.Step : Km1 K ρ → Km1.Act K ρ → Km1 K ρ → Prop
  | serve (s : Km1 K ρ) (c : Connection K ρ) (reply : Bytes) (st : Gcks1 π)
      (h : s.gcks.pass K L c = .ok (.loops reply st)) :
      Step s (.serve c) { s with gcks := st, replies := (c, reply) :: s.replies }
  | read (s : Km1 K ρ) (c : Connection K ρ) (wire : Bytes) (es : List Event)
      (xmitlen : UInt8 × UInt8) (malloc : Malloc) (ka : KeyAgreementPSK)
      (hmem : (c, wire) ∈ s.replies) (h : InstallsReply K L c wire es xmitlen malloc ka) :
      Step s (.read c es xmitlen malloc) { s with installed := (c, ka) :: s.installed }

/-- The name in the ticket can be printed, and the message under its session key fits
`repbuf`. -/
def Answerable (c : Connection K ρ) : Prop :=
  ∀ ticket, c.Authenticates ticket → ∃ cname, K.unparseName ticket.client = .ok cname ∧
    1 ≤ (L.initMessage ticket.session (L.generateTgk c.r) none cname.bytes c.r).bytes.length ∧
    (L.initMessage ticket.session (L.generateTgk c.r) none cname.bytes c.r).bytes.length ≤ 8191

def Km1.Act.Ok : Km1.Act K ρ → Prop
  | .serve c => Answerable K L c
  | .read _ _ _ _ => True

/-- A complete reply to the client: framed, of the message for its ticket. -/
def IsReply (c : Connection K ρ) (wire : Bytes) : Prop :=
  ∃ ticket, c.Authenticates ticket ∧ ∃ cname : CString, ∃ m : CString,
    m = L.initMessage ticket.session (L.generateTgk c.r) none cname.bytes c.r ∧
    1 ≤ m.bytes.length ∧ m.bytes.length ≤ 8191 ∧ gcks1Reply m = .ok wire

structure Km1.Inv (s : Km1 K ρ) : Prop where
  idle : s.gcks.Idle
  replies : ∀ e ∈ s.replies, IsReply K L e.1 e.2
  installed : ∀ e ∈ s.installed, e.2 = ⟨L.generateTgk e.1.r, none⟩

variable {K L}

/-! ## One client -/

/-- A client has one ticket. -/
theorem Connection.Authenticates.unique {c : Connection K ρ} {t t' : Ticket π}
    (h : c.Authenticates t) (h' : c.Authenticates t') : t = t' := by
  obtain ⟨v, s, s', ad, rest, hbody, -, -, hclean, ht⟩ := h
  obtain ⟨v', s₁, s₁', ad', rest', hbody', -, -, hclean', ht'⟩ := h'
  rw [hbody] at hbody'
  cases hbody'
  rw [hclean] at hclean'
  cases hclean'
  rw [ht] at ht'
  exact Option.some.inj ht'

/-- The reply of a pass is complete. -/
theorem isReply_of_pass {st st' : Gcks1 π} (hst : st.Idle) {c : Connection K ρ}
    (hc : Answerable K L c) {wire : Bytes} (h : st.pass K L c = .ok (.loops wire st')) :
    IsReply K L c wire ∧ st'.Idle := by
  refine ⟨?_, idle_of_step hst ⟨wire, h⟩⟩
  obtain ⟨ticket, ht⟩ := (valid_of_loops hst h).authenticates
  obtain ⟨cname, hname, h1, h2⟩ := hc ticket ht
  obtain ⟨wire', st'', hp, hown, -⟩ := pass_of_valid (L := L) hst (valid_of_loops hst h) ht
  rw [h] at hp
  cases hp
  refine ⟨ticket, ht, cname, _, rfl, h1, h2, ?_⟩
  have hmsg : keyMgmtMessage K L ticket c.r =
      .ok (L.initMessage ticket.session (L.generateTgk c.r) none cname.bytes c.r) := by
    unfold keyMgmtMessage
    rw [hname]
    rfl
  unfold ownReply at hown
  rw [hmsg] at hown
  exact hown

/-- **sclient reads the message back**, in whatever pieces it arrives. -/
theorem sclientReceive_reply {m : CString} (h1 : 1 ≤ m.bytes.length)
    (h2 : m.bytes.length ≤ 8191) {wire : Bytes} (hw : gcks1Reply m = .ok wire)
    {es : List Event} (herr : .err ∉ es) (hb : bytesOf es = wire) (xmitlen : UInt8 × UInt8)
    (malloc : Malloc) :
    ∃ rest, bytesOf rest = [] ∧ sclientReceive es xmitlen malloc =
      if (malloc (m.bytes.length + 1)).isSome then .ok (some ⟨m.bytes.length, m.bytes, rest⟩)
      else .ok none := by
  have hn : (UInt16.ofNat m.bytes.length).toNat = m.bytes.length :=
    UInt16.toNat_ofNat_of_lt' (by show _ < 2 ^ 16; omega)
  rw [gcks1Reply_eq m h2] at hw
  rw [← Except.ok.inj hw] at hb
  obtain ⟨rest, he, hrest, hrecv⟩ := sclientReceive_of_header _ es herr hb [] xmitlen malloc
  obtain ⟨rest', hrest', hbody⟩ := readBody_whole m h1 rest he
    (by rw [hrest, List.append_nil]) [] malloc
  rw [List.append_nil, hn, hbody, List.append_nil] at hrecv
  exact ⟨rest', hrest', hrecv⟩

/-- What a client installs from a complete reply. -/
theorem tgk_of_installsReply (hL : L.Lawful) {c : Connection K ρ} {wire : Bytes}
    (hw : IsReply K L c wire) {es : List Event} {xmitlen : UInt8 × UInt8} {malloc : Malloc}
    {ka : KeyAgreementPSK} (h : InstallsReply K L c wire es xmitlen malloc ka) :
    ka = ⟨L.generateTgk c.r, none⟩ := by
  obtain ⟨ticket, ht, cname, m, hm, h1, h2, hreply⟩ := hw
  obtain ⟨herr, hb, ticket', reply, ht', hrecv, hinst⟩ := h
  cases ht.unique ht'
  obtain ⟨rest, -, hread⟩ := sclientReceive_reply h1 h2 hreply herr hb xmitlen malloc
  rw [hread] at hrecv
  have htext : reply.text = m.bytes := by
    split at hrecv
    · cases hrecv
      rfl
    · cases hrecv
  rw [htext, hm, installReply_initMessage hL] at hinst
  exact (Except.ok.inj hinst).symm

/-! ## All clients -/

theorem Km1.inv_step (hL : L.Lawful) {s t : Km1 K ρ} {a : Km1.Act K ρ} (ha : a.Ok K L)
    (hs : s.Inv K L) (h : Km1.Step K L s a t) : t.Inv K L := by
  obtain ⟨hidle, hreplies, hinst⟩ := hs
  cases h with
  | serve c reply st h =>
    obtain ⟨hreply, hidle'⟩ := isReply_of_pass hidle ha h
    refine ⟨hidle', ?_, hinst⟩
    intro e he
    rcases List.mem_cons.mp he with rfl | he
    · exact hreply
    · exact hreplies e he
  | read c wire es xmitlen malloc ka hmem h =>
    refine ⟨hidle, hreplies, ?_⟩
    intro e he
    rcases List.mem_cons.mp he with rfl | he
    · exact tgk_of_installsReply hL (hreplies _ hmem) h
    · exact hinst e he

variable (K) in
/-- gcks1 when it first reaches its loop, and no client yet. -/
def Km1.start (stack : { block : Bytes // block.length = bufsiz }) : Km1 K ρ :=
  { gcks := .start stack }

/-- **Every client gets its own key.**  However passes of gcks1 and reads of the clients
interleave: an offer that is installed has the TGK gcks1 made for the client's ticket; and
of each reply written, in whatever pieces it arrives, the client reads a text that
authenticates under the session key of its ticket and under no other key as long, and
installs that TGK. -/
theorem km1_agreement (hL : L.Lawful) (hK : L.Keyed)
    (stack : { block : Bytes // block.length = bufsiz }) {acts : List (Km1.Act K ρ)}
    {s : Km1 K ρ} (run : Run (Km1.Step K L) (.start K stack) acts s)
    (hok : ∀ a ∈ acts, a.Ok K L) :
    (∀ e ∈ s.installed, e.2 = ⟨L.generateTgk e.1.r, none⟩) ∧
    ∀ e ∈ s.replies, ∃ ticket n, e.1.Authenticates ticket ∧
      ∀ (es : List Event) (xmitlen : UInt8 × UInt8) (malloc : Malloc),
        .err ∉ es → bytesOf es = e.2 → (malloc n).isSome = true →
        ∃ reply, sclientReceive es xmitlen malloc = .ok (some reply) ∧
          (∀ key, key.length = ticket.session.length →
            ((L.receive key reply.text).1 = true ↔ key = ticket.session)) ∧
          installReply L ticket.session reply.text = .ok ⟨L.generateTgk e.1.r, none⟩ := by
  have hs : s.Inv K L := run.invariant (P := Km1.Act.Ok K L)
    ⟨Gcks1.idle_start stack, by simp [Km1.start], by simp [Km1.start]⟩
    (fun _ _ _ ha hs h => Km1.inv_step hL ha hs h) hok
  refine ⟨hs.installed, ?_⟩
  rintro ⟨c, wire⟩ he
  obtain ⟨ticket, ht, cname, m, hm, h1, h2, hreply⟩ := hs.replies _ he
  refine ⟨ticket, m.bytes.length + 1, ht, ?_⟩
  intro es xmitlen malloc herr hb hmalloc
  obtain ⟨rest, -, hread⟩ := sclientReceive_reply h1 h2 hreply herr hb xmitlen malloc
  rw [if_pos hmalloc] at hread
  refine ⟨_, hread, ?_, ?_⟩
  · have hsend := sendable_generateTgk hL c.r
    intro key hlen
    constructor
    · intro hkey
      rw [hm] at hkey
      exact hK _ _ _ _ _ _ hsend hlen hkey
    · rintro rfl
      obtain ⟨x, hx⟩ := hL.receive_initMessage ticket.session (L.generateTgk c.r) none
        cname.bytes c.r hsend
      rw [hm, hx]
  · show installReply L ticket.session m.bytes = _
    rw [hm]
    exact installReply_initMessage hL _ _ _

end

/-! ## Two clients -/

/-- A client that has a ticket for group1. -/
def memberClient (ticket : Ticket CString) (r : Bytes) : Connection scriptedRecv Bytes :=
  { scriptedClient (some [⟨72, 7, ascii "group1" ++ [0]⟩]) ticket with r }

theorem memberClient_authenticates (ticket : Ticket CString) (r : Bytes) :
    (memberClient ticket r).Authenticates ticket :=
  ⟨_, _, _, _, [], scriptedRecv_body _, rfl, by decide, rfl, rfl⟩

theorem memberClient_valid (ticket : Ticket CString) (r : Bytes) :
    (memberClient ticket r).Valid := ⟨rfl, ⟨_, memberClient_authenticates ticket r⟩, rfl, rfl⟩

def bobTicket : Ticket CString := ⟨bobName, [3, 0, 4]⟩

def aliceClient : Connection scriptedRecv Bytes := memberClient aliceTicket [5]
def bobClient : Connection scriptedRecv Bytes := memberClient bobTicket [6]

theorem aliceClient_answerable : Answerable scriptedRecv plainMikey aliceClient := by
  intro ticket ht
  cases ht.unique (memberClient_authenticates aliceTicket [5])
  exact ⟨aliceName, rfl, by decide +kernel, by decide +kernel⟩

theorem bobClient_answerable : Answerable scriptedRecv plainMikey bobClient := by
  intro ticket ht
  cases ht.unique (memberClient_authenticates bobTicket [6])
  exact ⟨bobName, rfl, by decide +kernel, by decide +kernel⟩

theorem bytesOf_segment (bs : Bytes) : bytesOf (segment bs) = bs := by
  simpa using bytesOf_segment_append bs []

/-- alice is served before bob, who reads his reply first. -/
theorem km1_agreement_alice :
    ∃ (s : Km1 scriptedRecv Bytes) (wa wb : Bytes),
      Run (Km1.Step scriptedRecv plainMikey) (.start scriptedRecv zeroStack)
        [.serve aliceClient, .serve bobClient, .read bobClient (segment wb) (7, 7) zeros,
          .read aliceClient (segment wa) (7, 7) zeros] s ∧
      s.installed = [(aliceClient, ⟨[5], none⟩), (bobClient, ⟨[6], none⟩)] := by
  obtain ⟨wa, st, ha, -, hidle⟩ := pass_of_valid (L := plainMikey) (Gcks1.idle_start zeroStack)
    (memberClient_valid aliceTicket [5]) (memberClient_authenticates aliceTicket [5])
  obtain ⟨wb, st', hb, -, -⟩ := pass_of_valid (L := plainMikey) hidle
    (memberClient_valid bobTicket [6]) (memberClient_authenticates bobTicket [6])
  have run := ((@Run.nil _ _ (Km1.Step scriptedRecv plainMikey)
    (.start scriptedRecv zeroStack)).snoc (.serve _ aliceClient wa st ha)).snoc
    (.serve _ bobClient wb st' hb)
  obtain ⟨-, hread⟩ := km1_agreement plainMikey_lawful plainMikey_keyed zeroStack run (by
    intro a ha
    rcases List.mem_pair.mp ha with rfl | rfl
    · exact aliceClient_answerable
    · exact bobClient_answerable)
  -- each of them installs what it can read
  have hinstalls : ∀ (c : Connection scriptedRecv Bytes) (wire : Bytes),
      (c, wire) ∈ [(bobClient, wb), (aliceClient, wa)] →
      InstallsReply scriptedRecv plainMikey c wire (segment wire) (7, 7) zeros
        ⟨plainMikey.generateTgk c.r, none⟩ := by
    intro c wire hmem
    obtain ⟨ticket, n, ht, hall⟩ := hread (c, wire) hmem
    obtain ⟨reply, hrecv, -, hinst⟩ := hall (segment wire) (7, 7) zeros (err_not_mem_segment _)
      (bytesOf_segment wire) rfl
    exact ⟨err_not_mem_segment _, bytesOf_segment wire, ticket, reply, ht, hrecv, hinst⟩
  have run := (run.snoc (.read _ bobClient wb _ _ _ _ List.mem_cons_self
    (hinstalls bobClient wb (by simp)))).snoc
    (.read _ aliceClient wa _ _ _ _ (List.mem_cons_of_mem _ List.mem_cons_self)
      (hinstalls aliceClient wa (by simp)))
  exact ⟨_, wa, wb, run, rfl⟩

end KerberizedMikey
