import KerberizedMikey.Km2Agreement
import KerberizedMikey.CLib.Knowledge

/-!
# Model 2 keeps its keys secret

The attacker of Km2Agreement had his keys once and for all.  Here he also learns: with the
key of a message, of the KDC or of gcks2, he gets the key in it, and can use that from then
on.  (What the KDC sends to the clients themselves is krb5's.)  And any text at all may reach
gcks2, one that it takes for the KDC's as well.  Still, if TGKs are fresh,

    he knows a session key  →  he knew it at first
    he knows a TGK  ↔  he knows the key gcks2 made it for
    a client with a ticket, whose key he did not know, installs from a text that
      authenticates under it  →  he never gets the TGK, and no other client has it
                                                                        (km2_secrecy)
-/

namespace KerberizedMikey

open CLib

namespace Km2Net

/-- In one of the messages, who has the key `a`, as long as that of the message, finds `c`. -/
inductive Opens {ρ : Type} (L : LibMikey ρ) (gcksKey : Bytes) (kdc : List InFlight)
    (forwarded : List (Forwarded ρ)) : Bytes → Bytes → Prop
  | kdc (q : InFlight) (hq : q ∈ kdc) (a : Bytes) (raw : RawMessage)
      (hlen : a.length = gcksKey.length) (h : L.receive a q.text = (true, some raw)) :
      Opens L gcksKey kdc forwarded a raw.tgk
  | forwarded (f : Forwarded ρ) (hf : f ∈ forwarded) (a : Bytes) (raw : RawMessage)
      (hlen : a.length = f.m.psk.length) (h : L.receive a f.m.text = (true, some raw)) :
      Opens L gcksKey kdc forwarded a raw.tgk

section
variable {ρ : Type} (L : LibMikey ρ) (gcksKey : Bytes) (Known : Bytes → Prop)

/-- What the attacker has by now, who had the keys `Known`. -/
def Knows (s : Km2Net ρ) : Bytes → Prop := Learns Known (Opens L gcksKey s.kdc s.forwarded)

/-- A step of a party, whose texts the attacker makes with what he knows, or a text for
gcks2 from anywhere. -/
inductive Attack : Km2Net ρ → Act ρ → Km2Net ρ → Prop
  | party {s t : Km2Net ρ} {a : Act ρ} (h : Step L gcksKey (s.Knows L gcksKey Known) s a t) :
      Attack s a t
  | text (s : Km2Net ρ) (text : Bytes) (hp : s.phase = .accept) :
      Attack s (.receive text) { s with phase := .received text }

/-- The TGKs that gcks2 makes. -/
def tgks (acts : List (Act ρ)) : List Bytes :=
  acts.filterMap fun
    | .gcks2 (.send _ r) => some (L.generateTgk r)
    | _ => none

/-- The session keys of the requests. -/
def sessionKeys (acts : List (Act ρ)) : List Bytes :=
  acts.filterMap fun
    | .serve q => some q.req.sessionKey
    | _ => none

/-- One of the KDC's messages is for a request with this session key. -/
def Issued (kdc : List InFlight) (key : Bytes) : Prop := ∃ q ∈ kdc, q.req.sessionKey = key

/-- No TGK is made twice, or is another key of the system, or one of the attacker's. -/
structure Fresh (acts : List (Act ρ)) : Prop where
  nodup : (tgks L acts).Nodup
  gcksKey : gcksKey ∉ tgks L acts
  sessionKeys : ∀ k ∈ tgks L acts, k ∉ sessionKeys acts
  unknown : ∀ k ∈ tgks L acts, ¬Known k

/-- A message of the KDC and the key in it. -/
structure Seals (acts : List (Act ρ)) (q : InFlight) : Prop where
  key : q.req.sessionKey ∈ sessionKeys acts
  text : ∃ extension peerUri r, Sendable q.req.sessionKey extension ∧
    q.text = (L.initMessage gcksKey q.req.sessionKey extension peerUri r).bytes

/-- The messages made in a run, and what was installed. -/
structure Made (acts : List (Act ρ)) (s : Km2Net ρ) : Prop where
  kdc : ∀ q ∈ s.kdc, Seals L gcksKey acts q
  forwarded : ∀ f ∈ s.forwarded,
    f.m.text = (L.initMessage f.m.psk (L.generateTgk f.r) none f.m.peerUri f.r).bytes
  tgks : (s.forwarded.map fun f => L.generateTgk f.r).reverse.Sublist (tgks L acts)
  installed : ∀ e ∈ s.installed, Installs L (s.Knows L gcksKey Known) s.forwarded e

end

section
variable {ρ : Type} {L : LibMikey ρ} {gcksKey : Bytes} {Known : Bytes → Prop}

/-! ## The messages of a run -/

/-- The text the KDC sends is its message, whole. -/
theorem seals_of_call {q : GcksReq ρ} (hfit : q.Fits L gcksKey) {text : Bytes} {fds : Nat}
    {ending : CallEnd} (h : q.call L gcksKey = .ok ⟨some text, fds, ending⟩) :
    ∃ extension peerUri r, Sendable q.req.sessionKey extension ∧
      text = (L.initMessage gcksKey q.req.sessionKey extension peerUri r).bytes := by
  obtain ⟨ext, hm, hsend, -⟩ := q.message_ok L gcksKey
  obtain ⟨m, hm', rfl⟩ := GcksReq.message_of_call hfit h
  rw [hm] at hm'
  cases hm'
  exact ⟨some ext, _, q.r, hsend, rfl⟩

theorem Opens.mono {kdc kdc' : List InFlight} {forwarded forwarded' : List (Forwarded ρ)}
    (hk : kdc ⊆ kdc') (hf : forwarded ⊆ forwarded') {a c : Bytes}
    (h : Opens L gcksKey kdc forwarded a c) : Opens L gcksKey kdc' forwarded' a c := by
  cases h with
  | kdc q hq a raw hlen h => exact .kdc q (hk hq) a raw hlen h
  | forwarded f hf' a raw hlen h => exact .forwarded f (hf hf') a raw hlen h

/-- Messages are not unmade, so the attacker forgets nothing. -/
theorem Knows.mono {s t : Km2Net ρ} (hk : s.kdc ⊆ t.kdc) (hf : s.forwarded ⊆ t.forwarded)
    {k : Bytes} (h : s.Knows L gcksKey Known k) : t.Knows L gcksKey Known k :=
  Learns.mono (fun _ hk => hk) (fun _ _ ho => ho.mono hk hf) h

theorem Installs.mono {s t : Km2Net ρ} (hk : s.kdc ⊆ t.kdc) (hf : s.forwarded ⊆ t.forwarded)
    {e : Installed} (h : Installs L (s.Knows L gcksKey Known) s.forwarded e) :
    Installs L (t.Knows L gcksKey Known) t.forwarded e where
  reply := h.reply
  source hn ha := by
    obtain ⟨f, hmem, he⟩ := h.source (fun hs => hn (hs.mono hk hf)) ha
    exact ⟨f, hf hmem, he⟩

theorem Seals.append {acts : List (Act ρ)} {q : InFlight} (h : Seals L gcksKey acts q)
    (a : Act ρ) : Seals L gcksKey (acts ++ [a]) q where
  key := by
    rw [sessionKeys, List.filterMap_append]
    exact List.mem_append_left _ h.key
  text := h.text

theorem tgks_append (acts : List (Act ρ)) (a : Act ρ) :
    tgks L (acts ++ [a]) = tgks L acts ++ tgks L [a] :=
  List.filterMap_append

/-- A step that makes no message and installs nothing. -/
theorem Made.append {acts : List (Act ρ)} {s t : Km2Net ρ} (h : Made L gcksKey Known acts s)
    (a : Act ρ) (hk : t.kdc = s.kdc) (hf : t.forwarded = s.forwarded)
    (hi : t.installed = s.installed) : Made L gcksKey Known (acts ++ [a]) t where
  kdc q hq := (h.kdc q (hk ▸ hq)).append a
  forwarded f hmem := h.forwarded f (hf ▸ hmem)
  tgks := by
    rw [hf, tgks_append]
    exact h.tgks.trans (List.sublist_append_left _ _)
  installed e he := (h.installed e (hi ▸ he)).mono (by rw [hk]; exact fun _ h => h)
    (by rw [hf]; exact fun _ h => h)

theorem made_init : Made L gcksKey Known [] ({} : Km2Net ρ) where
  kdc q hq := by cases hq
  forwarded f hf := by cases hf
  tgks := List.Sublist.slnil
  installed e he := by cases he

/-- **One step** of a party or the attacker. -/
theorem made_step {acts : List (Act ρ)} {s t : Km2Net ρ} {a : Act ρ} (ha : a.Fits L gcksKey)
    (hs : Made L gcksKey Known acts s) (h : Attack L gcksKey Known s a t) :
    Made L gcksKey Known (acts ++ [a]) t := by
  cases h with
  | text text hp => exact hs.append _ rfl rfl rfl
  | party h =>
  cases h with
  | serve q text fds ending h =>
    refine ⟨?_, hs.forwarded, ?_, ?_⟩
    · intro q' hq
      rcases List.mem_cons.mp hq with rfl | hq
      · refine ⟨?_, seals_of_call ha h⟩
        simp [sessionKeys]
      · exact (hs.kdc q' hq).append _
    · rw [tgks_append]
      exact hs.tgks.trans (List.sublist_append_left _ _)
    · intro e he
      exact (hs.installed e he).mono (t := { s with kdc := ⟨q.req, text⟩ :: s.kdc })
        (List.subset_cons_self _ _) fun _ hf => hf
  | receive text hp h => exact hs.append _ rfl rfl rfl
  | restart => exact hs.append _ rfl rfl rfl
  | gcks2 a out g h =>
    cases h with
    | process | processFault | sendNoSocket | sendFault => exact hs.append _ rfl rfl rfl
    | send text v net r m hp h =>
      refine ⟨?_, ?_, ?_, ?_⟩
      · intro q hq
        exact (hs.kdc q hq).append _
      · intro f hf
        rcases List.mem_cons.mp hf with rfl | hf
        · exact (text_of_forward h).2
        · exact hs.forwarded f hf
      · rw [tgks_append, after, List.map_cons, List.reverse_cons]
        exact hs.tgks.append (List.Sublist.refl _)
      · intro e he
        exact (hs.installed e he).mono (s := s)
          (t := s.after ⟨.accept, s.olds⟩ (.sends text r m))
          (fun _ hq => hq) (List.subset_cons_self _ _)
  | install sessionKey text ka hmac h =>
    have hsame := hs.append (.install sessionKey text) (t := s) rfl rfl rfl
    refine ⟨hsame.kdc, hsame.forwarded, hsame.tgks, ?_⟩
    intro e he
    rcases List.mem_cons.mp he with rfl | he
    · exact ⟨h, hmac⟩
    · exact hs.installed e he

theorem made_run {acts : List (Act ρ)} {s : Km2Net ρ}
    (run : Run (Attack L gcksKey Known) {} acts s) (hfit : ∀ a ∈ acts, a.Fits L gcksKey) :
    Made L gcksKey Known acts s := by
  refine run.trace_invariant (I := fun as t => (∀ a ∈ as, a.Fits L gcksKey) →
    Made L gcksKey Known as t) (fun _ => made_init) ?_ hfit
  intro as t a u ih h hfit
  have ha : a.Fits L gcksKey := hfit a (by simp)
  exact made_step ha (ih fun b hb => hfit b (List.mem_append_left _ hb)) h

/-! ## What the attacker can open -/

/-- **The messages of a run open** under gcksKey to session keys, and under the key gcks2
made it for to a TGK. -/
theorem opens_iff (hL : L.Lawful) (hK : L.Keyed) {acts : List (Act ρ)} {s : Km2Net ρ}
    (hs : Made L gcksKey Known acts s) {a c : Bytes} :
    Opens L gcksKey s.kdc s.forwarded a c ↔
      (a = gcksKey ∧ ∃ q ∈ s.kdc, q.req.sessionKey = c) ∨
      ∃ f ∈ s.forwarded, f.m.psk = a ∧ L.generateTgk f.r = c := by
  constructor
  · intro h
    cases h with
    | kdc q hq a raw hlen h =>
      obtain ⟨extension, peerUri, r, hsend, htext⟩ := (hs.kdc q hq).text
      rw [htext] at h
      obtain ⟨ha, hc⟩ := psk_of_receive_initMessage hL hK hsend hlen h
      exact .inl ⟨ha, q, hq, hc.symm⟩
    | forwarded f hf a raw hlen h =>
      rw [hs.forwarded f hf] at h
      obtain ⟨ha, hc⟩ := psk_of_receive_initMessage hL hK (sendable_generateTgk hL f.r) hlen h
      exact .inr ⟨f, hf, ha.symm, hc.symm⟩
  · rintro (⟨rfl, q, hq, rfl⟩ | ⟨f, hf, rfl, rfl⟩)
    · obtain ⟨extension, peerUri, r, hsend, htext⟩ := (hs.kdc q hq).text
      obtain ⟨rest, hr⟩ := hL.receive_initMessage a q.req.sessionKey extension peerUri r hsend
      rw [← htext] at hr
      exact .kdc q hq a _ rfl hr
    · obtain ⟨rest, hr⟩ := hL.receive_initMessage f.m.psk (L.generateTgk f.r) none f.m.peerUri f.r
        (sendable_generateTgk hL f.r)
      rw [← hs.forwarded f hf] at hr
      exact .forwarded f hf _ _ rfl hr

theorem Made.mem_tgks {acts : List (Act ρ)} {s : Km2Net ρ} (hs : Made L gcksKey Known acts s)
    {f : Forwarded ρ} (hf : f ∈ s.forwarded) : L.generateTgk f.r ∈ Km2Net.tgks L acts :=
  hs.tgks.subset (List.mem_reverse.mpr (List.mem_map_of_mem hf))

/-- Two messages of gcks2 with one TGK are the same. -/
theorem Made.forwarded_inj {acts : List (Act ρ)} {s : Km2Net ρ}
    (hs : Made L gcksKey Known acts s) (hnew : Fresh L gcksKey Known acts) {f g : Forwarded ρ}
    (hf : f ∈ s.forwarded) (hg : g ∈ s.forwarded) (h : L.generateTgk f.r = L.generateTgk g.r) :
    f = g :=
  List.inj_on_of_nodup_map (List.nodup_reverse.mp (hnew.nodup.sublist hs.tgks)) hf hg h

/-- gcksKey is in no message. -/
theorem not_knows_gcksKey (hL : L.Lawful) (hK : L.Keyed) {acts : List (Act ρ)} {s : Km2Net ρ}
    (hs : Made L gcksKey Known acts s) (hnew : Fresh L gcksKey Known acts)
    (hkey : ¬Known gcksKey) : ¬s.Knows L gcksKey Known gcksKey := by
  intro h
  refine Learns.secret (· = gcksKey) ?_ ?_ h rfl
  · rintro k hk rfl
    exact hkey hk
  · rintro a c ho rfl
    rcases (opens_iff hL hK hs).mp ho with ⟨ha, -⟩ | ⟨f, hf, -, hc⟩
    · exact ha
    · exact absurd (hc ▸ hs.mem_tgks hf) hnew.gcksKey

theorem known_of_knows_sessionKey (hL : L.Lawful) (hK : L.Keyed) {acts : List (Act ρ)}
    {s : Km2Net ρ} (hs : Made L gcksKey Known acts s) (hnew : Fresh L gcksKey Known acts)
    (hkey : ¬Known gcksKey) {k : Bytes} (hi : Issued s.kdc k) (h : s.Knows L gcksKey Known k) :
    Known k := by
  rcases learns_iff.mp h with h | ⟨a, ha, ho⟩
  · exact h
  rcases (opens_iff hL hK hs).mp ho with ⟨rfl, -⟩ | ⟨f, hf, -, hc⟩
  · exact absurd ha (not_knows_gcksKey hL hK hs hnew hkey)
  · obtain ⟨q, hq, rfl⟩ := hi
    have hmem := hs.mem_tgks hf
    rw [hc] at hmem
    exact absurd (hs.kdc q hq).key (hnew.sessionKeys _ hmem)

theorem knows_tgk_iff (hL : L.Lawful) (hK : L.Keyed) {acts : List (Act ρ)} {s : Km2Net ρ}
    (hs : Made L gcksKey Known acts s) (hnew : Fresh L gcksKey Known acts)
    {f : Forwarded ρ} (hf : f ∈ s.forwarded) :
    s.Knows L gcksKey Known (L.generateTgk f.r) ↔ s.Knows L gcksKey Known f.m.psk := by
  have ho := (opens_iff hL hK hs).mpr (.inr ⟨f, hf, rfl, rfl⟩)
  refine learns_iff_of_unique (hnew.unknown _ (hs.mem_tgks hf)) ho ?_
  intro b hb
  rcases (opens_iff hL hK hs).mp hb with ⟨-, q, hq, hc⟩ | ⟨g, hg, hpsk, hc⟩
  · exact absurd (hc ▸ (hs.kdc q hq).key) (hnew.sessionKeys _ (hs.mem_tgks hf))
  · rw [← hs.forwarded_inj hnew hg hf hc]
    exact hpsk.symm

/-- What a client installs from an authentic text, whose key the attacker lacks. -/
theorem forwarded_of_installed (hL : L.Lawful) (hK : L.Keyed) {acts : List (Act ρ)}
    {s : Km2Net ρ} (hs : Made L gcksKey Known acts s) {e : Installed} (he : e ∈ s.installed)
    (hn : ¬s.Knows L gcksKey Known e.sessionKey)
    (ha : (L.receive e.sessionKey e.text).1 = true) :
    ∃ f ∈ s.forwarded, f.m.psk = e.sessionKey ∧ e.ka = ⟨L.generateTgk f.r, none⟩ := by
  obtain ⟨hreply, hsource⟩ := hs.installed e he
  obtain ⟨f, hf, htext, hlen⟩ := hsource hn ha
  rw [← htext, hs.forwarded f hf] at hreply ha
  obtain ⟨hpsk, hka⟩ := ka_of_installReply_initMessage hL hK hlen ha hreply
  exact ⟨f, hf, hpsk, hka⟩

end

end Km2Net

section
variable {ρ : Type} {L : LibMikey ρ} {gcksKey : Bytes} {Known : Bytes → Prop}

/-- **Secrecy.**  Whatever reaches gcks2, and whatever the attacker learns and uses: of the
session keys he has those he had at first, and of the TGKs those of the keys he has.  What
clients with other keys install from authentic texts he never gets, and two of them have one
TGK only if they have one session key. -/
theorem km2_secrecy (hL : L.Lawful) (hK : L.Keyed) {acts : List (Km2Net.Act ρ)}
    {s : Km2Net ρ} (run : Run (Km2Net.Attack L gcksKey Known) {} acts s)
    (hfit : ∀ a ∈ acts, a.Fits L gcksKey) (hnew : Km2Net.Fresh L gcksKey Known acts)
    (hkey : ¬Known gcksKey) :
    (∀ q ∈ s.kdc, s.Knows L gcksKey Known q.req.sessionKey → Known q.req.sessionKey) ∧
    (∀ f ∈ s.forwarded,
      s.Knows L gcksKey Known (L.generateTgk f.r) ↔ s.Knows L gcksKey Known f.m.psk) ∧
    ∀ e ∈ s.installed, Km2Net.Issued s.kdc e.sessionKey → ¬Known e.sessionKey →
      (L.receive e.sessionKey e.text).1 = true →
      ¬s.Knows L gcksKey Known e.ka.tgk ∧
      ∀ e' ∈ s.installed, Km2Net.Issued s.kdc e'.sessionKey → ¬Known e'.sessionKey →
        (L.receive e'.sessionKey e'.text).1 = true → e'.ka.tgk = e.ka.tgk →
        e'.sessionKey = e.sessionKey := by
  have hs := Km2Net.made_run run hfit
  have hsession : ∀ {k}, Km2Net.Issued s.kdc k → s.Knows L gcksKey Known k → Known k :=
    fun hi => Km2Net.known_of_knows_sessionKey hL hK hs hnew hkey hi
  refine ⟨?_, ?_, ?_⟩
  · intro q hq h
    exact hsession ⟨q, hq, rfl⟩ h
  · intro f hf
    exact Km2Net.knows_tgk_iff hL hK hs hnew hf
  · intro e he hi hn ha
    have hns : ¬s.Knows L gcksKey Known e.sessionKey := fun h => hn (hsession hi h)
    obtain ⟨f, hf, hpsk, hka⟩ := Km2Net.forwarded_of_installed hL hK hs he hns ha
    refine ⟨?_, ?_⟩
    · rw [hka, Km2Net.knows_tgk_iff hL hK hs hnew hf, hpsk]
      exact hns
    · intro e' he' hi' hn' ha' htgk
      have hns' : ¬s.Knows L gcksKey Known e'.sessionKey := fun h => hn' (hsession hi' h)
      obtain ⟨g, hg, hpsk', hka'⟩ := Km2Net.forwarded_of_installed hL hK hs he' hns' ha'
      rw [hka, hka'] at htgk
      rw [← hpsk, ← hpsk', hs.forwarded_inj hnew hg hf htgk]

/-- The attacker of Km2Agreement is one of these. -/
theorem Km2Net.Step.attack {s t : Km2Net ρ} {a : Km2Net.Act ρ}
    (h : Km2Net.Step L gcksKey Known s a t) : Km2Net.Attack L gcksKey Known s a t := by
  cases h with
  | serve q text fds ending h => exact .party (.serve s q text fds ending h)
  | receive text hp h => exact .text s text hp
  | gcks2 a out g h => exact .party (.gcks2 s a out g h)
  | restart => exact .party (.restart s)
  | install sessionKey text ka hmac h =>
    exact .party (.install s sessionKey text ka (fun hn => hmac fun hk => hn (.known _ hk)) h)

end

/-- alice, and an attacker with a key of his own. -/
theorem km2_secrecy_alice :
    ∃ (text reply : Bytes) (s : Km2Net Bytes) (e : Installed),
      Run (Km2Net.Attack plainMikey [7, 0, 9] (· = [6, 6, 6])) {}
        (Km2Net.delivery (served aliceRequest) text reply) s ∧
      e ∈ s.installed ∧ e.sessionKey = [1, 0, 2] ∧
      ¬s.Knows plainMikey [7, 0, 9] (· = [6, 6, 6]) e.ka.tgk := by
  obtain ⟨text, reply, s, e, run, hkdc, he, hkey, ha⟩ := Km2Net.installs (· = [6, 6, 6])
    plainMikey_lawful (q := served aliceRequest) rfl aliceRequest_fits aliceRequest_wellNamed
  have hkey : e.sessionKey = [1, 0, 2] := hkey
  have hattack := run.mono fun _ _ _ h => h.attack
  have hnew : Km2Net.Fresh plainMikey [7, 0, 9] (· = [6, 6, 6])
      (Km2Net.delivery (served aliceRequest) text reply) := by
    refine ⟨List.nodup_singleton _, ?_, ?_, ?_⟩
    · show [7, 0, 9] ∉ [[5]]
      decide
    · show ∀ k ∈ [[5]], k ∉ [[1, 0, 2]]
      decide
    · show ∀ k ∈ [[5]], ¬k = [6, 6, 6]
      decide
  obtain ⟨-, -, hsecret⟩ := km2_secrecy plainMikey_lawful plainMikey_keyed hattack
    (Km2Net.delivery_fits aliceRequest_fits text reply) hnew (by decide)
  have hissued : Km2Net.Issued s.kdc e.sessionKey := by
    rw [hkey, hkdc]
    exact ⟨_, List.mem_singleton_self _, rfl⟩
  have hn : ¬e.sessionKey = [6, 6, 6] := by
    rw [hkey]
    decide
  exact ⟨text, reply, s, e, hattack, he, hkey, (hsecret e he hissued hn ha).1⟩

end KerberizedMikey
