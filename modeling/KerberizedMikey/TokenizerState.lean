import KerberizedMikey.Gcks2
import KerberizedMikey.PlainMikey
import KerberizedMikey.CLib.Runs

/-!
# connInfo payloads of any content

gcks2 takes what `setOffer` copied, `leng` bytes without a terminating NUL, or NULL when
the message has no KRB5 extension, and cuts it with four calls of `strtok` whose values
it never checks.  `strtok(NULL, ...)` goes on where an earlier message ended.

    four fields, from the message alone  ↔  a KRB5 extension with at least four tokens
                                                          (extension_handled_iff)
    the conn_info of a message is the same after all histories, and from its own memory
      ↔  it is not parsed, or has a KRB5 extension with four tokens or a NUL
                                                          (conn_info_history_iff)
-/

namespace KerberizedMikey

open CLib

/-! ## Copies -/

/-- A buffer of its own makes `strtok` forget the old pointer. -/
theorem parseConnInfo_some (p : Bytes) (olds : Option Bytes) :
    parseConnInfo (some p) olds = parseConnInfo (some p) none := rfl

/-- `strncpy` of `leng` bytes keeps the tokens, with and without a NUL among them. -/
theorem tokens_strncpy (sep : UInt8) {src dst : Bytes} {n : Nat} (hn : n ≤ src.length)
    (h : strncpy src n = .ok dst) :
    tokens sep dst = tokens sep (src.take n) ∧ (0 ∈ dst ↔ 0 ∈ src.take n) := by
  by_cases h0 : 0 ∈ src.take n
  · obtain ⟨s, rest, hs, hs0⟩ := List.eq_append_cons_of_mem h0
    have hsrc : src = s ++ 0 :: (rest ++ src.drop n) := by
      rw [← List.cons_append, ← List.append_assoc, ← hs, List.take_append_drop]
    have hlen : s.length < n := by
      have := congrArg List.length hs
      rw [List.length_take, List.length_append, List.length_cons] at this
      omega
    rw [hsrc, strncpy_append_nul s _ n hs0] at h
    obtain ⟨k, hk⟩ : ∃ k, n = s.length + (k + 1) := ⟨n - s.length - 1, by omega⟩
    have hdst : dst = s ++ 0 :: List.replicate k 0 := by
      rw [← Except.ok.inj h, hk, List.take_append, List.take_of_length_le (by omega),
        Nat.add_sub_cancel_left, List.take_replicate, Nat.min_eq_left (by omega),
        List.replicate_succ]
    refine ⟨?_, iff_of_true (by rw [hdst]; simp) h0⟩
    rw [hdst, hs, tokens_append_nul sep s _ hs0, tokens_append_nul sep s _ hs0]
  · rw [strncpy_of_not_mem src n hn h0] at h
    rw [Except.ok.inj h]
    exact ⟨rfl, Iff.rfl⟩

/-! ## One message -/

/-- `setOffer`, then `parse_conn_info`. -/
def offerConnInfo (psk : Bytes) (m : MikeyMessage) (olds : Option Bytes) :
    Except Fault (ClientConnInfo × Option Bytes) := do
  let ka ← setMikeyOffer { psk } (some m)
  parseConnInfo ka.connInfo olds

/-- The message gives four fields, without a fault and whatever memory an earlier
message has left to `strtok`; gcks2 has no other way to end the call well. -/
def ConnInfoHandled (psk : Bytes) (m : MikeyMessage) : Prop :=
  ∃ info olds', ∀ olds, offerConnInfo psk m olds = .ok (info, olds')

/-- The message has no KRB5 extension. -/
def MikeyMessage.NoConnInfo (m : MikeyMessage) : Prop :=
  ∀ p ∈ m.extension, p.type ≠ mikeyExtTypeKrb5Id

/-- Without the extension the pointer is NULL. -/
theorem offerConnInfo_none (psk : Bytes) {m : MikeyMessage} (h : m.NoConnInfo)
    (olds : Option Bytes) : offerConnInfo psk m olds = parseConnInfo none olds := by
  obtain ⟨tgk, extension⟩ := m
  cases extension with
  | none => rfl
  | some p =>
    simp only [offerConnInfo, setMikeyOffer, if_neg (h p rfl)]
    rfl

/-- With it, a copy with the tokens of the content. -/
theorem offerConnInfo_some (psk tgk : Bytes) (p : GeneralExtensions)
    (ht : p.type = mikeyExtTypeKrb5Id) :
    ∃ buf, (tokens bar buf = tokens bar p.content ∧ (0 ∈ buf ↔ 0 ∈ p.content)) ∧
      ∀ olds, offerConnInfo psk ⟨tgk, some p⟩ olds = parseConnInfo (some buf) olds := by
  obtain ⟨buf, hb⟩ := strncpy_of_le p.data p.leng.toNat p.leng_le
  refine ⟨buf, tokens_strncpy bar p.leng_le hb, fun olds => ?_⟩
  simp only [offerConnInfo, setMikeyOffer, if_pos ht, hb]
  rfl

/-- **When an extension payload is handled.** -/
theorem extension_handled_iff (psk : Bytes) (m : MikeyMessage) :
    ConnInfoHandled psk m ↔ ∃ p, m.extension = some p ∧ p.type = mikeyExtTypeKrb5Id ∧
      4 ≤ (tokens bar p.content).length := by
  by_cases hno : m.NoConnInfo
  · -- the first message after the start finds `strtok` without a pointer
    refine iff_of_false ?_ ?_
    · rintro ⟨info, olds', h⟩
      have := h none
      rw [offerConnInfo_none psk hno] at this
      cases this
    · rintro ⟨p, hp, ht, -⟩
      exact hno p hp ht
  · obtain ⟨tgk, extension⟩ := m
    cases extension with
    | none => exact absurd (by rintro p ⟨⟩) hno
    | some p =>
      have ht : p.type = mikeyExtTypeKrb5Id := by
        by_contra hne
        apply hno
        rintro q ⟨⟩
        exact hne
      obtain ⟨buf, ⟨htok, -⟩, hoffer⟩ := offerConnInfo_some psk tgk p ht
      have hright : (∃ q, (⟨tgk, some p⟩ : MikeyMessage).extension = some q ∧
          q.type = mikeyExtTypeKrb5Id ∧ 4 ≤ (tokens bar q.content).length) ↔
          4 ≤ (tokens bar buf).length := by
        rw [htok]
        constructor
        · rintro ⟨q, ⟨⟩, -, h⟩
          exact h
        · intro h
          exact ⟨p, rfl, ht, h⟩
      rw [hright]
      rcases parseConnInfo_tokens (some buf) none buf rfl with ⟨n, a, q, g, r, htoks, hp⟩ |
        ⟨hlt, hp⟩
      · refine iff_of_true ⟨⟨some n, some a, some g, atoi q⟩, some r, fun olds => ?_⟩ ?_
        · rw [hoffer, parseConnInfo_some, hp]
        · rw [htoks]
          simp
      · refine iff_of_false ?_ (by omega)
        rintro ⟨info, olds', h⟩
        have := h none
        rw [hoffer, hp] at this
        cases this

/-- An absent payload, one that ends inside its first field, one with a NUL: NULL and
memory behind the copy are read. -/
theorem extension_not_handled :
    let payload (content : Bytes) (h : content.length < 65536) : GeneralExtensions :=
      ⟨mikeyExtTypeKrb5Id, UInt16.ofNat content.length, content, by
        rw [UInt16.toNat_ofNat_of_lt' h]⟩
    offerConnInfo [] ⟨[], none⟩ none = .error .nullDeref ∧
    offerConnInfo [] ⟨[], some (payload (ascii "alice") (by decide))⟩ none = .error .overRead ∧
    offerConnInfo [] ⟨[], some (payload (ascii "alice|" ++ [0]) (by decide))⟩ none =
      .error .nullDeref ∧
    ¬ ConnInfoHandled [] ⟨[], none⟩ := by
  intro payload
  refine ⟨rfl, by decide, by decide, ?_⟩
  rintro ⟨info, olds', h⟩
  cases h none

/-! ## One message after the other -/

/-- A pass of gcks2's loop: the message it receives, what its sending meets. -/
structure Gcks2Pass (ρ : Type) where
  text : Bytes
  net : ClientNet
  r : ρ

section
variable {ρ : Type} (L : LibMikey ρ) (gcksKey : Bytes)

/-- A pass that comes back to `accept`.  Only `strtok`'s pointer outlives it. -/
def Gcks2Step (olds : Option Bytes) (a : Gcks2Pass ρ) (olds' : Option Bytes) : Prop :=
  ∃ v outcome, processMikeyMessage L gcksKey a.text { olds } = (v, none) ∧
    forward L a.net a.r v = .ok outcome ∧ outcome ≠ .connecting ∧ olds' = v.olds

/-- The `conn_info` taken for a message, or the fault in `process_mikey_message`. -/
def takenConnInfo (text : Bytes) (olds : Option Bytes) : Except Fault ClientConnInfo :=
  match processMikeyMessage L gcksKey text { olds } with
  | (v, none) => .ok v.connInfo
  | (_, some f) => .error f

/-- The `conn_info` of a message depends on nothing that an earlier one has left. -/
structure HistoryFree (text : Bytes) : Prop where
  same : ∀ as as' olds olds', Run (Gcks2Step L gcksKey) none as olds →
    Run (Gcks2Step L gcksKey) none as' olds' →
    takenConnInfo L gcksKey text olds = takenConnInfo L gcksKey text olds'
  /-- Outside its buffers gcks2 would go on with what is in the heap; a NULL pointer ends it. -/
  inside : ∀ as olds f, Run (Gcks2Step L gcksKey) none as olds →
    takenConnInfo L gcksKey text olds = .error f → f = .nullDeref

/-- The message cannot be parsed, or has, within its bytes, a KRB5 extension with four tokens
or a NUL. -/
def SelfContained (text : Bytes) : Prop :=
  ∀ raw, (L.receive gcksKey text).2 = some raw → ∃ m p, parseExtension raw = .ok m ∧
    m.extension = some p ∧ p.type = mikeyExtTypeKrb5Id ∧
    (4 ≤ (tokens bar p.content).length ∨ 0 ∈ p.content)

variable {L gcksKey}

/-- A message that is not parsed gives none. -/
theorem takenConnInfo_of_none {text : Bytes} (h : (L.receive gcksKey text).2 = none)
    (olds : Option Bytes) : takenConnInfo L gcksKey text olds = .error .nullDeref := by
  rcases hr : L.receive gcksKey text with ⟨ok, raw⟩
  rw [hr] at h
  cases h
  simp only [takenConnInfo, processMikeyMessage, responderAuthenticate, hr, setMikeyOffer]

/-- That of another one is what the calls make of it. -/
theorem takenConnInfo_of_some {text : Bytes} {raw : RawMessage}
    (h : (L.receive gcksKey text).2 = some raw) (olds : Option Bytes) :
    takenConnInfo L gcksKey text olds =
      (parseExtension raw).bind fun m => (offerConnInfo gcksKey m olds).map (·.1) := by
  rcases hr : L.receive gcksKey text with ⟨ok, raw'⟩
  rw [hr] at h
  cases h
  simp only [takenConnInfo, processMikeyMessage, responderAuthenticate, hr, bind, Except.bind]
  cases parseExtension raw with
  | error f => rfl
  | ok m =>
    obtain ⟨ka, hka⟩ := setMikeyOffer_some { psk := gcksKey } m
    simp only [offerConnInfo, hka, bind, Except.bind, pure, Except.pure]
    cases parseConnInfo ka.connInfo olds <;> rfl

/-- Text that leaves four more fields to `strtok`. -/
def eightFields : Bytes := ascii "a|b|1|g|c|d|2|h|"

/-- Some history leaves four fields behind. -/
theorem leftover_exists (hL : L.Lawful) (r : ρ) :
    ∃ as, Run (Gcks2Step L gcksKey) none as (some (ascii "c|d|2|h|")) := by
  have hcs : cstr (eightFields ++ [0]) = .ok eightFields := by decide
  obtain ⟨ext, -, hw, hext⟩ := setMikeyOffer_connInfoPayload L.nextPayloadType hcs (by decide)
  have hsend : Sendable [1] (some ext) := by
    refine ⟨by decide, ?_⟩
    rintro _ ⟨⟩
    exact hw
  obtain ⟨rest, hrecv⟩ := hL.receive_initMessage gcksKey [1] (some ext) [] r hsend
  obtain ⟨m, hp, ho⟩ := hext { psk := gcksKey } [1] rest
  have hparse : parseConnInfo (some eightFields) none =
      .ok (⟨some (ascii "a"), some (ascii "b"), some (ascii "g"), 1⟩, some (ascii "c|d|2|h|")) := by
    decide
  have hauth : responderAuthenticate L { psk := gcksKey }
      (L.initMessage gcksKey [1] (some ext) [] r).bytes = .ok (true, some m) := by
    simp only [responderAuthenticate, hrecv, Option.map_some, hp, bind, Except.bind]
    rfl
  obtain ⟨text, hm⟩ := clientMessage_eq L r (ascii "a") (ascii "b") [1] (by decide) (by decide)
    (by decide)
  refine ⟨[⟨(L.initMessage gcksKey [1] (some ext) [] r).bytes, ⟨true, fun _ => true, true⟩, r⟩],
    .snoc .nil ⟨⟨some [1], ⟨some (ascii "a"), some (ascii "b"), some (ascii "g"), 1⟩,
      some (ascii "c|d|2|h|")⟩, .sent ⟨[1], ascii "a", ascii "b", 9999, text⟩, ?_, ?_, ?_, rfl⟩⟩
  · simp only [processMikeyMessage, hauth, ho, hparse]
  · simp only [forward, sendMikeyMessage, hm, bind, Except.bind]
    rfl
  · rintro ⟨⟩

end

/-- What `parse_conn_info` does with a copy of its own. -/
theorem offerConnInfo_fault (psk tgk : Bytes) (p : GeneralExtensions)
    (ht : p.type = mikeyExtTypeKrb5Id) :
    (4 ≤ (tokens bar p.content).length ∧
      ∃ info olds', ∀ olds, offerConnInfo psk ⟨tgk, some p⟩ olds = .ok (info, olds')) ∨
    ((tokens bar p.content).length < 4 ∧
      ∀ olds, offerConnInfo psk ⟨tgk, some p⟩ olds = .error (noToken p.content)) := by
  obtain ⟨buf, ⟨htok, hnul⟩, hoffer⟩ := offerConnInfo_some psk tgk p ht
  rw [← htok]
  rcases parseConnInfo_tokens (some buf) none buf rfl with ⟨n, a, q, g, r, htoks, hp⟩ | ⟨hlt, hp⟩
  · refine .inl ⟨by simp [htoks], ⟨some n, some a, some g, atoi q⟩, some r, fun olds => ?_⟩
    rw [hoffer, parseConnInfo_some, hp]
  · refine .inr ⟨hlt, fun olds => ?_⟩
    rw [hoffer, parseConnInfo_some, hp, noToken, noToken]
    simp only [hnul]

/-- **When no earlier client shows through.**  A message gets the same `conn_info` after
all histories, and nothing from outside its buffers, exactly when it is not parsed, or has a
KRB5 extension, inside the message, with four tokens or a NUL. -/
theorem conn_info_history_iff {ρ : Type} {L : LibMikey ρ} (hL : L.Lawful) (r : ρ)
    (gcksKey text : Bytes) :
    HistoryFree L gcksKey text ↔ SelfContained L gcksKey text := by
  constructor
  · rintro ⟨hsame, hinside⟩ raw hraw
    have htaken := fun olds => takenConnInfo_of_some hraw olds
    cases hp : parseExtension raw with
    | error f =>
      -- the payload's constructor leaves the message
      have hf := hinside [] none f .nil (by rw [htaken, hp]; rfl)
      obtain ⟨tgk, extension⟩ := raw
      cases extension with
      | none => cases hp
      | some start =>
        cases hd : GeneralExtensions.decode start with
        | ok out =>
          rw [parseExtension, hd] at hp
          cases hp
        | error f' =>
          rw [parseExtension, hd] at hp
          cases hp
          exact absurd hf (GeneralExtensions.ne_nullDeref_of_decode hd)
    | ok m =>
      simp only [hp, Except.bind] at htaken
      by_cases hno : m.NoConnInfo
      · -- `strtok` goes on where an earlier message ended
        obtain ⟨as, run⟩ := leftover_exists hL r
        have heq := hsame [] as none (some (ascii "c|d|2|h|")) .nil run
        rw [htaken, htaken, offerConnInfo_none gcksKey hno, offerConnInfo_none gcksKey hno] at heq
        exfalso
        revert heq
        decide
      · obtain ⟨tgk, extension⟩ := m
        have hsome : ∃ p, extension = some p ∧ p.type = mikeyExtTypeKrb5Id := by
          by_contra hnone
          apply hno
          intro p hp ht
          exact hnone ⟨p, hp, ht⟩
        obtain ⟨p, rfl, ht⟩ := hsome
        refine ⟨_, p, rfl, rfl, ht, ?_⟩
        rcases offerConnInfo_fault gcksKey tgk p ht with ⟨hfour, -⟩ | ⟨-, hfault⟩
        · exact .inl hfour
        · right
          by_contra h0
          have hf := hinside [] none .overRead .nil (by
            rw [htaken, hfault, noToken, if_neg h0]
            rfl)
          cases hf
  · intro h
    have hall : ∃ x, (∀ olds, takenConnInfo L gcksKey text olds = x) ∧
        ∀ f, x = .error f → f = .nullDeref := by
      cases hraw : (L.receive gcksKey text).2 with
      | none =>
        refine ⟨_, takenConnInfo_of_none hraw, ?_⟩
        rintro f ⟨⟩
        rfl
      | some raw =>
        obtain ⟨⟨tgk, extension⟩, p, hp, rfl, ht, htok⟩ := h raw hraw
        rcases offerConnInfo_fault gcksKey tgk p ht with ⟨-, info, olds', hok⟩ | ⟨hlt, hfault⟩
        · refine ⟨.ok info, fun olds => ?_, ?_⟩
          · rw [takenConnInfo_of_some hraw, hp, Except.bind, hok]
            rfl
          · rintro f ⟨⟩
        · have h0 : 0 ∈ p.content := htok.resolve_left (by omega)
          refine ⟨.error .nullDeref, fun olds => ?_, ?_⟩
          · rw [takenConnInfo_of_some hraw, hp, Except.bind, hfault, noToken, if_pos h0]
            rfl
          · rintro f ⟨⟩
            rfl
    obtain ⟨x, hx, hnull⟩ := hall
    refine ⟨fun as as' olds olds' _ _ => by rw [hx, hx], fun as olds f _ hf => ?_⟩
    rw [hx] at hf
    exact hnull f hf

/-- What the KDC puts into its message for alice. -/
def aliceExtension : GeneralExtensions :=
  ⟨mikeyExtTypeKrb5Id, 29, ascii "alice|127.0.0.1|40000|group1|", by decide⟩

theorem conn_info_history_alice :
    let text := (plainMikey.initMessage [7, 0, 9] [1, 0, 2] (some (aliceExtension.writeData 1))
      [] [5]).bytes
    takenConnInfo plainMikey [7, 0, 9] text none =
      .ok ⟨some (ascii "alice"), some (ascii "127.0.0.1"), some (ascii "group1"), 40000⟩ ∧
    HistoryFree plainMikey [7, 0, 9] text := by
  intro text
  have hsend : Sendable [1, 0, 2] (some (aliceExtension.writeData 1)) := by
    refine ⟨by decide, ?_⟩
    rintro _ ⟨⟩
    exact ⟨aliceExtension, 1, rfl⟩
  obtain ⟨rest, hrecv⟩ := plainMikey_lawful.receive_initMessage [7, 0, 9] [1, 0, 2]
    (some (aliceExtension.writeData 1)) [] [5] hsend
  obtain ⟨p, hp, ht, -, hc⟩ := GeneralExtensions.decode_writeData 1 aliceExtension rest
  have hparse : parseExtension ⟨[1, 0, 2], some (aliceExtension.writeData 1 ++ rest)⟩ =
      .ok ⟨[1, 0, 2], some p⟩ := by
    rw [parseExtension, hp]
    rfl
  have htok : tokens bar p.content =
      [ascii "alice", ascii "127.0.0.1", ascii "40000", ascii "group1"] := by
    rw [hc]
    decide
  refine ⟨?_, (conn_info_history_iff plainMikey_lawful [5] [7, 0, 9] text).mpr ?_⟩
  · rw [takenConnInfo_of_some (congrArg Prod.snd hrecv), Option.map_some, hparse]
    obtain ⟨buf, ⟨hbuf, -⟩, hoffer⟩ := offerConnInfo_some [7, 0, 9] [1, 0, 2] p ht
    rcases parseConnInfo_tokens (some buf) none buf rfl with ⟨n, a, q, g, r, h, hok⟩ | ⟨hlt, -⟩
    · rw [hbuf, htok] at h
      simp only [List.cons.injEq] at h
      obtain ⟨rfl, rfl, rfl, rfl, -⟩ := h
      have hport : atoi (ascii "40000") = 40000 := by decide
      rw [Except.bind, hoffer, hok, hport]
      rfl
    · rw [hbuf, htok] at hlt
      exact absurd hlt (by decide)
  · intro raw hraw
    rw [show (plainMikey.receive [7, 0, 9] text).2 = _ from congrArg Prod.snd hrecv] at hraw
    cases hraw
    exact ⟨_, p, hparse, rfl, ht, .inl (by rw [htok]; decide)⟩

/-- A message without extension gets the fields that an earlier one has left. -/
theorem conn_info_leftover :
    let text := (plainMikey.initMessage [7, 0, 9] [1, 0, 2] none [] [5]).bytes
    takenConnInfo plainMikey [7, 0, 9] text none = .error .nullDeref ∧
    (∃ as olds, Run (Gcks2Step plainMikey [7, 0, 9]) none as olds ∧
      takenConnInfo plainMikey [7, 0, 9] text olds =
        .ok ⟨some (ascii "c"), some (ascii "d"), some (ascii "h"), 2⟩) ∧
    ¬ HistoryFree plainMikey [7, 0, 9] text := by
  intro text
  have hraw : (plainMikey.receive [7, 0, 9] text).2 = some ⟨[1, 0, 2], none⟩ := by
    obtain ⟨rest, hrecv⟩ := plainMikey_lawful.receive_initMessage [7, 0, 9] [1, 0, 2] none [] [5]
      ⟨by decide, by rintro _ ⟨⟩⟩
    rw [hrecv]
    rfl
  have hnone : takenConnInfo plainMikey [7, 0, 9] text none = .error .nullDeref := by
    rw [takenConnInfo_of_some hraw]
    rfl
  obtain ⟨as, run⟩ := leftover_exists plainMikey_lawful [5]
  have hsome : takenConnInfo plainMikey [7, 0, 9] text (some (ascii "c|d|2|h|")) =
      .ok ⟨some (ascii "c"), some (ascii "d"), some (ascii "h"), 2⟩ := by
    rw [takenConnInfo_of_some hraw]
    decide
  refine ⟨hnone, ⟨as, _, run, hsome⟩, fun h => ?_⟩
  have := h.same [] as none _ .nil run
  rw [hnone, hsome] at this
  cases this

end KerberizedMikey
