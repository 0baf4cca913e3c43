import KerberizedMikey.Gcks2
import KerberizedMikey.PlainMikey
import KerberizedMikey.CLib.Runs

/-!
# Authentication and key adoption

gcks2's accept loop, sclient and sclient2 each receive MIKEY messages, call
`responderAuthenticate`, print a line when it returns false, and go on to
`setMikeyOffer` either way.  A run is any sequence of inbound messages to the three
programs; its log has every key taken or installed, every `conn_info` taken and every
message sent, with the message that led to it.

`Gated` says that each entry comes from a message that authenticated.  The programs
only keep to it on runs where each message authenticates or cannot be parsed:

    Run Step {} ds s → (Gated s ↔ ∀ d ∈ ds, Authentic d ∨ ¬ Parses d)        (gated_iff)
-/

namespace KerberizedMikey

open CLib

/-- An inbound message: gcks2's next one, or the reply one run of a client gets. -/
inductive Delivery (ρ : Type)
  | gcks2 (text : Bytes) (net : ClientNet) (r : ρ)
  | sclient (sessionKey text : Bytes)
  | sclient2 (sessionKey text : Bytes)

inductive Effect
  /-- gcks2 has set `session_key`. -/
  | tookKey (tgk : Bytes)
  /-- gcks2 has set `conn_info`. -/
  | tookConnInfo (connInfo : ClientConnInfo)
  /-- gcks2 has sent a MIKEY message. -/
  | sent (m : ClientMessage)
  /-- A client's `setMikeyOffer` has installed the offer. -/
  | installed (ka : KeyAgreementPSK)
  /-- A client goes on to its success path. -/
  | succeeded
deriving DecidableEq

section
variable {ρ : Type} (L : LibMikey ρ)

/-- What a client does with the reply: authenticate, print if that failed, install. -/
def installReply (sessionKey text : Bytes) : Except Fault KeyAgreementPSK := do
  let config : MikeyTestConfig := { psk := sessionKey }
  let (_, message) ← responderAuthenticate L config text
  setMikeyOffer config message

/-- What that changes. -/
def replyEffects (sessionKey text : Bytes) : List Effect :=
  match installReply L sessionKey text with
  | .ok ka => [.installed ka, .succeeded]
  | .error _ => []

/-- The reply handling of sclient's `main`. -/
def sclientReply (sessionKey text : Bytes) : List Effect := replyEffects L sessionKey text

/-- The receive step of sclient2's `main`. -/
def sclient2Reply (sessionKey text : Bytes) : List Effect := replyEffects L sessionKey text

/-- The effects of one pass of gcks2's loop that left the variables at `v`. -/
def passEffects (net : ClientNet) (r : ρ) : GcksVars × Option Fault → List Effect
  | (v, some _) => (v.sessionKey.map Effect.tookKey).toList
  | (v, none) => (v.sessionKey.map Effect.tookKey).toList ++ Effect.tookConnInfo v.connInfo ::
      match forward L net r v with
      | .ok (.sent m) => [.sent m]
      | _ => []

/-- Is gcks2 back at `accept` after the pass? -/
def passReturns (net : ClientNet) (r : ρ) : GcksVars × Option Fault → Bool
  | (_, some _) => false
  | (v, none) =>
    match forward L net r v with
    | .ok (.sent _) => true
    | .ok .noSocket => true
    | .ok .connecting => false
    | .error _ => false

/-- The three programs: whether gcks2 is at `accept`, its tokenizer state, the log. -/
structure Parties (ρ : Type) where
  accepting : Bool := true
  olds : Option Bytes := none
  log : List (Delivery ρ × Effect) := []

variable (gcksKey : Bytes)

inductive Parties.Step : Parties ρ → Delivery ρ → Parties ρ → Prop
  | gcks2 (s : Parties ρ) (text : Bytes) (net : ClientNet) (r : ρ) (ha : s.accepting = true)
      (p : GcksVars × Option Fault)
      (hp : processMikeyMessage L gcksKey text { olds := s.olds } = p) :
      Step s (.gcks2 text net r)
        { accepting := passReturns L net r p
          olds := p.1.olds
          log := s.log ++ (passEffects L net r p).map (.gcks2 text net r, ·) }
  | sclient (s : Parties ρ) (sessionKey text : Bytes) :
      Step s (.sclient sessionKey text)
        { s with
          log := s.log ++ (sclientReply L sessionKey text).map (.sclient sessionKey text, ·) }
  | sclient2 (s : Parties ρ) (sessionKey text : Bytes) :
      Step s (.sclient2 sessionKey text)
        { s with
          log := s.log ++ (sclient2Reply L sessionKey text).map (.sclient2 sessionKey text, ·) }

/-- The receiver's key and the text. -/
def Delivery.input : Delivery ρ → Bytes × Bytes
  | .gcks2 text _ _ => (gcksKey, text)
  | .sclient sessionKey text => (sessionKey, text)
  | .sclient2 sessionKey text => (sessionKey, text)

/-- `responderAuthenticate` returns true for the message. -/
def Delivery.Authentic (d : Delivery ρ) : Prop :=
  (L.receive (d.input gcksKey).1 (d.input gcksKey).2).1 = true

/-- The message can be parsed, authentic or not. -/
def Delivery.Parses (d : Delivery ρ) : Prop :=
  ∃ raw, (L.receive (d.input gcksKey).1 (d.input gcksKey).2).2 = some raw ∧ raw.WellFormed

/-- Every key and `conn_info` adopted and every message sent is due to a message that
authenticated. -/
def Parties.Gated (s : Parties ρ) : Prop := ∀ e ∈ s.log, e.1.Authentic L gcksKey

/-! ## One message -/

/-- **Any message that can be parsed is installed.** -/
theorem installReply_ok_iff (sessionKey text : Bytes) :
    (∃ ka, installReply L sessionKey text = .ok ka) ↔
      ∃ raw, (L.receive sessionKey text).2 = some raw ∧ raw.WellFormed := by
  rcases hr : L.receive sessionKey text with ⟨ok, message⟩
  unfold installReply responderAuthenticate
  cases message with
  | none =>
    -- `setMikeyOffer` on a NULL message
    simp only [hr]
    refine iff_of_false ?_ ?_
    · rintro ⟨ka, ⟨⟩⟩
    · rintro ⟨raw, ⟨⟩, -⟩
  | some raw =>
    simp only [hr, Option.some.injEq, exists_eq_left']
    rw [← parseExtension_ok_iff]
    cases parseExtension raw with
    | error f =>
      refine iff_of_false ?_ ?_
      · rintro ⟨ka, ⟨⟩⟩
      · rintro ⟨m, ⟨⟩⟩
    | ok m => exact iff_of_true (setMikeyOffer_some _ m) ⟨m, rfl⟩

theorem replyEffects_ne_nil (sessionKey text : Bytes) :
    replyEffects L sessionKey text ≠ [] ↔ ∃ ka, installReply L sessionKey text = .ok ka := by
  unfold replyEffects
  cases installReply L sessionKey text <;> simp

/-- `process_mikey_message` sets `session_key` exactly when a client would install. -/
theorem processMikeyMessage_of_installReply (text : Bytes) (olds : Option Bytes) :
    (∃ ka, installReply L gcksKey text = .ok ka ∧
      (processMikeyMessage L gcksKey text { olds }).1.sessionKey = some ka.tgk) ∨
    (∃ f, installReply L gcksKey text = .error f ∧
      processMikeyMessage L gcksKey text { olds } = ({ olds }, some f)) := by
  cases ha : responderAuthenticate L { psk := gcksKey } text with
  | error f =>
    refine .inr ⟨f, ?_, ?_⟩
    · simp only [installReply, ha, bind, Except.bind]
    · simp only [processMikeyMessage, ha]
  | ok p =>
    obtain ⟨ok, message⟩ := p
    cases ho : setMikeyOffer { psk := gcksKey } message with
    | error f =>
      refine .inr ⟨f, ?_, ?_⟩
      · simp only [installReply, ha, ho, bind, Except.bind]
      · simp only [processMikeyMessage, ha, ho]
    | ok ka =>
      refine .inl ⟨ka, ?_, ?_⟩
      · simp only [installReply, ha, ho, bind, Except.bind]
      · simp only [processMikeyMessage, ha, ho]
        -- the key stays set when parse_conn_info faults
        cases parseConnInfo ka.connInfo olds <;> rfl

theorem passEffects_ne_nil (net : ClientNet) (r : ρ) (text : Bytes) (olds : Option Bytes) :
    passEffects L net r (processMikeyMessage L gcksKey text { olds }) ≠ [] ↔
      ∃ ka, installReply L gcksKey text = .ok ka := by
  rcases processMikeyMessage_of_installReply L gcksKey text olds with ⟨ka, hi, h⟩ | ⟨f, hi, h⟩
  · generalize processMikeyMessage L gcksKey text { olds } = p at h
    obtain ⟨v, f⟩ := p
    change v.sessionKey = some ka.tgk at h
    cases f <;> simp [passEffects, h, hi]
  · simp [passEffects, h, hi]

/-- **One step.**  It appends to the log exactly when the message can be parsed, and only
entries of that message. -/
theorem Parties.step_log {s : Parties ρ} {d : Delivery ρ} {t : Parties ρ}
    (h : Parties.Step L gcksKey s d t) :
    ∃ es : List Effect, t.log = s.log ++ es.map (d, ·) ∧ (es ≠ [] ↔ d.Parses L gcksKey) := by
  cases h with
  | gcks2 text net r ha p hp =>
    subst hp
    refine ⟨_, rfl, ?_⟩
    exact (passEffects_ne_nil L gcksKey net r text s.olds).trans
      (installReply_ok_iff L gcksKey text)
  | sclient sessionKey text =>
    refine ⟨_, rfl, ?_⟩
    exact (replyEffects_ne_nil L sessionKey text).trans (installReply_ok_iff L sessionKey text)
  | sclient2 sessionKey text =>
    refine ⟨_, rfl, ?_⟩
    exact (replyEffects_ne_nil L sessionKey text).trans (installReply_ok_iff L sessionKey text)

/-! ## Runs -/

/-- **When authentication gates key adoption.**  In every reachable state, exactly when
each message handled so far authenticates or cannot be parsed. -/
theorem gated_iff {ds : List (Delivery ρ)} {s : Parties ρ}
    (run : Run (Parties.Step L gcksKey) {} ds s) :
    s.Gated L gcksKey ↔ ∀ d ∈ ds, d.Authentic L gcksKey ∨ ¬ d.Parses L gcksKey := by
  refine run.trace_invariant (I := fun ds s => s.Gated L gcksKey ↔
    ∀ d ∈ ds, d.Authentic L gcksKey ∨ ¬ d.Parses L gcksKey) (by simp [Parties.Gated]) ?_
  intro ds s d t ih h
  obtain ⟨es, hlog, hes⟩ := Parties.step_log L gcksKey h
  have hnew : (∀ e ∈ es.map (d, ·), e.1.Authentic L gcksKey) ↔
      d.Authentic L gcksKey ∨ ¬ d.Parses L gcksKey := by
    rw [← hes]
    cases es with
    | nil => simp
    | cons e es =>
      simp only [ne_eq, reduceCtorEq, not_false_eq_true, not_true_eq_false, or_false]
      constructor
      · intro hall
        exact hall (d, e) (by simp)
      · intro hd e' he'
        obtain ⟨x, -, rfl⟩ := List.mem_map.mp he'
        exact hd
  unfold Parties.Gated at ih ⊢
  rw [hlog, List.forall_mem_append, List.forall_mem_append, ih, hnew]
  simp

end

/-- A client that gets a message under its own session key. -/
theorem genuine_gated :
    let reply : Delivery Bytes :=
      .sclient [8] (plainMikey.initMessage [8] [1, 2, 3] none [] []).bytes
    ∃ s : Parties Bytes, Run (Parties.Step plainMikey [7, 0, 9]) {} [reply] s ∧
      s.Gated plainMikey [7, 0, 9] ∧ ∃ ka, (reply, .installed ka) ∈ s.log := by
  intro reply
  have hreply : replyEffects plainMikey [8]
      (plainMikey.initMessage [8] [1, 2, 3] none [] []).bytes =
      [.installed ⟨[1, 2, 3], none⟩, .succeeded] := by
    decide +kernel
  have run := (@Run.nil _ _ (Parties.Step plainMikey [7, 0, 9]) {}).snoc
    (.sclient {} [8] (plainMikey.initMessage [8] [1, 2, 3] none [] []).bytes)
  refine ⟨_, run, (gated_iff plainMikey [7, 0, 9] run).mpr ?_, ⟨[1, 2, 3], none⟩, ?_⟩
  · intro d hd
    rw [List.nil_append, List.mem_singleton] at hd
    subst hd
    exact .inl (by decide +kernel :
      (plainMikey.receive [8] (plainMikey.initMessage [8] [1, 2, 3] none [] []).bytes).1 = true)
  · simp [sclientReply, hreply, reply]

/-- A message that only carries a PSK of its own: gcks2 takes its key and forwards it to
the host it names, sclient and sclient2 install its TGK. -/
def forgedText (connInfo : Bytes) : Bytes :=
  (plainMikey.initMessage [6, 6, 6] [1, 2, 3]
    (some ([1, mikeyExtTypeKrb5Id, 0, UInt8.ofNat connInfo.length] ++ connInfo)) [] []).bytes

theorem forged_not_gated :
    let forged := forgedText (ascii "eve|10.6.6.6|1|group1|")
    let net : ClientNet := ⟨true, fun _ => true, true⟩
    let gcks : Delivery Bytes := .gcks2 forged net [5]
    ∃ s : Parties Bytes,
      Run (Parties.Step plainMikey [7, 0, 9]) {}
        [gcks, .sclient [8] forged, .sclient2 [8] forged] s ∧
      ¬ s.Gated plainMikey [7, 0, 9] ∧
      (∀ d ∈ [gcks, .sclient [8] forged, .sclient2 [8] forged],
        ¬ d.Authentic plainMikey [7, 0, 9] ∧ ∃ e, (d, e) ∈ s.log) ∧
      (gcks, .tookKey [1, 2, 3]) ∈ s.log ∧
      ∃ m, m.host = ascii "10.6.6.6" ∧ (gcks, .sent m) ∈ s.log := by
  intro forged net gcks
  let connInfo : ClientConnInfo :=
    ⟨some (ascii "eve"), some (ascii "10.6.6.6"), some (ascii "group1"), 1⟩
  let m : ClientMessage := ⟨[1, 2, 3], ascii "eve", ascii "10.6.6.6", 9999,
    (plainMikey.initMessage [1, 2, 3] [5] none (ascii "eve") [5]).bytes⟩
  have hgcks : passEffects plainMikey net [5]
      (processMikeyMessage plainMikey [7, 0, 9] forged { olds := none }) =
      [.tookKey [1, 2, 3], .tookConnInfo connInfo, .sent m] := by
    decide +kernel
  have hreply : replyEffects plainMikey [8] forged =
      [.installed ⟨[1, 2, 3], some (ascii "eve|10.6.6.6|1|group1|")⟩, .succeeded] := by
    decide +kernel
  have hauth : ∀ d ∈ [gcks, .sclient [8] forged, .sclient2 [8] forged],
      ¬ d.Authentic plainMikey [7, 0, 9] := by
    have h7 : (plainMikey.receive [7, 0, 9] forged).1 = false := by decide +kernel
    have h8 : (plainMikey.receive [8] forged).1 = false := by decide +kernel
    simp [Delivery.Authentic, Delivery.input, gcks, h7, h8]
  have run := (((@Run.nil _ _ (Parties.Step plainMikey [7, 0, 9]) {}).snoc
    (.gcks2 {} forged net [5] rfl _ rfl)).snoc (.sclient _ [8] forged)).snoc
    (.sclient2 _ [8] forged)
  refine ⟨_, run, ?_, ?_, ?_, m, rfl, ?_⟩
  · intro hg
    refine hauth gcks (by simp) (hg (gcks, .tookKey [1, 2, 3]) ?_)
    simp [hgcks, gcks]
  · intro d hd
    refine ⟨hauth d hd, ?_⟩
    simp only [List.mem_cons, List.not_mem_nil, or_false] at hd
    rcases hd with rfl | rfl | rfl
    · exact ⟨.tookKey [1, 2, 3], by simp [hgcks, gcks]⟩
    · exact ⟨.succeeded, by simp [sclientReply, hreply]⟩
    · exact ⟨.succeeded, by simp [sclient2Reply, hreply]⟩
  · simp [hgcks, gcks]
  · simp [hgcks, gcks]

end KerberizedMikey
