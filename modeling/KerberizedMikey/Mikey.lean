import KerberizedMikey.Payload.GeneralExtensions
import KerberizedMikey.CLib.Decimal

/-!
# MIKEY key agreement as the kmtools use it

The patched part of libmikey: `createKeyAgreement` takes the TGK and `connInfo`
from the configuration, `MikeyMessagePSK` adds a `connInfo` extension payload, and
`setOffer` copies it back.  What the repository does not contain (payload
encryption, base64, authentication) is a parameter `LibMikey`; the facts the
programs rely on are `LibMikey.Lawful`.  What the constructor writes into its debug log,
which may end the process, is apart in `DebugLog.write`.

    cstr connInfo = ok s  →  connInfoPayload next connInfo = ok ext, and the message with
      ext is parsed and offers the TGK and s again     (setMikeyOffer_connInfoPayload)
    a connInfo is logged  ↔  the log opens, with a NUL behind the data  (DebugLog.write_ok_iff)
-/

namespace KerberizedMikey

open CLib

/-- `MikeyTestConfig`: `tgkPtr`/`tgkLength` and `connInfo` may be NULL. -/
structure MikeyTestConfig where
  psk : Bytes
  tgk : Option Bytes := none
  connInfo : Option Bytes := none

/-- A received message as libmikey holds it: the TGK under the responder's key, and
the message from its General Extension payload on, if it has one. -/
structure RawMessage where
  tgk : Bytes
  extension : Option Bytes

/-- The extension, if there is one, has a header and as many bytes as that says. -/
def RawMessage.WellFormed (raw : RawMessage) : Prop :=
  ∀ start ∈ raw.extension, ∃ next type hi lo body, start = next :: type :: hi :: lo :: body ∧
    (ofBe hi lo).toNat ≤ body.length

/-- The unpatched part of libmikey, over a source `ρ` of randomness. -/
structure LibMikey (ρ : Type) where
  generateTgk : ρ → Bytes
  /-- The type of the payload after the extension in an initiator message. -/
  nextPayloadType : UInt8
  /-- The text of the initiator message: PSK, TGK, written extension, peer URI. -/
  initMessage : (psk tgk : Bytes) → (extension : Option Bytes) → (peerUri : Bytes) → ρ → CString
  /-- Does `text` authenticate under `psk`, and what was parsed before that was decided. -/
  receive : (psk text : Bytes) → Bool × Option RawMessage

/-- A TGK of so many bytes fits the 16-bit lengths of its payloads. -/
def maxTgk : Nat := 2 ^ 15

/-- What a program may put into a message: a TGK that is not too long, and an extension only
as `writeData` writes it. -/
structure Sendable (tgk : Bytes) (extension : Option Bytes) : Prop where
  tgk : tgk.length ≤ maxTgk
  extension : ∀ ext ∈ extension, ∃ (p : GeneralExtensions) (next : UInt8), ext = p.writeData next

/-- **What the programs rely on.**  The responder that holds the PSK authenticates an
initiator message and finds its TGK and extension; other payloads may follow. -/
structure LibMikey.Lawful {ρ : Type} (L : LibMikey ρ) : Prop where
  generateTgk_length : ∀ r, (L.generateTgk r).length ≤ maxTgk
  receive_initMessage : ∀ psk tgk extension peerUri r, Sendable tgk extension → ∃ rest,
    L.receive psk (L.initMessage psk tgk extension peerUri r).bytes =
      (true, some ⟨tgk, extension.map (· ++ rest)⟩)

/-- A message authenticates under no other PSK of the length of its own. -/
def LibMikey.Keyed {ρ : Type} (L : LibMikey ρ) : Prop :=
  ∀ psk psk' tgk extension peerUri r, Sendable tgk extension → psk'.length = psk.length →
    (L.receive psk' (L.initMessage psk tgk extension peerUri r).bytes).1 = true → psk' = psk

/-- A parsed message. -/
structure MikeyMessage where
  tgk : Bytes
  extension : Option GeneralExtensions

/-- What `setMikeyOffer` leaves in the key agreement. -/
structure KeyAgreementPSK where
  tgk : Bytes
  connInfo : Option Bytes
deriving DecidableEq

section
variable {ρ : Type} (L : LibMikey ρ)

/-- `Mikey::createKeyAgreement`. -/
def createKeyAgreement (config : MikeyTestConfig) (r : ρ) : KeyAgreementPSK where
  tgk := config.tgk.getD (L.generateTgk r)
  connInfo := config.connInfo

/-- The extension payload of `MikeyMessagePSK(ka)`, written: `leng = strlen(connInfo)`. -/
def connInfoPayload (next : UInt8) (connInfo : Bytes) : Except Fault Bytes := do
  let s ← cstr connInfo
  let p ← GeneralExtensions.encode mikeyExtTypeKrb5Id (UInt16.ofNat s.length) connInfo
  return p.writeData next

/-- `Mikey::initiatorCreate(KEY_AGREEMENT_TYPE_PSK, peerUri)`, but for the debug log. -/
def initiatorCreate (config : MikeyTestConfig) (peerUri : Bytes) (r : ρ) :
    Except Fault CString :=
  let ka := createKeyAgreement L config r
  match ka.connInfo with
  | none => .ok (L.initMessage config.psk ka.tgk none peerUri r)
  | some c => do
    let extension ← connInfoPayload L.nextPayloadType c
    return L.initMessage config.psk ka.tgk (some extension) peerUri r

/-- krb5debug.log, and the heap behind the data of the extension payload. -/
structure DebugLog where
  /-- `fopen` does not return NULL. -/
  opens : Bool
  behind : Bytes

/-- The debug lines of `MikeyMessagePSK(ka)`: the `FILE*` is not checked, and the payload's
data, without a NUL of their own, are printed with `%s`. -/
def DebugLog.write (log : DebugLog) (connInfo : Option Bytes) : Except Fault Unit :=
  if !log.opens then .error .nullDeref
  else
    match connInfo with
    | none => .ok ()
    | some connInfo => do
      let s ← cstr connInfo
      let p ← GeneralExtensions.encode mikeyExtTypeKrb5Id (UInt16.ofNat s.length) connInfo
      let _ ← cstr (p.data ++ log.behind)
      return ()

/-- `Mikey::initiatorCreate` of a process that writes the debug log. -/
def initiatorCreateLogged (log : DebugLog) (config : MikeyTestConfig) (peerUri : Bytes) (r : ρ) :
    Except Fault CString := do
  log.write config.connInfo
  initiatorCreate L config peerUri r

/-- `MikeyMessage::parse` on the payload the patch decodes. -/
def parseExtension : RawMessage → Except Fault MikeyMessage
  | ⟨tgk, none⟩ => .ok ⟨tgk, none⟩
  | ⟨tgk, some start⟩ => do
    let (_, p, _) ← GeneralExtensions.decode start
    return ⟨tgk, some p⟩

/-- `Mikey::responderAuthenticate`: its result, and the message now held (NULL when
nothing could be parsed). -/
def responderAuthenticate (config : MikeyTestConfig) (text : Bytes) :
    Except Fault (Bool × Option MikeyMessage) :=
  match L.receive config.psk text with
  | (ok, none) => .ok (ok, none)
  | (ok, some raw) => do
    let m ← parseExtension raw
    return (ok, some m)

/-- `Mikey::setMikeyOffer`, with `MikeyMessagePSK::setOffer`: the TGK, and a copy of
exactly `leng` bytes of a KRB5 extension, not terminated. -/
def setMikeyOffer (config : MikeyTestConfig) : Option MikeyMessage → Except Fault KeyAgreementPSK
  | none => .error .nullDeref
  | some ⟨tgk, none⟩ => .ok ⟨tgk, config.connInfo⟩
  | some ⟨tgk, some p⟩ =>
    if p.type = mikeyExtTypeKrb5Id then do
      let connInfo ← strncpy p.data p.leng.toNat
      return ⟨tgk, some connInfo⟩
    else .ok ⟨tgk, config.connInfo⟩

/-- The message for a configuration with TGK and `connInfo`. -/
theorem initiatorCreate_of_payload {config : MikeyTestConfig} {tgk c ext : Bytes}
    (ht : config.tgk = some tgk) (hc : config.connInfo = some c)
    (he : connInfoPayload L.nextPayloadType c = .ok ext) (peerUri : Bytes) (r : ρ) :
    initiatorCreate L config peerUri r =
      .ok (L.initMessage config.psk tgk (some ext) peerUri r) := by
  simp only [initiatorCreate, createKeyAgreement, hc, ht, he, bind, Except.bind]
  rfl

/-! ## The debug log -/

/-- The log can be opened, and there is a NUL somewhere behind the data. -/
def DebugLog.Works (log : DebugLog) : Prop := log.opens = true ∧ 0 ∈ log.behind

instance (log : DebugLog) : Decidable log.Works := by
  unfold DebugLog.Works
  infer_instance

/-- **When a message is logged.**  The bytes of the payload bring no NUL themselves. -/
theorem DebugLog.write_ok_iff (log : DebugLog) {connInfo s : Bytes} (h : cstr connInfo = .ok s)
    (hl : s.length < 2 ^ 16) : log.write (some connInfo) = .ok () ↔ log.Works := by
  have hn : (UInt16.ofNat s.length).toNat = s.length := UInt16.toNat_ofNat_of_lt' hl
  obtain ⟨hlt, htake⟩ := take_of_cstr h
  obtain ⟨p, hp, -, -, hdata⟩ := GeneralExtensions.fill_data mikeyExtTypeKrb5Id
    (UInt16.ofNat s.length) connInfo 0 (UInt16.ofNat s.length).toNat (by omega) (Nat.le_refl _)
  rw [hn, List.drop_zero, htake, Nat.sub_self] at hdata
  have hencode : GeneralExtensions.encode mikeyExtTypeKrb5Id (UInt16.ofNat s.length) connInfo =
      .ok p := hp
  unfold DebugLog.write DebugLog.Works
  cases log.opens with
  | false => simp
  | true =>
    have hmem : 0 ∈ p.data ++ log.behind ↔ 0 ∈ log.behind := by
      rw [hdata]
      simp [calloc, not_mem_of_cstr h]
    simp only [h, hencode, bind, Except.bind, Bool.not_true, Bool.false_eq_true, if_false, true_and]
    rw [← hmem, ← cstr_ok_iff]
    cases cstr (p.data ++ log.behind) with
    | error f => simp
    | ok s' => exact iff_of_true rfl ⟨s', rfl⟩

/-! ## The extension's round trip -/

/-- `setOffer` returns the bytes of a NUL-free KRB5 extension. -/
theorem setMikeyOffer_of_content (config : MikeyTestConfig) (tgk s : Bytes)
    (p : GeneralExtensions) (ht : p.type = mikeyExtTypeKrb5Id) (hc : p.content = s)
    (h0 : 0 ∉ s) : setMikeyOffer config (some ⟨tgk, some p⟩) = .ok ⟨tgk, some s⟩ := by
  have hcopy : strncpy p.data p.leng.toNat = .ok s := by
    rw [strncpy_of_not_mem p.data p.leng.toNat p.leng_le (by rw [← hc] at h0; exact h0)]
    exact congrArg Except.ok hc
  rw [setMikeyOffer, if_pos ht, hcopy]
  rfl

theorem parseExtension_ok_iff (raw : RawMessage) :
    (∃ m, parseExtension raw = .ok m) ↔ raw.WellFormed := by
  obtain ⟨tgk, extension⟩ := raw
  cases extension with
  | none =>
    refine iff_of_true ⟨_, rfl⟩ ?_
    intro start hs
    cases hs
  | some start =>
    have hwf : RawMessage.WellFormed ⟨tgk, some start⟩ ↔
        ∃ out, GeneralExtensions.decode start = .ok out := by
      rw [GeneralExtensions.decode_ok_iff]
      constructor
      · intro h
        exact h start rfl
      · rintro h s ⟨⟩
        exact h
    rw [hwf, parseExtension]
    cases GeneralExtensions.decode start with
    | error f =>
      refine iff_of_false ?_ ?_
      · rintro ⟨m, ⟨⟩⟩
      · rintro ⟨out, ⟨⟩⟩
    | ok out => exact iff_of_true ⟨_, rfl⟩ ⟨_, rfl⟩

/-- `setOffer` has no fault of its own: the payload holds its `leng` bytes. -/
theorem setMikeyOffer_some (config : MikeyTestConfig) (m : MikeyMessage) :
    ∃ ka, setMikeyOffer config (some m) = .ok ka := by
  obtain ⟨tgk, extension⟩ := m
  cases extension with
  | none => exact ⟨_, rfl⟩
  | some p =>
    obtain ⟨connInfo, hc⟩ := strncpy_of_le p.data p.leng.toNat p.leng_le
    by_cases ht : p.type = mikeyExtTypeKrb5Id
    · refine ⟨⟨tgk, some connInfo⟩, ?_⟩
      rw [setMikeyOffer, if_pos ht, hc]
      rfl
    · refine ⟨⟨tgk, config.connInfo⟩, ?_⟩
      rw [setMikeyOffer, if_neg ht]

/-- **The `connInfo` string survives the wire.**  It is written as a payload that,
whatever follows it, `setMikeyOffer` turns back into its bytes. -/
theorem setMikeyOffer_connInfoPayload (next : UInt8) {connInfo s : Bytes}
    (h : cstr connInfo = .ok s) (hl : s.length < 2 ^ 16) :
    ∃ ext, connInfoPayload next connInfo = .ok ext ∧
      (∃ (p : GeneralExtensions) (next : UInt8), ext = p.writeData next) ∧
      ∀ (config : MikeyTestConfig) (tgk rest : Bytes), ∃ m,
        parseExtension ⟨tgk, some (ext ++ rest)⟩ = .ok m ∧
        setMikeyOffer config (some m) = .ok ⟨tgk, some s⟩ := by
  obtain ⟨hlt, htake⟩ := take_of_cstr h
  have hn : (UInt16.ofNat s.length).toNat = s.length := UInt16.toNat_ofNat_of_lt' hl
  obtain ⟨p, hp, ht, -, hc⟩ := GeneralExtensions.encode_eq mikeyExtTypeKrb5Id
    (UInt16.ofNat s.length) connInfo (by omega)
  rw [hn, htake] at hc
  refine ⟨p.writeData next, ?_, ⟨p, next, rfl⟩, fun config tgk rest => ?_⟩
  · rw [connInfoPayload, h]
    show (GeneralExtensions.encode _ _ _).bind _ = _
    rw [hp]
    rfl
  · obtain ⟨p', hp', ht', -, hc'⟩ := GeneralExtensions.decode_writeData next p rest
    refine ⟨⟨tgk, some p'⟩, ?_, ?_⟩
    · rw [parseExtension, hp']
      rfl
    · exact setMikeyOffer_of_content config tgk s p' (ht'.trans ht) (hc'.trans hc)
        (not_mem_of_cstr h)

end

end KerberizedMikey
