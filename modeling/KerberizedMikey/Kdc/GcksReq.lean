import KerberizedMikey.Mikey
import KerberizedMikey.CLib.InetNtop

/-!
# do_gcks_req: the KDC tells the key server about a ticket

`do_gcks_req` formats the client's name, observed address and port and the group's
name into `connInfo[1024]`, lets libmikey put them with the session key into a
MIKEY message under the key server's key, copies its text into `tmpBuf[BUFSIZ]` and
sends that string.

    snprintf(connInfo, 1024, "%s|%s|%d|%s|", ...) holds the first 1023 bytes of
      connInfoText cname addr port sname                            (cstr_connInfoBuffer)
    the text sent is the message, cut to 8191 bytes                 (sendText_eq)

The message can always be made (`message_ok`), and if its debug log works the call goes on
to the network (`call_spec`).
-/

namespace KerberizedMikey

open CLib

/-- `krb5_fulladdr`; `none` is an address type `ADDRTYPE2FAMILY` does not map. -/
structure FullAddr where
  address : Option InetAddr
  port : UInt32

/-- `fromString`: `inet_ntop` into `fromStringBuf[100]`. -/
def fromString (address : Option InetAddr) : Bytes :=
  (address.bind fun a => inetNtop a 100).getD (ascii "<unknown>")

/-- `"%s|%s|%d|%s|"`. -/
def connInfoText (cname addr : Bytes) (port : Int32) (sname : Bytes) : Bytes :=
  cname ++ bar :: (addr ++ bar :: (fmtInt port.toInt ++ bar :: (sname ++ [bar])))

/-- `connInfo[1024]` before `libmikey` sees it, with `stack` what the array held on
entry: NULL names leave it so. -/
def connInfoBuffer (stack : Bytes) (cname sname : Option CString) (addr : Bytes)
    (port : Int32) : Bytes :=
  match cname, sname with
  | some cname, some sname =>
    snprintf stack 1024 (connInfoText cname.bytes addr port sname.bytes)
  | _, _ => stack

/-- `tmpBuf` as a string: what is sent. -/
def sendText (mikeyMessage : CString) : Except Fault Bytes := do
  let tmpBuf ← strncpy mikeyMessage.alloc bufsiz
  cstr (tmpBuf.set (bufsiz - 1) 0)

/-- What `do_gcks_req` meets: the debug log, then the network. -/
structure KdcNet where
  log : DebugLog
  resolves : Bool
  socket : Bool
  setsockopt : Bool
  connect : Bool

def KdcNet.up : KdcNet := ⟨⟨true, [0]⟩, true, true, true, true⟩

inductive CallEnd
  | returns (retval : Int32)
  /-- The end of the function, which has no `return` there. -/
  | fallsOff
  /-- `exit(1)`. -/
  | exits
deriving DecidableEq

/-- What a call of `do_gcks_req` did. -/
structure GcksCall where
  /-- The bytes given to `send`. -/
  sent : Option Bytes
  openSockets : Nat
  ending : CallEnd
deriving DecidableEq

section
variable {ρ : Type} (L : LibMikey ρ)

/-- The configuration `do_gcks_req` fills in. -/
def gcksConfig (stack : Bytes) (cname sname : Option CString) (addr : FullAddr)
    (gcksKey sessionKey : Bytes) : MikeyTestConfig where
  psk := gcksKey
  tgk := some sessionKey
  connInfo := some (connInfoBuffer stack cname sname (fromString addr.address) addr.port.toInt32)

/-- The connection with the key server, once the text is in `tmpBuf`. -/
def sendToGcks (net : KdcNet) (text : Bytes) : Except Fault GcksCall :=
  if !net.socket then .ok ⟨none, 0, .returns (-1)⟩
  else if !net.resolves then .error .nullDeref
  else if !net.setsockopt then .ok ⟨none, 1, .exits⟩
  else if !net.connect then .ok ⟨none, 1, .returns (-1)⟩
  else .ok ⟨some text, 0, .fallsOff⟩

/-- `do_gcks_req(cname, sname, from, gcks_key, session_key)`. -/
def doGcksReq (net : KdcNet) (r : ρ) (stack : Bytes) (cname sname : Option CString)
    (addr : FullAddr) (gcksKey sessionKey : Bytes) : Except Fault GcksCall := do
  let config := gcksConfig stack cname sname addr gcksKey sessionKey
  let mikeyMessage ← initiatorCreateLogged L net.log config (ascii "KDC") r
  let text ← sendText mikeyMessage
  sendToGcks net text

end

/-- A MIKEY TGS request, with the session key of its ticket. -/
structure Request where
  cname : CString
  sname : CString
  addr : FullAddr
  sessionKey : Bytes
  sessionKey_length : sessionKey.length ≤ maxTgk

/-- A request, and what its call of `do_gcks_req` meets. -/
structure GcksReq (ρ : Type) where
  req : Request
  net : KdcNet
  r : ρ
  stack : Bytes

namespace GcksReq

section
variable {ρ : Type} (L : LibMikey ρ) (gcksKey : Bytes)

/-- The MIKEY message with the session key of the request's ticket. -/
def message (q : GcksReq ρ) : Except Fault CString :=
  initiatorCreate L (gcksConfig q.stack (some q.req.cname) (some q.req.sname) q.req.addr gcksKey
    q.req.sessionKey) (ascii "KDC") q.r

/-- The call in `process_tgs_req`. -/
def call (q : GcksReq ρ) : Except Fault GcksCall :=
  doGcksReq L q.net q.r q.stack (some q.req.cname) (some q.req.sname) q.req.addr gcksKey
    q.req.sessionKey

/-- The message fits `tmpBuf[BUFSIZ]`. -/
def Fits (q : GcksReq ρ) : Prop := ∀ m, q.message L gcksKey = .ok m → m.bytes.length < bufsiz

end

end GcksReq

/-- What is sent is the text in `tmpBuf`. -/
theorem eq_of_sendToGcks {net : KdcNet} {text sent : Bytes} {fds : Nat} {ending : CallEnd}
    (h : sendToGcks net text = .ok ⟨some sent, fds, ending⟩) : sent = text := by
  unfold sendToGcks at h
  split at h
  · cases h
  split at h
  · cases h
  split at h
  · cases h
  split at h
  · cases h
  · cases h
    rfl

/-! ## The buffers -/

/-- The address of a known type is printed whole. -/
@[simp] theorem fromString_some (a : InetAddr) : fromString (some a) = inetText a := by
  have := length_inetText a
  simp only [fromString, Option.bind_some, inetNtop]
  rw [if_pos (by omega)]
  rfl

/-- An address string is a proper field of `connInfo`. -/
theorem fromString_field (address : Option InetAddr) :
    fromString address ≠ [] ∧ bar ∉ fromString address ∧ 0 ∉ fromString address := by
  cases address with
  | none => decide
  | some a =>
    rw [fromString_some]
    exact ⟨inetText_ne_nil a, not_mem_inetText a (by decide), not_mem_inetText a (by decide)⟩

theorem not_mem_connInfoText {cname addr sname : Bytes} {port : Int32} (hc : 0 ∉ cname)
    (ha : 0 ∉ addr) (hs : 0 ∉ sname) : 0 ∉ connInfoText cname addr port sname := by
  have hp : (0 : UInt8) ∉ fmtInt port.toInt := not_mem_fmtInt (by decide) (by decide)
  simp [connInfoText, hc, ha, hs, hp, bar]

theorem cstr_connInfoBuffer (stack : Bytes) (cname sname : CString) (addr : Bytes)
    (port : Int32) (ha : 0 ∉ addr) :
    cstr (connInfoBuffer stack (some cname) (some sname) addr port) =
      .ok ((connInfoText cname.bytes addr port sname.bytes).take 1023) :=
  cstr_snprintf stack 1024 _ (not_mem_connInfoText cname.nul_free ha sname.nul_free)

theorem sendText_eq (m : CString) : sendText m = .ok (m.bytes.take (bufsiz - 1)) := by
  have h0 := m.nul_free
  unfold sendText CString.alloc
  rw [strncpy_append_nul m.bytes [] bufsiz h0]
  show cstr (((m.bytes ++ List.replicate bufsiz 0).take (8191 + 1)).set 8191 0) = _
  have hl : 8191 < (m.bytes ++ List.replicate bufsiz 0).length := by
    rw [List.length_append, List.length_replicate, bufsiz]
    omega
  rw [List.take_succ_eq_append_getElem hl, List.set_append_right _ _ (by simp)]
  have hz : 8191 - ((m.bytes ++ List.replicate bufsiz 0).take 8191).length = 0 := by
    rw [List.length_take]
    omega
  rw [hz, List.set_cons_zero]
  by_cases hm : 8191 ≤ m.bytes.length
  · rw [List.take_append_of_le_length hm]
    exact cstr_append_nul _ _ fun h => h0 (List.mem_of_mem_take h)
  · -- the padding of `strncpy` already holds the NUL
    obtain ⟨k, hk⟩ : ∃ k, 8191 - m.bytes.length = k + 1 := ⟨8191 - m.bytes.length - 1, by omega⟩
    rw [List.take_append, List.take_of_length_le (by omega), List.take_replicate,
      Nat.min_eq_left (by rw [bufsiz]; omega), hk, List.replicate_succ, List.append_assoc,
      List.cons_append, cstr_append_nul _ _ h0,
      List.take_of_length_le (by show m.bytes.length ≤ 8191; omega)]

/-! ## A request's connInfo and its call -/

namespace Request

def addrText (req : Request) : Bytes := fromString req.addr.address

theorem addrText_field (req : Request) :
    req.addrText ≠ [] ∧ bar ∉ req.addrText ∧ 0 ∉ req.addrText :=
  fromString_field req.addr.address

/-- The request's `connInfo`, with what `connInfo[1024]` holds of it. -/
def text (req : Request) : Bytes :=
  (connInfoText req.cname.bytes req.addrText req.addr.port.toInt32 req.sname.bytes).take 1023

theorem not_mem_text (req : Request) : 0 ∉ req.text := fun h =>
  not_mem_connInfoText req.cname.nul_free req.addrText_field.2.2 req.sname.nul_free
    (List.mem_of_mem_take h)

theorem length_text (req : Request) : req.text.length ≤ 1023 := List.length_take_le _ _

end Request

namespace GcksReq

section
variable {ρ : Type} {L : LibMikey ρ} {gcksKey : Bytes}

theorem cstr_connInfo (q : GcksReq ρ) :
    cstr (connInfoBuffer q.stack (some q.req.cname) (some q.req.sname) q.req.addrText
      q.req.addr.port.toInt32) = .ok q.req.text :=
  cstr_connInfoBuffer q.stack q.req.cname q.req.sname q.req.addrText q.req.addr.port.toInt32
    q.req.addrText_field.2.2

variable (L gcksKey) in
/-- **The KDC's message.**  It can always be made, and carries key and `connInfo`. -/
theorem message_ok (q : GcksReq ρ) : ∃ ext,
    q.message L gcksKey =
      .ok (L.initMessage gcksKey q.req.sessionKey (some ext) (ascii "KDC") q.r) ∧
    Sendable q.req.sessionKey (some ext) ∧
    ∀ (config : MikeyTestConfig) (tgk rest : Bytes), ∃ m,
      parseExtension ⟨tgk, some (ext ++ rest)⟩ = .ok m ∧
      setMikeyOffer config (some m) = .ok ⟨tgk, some q.req.text⟩ := by
  have hlen := q.req.length_text
  obtain ⟨ext, he, hw, hext⟩ := setMikeyOffer_connInfoPayload L.nextPayloadType q.cstr_connInfo
    (by omega)
  refine ⟨ext, initiatorCreate_of_payload L rfl rfl he (ascii "KDC") q.r, ?_, hext⟩
  refine ⟨q.req.sessionKey_length, ?_⟩
  rintro _ ⟨⟩
  exact hw

/-- What a call does once it has a message. -/
theorem call_spec {q : GcksReq ρ} {m : CString} (hm : q.message L gcksKey = .ok m) :
    (q.net.log.Works ∧ q.call L gcksKey = sendToGcks q.net (m.bytes.take (bufsiz - 1))) ∨
    (¬ q.net.log.Works ∧ ∃ f, q.call L gcksKey = .error f) := by
  have hlen := q.req.length_text
  have hlog := q.net.log.write_ok_iff q.cstr_connInfo (by omega)
  have hcall : q.call L gcksKey =
      (q.net.log.write (some (connInfoBuffer q.stack (some q.req.cname) (some q.req.sname)
        q.req.addrText q.req.addr.port.toInt32))).bind fun _ =>
          (q.message L gcksKey).bind fun m => (sendText m).bind (sendToGcks q.net) := by
    unfold call doGcksReq initiatorCreateLogged
    rw [bind_assoc]
    rfl
  rw [hm] at hcall
  cases hw : q.net.log.write (some (connInfoBuffer q.stack (some q.req.cname) (some q.req.sname)
    q.req.addrText q.req.addr.port.toInt32)) with
  | error f =>
    rw [hw] at hcall hlog
    refine .inr ⟨fun h => ?_, f, hcall⟩
    cases hlog.mpr h
  | ok u =>
    rw [hw] at hcall hlog
    refine .inl ⟨hlog.mp rfl, ?_⟩
    rw [hcall]
    simp only [Except.bind, sendText_eq]

/-- What a call sends is its message, if that fits. -/
theorem message_of_call {q : GcksReq ρ} (hfit : q.Fits L gcksKey) {text : Bytes} {fds : Nat}
    {ending : CallEnd} (h : q.call L gcksKey = .ok ⟨some text, fds, ending⟩) :
    ∃ m, q.message L gcksKey = .ok m ∧ text = m.bytes := by
  obtain ⟨ext, hm, -⟩ := q.message_ok L gcksKey
  have hlen := hfit _ hm
  refine ⟨_, hm, ?_⟩
  rcases call_spec hm with ⟨-, hc⟩ | ⟨-, f, hc⟩
  · rw [List.take_of_length_le (by omega), h] at hc
    exact eq_of_sendToGcks hc.symm
  · rw [h] at hc
    cases hc

/-- When everything works the message leaves whole. -/
theorem call_of_up {q : GcksReq ρ} (hnet : q.net = KdcNet.up) (hfit : q.Fits L gcksKey) :
    ∃ m, q.message L gcksKey = .ok m ∧ q.call L gcksKey = .ok ⟨some m.bytes, 0, .fallsOff⟩ := by
  obtain ⟨ext, hm, -⟩ := q.message_ok L gcksKey
  have hlen := hfit _ hm
  refine ⟨_, hm, ?_⟩
  rcases call_spec hm with ⟨-, hc⟩ | ⟨hlog, -⟩
  · rw [hc, hnet, List.take_of_length_le (by omega)]
    rfl
  · rw [hnet] at hlog
    exact absurd (show KdcNet.up.log.Works by decide) hlog

theorem fits_of_all {q : GcksReq ρ} (h : ((q.message L gcksKey).toOption.all fun m =>
    m.bytes.length < bufsiz) = true) : q.Fits L gcksKey := by
  intro m hm
  rw [hm] at h
  exact of_decide_eq_true h

end

end GcksReq

end KerberizedMikey
