import KerberizedMikey.Mikey
import KerberizedMikey.CLib.Strtok

/-!
# gcks2: the key server of model 2

One pass of the accept loop takes a message from the KDC with
`process_mikey_message` (session key from the TGK, client from the extension,
parsed by `parse_conn_info`) and forwards a fresh MIKEY message to that client
with `send_mikey_message`.

`parse_conn_info` reads the first four tokens (`parseConnInfo_tokens`); on a `connInfo`
without NUL these are closed fields:

    termFields bar p = n :: a :: q :: g :: _  →
      parseConnInfo (some p) olds = ok (n, a, atoi q, g)
    fewer than four  →  error overRead                      (parseConnInfo_spec)
-/

namespace KerberizedMikey

open CLib

/-- `client_conn_info_t`; a pointer is `none` for NULL, else its heap string. -/
structure ClientConnInfo where
  clientName : Option Bytes := none
  clientAddr : Option Bytes := none
  groupName : Option Bytes := none
  clientPort : Int32 := 0
deriving DecidableEq

/-- A pointer that is used without a check. -/
def deref : Option Bytes → Except Fault Bytes
  | some s => .ok s
  | none => .error .nullDeref

/-- `pch = strtok(s, "|")`, then `strlen(pch)` or `atoi(pch)`: the token and the new
`olds`. -/
def token (s olds : Option Bytes) : Except Fault (Bytes × Option Bytes) := do
  let (pch, olds) ← strtok bar s olds
  let t ← deref pch
  return (t, olds)

/-- `parse_conn_info`. -/
def parseConnInfo (connInfo olds : Option Bytes) :
    Except Fault (ClientConnInfo × Option Bytes) := do
  let (clientName, olds) ← token connInfo olds
  let (clientAddr, olds) ← token none olds
  let (clientPort, olds) ← token none olds
  let (groupName, olds) ← token none olds
  return (⟨some clientName, some clientAddr, some groupName, atoi clientPort⟩, olds)

/-- The variables of one pass of the loop, and `strtok`'s static pointer. -/
structure GcksVars where
  sessionKey : Option Bytes := none
  connInfo : ClientConnInfo := {}
  olds : Option Bytes := none
deriving DecidableEq

/-- A MIKEY message on its way to a client. -/
structure ClientMessage where
  psk : Bytes
  peerUri : Bytes
  host : Bytes
  port : UInt16
  text : Bytes
deriving DecidableEq

/-- What the network does to `send_mikey_message`. -/
structure ClientNet where
  socket : Bool
  resolves : Bytes → Bool
  /-- Some attempt of the connect loop succeeds. -/
  connects : Bool

inductive SendOutcome
  | noSocket
  /-- The connect loop never ends. -/
  | connecting
  | sent (m : ClientMessage)
deriving DecidableEq

section
variable {ρ : Type} (L : LibMikey ρ)

/-- `process_mikey_message`.  The value of `responderAuthenticate` is only printed; the
variables set before a fault stay set. -/
def processMikeyMessage (gcksKey keyMgmtMessage : Bytes) (v : GcksVars) :
    GcksVars × Option Fault :=
  let config : MikeyTestConfig := { psk := gcksKey }
  match responderAuthenticate L config keyMgmtMessage with
  | .error f => (v, some f)
  | .ok (_, message) =>
    match setMikeyOffer config message with
    | .error f => (v, some f)
    | .ok ka =>
      match parseConnInfo ka.connInfo v.olds with
      | .error f => ({ v with sessionKey := some ka.tgk }, some f)
      | .ok (connInfo, olds) => ({ sessionKey := some ka.tgk, connInfo, olds }, none)

/-- `send_mikey_message` up to `gethostbyname(client_addr)`: names into
`peerUri[2048]` and `client_addr[30]`, and the message for the client. -/
def clientMessage (r : ρ) (clientName cAddr sessionKey : Option Bytes) :
    Except Fault ClientMessage := do
  let psk ← deref sessionKey
  let clientName ← deref clientName
  let cAddr ← deref cAddr
  let peerUri ← strncpy (clientName ++ [0]) 2048
  let clientAddr ← strncpy (cAddr ++ [0]) 30
  let peerUri ← cstr peerUri
  let keyMgmtMessage ← initiatorCreate L { psk } peerUri r
  let host ← cstr clientAddr
  return ⟨psk, peerUri, host, 9999, keyMgmtMessage.bytes⟩

/-- `send_mikey_message`; `client_port` is not used. -/
def sendMikeyMessage (net : ClientNet) (r : ρ) (clientName cAddr : Option Bytes)
    (_clientPort : Int32) (sessionKey : Option Bytes) : Except Fault SendOutcome := do
  let m ← clientMessage L r clientName cAddr sessionKey
  if !net.socket then return .noSocket
  else if !net.resolves m.host then .error .nullDeref
  else if !net.connects then return .connecting
  else return .sent m

/-- `send_mikey_message` with the loop's variables. -/
def forward (net : ClientNet) (r : ρ) (v : GcksVars) : Except Fault SendOutcome :=
  sendMikeyMessage L net r v.connInfo.clientName v.connInfo.clientAddr v.connInfo.clientPort
    v.sessionKey

end

/-! ## parse_conn_info reads four tokens -/

/-- Where `strtok` finds no token: the scan leaves the buffer, or meets a NUL and the NULL
it returns is used. -/
def noToken (p : Bytes) : Fault := if 0 ∈ p then .nullDeref else .overRead

/-- One call of `strtok` on the buffer it works in. -/
theorem token_tokens (s olds : Option Bytes) (p : Bytes) (hp : s.or olds = some p) :
    (tokens bar p = [] ∧ token s olds = .error (noToken p)) ∨
    ∃ t r, tokens bar p = t :: tokens bar r ∧ noToken r = noToken p ∧
      token s olds = .ok (t, some r) := by
  have hs : strtok bar s olds = strtokAt bar p := by
    cases s with
    | some q => cases hp; rfl
    | none => cases (show olds = some p from hp); rfl
  unfold token noToken
  rw [hs]
  rcases strtokAt_tokens (by decide : bar ≠ 0) p with ⟨ht, ⟨h0, he⟩ | ⟨h0, r, he⟩⟩ |
    ⟨t, r, ht, hr, he⟩
  · refine .inl ⟨ht, ?_⟩
    rw [he, if_neg h0]
    rfl
  · refine .inl ⟨ht, ?_⟩
    rw [he, if_pos h0]
    rfl
  · refine .inr ⟨t, r, ht, by simp only [hr], ?_⟩
    rw [he]
    rfl

/-- **Four tokens or a fault**, on any buffer. -/
theorem parseConnInfo_tokens (s olds : Option Bytes) (p : Bytes) (hp : s.or olds = some p) :
    (∃ n a q g r, tokens bar p = n :: a :: q :: g :: tokens bar r ∧
      parseConnInfo s olds = .ok (⟨some n, some a, some g, atoi q⟩, some r)) ∨
    ((tokens bar p).length < 4 ∧ parseConnInfo s olds = .error (noToken p)) := by
  rcases token_tokens s olds p hp with ⟨h, e1⟩ | ⟨n, r1, h1, k1, e1⟩
  · exact .inr ⟨by simp [h], by simp only [parseConnInfo, e1, bind, Except.bind]⟩
  rcases token_tokens none (some r1) r1 rfl with ⟨h, e2⟩ | ⟨a, r2, h2, k2, e2⟩
  · exact .inr ⟨by simp [h1, h], by simp only [parseConnInfo, e1, e2, k1, bind, Except.bind]⟩
  rcases token_tokens none (some r2) r2 rfl with ⟨h, e3⟩ | ⟨q, r3, h3, k3, e3⟩
  · exact .inr ⟨by simp [h1, h2, h],
      by simp only [parseConnInfo, e1, e2, e3, k1, k2, bind, Except.bind]⟩
  rcases token_tokens none (some r3) r3 rfl with ⟨h, e4⟩ | ⟨g, r4, h4, -, e4⟩
  · exact .inr ⟨by simp [h1, h2, h3, h],
      by simp only [parseConnInfo, e1, e2, e3, e4, k1, k2, k3, bind, Except.bind]⟩
  · refine .inl ⟨n, a, q, g, r4, by rw [h1, h2, h3, h4], ?_⟩
    simp only [parseConnInfo, e1, e2, e3, e4, bind, Except.bind, pure, Except.pure]

/-- **Four closed fields or an over-read**, on a buffer without NUL. -/
theorem parseConnInfo_spec (p : Bytes) (h0 : 0 ∉ p) (olds : Option Bytes) :
    (∃ n a q g more r, termFields bar p = n :: a :: q :: g :: more ∧
      parseConnInfo (some p) olds = .ok (⟨some n, some a, some g, atoi q⟩, some r)) ∨
    ((termFields bar p).length < 4 ∧ parseConnInfo (some p) olds = .error .overRead) := by
  rw [← tokens_of_not_mem bar p h0]
  rcases parseConnInfo_tokens (some p) olds p rfl with ⟨n, a, q, g, r, ht, he⟩ | ⟨hlt, he⟩
  · exact .inl ⟨n, a, q, g, _, r, ht, he⟩
  · refine .inr ⟨hlt, ?_⟩
    rw [he, noToken, if_neg h0]

/-! ## The message for a client -/

section
variable {ρ : Type} (L : LibMikey ρ) (r : ρ)

/-- **Names and key of the message.**  A name that fits is copied whole, with the session
key as PSK; an address of 30 bytes or more fills `client_addr`, which is then not a
string. -/
theorem clientMessage_eq (n a key : Bytes) (hn0 : 0 ∉ n) (ha0 : 0 ∉ a) (hn : n.length < 2048) :
    ∃ text, clientMessage L r (some n) (some a) (some key) =
      if a.length < 30 then .ok ⟨key, n, a, 9999, text⟩ else .error .overRead := by
  obtain ⟨peerUri, h1, hp⟩ := cstr_strncpy n [] 2048 hn0
  obtain ⟨clientAddr, h2, hc⟩ := cstr_strncpy a [] 30 ha0
  rw [if_pos hn] at hp
  refine ⟨(L.initMessage key (L.generateTgk r) none n r).bytes, ?_⟩
  simp only [clientMessage, deref, h1, h2, hp, hc, initiatorCreate, createKeyAgreement, bind,
    Except.bind]
  by_cases ha : a.length < 30
  · rw [if_pos ha, if_pos ha]
    rfl
  · rw [if_neg ha, if_neg ha]

end

end KerberizedMikey
