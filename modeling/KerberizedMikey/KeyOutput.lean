import KerberizedMikey.Km2Binding
import KerberizedMikey.Km2Transport
import KerberizedMikey.Credentials
import KerberizedMikey.CLib.Output

/-!
# What the programs print

The lines that `do_gcks_req`, gcks2's `process_mikey_message` and `send_mikey_message`
and sclient2's `main` write, in their order.  Each has one line that shows a key, as a
`%s` of its bytes, and the keys enter no other line but the MIKEY message; so two runs
that differ in keys only look alike when the keys agree up to their first NUL:

    keyString key behind = keyString key' behind  ↔  shown key = shown key'
                                                            (keyString_eq_iff)
    the runs print the same  ↔  shown key = shown key'       (key_output_iff)
-/

namespace KerberizedMikey

open CLib

/-! ## Lines -/

inductive Sink
  | syslog
  | stdout
  | stderr
deriving DecidableEq

inductive Printed
  | text (sink : Sink) (bytes : Bytes)
  /-- `printf("GCKS to client MikeyMsg:\n%s\n", ...)`. -/
  | mikeyMessage (bytes : Bytes)
deriving DecidableEq

/-- A line without the MIKEY message in it. -/
def Printed.hideMessage : Printed → Printed
  | .mikeyMessage _ => .mikeyMessage []
  | line => line

/-- What the lines show besides names and keys: `__FILE__` and `__LINE__`, the clock, the
errors of libraries, the address in `csIdMap`. -/
structure Shown where
  fileLine : Nat → Bytes
  time : Nat → Bytes
  strerror : Bytes
  errorMessage : Int32 → Bytes
  csIdMap : Bytes
  authError : Bytes

abbrev Prints := Output Printed

def klogSyslog (text : Bytes) : Prints Unit := Output.print (.text .syslog text)
def printf (text : Bytes) : Prints Unit := Output.print (.text .stdout text)

/-- `cout << text << endl`. -/
def cout (text : Bytes) : Prints Unit := printf (text ++ [10])

/-- The line of `perror(s)`. -/
def perrorLine (e : Shown) (s : Bytes) : Printed :=
  .text .stderr (s ++ ascii ": " ++ e.strerror ++ [10])

/-- The line of `com_err`. -/
def comErrLine (e : Shown) (progname : Bytes) (code : Int32) (text : Bytes) : Printed :=
  .text .stderr (progname ++ ascii ": " ++ e.errorMessage code ++ ascii " " ++ text ++ [10])

/-- `%s` of a key: its bytes and those behind it, up to a NUL. -/
def keyString (key : Bytes) (behind : CString) : Bytes :=
  (key ++ behind.alloc).takeWhile (· != 0)

/-- The bytes of a key that `%s` shows. -/
def shown (key : Bytes) : Bytes := key.takeWhile (· != 0)

theorem cstr_key (key : Bytes) (behind : CString) :
    cstr (key ++ behind.alloc) = .ok (keyString key behind) :=
  if_pos (by simp [CString.alloc])

/-- `gcks_key %s, length %d`, also where it is the session key. -/
def keyLine (key : Bytes) (behind : CString) : Printed :=
  .text .stdout (ascii "gcks_key " ++ keyString key behind ++ ascii ", length " ++
    fmtInt key.length ++ [10])

/-! ## libmikey -/

section
variable {ρ : Type} (L : LibMikey ρ) (e : Shown)

/-- `initiatorCreate` with one sender. -/
def initiatorCreatePrints : Prints Unit := do
  cout (ascii "Mikey::initiatorCreate")
  cout (ascii "Mikey::createKeyAgreement")
  cout (ascii "Mikey::addStreamsToKa")
  cout (ascii "Mikey::addStreamsToKa::iterator")
  cout (ascii "MikeyMessagePSK::MikeyMessagePSK - ka" ++ e.csIdMap)

/-- `responderAuthenticate`, with the line of the extension's constructor. -/
def responderAuthenticatePrints (psk text : Bytes) : Prints (Bool × Option MikeyMessage) :=
  match L.receive psk text with
  | (ok, none) => pure (ok, none)
  | (ok, some raw) => do
    let m ← Output.ofExcept (parseExtension raw)
    match m.extension with
    | none => pure ()
    | some p => do
      let data ← Output.ofExcept (cstr p.data)
      cout (ascii "Constructing MikeyPayloadGenExt" ++ data)
    return (ok, some m)

/-- What the caller says about a message that does not authenticate. -/
def authErrorPrints (ok : Bool) : Prints Unit :=
  if ok then pure ()
  else do
    cout (ascii "Incoming key management message could not be authenticated")
    printf e.authError

/-- The responder's part: authentication, the line about its failure, what the caller
prints then, `setMikeyOffer`. -/
def respondPrints (psk text : Bytes) (between : Prints Unit) : Prints KeyAgreementPSK := do
  let (ok, message) ← responderAuthenticatePrints L psk text
  authErrorPrints e ok
  between
  match message with
  | none => Output.stop
  | some m => do
    cout (ascii "MikeyMessagePSK::setOffer")
    Output.ofExcept (setMikeyOffer { psk } (some m))

/-! ## do_gcks_req -/

/-- The prints of `do_gcks_req`. -/
def doGcksReqPrints (req : Request) (net : KdcNet) (stack gcksKey : Bytes) : Prints Unit := do
  klogSyslog (ascii "TGS_REQ : do_gcks_req cname[" ++ req.cname.bytes ++ ascii "], sname[" ++
    req.sname.bytes ++ ascii "], clientaddr[" ++ req.addrText ++ ascii "], port[" ++
    fmtInt req.addr.port.toInt32.toInt ++ ascii "]")
  klogSyslog (e.fileLine 0)
  klogSyslog (e.fileLine 1)
  let connInfo ← Output.ofExcept (cstr (connInfoBuffer stack (some req.cname) (some req.sname)
    req.addrText req.addr.port.toInt32))
  klogSyslog (ascii "TGS_REQ : do_gcks_req connInfo [" ++ connInfo ++ ascii "]")
  -- a std::string ends with a NUL
  klogSyslog (ascii "TGS_REQ : do_gcks_req Config PSK: [" ++ keyString gcksKey ⟨[], by decide⟩ ++
    ascii "]")
  klogSyslog (e.fileLine 2)
  klogSyslog (e.fileLine 3)
  initiatorCreatePrints e
  Output.ofExcept (net.log.write (some (connInfoBuffer stack (some req.cname) (some req.sname)
    req.addrText req.addr.port.toInt32)))
  klogSyslog (e.fileLine 4)
  klogSyslog (e.fileLine 5)
  klogSyslog (e.fileLine 6)
  klogSyslog (e.fileLine 7)
  Output.exitIf (!net.socket) (perrorLine e (ascii "Socket"))
  if !net.resolves then Output.stop
  else do
    klogSyslog (e.fileLine 8)
    Output.exitIf (!net.setsockopt) (perrorLine e (ascii "Setsockopt"))
    Output.exitIf (!net.connect) (perrorLine e (ascii "Connect"))
    klogSyslog (e.fileLine 9)
    klogSyslog (e.fileLine 10)

/-! ## gcks2 -/

/-- The line of `parse_conn_info`. -/
def connInfoLine (info : ClientConnInfo) : Bytes :=
  ascii "cname:[" ++ info.clientName.getD [] ++ ascii "] caddr: [" ++ info.clientAddr.getD [] ++
    ascii "] port[" ++ fmtInt info.clientPort.toInt ++ ascii "] sname: [" ++
    info.groupName.getD [] ++ ascii "]\n"

/-- The prints of `process_mikey_message`, with `behind` what lies behind the key. -/
def processMikeyMessagePrints (gcksKey : Bytes) (behind : CString) (keyMgmtMessage : Bytes)
    (olds : Option Bytes) : Prints Unit := do
  Output.print (keyLine gcksKey behind)
  let ka ← respondPrints L e gcksKey keyMgmtMessage (pure ())
  let (info, _) ← Output.ofExcept (parseConnInfo ka.connInfo olds)
  printf (connInfoLine info)

/-- The prints of `send_mikey_message`. -/
def sendMikeyMessagePrints (net : ClientNet) (r : ρ) (clientName cAddr sessionKey : Bytes)
    (behind : CString) : Prints Unit := do
  Output.print (keyLine sessionKey behind)
  let peerUri ← Output.ofExcept (strncpy (clientName ++ [0]) 2048 >>= cstr)
  let clientAddr ← Output.ofExcept (strncpy (cAddr ++ [0]) 30)
  initiatorCreatePrints e
  let keyMgmtMessage ← Output.ofExcept (initiatorCreate L { psk := sessionKey } peerUri r)
  Output.print (.mikeyMessage keyMgmtMessage.bytes)
  let host ← Output.ofExcept (cstr clientAddr)
  Output.exitIf (!net.socket) (perrorLine e (ascii "Failed to open socket"))
  if !net.resolves host then Output.stop
  else if !net.connects then Output.stop
  else printf (ascii "MikeyMessage sent to client\n")

/-! ## sclient2 -/

/-- `PRINT_TIME(id)`. -/
def printTime (n : Nat) : Prints Unit := printf (e.time n)

/-- The prints of sclient2's `main` up to `recv`. -/
def sclient2WaitPrints (c : Sclient2Calls) (progname host service peer : Bytes) :
    Prints Unit := do
  printTime e 0
  Output.exitIf (c.initContext != 0) (comErrLine e progname c.initContext
    (ascii "while initializing krb5"))
  printTime e 1
  Output.exitIf (c.snameToPrincipal != 0) (comErrLine e progname c.snameToPrincipal
    (ascii "while creating server name for host " ++ host ++ ascii " service " ++ service))
  printTime e 2
  Output.exitIf (c.ccResolve != 0) (comErrLine e progname c.ccResolve
    (ascii "while getting ticket ccache"))
  printTime e 3
  Output.exitIf (c.ccGetPrincipal != 0) (comErrLine e progname c.ccGetPrincipal
    (ascii "while getting client cache"))
  printTime e 4
  -- obtain_credentials prints nothing
  printTime e 5
  Output.exitIf (c.unparseName != 0) (comErrLine e progname c.unparseName
    (ascii "while getting client name"))
  Output.exitIf (!c.socket) (perrorLine e (ascii "Socket"))
  Output.exitIf (!c.setsockopt) (perrorLine e (ascii "Setsockopt"))
  Output.exitIf (!c.bind) (perrorLine e (ascii "Unable to bind"))
  Output.exitIf (!c.listen) (perrorLine e (ascii "Listen"))
  printTime e 6
  printf (ascii "\nClient waiting for GCKS on port 9999\n")
  printTime e 7
  printTime e 8
  printf (ascii "\n Got connection from (" ++ peer ++ ascii ")\n")
  printTime e 9

/-- What `std::string mikeyMessage(recv_data)` reads, if sclient2 comes there: not while its
`recv` waits.  When `recv` fails, or fills the array, the NUL is written outside of it and
`main` goes on: it then reads `astray`. -/
def sclient2Message (recvData : Bytes) (es : Option (List Event)) (astray : Option Bytes) :
    Option Bytes :=
  match es with
  | none => none
  | some es =>
    match sclient2Recv recvData es with
    | .ok text => some text
    | .error _ => astray

/-- From `std::string mikeyMessage(recv_data)` on. -/
def sclient2KeyPrints (creds : Option Creds) (behind : CString) (peerUri : Bytes)
    (mikeyMessage : Bytes) : Prints Unit :=
  match creds with
  | none => Output.stop
  | some creds => do
    printf (e.fileLine 0 ++ [10])
    -- a keyblock without bytes has no contents
    if creds.keyblock = [] then pure ()
    else printf (e.fileLine 1 ++ ascii ": " ++ keyString creds.keyblock behind ++ [10])
    printf (e.fileLine 2 ++ [10])
    printTime e 10
    cout peerUri
    cout (ascii "MIKEY Responder Authenticate:")
    let _ ← respondPrints L e creds.keyblock mikeyMessage (printTime e 11)
    cout (ascii "Mikey offer set!")
    printTime e 12
    printTime e 13
    printTime e 14

/-- The prints of sclient2's `main`; `received` is the string read from `recv_data`. -/
def sclient2Prints (c : Sclient2Calls) (progname host service peer : Bytes)
    (received : Option Bytes) (creds : Option Creds) (behind : CString) (peerUri : Bytes) :
    Prints Unit := do
  sclient2WaitPrints e c progname host service peer
  match received with
  | none => Output.stop
  | some mikeyMessage => sclient2KeyPrints L e creds behind peerUri mikeyMessage

end

/-! ## One key line -/

theorem keyString_of_mem {key : Bytes} (h : 0 ∈ key) (behind : CString) :
    keyString key behind = shown key ∧ (shown key).length < key.length := by
  obtain ⟨a, b, rfl, ha⟩ := List.eq_append_cons_of_mem h
  have hs : shown (a ++ 0 :: b) = a := takeWhile_append_nul a b ha
  constructor
  · rw [hs, keyString, List.append_assoc, List.cons_append]
    exact takeWhile_append_nul a _ ha
  · rw [hs, List.length_append, List.length_cons]
    omega

theorem keyString_of_not_mem {key : Bytes} (h : 0 ∉ key) (behind : CString) :
    keyString key behind = key ++ behind.bytes ∧ shown key = key := by
  constructor
  · have hb := behind.nul_free
    rw [keyString, CString.alloc, ← List.append_assoc]
    refine takeWhile_append_nul _ [] ?_
    rw [List.mem_append, not_or]
    exact ⟨h, hb⟩
  · refine List.takeWhile_eq_self_iff.mpr fun b hb => ?_
    rw [bne_iff_ne]
    rintro rfl
    exact h hb

/-- **What a key line gives away**: the key up to its first NUL. -/
theorem keyString_eq_iff {key key' : Bytes} (hl : key.length = key'.length) (behind : CString) :
    keyString key behind = keyString key' behind ↔ shown key = shown key' := by
  by_cases h : 0 ∈ key
  · obtain ⟨hk, hlt⟩ := keyString_of_mem h behind
    by_cases h' : 0 ∈ key'
    · obtain ⟨hk', -⟩ := keyString_of_mem h' behind
      rw [hk, hk']
    · obtain ⟨hk', hs'⟩ := keyString_of_not_mem h' behind
      rw [hk, hk', hs']
      refine iff_of_false (fun he => ?_) (fun he => ?_)
      · rw [he, List.length_append] at hlt
        omega
      · rw [he] at hlt
        omega
  · obtain ⟨hk, hs⟩ := keyString_of_not_mem h behind
    by_cases h' : 0 ∈ key'
    · obtain ⟨hk', hlt'⟩ := keyString_of_mem h' behind
      rw [hk, hk', hs]
      refine iff_of_false (fun he => ?_) (fun he => ?_)
      · rw [← he, List.length_append] at hlt'
        omega
      · rw [← he] at hlt'
        omega
    · obtain ⟨hk', hs'⟩ := keyString_of_not_mem h' behind
      rw [hk, hk', hs, hs', List.append_cancel_right_eq]

theorem text_eq_iff (sink : Sink) (pre a b post : Bytes) :
    (Printed.text sink (pre ++ a ++ post)).hideMessage =
      (Printed.text sink (pre ++ b ++ post)).hideMessage ↔ a = b := by
  constructor
  · intro h
    have h' : pre ++ a ++ post = pre ++ b ++ post := by injection h
    exact List.append_cancel_left (List.append_cancel_right h')
  · rintro rfl
    rfl

theorem keyLine_eq_iff {key key' : Bytes} (hl : key.length = key'.length) (behind : CString) :
    (keyLine key behind).hideMessage = (keyLine key' behind).hideMessage ↔
      shown key = shown key' := by
  unfold keyLine
  rw [hl, List.append_assoc _ _ [10], List.append_assoc _ _ (_ ++ [10]),
    List.append_assoc _ _ [10], List.append_assoc _ _ (_ ++ [10])]
  rw [text_eq_iff, keyString_eq_iff hl]

/-! ## Messages that say the same -/

section
variable {ρ : Type} (L : LibMikey ρ) (e : Shown)

/-- Two messages under two keys: both authenticate or neither, both are parsed or
neither, with the same extension. -/
def SameButKeys (psk text psk' text' : Bytes) : Prop :=
  ∃ ok raw raw', L.receive psk text = (ok, raw) ∧ L.receive psk' text' = (ok, raw') ∧
    raw.map (·.extension) = raw'.map (·.extension)

/-- What `respondPrints` does with a message whose extension is known. -/
def respondConnInfo (ok : Bool) (extension : Option (Option Bytes)) (between : Prints Unit) :
    Prints (Option Bytes) :=
  match extension with
  | none => do
    authErrorPrints e ok
    between
    Output.stop
  | some extension => do
    let m ← Output.ofExcept (parseExtension ⟨[], extension⟩)
    match m.extension with
    | none => pure ()
    | some p => do
      let data ← Output.ofExcept (cstr p.data)
      cout (ascii "Constructing MikeyPayloadGenExt" ++ data)
    authErrorPrints e ok
    between
    cout (ascii "MikeyMessagePSK::setOffer")
    let ka ← Output.ofExcept (setMikeyOffer { psk := [] } (some m))
    return ka.connInfo

/-- **Neither PSK nor TGK is printed.**  The prints and the `connInfo` come from the
extension. -/
theorem respondPrints_eq {psk text : Bytes} {ok : Bool} {raw : Option RawMessage}
    (h : L.receive psk text = (ok, raw)) (between : Prints Unit) :
    (·.connInfo) <$> respondPrints L e psk text between =
      respondConnInfo e ok (raw.map (·.extension)) between := by
  cases raw with
  | none =>
    simp only [respondPrints, responderAuthenticatePrints, h]
    simp [respondConnInfo]
  | some raw =>
    obtain ⟨tgk, extension⟩ := raw
    simp only [respondPrints, responderAuthenticatePrints, h]
    cases extension with
    | none => simp [respondConnInfo, parseExtension, setMikeyOffer]
    | some start =>
      simp only [respondConnInfo, Option.map_some]
      cases hd : GeneralExtensions.decode start with
      | error f =>
        have hp : ∀ tgk, parseExtension ⟨tgk, some start⟩ = .error f := by
          intro tgk
          rw [parseExtension, hd]
          rfl
        rw [hp, hp]
        rfl
      | ok out =>
        obtain ⟨next, p, rest⟩ := out
        have hp : ∀ tgk, parseExtension ⟨tgk, some start⟩ = .ok ⟨tgk, some p⟩ := by
          intro tgk
          rw [parseExtension, hd]
          rfl
        have hset : ∃ connInfo, ∀ psk tgk, setMikeyOffer { psk } (some ⟨tgk, some p⟩) =
            .ok ⟨tgk, connInfo⟩ := by
          obtain ⟨connInfo, hc⟩ := strncpy_of_le p.data p.leng.toNat p.leng_le
          by_cases ht : p.type = mikeyExtTypeKrb5Id
          · refine ⟨some connInfo, fun psk tgk => ?_⟩
            rw [setMikeyOffer, if_pos ht, hc]
            rfl
          · refine ⟨none, fun psk tgk => ?_⟩
            rw [setMikeyOffer, if_neg ht]
        obtain ⟨connInfo, hset⟩ := hset
        cases hcs : cstr p.data <;> simp [hp, hcs, hset]

/-! ## Two runs of each function -/

/-- Lines that look alike apart from the MIKEY message in them. -/
def PrintAlike {α : Type} (x y : Prints α) : Prop := Output.alike Printed.hideMessage x y

/-- Two requests of one client for one group. -/
structure Request.SameButKey (req' req : Request) : Prop where
  cname : req'.cname = req.cname
  sname : req'.sname = req.sname
  addr : req'.addr = req.addr

/-- `do_gcks_req`: the KDC logs the key server's key, not the session key. -/
theorem doGcksReqPrints_alike_iff {req req' : Request} (hreq : req'.SameButKey req)
    (net : KdcNet) (stack : Bytes) {gcksKey gcksKey' : Bytes}
    (hl : gcksKey.length = gcksKey'.length) :
    PrintAlike (doGcksReqPrints e req net stack gcksKey)
        (doGcksReqPrints e req' net stack gcksKey') ↔
      shown gcksKey = shown gcksKey' := by
  obtain ⟨-, -, ha0⟩ := req.addrText_field
  have hcs := cstr_connInfoBuffer stack req.cname req.sname req.addrText req.addr.port.toInt32 ha0
  have hprints : doGcksReqPrints e req' net stack gcksKey' =
      doGcksReqPrints e req net stack gcksKey' := by
    simp only [doGcksReqPrints, Request.addrText, hreq.cname, hreq.sname, hreq.addr]
  rw [hprints]
  unfold PrintAlike
  simp only [doGcksReqPrints, klogSyslog, hcs, Output.ofExcept_ok, pure_bind,
    Output.alike_print_same_iff]
  rw [Output.alike_print_iff, text_eq_iff, keyString_eq_iff hl]
  exact and_iff_left (Output.alike_refl _ _)

/-- `process_mikey_message`: the key server's key again. -/
theorem processMikeyMessagePrints_alike_iff {gcksKey gcksKey' : Bytes}
    (hl : gcksKey.length = gcksKey'.length) (behind : CString) {text text' : Bytes}
    (hsame : SameButKeys L gcksKey text gcksKey' text') (olds : Option Bytes) :
    PrintAlike (processMikeyMessagePrints L e gcksKey behind text olds)
        (processMikeyMessagePrints L e gcksKey' behind text' olds) ↔
      shown gcksKey = shown gcksKey' := by
  obtain ⟨ok, raw, raw', hr, hr', hext⟩ := hsame
  have hrest : ∀ {psk text : Bytes}, (respondPrints L e psk text (pure ()) >>= fun ka =>
      Output.ofExcept (parseConnInfo ka.connInfo olds) >>= fun (info, _) =>
        printf (connInfoLine info)) =
      ((·.connInfo) <$> respondPrints L e psk text (pure ())) >>= fun connInfo =>
        Output.ofExcept (parseConnInfo connInfo olds) >>= fun (info, _) =>
          printf (connInfoLine info) := by
    intro psk text
    rw [bind_map_left]
  unfold PrintAlike processMikeyMessagePrints
  rw [Output.alike_print_iff, keyLine_eq_iff hl, hrest, hrest, respondPrints_eq L e hr,
    respondPrints_eq L e hr', hext]
  exact and_iff_left (Output.alike_refl _ _)

/-- `send_mikey_message`: the session key. -/
theorem sendMikeyMessagePrints_alike_iff (net : ClientNet) (r : ρ) (clientName cAddr : Bytes)
    {sessionKey sessionKey' : Bytes} (hl : sessionKey.length = sessionKey'.length)
    (behind : CString) :
    PrintAlike (sendMikeyMessagePrints L e net r clientName cAddr sessionKey behind)
        (sendMikeyMessagePrints L e net r clientName cAddr sessionKey' behind) ↔
      shown sessionKey = shown sessionKey' := by
  unfold PrintAlike sendMikeyMessagePrints
  rw [Output.alike_print_iff, keyLine_eq_iff hl]
  refine and_iff_left ?_
  rw [Output.alike_bind_iff]
  intro peerUri _
  rw [Output.alike_bind_iff]
  intro clientAddr _
  rw [Output.alike_bind_iff]
  rintro ⟨⟩ _
  -- the messages differ, which does not show
  have hm : ∀ psk, initiatorCreate L { psk } peerUri r =
      .ok (L.initMessage psk (L.generateTgk r) none peerUri r) := fun psk => rfl
  simp only [hm, Output.ofExcept_ok, pure_bind]
  rw [Output.alike_print_iff]
  exact ⟨rfl, Output.alike_refl _ _⟩

/-- sclient2 gets as far as its message: every call before succeeds. -/
def Sclient2Calls.Waits (c : Sclient2Calls) : Prop :=
  c.initContext = 0 ∧ c.snameToPrincipal = 0 ∧ c.ccResolve = 0 ∧ c.ccGetPrincipal = 0 ∧
    c.unparseName = 0 ∧ c.socket = true ∧ c.setsockopt = true ∧ c.bind = true ∧ c.listen = true

theorem sclient2WaitPrints_result_iff (c : Sclient2Calls) (progname host service peer : Bytes)
    (u : Unit) : (sclient2WaitPrints e c progname host service peer).result = some u ↔ c.Waits := by
  unfold sclient2WaitPrints Sclient2Calls.Waits
  simp only [printTime, printf, Output.result_print_bind, Output.result_exitIf_bind_iff,
    bne_eq_false_iff_eq, Bool.not_eq_false']
  have hlast : (Output.print (.text .stdout (e.time 9)) : Prints Unit).result = some u := rfl
  simp only [hlast, and_true]

/-- The received strings of two runs: both or neither, and they say the same. -/
def ReceivedSameButKeys (creds : Option Creds) (keyblock' : Bytes) :
    Option Bytes → Option Bytes → Prop
  | some text, some text' => ∀ c ∈ creds, SameButKeys L c.keyblock text keyblock' text'
  | none, none => True
  | _, _ => False

/-- With credentials, sclient2 prints their key. -/
theorem sclient2KeyPrints_alike_iff (creds : Creds) {keyblock' : Bytes}
    (hl : creds.keyblock.length = keyblock'.length) (behind : CString) (peerUri : Bytes)
    {text text' : Bytes} (hsame : SameButKeys L creds.keyblock text keyblock' text') :
    PrintAlike (sclient2KeyPrints L e (some creds) behind peerUri text)
        (sclient2KeyPrints L e (some { creds with keyblock := keyblock' }) behind peerUri text') ↔
      shown creds.keyblock = shown keyblock' := by
  obtain ⟨ok, raw, raw', hr, hr', hext⟩ := hsame
  have hrest : ∀ (b k : Prints Unit), (respondPrints L e creds.keyblock text b >>= fun _ => k) =
      respondPrints L e keyblock' text' b >>= fun _ => k := by
    intro b k
    have h := respondPrints_eq L e hr b
    rw [hext, ← respondPrints_eq L e hr' b] at h
    calc (respondPrints L e creds.keyblock text b >>= fun _ => k)
        = ((·.connInfo) <$> respondPrints L e creds.keyblock text b) >>= fun _ => k :=
          (bind_map_left _ _ fun _ => k).symm
      _ = ((·.connInfo) <$> respondPrints L e keyblock' text' b) >>= fun _ => k := by rw [h]
      _ = respondPrints L e keyblock' text' b >>= fun _ => k := bind_map_left _ _ fun _ => k
  unfold PrintAlike sclient2KeyPrints
  simp only [printf, Output.alike_print_same_iff]
  by_cases hk : creds.keyblock = []
  · have hk' : keyblock' = [] := List.length_eq_zero_iff.mp (by rw [← hl, hk]; rfl)
    simp only [if_pos hk, if_pos hk', hrest]
    exact iff_of_true rfl (by rw [hk, hk'])
  · have hk' : keyblock' ≠ [] := by
      rintro rfl
      exact hk (List.length_eq_zero_iff.mp hl)
    simp only [if_neg hk, if_neg hk', hrest]
    rw [Output.alike_print_iff, text_eq_iff, keyString_eq_iff hl]
    exact and_iff_left (Output.alike_refl _ _)

/-- sclient2: the session key, if it gets that far. -/
theorem sclient2Prints_alike_iff (c : Sclient2Calls) (progname host service peer : Bytes)
    (creds : Option Creds) {keyblock' : Bytes}
    (hl : ∀ c ∈ creds, c.keyblock.length = keyblock'.length) (behind : CString) (peerUri : Bytes)
    {received received' : Option Bytes}
    (hsame : ReceivedSameButKeys L creds keyblock' received received') :
    PrintAlike (sclient2Prints L e c progname host service peer received creds behind peerUri)
        (sclient2Prints L e c progname host service peer received'
          (creds.map fun c => { c with keyblock := keyblock' }) behind peerUri) ↔
      (c.Waits → received ≠ none → ∀ c ∈ creds, shown c.keyblock = shown keyblock') := by
  unfold PrintAlike sclient2Prints
  rw [Output.alike_bind_iff]
  simp only [sclient2WaitPrints_result_iff, forall_const]
  refine imp_congr_right fun _ => ?_
  cases received with
  | none =>
    cases received' with
    | some text' => exact absurd hsame id
    | none => exact iff_of_true rfl fun h => absurd rfl h
  | some text =>
    cases received' with
    | none => exact absurd hsame id
    | some text' =>
      cases creds with
      | none =>
        refine iff_of_true rfl ?_
        rintro - cr ⟨⟩
      | some cr =>
        have h := sclient2KeyPrints_alike_iff L e cr (hl cr rfl) behind peerUri (hsame cr rfl)
        constructor
        · rintro halike - cr' ⟨⟩
          exact h.mp halike
        · intro hshown
          exact h.mpr (hshown (by simp) cr rfl)

/-- **When the logs keep the keys.**  Two runs of a function that differ only in keys of
the same lengths print the same exactly when they agree, up to the first NUL, in the key
that this function prints. -/
theorem key_output_iff {gcksKey gcksKey' sessionKey sessionKey' : Bytes} (behind : CString)
    (hg : gcksKey.length = gcksKey'.length) (hs : sessionKey.length = sessionKey'.length) :
    (∀ (req req' : Request) (net : KdcNet) (stack : Bytes), req'.SameButKey req →
      req.sessionKey = sessionKey → req'.sessionKey = sessionKey' →
      (PrintAlike (doGcksReqPrints e req net stack gcksKey)
          (doGcksReqPrints e req' net stack gcksKey') ↔
        shown gcksKey = shown gcksKey')) ∧
    (∀ (text text' : Bytes) (olds : Option Bytes), SameButKeys L gcksKey text gcksKey' text' →
      (PrintAlike (processMikeyMessagePrints L e gcksKey behind text olds)
          (processMikeyMessagePrints L e gcksKey' behind text' olds) ↔
        shown gcksKey = shown gcksKey')) ∧
    (∀ (net : ClientNet) (r : ρ) (clientName cAddr : Bytes),
      (PrintAlike (sendMikeyMessagePrints L e net r clientName cAddr sessionKey behind)
          (sendMikeyMessagePrints L e net r clientName cAddr sessionKey' behind) ↔
        shown sessionKey = shown sessionKey')) ∧
    (∀ (c : Sclient2Calls) (progname host service peer peerUri : Bytes) (creds : Option Creds)
      (recvData recvData' : Bytes) (es es' : Option (List Event)) (astray astray' : Option Bytes),
      (∀ cr ∈ creds, cr.keyblock = sessionKey) →
      ReceivedSameButKeys L creds sessionKey' (sclient2Message recvData es astray)
        (sclient2Message recvData' es' astray') →
      (PrintAlike
          (sclient2Prints L e c progname host service peer (sclient2Message recvData es astray)
            creds behind peerUri)
          (sclient2Prints L e c progname host service peer (sclient2Message recvData' es' astray')
            (creds.map fun cr => { cr with keyblock := sessionKey' }) behind peerUri) ↔
        (c.Waits → sclient2Message recvData es astray ≠ none → creds ≠ none →
          shown sessionKey = shown sessionKey'))) := by
  refine ⟨?_, ?_, ?_, ?_⟩
  · intro req req' net stack hreq _ _
    exact doGcksReqPrints_alike_iff e hreq net stack hg
  · intro text text' olds hsame
    exact processMikeyMessagePrints_alike_iff L e hg behind hsame olds
  · intro net r clientName cAddr
    exact sendMikeyMessagePrints_alike_iff L e net r clientName cAddr hs behind
  · intro c progname host service peer peerUri creds recvData recvData' es es' astray astray'
      hkey hsame
    rw [sclient2Prints_alike_iff L e c progname host service peer creds
      (fun cr hcr => by rw [hkey cr hcr]; exact hs) behind peerUri hsame]
    refine imp_congr_right fun _ => imp_congr_right fun _ => ?_
    cases creds with
    | none => exact iff_of_true (by rintro cr ⟨⟩) fun h => absurd rfl h
    | some cr =>
      constructor
      · intro h _
        rw [← hkey cr rfl]
        exact h cr rfl
      · rintro h cr' ⟨⟩
        rw [hkey cr rfl]
        exact h (by simp)

end

/-- A machine whose clock and errors show nothing. -/
def quiet : Shown := ⟨fun _ => [], fun _ => [], [], fun _ => [], [], []⟩

/-- Keys that differ behind a NUL only. -/
theorem key_output_behind_nul :
    PrintAlike (sendMikeyMessagePrints plainMikey quiet ClientNet.up [5] (ascii "alice")
        (ascii "127.0.0.1") [1, 0, 2] ⟨[], by decide⟩)
      (sendMikeyMessagePrints plainMikey quiet ClientNet.up [5] (ascii "alice")
        (ascii "127.0.0.1") [1, 0, 3] ⟨[], by decide⟩) :=
  have hg : ([7, 0, 9] : Bytes).length = ([7, 0, 9] : Bytes).length := rfl
  have hs : ([1, 0, 2] : Bytes).length = ([1, 0, 3] : Bytes).length := rfl
  ((key_output_iff plainMikey quiet ⟨[], by decide⟩ hg hs).2.2.1 ClientNet.up [5] (ascii "alice")
    (ascii "127.0.0.1")).mpr rfl

/-- The first byte of the key server's key is in the KDC's log. -/
theorem key_output_leaks :
    ¬ PrintAlike (doGcksReqPrints quiet aliceRequest KdcNet.up (calloc 1024) [7, 0, 9])
      (doGcksReqPrints quiet aliceRequest KdcNet.up (calloc 1024) [8, 0, 9]) := by
  have hl : ([7, 0, 9] : Bytes).length = ([8, 0, 9] : Bytes).length := rfl
  have hreq : Request.SameButKey aliceRequest aliceRequest := ⟨rfl, rfl, rfl⟩
  have h := doGcksReqPrints_alike_iff quiet hreq KdcNet.up (calloc 1024) hl
  intro halike
  have : shown [7, 0, 9] = shown [8, 0, 9] := h.mp halike
  revert this
  decide

end KerberizedMikey
