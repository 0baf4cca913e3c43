import KerberizedMikey.Gcks1Output
import KerberizedMikey.Clients

/-!
# What sclient prints

The lines of sclient's `main`, from its arguments to the last `PRINT_TIME`.  The dump of its
session key is commented out; what it prints of the reply is the extension of the MIKEY
message and whether the message authenticates.

    the lines come to their end  →  so does `main`               (finishes_of_sclientPrints)
    tickets and replies that say the same  →  the same lines        (sclient_output_keyless)

The reads of the reply take the same calls on the same numbers of bytes, whatever the bytes
are (`netRead_blank`).
-/

namespace KerberizedMikey

open CLib

/-! ## The lines -/

/-- What sclient's lines show besides: `argv[0]`, the name of its principal, `mbuf` of the
loop over the addresses, the text of `krb5_error`, error codes. -/
structure SclientShown extends Shown where
  progname : Bytes
  clientName : Bytes
  gaiError : Bytes
  mbuf : Bytes
  rejected : Bytes
  sendauthError : Int32
  errno : Int32

section
variable (e : SclientShown)

/-- The lines of the loop over the addresses. -/
def openSocketPrints : List Address → Prints (Option Address)
  | [] => pure none
  | ap :: aps =>
    if ap.socket then do
      printTime e.toShown 4
      if ap.connect then pure () else fprintfStderr (ascii "Connecting")
      return some ap
    else do
      fprintfStderr (e.mbuf ++ ascii ": socket: " ++ e.strerror ++ [10])
      openSocketPrints aps

/-- `%s` of an argument that may be missing. -/
def argString (argv : List Bytes) (i : Nat) : Bytes := argv.getD i (ascii "(null)")

/-- What a line says of the host it cannot look up. -/
def lookupError (argv : List Bytes) (text : Bytes) : Bytes :=
  e.progname ++ ascii ": error looking up host '" ++ argString argv 0 ++ ascii "' port '" ++
    argv.getD 1 (ascii "8888") ++ ascii "'/tcp: " ++ text ++ [10]

/-- The prints up to `obtain_credentials`; `argv` starts with `argv[1]`. -/
def sclientConnectPrints (c : SclientCalls) (argv : List Bytes) : Prints Address := do
  Output.exitIf (!c.clock) (perrorLine e.toShown (ascii "clock_gettime()"))
  printTime e.toShown 0
  Output.exitIf (argv.length > 6) (.text .stderr (ascii "usage: " ++ e.progname ++ ascii
    " <hostname> [port] [service] [group name] [cache_name] [timing_log_file]\n"))
  Output.exitIf (c.initContext ≠ 0) (comErrLine e.toShown e.progname c.initContext
    (ascii "while initializing krb5"))
  printTime e.toShown 1
  printf (ascii "After getaddrinfo\n")
  printTime e.toShown 2
  Output.exitIf (!c.startClock) (perrorLine e.toShown (ascii "clock_gettime()"))
  match c.getaddrinfo with
  | .error _ => do
    fprintfStderr (lookupError e argv e.gaiError)
    Output.stop
  | .ok ap => do
    Output.exitIf ap.isEmpty (.text .stderr (lookupError e argv (ascii "no addresses returned?")))
    Output.exitIf (c.snameToPrincipal ≠ 0) (comErrLine e.toShown e.progname c.snameToPrincipal
      (ascii "while creating server name for host " ++ argString argv 0 ++ ascii " service " ++
        argv.getD 2 (ascii "sample")))
    printTime e.toShown 3
    match ← openSocketPrints e ap with
    | none => Output.stop
    | some sock => do
      printf (ascii "socket connection established\n")
      -- strlen(argv[3])
      let _ ← Output.ofExcept (argv[2]?.elim (.error Fault.nullDeref) .ok)
      printTime e.toShown 5
      Output.exitIf (c.ccResolve ≠ 0) (comErrLine e.toShown e.progname c.ccResolve
        (ascii "while getting ticket ccache"))
      printTime e.toShown 6
      Output.exitIf (c.ccGetPrincipal ≠ 0) (comErrLine e.toShown e.progname c.ccGetPrincipal
        (ascii "while getting client principal"))
      printTime e.toShown 7
      Output.exitIf (c.unparseName ≠ 0) (comErrLine e.toShown e.progname c.unparseName
        (ascii "while getting client principal name"))
      printTime e.toShown 8
      return sock

/-- The line about a `net_read` that does not succeed. -/
def readErrorLine (value : Int) : Printed :=
  -- ECONNABORTED
  comErrLine e.toShown e.progname (if value = 0 then 103 else e.errno)
    (ascii "while reading data from server")

/-- The string in `recv_data`. -/
def bodyText (block got : Bytes) (length : Nat) : Except Fault Bytes := do
  let data ← store block got
  let data ← storeByte data length 0
  cstr data

/-- The prints around `malloc` and the second read. -/
def readBodyPrints (es : List Event) (length : Nat) (malloc : Malloc) : Prints Bytes :=
  match malloc (length + 1) with
  | none => do
    -- ENOMEM
    Output.print (comErrLine e.toShown e.progname 12
      (ascii "while allocating buffer to read from server"))
    Output.stop
  | some block => do
    printTime e.toShown 15
    let r := netRead es length []
    Output.exitIf (r.value ≤ 0) (readErrorLine e r.value)
    printTime e.toShown 16
    Output.ofExcept (bodyText block.val r.got length)

/-- The prints around the two reads of the reply. -/
def sclientReceivePrints (input : SclientInput) : Prints Bytes := do
  printTime e.toShown 13
  printf (ascii "sendauth succeeded, reply is:\n")
  let r := netRead input.es 2 []
  Output.exitIf (r.value ≤ 0) (readErrorLine e r.value)
  let mem ← Output.ofExcept (store [input.xmitlen.1, input.xmitlen.2] r.got)
  printTime e.toShown 14
  readBodyPrints e r.rest (ntohsAt mem).toNat input.malloc

variable {ρ : Type} (L : LibMikey ρ)

/-- The end of `main`, whose last line is of the time. -/
def logPrints (endClock : Option Int64) : Prints Unit := do
  printTime e.toShown 21
  Output.exitIf endClock.isNone (perrorLine e.toShown (ascii "clock_gettime()"))
  printTime e.toShown 22

/-- The prints after `obtain_credentials`. -/
def sclientTailPrints (c : SclientCalls) (input : SclientInput) (sock : Address)
    (creds : Option Creds) : Prints Unit := do
  printTime e.toShown 9
  match creds with
  | none => Output.stop
  | some creds => do
    printTime e.toShown 10
    printTime e.toShown 11
    printTime e.toShown 12
    match c.sendauth sock creds with
    | .failed => do
      Output.print (comErrLine e.toShown e.progname e.sendauthError (ascii "while using sendauth"))
      Output.stop
    | .rejected => do
      printf (ascii "sendauth rejected, error reply is:\n\t\"" ++ e.rejected ++ ascii "\"\n")
      logPrints e c.endClock
    | .ok false => do
      -- com_err with a code of 0
      fprintfStderr (e.progname ++ ascii ": no error or reply from sendauth!\n")
      Output.stop
    | .ok true => do
      let keyMgmtMessage ← sclientReceivePrints e input
      printTime e.toShown 17
      printTime e.toShown 18
      printTime e.toShown 19
      cout (e.clientName ++ ascii ": MIKEY Responder Authenticate:")
      let _ ← respondPrints L e.toShown creds.keyblock keyMgmtMessage (pure ())
      printTime e.toShown 20
      cout (ascii "MIKEY INIT message authenticated!")
      logPrints e c.endClock

/-- The prints of sclient's `main`. -/
def sclientPrints (c : SclientCalls) (w : Krb5World) (argv : List Bytes) (input : SclientInput)
    (cache : List Creds) (server : Bytes) : Prints Unit := do
  let sock ← sclientConnectPrints e c argv
  sclientTailPrints e L c input sock
    (c.obtainCredentials w cache apOptsMutualRequired server).outCreds

end

/-! ## The reads do not look at the bytes -/

/-- Bytes of which only the number is left. -/
def blank (bs : Bytes) : Bytes := bs.map fun _ => 0

def blankEvent : Event → Event
  | .data _ seg => .data 0 (blank seg)
  | .intr => .intr
  | .err => .err

@[simp] theorem length_blank (bs : Bytes) : (blank bs).length = bs.length := List.length_map _

theorem segment_blank (bs : Bytes) : segment (blank bs) = (segment bs).map blankEvent := by
  cases bs with
  | nil => rfl
  | cons b seg => rfl

/-- **`net_read` on blank bytes** does the same calls. -/
theorem netRead_blank (es : List Event) (len : Nat) (got : Bytes) :
    netRead (es.map blankEvent) len (blank got) =
      ⟨(netRead es len got).value, blank (netRead es len got).got,
        (netRead es len got).rest.map blankEvent⟩ := by
  induction es generalizing len got with
  | nil => simp [netRead, blank]
  | cons e es ih =>
    cases e with
    | intr =>
      by_cases hl : 0 < len
      · rw [List.map_cons, blankEvent, netRead_intr _ hl, netRead_intr _ hl]
        exact ih len got
      · simp [blankEvent, netRead, readEvent, if_neg hl, blank]
    | err => simp [blankEvent, netRead, readEvent]
    | data b seg =>
      have hblank : blankEvent (.data b seg) :: es.map blankEvent =
          .data 0 (blank seg) :: es.map blankEvent := rfl
      rcases Nat.eq_zero_or_pos len with rfl | hl
      · -- a read of nothing
        simp [blankEvent, netRead, readEvent, blank, CLib.segment]
      · rw [List.map_cons, hblank, netRead_data _ _ _ hl, netRead_data _ _ _ hl]
        have hcons : (0 : UInt8) :: blank seg = blank (b :: seg) := rfl
        rw [hcons, show (blank (b :: seg)).length = (b :: seg).length from List.length_map _]
        by_cases hlt : (b :: seg).length < len
        · rw [if_pos hlt, if_pos hlt, ← ih]
          congr 1
          exact (List.map_append).symm
        · rw [if_neg hlt, if_neg hlt]
          dsimp only
          rw [List.map_append, ← segment_blank]
          simp [blank, List.map_take, List.map_drop]

/-- Two runs of `net_read` on bytes of the same numbers. -/
theorem netRead_same {es es' : List Event} (h : es.map blankEvent = es'.map blankEvent)
    (len : Nat) :
    (netRead es len []).value = (netRead es' len []).value ∧
      (netRead es len []).got.length = (netRead es' len []).got.length ∧
      (netRead es len []).rest.map blankEvent = (netRead es' len []).rest.map blankEvent := by
  have hes := netRead_blank es len []
  rw [h, netRead_blank es' len [], NetRead.mk.injEq] at hes
  obtain ⟨hvalue, hgot, hrest⟩ := hes
  refine ⟨hvalue.symm, ?_, hrest.symm⟩
  rw [← length_blank, ← hgot, length_blank]

/-! ## Two runs of sclient -/

/-- Replies in the same pieces, with the same length before them. -/
structure SclientInput.SameShape (x y : SclientInput) : Prop where
  pieces : x.es.map blankEvent = y.es.map blankEvent
  header : (netRead x.es 2 []).got = (netRead y.es 2 []).got
  xmitlen : x.xmitlen = y.xmitlen
  malloc : x.malloc = y.malloc

section
variable {ρ : Type} {L : LibMikey ρ} (e : SclientShown)

/-- The text that sclient reads, if it gets there. -/
def SclientInput.Reads (input : SclientInput) (text : Bytes) : Prop :=
  ∃ reply, sclientReceive input.es input.xmitlen input.malloc = .ok (some reply) ∧
    reply.text = text

theorem readBodyPrints_result_iff (es : List Event) (length : Nat) (malloc : Malloc)
    (text : Bytes) : (readBodyPrints e es length malloc).result = some text ↔
      ∃ reply, readBody es length malloc = .ok (some reply) ∧ reply.text = text := by
  unfold readBodyPrints readBody
  cases malloc (length + 1) with
  | none => exact iff_of_false (by rintro ⟨⟩) (by rintro ⟨reply, ⟨⟩, -⟩)
  | some block =>
    simp only [printTime, printf, Output.result_print_bind, Output.result_exitIf_bind_iff]
    by_cases hv : (netRead es length []).value ≤ 0
    · simp [hv]
    rw [if_neg hv, and_iff_right (decide_eq_false hv), bodyText]
    cases store block.val (netRead es length []).got with
    | error f => simp [bind, Except.bind, Output.ofExcept, Output.stop]
    | ok data =>
      cases hs : storeByte data length 0 with
      | error f => simp [bind, Except.bind, Output.ofExcept, Output.stop, hs]
      | ok data =>
        cases hc : cstr data with
        | error f => simp [bind, Except.bind, Output.ofExcept, Output.stop, hs, hc]
        | ok s => simp [bind, Except.bind, pure, Except.pure, Output.ofExcept, hs, hc]

theorem sclientReceivePrints_result_iff (input : SclientInput) (text : Bytes) :
    (sclientReceivePrints e input).result = some text ↔ input.Reads text := by
  unfold sclientReceivePrints SclientInput.Reads sclientReceive
  simp only [printTime, printf, Output.result_print_bind, Output.result_exitIf_bind_iff,
    Output.result_ofExcept_bind]
  by_cases hv : (netRead input.es 2 []).value ≤ 0
  · simp [hv]
  rw [if_neg hv, and_iff_right (decide_eq_false hv)]
  cases store [input.xmitlen.1, input.xmitlen.2] (netRead input.es 2 []).got with
  | error f => simp [bind, Except.bind, Except.toOption]
  | ok mem => exact readBodyPrints_result_iff e _ _ _ text

/-- `malloc` gave a byte more than the length, for the NUL. -/
theorem bodyText_same {block got got' : Bytes} {length : Nat} (hb : block.length = length + 1)
    (h : got.length = got'.length) :
    Option.Rel (fun _ _ => True) (bodyText block got length).toOption
      (bodyText block got' length).toOption := by
  have htext : ∀ got : Bytes, got.length ≤ block.length →
      ∃ text, bodyText block got length = .ok text := by
    intro got hg
    have hl : (got ++ block.drop got.length).length = length + 1 := by
      rw [List.length_append, List.length_drop]
      omega
    have hlt : length < (got ++ block.drop got.length).length := by omega
    obtain ⟨text, ht⟩ := (cstr_ok_iff _).mpr (List.mem_set hlt (0 : UInt8))
    refine ⟨text, ?_⟩
    simp only [bodyText, store_of_le hg, bind, Except.bind, storeByte_of_lt hlt, ht]
  by_cases hg : got.length ≤ block.length
  · obtain ⟨text, ht⟩ := htext got hg
    obtain ⟨text', ht'⟩ := htext got' (by omega)
    rw [ht, ht']
    exact .some trivial
  · rw [bodyText, bodyText, store_of_gt (by omega), store_of_gt (by omega)]
    exact .none

theorem sclientReceivePrints_twin {x y : SclientInput} (h : x.SameShape y) :
    Output.Twin (fun text text' => x.Reads text ∧ y.Reads text') (sclientReceivePrints e x)
      (sclientReceivePrints e y) := by
  have htwin : Output.Twin (fun _ _ => True) (sclientReceivePrints e x)
      (sclientReceivePrints e y) := by
    obtain ⟨hvalue, -, hrest⟩ := netRead_same h.pieces 2
    unfold sclientReceivePrints
    simp only [h.header, h.xmitlen, h.malloc, hvalue]
    apply Output.Twin.bind_same
    intro _
    apply Output.Twin.bind_same
    intro _
    apply Output.Twin.bind_same
    intro _
    apply Output.Twin.bind_same
    intro mem
    apply Output.Twin.bind_same
    intro _
    unfold readBodyPrints
    cases y.malloc ((ntohsAt mem).toNat + 1) with
    | none => exact (Output.Twin.refl _).mono fun _ _ _ => trivial
    | some block =>
      obtain ⟨hvalue', hgot', -⟩ := netRead_same hrest (ntohsAt mem).toNat
      simp only [hvalue']
      apply Output.Twin.bind_same
      intro _
      apply Output.Twin.bind_same
      intro _
      apply Output.Twin.bind_same
      intro _
      exact .ofExcept (bodyText_same block.property hgot')
  exact htwin.results.mono fun text text' hr =>
    ⟨(sclientReceivePrints_result_iff e x text).mp hr.1,
      (sclientReceivePrints_result_iff e y text').mp hr.2⟩

/-- What the responder prints about two messages. -/
theorem respondPrints_twin (e : Shown) {psk text psk' text' : Bytes}
    (h : SameButKeys L psk text psk' text') (between : Prints Unit) :
    Output.Twin (fun ka ka' => ka.connInfo = ka'.connInfo) (respondPrints L e psk text between)
      (respondPrints L e psk' text' between) := by
  obtain ⟨ok, raw, raw', hr, hr', hext⟩ := h
  apply Output.Twin.of_map_eq
  rw [respondPrints_eq L e hr between, respondPrints_eq L e hr' between, hext]

/-! ## sclient's end -/

theorem openSocketPrints_result (ap : List Address) :
    (openSocketPrints e ap).result = some (openSocket ap) := by
  induction ap with
  | nil => rfl
  | cons a ap ih =>
    rw [openSocketPrints, openSocket]
    cases a.socket with
    | true =>
      cases a.connect with
      | true => rfl
      | false => rfl
    | false => exact ih

/-- `if (failed) exit(1);`. -/
theorem exit_or_iff {α : Type} {p : Prop} [Decidable p] {x : Except Fault (Option α)} {a : α} :
    (if p then .ok none else x) = .ok (some a) ↔ ¬p ∧ x = .ok (some a) := by
  by_cases hp : p
  · rw [if_pos hp]
    exact iff_of_false (by rintro ⟨⟩) fun h => h.1 hp
  · rw [if_neg hp, and_iff_right hp]

theorem sclientConnectPrints_result_iff (c : SclientCalls) (argv : List Bytes) (sock : Address) :
    (sclientConnectPrints e c argv).result = some sock ↔
      sclientConnect c argv = .ok (some sock) := by
  unfold sclientConnectPrints sclientConnect
  simp only [printTime, printf, Output.result_print_bind, Output.result_exitIf_bind_iff,
    exit_or_iff, decide_eq_false_iff_not, Bool.not_eq_true]
  refine and_congr_right fun _ => and_congr_right fun _ => and_congr_right fun _ =>
    and_congr_right fun _ => ?_
  cases c.getaddrinfo with
  | error code => exact iff_of_false (by rintro ⟨⟩) (by rintro ⟨⟩)
  | ok ap =>
    simp only [Output.result_print_bind, Output.result_exitIf_bind_iff, exit_or_iff,
      decide_eq_false_iff_not]
    rw [Output.result_bind_of_some (openSocketPrints_result e ap)]
    cases hs : openSocket ap with
    | none => exact iff_of_false (by rintro ⟨-, -, ⟨⟩⟩) (by rintro ⟨-, ⟨⟩⟩)
    | some sock' =>
      have hap : ap.isEmpty = false := by
        cases ap with
        | nil => cases hs
        | cons a ap => rfl
      rw [and_iff_right hap]
      refine and_congr_right fun _ => ?_
      rw [Output.result_print_bind, Output.result_ofExcept_bind]
      cases argv[2]? with
      | none => exact iff_of_false (by rintro ⟨⟩) (by rintro ⟨⟩)
      | some service =>
        simp only [Option.elim, Except.toOption, Option.bind_some, Output.result_print_bind,
          Output.result_exitIf_bind_iff, exit_or_iff, decide_eq_false_iff_not]
        refine and_congr_right fun _ => and_congr_right fun _ => and_congr_right fun _ => ?_
        exact ⟨fun h => congrArg (Except.ok ·) h, fun h => Except.ok.inj h⟩

theorem responderAuthenticate_of_prints {psk text : Bytes} {out : Bool × Option MikeyMessage}
    (h : (responderAuthenticatePrints L psk text).result = some out) :
    responderAuthenticate L { psk } text = .ok out := by
  unfold responderAuthenticatePrints at h
  unfold responderAuthenticate
  dsimp only
  generalize L.receive psk text = received at h ⊢
  obtain ⟨ok, raw⟩ := received
  cases raw with
  | none =>
    cases h
    rfl
  | some raw =>
    rw [Output.result_ofExcept_bind] at h
    cases hp : parseExtension raw with
    | error f =>
      rw [hp] at h
      cases h
    | ok m =>
      rw [hp] at h
      have hout : out = (ok, some m) := by
        obtain ⟨tgk, extension⟩ := m
        cases extension with
        | none =>
          cases h
          rfl
        | some p =>
          obtain ⟨data, -, h⟩ := Output.result_bind_iff.mp h
          cases h
          rfl
      rw [hout]
      simp only [hp, bind, Except.bind]
      rfl

/-- A line about an extension without a NUL reads on behind it; otherwise the responder's
lines go along with the offer. -/
theorem installReply_of_respondPrints {e : Shown} {psk text : Bytes} {between : Prints Unit}
    {ka : KeyAgreementPSK} (h : (respondPrints L e psk text between).result = some ka) :
    installReply L psk text = .ok ka := by
  obtain ⟨⟨ok, message⟩, hauth, h⟩ := Output.result_bind_iff.mp h
  obtain ⟨_, -, h⟩ := Output.result_bind_iff.mp h
  obtain ⟨_, -, h⟩ := Output.result_bind_iff.mp h
  cases message with
  | none => cases h
  | some m =>
    have hset : (Output.ofExcept (setMikeyOffer { psk } (some m)) : Prints _).result = some ka := h
    simp only [installReply, responderAuthenticate_of_prints hauth, bind, Except.bind]
    cases hm : setMikeyOffer { psk } (some m) with
    | error f =>
      rw [hm] at hset
      cases hset
    | ok ka' =>
      rw [hm] at hset
      cases hset
      rfl

theorem finishes_of_logPrints {endClock : Option Int64} {u : Unit}
    (h : (logPrints e endClock).result = some u) (timeLog : Option Bytes)
    (ka : Option KeyAgreementPSK) : ∃ ms, logTime endClock timeLog ka = .finishes ka ms := by
  cases endClock with
  | none => cases h
  | some t => exact ⟨_, rfl⟩

theorem finishes_of_sclientTailPrints {c : SclientCalls} {input : SclientInput} {sock : Address}
    {creds : Option Creds} {u : Unit}
    (h : (sclientTailPrints e L c input sock creds).result = some u) (argv : List Bytes) :
    ∃ ka ms, sclientTail L c argv input sock creds = .ok (.finishes ka ms) := by
  unfold sclientTailPrints at h
  unfold sclientTail
  rw [printTime, printf, Output.result_print_bind] at h
  cases creds with
  | none => cases h
  | some creds =>
    simp only [printTime, printf, Output.result_print_bind] at h
    dsimp only
    cases hs : c.sendauth sock creds with
    | failed =>
      rw [hs] at h
      cases h
    | rejected =>
      rw [hs] at h
      obtain ⟨ms, hms⟩ := finishes_of_logPrints e h argv[5]? none
      exact ⟨none, ms, congrArg Except.ok hms⟩
    | ok repRet =>
      rw [hs] at h
      cases repRet with
      | false => cases h
      | true =>
        obtain ⟨text, htext, h⟩ := Output.result_bind_iff.mp h
        obtain ⟨reply, hrecv, rfl⟩ := (sclientReceivePrints_result_iff e input text).mp htext
        simp only [Output.result_print_bind, cout, printf] at h
        obtain ⟨ka, hka, h⟩ := Output.result_bind_iff.mp h
        obtain ⟨ms, hms⟩ := finishes_of_logPrints e h argv[5]? (some ka)
        refine ⟨some ka, ms, ?_⟩
        simp only [hrecv, bind, Except.bind, installReply_of_respondPrints hka, hms]
        rfl

/-- Where sclient's lines come to their end, so does its `main`. -/
theorem finishes_of_sclientPrints {c : SclientCalls} {w : Krb5World} {argv : List Bytes}
    {input : SclientInput} {cache : List Creds} {server : Bytes} {u : Unit}
    (h : (sclientPrints e L c w argv input cache server).result = some u) :
    ∃ ka ms, (sclient L c w argv input cache server).ending = .ok (.finishes ka ms) := by
  obtain ⟨sock, hsock, h⟩ := Output.result_bind_iff.mp h
  unfold sclient
  rw [(sclientConnectPrints_result_iff e c argv sock).mp hsock]
  exact finishes_of_sclientTailPrints e h argv

/-! ## The two runs -/

variable (L) in
/-- Two tickets and the replies to them: `krb5_sendauth` has the same result, and the texts
that are read say the same. -/
def Sayings (c : SclientCalls) (x y : SclientInput) (cr cr' : Creds) : Prop :=
  (∀ sock, c.sendauth sock cr = c.sendauth sock cr') ∧
    ∀ text text', x.Reads text → y.Reads text' →
      SameButKeys L cr.keyblock text cr'.keyblock text'

theorem sclientTailPrints_twin (c : SclientCalls) {x y : SclientInput} (h : x.SameShape y)
    (sock : Address) {creds creds' : Option Creds}
    (hc : Option.Rel (Sayings L c x y) creds creds') :
    Output.Twin Eq (sclientTailPrints e L c x sock creds)
      (sclientTailPrints e L c y sock creds') := by
  unfold sclientTailPrints
  apply Output.Twin.bind_same
  intro _
  cases hc with
  | none => exact .stop
  | @some cr cr' hcr =>
    obtain ⟨hauth, hsayings⟩ := hcr
    dsimp only
    rw [hauth sock]
    apply Output.Twin.bind_same
    intro _
    apply Output.Twin.bind_same
    intro _
    apply Output.Twin.bind_same
    intro _
    cases c.sendauth sock cr' with
    | failed => exact .refl _
    | rejected => exact .refl _
    | ok repRet =>
      cases repRet with
      | false => exact .refl _
      | true =>
        apply (sclientReceivePrints_twin e h).bind
        rintro text text' ⟨hx, hy⟩
        apply Output.Twin.bind_same
        intro _
        apply Output.Twin.bind_same
        intro _
        apply Output.Twin.bind_same
        intro _
        apply Output.Twin.bind_same
        intro _
        apply (respondPrints_twin e.toShown (hsayings text text' hx hy) _).bind
        intro _ _ _
        exact .refl _

/-- **sclient prints no key.**  Two runs of `main` that differ in the session keys of their
tickets, with replies of the same shape that say the same, write the same lines. -/
theorem sclient_output_keyless (c : SclientCalls) {w w' : Krb5World} (argv : List Bytes)
    {x y : SclientInput} (h : x.SameShape y) {cache cache' : List Creds} (server : Bytes)
    (hc : Option.Rel (Sayings L c x y)
      (c.obtainCredentials w cache apOptsMutualRequired server).outCreds
      (c.obtainCredentials w' cache' apOptsMutualRequired server).outCreds) :
    sclientPrints e L c w argv x cache server = sclientPrints e L c w' argv y cache' server := by
  apply Output.Twin.eq
  apply Output.Twin.bind_same
  intro sock
  exact sclientTailPrints_twin e c h sock hc

end

/-- A ticket in the cache, with this session key. -/
def ticketWith (keyblock : Bytes) : Creds := ⟨ascii "gcks1", 36000, keyblock⟩

/-- A reply in two pieces for its holder. -/
def replyWith (keyblock : Bytes) : SclientInput where
  es := [.data 0 [12], .intr] ++ segment (writePart keyblock ++ writePart [5])
  xmitlen := (7, 7)
  malloc := zeros

/-- Two keys of three bytes; both runs read a reply of twelve. -/
theorem sclient_output_keyless_two :
    let calls : SclientCalls := ⟨true, 0, .ok [⟨true, true⟩], true, 0, 0, 0, 0, 0, 0,
      fun _ _ => .ok true, some 42⟩
    let world : Krb5World := ⟨1000, fun _ => 0x40000000, [], none, fun _ => .error ⟨1, by decide⟩,
      true⟩
    let e : SclientShown := ⟨quiet, ascii "sclient", aliceName.bytes, [], [], [], 0, 0⟩
    let argv := [ascii "LOCALHOST", ascii "8888", ascii "gcks1"]
    sclientPrints e plainMikey calls world argv (replyWith [1, 0, 2]) [ticketWith [1, 0, 2]]
        (ascii "gcks1") =
      sclientPrints e plainMikey calls world argv (replyWith [7, 8, 9]) [ticketWith [7, 8, 9]]
        (ascii "gcks1") := by
  intro calls world e argv
  have hreads : ∀ {key : Bytes} {rest : List Event} {text : Bytes},
      sclientReceive (replyWith key).es (7, 7) zeros =
        .ok (some ⟨12, writePart key ++ writePart [5], rest⟩) → (replyWith key).Reads text →
      plainMikey.receive key text = (true, some ⟨[5], none⟩) := by
    rintro key rest text h ⟨reply, hrecv, rfl⟩
    cases h.symm.trans hrecv
    have htgk := readPart_writePart [5] []
    rw [List.append_nil] at htgk
    simp only [plainMikey, readPart_writePart, htgk, beq_self_eq_true]
    rfl
  apply sclient_output_keyless e calls argv
  · exact ⟨by decide, by decide, rfl, rfl⟩
  · refine .some ⟨fun _ => rfl, fun text text' hx hy => ?_⟩
    have hread : sclientReceive (replyWith [1, 0, 2]).es (7, 7) zeros =
      .ok (some ⟨12, writePart [1, 0, 2] ++ writePart [5], []⟩) := by decide
    have hread' : sclientReceive (replyWith [7, 8, 9]).es (7, 7) zeros =
      .ok (some ⟨12, writePart [7, 8, 9] ++ writePart [5], []⟩) := by decide
    exact ⟨true, _, _, hreads hread hx, hreads hread' hy, rfl⟩

end KerberizedMikey
