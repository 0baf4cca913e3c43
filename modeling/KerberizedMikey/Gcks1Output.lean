import KerberizedMikey.KeyOutput
import KerberizedMikey.Gcks1

/-!
# What gcks1 prints

The lines that gcks1 writes from turn to turn of its loop.  Its key dumps are commented
out, so that no session key gets into a line, and neither does the randomness or the MIKEY
message.  Two runs that differ in nothing else look alike, whatever keys they use:

    lines written to the end  ↔  all turns come back to `accept`   (gcks1Prints_result_iff)
    turns the same but for keys  →  the same lines                   (gcks1_output_keyless)
-/

namespace KerberizedMikey

open CLib

/-- `fprintf(stderr, ...)`. -/
def fprintfStderr (text : Bytes) : Prints Unit := Output.print (.text .stderr text)

/-! ## The lines -/

section
variable {σ π ρ : Type} (K : Krb5Gcks1 σ π) (L : LibMikey ρ)

/-- One turn of the loop: the connection, its descriptor, and what else the lines show. -/
structure Turn (ρ : Type) where
  c : Connection K ρ
  acc : Nat
  e : Shown

/-- The lines about the ticket's client. -/
def clientPrints (e : Shown) (groupName : Bytes) (ticket : Ticket π) : Prints Unit :=
  match K.unparseName ticket.client with
  | .error retval => klogSyslog (ascii "unparse failed: " ++ e.errorMessage retval)
  | .ok cname => do
    printTime e 2
    fprintfStderr (ascii "\n==============================================\n")
    fprintfStderr (ascii "Multicast group name received " ++ groupName ++ ascii " from " ++
      cname.bytes ++ ascii " \n")
    initiatorCreatePrints e
    printTime e 3

/-- From `krb5_unparse_name` to the end of the turn. -/
def replyPrints (t : Turn K ρ) (repbuf groupName : Bytes) (ticket : Ticket π) :
    Prints (Gcks1 π) := do
  clientPrints K t.e groupName ticket
  let text ← Output.ofExcept (keyMgmtMessage K L ticket t.c.r)
  let (_, repbuf) ← Output.ofExcept (writeRepbuf repbuf text)
  Output.exitIf (!t.c.writeLength) (.text .syslog (t.e.strerror ++
    ascii ": while writing len to client"))
  Output.exitIf (!t.c.writeData) (.text .syslog (t.e.strerror ++
    ascii ": while writing data to client"))
  printTime t.e 4
  return ⟨repbuf, none⟩

/-- From the return of `krb5_recvauth_gcks` on. -/
def authenticatedPrints (t : Turn K ρ) (st : Gcks1 π) (retval : Int32) (group : Option KrbData)
    (ticket : Option (Ticket π)) : Prints (Gcks1 π) :=
  if retval ≠ 0 then do
    printf (t.e.fileLine 1 ++ ascii ": krb5_recvauth failed: " ++ t.e.errorMessage retval ++ [10])
    klogSyslog (ascii "recvauth failed--" ++ t.e.errorMessage retval)
    Output.stop
  else do
    let groupName ← Output.ofExcept (printGroup group)
    printf (groupName ++ [10])
    match ticket.or st.ticket with
    | none => Output.stop
    | some ticket => replyPrints K L t st.repbuf groupName ticket

/-- The prints of one turn, and the variables it leaves if gcks1 comes back to `accept`. -/
def gcks1PassPrints (port : Int16) (t : Turn K ρ) (st : Gcks1 π) : Prints (Gcks1 π) := do
  printf (ascii "GCKS1 Listening on port " ++ fmtInt port.toInt ++ ascii "...\n")
  Output.exitIf (!t.c.accept) (.text .syslog (ascii "accept: " ++ t.e.strerror))
  printf (t.e.fileLine 0 ++ ascii ": Connection established from [" ++ fmtHexUpper t.acc ++
    ascii "]\n")
  printTime t.e 0
  let ((retval, s), group) ← Output.ofExcept (krb5RecvauthGcks K.toKrb5Recv (some sampleVersion) 0
    ⟨0, none⟩ t.c.s)
  printTime t.e 1
  authenticatedPrints K L t st retval group (K.ticket s)

/-- The prints of gcks1 in its loop. -/
def gcks1Prints (port : Int16) : List (Turn K ρ) → Gcks1 π → Prints (Gcks1 π) :=
  Output.forEach (gcks1PassPrints K L port)

/-- The variables after a pass that comes back. -/
def Pass.looped {π : Type} : Except Fault (Pass π) → Option (Gcks1 π)
  | .ok (.loops _ st) => some st
  | _ => none

theorem replyPrints_result (t : Turn K ρ) (repbuf groupName : Bytes) (ticket : Ticket π) :
    (replyPrints K L t repbuf groupName ticket).result =
      Pass.looped (do
        let text ← keyMgmtMessage K L ticket t.c.r
        let (reply, repbuf) ← writeRepbuf repbuf text
        if !t.c.writeLength then .ok (.exits 1)
        else if !t.c.writeData then .ok (.exits 1)
        else .ok (.loops reply ⟨repbuf, none⟩)) := by
  have hclient : (clientPrints K t.e groupName ticket).result = some () := by
    unfold clientPrints
    cases K.unparseName ticket.client with
    | error retval => rfl
    | ok cname => rfl
  rw [replyPrints, Output.result_bind_of_some hclient, Output.result_ofExcept_bind]
  cases keyMgmtMessage K L ticket t.c.r with
  | error f => rfl
  | ok text =>
    show (Output.ofExcept (writeRepbuf repbuf text) >>= _ : Prints (Gcks1 π)).result = _
    rw [Output.result_ofExcept_bind]
    cases hw : writeRepbuf repbuf text with
    | error f =>
      simp only [bind, Except.bind, hw]
      rfl
    | ok out =>
      simp only [bind, Except.bind, hw]
      cases t.c.writeLength <;> cases t.c.writeData <;> rfl

/-- **The lines go along with the pass.** -/
theorem gcks1PassPrints_result (port : Int16) (t : Turn K ρ) (st : Gcks1 π) :
    (gcks1PassPrints K L port t st).result = Pass.looped (st.pass K L t.c) := by
  unfold gcks1PassPrints Gcks1.pass
  cases ha : t.c.accept with
  | false => rfl
  | true =>
    cases hr : krb5RecvauthGcks K.toKrb5Recv (some sampleVersion) 0 ⟨0, none⟩ t.c.s with
    | error f => rfl
    | ok out =>
      obtain ⟨⟨retval, s⟩, group⟩ := out
      show (authenticatedPrints K L t st retval group (K.ticket s)).result = _
      unfold authenticatedPrints
      by_cases hcode : retval ≠ 0
      · simp only [bind, Except.bind, if_pos hcode]
        rfl
      · simp only [if_neg hcode]
        rw [Output.result_ofExcept_bind]
        cases hp : printGroup group with
        | error f =>
          simp only [bind, Except.bind, if_neg hcode, hp]
          rfl
        | ok groupName =>
          simp only [bind, Except.bind, if_neg hcode, hp]
          cases ht : (K.ticket s).or st.ticket with
          | none => rfl
          | some ticket => exact replyPrints_result K L t st.repbuf groupName ticket

theorem Pass.looped_eq_some_iff {x : Except Fault (Pass π)} {st : Gcks1 π} :
    Pass.looped x = some st ↔ ∃ reply, x = .ok (.loops reply st) := by
  constructor
  · intro h
    match x, h with
    | .ok (.loops reply st), rfl => exact ⟨reply, rfl⟩
  · rintro ⟨reply, rfl⟩
    rfl

/-- gcks1 is at the end of its lines when it has served all turns. -/
theorem gcks1Prints_result_iff (port : Int16) {ts : List (Turn K ρ)} {st st' : Gcks1 π} :
    (gcks1Prints K L port ts st).result = some st' ↔
      Run (Gcks1.Step K L) st (ts.map (·.c)) st' := by
  rw [gcks1Prints, Output.forEach_result_iff]
  induction ts generalizing st with
  | nil => exact ⟨fun run => run.nil_eq ▸ .nil, fun run => run.nil_eq ▸ .nil⟩
  | cons t ts ih =>
    rw [List.map_cons, Run.cons_iff, Run.cons_iff]
    refine exists_congr fun u => and_congr ?_ ih
    rw [gcks1PassPrints_result, Pass.looped_eq_some_iff]
    rfl

/-! ## Two runs -/

/-- What `krb5_recvauth_gcks` gives in two runs: the same but for the ticket's key. -/
def SameAuth (x y : (Int32 × σ) × Option KrbData) : Prop :=
  x.1.1 = y.1.1 ∧ x.2 = y.2 ∧ (K.ticket x.1.2).map (·.client) = (K.ticket y.1.2).map (·.client)

/-- Two turns that differ in session keys, randomness, and what comes of them only. -/
structure Turn.SameButKeys (t u : Turn K ρ) : Prop where
  acc : t.acc = u.acc
  e : t.e = u.e
  accept : t.c.accept = u.c.accept
  recvauth : Option.Rel (SameAuth K)
    (krb5RecvauthGcks K.toKrb5Recv (some sampleVersion) 0 ⟨0, none⟩ t.c.s).toOption
    (krb5RecvauthGcks K.toKrb5Recv (some sampleVersion) 0 ⟨0, none⟩ u.c.s).toOption
  writeLength : t.c.writeLength = u.c.writeLength
  writeData : t.c.writeData = u.c.writeData

/-- The variables of two runs: `repbuf` may hold anything. -/
structure Gcks1.SameButKeys (st st' : Gcks1 π) : Prop where
  ticket : st.ticket.map (·.client) = st'.ticket.map (·.client)
  repbuf : st.repbuf.length = bufsiz
  repbuf' : st'.repbuf.length = bufsiz

variable {K L}

theorem replyPrints_twin {t u : Turn K ρ} (h : t.SameButKeys K u) {buf buf' : Bytes}
    (hb : buf.length = bufsiz) (hb' : buf'.length = bufsiz) (groupName : Bytes)
    {ticket ticket' : Ticket π} (ht : ticket.client = ticket'.client) :
    Output.Twin Gcks1.SameButKeys (replyPrints K L t buf groupName ticket)
      (replyPrints K L u buf' groupName ticket') := by
  obtain ⟨text, htext⟩ := keyMgmtMessage_ok K L ticket t.c.r
  obtain ⟨text', htext'⟩ := keyMgmtMessage_ok K L ticket' u.c.r
  obtain ⟨reply, new, -, hlen, hwrite⟩ := writeRepbuf_eq buf hb text
  obtain ⟨reply', new', -, hlen', hwrite'⟩ := writeRepbuf_eq buf' hb' text'
  have hclient : clientPrints K u.e groupName ticket = clientPrints K u.e groupName ticket' := by
    rw [clientPrints, clientPrints, ht]
  unfold replyPrints
  simp only [hclient, htext, htext', hwrite, hwrite', Output.ofExcept_ok, pure_bind, h.e,
    h.writeLength, h.writeData]
  apply Output.Twin.bind_same
  intro _
  apply Output.Twin.bind_same
  intro _
  apply Output.Twin.bind_same
  intro _
  apply Output.Twin.bind_same
  intro _
  exact .pure ⟨rfl, hlen, hlen'⟩

theorem authenticatedPrints_twin {t u : Turn K ρ} (h : t.SameButKeys K u) {st st' : Gcks1 π}
    (hst : st.SameButKeys st') (retval : Int32) (group : Option KrbData)
    {ticket ticket' : Option (Ticket π)}
    (ht : ticket.map (·.client) = ticket'.map (·.client)) :
    Output.Twin Gcks1.SameButKeys (authenticatedPrints K L t st retval group ticket)
      (authenticatedPrints K L u st' retval group ticket') := by
  unfold authenticatedPrints
  rw [h.e]
  by_cases hcode : retval ≠ 0
  · rw [if_pos hcode, if_pos hcode]
    apply Output.Twin.bind_same
    intro _
    apply Output.Twin.bind_same
    intro _
    exact .stop
  · rw [if_neg hcode, if_neg hcode]
    apply Output.Twin.bind_same
    intro groupName
    apply Output.Twin.bind_same
    intro _
    have hor : (ticket.or st.ticket).map (·.client) = (ticket'.or st'.ticket).map (·.client) := by
      rw [Option.map_or, Option.map_or, ht, hst.ticket]
    cases hx : ticket.or st.ticket with
    | none =>
      rw [hx] at hor
      rw [Option.map_eq_none_iff.mp hor.symm]
      exact .stop
    | some tk =>
      rw [hx] at hor
      obtain ⟨tk', hy, hclient⟩ := Option.map_eq_some_iff.mp hor.symm
      rw [hy]
      exact replyPrints_twin h hst.repbuf hst.repbuf' groupName hclient.symm

/-- **One turn.** -/
theorem gcks1PassPrints_twin (port : Int16) {t u : Turn K ρ} (h : t.SameButKeys K u)
    {st st' : Gcks1 π} (hst : st.SameButKeys st') :
    Output.Twin Gcks1.SameButKeys (gcks1PassPrints K L port t st)
      (gcks1PassPrints K L port u st') := by
  unfold gcks1PassPrints
  rw [h.acc, h.e, h.accept]
  apply Output.Twin.bind_same
  intro _
  apply Output.Twin.bind_same
  intro _
  apply Output.Twin.bind_same
  intro _
  apply Output.Twin.bind_same
  intro _
  apply (Output.Twin.ofExcept h.recvauth).bind
  rintro ⟨⟨retval, s⟩, group⟩ ⟨⟨_, s'⟩, _⟩ ⟨rfl, rfl, hticket⟩
  apply Output.Twin.bind_same
  intro _
  exact authenticatedPrints_twin h hst retval group hticket

/-- **gcks1 prints no key.**  Over any turns, two runs that differ in the session keys of
the tickets and in the randomness write the same lines, and come back to `accept` equally
often. -/
theorem gcks1_output_keyless (port : Int16) {ts us : List (Turn K ρ)}
    (h : List.Forall₂ (Turn.SameButKeys K) ts us)
    (stack stack' : { block : Bytes // block.length = bufsiz }) :
    (gcks1Prints K L port ts (.start stack)).written =
        (gcks1Prints K L port us (.start stack')).written ∧
      ((∃ st, Run (Gcks1.Step K L) (.start stack) (ts.map (·.c)) st) ↔
        ∃ st, Run (Gcks1.Step K L) (.start stack') (us.map (·.c)) st) := by
  have htwin : Output.Twin Gcks1.SameButKeys (gcks1Prints K L port ts (.start stack))
      (gcks1Prints K L port us (.start stack')) :=
    Output.Twin.forEach (fun _ _ _ _ ht hst => gcks1PassPrints_twin port ht hst) h
      ⟨rfl, stack.property, stack'.property⟩
  refine ⟨htwin.written, ?_⟩
  simp only [← gcks1Prints_result_iff K L port]
  exact htwin.exists_result_iff

end

/-- A turn of alice's, whose ticket has this session key. -/
def aliceTurn (session r : Bytes) : Turn scriptedRecv Bytes where
  c := { scriptedClient (some [⟨72, 7, ascii "group1" ++ [0]⟩]) ⟨aliceName, session⟩ with r }
  acc := 5
  e := quiet

/-- Two keys of different lengths. -/
theorem gcks1_output_keyless_alice :
    let prints turn := gcks1Prints scriptedRecv plainMikey 8888 [turn] (.start zeroStack)
    (prints (aliceTurn [1, 0, 2] [5])).written = (prints (aliceTurn [7, 7] [6])).written := by
  refine (gcks1_output_keyless 8888 (.cons ?_ .nil) zeroStack zeroStack).1
  exact ⟨rfl, rfl, rfl, .some ⟨rfl, rfl, rfl⟩, rfl, rfl⟩

end KerberizedMikey
