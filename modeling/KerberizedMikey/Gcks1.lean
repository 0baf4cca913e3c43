import KerberizedMikey.RecvAuth
import KerberizedMikey.Km1Framing
import KerberizedMikey.PlainMikey
import KerberizedMikey.CLib.Runs

/-!
# gcks1: one client after the other

The accept loop of gcks1's `main`.  A pass authenticates the client with
`krb5_recvauth_gcks`, prints the group, and answers with a MIKEY message under the
ticket's session key, from the same `repbuf` each time; whatever goes wrong ends in
`exit(1)` or in a NULL pointer.

    a pass comes back to accept   ↔  the client is Valid           (step_exists_iff)
    the reply to a valid client   =  ownReply of its ticket          (pass_of_valid)

so gcks1 keeps its clients apart on exactly the runs without an invalid one
(`gcks1_isolates_iff`).
-/

namespace KerberizedMikey

open CLib

/-- `krb5_ticket`, as far as gcks1 reads it: `enc_part2->client`, `enc_part2->session`. -/
structure Ticket (π : Type) where
  client : π
  session : Bytes

/-- What gcks1 uses of krb5; principals are `π`. -/
structure Krb5Gcks1 (σ π : Type) extends Krb5Recv σ where
  /-- The ticket that the call has put into `*ticket`, if it has. -/
  ticket : σ → Option (Ticket π)
  unparseName : π → Except Int32 CString

/-- A connection: `s` is the state of files and peer in which `krb5_recvauth_gcks`
starts, with `auth_context` set to NULL. -/
structure Connection {σ π : Type} (K : Krb5Gcks1 σ π) (ρ : Type) where
  accept : Bool
  s : σ
  authContextNull : K.authContextNull s = true
  r : ρ
  /-- `krb5_net_write` of the length and of the data. -/
  writeLength : Bool
  writeData : Bool

/-- The variables that live through the loop; `ticket` is NULL when it points to no
ticket, as before the first pass and after `krb5_free_ticket`. -/
structure Gcks1 (π : Type) where
  repbuf : Bytes
  ticket : Option (Ticket π) := none

inductive Pass (π : Type)
  | loops (reply : Bytes) (st : Gcks1 π)
  | exits (code : Nat)

/-- `SAMPLE_VERSION`. -/
def sampleVersion : CString := ⟨ascii "KRB5_sample_protocol_v1.0", by decide⟩

def unparseError : CString := ⟨ascii "You are <unparse error>\n", by decide⟩

/-- `printf("%s\n", group_name.data)`. -/
def printGroup : Option KrbData → Except Fault Bytes
  | some ⟨_, some contents⟩ => cstr contents
  | _ => .error .nullDeref

section
variable {σ π ρ : Type} (K : Krb5Gcks1 σ π) (L : LibMikey ρ)

/-- The text for `repbuf`. -/
def keyMgmtMessage (ticket : Ticket π) (r : ρ) : Except Fault CString :=
  match K.unparseName ticket.client with
  | .error _ => .ok unparseError
  | .ok cname => initiatorCreate L { psk := ticket.session } cname.bytes r

/-- `strncpy` into `repbuf`, whose last byte is NUL, and the reply from it. -/
def writeRepbuf (repbuf : Bytes) (text : CString) : Except Fault (Bytes × Bytes) := do
  let repbuf ← storeByte repbuf (bufsiz - 1) 0
  let copied ← strncpy text.alloc (bufsiz - 1)
  let repbuf ← store repbuf copied
  let s ← cstr repbuf
  return (shortBytes (htons (UInt16.ofNat s.length)) ++ s, repbuf)

/-- One pass of `while(1)`, while `listen` and `clock_gettime` work. -/
def Gcks1.pass (st : Gcks1 π) (c : Connection K ρ) : Except Fault (Pass π) :=
  if !c.accept then .ok (.exits 3)
  else do
    let ((retval, s), group) ← krb5RecvauthGcks K.toKrb5Recv (some sampleVersion) 0 ⟨0, none⟩ c.s
    if retval ≠ 0 then .ok (.exits 1)
    else do
      let _ ← printGroup group
      -- a call that stores no ticket leaves the variable as it was
      match (K.ticket s).or st.ticket with
      | none => .error .nullDeref
      | some ticket => do
        let text ← keyMgmtMessage K L ticket c.r
        let (reply, repbuf) ← writeRepbuf st.repbuf text
        if !c.writeLength then .ok (.exits 1)
        else if !c.writeData then .ok (.exits 1)
        else .ok (.loops reply ⟨repbuf, none⟩)

/-- The client authenticates, names a group by a terminated string, and leaves gcks1
with its ticket. -/
def Connection.Authenticates {K : Krb5Gcks1 σ π} (c : Connection K ρ) (ticket : Ticket π) : Prop :=
  ∃ v s s' ad rest,
    recvauthBody K.toKrb5Recv (recvauthArgs (some sampleVersion) 0) {} c.s = (.next, v, s) ∧
    K.authorizationData s = some (ad :: rest) ∧ 0 ∈ ad.contents ∧
    K.cleanup v s = (0, s') ∧ K.ticket s' = some ticket

/-- The reply to the holder of a ticket. -/
def ownReply (ticket : Ticket π) (r : ρ) : Except Fault Bytes := do
  let text ← keyMgmtMessage K L ticket r
  gcks1Reply text

/-- A client that authenticates and stays for its answer. -/
structure Connection.Valid {K : Krb5Gcks1 σ π} (c : Connection K ρ) : Prop where
  accept : c.accept = true
  authenticates : ∃ ticket, c.Authenticates ticket
  writeLength : c.writeLength = true
  writeData : c.writeData = true

/-- Between two passes: a whole buffer, no ticket. -/
structure Gcks1.Idle (st : Gcks1 π) : Prop where
  repbuf : st.repbuf.length = bufsiz
  ticket : st.ticket = none

/-- One pass that comes back to `accept`. -/
def Gcks1.Step (st : Gcks1 π) (c : Connection K ρ) (st' : Gcks1 π) : Prop :=
  ∃ reply, st.pass K L c = .ok (.loops reply st')

/-! ## The reply buffer -/

/-- **`repbuf` is written whole.**  Nothing of its old bytes is left. -/
theorem writeRepbuf_eq (buf : Bytes) (hb : buf.length = bufsiz) (text : CString) :
    ∃ reply buf', gcks1Reply text = .ok reply ∧ buf'.length = bufsiz ∧
      writeRepbuf buf text = .ok (reply, buf') := by
  have hcopy := strncpy_append_nul text.bytes [] (bufsiz - 1) text.nul_free
  obtain ⟨copied, hc⟩ : ∃ copied,
      (text.bytes ++ List.replicate (bufsiz - 1) 0).take (bufsiz - 1) = copied := ⟨_, rfl⟩
  have hlen : copied.length = bufsiz - 1 := by
    rw [← hc, List.length_take, List.length_append, List.length_replicate]
    omega
  rw [hc] at hcopy
  have hset : (buf.set (bufsiz - 1) 0).drop (bufsiz - 1) = [0] := by
    have hl : (buf.set (bufsiz - 1) 0).length = bufsiz := by rw [List.length_set, hb]
    have hlt : bufsiz - 1 < (buf.set (bufsiz - 1) 0).length := by
      rw [hl, bufsiz]
      omega
    rw [List.drop_eq_getElem_cons hlt, List.getElem_set_self, List.drop_of_length_le]
    rw [hl, bufsiz]
  have hstore : store (buf.set (bufsiz - 1) 0) copied = .ok (copied ++ [0]) := by
    rw [store_of_le (by rw [List.length_set, hlen, hb]; omega), hlen, hset]
  have hstr : ∃ s, cstr (copied ++ [0]) = .ok s := ⟨_, if_pos (by simp)⟩
  obtain ⟨s, hs⟩ := hstr
  have hrep : repbuf text = .ok (copied ++ [0]) := by
    simp only [repbuf, CString.alloc, hcopy, bind, Except.bind]
    rfl
  refine ⟨shortBytes (htons (UInt16.ofNat s.length)) ++ s, copied ++ [0], ?_, ?_, ?_⟩
  · simp only [gcks1Reply, hrep, hs, bind, Except.bind]
    rfl
  · rw [List.length_append, hlen, bufsiz]
    rfl
  · have hlast : bufsiz - 1 < buf.length := by
      rw [hb, bufsiz]
      omega
    simp only [writeRepbuf, storeByte_of_lt hlast, CString.alloc, hcopy, hstore, hs, bind,
      Except.bind]
    rfl

/-- The answer that the ticket and fresh randomness decide. -/
theorem keyMgmtMessage_ok (ticket : Ticket π) (r : ρ) :
    ∃ text, keyMgmtMessage K L ticket r = .ok text := by
  unfold keyMgmtMessage
  cases K.unparseName ticket.client with
  | error e => exact ⟨_, rfl⟩
  | ok cname => exact ⟨_, rfl⟩

/-! ## One pass -/

variable {K L}

/-- **A valid client is served**, with the reply that its own ticket and the randomness
decide, whatever is in the variables. -/
theorem pass_of_valid {st : Gcks1 π} (hst : st.Idle) {c : Connection K ρ} (hc : c.Valid)
    {ticket : Ticket π} (ht : c.Authenticates ticket) :
    ∃ reply st', st.pass K L c = .ok (.loops reply st') ∧ ownReply K L ticket c.r = .ok reply ∧
      st'.Idle := by
  obtain ⟨v, s, s', ad, rest, hbody, hads, h0, hclean, hticket⟩ := ht
  have hrecv : krb5RecvauthGcks K.toKrb5Recv (some sampleVersion) 0 ⟨0, none⟩ c.s =
      .ok ((0, s'), some ⟨0, some ad.contents⟩) := by
    rw [krb5RecvauthGcks_of_next hbody, setMulticastGroup_cons hads, ← hclean]
    rfl
  obtain ⟨text, htext⟩ := keyMgmtMessage_ok K L ticket c.r
  obtain ⟨reply, buf, hreply, hlen, hwrite⟩ := writeRepbuf_eq st.repbuf hst.repbuf text
  refine ⟨reply, ⟨buf, none⟩, ?_, ?_, hlen, rfl⟩
  · have hgroup : printGroup (some ⟨0, some ad.contents⟩) =
        .ok (ad.contents.takeWhile (· != 0)) := if_pos h0
    simp only [Gcks1.pass, hc.accept, hrecv, hgroup, hticket, Option.some_or, htext, hwrite,
      hc.writeLength, hc.writeData, bind, Except.bind]
    rfl
  · simp only [ownReply, htext, bind, Except.bind]
    exact hreply

/-- A group that can be printed comes from the authenticator's first element. -/
theorem element_of_printed {s s' : σ} {group : Option KrbData} {name : Bytes}
    (hr : krb5RecvauthGcks K.toKrb5Recv (some sampleVersion) 0 ⟨0, none⟩ s = .ok ((0, s'), group))
    (hp : printGroup group = .ok name) :
    ∃ v s1 ad rest,
      recvauthBody K.toKrb5Recv (recvauthArgs (some sampleVersion) 0) {} s = (.next, v, s1) ∧
      K.authorizationData s1 = some (ad :: rest) ∧ 0 ∈ ad.contents ∧ K.cleanup v s1 = (0, s') := by
  by_cases hearly : LeavesEarly K.toKrb5Recv (recvauthArgs (some sampleVersion) 0) s
  · -- the group stays unset
    obtain ⟨code, s'', hr'⟩ := krb5RecvauthGcks_of_early hearly ⟨0, none⟩
    rw [hr'] at hr
    cases hr
    cases hp
  obtain ⟨v, s1, hbody⟩ : ∃ v s1, recvauthBody K.toKrb5Recv (recvauthArgs (some sampleVersion) 0)
      {} s = (.next, v, s1) := ⟨_, _, Prod.ext (not_not.mp hearly) rfl⟩
  rw [krb5RecvauthGcks_of_next hbody] at hr
  by_cases hads : ∃ ad rest, K.authorizationData s1 = some (ad :: rest)
  · obtain ⟨ad, rest, hads⟩ := hads
    rw [setMulticastGroup_cons hads] at hr
    obtain ⟨hclean, rfl⟩ := Prod.mk.inj (Except.ok.inj hr)
    refine ⟨v, s1, ad, rest, hbody, hads, ?_, hclean⟩
    by_contra h0
    rw [printGroup, cstr_of_not_mem _ h0] at hp
    cases hp
  · rw [setMulticastGroup_of_no_element fun ad rest hads' => hads ⟨ad, rest, hads'⟩] at hr
    cases hr

/-- **Only a valid client is served.** -/
theorem valid_of_loops {st : Gcks1 π} (hst : st.Idle) {c : Connection K ρ} {reply : Bytes}
    {st' : Gcks1 π} (h : st.pass K L c = .ok (.loops reply st')) : c.Valid := by
  unfold Gcks1.pass at h
  cases haccept : c.accept with
  | false =>
    rw [haccept] at h
    cases h
  | true =>
    rw [haccept] at h
    simp only [Bool.not_true, Bool.false_eq_true, if_false, hst.ticket, Option.or_none] at h
    cases hr : krb5RecvauthGcks K.toKrb5Recv (some sampleVersion) 0 ⟨0, none⟩ c.s with
    | error f =>
      rw [hr] at h
      cases h
    | ok out =>
      obtain ⟨⟨retval, s'⟩, group⟩ := out
      simp only [hr, bind, Except.bind] at h
      by_cases hcode : retval = 0
      case neg =>
        rw [if_pos hcode] at h
        cases h
      subst hcode
      rw [if_neg (not_not.mpr rfl)] at h
      cases hp : printGroup group with
      | error f =>
        rw [hp] at h
        cases h
      | ok name =>
        obtain ⟨v, s1, ad, rest, hbody, hads, h0, hclean⟩ := element_of_printed hr hp
        simp only [hp] at h
        cases ht : K.ticket s' with
        | none =>
          rw [ht] at h
          cases h
        | some ticket =>
          obtain ⟨text, htext⟩ := keyMgmtMessage_ok K L ticket c.r
          obtain ⟨reply', buf, -, -, hwrite⟩ := writeRepbuf_eq st.repbuf hst.repbuf text
          simp only [ht, htext, hwrite] at h
          refine ⟨haccept, ⟨ticket, v, s1, s', ad, rest, hbody, hads, h0, hclean, ht⟩, ?_, ?_⟩
          · by_contra hwl
            rw [Bool.not_eq_true] at hwl
            rw [hwl] at h
            cases h
          · by_contra hwd
            rw [Bool.not_eq_true] at hwd
            rw [hwd] at h
            cases hwl : c.writeLength <;> rw [hwl] at h <;> cases h

/-- A pass that comes back leaves the loop as it found it. -/
theorem idle_of_step {st st' : Gcks1 π} (hst : st.Idle) {c : Connection K ρ}
    (h : st.Step K L c st') : st'.Idle := by
  obtain ⟨reply, h⟩ := h
  have hv := valid_of_loops hst h
  obtain ⟨ticket, ht⟩ := hv.authenticates
  obtain ⟨reply', st'', hp, -, hidle⟩ := pass_of_valid (L := L) hst hv ht
  rw [h] at hp
  cases hp
  exact hidle

/-- **The step lemma.** -/
theorem step_exists_iff {st : Gcks1 π} (hst : st.Idle) (c : Connection K ρ) :
    (∃ st', st.Step K L c st') ↔ c.Valid := by
  constructor
  · rintro ⟨st', reply, h⟩
    exact valid_of_loops hst h
  · intro hv
    obtain ⟨ticket, ht⟩ := hv.authenticates
    obtain ⟨reply, st', hp, -⟩ := pass_of_valid (L := L) hst hv ht
    exact ⟨st', reply, hp⟩

/-! ## Many clients -/

/-- gcks1 when it first reaches the loop, with what the stack held in `repbuf`. -/
def Gcks1.start (stack : { block : Bytes // block.length = bufsiz }) : Gcks1 π where
  repbuf := stack.val

theorem Gcks1.idle_start (stack : { block : Bytes // block.length = bufsiz }) :
    (Gcks1.start (π := π) stack).Idle := ⟨stack.property, rfl⟩

variable (K L)

/-- **Clients kept apart.** -/
structure Isolates (stack : { block : Bytes // block.length = bufsiz })
    (as : List (Connection K ρ)) : Prop where
  /-- No client takes gcks1 out of its loop. -/
  inLoop : ∃ st, Run (Gcks1.Step K L) (.start stack) as st
  /-- Each valid client meets gcks1 at `accept` and gets the reply of its own ticket. -/
  served : ∀ bs c cs ticket, as = bs ++ c :: cs → c.Valid → c.Authenticates ticket →
    ∃ st reply st', Run (Gcks1.Step K L) (.start stack) bs st ∧
      st.pass K L c = .ok (.loops reply st') ∧ ownReply K L ticket c.r = .ok reply

/-- gcks1 gets to the end of a run exactly when no client is invalid. -/
theorem gcks1_run_exists_iff (stack : { block : Bytes // block.length = bufsiz })
    (as : List (Connection K ρ)) :
    (∃ st, Run (Gcks1.Step K L) (.start stack) as st) ↔ ∀ c ∈ as, c.Valid :=
  Run.exists_iff (I := Gcks1.Idle) (Gcks1.idle_start stack)
    (fun _ _ _ hst h => idle_of_step hst h) (fun _ c hst => step_exists_iff hst c) as

/-- **When gcks1 keeps its clients apart**: when none of them is invalid. -/
theorem gcks1_isolates_iff (stack : { block : Bytes // block.length = bufsiz })
    (as : List (Connection K ρ)) : Isolates K L stack as ↔ ∀ c ∈ as, c.Valid := by
  constructor
  · intro h
    exact (gcks1_run_exists_iff K L stack as).mp h.inLoop
  · intro hall
    refine ⟨(gcks1_run_exists_iff K L stack as).mpr hall, ?_⟩
    rintro bs c cs ticket rfl hc ht
    obtain ⟨st, run⟩ := (gcks1_run_exists_iff K L stack bs).mpr fun d hd =>
      hall d (List.mem_append_left _ hd)
    have hidle : st.Idle := run.invariant (P := fun _ => True) (Gcks1.idle_start stack)
      (fun _ _ _ _ hst h => idle_of_step hst h) fun _ _ => trivial
    obtain ⟨reply, st', hp, hown, -⟩ := pass_of_valid (L := L) hidle hc ht
    exact ⟨st, reply, st', run, hp, hown⟩

end

/-! ## A client that ends gcks1 -/

/-- What a client brings to a library on which every call succeeds. -/
structure Script where
  authorizationData : Option (List AuthData)
  ticket : Ticket CString

def scriptedRecv : Krb5Gcks1 Script CString where
  readMessage s := (0, s)
  differs _ _ := false
  storeVersion s := s
  netWrite _ s := (true, s)
  writeMessage _ s := (0, s)
  authContextNull _ := true
  authConInit s := (0, s)
  rcacheNull _ := true
  getServerRcache s := (0, s)
  authConSetrcache s := (0, s)
  rdReq s := (0, 0, s)
  mkError problem s := (.error problem, s)
  mkRep s := (.ok [], s)
  authorizationData s := s.authorizationData
  authConFree s := s
  rcClose s := s
  ticket s := some s.ticket
  unparseName client := .ok client

theorem scriptedRecv_body (s : Script) :
    recvauthBody scriptedRecv.toKrb5Recv (recvauthArgs (some sampleVersion) 0) {} s =
      (.next, { localAuthcon := true, localRcache := true }, s) := by
  simp [recvauthBody, Block.andThen, checkSendauthVersion, checkFlags, checkApplVersion,
    writeResponse, readApReq, initAuthContext, initRcache, readRequest, errorReply, writeReply,
    mutualAuth, scriptedRecv, recvauthArgs, recvauthSkipVersion, recvauthBadauthvers]

/-- A client of gcks1 that stays for its answer. -/
def scriptedClient (authorizationData : Option (List AuthData)) (ticket : Ticket CString) :
    Connection scriptedRecv Bytes where
  accept := true
  s := ⟨authorizationData, ticket⟩
  authContextNull := rfl
  r := [5]
  writeLength := true
  writeData := true

def aliceTicket : Ticket CString := ⟨aliceName, [1, 0, 2]⟩

/-- A stack of zeros. -/
def zeroStack : { block : Bytes // block.length = bufsiz } :=
  ⟨List.replicate bufsiz 0, List.length_replicate⟩

/-- An ordinary Kerberos client sends no authorization data and ends gcks1, so that a
valid client after it finds none. -/
theorem gcks1_ended_by_client :
    let ordinary := scriptedClient none aliceTicket
    let alice := scriptedClient (some [⟨72, 7, ascii "group1" ++ [0]⟩]) aliceTicket
    alice.Valid ∧
      (Gcks1.start zeroStack).pass scriptedRecv plainMikey ordinary = .error .nullDeref ∧
      ¬ Isolates scriptedRecv plainMikey zeroStack [ordinary, alice] := by
  intro ordinary alice
  have hfault : (Gcks1.start zeroStack).pass scriptedRecv plainMikey ordinary =
      .error .nullDeref := by
    have hrecv := krb5RecvauthGcks_of_next (scriptedRecv_body ordinary.s) ⟨0, none⟩
    simp only [Gcks1.pass, hrecv, bind, Except.bind]
    rfl
  refine ⟨⟨rfl, ⟨aliceTicket, _, _, _, _, [], scriptedRecv_body _, rfl, by decide, rfl, rfl⟩,
    rfl, rfl⟩, hfault, ?_⟩
  intro h
  have hv := (gcks1_run_exists_iff _ _ zeroStack [ordinary, alice]).mp h.inLoop ordinary (by simp)
  obtain ⟨st', reply, hp⟩ := (step_exists_iff (L := plainMikey) (Gcks1.idle_start zeroStack)
    ordinary).mpr hv
  rw [hfault] at hp
  cases hp

end KerberizedMikey
