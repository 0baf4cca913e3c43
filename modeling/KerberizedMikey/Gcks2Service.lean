import KerberizedMikey.Km2Agreement
import KerberizedMikey.Km2Transport

/-!
# gcks2 as a service

gcks2's `main` from its arguments on, and `gcks2_run.sh`, which starts it again whenever it
ends.  `main` does not look at the value of `obtain_service_key`; without a key gcks2
listens all the same, and the first bytes it receives end it.

    started with its key  →  whatever else arrives in between, each message of the KDC that
      arrives whole is forwarded by the pass that received it           (service_forwards)
    started without it    →  nothing is ever forwarded                   (service_keyless)
    back at accept after all visits  ↔  none of them stays silent       (service_available)

gcks2 serves one connection at a time, and nothing bounds its `recv`; nor does anything
bound the `connect` loop of `send_mikey_message`.
-/

namespace KerberizedMikey

open CLib

/-! ## Startup -/

/-- The results of the calls of gcks2's `main` before its loop. -/
structure Gcks2Calls where
  /-- `clock_getres` and the first `clock_gettime`. -/
  clock : Bool
  initContext : Int32
  ktResolve : Int32
  socket : Bool
  /-- `SO_REUSEADDR`. -/
  setsockopt : Bool
  setLinger : Bool
  snameToPrincipal : Int32
  /-- Of the keytab file, or the default one, for the service. -/
  ktReadServiceKey : Option Bytes → Bytes → Except Int32 Bytes
  bind : Bool
  listen : Bool

/-- `obtain_service_key`: its value, and `*gcks_key`, which was NULL. -/
def obtainServiceKey (c : Gcks2Calls) (keytabFilename : Option Bytes) (gcksSname : Bytes) :
    Int32 × Option Bytes :=
  if c.snameToPrincipal ≠ 0 then (c.snameToPrincipal, none)
  else
    match c.ktReadServiceKey keytabFilename gcksSname with
    | .error retval => (retval, none)
    | .ok key => (0, some key)

/-- The call in `main`; `argv` starts with `argv[1]`. -/
def Gcks2Calls.serviceKey (c : Gcks2Calls) (argv : List Bytes) : Int32 × Option Bytes :=
  obtainServiceKey c argv[1]? (argv.getD 0 (ascii "gcks1"))

/-- gcks2's `main` up to its loop: `gcks_key`, or `none` for an exit. -/
def gcks2Start (c : Gcks2Calls) (argv : List Bytes) : Option (Option Bytes) :=
  if !c.clock then none
  else if c.initContext ≠ 0 then none
  else if argv.length > 1 ∧ c.ktResolve ≠ 0 then none
  else if !c.socket then none
  else if !c.setsockopt then none
  else if !c.setLinger then none
  -- `obtain_service_key`, whose value is dropped
  else if !c.bind then none
  else if !c.listen then none
  else some (c.serviceKey argv).2

/-! ## The loop -/

/-- A connection as gcks2 meets it, and its next start if the pass is its last. -/
structure Visit (ρ : Type) where
  /-- `accept` returns a connection, not -1. -/
  accept : Bool
  clock : Bool
  /-- What `recv` meets, or `none` while the connection is open and silent. -/
  es : Option (List Event)
  /-- `recv_data[-1] = '\\0'`, after a failed `recv`, does no harm. -/
  survives : Bool
  net : ClientNet
  r : ρ
  restart : Gcks2Calls

/-- How a pass ends: at `accept` again; with the process; never. -/
inductive PassEnd
  | loops (olds : Option Bytes) (sent : Option ClientMessage)
  | ends
  | hangs

section
variable {ρ : Type} (L : LibMikey ρ)

/-- `recv` returns -1, and leaves the zeroed buffer. -/
def Visit.failedRecv (v : Visit ρ) : Except Fault Bytes :=
  if v.survives then .ok [] else .error .overWrite

/-- The string in `recv_data`, if `recv` returns. -/
def Visit.received (v : Visit ρ) : Option (Except Fault Bytes) :=
  -- `recv` on -1
  if !v.accept then some v.failedRecv
  else
    v.es.map fun es =>
      match (sysRead (bufsiz - 1) es).1 with
      | .bytes _ => gcks2Recv es
      | .intr => v.failedRecv
      | .err => v.failedRecv

/-- The connection is accepted and stays silent. -/
structure Visit.Silent (v : Visit ρ) : Prop where
  accept : v.accept = true
  clock : v.clock = true
  es : v.es = none

/-- One pass of `while (1)`. -/
def gcks2Pass (gcksKey olds : Option Bytes) (v : Visit ρ) : PassEnd :=
  if !v.clock then .ends
  else
    match v.received, gcksKey with
    | none, _ => .hangs
    | some (.error _), _ => .ends
    -- `gcks_key->contents`
    | some (.ok _), none => .ends
    | some (.ok text), some gcksKey =>
      match processMikeyMessage L gcksKey text { olds } with
      | (_, some _) => .ends
      | (vars, none) =>
        match forward L v.net v.r vars with
        | .error _ => .ends
        | .ok .noSocket => .loops vars.olds none
        | .ok .connecting => .hangs
        | .ok (.sent m) => .loops vars.olds (some m)

/-- gcks2 under `gcks2_run.sh`, and what each pass so far has sent. -/
structure Gcks2Service where
  gcksKey : Option Bytes
  olds : Option Bytes := none
  hung : Bool := false
  restarts : Nat := 0
  sent : List (Option ClientMessage) := []

variable (argv : List Bytes)

/-- The visit of one connection.  Starts that do not come to the loop are repeated. -/
inductive Gcks2Service.Step : Gcks2Service → Visit ρ → Gcks2Service → Prop
  | loops (s : Gcks2Service) (v : Visit ρ) (olds : Option Bytes) (sent : Option ClientMessage)
      (hs : s.hung = false) (h : gcks2Pass L s.gcksKey s.olds v = .loops olds sent) :
      Step s v { s with olds, sent := s.sent ++ [sent] }
  | restarts (s : Gcks2Service) (v : Visit ρ) (gcksKey : Option Bytes) (hs : s.hung = false)
      (h : gcks2Pass L s.gcksKey s.olds v = .ends)
      (hstart : gcks2Start v.restart argv = some gcksKey) :
      Step s v { gcksKey, restarts := s.restarts + 1, sent := s.sent ++ [none] }
  | hangs (s : Gcks2Service) (v : Visit ρ) (hs : s.hung = false)
      (h : gcks2Pass L s.gcksKey s.olds v = .hangs) :
      Step s v { s with hung := true, sent := s.sent ++ [none] }

/-- `obtain_service_key` finds the key. -/
def Gcks2Calls.FindsKey (c : Gcks2Calls) (argv : List Bytes) (gcksKey : Bytes) : Prop :=
  (c.serviceKey argv).2 = some gcksKey

variable (gcksKey : Bytes)

/-- The KDC's message for the request, whole and in one segment. -/
def Visit.FromKdc (v : Visit ρ) (req : Request) : Prop :=
  ∃ (q : GcksReq ρ) (text : Bytes) (fds : Nat) (ending : CallEnd),
    q.req = req ∧ q.Fits L gcksKey ∧ q.call L gcksKey = .ok ⟨some text, fds, ending⟩ ∧
    v.es = some (segment text)

/-- The calls of the pass succeed, and the client listens. -/
structure Visit.Up (v : Visit ρ) : Prop where
  accept : v.accept = true
  clock : v.clock = true
  socket : v.net.socket = true
  resolves : ∀ host, v.net.resolves host = true
  connects : v.net.connects = true

variable {L argv gcksKey}

/-! ## One pass -/

theorem Gcks2Service.Step.not_hung {s t : Gcks2Service} {v : Visit ρ}
    (h : Gcks2Service.Step L argv s v t) : s.hung = false := by
  cases h <;> assumption

/-- gcks2 comes to its loop with what `obtain_service_key` left in `gcks_key`, an error or
not. -/
theorem key_of_gcks2Start {c : Gcks2Calls} {key : Option Bytes}
    (h : gcks2Start c argv = some key) : key = (c.serviceKey argv).2 := by
  unfold gcks2Start at h
  split at h
  · cases h
  split at h
  · cases h
  split at h
  · cases h
  split at h
  · cases h
  split at h
  · cases h
  split at h
  · cases h
  split at h
  · cases h
  split at h
  · cases h
  · exact (Option.some.inj h).symm

/-- An error leaves `gcks_key` NULL. -/
theorem serviceKey_of_error {c : Gcks2Calls} (h : (c.serviceKey argv).1 ≠ 0) :
    (c.serviceKey argv).2 = none := by
  unfold Gcks2Calls.serviceKey obtainServiceKey at h ⊢
  split
  · rfl
  · split
    · rfl
    · next hn _ key hk =>
      rw [if_neg hn, hk] at h
      exact absurd rfl h

/-- A message that fits `tmpBuf` is received whole. -/
theorem gcks2Recv_of_call {q : GcksReq ρ} (hfit : q.Fits L gcksKey) {text : Bytes} {fds : Nat}
    {ending : CallEnd} (h : q.call L gcksKey = .ok ⟨some text, fds, ending⟩) :
    ∃ bs, (sysRead (bufsiz - 1) (segment text)).1 = .bytes bs ∧
      gcks2Recv (segment text) = .ok text := by
  obtain ⟨m, hm, rfl⟩ := q.message_of_call hfit h
  have hlen := hfit m hm
  have hbuf : m.bytes.length < (List.replicate bufsiz (0 : UInt8)).length := by
    rwa [List.length_replicate]
  have h0 := m.nul_free
  cases htext : m.bytes with
  | nil =>
    exact ⟨[], rfl, recvString_nil _ (by rw [List.length_replicate, bufsiz]; omega)⟩
  | cons b seg =>
    rw [htext] at h0 hlen hbuf
    have hrecv := recvString_segment (n := bufsiz - 1) [] (List.cons_ne_nil b seg) (by omega) hbuf
      h0
    rw [List.append_nil] at hrecv
    exact ⟨_, rfl, hrecv⟩

/-- **The pass that receives the KDC's message** forwards it to its target, or ends for want
of one. -/
theorem gcks2Pass_of_fromKdc (hL : L.Lawful) {v : Visit ρ} {req : Request}
    (hv : v.FromKdc L gcksKey req) (hup : v.Up) (olds : Option Bytes) :
    (∃ olds' m, gcks2Pass L (some gcksKey) olds v = .loops olds' (some m) ∧
      req.target = some m.view) ∨
    (gcks2Pass L (some gcksKey) olds v = .ends ∧ req.target = none) := by
  obtain ⟨q, text, fds, ending, rfl, hfit, hcall, hes⟩ := hv
  obtain ⟨bs, hread, hrecv⟩ := gcks2Recv_of_call hfit hcall
  have hreceived : v.received = some (.ok text) := by
    simp only [Visit.received, hup.accept, hes, Option.map_some, hread, hrecv]
    rfl
  rcases carries_of_call hL hfit hcall { olds } with ⟨vars, hp, hbinds⟩ | ⟨hnone, vars, f, hp⟩
  · rcases forward_of_binds (L := L) hbinds v.net v.r with ⟨m, htarget, -, hf⟩ | ⟨hnone, hf⟩
    · refine .inl ⟨vars.olds, m, ?_, htarget⟩
      have hsent : forward L v.net v.r vars = .ok (.sent m) := by
        rw [hf, hup.socket, hup.resolves, hup.connects]
        rfl
      simp only [gcks2Pass, hup.clock, hreceived, hp, hsent]
      rfl
    · refine .inr ⟨?_, hnone⟩
      simp only [gcks2Pass, hup.clock, hreceived, hp, hf]
      rfl
  · refine .inr ⟨?_, hnone⟩
    simp only [gcks2Pass, hup.clock, hreceived, hp]
    rfl

/-- **What a pass can do**: wait for bytes, end the process, or go through both calls with
what it has received. -/
theorem gcks2Pass_cases (key olds : Option Bytes) (v : Visit ρ) :
    (v.Silent ∧ gcks2Pass L key olds v = .hangs) ∨
    (¬ v.Silent ∧ gcks2Pass L key olds v = .ends) ∨
    ∃ gcksKey text vars out, ¬ v.Silent ∧ key = some gcksKey ∧ v.received = some (.ok text) ∧
      processMikeyMessage L gcksKey text { olds } = (vars, none) ∧
      forward L v.net v.r vars = .ok out ∧
      gcks2Pass L key olds v = match out with
        | .noSocket => .loops vars.olds none
        | .connecting => .hangs
        | .sent m => .loops vars.olds (some m) := by
  cases hclock : v.clock with
  | false =>
    have hsilent : ¬ v.Silent := fun h => by simp [h.clock] at hclock
    exact .inr (.inl ⟨hsilent, by simp [gcks2Pass, hclock]⟩)
  | true =>
    match hrecv : v.received with
    | none =>
      have hsilent : v.Silent := by
        unfold Visit.received at hrecv
        split at hrecv
        · cases hrecv
        · next ha => exact ⟨by simpa using ha, hclock, Option.map_eq_none_iff.mp hrecv⟩
      exact .inl ⟨hsilent, by simp [gcks2Pass, hclock, hrecv]⟩
    | some result =>
      have hsilent : ¬ v.Silent := by
        intro h
        simp [Visit.received, h.accept, h.es] at hrecv
      cases result with
      | error f => exact .inr (.inl ⟨hsilent, by simp [gcks2Pass, hclock, hrecv]⟩)
      | ok text =>
        cases key with
        | none => exact .inr (.inl ⟨hsilent, by simp [gcks2Pass, hclock, hrecv]⟩)
        | some gcksKey =>
          rcases hp : processMikeyMessage L gcksKey text { olds } with ⟨vars, _ | f⟩
          · cases hf : forward L v.net v.r vars with
            | error f => exact .inr (.inl ⟨hsilent, by simp [gcks2Pass, hclock, hrecv, hp, hf]⟩)
            | ok out =>
              refine .inr (.inr ⟨gcksKey, text, vars, out, hsilent, rfl, rfl, hp, hf, ?_⟩)
              simp only [gcks2Pass, hclock, hrecv, hp, hf]
              cases out <;> rfl
          · exact .inr (.inl ⟨hsilent, by simp [gcks2Pass, hclock, hrecv, hp]⟩)

/-- What a pass sends is under the TGK of the message it received. -/
theorem psk_of_gcks2Pass {v : Visit ρ} {olds olds' : Option Bytes} {m : ClientMessage}
    (h : gcks2Pass L (some gcksKey) olds v = .loops olds' (some m)) :
    ∃ text raw, v.received = some (.ok text) ∧ (L.receive gcksKey text).2 = some raw ∧
      m.psk = raw.tgk := by
  rcases gcks2Pass_cases (L := L) (some gcksKey) olds v with ⟨-, hp⟩ | ⟨-, hp⟩ |
    ⟨key, text, vars, out, -, hkey, hrecv, hproc, hf, hp⟩
  all_goals rw [hp] at h
  · cases h
  · cases h
  · cases hkey
    cases out with
    | noSocket => cases h
    | connecting => cases h
    | sent m' =>
      cases h
      obtain ⟨raw, hraw, hsession⟩ := sessionKey_of_process hproc
      have hpsk := (text_of_forward hf).1
      rw [hsession] at hpsk
      exact ⟨text, raw, hrecv, hraw, (Option.some.inj hpsk).symm⟩

/-- gcks2 waits for bytes that do not come. -/
theorem gcks2Pass_of_silent {v : Visit ρ} (h : v.Silent) (key olds : Option Bytes) :
    gcks2Pass L key olds v = .hangs := by
  rcases gcks2Pass_cases (L := L) key olds v with ⟨-, hp⟩ | ⟨hn, -⟩ | ⟨-, -, -, -, hn, -⟩
  · exact hp
  · exact absurd h hn
  · exact absurd h hn

/-- Without a key a pass ends its process, unless it waits. -/
theorem gcks2Pass_keyless (olds : Option Bytes) (v : Visit ρ) :
    gcks2Pass L none olds v = .ends ∨ (gcks2Pass L none olds v = .hangs ∧ v.Silent) := by
  rcases gcks2Pass_cases (L := L) none olds v with ⟨h, hp⟩ | ⟨-, hp⟩ |
    ⟨key, text, vars, out, -, hkey, -⟩
  · exact .inr ⟨hp, h⟩
  · exact .inl hp
  · cases hkey

/-! ## Whole runs -/

variable (L gcksKey) in
/-- What the entry of a visit says. -/
structure Visit.Entry (v : Visit ρ) (e : Option ClientMessage) : Prop where
  forwards : ∀ req, v.FromKdc L gcksKey req → v.Up → e.map ClientMessage.view = req.target
  keyed : ∀ m, e = some m → ∃ text raw, v.received = some (.ok text) ∧
    (L.receive gcksKey text).2 = some raw ∧ m.psk = raw.tgk

/-- **One step** of a service that has its key. -/
theorem Gcks2Service.step_entry (hL : L.Lawful) {s t : Gcks2Service} {v : Visit ρ}
    (hkey : s.gcksKey = some gcksKey) (hv : v.restart.FindsKey argv gcksKey)
    (h : Gcks2Service.Step L argv s v t) :
    t.gcksKey = some gcksKey ∧ ∃ e, t.sent = s.sent ++ [e] ∧ v.Entry L gcksKey e := by
  have hpass := fun req (hreq : v.FromKdc L gcksKey req) hup =>
    gcks2Pass_of_fromKdc hL hreq hup s.olds
  cases h with
  | loops olds sent hs h =>
    rw [hkey] at h
    refine ⟨hkey, sent, rfl, ?_, ?_⟩
    · intro req hreq hup
      rcases hpass req hreq hup with ⟨olds', m, hp, htarget⟩ | ⟨hp, -⟩
      all_goals rw [hp] at h; cases h
      exact htarget.symm
    · rintro m rfl
      exact psk_of_gcks2Pass h
  | restarts key hs h hstart =>
    rw [hkey] at h
    refine ⟨?_, none, rfl, ?_, ?_⟩
    · rw [key_of_gcks2Start hstart]
      exact hv
    · intro req hreq hup
      rcases hpass req hreq hup with ⟨olds', m, hp, -⟩ | ⟨-, htarget⟩
      · rw [hp] at h
        cases h
      · exact htarget.symm
    · rintro m ⟨⟩
  | hangs hs h =>
    rw [hkey] at h
    refine ⟨hkey, none, rfl, ?_, ?_⟩
    · intro req hreq hup
      rcases hpass req hreq hup with ⟨olds', m, hp, -⟩ | ⟨hp, -⟩
      all_goals rw [hp] at h; cases h
    · rintro m ⟨⟩

/-- **Restarts keep the clients apart.**  However gcks2 is ended in between, and whatever
else it is sent: each pass that receives the KDC's message for a request, while its calls
succeed and the client listens, sends the request's target its message, and nothing if there
is none; and what any pass sends is under the key of the message that this pass received. -/
theorem service_forwards (hL : L.Lawful) {c : Gcks2Calls} (hc : c.FindsKey argv gcksKey)
    {key : Option Bytes} (hstart : gcks2Start c argv = some key) {vs : List (Visit ρ)}
    {s : Gcks2Service} (run : Run (Gcks2Service.Step L argv) { gcksKey := key } vs s)
    (hkeys : ∀ v ∈ vs, v.restart.FindsKey argv gcksKey) :
    List.Forall₂ (Visit.Entry L gcksKey) vs s.sent := by
  have hinv : s.gcksKey = some gcksKey ∧ List.Forall₂ (Visit.Entry L gcksKey) vs s.sent := by
    induction run with
    | nil => exact ⟨(key_of_gcks2Start hstart).trans hc, .nil⟩
    | @snoc vs s v t run h ih =>
      obtain ⟨hkey, hsent⟩ := ih fun w hw => hkeys w (List.mem_append_left _ hw)
      obtain ⟨hkey', e, he, hentry⟩ := Gcks2Service.step_entry hL hkey (hkeys v (by simp)) h
      rw [he]
      exact ⟨hkey', List.rel_append hsent (.cons hentry .nil)⟩
  exact hinv.2

/-- **A service without its key** sends nothing.  Whatever arrives, each connection ends the
process, which is started for nothing again, or holds it by staying silent. -/
theorem service_keyless {c : Gcks2Calls} (hc : (c.serviceKey argv).1 ≠ 0) {key : Option Bytes}
    (hstart : gcks2Start c argv = some key) {vs : List (Visit ρ)} {s : Gcks2Service}
    (run : Run (Gcks2Service.Step L argv) { gcksKey := key } vs s)
    (hkeys : ∀ v ∈ vs, (v.restart.serviceKey argv).1 ≠ 0) :
    s.sent = List.replicate vs.length none ∧
    ((s.hung = false ∧ s.restarts = vs.length) ∨
      (s.hung = true ∧ s.restarts + 1 = vs.length ∧ ∃ v, vs.getLast? = some v ∧ v.Silent)) := by
  have hinv : s.sent = List.replicate vs.length none ∧
      ((s.hung = false ∧ s.restarts = vs.length ∧ s.gcksKey = none) ∨
        (s.hung = true ∧ s.restarts + 1 = vs.length ∧
          ∃ v, vs.getLast? = some v ∧ v.Silent)) := by
    induction run with
    | nil =>
      exact ⟨rfl, .inl ⟨rfl, rfl, (key_of_gcks2Start hstart).trans (serviceKey_of_error hc)⟩⟩
    | @snoc vs s v t run h ih =>
      obtain ⟨hsent, hat⟩ := ih fun w hw => hkeys w (List.mem_append_left _ hw)
      have hs := h.not_hung
      obtain ⟨-, hrestarts, hkey⟩ := hat.resolve_right (by rw [hs]; rintro ⟨⟨⟩, -⟩)
      rw [List.length_append, List.length_singleton, List.replicate_succ']
      have hpass := gcks2Pass_keyless (L := L) s.olds v
      cases h with
      | loops olds sent hs h =>
        rw [hkey] at h
        rcases hpass with hp | ⟨hp, -⟩
        all_goals rw [hp] at h; cases h
      | restarts key' hs h hstart' =>
        refine ⟨by rw [hsent], .inl ⟨rfl, by rw [hrestarts], ?_⟩⟩
        exact (key_of_gcks2Start hstart').trans (serviceKey_of_error (hkeys v (by simp)))
      | hangs hs h =>
        rw [hkey] at h
        rcases hpass with hp | ⟨-, hsilent⟩
        · rw [hp] at h
          cases h
        · exact ⟨by rw [hsent], .inr ⟨rfl, by rw [hrestarts], v, by simp, hsilent⟩⟩
  refine ⟨hinv.1, hinv.2.imp ?_ id⟩
  rintro ⟨h, hrestarts, -⟩
  exact ⟨h, hrestarts⟩

/-! ## What stops the service -/

/-- gcks2 waits for bytes, or for a client. -/
theorem silent_of_hangs {v : Visit ρ} {key olds : Option Bytes}
    (h : gcks2Pass L key olds v = .hangs) : v.Silent ∨ v.net.connects = false := by
  rcases gcks2Pass_cases (L := L) key olds v with ⟨hs, -⟩ | ⟨-, hp⟩ |
    ⟨key, text, vars, out, -, -, -, -, hf, hp⟩
  · exact .inl hs
  · rw [hp] at h
    cases h
  · rw [hp] at h
    cases out with
    | noSocket => cases h
    | sent m => cases h
    | connecting =>
      right
      obtain ⟨m, -, hf⟩ := bind_eq_ok_iff.mp hf
      split at hf
      · cases hf
      split at hf
      · cases hf
      split at hf
      · next hc => simpa using hc
      · cases hf

/-- **One step** to `accept`. -/
theorem Gcks2Service.step_available {v : Visit ρ} (hlisten : v.net.connects = true)
    (hstart : (gcks2Start v.restart argv).isSome) (s : Gcks2Service) :
    (∃ t, Gcks2Service.Step L argv s v t ∧ t.hung = false) ↔ s.hung = false ∧ ¬ v.Silent := by
  constructor
  · rintro ⟨t, h, ht⟩
    refine ⟨h.not_hung, fun hsilent => ?_⟩
    have hpass := gcks2Pass_of_silent (L := L) hsilent s.gcksKey s.olds
    cases h with
    | loops olds sent hs h =>
      rw [hpass] at h
      cases h
    | restarts key hs h =>
      rw [hpass] at h
      cases h
    | hangs hs h => cases ht
  · rintro ⟨hs, hsilent⟩
    cases hp : gcks2Pass L s.gcksKey s.olds v with
    | loops olds sent => exact ⟨_, .loops s v olds sent hs hp, hs⟩
    | ends =>
      obtain ⟨key, hkey⟩ := Option.isSome_iff_exists.mp hstart
      exact ⟨_, .restarts s v key hs hp hkey, rfl⟩
    | hangs =>
      rcases silent_of_hangs hp with h | h
      · exact absurd h hsilent
      · rw [hlisten] at h
        cases h

/-- **The service stays available.**  Over any visits, garbage or not, in any order: if the
clients listen that gcks2 turns to, and it can be started again, it comes back to `accept`
after each exactly when none of them stays silent; none costs more than one restart. -/
theorem service_available {vs : List (Visit ρ)} {s : Gcks2Service} (hs : s.hung = false)
    (hlisten : ∀ v ∈ vs, v.net.connects = true)
    (hstart : ∀ v ∈ vs, (gcks2Start v.restart argv).isSome) :
    ((∃ t, Run (Gcks2Service.Step L argv) s vs t ∧ t.hung = false) ↔ ∀ v ∈ vs, ¬ v.Silent) ∧
    ∀ t, Run (Gcks2Service.Step L argv) s vs t → t.restarts ≤ s.restarts + vs.length := by
  constructor
  · induction vs using List.reverseRecOn with
    | nil => exact iff_of_true ⟨s, .nil, hs⟩ (by simp)
    | append_singleton vs v ih =>
      have hvs := ih (fun w hw => hlisten w (List.mem_append_left _ hw))
        fun w hw => hstart w (List.mem_append_left _ hw)
      have hstep := Gcks2Service.step_available (L := L) (hlisten v (by simp)) (hstart v (by simp))
      simp only [List.mem_append, List.mem_singleton, or_imp, forall_and, forall_eq]
      rw [← hvs]
      constructor
      · rintro ⟨u, run, hu⟩
        obtain ⟨t, run, h⟩ := Run.append_singleton_iff.mp run
        obtain ⟨ht, hsilent⟩ := (hstep t).mp ⟨u, h, hu⟩
        exact ⟨⟨t, run, ht⟩, hsilent⟩
      · rintro ⟨⟨t, run, ht⟩, hsilent⟩
        obtain ⟨u, h, hu⟩ := (hstep t).mpr ⟨ht, hsilent⟩
        exact ⟨u, run.snoc h, hu⟩
  · intro t run
    clear hlisten hstart
    induction run with
    | nil => exact Nat.le_refl _
    | snoc run h ih =>
      rw [List.length_append, List.length_singleton]
      cases h
      · exact Nat.le_trans ih (by omega)
      · show _ + 1 ≤ _
        omega
      · exact Nat.le_trans ih (by omega)

end

/-! ## Garbage, then alice -/

/-- A start that finds the key in the keytab, or an error of it. -/
def gcks2Calls (key : Except Int32 Bytes) : Gcks2Calls :=
  ⟨true, 0, 0, true, true, true, 0, fun _ _ => key, true, true⟩

def gcks2Argv : List Bytes := [ascii "ksm2_gcks1", ascii "ksm2_gcks1.keytab"]

/-- A connection that meets these events, with a network that works. -/
def visitWith (key : Except Int32 Bytes) (es : Option (List Event)) : Visit Bytes :=
  ⟨true, true, es, false, ClientNet.up, [5], gcks2Calls key⟩

/-- A connection that is closed without a message. -/
def closedVisit (key : Except Int32 Bytes) : Visit Bytes := visitWith key (some [])

def silentVisit (key : Except Int32 Bytes) : Visit Bytes := visitWith key none

theorem silentVisit_silent (key : Except Int32 Bytes) : (silentVisit key).Silent := ⟨rfl, rfl, rfl⟩

theorem closedVisit_received (key : Except Int32 Bytes) :
    (closedVisit key).received = some (.ok []) := by
  have hrecv : gcks2Recv [] = .ok [] :=
    recvString_nil _ (by rw [List.length_replicate, bufsiz]; omega)
  show some (gcks2Recv []) = _
  rw [hrecv]

theorem gcks2Pass_closed (key : Except Int32 Bytes) (olds : Option Bytes) :
    gcks2Pass plainMikey (some [7, 0, 9]) olds (closedVisit key) = .ends := by
  simp only [gcks2Pass, closedVisit_received]
  rfl

theorem exists_aliceVisit (key : Except Int32 Bytes) :
    ∃ es, (visitWith key (some es)).FromKdc plainMikey [7, 0, 9] aliceRequest ∧
      (visitWith key (some es)).Up := by
  obtain ⟨m, -, hcall⟩ := GcksReq.call_of_up (q := served aliceRequest) rfl aliceRequest_fits
  exact ⟨segment m.bytes, ⟨_, _, _, _, rfl, aliceRequest_fits, hcall, rfl⟩,
    rfl, rfl, rfl, fun _ => rfl, rfl⟩

/-- A connection that is closed without a message ends gcks2; alice's message comes to the
next one. -/
theorem service_forwards_alice :
    ∃ (v : Visit Bytes) (s : Gcks2Service) (m : ClientMessage),
      Run (Gcks2Service.Step plainMikey gcks2Argv) { gcksKey := some [7, 0, 9] }
        [closedVisit (.ok [7, 0, 9]), v] s ∧
      s.sent = [none, some m] ∧ s.restarts = 1 ∧ m.view = aliceRequest.view := by
  obtain ⟨es, hfrom, hup⟩ := exists_aliceVisit (.ok [7, 0, 9])
  have htarget := aliceRequest_wellNamed.target_eq
  rcases gcks2Pass_of_fromKdc plainMikey_lawful hfrom hup none with ⟨olds, cm, hpass, -⟩ | ⟨-, hn⟩
  · have hends : Gcks2Service.Step plainMikey gcks2Argv { gcksKey := some [7, 0, 9] }
        (closedVisit (.ok [7, 0, 9]))
        { gcksKey := some [7, 0, 9], restarts := 1, sent := [none] } :=
      .restarts _ _ _ rfl (gcks2Pass_closed _ _) rfl
    have run := (Run.nil.snoc hends).snoc (.loops _ _ olds (some cm) rfl hpass)
    have hentries := service_forwards plainMikey_lawful (c := gcks2Calls (.ok [7, 0, 9])) rfl
      (show gcks2Start (gcks2Calls (.ok [7, 0, 9])) gcks2Argv = _ from rfl) run (by
        intro v hv
        rcases List.mem_pair.mp hv with rfl | rfl <;> rfl)
    obtain ⟨-, hrest⟩ := List.forall₂_cons.mp hentries
    have hview := (List.forall₂_cons.mp hrest).1.forwards aliceRequest hfrom hup
    rw [htarget] at hview
    exact ⟨_, _, cm, run, rfl, rfl, Option.some.inj hview⟩
  · rw [htarget] at hn
    cases hn

/-- A service that finds no key in its keytab: alice's message ends it, too, and a silent
connection holds the next one. -/
theorem service_keyless_alice :
    ∃ (v : Visit Bytes) (s : Gcks2Service),
      v.FromKdc plainMikey [7, 0, 9] aliceRequest ∧ v.Up ∧
      Run (Gcks2Service.Step plainMikey gcks2Argv) { gcksKey := none } [v, silentVisit (.error 2)]
        s ∧
      s.sent = [none, none] ∧ s.restarts + 1 = 2 := by
  obtain ⟨es, hfrom, hup⟩ := exists_aliceVisit (.error 2)
  have hends : gcks2Pass plainMikey none none (visitWith (.error 2) (some es)) = .ends := by
    rcases gcks2Pass_keyless (L := plainMikey) none (visitWith (.error 2) (some es)) with h | ⟨-, h⟩
    · exact h
    · cases h.es
  have hstep : Gcks2Service.Step plainMikey gcks2Argv { gcksKey := none }
      (visitWith (.error 2) (some es)) { gcksKey := none, restarts := 1, sent := [none] } :=
    .restarts _ _ _ rfl hends rfl
  have run := (Run.nil.snoc hstep).snoc (.hangs _ (silentVisit (.error 2)) rfl
    (gcks2Pass_of_silent (silentVisit_silent _) _ _))
  obtain ⟨hsent, ⟨hhung, -⟩ | ⟨-, hrestarts, -⟩⟩ :=
    service_keyless (c := gcks2Calls (.error 2)) (by decide)
      (show gcks2Start (gcks2Calls (.error 2)) gcks2Argv = _ from rfl) run (by
        intro v hv
        rcases List.mem_pair.mp hv with rfl | rfl
        all_goals
          show ((gcks2Calls (.error 2)).serviceKey gcks2Argv).1 ≠ 0
          decide)
  · cases hhung
  · exact ⟨_, _, hfrom, hup, run, hsent, hrestarts⟩

/-- Three connections that are closed without a message; two of them, and one that stays
silent in between. -/
theorem service_available_nothing :
    let step := Gcks2Service.Step plainMikey gcks2Argv
    let start : Gcks2Service := { gcksKey := some [7, 0, 9] }
    let closed := closedVisit (.ok [7, 0, 9])
    (∃ s, Run step start [closed, closed, closed] s ∧ s.hung = false ∧ s.restarts ≤ 3) ∧
    ¬ ∃ s, Run step start [closed, silentVisit (.ok [7, 0, 9]), closed] s ∧ s.hung = false := by
  intro step start closed
  have havail : ∀ ess : List (Option (List Event)),
      ((∃ t, Run step start (ess.map (visitWith (.ok [7, 0, 9]))) t ∧ t.hung = false) ↔
        ∀ v ∈ ess.map (visitWith (.ok [7, 0, 9])), ¬ v.Silent) ∧
      ∀ t, Run step start (ess.map (visitWith (.ok [7, 0, 9]))) t →
        t.restarts ≤ start.restarts + (ess.map (visitWith (.ok [7, 0, 9]))).length := fun ess =>
    service_available rfl (List.forall_mem_map.mpr fun _ _ => rfl)
      (List.forall_mem_map.mpr fun _ _ => rfl)
  constructor
  · obtain ⟨hiff, hrestarts⟩ := havail [some [], some [], some []]
    obtain ⟨s, run, hs⟩ := hiff.mpr (List.forall_mem_map.mpr fun es hes h => by
      rw [show es = some [] by simpa using hes] at h
      cases h.es)
    exact ⟨s, run, hs, by simpa [start] using hrestarts s run⟩
  · intro h
    exact (havail [some [], none, some []]).1.mp h (silentVisit (.ok [7, 0, 9]))
      (List.mem_map.mpr ⟨none, by simp, rfl⟩) (silentVisit_silent _)

end KerberizedMikey
