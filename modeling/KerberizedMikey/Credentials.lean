import KerberizedMikey.Kdc.TgsReq
import KerberizedMikey.CLib.Runs

/-!
# sclient2's credentials

sclient2 asks `krb5_get_credentials` for a service ticket with `KDC_OPT_MIKEY`, then
waits for the key server's message, which is under the ticket's session key.  The
library looks into the cache first; only without a matching ticket does it ask the KDC,
and only then does the KDC see the option and tell the key server.

    obtain_credentials returned 0 and sclient2 waits →
      creds is the cached ticket and there was no exchange, or
      creds is from the last exchange, made with KDC_OPT_MIKEY           (credentials_source)

Over any sequence of joins the cached tickets stay backed by exchanges: each was there at
the start or is from an exchange with `KDC_OPT_MIKEY` of an earlier join (`joins_backed`),
and so is each PSK (`psk_backed`).
Whether sclient2 gets to wait does not depend on `obtain_credentials` at all
(`sclient2_waits_iff`).
-/

namespace KerberizedMikey

open CLib

/-- A non-zero error code. -/
abbrev Krb5Error := { code : Int32 // code ≠ 0 }

/-- `krb5_creds`, as far as it is used: `server`, `times.endtime` and `keyblock`. -/
structure Creds where
  server : Bytes
  endtime : Int
  keyblock : Bytes
deriving DecidableEq

/-- A TGS exchange. -/
structure Exchange where
  kdcOptions : UInt32
  result : Except Krb5Error Creds

/-- What a call of `krb5_get_credentials` runs in, besides the cached service tickets: the
clock, the KDC options it makes of its own, the exchanges for ticket-granting tickets and
their failure, the KDC's answer for the service, and whether that could be stored. -/
structure Krb5World where
  now : Int
  kdcOptions : UInt32 → UInt32
  tgts : List Exchange
  tgtError : Option Krb5Error
  kdc : UInt32 → Except Krb5Error Creds
  stored : Bool

/-- A matching unexpired service ticket in the cache. -/
def Krb5World.cached (w : Krb5World) (cache : List Creds) (server : Bytes) : Option Creds :=
  cache.find? fun creds => creds.server == server && decide (w.now < creds.endtime)

/-- `krb5_get_cred_from_kdc_opt`. -/
def getCredFromKdcOpt (w : Krb5World) (kdcopt : UInt32) :
    Except Krb5Error Creds × List Exchange :=
  match w.tgtError with
  | some e => (.error e, w.tgts)
  | none => (w.kdc kdcopt, w.tgts ++ [⟨kdcopt, w.kdc kdcopt⟩])

/-- What `obtain_credentials` did, or `krb5_get_credentials` in it: `*out_creds` if it was
set, the exchanges made and the cache left behind. -/
structure Obtained where
  retval : Int32
  outCreds : Option Creds
  exchanges : List Exchange
  cache : List Creds

/-- `krb5_get_credentials`: the cache first.  The patch adds the MIKEY bit to `kdcopt`. -/
def getCredentials (w : Krb5World) (cache : List Creds) (options : UInt32) (server : Bytes) :
    Obtained :=
  match w.cached cache server with
  | some creds => ⟨0, some creds, [], cache⟩
  | none =>
    let kdcopt := w.kdcOptions options
    let kdcopt := if options &&& kdcOptMikey ≠ 0 then kdcopt ||| kdcOptMikey else kdcopt
    match getCredFromKdcOpt w kdcopt with
    | (.error e, exchanges) => ⟨e.val, none, exchanges, cache⟩
    | (.ok creds, exchanges) =>
      -- a failure of krb5_cc_store_cred is ignored
      ⟨0, some creds, exchanges, if w.stored then cache ++ [creds] else cache⟩

/-- The return codes of the other calls of sclient2's `main`. -/
structure Sclient2Calls where
  initContext : Int32
  snameToPrincipal : Int32
  ccResolve : Int32
  ccGetPrincipal : Int32
  /-- `krb5_copy_principal` in `obtain_credentials`, for the server and the client. -/
  copyServer : Int32
  copyClient : Int32
  unparseName : Int32
  socket : Bool
  setsockopt : Bool
  bind : Bool
  listen : Bool

/-- `AP_OPTS_MUTUAL_REQUIRED`. -/
def apOptsMutualRequired : UInt32 := 0x20000000

/-- `obtain_credentials`, with a client principal. -/
def obtainCredentials (c : Sclient2Calls) (w : Krb5World) (cache : List Creds)
    (options : UInt32) (server : Bytes) : Obtained :=
  if c.copyServer ≠ 0 then ⟨c.copyServer, none, [], cache⟩
  else if c.copyClient ≠ 0 then ⟨c.copyClient, none, [], cache⟩
  else getCredentials w cache options server

/-- A run of sclient2 up to `accept`, with what `obtain_credentials` did if it was called. -/
inductive Sclient2Run
  | exits (obtained : Option Obtained)
  | waits (obtained : Obtained)

/-- sclient2's `main` up to `accept`.  The value of `obtain_credentials` is overwritten
by that of `krb5_unparse_name`. -/
def sclient2 (c : Sclient2Calls) (w : Krb5World) (cache : List Creds) (server : Bytes) :
    Sclient2Run :=
  if c.initContext ≠ 0 then .exits none
  else if c.snameToPrincipal ≠ 0 then .exits none
  else if c.ccResolve ≠ 0 then .exits none
  else if c.ccGetPrincipal ≠ 0 then .exits none
  else
    let obtained := obtainCredentials c w cache (apOptsMutualRequired ||| kdcOptMikey) server
    if c.unparseName ≠ 0 then .exits (some obtained)
    else if !c.socket then .exits (some obtained)
    else if !c.setsockopt then .exits (some obtained)
    else if !c.bind then .exits (some obtained)
    else if !c.listen then .exits (some obtained)
    else .waits obtained

namespace Sclient2Run

def obtained : Sclient2Run → Option Obtained
  | .exits o => o
  | .waits o => some o

/-- The exchanges of the run. -/
def exchanges (r : Sclient2Run) : List Exchange :=
  match r.obtained with
  | none => []
  | some o => o.exchanges

/-- The cache after the run. -/
def cacheAfter (r : Sclient2Run) (cache : List Creds) : List Creds :=
  match r.obtained with
  | none => cache
  | some o => o.cache

/-- The PSK for the key server's message: `creds->keyblock`, with `creds` as
`obtain_credentials` left it (`none`: never set). -/
def psk : Sclient2Run → Option Bytes
  | .exits _ => none
  | .waits o => o.outCreds.map (·.keyblock)

/-- A run that waits has made a successful exchange with `KDC_OPT_MIKEY` and has its
credentials from it. -/
def FreshExchange : Sclient2Run → Prop
  | .exits _ => True
  | .waits o => ∃ e ∈ o.exchanges, ∃ c,
      e.kdcOptions &&& kdcOptMikey ≠ 0 ∧ e.result = .ok c ∧ o.outCreds = some c

end Sclient2Run

/-! ## Where the credentials come from -/

theorem or_mikey_and_mikey (x : UInt32) : (x ||| kdcOptMikey) &&& kdcOptMikey ≠ 0 := by
  have h : (x ||| kdcOptMikey) &&& kdcOptMikey = kdcOptMikey := by
    refine UInt32.eq_of_toBitVec_eq (BitVec.eq_of_getElem_eq fun i hi => ?_)
    rw [UInt32.toBitVec_and, UInt32.toBitVec_or, BitVec.getElem_and, BitVec.getElem_or]
    cases kdcOptMikey.toBitVec[i] <;> simp
  rw [h]
  decide

/-- `krb5_get_credentials` with the MIKEY option: the cached ticket, a failure, or a
successful exchange with `KDC_OPT_MIKEY`, after which the ticket may be in the cache. -/
theorem getCredentials_spec (w : Krb5World) (cache : List Creds) {options : UInt32}
    (server : Bytes) (ho : options &&& kdcOptMikey ≠ 0) {o : Obtained}
    (h : getCredentials w cache options server = o) :
    (∃ c, w.cached cache server = some c ∧ o = ⟨0, some c, [], cache⟩) ∨
    (w.cached cache server = none ∧ o.retval ≠ 0 ∧ o.outCreds = none ∧ o.cache = cache) ∨
    (w.cached cache server = none ∧ ∃ (e : Exchange) (c : Creds),
      e.kdcOptions &&& kdcOptMikey ≠ 0 ∧ e.result = .ok c ∧
      o.retval = 0 ∧ o.outCreds = some c ∧ o.exchanges = w.tgts ++ [e] ∧
      (o.cache = cache ∨ o.cache = cache ++ [c])) := by
  subst h
  unfold getCredentials
  cases w.cached cache server with
  | some c => exact .inl ⟨c, rfl, rfl⟩
  | none =>
    right
    unfold getCredFromKdcOpt
    simp only [if_pos ho]
    cases w.tgtError with
    | some e => exact .inl ⟨trivial, e.property, rfl, rfl⟩
    | none =>
      cases hk : w.kdc (w.kdcOptions options ||| kdcOptMikey) with
      | error e => exact .inl ⟨trivial, e.property, rfl, rfl⟩
      | ok c =>
        refine .inr ⟨trivial, ⟨w.kdcOptions options ||| kdcOptMikey, .ok c⟩, c,
          or_mikey_and_mikey _, rfl, rfl, rfl, rfl, ?_⟩
        cases w.stored with
        | false => exact .inl rfl
        | true => exact .inr rfl

/-- `obtain_credentials` adds failures, with the cache unchanged. -/
theorem obtainCredentials_spec (c : Sclient2Calls) (w : Krb5World) (cache : List Creds)
    (options : UInt32) (server : Bytes) :
    ((obtainCredentials c w cache options server).retval ≠ 0 ∧
      (obtainCredentials c w cache options server).outCreds = none ∧
      (obtainCredentials c w cache options server).cache = cache) ∨
    obtainCredentials c w cache options server = getCredentials w cache options server := by
  unfold obtainCredentials
  split
  · next h => exact .inl ⟨h, rfl, rfl⟩
  split
  · next h => exact .inl ⟨h, rfl, rfl⟩
  · exact .inr rfl

/-- A check that exits on failure is passed by a run that waits. -/
theorem ite_exits_eq_waits {p : Prop} [Decidable p] {x : Option Obtained} {run : Sclient2Run}
    {o : Obtained} :
    (if p then .exits x else run) = Sclient2Run.waits o ↔ ¬ p ∧ run = .waits o := by
  by_cases hp : p
  · rw [if_pos hp]
    constructor
    · intro h
      cases h
    · intro h
      exact absurd hp h.1
  · rw [if_neg hp]
    constructor
    · intro h
      exact ⟨hp, h⟩
    · intro h
      exact h.2

theorem ite_exits_obtained {p : Prop} [Decidable p] {x : Option Obtained} {run : Sclient2Run}
    {o : Obtained} (h : (if p then .exits x else run : Sclient2Run).obtained = some o) :
    x = some o ∨ run.obtained = some o := by
  by_cases hp : p
  · rw [if_pos hp] at h
    exact .inl h
  · rw [if_neg hp] at h
    exact .inr h

/-- **Whether sclient2 waits** is decided by the calls around `obtain_credentials`. -/
theorem sclient2_waits_iff (c : Sclient2Calls) (w : Krb5World) (cache : List Creds)
    (server : Bytes) (o : Obtained) :
    sclient2 c w cache server = .waits o ↔
      (c.initContext = 0 ∧ c.snameToPrincipal = 0 ∧ c.ccResolve = 0 ∧ c.ccGetPrincipal = 0 ∧
        c.unparseName = 0 ∧ c.socket = true ∧ c.setsockopt = true ∧ c.bind = true ∧
        c.listen = true) ∧
      o = obtainCredentials c w cache (apOptsMutualRequired ||| kdcOptMikey) server := by
  simp only [sclient2, ite_exits_eq_waits, not_not, Bool.not_eq_true', Bool.not_eq_false,
    Sclient2Run.waits.injEq, and_assoc]
  rw [eq_comm (a := o)]

/-- What a run leaves behind is what `obtain_credentials` does, if it is called. -/
theorem sclient2_obtained {c : Sclient2Calls} {w : Krb5World} {cache : List Creds}
    {server : Bytes} {run : Sclient2Run} (h : run = sclient2 c w cache server) {o : Obtained}
    (ho : run.obtained = some o) :
    o = obtainCredentials c w cache (apOptsMutualRequired ||| kdcOptMikey) server := by
  subst h
  unfold sclient2 at ho
  iterate 4
    rcases ite_exits_obtained ho with ho | ho
    · cases ho
  iterate 5
    rcases ite_exits_obtained ho with ho | ho
    · exact (Option.some.inj ho).symm
  exact (Option.some.inj ho).symm

theorem options_and_mikey : (apOptsMutualRequired ||| kdcOptMikey) &&& kdcOptMikey ≠ 0 := by
  decide

/-- **What sclient2's comment says**, where `obtain_credentials` succeeded: "attempt to
retrieve credentials from the cache; if it's not found, it'll use the TGT in the cache to
retrieve a new ticket". -/
theorem credentials_source (c : Sclient2Calls) (w : Krb5World) (cache : List Creds)
    (server : Bytes) (o : Obtained) (h : sclient2 c w cache server = .waits o)
    (hr : o.retval = 0) :
    ∃ creds, o.outCreds = some creds ∧
      (sclient2 c w cache server).psk = some creds.keyblock ∧
      ((w.cached cache server = some creds ∧ o.exchanges = []) ∨
        (w.cached cache server = none ∧ ∃ e, o.exchanges = w.tgts ++ [e] ∧
          e.kdcOptions &&& kdcOptMikey ≠ 0 ∧ e.result = .ok creds)) := by
  rw [h]
  obtain ⟨-, ho⟩ := (sclient2_waits_iff c w cache server o).mp h
  rcases obtainCredentials_spec c w cache (apOptsMutualRequired ||| kdcOptMikey) server with
    ⟨hne, -⟩ | hget
  · exact absurd (ho ▸ hr) hne
  rcases getCredentials_spec w cache server options_and_mikey (hget.symm.trans ho.symm) with
    ⟨creds, hc, rfl⟩ | ⟨-, hne, -⟩ | ⟨hc, e, creds, he, hres, -, hout, hexch, -⟩
  · exact ⟨creds, rfl, rfl, .inl ⟨hc, rfl⟩⟩
  · exact absurd hr hne
  · refine ⟨creds, hout, ?_, .inr ⟨hc, e, hexch, he, hres⟩⟩
    show o.outCreds.map (·.keyblock) = _
    rw [hout]
    rfl

/-- Every call succeeds. -/
def allSucceed : Sclient2Calls := ⟨0, 0, 0, 0, 0, 0, 0, true, true, true, true⟩

/-- The ticket for group1, good until 36000. -/
def group1Ticket : Creds := ⟨ascii "group1", 36000, ascii "session key"⟩

/-- A world in which the KDC gives out that ticket. -/
def group1World : Krb5World :=
  ⟨1000, fun _ => 0x40000000, [], none, fun _ => .ok group1Ticket, true⟩

/-- The first join: one exchange, and the ticket is in the cache afterwards. -/
theorem credentials_source_first :
    sclient2 allSucceed group1World [] (ascii "group1") = .waits ⟨0, some group1Ticket,
      [⟨0x40400000, .ok group1Ticket⟩], [group1Ticket]⟩ ∧
    ∃ creds, some group1Ticket = some creds ∧
      (sclient2 allSucceed group1World [] (ascii "group1")).psk = some creds.keyblock ∧
      ((group1World.cached [] (ascii "group1") = some creds ∧
          [⟨0x40400000, .ok group1Ticket⟩] = ([] : List Exchange)) ∨
        (group1World.cached [] (ascii "group1") = none ∧
          ∃ e, [⟨0x40400000, .ok group1Ticket⟩] = group1World.tgts ++ [e] ∧
            e.kdcOptions &&& kdcOptMikey ≠ 0 ∧ e.result = .ok creds)) :=
  ⟨rfl, credentials_source allSucceed group1World [] (ascii "group1")
    ⟨0, some group1Ticket, [⟨0x40400000, .ok group1Ticket⟩], [group1Ticket]⟩ rfl rfl⟩

/-- The second join with the ticket still cached: sclient2 waits, and nobody asked the
KDC. -/
theorem second_join_not_fresh :
    sclient2 allSucceed group1World [group1Ticket] (ascii "group1") =
      .waits ⟨0, some group1Ticket, [], [group1Ticket]⟩ ∧
    ¬ (sclient2 allSucceed group1World [group1Ticket] (ascii "group1")).FreshExchange := by
  refine ⟨by rfl, ?_⟩
  rintro ⟨e, he, -⟩
  cases he

/-! ## Sequences of joins -/

/-- A join with its outcome. -/
structure Join where
  calls : Sclient2Calls
  world : Krb5World
  server : Bytes
  run : Sclient2Run

/-- One after the other on the same cache. -/
def join (cache : List Creds) (j : Join) (cache' : List Creds) : Prop :=
  j.run = sclient2 j.calls j.world cache j.server ∧ cache' = j.run.cacheAfter cache

/-- There at the start, or from an exchange with `KDC_OPT_MIKEY` of one of the joins. -/
def Backed (cache₀ : List Creds) (js : List Join) (creds : Creds) : Prop :=
  creds ∈ cache₀ ∨
    ∃ j ∈ js, ∃ e ∈ j.run.exchanges, e.kdcOptions &&& kdcOptMikey ≠ 0 ∧ e.result = .ok creds

theorem Backed.snoc {cache₀ : List Creds} {js : List Join} {creds : Creds}
    (h : Backed cache₀ js creds) (j : Join) : Backed cache₀ (js ++ [j]) creds := by
  rcases h with h | ⟨i, hi, h⟩
  · exact .inl h
  · exact .inr ⟨i, List.mem_append_left _ hi, h⟩

/-- What `obtain_credentials` returns or leaves in the cache was cached before or is from
an exchange with `KDC_OPT_MIKEY`. -/
theorem obtainCredentials_backed {c : Sclient2Calls} {w : Krb5World} {cache : List Creds}
    {server : Bytes} {o : Obtained}
    (ho : o = obtainCredentials c w cache (apOptsMutualRequired ||| kdcOptMikey) server)
    {creds : Creds} (h : creds ∈ o.cache ∨ o.outCreds = some creds) :
    creds ∈ cache ∨
      ∃ e ∈ o.exchanges, e.kdcOptions &&& kdcOptMikey ≠ 0 ∧ e.result = .ok creds := by
  rcases obtainCredentials_spec c w cache (apOptsMutualRequired ||| kdcOptMikey) server with
    ⟨-, hnone, hcache⟩ | hget
  · rw [ho, hnone, hcache] at h
    rcases h with h | h
    · exact .inl h
    · cases h
  rcases getCredentials_spec w cache server options_and_mikey (hget.symm.trans ho.symm) with
    ⟨c, hc, rfl⟩ | ⟨-, -, hout, hcache⟩ | ⟨-, e, c, he, hres, -, hout, hexch, hcache⟩
  · rcases h with h | h
    · exact .inl h
    · cases h
      exact .inl (List.mem_of_find?_eq_some hc)
  · rw [hout, hcache] at h
    rcases h with h | h
    · exact .inl h
    · cases h
  · by_cases hold : creds ∈ cache
    · exact .inl hold
    -- only the new ticket is left
    have hnew : creds = c := by
      rcases h with h | h
      · rcases hcache with hcache | hcache
        · exact absurd (hcache ▸ h) hold
        · rw [hcache] at h
          exact (List.mem_append.mp h).elim (absurd · hold) List.mem_singleton.mp
      · exact Option.some.inj (h.symm.trans hout)
    refine .inr ⟨e, ?_, he, hnew ▸ hres⟩
    rw [hexch]
    exact List.mem_append_right _ (List.mem_singleton_self e)

/-- One join preserves it. -/
theorem backed_step {cache₀ cache cache' : List Creds} {js : List Join} {j : Join}
    (ih : ∀ creds ∈ cache, Backed cache₀ js creds) (h : join cache j cache')
    {o : Obtained} (ho : j.run.obtained = some o) {creds : Creds}
    (hc : creds ∈ o.cache ∨ o.outCreds = some creds) : Backed cache₀ (js ++ [j]) creds := by
  have hobt : o = obtainCredentials j.calls j.world cache
      (apOptsMutualRequired ||| kdcOptMikey) j.server := sclient2_obtained h.1 ho
  rcases obtainCredentials_backed hobt hc with hold | ⟨e, he, hres⟩
  · exact (ih creds hold).snoc j
  · refine .inr ⟨j, by simp, e, ?_, hres⟩
    unfold Sclient2Run.exchanges
    rw [ho]
    exact he

/-- **Every cached ticket is backed** after any sequence of joins. -/
theorem joins_backed {cache₀ cache : List Creds} {js : List Join}
    (run : Run join cache₀ js cache) : ∀ creds ∈ cache, Backed cache₀ js creds := by
  refine run.trace_invariant (I := fun js cache => ∀ creds ∈ cache, Backed cache₀ js creds)
    (fun creds h => .inl h) ?_
  intro js cache j cache' ih h creds hc
  rw [h.2] at hc
  unfold Sclient2Run.cacheAfter at hc
  cases ho : j.run.obtained with
  | none =>
    rw [ho] at hc
    exact (ih creds hc).snoc j
  | some o =>
    rw [ho] at hc
    exact backed_step ih h ho (.inl hc)

/-- **Every PSK is backed**: where sclient2 waits with credentials, in any sequence of
joins, they were cached before the first or a MIKEY exchange of one of them gave them. -/
theorem psk_backed {cache₀ cache cache' : List Creds} {js : List Join} {j : Join}
    (run : Run join cache₀ js cache) (h : join cache j cache') {k : Bytes}
    (hk : j.run.psk = some k) : ∃ creds, creds.keyblock = k ∧ Backed cache₀ (js ++ [j]) creds := by
  cases hr : j.run with
  | exits o =>
    rw [hr] at hk
    cases hk
  | waits o =>
    rw [hr] at hk
    obtain ⟨creds, hc, rfl⟩ := Option.map_eq_some_iff.mp hk
    exact ⟨creds, rfl, backed_step (joins_backed run) h (by rw [hr]; rfl) (.inr hc)⟩

end KerberizedMikey
