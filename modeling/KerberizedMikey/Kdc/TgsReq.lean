import KerberizedMikey.Kdc.GcksReq

/-!
# process_tgs_req around the MIKEY block

From `krb5_encrypt_tkt_part` to the assembly of the reply: the inserted block runs
between the call and the check of its result, and every one of its calls stores its
result in the same `errcode`.

    encrypt ≠ 0 → no do_gcks_req, ends with TKT_ENCRYPT and that code;
    the reply is assembled → encrypt and every step taken returned 0       (NeverMasked)

holds exactly when the request is no MIKEY request, or the ticket was encrypted and
the block does not go on past a failed `krb5_unparse_name`        (neverMasked_iff)
-/

namespace KerberizedMikey

open CLib

/-- `KDC_OPT_MIKEY`. -/
def kdcOptMikey : UInt32 := 0x00400000

/-- `isflagset`. -/
def isflagset (flags flag : UInt32) : Bool := flags &&& flag ≠ 0

/-- `status` at a `goto cleanup`. -/
inductive TgsStatus
  | lookingUpGcksPrincipalSname
  | lookingUpGcksPrincipal
  | lookingUpGcks
  | findingGcksKey
  | findingMasterKey
  | decryptGcksKey
  | tktEncrypt
deriving DecidableEq

/-- The error codes the calls return, those not made included. -/
structure TgsCalls where
  encryptTktPart : Int32
  snameToPrincipal : Int32
  unparseName : Int32
  /-- `krb5_unparse_name` comes back when a failed `krb5_sname_to_principal` has left its
  argument unset. -/
  unparseUnset : Bool
  dbGetPrincipalExt : Int32
  dbeFindEnctype : Int32
  dbeFindMkey : Int32
  dbFetchMkeyList : Int32
  /-- `krb5_dbe_find_mkey` on the refreshed list. -/
  dbeFindMkeyAgain : Int32
  dbekdDecryptKeyData : Int32
  gcksReq : Except Fault GcksCall

inductive TgsEnding
  | cleanup (status : TgsStatus) (errcode : Int32)
  /-- "Start assembling the response". -/
  | assemble
  /-- `krb5_unparse_name` or `do_gcks_req` does not come back. -/
  | dies
deriving DecidableEq

/-- What happened: the codes of the MIKEY steps taken, whether `do_gcks_req` was
called, how it ended. -/
structure TgsRun where
  steps : List Int32
  calledGcksReq : Bool
  ending : TgsEnding
deriving DecidableEq

/-- `errcode` after the search for the master key, with one retry on a refreshed list. -/
def TgsCalls.findMkey (c : TgsCalls) : Int32 :=
  if c.dbeFindMkey = 0 then 0
  else if c.dbFetchMkeyList = 0 then c.dbeFindMkeyAgain
  else c.dbeFindMkey

/-- `do_gcks_req` comes back to its caller. -/
def gcksReqReturns : Except Fault GcksCall → Bool
  | .ok ⟨_, _, .exits⟩ => false
  | .ok _ => true
  | .error _ => false

/-- From the check of `errcode` after the block on. -/
def checkTktEncrypt (steps : List Int32) (calledGcksReq : Bool) (errcode : Int32) : TgsRun :=
  if errcode ≠ 0 then ⟨steps, calledGcksReq, .cleanup .tktEncrypt errcode⟩
  else ⟨steps, calledGcksReq, .assemble⟩

/-- The block, from `krb5_sname_to_principal` to `do_gcks_req`. -/
def mikeyBlock (c : TgsCalls) : TgsRun :=
  -- krb5_unparse_name stands before the check of errcode, and its own value is dropped
  let steps := [c.snameToPrincipal, c.unparseName]
  let errcode := c.snameToPrincipal
  if errcode ≠ 0 ∧ !c.unparseUnset then ⟨steps, false, .dies⟩
  else if errcode ≠ 0 then ⟨steps, false, .cleanup .lookingUpGcksPrincipalSname errcode⟩
  else if errcode ≠ 0 then ⟨steps, false, .cleanup .lookingUpGcksPrincipal errcode⟩
  else
    let errcode := c.dbGetPrincipalExt
    let steps := steps ++ [errcode]
    if errcode ≠ 0 then ⟨steps, false, .cleanup .lookingUpGcks errcode⟩
    else
      let errcode := c.dbeFindEnctype
      let steps := steps ++ [errcode]
      if errcode ≠ 0 then ⟨steps, false, .cleanup .findingGcksKey errcode⟩
      else
        let errcode := c.findMkey
        let steps := steps ++ [errcode]
        if errcode ≠ 0 then ⟨steps, false, .cleanup .findingMasterKey errcode⟩
        else
          let errcode := c.dbekdDecryptKeyData
          let steps := steps ++ [errcode]
          if errcode ≠ 0 then ⟨steps, false, .cleanup .decryptGcksKey errcode⟩
          else if !gcksReqReturns c.gcksReq then ⟨steps, true, .dies⟩
          else checkTktEncrypt steps true errcode

/-- `process_tgs_req` from `krb5_encrypt_tkt_part` to "Start assembling the response". -/
def processTgsReq (kdcOptions : UInt32) (c : TgsCalls) : TgsRun :=
  if isflagset kdcOptions kdcOptMikey then mikeyBlock c
  else checkTktEncrypt [] false c.encryptTktPart

/-- A failed ticket encryption is reported as such, before any key leaves the KDC, and
a reply means that nothing has failed. -/
def TgsCalls.NeverMasked (c : TgsCalls) (run : TgsRun) : Prop :=
  (c.encryptTktPart ≠ 0 →
    run.calledGcksReq = false ∧ run.ending = .cleanup .tktEncrypt c.encryptTktPart) ∧
  (run.ending = .assemble → c.encryptTktPart = 0 ∧ ∀ e ∈ run.steps, e = 0)

/-- Every step whose result the block checks returned 0. -/
def TgsCalls.CheckedStepsPass (c : TgsCalls) : Prop :=
  c.snameToPrincipal = 0 ∧ c.dbGetPrincipalExt = 0 ∧ c.dbeFindEnctype = 0 ∧ c.findMkey = 0 ∧
    c.dbekdDecryptKeyData = 0

/-- `krb5_unparse_name` has a principal to print, or comes back without one. -/
def TgsCalls.UnparseReturns (c : TgsCalls) : Prop :=
  c.snameToPrincipal = 0 ∨ c.unparseUnset = true

/-! ## The block -/

/-- **What the block does.**  It fails at the first checked step that fails, with that
step's code, which is no ticket's, unless that is the first and `krb5_unparse_name` does
not come back; else it calls `do_gcks_req`. -/
theorem mikeyBlock_spec (c : TgsCalls) :
    (c.UnparseReturns ∧ ¬ c.CheckedStepsPass ∧ (mikeyBlock c).calledGcksReq = false ∧
      ∃ status errcode, status ≠ .tktEncrypt ∧ errcode ≠ 0 ∧
        (mikeyBlock c).ending = .cleanup status errcode) ∨
    (¬ c.UnparseReturns ∧ ¬ c.CheckedStepsPass ∧ (mikeyBlock c).calledGcksReq = false ∧
      (mikeyBlock c).ending = .dies) ∨
    (c.UnparseReturns ∧ c.CheckedStepsPass ∧ mikeyBlock c =
      ⟨[0, c.unparseName, 0, 0, 0, 0], true,
        if gcksReqReturns c.gcksReq then .assemble else .dies⟩) := by
  unfold TgsCalls.CheckedStepsPass TgsCalls.UnparseReturns mikeyBlock
  by_cases h1 : c.snameToPrincipal = 0
  case neg =>
    cases hu : c.unparseUnset with
    | false => exact .inr (.inl ⟨by simp [h1], by simp [h1], by simp [h1], by simp [h1]⟩)
    | true =>
      refine .inl ⟨.inr rfl, by simp [h1], by simp [h1], .lookingUpGcksPrincipalSname,
        c.snameToPrincipal, by decide, h1, ?_⟩
      simp [h1]
  by_cases h2 : c.dbGetPrincipalExt = 0
  case neg =>
    refine .inl ⟨.inl h1, by simp [h2], by simp [h1, h2], .lookingUpGcks, c.dbGetPrincipalExt,
      by decide, h2, ?_⟩
    simp [h1, h2]
  by_cases h3 : c.dbeFindEnctype = 0
  case neg =>
    refine .inl ⟨.inl h1, by simp [h3], by simp [h1, h2, h3], .findingGcksKey, c.dbeFindEnctype,
      by decide, h3, ?_⟩
    simp [h1, h2, h3]
  by_cases h4 : c.findMkey = 0
  case neg =>
    refine .inl ⟨.inl h1, by simp [h4], by simp [h1, h2, h3, h4], .findingMasterKey, c.findMkey,
      by decide, h4, ?_⟩
    simp [h1, h2, h3, h4]
  by_cases h5 : c.dbekdDecryptKeyData = 0
  case neg =>
    refine .inl ⟨.inl h1, by simp [h5], by simp [h1, h2, h3, h4, h5], .decryptGcksKey,
      c.dbekdDecryptKeyData, by decide, h5, ?_⟩
    simp [h1, h2, h3, h4, h5]
  refine .inr (.inr ⟨.inl h1, ⟨h1, h2, h3, h4, h5⟩, ?_⟩)
  cases hr : gcksReqReturns c.gcksReq <;>
    simp [h1, h2, h3, h4, h5, checkTktEncrypt]

/-- Without the MIKEY option the patched flow is the original one. -/
theorem processTgsReq_of_clear (kdcOptions : UInt32) (c : TgsCalls)
    (h : isflagset kdcOptions kdcOptMikey = false) :
    processTgsReq kdcOptions c = checkTktEncrypt [] false c.encryptTktPart := by
  rw [processTgsReq, h]
  rfl

/-- **When a ticket-encryption failure is not masked.** -/
theorem neverMasked_iff (kdcOptions : UInt32) (c : TgsCalls) :
    c.NeverMasked (processTgsReq kdcOptions c) ↔
      isflagset kdcOptions kdcOptMikey = false ∨
      (c.encryptTktPart = 0 ∧
        (c.CheckedStepsPass → c.unparseName = 0 ∨ gcksReqReturns c.gcksReq = false)) := by
  cases hm : isflagset kdcOptions kdcOptMikey with
  | false =>
    rw [processTgsReq_of_clear kdcOptions c hm]
    by_cases he : c.encryptTktPart = 0 <;>
      simp [TgsCalls.NeverMasked, checkTktEncrypt, he]
  | true =>
    rw [processTgsReq, if_pos hm]
    rcases mikeyBlock_spec c with ⟨-, hf, hcall, status, errcode, hs, -, hend⟩ |
      ⟨-, hf, -, hend⟩ | ⟨-, hp, hrun⟩
    · -- the block leaves with a status of its own
      simp [TgsCalls.NeverMasked, hend, hs, hf]
    · simp [TgsCalls.NeverMasked, hend, hf]
    · rw [hrun]
      cases hr : gcksReqReturns c.gcksReq <;> simp [TgsCalls.NeverMasked, hp]

/-- A MIKEY request whose ticket could not be encrypted: the error is overwritten, the
key server is told and a reply is assembled. -/
theorem tkt_encrypt_masked :
    let c : TgsCalls := ⟨-1765328234, 0, 0, true, 0, 0, 0, 0, 0, 0, .ok ⟨none, 0, .fallsOff⟩⟩
    processTgsReq kdcOptMikey c = ⟨[0, 0, 0, 0, 0, 0], true, .assemble⟩ ∧
      ¬ c.NeverMasked (processTgsReq kdcOptMikey c) := by
  intro c
  have h : processTgsReq kdcOptMikey c = ⟨[0, 0, 0, 0, 0, 0], true, .assemble⟩ := by decide
  refine ⟨h, fun hn => ?_⟩
  have := (hn.1 (by decide)).1
  rw [h] at this
  cases this

end KerberizedMikey
