import KerberizedMikey.Credentials

/-!
# The options of krb5_sendauth

Without a ready ticket `krb5_sendauth` gets one from `krb5_get_credentials`.  krb5 1.8
passed it the options 0; the patch passes its own `ap_req_options`, for the sake of the
MIKEY bit, and so also bits that mean something else over there:

    AP_OPTS_USE_SUBKEY         = 1 = KRB5_GC_USER_USER
    AP_OPTS_ETYPE_NEGOTIATION  = 2 = KRB5_GC_CACHED

    only the MIKEY bit makes a difference  ↔  ap_req_options &&& 0x77 = 0
                                                            (sendauth_conservative_iff)
-/

namespace KerberizedMikey

/-! ## Options -/

/-- `AP_OPTS_USE_SUBKEY` and `AP_OPTS_ETYPE_NEGOTIATION`. -/
def apOptsUseSubkey : UInt32 := 0x1
def apOptsEtypeNegotiation : UInt32 := 0x2

/-- `KRB5_GC_*`. -/
def gcUserUser : UInt32 := 1
def gcCached : UInt32 := 2
def gcCanonicalize : UInt32 := 4
def gcForwardable : UInt32 := 16
def gcNoTransitCheck : UInt32 := 32
def gcConstrainedDelegation : UInt32 := 64

/-- The options that bear on where the credentials come from and what is asked of the
KDC: all but `KRB5_GC_NO_STORE`. -/
def gcChoice : UInt32 := gcUserUser ||| (gcCached ||| (gcCanonicalize ||| (gcForwardable |||
  (gcNoTransitCheck ||| gcConstrainedDelegation))))

/-- `KDC_OPT_*`. -/
def kdcOptForwardable : UInt32 := 0x40000000
def kdcOptCnameInAddlTkt : UInt32 := 0x00020000
def kdcOptCanonicalize : UInt32 := 0x00010000
def kdcOptDisableTransitedCheck : UInt32 := 0x00000020

/-- Where the ticket of `krb5_sendauth` comes from. -/
inductive CredsChoice
  /-- It is in `in_creds`. -/
  | ready
  | cached (creds : Creds)
  | fails
  /-- `krb5_get_cred_from_kdc_opt` with these options. -/
  | kdc (kdcopt : UInt32)
deriving DecidableEq

/-- `krb5_get_credentials` of krb5 1.8 up to the call of `krb5_get_cred_from_kdc_opt`,
over the state `σ` of cache and requested credentials; `fresh` has no cached ticket and
no second ticket. -/
structure GetCredentials (σ : Type) where
  body : UInt32 → σ → CredsChoice
  fresh : σ

/-- **What its options mean.** -/
structure GetCredentials.Documented {σ : Type} (G : GetCredentials σ) : Prop where
  /-- Other bits are not looked at, `KRB5_GC_NO_STORE` only when the choice is made. -/
  reads : ∀ o o' s, o &&& gcChoice = o' &&& gcChoice → G.body o s = G.body o' s
  /-- `kdcopt` starts as 0. -/
  fresh : G.body 0 G.fresh = .kdc 0
  /-- Two options need a second ticket. -/
  userUser : ∀ o, o &&& gcUserUser ≠ 0 → ∀ kdcopt, G.body o G.fresh ≠ .kdc kdcopt
  constrainedDelegation : ∀ o, o &&& gcConstrainedDelegation ≠ 0 →
    ∀ kdcopt, G.body o G.fresh ≠ .kdc kdcopt
  /-- One keeps to the cache. -/
  cached : ∀ o s, o &&& gcCached ≠ 0 → ∀ kdcopt, G.body o s ≠ .kdc kdcopt
  /-- Three ask something of the KDC. -/
  canonicalize : ∀ o s kdcopt, G.body o s = .kdc kdcopt → o &&& gcCanonicalize ≠ 0 →
    kdcopt &&& kdcOptCanonicalize ≠ 0
  forwardable : ∀ o s kdcopt, G.body o s = .kdc kdcopt → o &&& gcForwardable ≠ 0 →
    kdcopt &&& kdcOptForwardable ≠ 0
  noTransitCheck : ∀ o s kdcopt, G.body o s = .kdc kdcopt → o &&& gcNoTransitCheck ≠ 0 →
    kdcopt &&& kdcOptDisableTransitedCheck ≠ 0

section
variable {σ : Type} (G : GetCredentials σ)

/-- The inserted test: `if (options & KDC_OPT_MIKEY) kdcopt |= KDC_OPT_MIKEY`. -/
def addMikey (options : UInt32) : CredsChoice → CredsChoice
  | .kdc kdcopt => .kdc (if options &&& kdcOptMikey ≠ 0 then kdcopt ||| kdcOptMikey else kdcopt)
  | choice => choice

/-- The patched `krb5_get_credentials`. -/
def krb5GetCredentials (options : UInt32) (s : σ) : CredsChoice :=
  addMikey options (G.body options s)

/-- The credentials of `krb5_sendauth` in krb5 1.8. -/
def krb5SendauthOriginal (ticketLength : Nat) (s : σ) : CredsChoice :=
  if ticketLength = 0 then G.body 0 s else .ready

/-- The same with the patch. -/
def krb5Sendauth (apReqOptions : UInt32) (ticketLength : Nat) (s : σ) : CredsChoice :=
  if ticketLength = 0 then krb5GetCredentials G apReqOptions s else .ready

/-- Without the MIKEY bit nothing changes; with it, the KDC options get that bit. -/
def Conservative (apReqOptions : UInt32) : Prop :=
  ∀ s, (apReqOptions &&& kdcOptMikey = 0 →
      krb5Sendauth G apReqOptions 0 s = krb5SendauthOriginal G 0 s) ∧
    (apReqOptions &&& kdcOptMikey ≠ 0 →
      match krb5SendauthOriginal G 0 s with
      | .kdc kdcopt => krb5Sendauth G apReqOptions 0 s = .kdc (kdcopt ||| kdcOptMikey)
      | choice => krb5Sendauth G apReqOptions 0 s = choice)

end

/-! ## Bits -/

theorem and_or_eq_zero_iff (o a b : UInt32) : o &&& (a ||| b) = 0 ↔ o &&& a = 0 ∧ o &&& b = 0 := by
  have hbits : ∀ x : UInt32, x = 0 ↔ x.toBitVec = 0#32 := fun x => by
    rw [← UInt32.toBitVec_inj]
    rfl
  rw [hbits, hbits, hbits, UInt32.toBitVec_and, UInt32.toBitVec_or, UInt32.toBitVec_and,
    UInt32.toBitVec_and, BitVec.and_or_distrib_left, BitVec.or_eq_zero_iff]

/-- Options without any of those that bear on the choice. -/
theorem gcChoice_clear_iff (o : UInt32) :
    o &&& gcChoice = 0 ↔ o &&& gcUserUser = 0 ∧ o &&& gcCached = 0 ∧ o &&& gcCanonicalize = 0 ∧
      o &&& gcForwardable = 0 ∧ o &&& gcNoTransitCheck = 0 ∧
      o &&& gcConstrainedDelegation = 0 := by
  unfold gcChoice
  rw [and_or_eq_zero_iff, and_or_eq_zero_iff, and_or_eq_zero_iff, and_or_eq_zero_iff,
    and_or_eq_zero_iff]

/-! ## The two versions -/

section
variable {σ : Type} (G : GetCredentials σ)

/-- The patched call is conservative when the inserted test is all that it changes. -/
theorem conservative_iff_addMikey (o : UInt32) :
    Conservative G o ↔ ∀ s, addMikey o (G.body o s) = addMikey o (G.body 0 s) := by
  refine forall_congr' fun s => ?_
  show ((o &&& kdcOptMikey = 0 → addMikey o (G.body o s) = G.body 0 s) ∧
    (o &&& kdcOptMikey ≠ 0 → match G.body 0 s with
      | .kdc kdcopt => addMikey o (G.body o s) = .kdc (kdcopt ||| kdcOptMikey)
      | choice => addMikey o (G.body o s) = choice)) ↔ _
  by_cases hm : o &&& kdcOptMikey = 0
  · have hid : ∀ choice, addMikey o choice = choice := by
      intro choice
      cases choice <;> simp [addMikey, hm]
    rw [hid, hid]
    exact ⟨fun h => h.1 hm, fun h => ⟨fun _ => h, fun hn => absurd hm hn⟩⟩
  · constructor
    · rintro ⟨-, h⟩
      have := h hm
      cases hb : G.body 0 s <;> rw [hb] at this <;> simpa [addMikey, hm] using this
    · intro h
      refine ⟨fun h0 => absurd h0 hm, fun _ => ?_⟩
      rw [h]
      cases G.body 0 s <;> simp [addMikey, hm]

/-- Where the KDC is asked for nothing, the patched version asks for nothing but MIKEY. -/
theorem kdc_of_conservative {G : GetCredentials σ} (hG : G.Documented) {o : UInt32}
    (h : Conservative G o) : ∃ kdcopt, G.body o G.fresh = .kdc kdcopt ∧
      (kdcopt = 0 ∨ kdcopt ||| kdcOptMikey = kdcOptMikey) := by
  have hs := (conservative_iff_addMikey G o).mp h G.fresh
  rw [hG.fresh] at hs
  cases hb : G.body o G.fresh with
  | kdc kdcopt =>
    refine ⟨kdcopt, rfl, ?_⟩
    rw [hb] at hs
    have hk := CredsChoice.kdc.inj hs
    by_cases hm : o &&& kdcOptMikey = 0
    · rw [if_neg (not_not.mpr hm), if_neg (not_not.mpr hm)] at hk
      exact .inl hk
    · rw [if_pos hm, if_pos hm] at hk
      exact .inr hk
  | ready | fails | cached creds =>
    rw [hb] at hs
    cases hs

/-- **When the option plumbing is conservative.**  Exactly for options without any of the
six `KRB5_GC_*` bits that bear on the choice. -/
theorem sendauth_conservative_iff {G : GetCredentials σ} (hG : G.Documented)
    (apReqOptions : UInt32) : Conservative G apReqOptions ↔ apReqOptions &&& 0x77 = 0 := by
  show _ ↔ apReqOptions &&& gcChoice = 0
  constructor
  · intro h
    obtain ⟨kdcopt, hb, hk⟩ := kdc_of_conservative hG h
    -- no other bit is set in `kdcopt`
    have hbit : ∀ bit, bit &&& kdcOptMikey = 0 → kdcopt &&& bit = 0 := by
      intro bit hm
      rw [UInt32.and_comm]
      rcases hk with rfl | hk
      · exact UInt32.and_zero
      · rw [← hk, and_or_eq_zero_iff] at hm
        exact hm.1
    rw [gcChoice_clear_iff]
    refine ⟨?_, ?_, ?_, ?_, ?_, ?_⟩ <;> by_contra hne
    · exact hG.userUser _ hne _ hb
    · exact hG.cached _ _ hne _ hb
    · exact hG.canonicalize _ _ _ hb hne (hbit _ (by decide))
    · exact hG.forwardable _ _ _ hb hne (hbit _ (by decide))
    · exact hG.noTransitCheck _ _ _ hb hne (hbit _ (by decide))
    · exact hG.constrainedDelegation _ hne _ hb
  · intro h
    rw [conservative_iff_addMikey]
    intro s
    rw [hG.reads apReqOptions 0 s (by rw [h]; decide)]

end

/-! ## An instance -/

/-- What the cache holds, also among tickets under a session key, and whether the
requested credentials carry a second ticket. -/
structure LibState where
  cached : (isSkey : Bool) → Option Creds
  secondTicket : Bool

/-- `if (options & opt) kdcopt |= bit`. -/
def addOption (options opt bit kdcopt : UInt32) : UInt32 :=
  if options &&& opt ≠ 0 then kdcopt ||| bit else kdcopt

/-- The KDC options of the cases without constrained delegation. -/
def kdcOptionsOf (options : UInt32) : UInt32 :=
  addOption options gcNoTransitCheck kdcOptDisableTransitedCheck <|
    addOption options gcForwardable kdcOptForwardable <|
      addOption options gcCanonicalize kdcOptCanonicalize 0

/-- A `krb5_get_credentials` that reads its options as documented. -/
def plainGetCredentials : GetCredentials LibState where
  body o s :=
    let userUser := o &&& gcUserUser ≠ 0
    let constrainedDelegation := o &&& gcConstrainedDelegation ≠ 0
    if (userUser ∨ constrainedDelegation) ∧ !s.secondTicket then .fails
    else match (if constrainedDelegation then none else s.cached userUser) with
      | some creds => .cached creds
      | none =>
        if o &&& gcCached ≠ 0 then .fails
        else if constrainedDelegation then
          if userUser then .fails
          else .kdc (kdcOptionsOf o ||| kdcOptForwardable ||| kdcOptCnameInAddlTkt)
        else .kdc (kdcOptionsOf o)
  fresh := ⟨fun _ => none, false⟩

theorem or_and_ne_zero {k bit : UInt32} (h : k &&& bit ≠ 0) (x : UInt32) :
    (k ||| x) &&& bit ≠ 0 := by
  intro h0
  rw [UInt32.and_comm, and_or_eq_zero_iff, UInt32.and_comm] at h0
  exact h h0.1

theorem addOption_and_ne_zero {k b : UInt32} (h : k &&& b ≠ 0) (o opt bit : UInt32) :
    addOption o opt bit k &&& b ≠ 0 := by
  unfold addOption
  by_cases ho : o &&& opt ≠ 0
  · rw [if_pos ho]
    exact or_and_ne_zero h bit
  · rw [if_neg ho]
    exact h

theorem addOption_self {o opt bit : UInt32} (ho : o &&& opt ≠ 0) (hb : bit ≠ 0) (k : UInt32) :
    addOption o opt bit k &&& bit ≠ 0 := by
  rw [addOption, if_pos ho, UInt32.or_comm]
  refine or_and_ne_zero ?_ k
  rw [UInt32.and_self]
  exact hb

/-- When the KDC is asked, and with what. -/
theorem plainGetCredentials_kdc {o kdcopt : UInt32} {s : LibState}
    (h : plainGetCredentials.body o s = .kdc kdcopt) :
    ((o &&& gcUserUser ≠ 0 ∨ o &&& gcConstrainedDelegation ≠ 0) → s.secondTicket = true) ∧
      o &&& gcCached = 0 ∧ ∃ x, kdcopt = kdcOptionsOf o ||| x := by
  simp only [plainGetCredentials] at h
  split at h
  · cases h
  next hsecond =>
    split at h
    · cases h
    · next hmiss =>
      split at h
      · cases h
      next hc =>
        refine ⟨fun hopt => ?_, not_not.mp hc, ?_⟩
        · by_contra hs
          exact hsecond ⟨hopt, by simpa using hs⟩
        · split at h
          · split at h
            · cases h
            · exact ⟨_, by rw [← UInt32.or_assoc]; exact (CredsChoice.kdc.inj h).symm⟩
          · exact ⟨0, by rw [UInt32.or_zero]; exact (CredsChoice.kdc.inj h).symm⟩

theorem plainGetCredentials_documented : plainGetCredentials.Documented where
  reads o o' s h := by
    have hflag : ∀ flag, gcChoice &&& flag = flag → o &&& flag = o' &&& flag := by
      intro flag hf
      rw [← hf, ← UInt32.and_assoc, h, UInt32.and_assoc]
    simp only [plainGetCredentials, kdcOptionsOf, addOption, hflag gcUserUser (by decide),
      hflag gcCached (by decide), hflag gcCanonicalize (by decide), hflag gcForwardable (by decide),
      hflag gcNoTransitCheck (by decide), hflag gcConstrainedDelegation (by decide)]
  fresh := by decide
  userUser o ho kdcopt h := by
    have := (plainGetCredentials_kdc h).1 (.inl ho)
    cases this
  constrainedDelegation o ho kdcopt h := by
    have := (plainGetCredentials_kdc h).1 (.inr ho)
    cases this
  cached o s ho kdcopt h := ho (plainGetCredentials_kdc h).2.1
  canonicalize o s kdcopt h ho := by
    obtain ⟨-, -, x, rfl⟩ := plainGetCredentials_kdc h
    refine or_and_ne_zero (addOption_and_ne_zero (addOption_and_ne_zero ?_ _ _ _) _ _ _) x
    exact addOption_self ho (by decide) 0
  forwardable o s kdcopt h ho := by
    obtain ⟨-, -, x, rfl⟩ := plainGetCredentials_kdc h
    refine or_and_ne_zero (addOption_and_ne_zero ?_ _ _ _) x
    exact addOption_self ho (by decide) _
  noTransitCheck o s kdcopt h ho := by
    obtain ⟨-, -, x, rfl⟩ := plainGetCredentials_kdc h
    exact or_and_ne_zero (addOption_self ho (by decide) _) x

/-- The options of the kmtools are passed on safely. -/
theorem sendauth_conservative_kmtools :
    Conservative plainGetCredentials apOptsMutualRequired ∧
      Conservative plainGetCredentials (apOptsMutualRequired ||| kdcOptMikey) :=
  ⟨(sendauth_conservative_iff plainGetCredentials_documented _).mpr (by decide),
    (sendauth_conservative_iff plainGetCredentials_documented _).mpr (by decide)⟩

/-- `AP_OPTS_USE_SUBKEY` asks for user-to-user credentials: without a second ticket
`krb5_sendauth` fails where krb5 1.8 asked the KDC.  `AP_OPTS_ETYPE_NEGOTIATION` asks
for the cache only. -/
theorem sendauth_subkey_not_conservative :
    krb5SendauthOriginal plainGetCredentials 0 plainGetCredentials.fresh = .kdc 0 ∧
    krb5Sendauth plainGetCredentials apOptsUseSubkey 0 plainGetCredentials.fresh = .fails ∧
    krb5Sendauth plainGetCredentials apOptsEtypeNegotiation 0 plainGetCredentials.fresh = .fails ∧
    ¬ Conservative plainGetCredentials apOptsUseSubkey := by
  refine ⟨by decide, by decide, by decide, fun h => ?_⟩
  have := (h plainGetCredentials.fresh).1 (by decide)
  revert this
  decide

end KerberizedMikey
