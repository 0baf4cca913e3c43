import KerberizedMikey.Gcks1

/-!
# The group name from sclient to gcks1

sclient puts the group into its authenticator as one element of authorization data, of
type `KRB5_AUTHDATA_MULTICAST_GROUP`, and gcks1 gets it back from
`krb5_recvauth_gcks`.  That looks for no type: it takes the contents of element 0,
leaves the length, and needs the list and the element to be there.

    ReceivesGroup   ↔  the exchange ends early, or element 0 stands in for the group's
                       and the caller's length is right already   (receives_group_iff)
    the string gcks1 prints is the name  ↔  element 0 has it     (printed_group_iff)
-/

namespace KerberizedMikey

open CLib

/-- `KRB5_AUTHDATA_MULTICAST_GROUP`. -/
def krb5AuthdataMulticastGroup : Int32 := 72

/-- sclient's `multicast_group_authdata`: NULL when `malloc` returns NULL. -/
def multicastGroupAuthdata (malloc : Bool) (groupName : CString) :
    Except Fault (Option (List AuthData)) :=
  if !malloc then .ok none
  else do
    let length := groupName.bytes.length + 1
    let contents ← store (List.replicate length 0) groupName.bytes
    return some [⟨krb5AuthdataMulticastGroup, length, contents⟩]

/-- The element for a group. -/
def groupElement (groupName : CString) : AuthData :=
  ⟨krb5AuthdataMulticastGroup, groupName.bytes.length + 1, groupName.alloc⟩

/-- The element that names the group: the first of its type. -/
def firstGroup (authorizationData : Option (List AuthData)) : Option AuthData :=
  (authorizationData.getD []).find? fun ad => ad.adType == krb5AuthdataMulticastGroup

/-- The group is the one that the list names; without one it is left alone, or there is
an error. -/
def GroupOf (authorizationData : Option (List AuthData)) (group group' : KrbData)
    (code : Int32) : Prop :=
  match firstGroup authorizationData with
  | some ad => group' = ⟨ad.length, some ad.contents⟩
  | none => group' = group ∨ code ≠ 0

/-- Element 0 does for the element that names the group. -/
def HeadServes (group : KrbData) (ad : AuthData) (rest : List AuthData) (code : Int32) : Prop :=
  match firstGroup (some (ad :: rest)) with
  | some named => ad.contents = named.contents ∧ group.length = named.length
  | none => group.data = some ad.contents ∨ code ≠ 0

section
variable {σ : Type} (K : Krb5Recv σ)

/-- `krb5_recvauth_gcks` returns, with the right group once the client's authenticator
was accepted. -/
def ReceivesGroup (applVersion : Option CString) (flags : UInt32) (group : KrbData)
    (s : σ) : Prop :=
  ∃ code s' group', krb5RecvauthGcks K applVersion flags group s = .ok ((code, s'), some group') ∧
    (LeavesEarly K (recvauthArgs applVersion flags) s → group' = group) ∧
    ∀ v s1, recvauthBody K (recvauthArgs applVersion flags) {} s = (.next, v, s1) →
      GroupOf (K.authorizationData s1) group group' code

theorem multicastGroupAuthdata_eq (groupName : CString) :
    multicastGroupAuthdata true groupName = .ok (some [groupElement groupName]) := by
  have hstore : store (List.replicate (groupName.bytes.length + 1) 0) groupName.bytes =
      .ok groupName.alloc := by
    rw [store_of_le (by rw [List.length_replicate]; omega), List.drop_replicate,
      Nat.add_sub_cancel_left]
    rfl
  simp only [multicastGroupAuthdata, hstore, bind, Except.bind]
  rfl

/-- What the statement leaves serves as the group just when element 0 does. -/
theorem groupOf_iff (group : KrbData) (ad : AuthData) (rest : List AuthData) (code : Int32) :
    GroupOf (some (ad :: rest)) group { group with data := some ad.contents } code ↔
      HeadServes group ad rest code := by
  unfold GroupOf HeadServes
  cases firstGroup (some (ad :: rest)) with
  | none =>
    obtain ⟨length, data⟩ := group
    constructor
    · rintro (h | h)
      · exact .inl (congrArg KrbData.data h).symm
      · exact .inr h
    · rintro (h | h)
      · left
        show KrbData.mk length (some ad.contents) = ⟨length, data⟩
        rw [← show data = some ad.contents from h]
      · exact .inr h
  | some named =>
    constructor
    · intro h
      exact ⟨Option.some.inj (congrArg KrbData.data h), congrArg KrbData.length h⟩
    · rintro ⟨hc, hl⟩
      show KrbData.mk group.length (some ad.contents) = _
      rw [hc, hl]

/-- An exchange that ends early receives no group. -/
theorem receivesGroup_of_early {applVersion : Option CString} {flags : UInt32} {s : σ}
    (h : LeavesEarly K (recvauthArgs applVersion flags) s) (group : KrbData) :
    ReceivesGroup K applVersion flags group s := by
  obtain ⟨code, s', hr⟩ := krb5RecvauthGcks_of_early h group
  refine ⟨code, s', group, hr, fun _ => rfl, fun v s1 hbody => ?_⟩
  exact absurd (by rw [hbody]) h

theorem receivesGroup_of_next {applVersion : Option CString} {flags : UInt32} {s s1 : σ}
    {v : RecvVars} (hbody : recvauthBody K (recvauthArgs applVersion flags) {} s = (.next, v, s1))
    (group : KrbData) :
    ReceivesGroup K applVersion flags group s ↔
      ∃ ad rest, K.authorizationData s1 = some (ad :: rest) ∧
        HeadServes group ad rest (K.cleanup v s1).1 := by
  have hr := krb5RecvauthGcks_of_next hbody group
  have hlate : ¬ LeavesEarly K (recvauthArgs applVersion flags) s := by
    unfold LeavesEarly
    rw [hbody]
    exact fun h => h rfl
  by_cases hads : ∃ ad rest, K.authorizationData s1 = some (ad :: rest)
  · obtain ⟨ad, rest, hads⟩ := hads
    rw [setMulticastGroup_cons hads] at hr
    constructor
    · rintro ⟨code, s', group', hr', -, hgroup⟩
      have heq := Except.ok.inj (hr.symm.trans hr')
      have hcode : (K.cleanup v s1).1 = code := congrArg (·.1.1) heq
      have hgroup' : { group with data := some ad.contents } = group' :=
        Option.some.inj (congrArg (·.2) heq)
      have := hgroup v s1 hbody
      rw [hads, ← hcode, ← hgroup', groupOf_iff] at this
      exact ⟨ad, rest, hads, this⟩
    · rintro ⟨ad', rest', hads', hserves⟩
      rw [hads] at hads'
      cases hads'
      refine ⟨_, _, _, hr, fun h => absurd h hlate, fun v' s1' hbody' => ?_⟩
      rw [hbody] at hbody'
      cases hbody'
      rw [hads, groupOf_iff]
      exact hserves
  · -- no list, or no element in it: NULL is dereferenced
    have hnone : ∀ ad rest, K.authorizationData s1 ≠ some (ad :: rest) :=
      fun ad rest h => hads ⟨ad, rest, h⟩
    rw [setMulticastGroup_of_no_element hnone] at hr
    refine iff_of_false ?_ ?_
    · rintro ⟨code, s', group', hr', -⟩
      rw [hr] at hr'
      cases hr'
    · rintro ⟨ad, rest, h, -⟩
      exact hnone ad rest h

/-- What gcks1 prints of a list that names the group: the string of element 0. -/
theorem printed_group_iff {applVersion : Option CString} {flags : UInt32} {s s1 : σ}
    {v : RecvVars} (hbody : recvauthBody K (recvauthArgs applVersion flags) {} s = (.next, v, s1))
    (group : KrbData) (groupName : CString) (pre post : List AuthData)
    (hads : K.authorizationData s1 = some (pre ++ groupElement groupName :: post)) :
    ∃ code s' group', krb5RecvauthGcks K applVersion flags group s =
        .ok ((code, s'), some group') ∧
      (printGroup (some group') = .ok groupName.bytes ↔
        ∀ ad ∈ pre.head?, cstr ad.contents = .ok groupName.bytes) := by
  have hr := krb5RecvauthGcks_of_next hbody group
  cases pre with
  | nil =>
    rw [setMulticastGroup_cons hads] at hr
    refine ⟨_, _, _, hr, iff_of_true ?_ ?_⟩
    · exact cstr_append_nul groupName.bytes [] groupName.nul_free
    · intro ad had
      cases had
  | cons ad pre =>
    rw [List.cons_append] at hads
    rw [setMulticastGroup_cons hads] at hr
    refine ⟨_, _, _, hr, ?_⟩
    show cstr ad.contents = .ok groupName.bytes ↔ _
    constructor
    · rintro h ad' ⟨⟩
      exact h
    · intro h
      exact h ad rfl

/-- **When gcks1 receives the group the client named.**  Exactly when the exchange ends
before the authenticator is looked at, or element 0 exists and serves; and the string
printed is the name sclient put there exactly when it is that of the first element. -/
theorem receives_group_iff (applVersion : Option CString) (flags : UInt32) (group : KrbData)
    (s : σ) :
    (ReceivesGroup K applVersion flags group s ↔
      LeavesEarly K (recvauthArgs applVersion flags) s ∨
      ∃ v s1 ad rest, recvauthBody K (recvauthArgs applVersion flags) {} s = (.next, v, s1) ∧
        K.authorizationData s1 = some (ad :: rest) ∧
        HeadServes group ad rest (K.cleanup v s1).1) ∧
    ∀ (v : RecvVars) (s1 : σ) (groupName : CString) (pre post : List AuthData),
      recvauthBody K (recvauthArgs applVersion flags) {} s = (.next, v, s1) →
      K.authorizationData s1 = some (pre ++ groupElement groupName :: post) →
      ∃ code s' group', krb5RecvauthGcks K applVersion flags group s =
          .ok ((code, s'), some group') ∧
        (printGroup (some group') = .ok groupName.bytes ↔
          ∀ ad ∈ pre.head?, cstr ad.contents = .ok groupName.bytes) := by
  refine ⟨?_, fun v s1 groupName pre post hbody hads =>
    printed_group_iff K hbody group groupName pre post hads⟩
  by_cases hearly : LeavesEarly K (recvauthArgs applVersion flags) s
  · exact iff_of_true (receivesGroup_of_early K hearly group) (.inl hearly)
  · obtain ⟨v, s1, hbody⟩ : ∃ v s1, recvauthBody K (recvauthArgs applVersion flags) {} s =
        (.next, v, s1) := ⟨_, _, Prod.ext (not_not.mp hearly) rfl⟩
    rw [receivesGroup_of_next K hbody]
    constructor
    · rintro ⟨ad, rest, hads, hserves⟩
      exact .inr ⟨v, s1, ad, rest, hbody, hads, hserves⟩
    · rintro (h | ⟨v', s1', ad, rest, hbody', hads, hserves⟩)
      · exact absurd h hearly
      · rw [hbody] at hbody'
        cases hbody'
        exact ⟨ad, rest, hads, hserves⟩

end

/-- sclient's own list: its name is printed, and the group is right where the length was
right before. -/
theorem group_received :
    let name : CString := ⟨ascii "group1", by decide⟩
    let s : Script := ⟨some [groupElement name], aliceTicket⟩
    ReceivesGroup scriptedRecv.toKrb5Recv (some sampleVersion) 0 ⟨7, none⟩ s ∧
    ∃ code s' group', krb5RecvauthGcks scriptedRecv.toKrb5Recv (some sampleVersion) 0 ⟨7, none⟩ s =
        .ok ((code, s'), some group') ∧ printGroup (some group') = .ok name.bytes := by
  intro name s
  have hbody := scriptedRecv_body s
  obtain ⟨hreceives, hprinted⟩ :=
    receives_group_iff scriptedRecv.toKrb5Recv (some sampleVersion) 0 ⟨7, none⟩ s
  refine ⟨hreceives.mpr (.inr ⟨_, s, groupElement name, [], hbody, rfl, rfl, rfl⟩), ?_⟩
  obtain ⟨code, s', group', hr, hp⟩ := hprinted _ s name [] [] hbody rfl
  refine ⟨code, s', group', hr, hp.mpr ?_⟩
  intro ad had
  cases had

/-- A client without authorization data, a group that is not in front, and a length that
is not set. -/
theorem group_not_received :
    let name : CString := ⟨ascii "group1", by decide⟩
    let other : AuthData := ⟨1, 4, ascii "abc" ++ [0]⟩
    krb5RecvauthGcks scriptedRecv.toKrb5Recv (some sampleVersion) 0 ⟨0, none⟩ ⟨none, aliceTicket⟩ =
      .error .nullDeref ∧
    krb5RecvauthGcks scriptedRecv.toKrb5Recv (some sampleVersion) 0 ⟨0, none⟩
        ⟨some [other, groupElement name], aliceTicket⟩ =
      .ok ((0, ⟨some [other, groupElement name], aliceTicket⟩), some ⟨0, some other.contents⟩) ∧
    ¬ ReceivesGroup scriptedRecv.toKrb5Recv (some sampleVersion) 0 ⟨0, none⟩
      ⟨some [groupElement name], aliceTicket⟩ := by
  intro name other
  refine ⟨krb5RecvauthGcks_of_next (scriptedRecv_body _) ⟨0, none⟩,
    krb5RecvauthGcks_of_next (scriptedRecv_body _) ⟨0, none⟩, ?_⟩
  have hbody := scriptedRecv_body ⟨some [groupElement name], aliceTicket⟩
  rw [receivesGroup_of_next scriptedRecv.toKrb5Recv hbody]
  rintro ⟨ad, rest, hads, hserves⟩
  cases hads
  cases hserves.2

end KerberizedMikey
