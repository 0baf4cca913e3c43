import KerberizedMikey.Payload.Parse
import KerberizedMikey.CLib.Stream

/-!
# The dummy CS ID map, written and read

`MikeyCsIdMapDummy::writeData` stores one policy number at the front of each 13 bytes
(`writeData_eq`).  The constructor that reads the map stores nothing, so `length()` is 0
and the assert of the payload loop stops the parser (`parseNext_written`):

    cs = []  ↔  the loop takes the HDR payload and goes on behind it  (dummy_map_round_trip_iff)
-/

namespace KerberizedMikey

open CLib

/-! ## The writer -/

inductive WriteError
  /-- `MikeyExceptionMessageLengthException`. -/
  | messageLength (text : String)
  | fault (f : Fault)
deriving DecidableEq

/-- `for( i = cs.begin(); i != cs.end(); i++ ){ start[ 13*j ] = (*i)->policyNo & 0xFF; j++; }`. -/
def writeEntries : List UInt8 → (j : Nat) → (start : Bytes) → Except Fault Bytes
  | [], _, start => .ok start
  | policyNo :: cs, j, start => do
    let start ← storeByte start (13 * j) (policyNo &&& 0xFF)
    writeEntries cs (j + 1) start

/-- `MikeyCsIdMapDummy::writeData`: what `start` holds after it. -/
def CsIdMapDummy.writeData (m : CsIdMapDummy) (start : Bytes) (expectedLength : Int) :
    Except WriteError Bytes :=
  if expectedLength < m.length then .error (.messageLength "CsDummyId is too long")
  else
    match writeEntries m.cs 0 start with
    | .ok start => .ok start
    | .error f => .error (.fault f)

/-- Entry `i` goes to byte `13 * (j + i)`, and no other byte changes. -/
theorem writeEntries_eq (cs : List UInt8) (j : Nat) (start : Bytes)
    (h : 13 * (j + cs.length) ≤ start.length) :
    ∃ out, writeEntries cs j start = .ok out ∧ out.length = start.length ∧
      ∀ k, out[k]? =
        if k % 13 = 0 ∧ j ≤ k / 13 ∧ k / 13 < j + cs.length then cs[k / 13 - j]?
        else start[k]? := by
  induction cs generalizing j start with
  | nil =>
    refine ⟨start, rfl, rfl, ?_⟩
    intro k
    rw [if_neg (by simp only [List.length_nil]; omega)]
  | cons policyNo cs ih =>
    rw [List.length_cons] at h
    have hj : 13 * j < start.length := by omega
    have hand : policyNo &&& 0xFF = policyNo := UInt8.and_neg_one
    obtain ⟨out, ho, hlen, hget⟩ := ih (j + 1) (start.set (13 * j) policyNo)
      (by rw [List.length_set]; omega)
    refine ⟨out, ?_, by rw [hlen, List.length_set], ?_⟩
    · rw [writeEntries, storeByte_of_lt hj, hand]
      exact ho
    · intro k
      rw [hget k]
      by_cases hk : k = 13 * j
      · subst hk
        have hdiv : 13 * j / 13 = j := Nat.mul_div_cancel_left j (by decide)
        rw [hdiv, if_neg (by omega), if_pos (by rw [List.length_cons]; omega), Nat.sub_self,
          List.getElem?_set_self hj]
        rfl
      · rw [List.getElem?_set_ne (Ne.symm hk)]
        by_cases hc : k % 13 = 0 ∧ j + 1 ≤ k / 13 ∧ k / 13 < j + 1 + cs.length
        · have hsub : k / 13 - j = (k / 13 - (j + 1)) + 1 := by omega
          rw [if_pos hc, if_pos (by rw [List.length_cons]; omega), hsub, List.getElem?_cons_succ]
        · rw [if_neg hc, if_neg (by rw [List.length_cons]; omega)]

/-- **The writer keeps the entries**, each at the front of its 13 bytes. -/
theorem CsIdMapDummy.writeData_eq (m : CsIdMapDummy) (start : Bytes) (expectedLength : Int)
    (hs : m.length ≤ start.length) (he : m.length ≤ expectedLength) :
    ∃ out, m.writeData start expectedLength = .ok out ∧ out.length = start.length ∧
      ∀ j, j < m.cs.length → out[13 * j]? = m.cs[j]? := by
  have hroom : 13 * (0 + m.cs.length) ≤ start.length := by
    rw [Nat.zero_add]
    exact hs
  obtain ⟨out, ho, hlen, hget⟩ := writeEntries_eq m.cs 0 start hroom
  refine ⟨out, ?_, hlen, ?_⟩
  · rw [writeData, if_neg (by omega), ho]
  · intro j hj
    have hdiv : 13 * j / 13 = j := Nat.mul_div_cancel_left j (by decide)
    rw [hget, if_pos (by omega), hdiv, Nat.sub_zero]

/-! ## The payload -/

/-- The HDR payload of libmikey around the map: ten bytes in front of it, which the
constructor reads back, and a `length()` that counts them. -/
structure HdrCode (M : PayloadCode) where
  writeHeader : (nextPayloadType nCsValue : UInt8) → Bytes
  length_writeHeader : ∀ next nCs, (writeHeader next nCs).length = 10
  header_writeHeader : ∀ next nCs more,
    M.header (writeHeader next nCs ++ more) (writeHeader next nCs ++ more).length =
      .dummy next nCs
  hdrLength_eq : ∀ n, M.hdrLength n = 10 + n
  hdr_ne_last : M.hdr ≠ M.lastPayload.toNat

/-- The loop takes an HDR payload with the entries `cs` at `msgpos` and goes on behind
its map. -/
def TakesDummyMap (M : PayloadCode) (message : Bytes) (msgpos : Nat) (cs : List UInt8)
    (nCs next : UInt8) : Prop :=
  ∃ p s', parseNext M message ⟨M.hdr, msgpos, (message.length : Int) - msgpos⟩ = .ok (p, s') ∧
    p.payload = .hdr ⟨cs⟩ nCs ∧
    p.endPtr - msgpos = 10 + 13 * nCs.toNat ∧ M.length p.payload = 10 + 13 * nCs.toNat ∧
    s' = ⟨next.toNat, msgpos + (10 + 13 * nCs.toNat),
      (message.length : Int) - (msgpos + (10 + 13 * nCs.toNat) : Nat)⟩

section
variable {M : PayloadCode} (H : HdrCode M) (pre body rest : Bytes) (next nCs : UInt8)

/-- One turn over a written HDR payload: the decoded map is empty. -/
theorem parseNext_written :
    parseNext M (pre ++ (H.writeHeader next nCs ++ (body ++ rest)))
        ⟨M.hdr, pre.length,
          ((pre ++ (H.writeHeader next nCs ++ (body ++ rest))).length : Int) - pre.length⟩ =
      if nCs.toNat ≠ 0 then .error .aborts
      else .ok (⟨.hdr ⟨[]⟩ nCs, next, pre.length + 10⟩,
        ⟨next.toNat, pre.length + 10,
          ((pre ++ (H.writeHeader next nCs ++ (body ++ rest))).length : Int) -
            (pre.length + 10 : Nat)⟩) := by
  generalize hm : pre ++ (H.writeHeader next nCs ++ (body ++ rest)) = message
  have hdrop : message.drop pre.length = H.writeHeader next nCs ++ (body ++ rest) := by
    rw [← hm, List.drop_left' rfl]
  have hhdr := H.length_writeHeader next nCs
  have hlen : message.length = pre.length + (H.writeHeader next nCs ++ (body ++ rest)).length := by
    rw [← hm, List.length_append]
  have hge : 10 ≤ (H.writeHeader next nCs ++ (body ++ rest)).length := by
    rw [List.length_append]
    omega
  let s : ParseState := ⟨M.hdr, pre.length, (message.length : Int) - pre.length⟩
  have ha : s.Aligned message := by
    refine ⟨rfl, ?_⟩
    show (0 : Int) ≤ (message.length : Int) - pre.length
    omega
  have hne : message.drop s.msgpos ≠ [] := by
    intro h
    rw [show message.drop s.msgpos = _ from hdrop] at h
    rw [h] at hge
    cases hge
  have hpay := parsePayload_hdr ha rfl
    (show M.header (message.drop s.msgpos) (message.drop s.msgpos).length = .dummy next nCs by
      rw [show message.drop s.msgpos = _ from hdrop]
      exact H.header_writeHeader next nCs (body ++ rest))
  have hturn := parseNext_of_parsePayload (M := M) ⟨hne, H.hdr_ne_last⟩ hpay
  have hl : M.length (.hdr ⟨[]⟩ nCs) = 10 := H.hdrLength_eq 0
  rw [hl] at hturn
  refine hturn.trans ?_
  by_cases h0 : nCs.toNat = 0
  · rw [if_neg (by omega), if_neg (by omega)]
    simp only [h0, ParseState.after, s]
    congr 3
    omega
  · rw [if_pos (by omega), if_pos (by omega)]

/-- **The dummy map, exactly.**  Every map is written in place; the loop gives it back,
and finds the next payload, only when it has no entries. -/
theorem dummy_map_round_trip_iff (cs : List UInt8) (buf : Bytes) (hcs : cs.length ≤ 255)
    (hbuf : buf.length = 13 * cs.length) :
    ∃ body, (CsIdMapDummy.mk cs).writeData buf (13 * cs.length : Nat) = .ok body ∧
      (∀ j, j < cs.length → body[13 * j]? = cs[j]?) ∧
      (TakesDummyMap M (pre ++ (H.writeHeader next cs.length.toUInt8 ++ (body ++ rest))) pre.length
        cs cs.length.toUInt8 next ↔ cs = []) := by
  obtain ⟨body, hb, -, hget⟩ := CsIdMapDummy.writeData_eq ⟨cs⟩ buf (13 * cs.length : Nat)
    (Nat.le_of_eq hbuf.symm) (Int.le_refl _)
  refine ⟨body, hb, hget, ?_⟩
  have hsize : cs.length < 256 := by omega
  have hn : cs.length.toUInt8.toNat = cs.length := UInt8.toNat_ofNat_of_lt' hsize
  have hturn := parseNext_written H pre body rest next cs.length.toUInt8
  constructor
  · rintro ⟨p, s', h, -⟩
    rw [hturn] at h
    by_contra hne
    rw [if_pos (by rw [hn]; exact fun h => hne (List.length_eq_zero_iff.mp h))] at h
    cases h
  · rintro rfl
    refine ⟨_, _, hturn.trans (if_neg (by simp)), rfl, ?_, ?_, rfl⟩
    · show pre.length + 10 - pre.length = 10 + 13 * 0
      omega
    · exact H.hdrLength_eq 0

end

/-- The ten bytes of `plainPayloadCode`. -/
def plainHdrCode : HdrCode plainPayloadCode where
  writeHeader next nCs := [0, 0, next, 0, 0, 0, 0, 0, nCs, hdrCsIdMapTypeDummyId]
  length_writeHeader _ _ := rfl
  header_writeHeader next nCs more := by
    have hlen : ¬(([0, 0, next, 0, 0, 0, 0, 0, nCs, hdrCsIdMapTypeDummyId] ++ more).length : Int) <
        10 := by
      simp only [List.length_append, List.length_cons, List.length_nil]
      omega
    unfold plainPayloadCode
    dsimp only
    rw [if_neg hlen]
    rfl
  hdrLength_eq _ := rfl
  hdr_ne_last := by decide

/-- An empty map at the front of a message that goes on with an empty extension. -/
theorem dummy_map_empty :
    ∃ body, (CsIdMapDummy.mk []).writeData [] 0 = .ok body ∧
      TakesDummyMap plainPayloadCode
        (plainHdrCode.writeHeader 21 0 ++ (body ++ [0, 2, 0, 0])) 0 [] 0 21 := by
  obtain ⟨body, hb, -, hiff⟩ := dummy_map_round_trip_iff plainHdrCode [] [0, 2, 0, 0] 21 [] []
    (by decide) rfl
  exact ⟨body, hb, hiff.mpr rfl⟩

/-- One entry with policy 5: it is written, and the assert stops its reader. -/
theorem dummy_map_lost :
    let body : Bytes := 5 :: List.replicate 12 0
    (CsIdMapDummy.mk [5]).writeData (List.replicate 13 0) 13 = .ok body ∧
    parseNext plainPayloadCode (plainHdrCode.writeHeader 21 1 ++ (body ++ [0, 2, 0, 0]))
      ⟨plainPayloadCode.hdr, 0, 27⟩ = .error .aborts ∧
    ¬TakesDummyMap plainPayloadCode (plainHdrCode.writeHeader 21 1 ++ (body ++ [0, 2, 0, 0])) 0
      [5] 1 21 := by
  intro body
  have hturn := parseNext_written plainHdrCode [] body [0, 2, 0, 0] 21 1
  refine ⟨by decide, hturn, ?_⟩
  rintro ⟨p, s', h, -⟩
  have := hturn.symm.trans h
  cases this

end KerberizedMikey
