import KerberizedMikey.Payload.GeneralExtensions
import KerberizedMikey.CLib.Runs

/-!
# The payload loop of `MikeyMessage::parse`

The loop asks `parsePayload` for the payload at `msgpos`, checks that its length
is the distance to its end, takes that off `limit` and goes on there.  Modelled
with the two decoders the patch changes: the General Extension constructor and the
dummy branch of the HDR constructor.

    parse (pre ++ writeChain es ++ rest) = the payloads of es, done     (parse_writeChain)

What one turn does depends on the size the payload declares (`PayloadCode.declared`).
-/

namespace KerberizedMikey

open CLib

/-! ## The decoders -/

/-- `MikeyPayloadGeneralExtensions(start, lengthLimit)` with `start = message + msgpos`
and a `lengthLimit` of at least 4.  Gives the next payload's type, the payload and
`endPtr`. -/
def GeneralExtensions.decodeAt (message : Bytes) (msgpos : Nat) (lengthLimit : Int) :
    Except Fault (UInt8 × GeneralExtensions × Nat) :=
  match message.drop msgpos with
  | next :: type :: hi :: lo :: body =>
    let leng := ofBe hi lo
    (fill type leng (next :: type :: hi :: lo :: body) 4 (lengthLimit - 4).toNat).map fun p =>
      (next, p, msgpos + (leng.toNat + 4))
  | _ => .error .overRead

/-- The constructor's `std::cout << this->data`. -/
def GeneralExtensions.print (p : GeneralExtensions) : Except Fault Bytes := cstr p.data

/-- `MikeyCsIdMapDummy`: the policy numbers of its crypto sessions. -/
structure CsIdMapDummy where
  cs : List UInt8
deriving DecidableEq

/-- `MikeyCsIdMapDummy(data, length)`: "Do nothing for dummy!". -/
def CsIdMapDummy.decode (_data : Bytes) (_length : Nat) : CsIdMapDummy := ⟨[]⟩

def CsIdMapDummy.length (m : CsIdMapDummy) : Nat := 13 * m.cs.length

/-- What the HDR constructor finds before its branches on the CS ID map's type: an
error it throws, the dummy type, or another map. -/
inductive HdrHeader
  | throws
  | dummy (nextPayloadType nCsValue : UInt8)
  | other

/-- The code of libmikey's parser that `minisip.patch` does not show: payload type
numbers, the front of the HDR constructor, and `MikeyPayloadHDR::length()` as a function
of the map's length. -/
structure PayloadCode where
  lastPayload : UInt8
  generalExtensions : UInt8
  hdr : Int
  last_ne : lastPayload ≠ generalExtensions
  hdr_ne : hdr ≠ generalExtensions.toNat
  header : (start : Bytes) → (lengthLimit : Int) → HdrHeader
  hdrLength : (csIdMapLength : Nat) → Nat

inductive Payload
  | hdr (csIdMap : CsIdMapDummy) (nCsValue : UInt8)
  | generalExtensions (p : GeneralExtensions)

/-- A `MikeyPayload` made from bytes; `endPtr` counts from the start of the message. -/
structure Parsed where
  payload : Payload
  nextPayloadType : UInt8
  endPtr : Nat

/-- `length()`. -/
def PayloadCode.length (M : PayloadCode) : Payload → Nat
  | .hdr csIdMap _ => M.hdrLength csIdMap.length
  | .generalExtensions p => p.leng.toNat + 4

/-- How the loop ends.  `outside` is a payload of neither decoder, or a General
Extension constructor called with less than 4 bytes. -/
inductive ParseEnd
  | done
  | throws
  | aborts
  | fault (f : Fault)
  | outside

/-! ## The loop -/

section
variable (M : PayloadCode) (message : Bytes)

def parsePayload (nextPayloadType : Int) (msgpos : Nat) (limit : Int) :
    Except ParseEnd Parsed :=
  if nextPayloadType = M.hdr then
    match M.header (message.drop msgpos) limit with
    | .throws => .error .throws
    | .other => .error .outside
    | .dummy next nCs =>
      let map := CsIdMapDummy.decode (message.drop (msgpos + 10)) (13 * nCs.toNat)
      .ok ⟨.hdr map nCs, next, msgpos + (10 + 13 * nCs.toNat)⟩
  else if nextPayloadType = M.generalExtensions.toNat then
    if limit < 4 then .error .outside
    else
      match GeneralExtensions.decodeAt message msgpos limit with
      | .ok (next, p, endPtr) => .ok ⟨.generalExtensions p, next, endPtr⟩
      | .error f => .error (.fault f)
  else .error .outside

/-- The loop's variables. -/
structure ParseState where
  nextPayloadType : Int
  msgpos : Nat
  limit : Int
deriving DecidableEq

/-- One turn: the payload pushed and the variables after it, or why there is none. -/
def parseNext (s : ParseState) : Except ParseEnd (Parsed × ParseState) :=
  if message.length ≤ s.msgpos ∨ s.nextPayloadType = M.lastPayload.toNat then .error .done
  else
    match parsePayload M message s.nextPayloadType s.msgpos s.limit with
    | .error e => .error e
    | .ok p =>
      -- assert((payload->end() - msgpos) == payload->length())
      if (p.endPtr : Int) - s.msgpos ≠ M.length p.payload then .error .aborts
      else .ok (p, ⟨p.nextPayloadType.toNat, p.endPtr, s.limit - (p.endPtr - s.msgpos)⟩)

/-- The loop, with the payloads pushed so far; `none` is out of fuel. -/
def parseLoop : Nat → List Parsed → ParseState → Option (List Parsed × ParseState × ParseEnd)
  | 0, _, _ => none
  | fuel + 1, payloads, s =>
    match parseNext M message s with
    | .error e => some (payloads, s, e)
    | .ok (p, s') => parseLoop fuel (payloads ++ [p]) s'

/-- The variables at the first payload, of the given type. -/
def parseStart (nextPayloadType : Int) (msgpos : Nat) : ParseState :=
  ⟨nextPayloadType, msgpos, message.length - msgpos⟩

def parse (nextPayloadType : Int) (msgpos : Nat) :
    Option (List Parsed × ParseState × ParseEnd) :=
  parseLoop M message (message.length + 1) [] (parseStart message nextPayloadType msgpos)

/-- One turn as a step that pushes the payload `p`. -/
def ParseStep (s : ParseState) (p : Parsed) (s' : ParseState) : Prop :=
  parseNext M message s = .ok (p, s')

/-! ## One turn -/

variable {M message}

/-- `limit` is what is left of the message. -/
def ParseState.Aligned (message : Bytes) (s : ParseState) : Prop :=
  s.limit = (message.length : Int) - s.msgpos ∧ 0 ≤ s.limit

/-- What the payload at the front of `start` declares: the type of the next one and its
own size.  `none` where the loop ends or neither decoder is asked. -/
def PayloadCode.declared (M : PayloadCode) (nextPayloadType : Int) (start : Bytes) :
    Option (UInt8 × Nat) :=
  if start = [] ∨ nextPayloadType = M.lastPayload.toNat then none
  else if nextPayloadType = M.hdr then
    match M.header start start.length with
    | .dummy next nCs => some (next, 10 + 13 * nCs.toNat)
    | _ => none
  else if nextPayloadType = M.generalExtensions.toNat then
    match start with
    | next :: _ :: hi :: lo :: _ => some (next, (ofBe hi lo).toNat + 4)
    | _ => none
  else none

/-- The assert of the loop fails: a decoded dummy map is empty, whatever was declared. -/
def PayloadCode.Asserts (M : PayloadCode) (nextPayloadType : Int) (size : Nat) : Prop :=
  nextPayloadType = M.hdr ∧ M.hdrLength 0 ≠ size

theorem decodeAt_of_fits {msgpos : Nat} {next type hi lo : UInt8} {body : Bytes} {limit : Int}
    (hd : message.drop msgpos = next :: type :: hi :: lo :: body)
    (hl : limit = body.length + 4) (hf : (ofBe hi lo).toNat ≤ body.length) :
    ∃ p, GeneralExtensions.decodeAt message msgpos limit =
        .ok (next, p, msgpos + ((ofBe hi lo).toNat + 4)) ∧
      p.type = type ∧ p.leng = ofBe hi lo ∧ p.content = body.take (ofBe hi lo).toNat ∧
      p.data = body.take (ofBe hi lo).toNat ++ calloc (body.length - (ofBe hi lo).toNat) := by
  have hsize : (limit - 4).toNat = body.length := by omega
  obtain ⟨p, hp, ht, hleng, hdata⟩ := GeneralExtensions.fill_data type (ofBe hi lo)
    (next :: type :: hi :: lo :: body) 4 body.length (by simp only [List.length_cons]; omega) hf
  refine ⟨p, ?_, ht, hleng, ?_, hdata⟩
  · unfold GeneralExtensions.decodeAt
    rw [hd]
    dsimp only
    rw [hsize, hp]
    rfl
  · rw [GeneralExtensions.content, hleng, hdata, List.take_left']
    · rfl
    · show (body.take _).length = _
      rw [List.length_take]
      omega

theorem GeneralExtensions.leng_of_fill {type : UInt8} {leng : UInt16} {src : Bytes}
    {off size : Nat} {p : GeneralExtensions}
    (h : GeneralExtensions.fill type leng src off size = .ok p) : p.leng = leng := by
  unfold GeneralExtensions.fill at h
  split at h
  · cases h
    rfl
  · cases h

/-- With all the rest of the message for its limit this is `decode`. -/
theorem decodeAt_eq_decode (message : Bytes) (msgpos : Nat) :
    GeneralExtensions.decodeAt message msgpos (message.drop msgpos).length =
      (GeneralExtensions.decode (message.drop msgpos)).map fun out =>
        (out.1, out.2.1, msgpos + (out.2.1.leng.toNat + 4)) := by
  unfold GeneralExtensions.decodeAt GeneralExtensions.decode
  match message.drop msgpos with
  | [] | [_] | [_, _] | [_, _, _] => rfl
  | next :: type :: hi :: lo :: body =>
    have hsize : (((next :: type :: hi :: lo :: body).length : Int) - 4).toNat =
        (next :: type :: hi :: lo :: body).length - 4 := by omega
    dsimp only
    rw [hsize]
    cases hf : GeneralExtensions.fill type (ofBe hi lo) (next :: type :: hi :: lo :: body) 4
      ((next :: type :: hi :: lo :: body).length - 4) with
    | error f => rfl
    | ok p =>
      show Except.ok (next, p, msgpos + ((ofBe hi lo).toNat + 4)) =
        Except.ok (next, p, msgpos + (p.leng.toNat + 4))
      rw [GeneralExtensions.leng_of_fill hf]

theorem decodeAt_of_oversize {msgpos : Nat} {next type hi lo : UInt8} {body : Bytes} {limit : Int}
    (hd : message.drop msgpos = next :: type :: hi :: lo :: body)
    (hl : limit = body.length + 4) (hf : body.length < (ofBe hi lo).toNat) :
    ∃ f, GeneralExtensions.decodeAt message msgpos limit = .error f := by
  have hlimit : limit = (message.drop msgpos).length := by
    rw [hd, hl]
    rfl
  rw [hlimit, decodeAt_eq_decode]
  cases h : GeneralExtensions.decode (message.drop msgpos) with
  | error f => exact ⟨f, rfl⟩
  | ok out =>
    obtain ⟨_, _, _, _, _, hstart, hfit⟩ := (GeneralExtensions.decode_ok_iff _).mp ⟨out, h⟩
    rw [hd] at hstart
    cases hstart
    omega

variable {s : ParseState}

theorem ParseState.Aligned.length_drop (ha : s.Aligned message) :
    s.limit = (message.drop s.msgpos).length := by
  obtain ⟨hl, h0⟩ := ha
  rw [List.length_drop]
  omega

theorem ends_iff (s : ParseState) :
    (message.length ≤ s.msgpos ∨ s.nextPayloadType = M.lastPayload.toNat) ↔
      (message.drop s.msgpos = [] ∨ s.nextPayloadType = M.lastPayload.toNat) := by
  rw [List.drop_eq_nil_iff]

/-! One turn meets one of four things: nothing declared, a declaration the assert
contradicts, one that fits, one that does not. -/

theorem parseNext_of_none (ha : s.Aligned message)
    (h : M.declared s.nextPayloadType (message.drop s.msgpos) = none) :
    parseNext M message s = .error .done ∨ parseNext M message s = .error .throws ∨
      parseNext M message s = .error .outside := by
  unfold parseNext
  by_cases he : message.drop s.msgpos = [] ∨ s.nextPayloadType = M.lastPayload.toNat
  · rw [if_pos ((ends_iff s).mpr he)]
    exact .inl rfl
  rw [if_neg (mt (ends_iff s).mp he)]
  right
  unfold PayloadCode.declared at h
  rw [if_neg he] at h
  unfold parsePayload
  by_cases hh : s.nextPayloadType = M.hdr
  · rw [if_pos hh] at h ⊢
    rw [ha.length_drop]
    cases hm : M.header (message.drop s.msgpos) (message.drop s.msgpos).length with
    | throws => exact .inl rfl
    | other => exact .inr rfl
    | dummy next nCs => rw [hm] at h; cases h
  rw [if_neg hh] at h ⊢
  right
  by_cases hg : s.nextPayloadType = M.generalExtensions.toNat
  · rw [if_pos hg] at h ⊢
    have hshort : s.limit < 4 := by
      rw [ha.length_drop]
      revert h
      match message.drop s.msgpos with
      | [] | [_] | [_, _] | [_, _, _] =>
        intro _
        simp only [List.length_cons, List.length_nil]
        omega
      | _ :: _ :: _ :: _ :: _ => intro h; cases h
    rw [if_pos hshort]
  · rw [if_neg hg]

/-- What a declaration in front of the loop comes from. -/
theorem declared_cases {t : Int} {start : Bytes} {next : UInt8} {size : Nat}
    (h : M.declared t start = some (next, size)) :
    (start ≠ [] ∧ t ≠ M.lastPayload.toNat) ∧
      ((t = M.hdr ∧ ∃ nCs, M.header start start.length = .dummy next nCs ∧
          size = 10 + 13 * nCs.toNat) ∨
        (t = M.generalExtensions.toNat ∧ ∃ type hi lo body,
          start = next :: type :: hi :: lo :: body ∧ size = (ofBe hi lo).toNat + 4)) := by
  unfold PayloadCode.declared at h
  by_cases he : start = [] ∨ t = M.lastPayload.toNat
  · rw [if_pos he] at h
    cases h
  rw [if_neg he] at h
  rw [not_or] at he
  refine ⟨he, ?_⟩
  by_cases hh : t = M.hdr
  · rw [if_pos hh] at h
    left
    cases hm : M.header start start.length with
    | throws => rw [hm] at h; cases h
    | other => rw [hm] at h; cases h
    | dummy n nCs =>
      rw [hm] at h
      cases h
      exact ⟨hh, nCs, rfl, rfl⟩
  rw [if_neg hh] at h
  by_cases hg : t = M.generalExtensions.toNat
  · rw [if_pos hg] at h
    right
    refine ⟨hg, ?_⟩
    match start, h with
    | n :: type :: hi :: lo :: body, h =>
      cases h
      exact ⟨type, hi, lo, body, rfl, rfl⟩
  · rw [if_neg hg] at h
    cases h

/-- The loop's variables after a payload of this size. -/
def ParseState.after (s : ParseState) (next : UInt8) (size : Nat) : ParseState :=
  ⟨next.toNat, s.msgpos + size, s.limit - size⟩

/-- What `parseNext` does with the payload `parsePayload` returns. -/
theorem parseNext_of_parsePayload {pl : Payload} {next : UInt8} {size : Nat}
    (he : message.drop s.msgpos ≠ [] ∧ s.nextPayloadType ≠ M.lastPayload.toNat)
    (hp : parsePayload M message s.nextPayloadType s.msgpos s.limit =
      .ok ⟨pl, next, s.msgpos + size⟩) :
    parseNext M message s =
      if M.length pl ≠ size then .error .aborts
      else .ok (⟨pl, next, s.msgpos + size⟩, s.after next size) := by
  have hend : ((s.msgpos + size : Nat) : Int) - s.msgpos = size := by omega
  unfold parseNext
  rw [if_neg (mt (ends_iff s).mp (not_or.mpr he)), hp]
  dsimp only
  rw [hend]
  by_cases hl : M.length pl = size
  · rw [if_neg (not_not.mpr (by omega)), if_neg (not_not.mpr hl)]
    rfl
  · rw [if_pos (by omega), if_pos hl]

theorem parsePayload_hdr {next nCs : UInt8} (ha : s.Aligned message)
    (ht : s.nextPayloadType = M.hdr)
    (hm : M.header (message.drop s.msgpos) (message.drop s.msgpos).length = .dummy next nCs) :
    parsePayload M message s.nextPayloadType s.msgpos s.limit =
      .ok ⟨.hdr ⟨[]⟩ nCs, next, s.msgpos + (10 + 13 * nCs.toNat)⟩ := by
  unfold parsePayload
  rw [if_pos ht, ha.length_drop, hm]
  rfl

theorem parsePayload_generalExtensions (message : Bytes)
    (ht : s.nextPayloadType = M.generalExtensions.toNat) (hl : 4 ≤ s.limit) :
    parsePayload M message s.nextPayloadType s.msgpos s.limit =
      match GeneralExtensions.decodeAt message s.msgpos s.limit with
      | .ok (next, p, endPtr) => .ok ⟨.generalExtensions p, next, endPtr⟩
      | .error f => .error (.fault f) := by
  unfold parsePayload
  rw [if_neg (by rw [ht]; exact M.hdr_ne.symm), if_pos ht, if_neg (by omega)]

variable {next : UInt8} {size : Nat}

theorem parseNext_of_asserts (ha : s.Aligned message)
    (h : M.declared s.nextPayloadType (message.drop s.msgpos) = some (next, size))
    (hs : M.Asserts s.nextPayloadType size) :
    parseNext M message s = .error .aborts := by
  obtain ⟨he, ⟨ht, nCs, hm, rfl⟩ | ⟨ht, -⟩⟩ := declared_cases h
  · rw [parseNext_of_parsePayload he (parsePayload_hdr ha ht hm)]
    exact if_pos hs.2
  · exact absurd (hs.1.symm.trans ht) M.hdr_ne

/-- The debug line of the constructor reads a string that ends inside the buffer. -/
def Parsed.PrintsInside (p : Parsed) : Prop :=
  ∀ e, p.payload = .generalExtensions e → ∃ str, e.print = .ok str

/-- An extension that fills the message to its end holds a NUL of its own. -/
def PayloadCode.PrintFits (M : PayloadCode) (nextPayloadType : Int) (start : Bytes)
    (size : Nat) : Prop :=
  nextPayloadType = M.generalExtensions.toNat →
    size < start.length ∨ 0 ∈ (start.take size).drop 4

theorem GeneralExtensions.print_iff (p : GeneralExtensions) :
    (∃ str, p.print = .ok str) ↔ 0 ∈ p.data := by
  unfold GeneralExtensions.print cstr
  by_cases h : 0 ∈ p.data
  · rw [if_pos h]
    exact iff_of_true ⟨_, rfl⟩ h
  · rw [if_neg h]
    refine iff_of_false ?_ h
    rintro ⟨_, hc⟩
    cases hc

/-- Behind the bytes of an extension its buffer is zero. -/
theorem printsInside_iff {p : GeneralExtensions} {content : Bytes} {n : Nat}
    (hdata : p.data = content ++ calloc n) {endPtr : Nat} :
    Parsed.PrintsInside ⟨.generalExtensions p, next, endPtr⟩ ↔ 0 < n ∨ 0 ∈ content := by
  rw [or_comm, ← mem_calloc, ← List.mem_append, ← hdata, ← p.print_iff]
  constructor
  · intro h
    exact h p rfl
  · intro h e he
    cases he
    exact h

theorem parseNext_of_fits (ha : s.Aligned message)
    (h : M.declared s.nextPayloadType (message.drop s.msgpos) = some (next, size))
    (hs : ¬M.Asserts s.nextPayloadType size) (hf : size ≤ (message.drop s.msgpos).length) :
    ∃ p, parseNext M message s = .ok (p, s.after next size) ∧ p.endPtr = s.msgpos + size ∧
      (p.PrintsInside ↔ M.PrintFits s.nextPayloadType (message.drop s.msgpos) size) := by
  obtain ⟨he, ⟨ht, nCs, hm, rfl⟩ | ⟨ht, type, hi, lo, body, hstart, rfl⟩⟩ := declared_cases h
  · have hl : M.hdrLength 0 = 10 + 13 * nCs.toNat := by
      by_contra hne
      exact hs ⟨ht, hne⟩
    refine ⟨_, (parseNext_of_parsePayload he (parsePayload_hdr ha ht hm)).trans
      (if_neg (not_not.mpr hl)), rfl, ?_⟩
    apply iff_of_true
    · intro e h
      cases h
    · intro hg
      exact absurd (ht.symm.trans hg) M.hdr_ne
  · have hlimit : s.limit = body.length + 4 := by
      rw [ha.length_drop, hstart]
      rfl
    rw [hstart] at hf ⊢
    have hfit : (ofBe hi lo).toNat ≤ body.length := by simpa using hf
    obtain ⟨p, hp, -, hleng, -, hdata⟩ := decodeAt_of_fits hstart hlimit hfit
    have hpay := parsePayload_generalExtensions message ht (by omega)
    rw [hp] at hpay
    refine ⟨_, (parseNext_of_parsePayload he hpay).trans (if_neg (not_not.mpr ?_)), rfl, ?_⟩
    · show p.leng.toNat + 4 = _
      rw [hleng]
    · rw [printsInside_iff hdata, Nat.sub_pos_iff_lt]
      constructor
      · intro h _
        simpa using h
      · intro h
        simpa using h ht

theorem parseNext_of_oversize (ha : s.Aligned message)
    (h : M.declared s.nextPayloadType (message.drop s.msgpos) = some (next, size))
    (hs : ¬M.Asserts s.nextPayloadType size) (hf : (message.drop s.msgpos).length < size) :
    (∃ f, parseNext M message s = .error (.fault f)) ∨
      ∃ p, parseNext M message s = .ok (p, s.after next size) := by
  obtain ⟨he, ⟨ht, nCs, hm, rfl⟩ | ⟨ht, type, hi, lo, body, hstart, rfl⟩⟩ := declared_cases h
  · right
    have hl : M.hdrLength 0 = 10 + 13 * nCs.toNat := by
      by_contra hne
      exact hs ⟨ht, hne⟩
    exact ⟨_, (parseNext_of_parsePayload he (parsePayload_hdr ha ht hm)).trans
      (if_neg (not_not.mpr hl))⟩
  · left
    have hlimit : s.limit = body.length + 4 := by
      rw [ha.length_drop, hstart]
      rfl
    rw [hstart] at hf
    have hover : body.length < (ofBe hi lo).toNat := by simpa using hf
    obtain ⟨f, hd⟩ := decodeAt_of_oversize hstart hlimit hover
    have hpay := parsePayload_generalExtensions message ht (by omega)
    rw [hd] at hpay
    refine ⟨f, ?_⟩
    unfold parseNext
    rw [if_neg (mt (ends_iff s).mp (not_or.mpr he)), hpay]

end

/-- `HDR_CS_ID_MAP_TYPE_DUMMY_ID`. -/
def hdrCsIdMapTypeDummyId : UInt8 := 8

/-- The hidden code as a header of ten bytes has it: next payload at 2, number of
crypto sessions at 8, type of their map at 9. -/
def plainPayloadCode : PayloadCode where
  lastPayload := 0
  generalExtensions := 21
  hdr := -1
  last_ne := by decide
  hdr_ne := by decide
  header start lengthLimit :=
    if lengthLimit < 10 then .throws
    else if start.getD 9 0 = hdrCsIdMapTypeDummyId then .dummy (start.getD 2 0) (start.getD 8 0)
    else .other
  hdrLength csIdMapLength := 10 + csIdMapLength

/-! ## The loop ends -/

section
variable {M : PayloadCode} {message : Bytes}

theorem GeneralExtensions.lt_of_decodeAt {msgpos endPtr : Nat} {limit : Int} {next : UInt8}
    {p : GeneralExtensions}
    (h : GeneralExtensions.decodeAt message msgpos limit = .ok (next, p, endPtr)) :
    msgpos < endPtr := by
  unfold GeneralExtensions.decodeAt at h
  match message.drop msgpos, h with
  | next :: type :: hi :: lo :: body, h =>
    dsimp only at h
    cases hf : GeneralExtensions.fill type (ofBe hi lo) (next :: type :: hi :: lo :: body) 4
      (limit - 4).toNat with
    | error f => rw [hf] at h; cases h
    | ok q =>
      rw [hf] at h
      cases h
      omega

theorem lt_endPtr {t : Int} {msgpos : Nat} {limit : Int} {p : Parsed}
    (h : parsePayload M message t msgpos limit = .ok p) : msgpos < p.endPtr := by
  unfold parsePayload at h
  by_cases hh : t = M.hdr
  · rw [if_pos hh] at h
    cases hm : M.header (message.drop msgpos) limit with
    | throws => rw [hm] at h; cases h
    | other => rw [hm] at h; cases h
    | dummy next nCs =>
      rw [hm] at h
      cases h
      show msgpos < msgpos + (10 + 13 * nCs.toNat)
      omega
  rw [if_neg hh] at h
  by_cases hg : t = M.generalExtensions.toNat
  · rw [if_pos hg] at h
    by_cases hl : limit < 4
    · rw [if_pos hl] at h
      cases h
    rw [if_neg hl] at h
    cases hd : GeneralExtensions.decodeAt message msgpos limit with
    | error f => rw [hd] at h; cases h
    | ok out =>
      obtain ⟨next, q, endPtr⟩ := out
      rw [hd] at h
      cases h
      exact GeneralExtensions.lt_of_decodeAt hd
  · rw [if_neg hg] at h
    cases h

theorem parseNext_progress {s s' : ParseState} {p : Parsed}
    (h : parseNext M message s = .ok (p, s')) :
    s.msgpos < message.length ∧ s.msgpos < s'.msgpos := by
  unfold parseNext at h
  by_cases he : message.length ≤ s.msgpos ∨ s.nextPayloadType = M.lastPayload.toNat
  · rw [if_pos he] at h
    cases h
  rw [if_neg he] at h
  cases hp : parsePayload M message s.nextPayloadType s.msgpos s.limit with
  | error e => rw [hp] at h; cases h
  | ok q =>
    rw [hp] at h
    dsimp only at h
    by_cases hl : (q.endPtr : Int) - s.msgpos ≠ M.length q.payload
    · rw [if_pos hl] at h
      cases h
    rw [if_neg hl] at h
    cases h
    exact ⟨by omega, lt_endPtr hp⟩

theorem parseLoop_isSome (fuel : Nat) (payloads : List Parsed) (s : ParseState)
    (h : message.length - s.msgpos < fuel) : (parseLoop M message fuel payloads s).isSome := by
  induction fuel generalizing payloads s with
  | zero => omega
  | succ fuel ih =>
    rw [parseLoop]
    cases hn : parseNext M message s with
    | error e => rfl
    | ok out =>
      obtain ⟨p, s'⟩ := out
      obtain ⟨hlt, hprog⟩ := parseNext_progress hn
      exact ih (payloads ++ [p]) s' (by omega)

/-- What the loop returns is the end of a run. -/
theorem run_of_parseLoop {fuel : Nat} {s₀ s s' : ParseState} {payloads ps : List Parsed}
    {e : ParseEnd} (run : Run (ParseStep M message) s₀ payloads s)
    (h : parseLoop M message fuel payloads s = some (ps, s', e)) :
    Run (ParseStep M message) s₀ ps s' ∧ parseNext M message s' = .error e := by
  induction fuel generalizing payloads s with
  | zero => cases h
  | succ fuel ih =>
    rw [parseLoop] at h
    cases hn : parseNext M message s with
    | error e' =>
      rw [hn] at h
      cases h
      exact ⟨run, hn⟩
    | ok out =>
      obtain ⟨p, t⟩ := out
      rw [hn] at h
      exact ih (run.snoc hn) h

/-- **The loop ends**, on every message and with every end of its runs. -/
theorem parse_ends (M : PayloadCode) (message : Bytes) (first : Int) (msgpos : Nat) :
    ∃ ps s e, parse M message first msgpos = some (ps, s, e) ∧
      Run (ParseStep M message) (parseStart message first msgpos) ps s ∧
      parseNext M message s = .error e := by
  have h := parseLoop_isSome (M := M) (message.length + 1) []
    (parseStart message first msgpos) (Nat.lt_succ_of_le (Nat.sub_le _ _))
  obtain ⟨⟨ps, s, e⟩, hp⟩ := Option.isSome_iff_exists.mp h
  exact ⟨ps, s, e, hp, run_of_parseLoop .nil hp⟩

end

/-! ## Written chains -/

/-- The type in front of a chain: `LastPayload` when it is empty. -/
def chainNext (M : PayloadCode) : List GeneralExtensions → UInt8
  | [] => M.lastPayload
  | _ :: _ => M.generalExtensions

/-- The extensions serialised back to back. -/
def writeChain (M : PayloadCode) : List GeneralExtensions → Bytes
  | [] => []
  | p :: ps => p.writeData (chainNext M ps) ++ writeChain M ps

/-- The encoding constructor, for each type and data. -/
def encodeChain : List (UInt8 × Bytes) → Except Fault (List GeneralExtensions)
  | [] => .ok []
  | (type, data) :: rest => do
    let p ← GeneralExtensions.encode type data.length.toUInt16 data
    let ps ← encodeChain rest
    .ok (p :: ps)

/-- What an extension says. -/
def GeneralExtensions.value (p : GeneralExtensions) : UInt8 × Nat × Bytes :=
  (p.type, p.leng.toNat, p.content)

theorem encodeChain_eq (l : List (UInt8 × Bytes)) (h : ∀ x ∈ l, x.2.length < 2 ^ 16) :
    ∃ es, encodeChain l = .ok es ∧
      es.map GeneralExtensions.value = l.map fun x => (x.1, x.2.length, x.2) := by
  induction l with
  | nil => exact ⟨[], rfl, rfl⟩
  | cons x l ih =>
    obtain ⟨type, data⟩ := x
    obtain ⟨es, hes, hval⟩ := ih fun y hy => h y (List.mem_cons_of_mem _ hy)
    have hlen : data.length.toUInt16.toNat = data.length :=
      UInt16.toNat_ofNat_of_lt' (h _ (List.mem_cons_self ..))
    obtain ⟨p, hp, ht, hl, hc⟩ :=
      GeneralExtensions.encode_eq type data.length.toUInt16 data (by omega)
    refine ⟨p :: es, ?_, ?_⟩
    · rw [encodeChain, hp, hes]
      rfl
    · rw [List.map_cons, List.map_cons, hval, GeneralExtensions.value, ht, hl, hc, hlen,
        List.take_of_length_le (Nat.le_refl _)]

/-- One turn over a written extension. -/
theorem parseNext_writeData (M : PayloadCode) (pre rest : Bytes) (next : UInt8)
    (e : GeneralExtensions) :
    ∃ d, parseNext M (pre ++ (e.writeData next ++ rest))
        ⟨M.generalExtensions.toNat, pre.length, (e.writeData next ++ rest).length⟩ =
          .ok (⟨.generalExtensions d, next, (pre ++ e.writeData next).length⟩,
            ⟨next.toNat, (pre ++ e.writeData next).length, rest.length⟩) ∧
      d.value = e.value := by
  have hlen : (e.writeData next).length = e.leng.toNat + 4 := by
    simp only [GeneralExtensions.writeData, beBytes, List.length_cons, List.length_append,
      List.length_nil, GeneralExtensions.length_content]
    omega
  have hdrop : (pre ++ (e.writeData next ++ rest)).drop pre.length =
      next :: e.type :: (e.leng >>> 8).toUInt8 :: e.leng.toUInt8 :: (e.content ++ rest) := by
    rw [List.drop_left' rfl]
    rfl
  have hlimit : ((e.writeData next ++ rest).length : Int) = (e.content ++ rest).length + 4 := by
    rw [List.length_append, List.length_append, hlen, GeneralExtensions.length_content]
    omega
  have hfit : (ofBe (e.leng >>> 8).toUInt8 e.leng.toUInt8).toNat ≤ (e.content ++ rest).length := by
    rw [ofBe_bytes, List.length_append, GeneralExtensions.length_content]
    omega
  obtain ⟨d, hd, ht, hl, hc, -⟩ := decodeAt_of_fits hdrop hlimit hfit
  rw [ofBe_bytes] at hd hl hc
  refine ⟨d, ?_, ?_⟩
  · have hpay := parsePayload_generalExtensions (M := M)
      (s := ⟨M.generalExtensions.toNat, pre.length, (e.writeData next ++ rest).length⟩)
      (pre ++ (e.writeData next ++ rest)) rfl
      (by
        show (4 : Int) ≤ (e.writeData next ++ rest).length
        omega)
    dsimp only at hpay
    rw [hd] at hpay
    rw [parseNext_of_parsePayload ⟨by rw [hdrop]; exact List.cons_ne_nil _ _, ?_⟩ hpay, if_neg]
    · simp only [ParseState.after, List.length_append, hlen]
      congr 3
      omega
    · intro hne
      apply hne
      show d.leng.toNat + 4 = _
      rw [hl]
    · intro heq
      exact M.last_ne (UInt8.toNat.inj (Int.ofNat.inj heq.symm))
  · rw [GeneralExtensions.value, GeneralExtensions.value, ht, hl, hc,
      List.take_left' (GeneralExtensions.length_content e)]

/-- The loop over a written chain; by induction on the chain, which moves its front into
what is already parsed. -/
theorem parseLoop_writeChain (M : PayloadCode) (es : List GeneralExtensions) (pre rest : Bytes)
    (fuel : Nat) (payloads : List Parsed) (hf : (writeChain M es ++ rest).length < fuel) :
    ∃ (ps : List Parsed) (ds : List GeneralExtensions),
      parseLoop M (pre ++ (writeChain M es ++ rest)) fuel payloads
        ⟨(chainNext M es).toNat, pre.length, (writeChain M es ++ rest).length⟩ =
          some (payloads ++ ps, ⟨M.lastPayload.toNat, (pre ++ writeChain M es).length,
            rest.length⟩, .done) ∧
      ps.map Parsed.payload = ds.map Payload.generalExtensions ∧
      ds.map GeneralExtensions.value = es.map GeneralExtensions.value := by
  induction es generalizing pre fuel payloads with
  | nil =>
    obtain ⟨fuel, rfl⟩ : ∃ k, fuel = k + 1 := ⟨fuel - 1, by omega⟩
    refine ⟨[], [], ?_, rfl, rfl⟩
    rw [parseLoop, parseNext, if_pos (.inr rfl), List.append_nil]
    simp [writeChain, chainNext]
  | cons e es ih =>
    obtain ⟨fuel, rfl⟩ : ∃ k, fuel = k + 1 := ⟨fuel - 1, by omega⟩
    obtain ⟨d, hd, hval⟩ := parseNext_writeData M pre (writeChain M es ++ rest) (chainNext M es) e
    have hassoc : writeChain M (e :: es) ++ rest =
        e.writeData (chainNext M es) ++ (writeChain M es ++ rest) := by
      rw [writeChain, List.append_assoc]
    obtain ⟨ps, ds, hps, hpay, hds⟩ := ih (pre ++ e.writeData (chainNext M es)) fuel
      (payloads ++ [⟨.generalExtensions d, chainNext M es,
        (pre ++ e.writeData (chainNext M es)).length⟩]) (by
      rw [hassoc, List.length_append] at hf
      have : 0 < (e.writeData (chainNext M es)).length := Nat.succ_pos _
      omega)
    refine ⟨⟨.generalExtensions d, chainNext M es,
        (pre ++ e.writeData (chainNext M es)).length⟩ :: ps, d :: ds, ?_, ?_, ?_⟩
    · rw [parseLoop, hassoc]
      show (match parseNext M _ ⟨M.generalExtensions.toNat, _, _⟩ with
        | .error e => _
        | .ok (p, s') => _) = _
      rw [hd]
      dsimp only
      rw [← List.append_assoc pre, hps]
      simp [writeChain]
    · rw [List.map_cons, List.map_cons, hpay]
    · rw [List.map_cons, List.map_cons, hds, hval]

/-- **Round trip of chains.**  Extensions encoded from any types and data, written back to
back behind `pre` and followed by `rest`, are parsed to the same types, lengths and bytes;
the loop stops at the first byte of `rest`. -/
theorem parse_writeChain (M : PayloadCode) (l : List (UInt8 × Bytes)) (pre rest : Bytes)
    (h : ∀ x ∈ l, x.2.length < 2 ^ 16) :
    ∃ (es : List GeneralExtensions) (ps : List Parsed) (ds : List GeneralExtensions),
      encodeChain l = .ok es ∧
      parse M (pre ++ (writeChain M es ++ rest)) (chainNext M es).toNat pre.length =
        some (ps, ⟨M.lastPayload.toNat, (pre ++ writeChain M es).length, rest.length⟩, .done) ∧
      ps.map Parsed.payload = ds.map Payload.generalExtensions ∧
      ds.map GeneralExtensions.value = l.map fun x => (x.1, x.2.length, x.2) := by
  obtain ⟨es, hes, hval⟩ := encodeChain_eq l h
  have hlen : (pre ++ (writeChain M es ++ rest)).length =
      pre.length + (writeChain M es ++ rest).length := List.length_append
  obtain ⟨ps, ds, hps, hpay, hds⟩ := parseLoop_writeChain M es pre rest
    ((pre ++ (writeChain M es ++ rest)).length + 1) [] (by omega)
  refine ⟨es, ps, ds, hes, ?_, hpay, hds.trans hval⟩
  have hstart : parseStart (pre ++ (writeChain M es ++ rest)) (chainNext M es).toNat pre.length =
      ⟨(chainNext M es).toNat, pre.length, (writeChain M es ++ rest).length⟩ := by
    rw [parseStart, hlen]
    congr 1
    omega
  rw [parse, hstart, hps, List.nil_append]

/-- Two extensions, one with a NUL in its data and one empty, behind three bytes. -/
theorem parse_writeChain_two :
    ∃ (es : List GeneralExtensions) (ps : List Parsed) (ds : List GeneralExtensions),
      encodeChain [(2, [97, 0, 124]), (255, [])] = .ok es ∧
      parse plainPayloadCode ([9, 9, 9] ++ (writeChain plainPayloadCode es ++ [0, 5]))
          (chainNext plainPayloadCode es).toNat 3 =
        some (ps, ⟨0, ([9, 9, 9] ++ writeChain plainPayloadCode es).length, 2⟩, .done) ∧
      ps.map Parsed.payload = ds.map Payload.generalExtensions ∧
      ds.map GeneralExtensions.value = [(2, 3, [97, 0, 124]), (255, 0, [])] :=
  parse_writeChain plainPayloadCode [(2, [97, 0, 124]), (255, [])] [9, 9, 9] [0, 5]
    (by decide)

end KerberizedMikey
