import KerberizedMikey.CLib.ByteOrder

/-!
# The General Extension payload

`MikeyPayloadGeneralExtensions` with its two constructors and `writeData`.  On
the wire: the next payload's type, the extension's type, a 16-bit big-endian
length, the data.

    decode (writeData next p ++ rest) = ok (next, p', rest)             (decode_writeData)

where `p'` has the type, the length and the data bytes of `p`, in a buffer as
large as the rest of the message.
-/

namespace KerberizedMikey

open CLib

/-- "Connection info for Kerberos principals". -/
def mikeyExtTypeKrb5Id : UInt8 := 2

/-- `calloc(n, sizeof(byte_t))`. -/
def calloc (n : Nat) : Bytes := List.replicate n 0

@[simp] theorem length_calloc (n : Nat) : (calloc n).length = n := List.length_replicate

theorem mem_calloc (n : Nat) : 0 ∈ calloc n ↔ 0 < n := by
  rw [calloc, List.mem_replicate, Nat.pos_iff_ne_zero]
  exact and_iff_left rfl

/-- `data` is the whole allocation; its first `leng` bytes are the extension. -/
structure GeneralExtensions where
  type : UInt8
  leng : UInt16
  data : Bytes
  leng_le : leng.toNat ≤ data.length

namespace GeneralExtensions

/-- What both constructors do: `data = calloc(size)`, then a loop that copies `leng`
bytes from `src + off`. -/
def fill (type : UInt8) (leng : UInt16) (src : Bytes) (off size : Nat) :
    Except Fault GeneralExtensions :=
  match h : copyLoop src off (calloc size) leng.toNat with
  | .ok d => .ok ⟨type, leng, d, by rw [(length_copyLoop h).2]; exact (length_copyLoop h).1⟩
  | .error f => .error f

/-- `MikeyPayloadGeneralExtensions(type, length, data)`. -/
def encode (type : UInt8) (length : UInt16) (data : Bytes) : Except Fault GeneralExtensions :=
  fill type length data 0 length.toNat

/-- The bytes of the extension. -/
def content (p : GeneralExtensions) : Bytes := p.data.take p.leng.toNat

@[simp] theorem length_content (p : GeneralExtensions) : p.content.length = p.leng.toNat := by
  rw [content, List.length_take, Nat.min_eq_left p.leng_le]

/-- `writeData`, with the type of the payload after this one. -/
def writeData (next : UInt8) (p : GeneralExtensions) : Bytes :=
  next :: p.type :: (beBytes p.leng ++ p.content)

theorem length_writeData (next : UInt8) (p : GeneralExtensions) :
    (p.writeData next).length = p.leng.toNat + 4 := by
  simp only [writeData, beBytes, List.length_append, List.length_cons, List.length_nil,
    length_content]
  omega

/-- `MikeyPayloadGeneralExtensions(start, lengthLimit)`; `start` is the message from
here to its end, so `lengthLimit` is its length.  Gives the next payload's type,
the payload and the message from `endPtr` on. -/
def decode (start : Bytes) : Except Fault (UInt8 × GeneralExtensions × Bytes) :=
  match start with
  | next :: type :: hi :: lo :: _ =>
    let leng := ofBe hi lo
    (fill type leng start 4 (start.length - 4)).map fun p =>
      (next, p, start.drop (leng.toNat + 4))
  | _ => .error .overRead

/-! ## Round trip -/

/-- In bounds, the rest of the allocation stays zero. -/
theorem fill_data (type : UInt8) (leng : UInt16) (src : Bytes) (off size : Nat)
    (hs : off + leng.toNat ≤ src.length) (hd : leng.toNat ≤ size) :
    ∃ p, fill type leng src off size = .ok p ∧ p.type = type ∧ p.leng = leng ∧
      p.data = (src.drop off).take leng.toNat ++ calloc (size - leng.toNat) := by
  have hc := copyLoop_eq src off (calloc size) leng.toNat hs (by simpa using hd)
  unfold fill
  split
  · next d h =>
    refine ⟨_, rfl, rfl, rfl, ?_⟩
    rw [hc] at h
    cases h
    show _ ++ (calloc size).drop leng.toNat = _
    rw [calloc, List.drop_replicate, calloc]
  · next f h =>
    rw [hc] at h
    cases h

theorem fill_eq (type : UInt8) (leng : UInt16) (src : Bytes) (off size : Nat)
    (hs : off + leng.toNat ≤ src.length) (hd : leng.toNat ≤ size) :
    ∃ p, fill type leng src off size = .ok p ∧ p.type = type ∧ p.leng = leng ∧
      p.content = (src.drop off).take leng.toNat := by
  obtain ⟨p, hp, ht, hl, hdata⟩ := fill_data type leng src off size hs hd
  refine ⟨p, hp, ht, hl, ?_⟩
  have hlen : ((src.drop off).take leng.toNat).length = leng.toNat := by
    rw [List.length_take, List.length_drop]
    omega
  rw [content, hl, hdata, List.take_left' hlen]

theorem encode_eq (type : UInt8) (length : UInt16) (data : Bytes)
    (h : length.toNat ≤ data.length) :
    ∃ p, encode type length data = .ok p ∧ p.type = type ∧ p.leng = length ∧
      p.content = data.take length.toNat :=
  fill_eq type length data 0 length.toNat (by omega) (Nat.le_refl _)

/-- **What is decoded.**  A header whose length the rest of the message can hold. -/
theorem decode_ok_iff (start : Bytes) :
    (∃ out, decode start = .ok out) ↔
      ∃ next type hi lo body, start = next :: type :: hi :: lo :: body ∧
        (ofBe hi lo).toNat ≤ body.length := by
  constructor
  · rintro ⟨out, h⟩
    match start, h with
    | next :: type :: hi :: lo :: body, h =>
      refine ⟨next, type, hi, lo, body, rfl, ?_⟩
      change (fill type (ofBe hi lo) _ 4 body.length).map _ = _ at h
      unfold fill at h
      split at h
      · next d hd =>
        have hle := (length_copyLoop hd).1
        rwa [length_calloc] at hle
      · cases h
  · rintro ⟨next, type, hi, lo, body, rfl, hle⟩
    obtain ⟨p, hp, -⟩ := fill_eq type (ofBe hi lo) (next :: type :: hi :: lo :: body) 4 body.length
      (by simp only [List.length_cons]; omega) hle
    refine ⟨(next, p, (next :: type :: hi :: lo :: body).drop ((ofBe hi lo).toNat + 4)), ?_⟩
    show (fill type (ofBe hi lo) _ 4 body.length).map _ = _
    rw [hp]
    rfl

/-- Else the constructor leaves the message or its own allocation. -/
theorem ne_nullDeref_of_decode {start : Bytes} {f : Fault} (h : decode start = .error f) :
    f ≠ .nullDeref := by
  unfold decode at h
  split at h
  · next next type hi lo body =>
    dsimp only at h
    cases hf : fill type (ofBe hi lo) (next :: type :: hi :: lo :: body) 4
        ((next :: type :: hi :: lo :: body).length - 4) with
    | ok p =>
      rw [hf] at h
      cases h
    | error f' =>
      rw [hf] at h
      cases h
      unfold fill at hf
      split at hf
      · cases hf
      · next hc =>
        cases hf
        exact ne_nullDeref_of_copyLoop hc
  · cases h
    decide

/-- **Payload round trip.**  Whatever follows it in the message, a written payload
is decoded to the same type, length and bytes. -/
theorem decode_writeData (next : UInt8) (p : GeneralExtensions) (rest : Bytes) :
    ∃ p', decode (p.writeData next ++ rest) = .ok (next, p', rest) ∧
      p'.type = p.type ∧ p'.leng = p.leng ∧ p'.content = p.content := by
  have hlen : (p.writeData next ++ rest).length = p.leng.toNat + 4 + rest.length := by
    rw [List.length_append, writeData]
    simp only [beBytes, List.length_append, List.length_cons, List.length_nil, length_content]
    omega
  have hdrop : (p.writeData next ++ rest).drop 4 = p.content ++ rest := by
    simp [writeData, beBytes]
  have hend : (p.writeData next ++ rest).drop (p.leng.toNat + 4) = rest := by
    rw [Nat.add_comm, ← List.drop_drop, hdrop, List.drop_left' (length_content p)]
  obtain ⟨p', hp, ht, hl, hc⟩ := fill_eq p.type p.leng (p.writeData next ++ rest) 4
    ((p.writeData next ++ rest).length - 4) (by omega) (by omega)
  rw [hdrop, List.take_left' (length_content p)] at hc
  refine ⟨p', ?_, ht, hl, hc⟩
  show (fill p.type (ofBe (p.leng >>> 8).toUInt8 p.leng.toUInt8) (p.writeData next ++ rest) 4
    ((p.writeData next ++ rest).length - 4)).map _ = _
  rw [ofBe_bytes, hp]
  show Except.ok (next, p', (p.writeData next ++ rest).drop (p.leng.toNat + 4)) = _
  rw [hend]

end GeneralExtensions

end KerberizedMikey
