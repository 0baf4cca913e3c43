import KerberizedMikey.Payload.Bounds

/-!
# Written back

What the payload loop takes from a message is written back to the same bytes: the parser
accepts nothing that `writeData` would not have written.

    decode start = ok (next, p, rest)  →  start = p.writeData next ++ rest
                                                                  (writeData_of_decode)
    parse message = ps                 →  message = front ++ ps written ++ behind
                                                                  (parse_writes_back)
-/

namespace KerberizedMikey

open CLib

/-! ## One extension -/

/-- The two bytes are written back. -/
theorem beBytes_ofBe (hi lo : UInt8) : beBytes (ofBe hi lo) = [hi, lo] := by
  have hlo := lo.toNat_lt
  have h := toNat_ofBe hi lo
  have h0 : (ofBe hi lo >>> 8).toUInt8 = hi := by
    apply UInt8.toNat.inj
    rw [toNat_hi]
    omega
  have h1 : (ofBe hi lo).toUInt8 = lo := by
    apply UInt8.toNat.inj
    rw [UInt16.toNat_toUInt8]
    omega
  rw [beBytes, h0, h1]

/-- **The converse of the round trip.** -/
theorem GeneralExtensions.writeData_of_decode {start rest : Bytes} {next : UInt8}
    {p : GeneralExtensions} (h : decode start = .ok (next, p, rest)) :
    start = p.writeData next ++ rest := by
  obtain ⟨next', type, hi, lo, body, rfl, hfit⟩ := (decode_ok_iff start).mp ⟨_, h⟩
  obtain ⟨q, hq, ht, hl, hc⟩ := fill_eq type (ofBe hi lo) (next' :: type :: hi :: lo :: body) 4
    body.length (by simp only [List.length_cons]; omega) hfit
  have hdecode : decode (next' :: type :: hi :: lo :: body) =
      .ok (next', q, (next' :: type :: hi :: lo :: body).drop ((ofBe hi lo).toNat + 4)) := by
    show (fill type (ofBe hi lo) _ 4 body.length).map _ = _
    rw [hq]
    rfl
  rw [hdecode] at h
  cases h
  rw [writeData, ht, hl, beBytes_ofBe, hc]
  show next :: type :: hi :: lo :: body =
    next :: type :: ([hi, lo] ++ body.take (ofBe hi lo).toNat ++ body.drop (ofBe hi lo).toNat)
  rw [List.append_assoc, List.take_append_drop]
  rfl

/-! ## The loop -/

/-- A payload written in front of the one that followed it.  The maps the HDR constructor
reads are not written back. -/
def Parsed.written (p : Parsed) : Bytes :=
  match p.payload with
  | .hdr _ _ => []
  | .generalExtensions e => e.writeData p.nextPayloadType

section
variable {M : PayloadCode} {message : Bytes} {s s' : ParseState} {p : Parsed}

/-- A turn that pushes a payload. -/
theorem parsePayload_of_step (h : ParseStep M message s p s') :
    parsePayload M message s.nextPayloadType s.msgpos s.limit = .ok p ∧
      s' = ⟨p.nextPayloadType.toNat, p.endPtr, s.limit - (p.endPtr - s.msgpos)⟩ := by
  unfold ParseStep parseNext at h
  split at h
  · cases h
  cases hp : parsePayload M message s.nextPayloadType s.msgpos s.limit with
  | error e =>
    rw [hp] at h
    cases h
  | ok q =>
    rw [hp] at h
    dsimp only at h
    split at h
    · cases h
    · cases h
      exact ⟨rfl, rfl⟩

/-- An extension comes from its constructor, which read `writeData`'s bytes. -/
theorem written_of_parsePayload {e : GeneralExtensions} (ha : s.Aligned message)
    (h : parsePayload M message s.nextPayloadType s.msgpos s.limit = .ok p)
    (he : p.payload = .generalExtensions e) :
    s.nextPayloadType = M.generalExtensions.toNat ∧ p.endPtr = s.msgpos + p.written.length ∧
      message.drop s.msgpos = p.written ++ message.drop p.endPtr := by
  unfold parsePayload at h
  by_cases hh : s.nextPayloadType = M.hdr
  · rw [if_pos hh] at h
    split at h <;> cases h
    cases he
  rw [if_neg hh] at h
  by_cases hg : s.nextPayloadType = M.generalExtensions.toNat
  · rw [if_pos hg] at h
    split at h
    · cases h
    rw [ha.length_drop, decodeAt_eq_decode] at h
    cases hd : GeneralExtensions.decode (message.drop s.msgpos) with
    | error f =>
      rw [hd] at h
      cases h
    | ok out =>
      obtain ⟨next, q, rest⟩ := out
      rw [hd] at h
      cases h
      cases he
      have hstart := GeneralExtensions.writeData_of_decode hd
      have hlen : (q.writeData next).length = q.leng.toNat + 4 := q.length_writeData next
      refine ⟨hg, ?_, ?_⟩
      · show s.msgpos + (q.leng.toNat + 4) = s.msgpos + (q.writeData next).length
        rw [hlen]
      · show message.drop s.msgpos =
          q.writeData next ++ message.drop (s.msgpos + (q.leng.toNat + 4))
        rw [← List.drop_drop, hstart, ← hlen, List.drop_left]
  · rw [if_neg hg] at h
    cases h

/-- **One turn** takes what it would write. -/
theorem written_of_step {e : GeneralExtensions} (ha : s.Aligned message)
    (h : ParseStep M message s p s') (he : p.payload = .generalExtensions e) :
    s'.Aligned message ∧ s.nextPayloadType = M.generalExtensions.toNat ∧
      message.drop s.msgpos = p.written ++ message.drop s'.msgpos := by
  obtain ⟨hp, rfl⟩ := parsePayload_of_step h
  obtain ⟨ht, hend, hwritten⟩ := written_of_parsePayload ha hp he
  refine ⟨?_, ht, hwritten⟩
  have hle : p.written.length ≤ (message.drop s.msgpos).length := by
    rw [hwritten, List.length_append]
    omega
  have hl := ha.length_drop
  have hl' := ha.1
  refine ⟨?_, ?_⟩
  · show s.limit - (p.endPtr - s.msgpos) = (message.length : Int) - p.endPtr
    omega
  · show 0 ≤ s.limit - (p.endPtr - s.msgpos)
    omega

/-- A run that takes only extensions, by induction from its front: each payload but the
last names an extension as the next. -/
theorem written_of_run {ps : List Parsed} {ds : List GeneralExtensions}
    (run : Run (ParseStep M message) s ps s') (ha : s.Aligned message)
    (hext : ps.map Parsed.payload = ds.map Payload.generalExtensions) :
    message.drop s.msgpos = ps.flatMap Parsed.written ++ message.drop s'.msgpos ∧
      s'.msgpos ≤ message.length ∧
      (s'.nextPayloadType = M.lastPayload.toNat →
        s.nextPayloadType = (chainNext M ds).toNat ∧
          ps.flatMap Parsed.written = writeChain M ds) := by
  induction ps generalizing s ds with
  | nil =>
    obtain rfl : ds = [] := List.map_eq_nil_iff.mp hext.symm
    cases run.nil_eq
    refine ⟨rfl, ?_, fun ht => ⟨ht, rfl⟩⟩
    have := ha.1
    have := ha.2
    omega
  | cons p ps ih =>
    obtain ⟨e, ds', rfl, hp, hps⟩ : ∃ e ds', ds = e :: ds' ∧
        p.payload = .generalExtensions e ∧
        ps.map Parsed.payload = ds'.map Payload.generalExtensions := by
      cases ds with
      | nil => cases hext
      | cons e ds' =>
        rw [List.map_cons, List.map_cons, List.cons.injEq] at hext
        exact ⟨e, ds', rfl, hext.1, hext.2⟩
    obtain ⟨t, h, run⟩ := Run.cons_iff.mp run
    obtain ⟨ha', ht, hwritten⟩ := written_of_step ha h hp
    obtain ⟨hrest, hle, hchain⟩ := ih run ha' hps
    refine ⟨?_, hle, ?_⟩
    · rw [hwritten, hrest, List.flatMap_cons, List.append_assoc]
    · intro hlast
      obtain ⟨hnext, hps⟩ := hchain hlast
      refine ⟨ht, ?_⟩
      have hnext' : p.nextPayloadType = chainNext M ds' := by
        rw [(parsePayload_of_step h).2] at hnext
        exact UInt8.toNat.inj (Int.ofNat.inj hnext)
      rw [List.flatMap_cons, hps, writeChain, Parsed.written, hp, hnext']

/-- **What `parse` takes is what `writeData` writes.**  Where it took only extensions, from
`msgpos` on, the message is what was before them, the payloads written back, and the rest;
after the last payload they are a written chain. -/
theorem parse_writes_back {first : Int} {msgpos : Nat} {ps : List Parsed} {e : ParseEnd}
    {ds : List GeneralExtensions} (h : parse M message first msgpos = some (ps, s, e))
    (hpos : msgpos ≤ message.length)
    (hext : ps.map Parsed.payload = ds.map Payload.generalExtensions) :
    message = message.take msgpos ++ (ps.flatMap Parsed.written ++ message.drop s.msgpos) ∧
      s.msgpos ≤ message.length ∧
      (s.nextPayloadType = M.lastPayload.toNat →
        first = (chainNext M ds).toNat ∧ ps.flatMap Parsed.written = writeChain M ds) := by
  obtain ⟨run, -⟩ := run_of_parseLoop .nil h
  obtain ⟨hmsg, hle, hchain⟩ := written_of_run run (parseStart_aligned hpos) hext
  refine ⟨?_, hle, hchain⟩
  rw [← hmsg]
  exact (List.take_append_drop msgpos message).symm

end

/-- Two bytes and nothing. -/
def writtenTwo : List GeneralExtensions :=
  [⟨2, 2, [97, 0, 0, 0, 0, 0, 0], by decide⟩, ⟨3, 0, [0], by decide⟩]

/-- The chain behind a byte, with a byte behind it. -/
theorem parse_writes_back_two :
    [21, 2, 0, 2, 97, 0, 0, 3, 0, 0] = writeChain plainPayloadCode writtenTwo := by
  have hparse : parse plainPayloadCode [9, 21, 2, 0, 2, 97, 0, 0, 3, 0, 0, 7] 21 1 =
      some ([⟨.generalExtensions ⟨2, 2, [97, 0, 0, 0, 0, 0, 0], by decide⟩, 21, 7⟩,
        ⟨.generalExtensions ⟨3, 0, [0], by decide⟩, 0, 11⟩], ⟨0, 11, 1⟩, .done) := rfl
  exact ((parse_writes_back hparse (by decide)
    (show _ = writtenTwo.map Payload.generalExtensions from rfl)).2.2 rfl).2

end KerberizedMikey
