import KerberizedMikey.Kdc.GcksReq
import KerberizedMikey.CLib.Stream

/-!
# Model 2: unframed messages

The KDC sends its MIKEY message to gcks2, and gcks2 its own to sclient2, as bare bytes
on a fresh connection; both receivers call `recv` once.  What they pass on is the first
segment,

    recvString buf n (segment bs ++ es) = ok bs          (recvString_segment)

so a message is delivered exactly when TCP does not split it (`km2_transport_iff`).
-/

namespace KerberizedMikey

open CLib

/-- `bytes = recv(sock, buf, n, 0); buf[bytes] = '\\0';` and the string in `buf`. -/
def recvString (buf : Bytes) (n : Nat) (es : List Event) : Except Fault Bytes :=
  match (sysRead n es).1 with
  | .bytes bs => do
    let buf ← store buf bs
    let buf ← storeByte buf bs.length 0
    cstr buf
  -- `buf[-1]`
  | .intr => .error .overWrite
  | .err => .error .overWrite

/-- gcks2's receive: a zeroed `recv_data[BUFSIZ]`. -/
def gcks2Recv (es : List Event) : Except Fault Bytes :=
  recvString (List.replicate bufsiz 0) (bufsiz - 1) es

/-- sclient2's receive: `recv_data[1024]` with what it held, and a `recv` of 2048. -/
def sclient2Recv (recvData : Bytes) (es : List Event) : Except Fault Bytes :=
  recvString recvData 2048 es

/-! ## One recv takes one segment -/

/-- With room for the NUL, both stores are inside the buffer. -/
theorem recvString_of_lt {buf bs : Bytes} {n : Nat} {es : List Event}
    (hr : (sysRead n es).1 = .bytes bs) (hlen : bs.length < buf.length) :
    ∃ rest, recvString buf n es = cstr (bs ++ 0 :: rest) := by
  unfold recvString
  rw [hr]
  show ∃ rest, (store buf bs).bind _ = _
  rw [store_of_le (by omega)]
  show ∃ rest, (storeByte (bs ++ buf.drop bs.length) bs.length 0).bind _ = _
  have hd : 0 < (buf.drop bs.length).length := by
    rw [List.length_drop]
    omega
  obtain ⟨x, rest, hx⟩ := List.exists_cons_of_length_pos hd
  refine ⟨rest, ?_⟩
  rw [hx, storeByte_of_lt (by simp), List.set_append_right _ _ (Nat.le_refl _), Nat.sub_self,
    List.set_cons_zero]
  rfl

theorem recvString_bytes {buf bs : Bytes} {n : Nat} {es : List Event}
    (hr : (sysRead n es).1 = .bytes bs) (hlen : bs.length < buf.length) (h0 : 0 ∉ bs) :
    recvString buf n es = .ok bs := by
  obtain ⟨rest, hrest⟩ := recvString_of_lt hr hlen
  rw [hrest]
  exact cstr_append_nul bs rest h0

theorem recvString_nil {buf : Bytes} (n : Nat) (hbuf : 0 < buf.length) :
    recvString buf n [] = .ok [] :=
  recvString_bytes rfl hbuf (by simp)

/-- **A segment that fits is the string.** -/
theorem recvString_segment {buf bs : Bytes} {n : Nat} (es : List Event) (hne : bs ≠ [])
    (hn : bs.length ≤ n) (hbuf : bs.length < buf.length) (h0 : 0 ∉ bs) :
    recvString buf n (segment bs ++ es) = .ok bs := by
  refine recvString_bytes ?_ hbuf h0
  obtain ⟨b, seg, rfl⟩ := List.exists_cons_of_ne_nil hne
  show ReadResult.bytes ((b :: seg).take n) = _
  rw [List.take_of_length_le hn]

/-- A NUL-free message arrives whole exactly when it is one segment at most. -/
theorem recvString_segments_iff {buf m : Bytes} {n : Nat} (hn : m.length ≤ n)
    (hbuf : m.length < buf.length) (h0 : 0 ∉ m) (segs : List Bytes) (hne : [] ∉ segs)
    (hm : segs.flatten = m) :
    recvString buf n (segs.flatMap segment) = .ok m ↔ segs.length ≤ 1 := by
  subst hm
  cases segs with
  | nil => exact iff_of_true (recvString_nil n (by omega)) (by simp)
  | cons bs segs =>
    rw [List.mem_cons, not_or] at hne
    rw [List.flatten_cons] at hn hbuf h0 ⊢
    rw [List.length_append] at hn hbuf
    rw [List.flatMap_cons, recvString_segment _ (Ne.symm hne.1) (by omega) (by omega)
      fun h => h0 (List.mem_append_left _ h), List.length_cons]
    -- the string is the first segment: the others have to be missing
    constructor
    · intro h
      have hrest : segs.flatten = [] := by simpa using Except.ok.inj h
      cases segs with
      | nil => simp
      | cons bs' segs =>
        rw [List.flatten_cons, List.append_eq_nil_iff] at hrest
        exact absurd (by rw [hrest.1]; exact List.mem_cons_self) hne.2
    · intro h
      have : segs = [] := List.length_eq_zero_iff.mp (by omega)
      rw [this, List.flatten_nil, List.append_nil]

/-- **When the receivers get whole messages.**  On both links, exactly when the message
reaches the single `recv` in one piece. -/
theorem km2_transport_iff (m : CString) :
    (m.bytes.length < bufsiz → ∀ (sent : Bytes) (segs : List Bytes), sendText m = .ok sent →
      [] ∉ segs → segs.flatten = sent →
        (gcks2Recv (segs.flatMap segment) = .ok m.bytes ↔ segs.length ≤ 1)) ∧
    (m.bytes.length < 1024 → ∀ (recvData : Bytes) (segs : List Bytes), recvData.length = 1024 →
      [] ∉ segs → segs.flatten = m.bytes →
        (sclient2Recv recvData (segs.flatMap segment) = .ok m.bytes ↔ segs.length ≤ 1)) := by
  constructor
  · intro hlen sent segs hsent hne hflat
    rw [sendText_eq, List.take_of_length_le (by omega)] at hsent
    have hm : segs.flatten = m.bytes := by rw [hflat, Except.ok.inj hsent]
    exact recvString_segments_iff (by omega) (by rw [List.length_replicate]; exact hlen) m.nul_free
      segs hne hm
  · intro hlen recvData segs hdata hne hm
    exact recvString_segments_iff (by omega) (by omega) m.nul_free segs hne hm

/-- A message in one piece on each link. -/
theorem km2_whole_message :
    gcks2Recv (segment (ascii "mikey AAAA")) = .ok (ascii "mikey AAAA") ∧
    sclient2Recv (List.replicate 1024 85) (segment (ascii "mikey AAAA")) =
      .ok (ascii "mikey AAAA") := by
  obtain ⟨h1, h2⟩ := km2_transport_iff ⟨ascii "mikey AAAA", by decide⟩
  exact ⟨(h1 (by decide) (ascii "mikey AAAA") [ascii "mikey AAAA"] (sendText_eq _) (by decide)
      rfl).mpr (by decide),
    (h2 (by decide) _ [ascii "mikey AAAA"] (List.length_replicate) (by decide) rfl).mpr
      (by decide)⟩

/-- The same message in two segments: both receivers pass on the first. -/
theorem km2_split_message :
    gcks2Recv ([ascii "mikey ", ascii "AAAA"].flatMap segment) = .ok (ascii "mikey ") ∧
    sclient2Recv (List.replicate 1024 85) ([ascii "mikey ", ascii "AAAA"].flatMap segment) =
      .ok (ascii "mikey ") ∧
    ascii "mikey " ≠ ascii "mikey AAAA" := by
  refine ⟨?_, ?_, by decide⟩
  · exact recvString_segment (segment (ascii "AAAA")) (by decide) (by decide)
      (by rw [List.length_replicate]; decide) (by decide)
  · exact recvString_segment (segment (ascii "AAAA")) (by decide) (by decide)
      (by rw [List.length_replicate]; decide) (by decide)

end KerberizedMikey
