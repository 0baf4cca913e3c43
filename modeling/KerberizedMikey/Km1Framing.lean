import KerberizedMikey.CLib.Stream
import KerberizedMikey.CLib.ByteOrder

/-!
# Model 1: the framed reply from gcks1 to sclient

gcks1 writes the length of its MIKEY message as a short in network order, then the
message; sclient reads both with `net_read`, which loops until it has all it asked for,
retrying interrupted calls.

However TCP cuts the stream, `net_read` collects its first `len` bytes
(`netRead_enough`), or everything there is when the stream ends first (`netRead_short`).
A complete reply is therefore read back exactly (`km1_framing`).  A reply cut short is
refused, except that `net_read` returns a positive count, taken for success, when the
connection is closed inside the message (`km1_fail_stop_iff`).
-/

namespace KerberizedMikey

open CLib

/-! ## gcks1 -/

/-- `repbuf[BUFSIZ]` with the message: its last byte was set to NUL before. -/
def repbuf (keyMgmtMessage : CString) : Except Fault Bytes := do
  let copied ← strncpy keyMgmtMessage.alloc (bufsiz - 1)
  return copied ++ [0]

/-- What gcks1 writes to the client: `xmitlen = htons(strlen(repbuf))` and the string. -/
def gcks1Reply (keyMgmtMessage : CString) : Except Fault Bytes := do
  let buf ← repbuf keyMgmtMessage
  let s ← cstr buf
  return shortBytes (htons (UInt16.ofNat s.length)) ++ s

/-! ## sclient -/

/-- The value of `net_read`, the bytes it stored, the rest of the connection. -/
structure NetRead where
  value : Int
  got : Bytes
  rest : List Event

/-- `net_read(fd, buf, len)`; each round of the loop meets one event, and `got` has the
`len2` bytes stored so far. -/
def netRead : List Event → (len : Nat) → (got : Bytes) → NetRead
  | [], _, got => ⟨got.length, got, []⟩
  | e :: es, len, got =>
    match readEvent len e with
    | (.intr, left) =>
      -- `continue` jumps to the test of the do-while loop
      if 0 < len then netRead es len got else ⟨got.length, got, left ++ es⟩
    | (.err, left) => ⟨-1, got, left ++ es⟩
    | (.bytes bs, left) =>
      if bs = [] then ⟨got.length, got, left ++ es⟩
      else if bs.length < len then netRead es (len - bs.length) (got ++ bs)
      else ⟨(got ++ bs).length, got ++ bs, left ++ es⟩

/-- `recv_data` as it is given to `responderAuthenticate`. -/
structure Reply where
  length : Nat
  text : Bytes
  rest : List Event
deriving DecidableEq

/-- `malloc`: NULL, or a block of the size with whatever it held before. -/
abbrev Malloc := (n : Nat) → Option { block : Bytes // block.length = n }

/-- A heap of zeros. -/
def zeros : Malloc := fun n => some ⟨List.replicate n 0, List.length_replicate⟩

/-- `ntohs(xmitlen)` for the short in these two bytes; its sign does not matter. -/
def ntohsAt (mem : Bytes) : UInt16 := htons (shortOf (mem.getD 0 0) (mem.getD 1 0))

/-- sclient's second read: `malloc(length + 1)`, the body, the NUL, and the string that
`responderAuthenticate` gets.  `none` is `exit(1)`. -/
def readBody (es : List Event) (length : Nat) (malloc : Malloc) : Except Fault (Option Reply) :=
  match malloc (length + 1) with
  | none => .ok none
  | some block =>
    let r := netRead es length []
    if r.value ≤ 0 then .ok none
    else do
      let data ← store block.val r.got
      let data ← storeByte data length 0
      let text ← cstr data
      return some ⟨length, text, r.rest⟩

/-- The reply handling of sclient's `main` up to `std::string(recv_data.data)`; `xmitlen`
is what the variable holds before. -/
def sclientReceive (es : List Event) (xmitlen : UInt8 × UInt8) (malloc : Malloc) :
    Except Fault (Option Reply) :=
  let r := netRead es 2 []
  if r.value ≤ 0 then .ok none
  else do
    let mem ← store [xmitlen.1, xmitlen.2] r.got
    readBody r.rest (ntohsAt mem).toNat malloc

/-! ## net_read -/

theorem netRead_data (b : UInt8) (seg : Bytes) (es : List Event) {len : Nat} (hl : 0 < len)
    (got : Bytes) :
    netRead (.data b seg :: es) len got =
      if (b :: seg).length < len then netRead es (len - (b :: seg).length) (got ++ b :: seg)
      else ⟨(got.length + len : Nat), got ++ (b :: seg).take len,
        segment ((b :: seg).drop len) ++ es⟩ := by
  have hne : (b :: seg).take len ≠ [] := by
    rw [ne_eq, List.take_eq_nil_iff]
    simp
    omega
  rw [netRead, readEvent]
  simp only [if_neg hne]
  by_cases hlt : (b :: seg).length < len
  · rw [List.take_of_length_le (by omega), if_pos hlt, if_pos hlt]
  · have hlen : ((b :: seg).take len).length = len := by
      rw [List.length_take]
      omega
    rw [hlen, if_neg (by omega), if_neg hlt, List.length_append, hlen]

theorem netRead_intr (es : List Event) {len : Nat} (hl : 0 < len) (got : Bytes) :
    netRead (.intr :: es) len got = netRead es len got := by
  rw [netRead, readEvent]
  simp only [if_pos hl]

/-- **Enough bytes.**  `net_read` takes exactly the `len` bytes it was asked for. -/
theorem netRead_enough (ds : List Event) (herr : .err ∉ ds) (len : Nat) (hl : 0 < len)
    (hlen : len ≤ (bytesOf ds).length) (tail : List Event) (got : Bytes) :
    ∃ rest, netRead (ds ++ tail) len got =
        ⟨(got.length + len : Nat), got ++ (bytesOf ds).take len, rest ++ tail⟩ ∧
      .err ∉ rest ∧ bytesOf rest = (bytesOf ds).drop len := by
  induction ds generalizing len got with
  | nil =>
    rw [bytesOf_nil, List.length_nil] at hlen
    omega
  | cons e ds ih =>
    rw [List.mem_cons, not_or] at herr
    rw [List.cons_append]
    cases e with
    | err => exact absurd rfl herr.1
    | intr =>
      rw [netRead_intr _ hl]
      exact ih herr.2 len hl hlen got
    | data b seg =>
      rw [bytesOf_cons, Event.bytes] at hlen ⊢
      rw [netRead_data b seg _ hl]
      split
      · next hlt =>
        obtain ⟨rest, hr, he, hb⟩ := ih herr.2 (len - (b :: seg).length) (by omega)
          (by rw [List.length_append] at hlen; omega) (got ++ b :: seg)
        have ht : (b :: seg).take len = b :: seg := List.take_of_length_le (by omega)
        have hd : (b :: seg).drop len = [] := List.drop_of_length_le (by omega)
        refine ⟨rest, ?_, he, ?_⟩
        · rw [hr, List.take_append, ht, List.append_assoc, List.length_append]
          congr 1
          omega
        · rw [hb, List.drop_append, hd, List.nil_append]
      · next hge =>
        refine ⟨segment ((b :: seg).drop len) ++ ds, ?_, ?_, ?_⟩
        · rw [List.take_append_of_le_length (by omega), List.append_assoc]
        · rw [List.mem_append, not_or]
          exact ⟨err_not_mem_segment _, herr.2⟩
        · rw [bytesOf_segment_append, List.drop_append_of_le_length (by omega)]

/-- **Too few bytes.**  All of them are stored, and the loop goes on with what comes
after them. -/
theorem netRead_short (ds : List Event) (herr : .err ∉ ds) (len : Nat)
    (hlen : (bytesOf ds).length < len) (tail : List Event) (got : Bytes) :
    netRead (ds ++ tail) len got =
      netRead tail (len - (bytesOf ds).length) (got ++ bytesOf ds) := by
  induction ds generalizing len got with
  | nil => simp
  | cons e ds ih =>
    rw [List.mem_cons, not_or] at herr
    rw [List.cons_append]
    cases e with
    | err => exact absurd rfl herr.1
    | intr =>
      rw [netRead_intr _ (by omega)]
      exact ih herr.2 len hlen got
    | data b seg =>
      rw [bytesOf_cons, Event.bytes, List.length_append] at hlen
      rw [netRead_data b seg _ (by omega), if_pos (by omega), ih herr.2 _ (by omega),
        bytesOf_cons, Event.bytes, List.length_append, List.append_assoc, Nat.sub_sub]

/-! ## Framing round trip -/

theorem gcks1Reply_eq (m : CString) (hm : m.bytes.length ≤ 8191) :
    gcks1Reply m = .ok (beBytes (UInt16.ofNat m.bytes.length) ++ m.bytes) := by
  have hbuf : repbuf m = .ok (m.bytes ++ List.replicate (8191 - m.bytes.length) 0 ++ [0]) := by
    rw [repbuf, CString.alloc, strncpy_append_nul m.bytes [] (bufsiz - 1) m.nul_free]
    show Except.ok _ = _
    rw [show bufsiz - 1 = 8191 from rfl, List.take_append, List.take_of_length_le hm,
      List.take_replicate, Nat.min_eq_left (by omega)]
  have hs : cstr (m.bytes ++ List.replicate (8191 - m.bytes.length) 0 ++ [0]) = .ok m.bytes := by
    rw [List.append_assoc, ← List.replicate_succ', List.replicate_succ]
    exact cstr_append_nul m.bytes _ m.nul_free
  simp only [gcks1Reply, hbuf, hs, bind, Except.bind, shortBytes_htons]
  rfl

theorem ntohsAt_beBytes (n : UInt16) (mem : Bytes) : ntohsAt (beBytes n ++ mem) = n :=
  htons_shortOf_beBytes n

/-- With the whole header there, sclient goes on to read as many bytes as the message
has. -/
theorem sclientReceive_of_header (n : UInt16) (ds : List Event) (herr : .err ∉ ds)
    {body : Bytes} (hb : bytesOf ds = beBytes n ++ body) (tail : List Event)
    (xmitlen : UInt8 × UInt8) (malloc : Malloc) :
    ∃ rest, .err ∉ rest ∧ bytesOf rest = body ∧
      sclientReceive (ds ++ tail) xmitlen malloc = readBody (rest ++ tail) n.toNat malloc := by
  have hbe : (beBytes n).length = 2 := rfl
  obtain ⟨rest, hr, he, hrest⟩ := netRead_enough ds herr 2 (by decide)
    (by rw [hb, List.length_append]; omega) tail []
  rw [hb, List.take_left' hbe, List.nil_append] at hr
  rw [hb, List.drop_left' hbe] at hrest
  refine ⟨rest, he, hrest, ?_⟩
  unfold sclientReceive
  simp only [hr]
  rw [if_neg (by decide), store_of_le (by rw [hbe]; exact Nat.le_refl _)]
  show readBody (rest ++ tail) (ntohsAt (beBytes n ++ _)).toNat malloc = _
  rw [ntohsAt_beBytes]

/-- A stored prefix and the NUL behind the message. -/
theorem storeByte_store (block got : Bytes) (n : Nat) (hb : block.length = n + 1)
    (hg : got.length ≤ n) :
    (store block got).bind (storeByte · n 0) =
      .ok (got ++ ((block.drop got.length).take (n - got.length) ++ [0])) := by
  rw [store_of_le (by omega)]
  show storeByte (got ++ block.drop got.length) n 0 = _
  have hd : (block.drop got.length).length = n - got.length + 1 := by
    rw [List.length_drop]
    omega
  rw [storeByte_of_lt (by rw [List.length_append]; omega), List.set_append_right _ _ hg]
  congr 2
  have := List.take_append_drop (n - got.length) (block.drop got.length)
  obtain ⟨x, hx⟩ := List.length_eq_one_iff.mp
    (show ((block.drop got.length).drop (n - got.length)).length = 1 by
      rw [List.length_drop]; omega)
  rw [hx] at this
  rw [← this, List.set_append_right _ _ (by rw [List.length_take]; omega),
    List.take_left' (by rw [List.length_take]; omega)]
  simp [List.length_take, hd]

/-- A body of which `k` bytes were stored is taken for the string up to the first NUL of
those bytes, the old content of the block and the NUL behind it. -/
theorem readBody_of_read (malloc : Malloc) {es rest : List Event} {got : Bytes} {length : Nat}
    {block : { block : Bytes // block.length = length + 1 }}
    (hr : netRead es length [] = ⟨got.length, got, rest⟩) (hg : got ≠ [])
    (hl : got.length ≤ length) (hm : malloc (length + 1) = some block) :
    readBody es length malloc =
      (cstr (got ++ ((block.val.drop got.length).take (length - got.length) ++ [0]))).map
        fun text => some ⟨length, text, rest⟩ := by
  have hpos := List.length_pos_iff.mpr hg
  have hs := storeByte_store block.val got length block.property hl
  simp only [readBody, hm, hr]
  rw [if_neg (by omega)]
  show (store block.val got).bind (fun data => (storeByte data length 0).bind _) = _
  cases h : store block.val got with
  | error f => rw [h] at hs; cases hs
  | ok data =>
    rw [h] at hs
    change storeByte data length 0 = _ at hs
    show (storeByte data length 0).bind _ = _
    rw [hs]
    show (cstr _).bind _ = _
    cases cstr (got ++ ((block.val.drop got.length).take (length - got.length) ++ [0])) <;> rfl

/-- A whole body is taken for the message. -/
theorem readBody_whole (m : CString) (h1 : 1 ≤ m.bytes.length) (ds : List Event)
    (herr : .err ∉ ds) {extra : Bytes} (hb : bytesOf ds = m.bytes ++ extra) (tail : List Event)
    (malloc : Malloc) :
    ∃ rest, bytesOf rest = extra ∧
      readBody (ds ++ tail) m.bytes.length malloc =
        if (malloc (m.bytes.length + 1)).isSome
        then .ok (some ⟨m.bytes.length, m.bytes, rest ++ tail⟩) else .ok none := by
  obtain ⟨rest, hr, -, hrest⟩ := netRead_enough ds herr m.bytes.length (by omega)
    (by rw [hb, List.length_append]; omega) tail []
  rw [hb, List.take_left' rfl, List.nil_append, List.length_nil, Nat.zero_add] at hr
  rw [hb, List.drop_left' rfl] at hrest
  refine ⟨rest, hrest, ?_⟩
  cases hm : malloc (m.bytes.length + 1) with
  | none =>
    unfold readBody
    rw [hm]
    rfl
  | some block =>
    rw [readBody_of_read _ hr (List.length_pos_iff.mp h1) (Nat.le_refl _) hm, Nat.sub_self,
      List.take_zero, List.nil_append, cstr_append_nul m.bytes [] m.nul_free]
    rfl

/-- **The framed reply is read back.**  For every message gcks1 can send and every way its
bytes arrive, retried calls included, sclient decodes its length, consumes exactly its
frame, stores inside the block, and authenticates the message itself. -/
theorem km1_framing (m : CString) (h1 : 1 ≤ m.bytes.length) (h2 : m.bytes.length ≤ 8191) :
    ∃ wire, gcks1Reply m = .ok wire ∧ wire.length = 2 + m.bytes.length ∧
      ∀ (es : List Event) (extra : Bytes) (xmitlen : UInt8 × UInt8) (malloc : Malloc),
        .err ∉ es → bytesOf es = wire ++ extra → (malloc (m.bytes.length + 1)).isSome = true →
        ∃ rest, sclientReceive es xmitlen malloc = .ok (some ⟨m.bytes.length, m.bytes, rest⟩) ∧
          bytesOf rest = extra := by
  have hn : (UInt16.ofNat m.bytes.length).toNat = m.bytes.length :=
    UInt16.toNat_ofNat_of_lt' (by show _ < 2 ^ 16; omega)
  refine ⟨_, gcks1Reply_eq m h2, ?_, ?_⟩
  · rw [List.length_append]
    rfl
  intro es extra xmitlen malloc herr hb hm
  rw [List.append_assoc] at hb
  obtain ⟨rest, he, hrest, hrecv⟩ :=
    sclientReceive_of_header _ es herr hb [] xmitlen malloc
  obtain ⟨rest', hrest', hbody⟩ := readBody_whole m h1 rest he hrest [] malloc
  rw [List.append_nil, hn, hbody, if_pos hm, List.append_nil] at hrecv
  exact ⟨rest', hrecv, hrest'⟩

/-- A reply that arrives in four pieces, around two interrupted calls. -/
theorem km1_framing_pieces :
    ∃ rest, sclientReceive [.data 0 [], .intr, .data 10 (ascii "mik"), .data 101 (ascii "y AA"),
        .intr, .data 65 (ascii "A")] (7, 7) zeros = .ok (some ⟨10, ascii "mikey AAAA", rest⟩) ∧
      bytesOf rest = [] := by
  obtain ⟨wire, hw, -, h⟩ := km1_framing ⟨ascii "mikey AAAA", by decide⟩ (by decide) (by decide)
  rw [gcks1Reply_eq _ (by decide)] at hw
  refine h _ [] (7, 7) zeros (by decide) ?_ rfl
  rw [← Except.ok.inj hw]
  decide

/-! ## Replies cut short -/

/-- How the connection ends after the bytes that arrive. -/
inductive Cut
  | eof
  | error
deriving DecidableEq

def Cut.events : Cut → List Event
  | .eof => []
  | .error => [.err]

/-- sclient authenticates the message, or exits before. -/
def FailStop (m : CString) : Except Fault (Option Reply) → Prop
  | .ok none => True
  | .ok (some reply) => reply.text = m.bytes
  | .error _ => False

/-- A body that ends before its first byte, or with an error, is refused. -/
theorem readBody_refused (ds : List Event) (herr : .err ∉ ds) (length : Nat) (malloc : Malloc)
    (cut : Cut) (hlen : (bytesOf ds).length < length) (h : cut = .error ∨ bytesOf ds = []) :
    readBody (ds ++ cut.events) length malloc = .ok none := by
  have hr : (netRead (ds ++ cut.events) length []).value ≤ 0 := by
    rw [netRead_short ds herr length hlen]
    cases cut with
    | error => exact (by decide : (-1 : Int) ≤ 0)
    | eof =>
      rcases h with h | h
      · cases h
      · rw [h]
        exact Int.le_refl 0
  unfold readBody
  split
  · rfl
  · simp only [if_pos hr]

/-- Closed after the first byte of the body, the connection has given a prefix of the
message; on a heap of zeros that prefix is what sclient authenticates. -/
theorem readBody_closed (ds : List Event) (herr : .err ∉ ds) {length : Nat}
    (hne : bytesOf ds ≠ []) (hlen : (bytesOf ds).length < length) (h0 : 0 ∉ bytesOf ds) :
    readBody (ds ++ Cut.eof.events) length zeros = .ok (some ⟨length, bytesOf ds, []⟩) := by
  have hr : netRead (ds ++ Cut.eof.events) length [] =
      ⟨(bytesOf ds).length, bytesOf ds, []⟩ := by
    rw [netRead_short ds herr length hlen]
    rfl
  rw [readBody_of_read zeros hr hne (by omega) rfl, List.drop_replicate, List.take_replicate,
    ← List.replicate_succ', List.replicate_succ, cstr_append_nul _ _ h0]
  rfl

/-- A header cut short is refused: the body read meets the end too. -/
theorem sclientReceive_short_header (ds : List Event) (herr : .err ∉ ds)
    (hlen : (bytesOf ds).length < 2) (xmitlen : UInt8 × UInt8) (malloc : Malloc) (cut : Cut) :
    sclientReceive (ds ++ cut.events) xmitlen malloc = .ok none := by
  have hr := netRead_short ds herr 2 hlen cut.events []
  unfold sclientReceive
  cases cut with
  | error =>
    have hv : (netRead (ds ++ Cut.error.events) 2 []).value = -1 := by
      rw [hr]
      rfl
    simp only [hv]
    rfl
  | eof =>
    have hv : netRead (ds ++ Cut.eof.events) 2 [] = ⟨(bytesOf ds).length, bytesOf ds, []⟩ := by
      rw [hr]
      rfl
    simp only [hv]
    split
    · rfl
    · rw [store_of_le (by show _ ≤ 2; omega)]
      show readBody [] (ntohsAt _).toNat malloc = _
      generalize (ntohsAt _).toNat = length
      unfold readBody
      split <;> rfl

/-- **When a truncated reply is refused.**  Whatever the variables and the heap held
before, sclient authenticates the whole message or exits, exactly when the connection
is not closed inside the body after its first byte. -/
theorem km1_fail_stop_iff (m : CString) (h1 : 1 ≤ m.bytes.length) (h2 : m.bytes.length ≤ 8191) :
    ∃ wire, gcks1Reply m = .ok wire ∧ wire.length = 2 + m.bytes.length ∧
      ∀ (k : Nat) (ds : List Event) (cut : Cut), k ≤ wire.length → .err ∉ ds →
        bytesOf ds = wire.take k →
        ((∀ (xmitlen : UInt8 × UInt8) (malloc : Malloc),
            FailStop m (sclientReceive (ds ++ cut.events) xmitlen malloc)) ↔
          ¬ (cut = .eof ∧ 2 < k ∧ k < wire.length)) := by
  have hn : (UInt16.ofNat m.bytes.length).toNat = m.bytes.length :=
    UInt16.toNat_ofNat_of_lt' (by show _ < 2 ^ 16; omega)
  have hbe : (beBytes (UInt16.ofNat m.bytes.length)).length = 2 := rfl
  have hwire : (beBytes (UInt16.ofNat m.bytes.length) ++ m.bytes).length = 2 + m.bytes.length := by
    rw [List.length_append, hbe]
  refine ⟨_, gcks1Reply_eq m h2, hwire, ?_⟩
  intro k ds cut hk herr hb
  rw [hwire] at hk ⊢
  by_cases hk2 : k < 2
  · -- inside the header
    refine iff_of_true ?_ (by omega)
    intro xmitlen malloc
    rw [sclientReceive_short_header ds herr (by rw [hb, List.length_take]; omega)]
    trivial
  rw [List.take_append, List.take_of_length_le (by omega), hbe] at hb
  have hbody : (m.bytes.take (k - 2)).length = k - 2 := by
    rw [List.length_take]
    omega
  by_cases hfull : k = 2 + m.bytes.length
  · -- the whole reply
    refine iff_of_true ?_ (by omega)
    intro xmitlen malloc
    obtain ⟨rest, he, hrest, hrecv⟩ :=
      sclientReceive_of_header _ ds herr hb cut.events xmitlen malloc
    rw [List.take_of_length_le (by omega), ← List.append_nil m.bytes] at hrest
    obtain ⟨rest', -, hread⟩ := readBody_whole m h1 rest he hrest cut.events malloc
    rw [hrecv, hn, hread]
    split
    · rfl
    · trivial
  by_cases hcut : cut = .error ∨ k = 2
  · -- an error, or the end right after the header
    refine iff_of_true ?_ (by rcases hcut with rfl | rfl <;> simp)
    intro xmitlen malloc
    obtain ⟨rest, he, hrest, hrecv⟩ :=
      sclientReceive_of_header _ ds herr hb cut.events xmitlen malloc
    rw [hrecv, hn, readBody_refused rest he _ malloc cut (by rw [hrest, hbody]; omega)
      (hcut.imp_right fun h => by rw [hrest, h]; rfl)]
    trivial
  · -- the end of file inside the body: an empty heap shows a prefix of the message
    rw [not_or] at hcut
    have heof : cut = .eof := by
      cases cut with
      | eof => rfl
      | error => exact absurd rfl hcut.1
    subst heof
    refine iff_of_false ?_ (not_not_intro ⟨rfl, by omega, by omega⟩)
    intro hall
    obtain ⟨rest, he, hrest, hrecv⟩ :=
      sclientReceive_of_header _ ds herr hb Cut.eof.events (0, 0) zeros
    rw [← hrest] at hbody
    have hfs := hall (0, 0) zeros
    rw [hrecv, hn, readBody_closed rest he (List.length_pos_iff.mp (by omega)) (by omega)
      (by rw [hrest]; exact fun h => m.nul_free (List.mem_of_mem_take h))] at hfs
    have hlen := congrArg List.length (show bytesOf rest = m.bytes from hfs)
    omega

/-- The connection is closed after three bytes of the body. -/
theorem km1_truncated_reply :
    sclientReceive ([.data 0 [10], .data 109 (ascii "ik")] ++ Cut.eof.events) (0, 0) zeros =
        .ok (some ⟨10, ascii "mik", []⟩) ∧
      ¬ FailStop ⟨ascii "mikey AAAA", by decide⟩
        (sclientReceive ([.data 0 [10], .data 109 (ascii "ik")] ++ Cut.eof.events) (0, 0)
          zeros) := by
  have h : sclientReceive ([.data 0 [10], .data 109 (ascii "ik")] ++ Cut.eof.events) (0, 0) zeros =
      .ok (some ⟨10, ascii "mik", []⟩) := by
    decide
  refine ⟨h, ?_⟩
  rw [h]
  show ¬ ascii "mik" = ascii "mikey AAAA"
  decide

/-- The same reply with a read error in place of the end of file. -/
theorem km1_fail_stop_error :
    FailStop ⟨ascii "mikey AAAA", by decide⟩ (sclientReceive
      ([.data 0 [10], .data 109 (ascii "ik")] ++ Cut.error.events) (0, 0) zeros) := by
  obtain ⟨wire, hw, -, h⟩ :=
    km1_fail_stop_iff ⟨ascii "mikey AAAA", by decide⟩ (by decide) (by decide)
  rw [gcks1Reply_eq _ (by decide)] at hw
  have hw := Except.ok.inj hw
  refine (h 5 [.data 0 [10], .data 109 (ascii "ik")] .error ?_ (by decide) ?_).mpr (by simp)
    (0, 0) zeros
  · rw [← hw]
    decide
  · rw [← hw]
    decide

end KerberizedMikey
