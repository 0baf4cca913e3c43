import KerberizedMikey.Kdc.GcksReq
import KerberizedMikey.Gcks2
import KerberizedMikey.PlainMikey

/-!
# connInfo from the KDC to the key server

`connInfoTransfer` runs a formatted `connInfo` through libmikey's extension payload,
`setOffer` and `parse_conn_info`.  All of it amounts to parsing the formatted text,
cut to 1023 bytes (`connInfoTransfer_eq`), whose closed fields are a prefix of

    fields cname ++ fields addr ++ [port] ++ fields sname        (termFields_connInfoText)

So the four fields come out exactly when none of the names is empty or holds a `|`
and nothing is cut (`connInfo_round_trip`), and the key server contacts the address
the KDC saw only when the client's name has one field (`destination_iff`).
-/

namespace KerberizedMikey

open CLib

/-! ## The formatted text -/

theorem bar_not_mem_fmtInt (z : Int) : bar ∉ fmtInt z := not_mem_fmtInt (by decide) (by decide)

theorem fields_fmtInt (z : Int) : fields bar (fmtInt z) = [fmtInt z] :=
  fields_of_not_mem bar _ (bar_not_mem_fmtInt z) (fmtInt_ne_nil z)

/-- **The closed fields of the formatted text.**  A name with separators gives
several fields, an empty one gives none. -/
theorem termFields_connInfoText (cname addr : Bytes) (port : Int32) (sname : Bytes) :
    termFields bar (connInfoText cname addr port sname) =
      fields bar cname ++ (fields bar addr ++ (fmtInt port.toInt :: fields bar sname)) := by
  unfold connInfoText
  rw [termFields_append_cons, termFields_append_cons, termFields_append_cons, fields_fmtInt,
    termFields_append_cons, termFields_of_not_mem bar [] (by simp), List.append_nil]
  rfl

/-- The text before its last separator. -/
theorem connInfoText_eq_concat (cname addr : Bytes) (port : Int32) (sname : Bytes) :
    ∃ pre, connInfoText cname addr port sname = pre ++ [bar] ∧
      pre.count bar = cname.count bar + addr.count bar + sname.count bar + 3 := by
  refine ⟨cname ++ bar :: (addr ++ bar :: (fmtInt port.toInt ++ bar :: sname)), ?_, ?_⟩
  · simp [connInfoText]
  · have hp := List.count_eq_zero_of_not_mem (bar_not_mem_fmtInt port.toInt)
    simp only [List.count_append, List.count_cons_self, hp]
    omega

/-- A cut text loses its last separator. -/
theorem length_termFields_take (cname addr : Bytes) (port : Int32) (sname : Bytes) (n : Nat)
    (hn : n < (connInfoText cname addr port sname).length) :
    (termFields bar ((connInfoText cname addr port sname).take n)).length ≤
      cname.count bar + addr.count bar + sname.count bar + 3 := by
  obtain ⟨pre, he, hc⟩ := connInfoText_eq_concat cname addr port sname
  rw [he] at hn ⊢
  rw [List.length_append, List.length_singleton] at hn
  rw [List.take_append_of_le_length (by omega)]
  calc (termFields bar (pre.take n)).length ≤ (pre.take n).count bar :=
        length_termFields_le_count bar _
    _ ≤ pre.count bar := (List.take_sublist n pre).count_le bar
    _ = _ := hc

/-- The text of three proper fields is parsed back. -/
theorem parseConnInfo_connInfoText {cname addr sname : Bytes} (port : Int32)
    (olds : Option Bytes) (hc : cname ≠ [] ∧ bar ∉ cname) (ha : addr ≠ [] ∧ bar ∉ addr)
    (hs : sname ≠ [] ∧ bar ∉ sname) (h0 : 0 ∉ connInfoText cname addr port sname) :
    ∃ olds', parseConnInfo (some (connInfoText cname addr port sname)) olds =
      .ok (⟨some cname, some addr, some sname, port⟩, olds') := by
  have hf := termFields_connInfoText cname addr port sname
  rw [fields_of_not_mem bar _ hc.2 hc.1, fields_of_not_mem bar _ ha.2 ha.1,
    fields_of_not_mem bar _ hs.2 hs.1] at hf
  rcases parseConnInfo_spec _ h0 olds with ⟨n, a, q, g, more, r, hf', hp⟩ | ⟨hlt, -⟩
  · rw [hf] at hf'
    obtain ⟨rfl, rfl, rfl, rfl, -⟩ : cname = n ∧ addr = a ∧ fmtInt port.toInt = q ∧
        sname = g ∧ _ := by simpa using hf'
    exact ⟨some r, by rw [hp, atoi_fmtInt]⟩
  · rw [hf] at hlt
    simp at hlt

/-! ## The transfer -/

/-- From the formatted `connInfo[1024]` to `conn_info`: extension payload with `leng =
strlen(connInfo)`, on the wire before `rest`, decoded, copied by `setOffer`, parsed. -/
def connInfoTransfer (next : UInt8) (stack : Bytes) (cname sname : CString) (addr : Bytes)
    (port : UInt32) (tgk rest : Bytes) (olds : Option Bytes) :
    Except Fault (ClientConnInfo × Option Bytes) := do
  let ext ← connInfoPayload next
    (connInfoBuffer stack (some cname) (some sname) addr port.toInt32)
  let m ← parseExtension ⟨tgk, some (ext ++ rest)⟩
  let ka ← setMikeyOffer { psk := [] } (some m)
  parseConnInfo ka.connInfo olds

section
variable (next : UInt8) (stack : Bytes) (cname sname : CString) (port : UInt32)
  (tgk rest : Bytes) (olds : Option Bytes)

/-- **Only the formatted text matters.** -/
theorem connInfoTransfer_eq (addr : Bytes) (ha : 0 ∉ addr) :
    connInfoTransfer next stack cname sname addr port tgk rest olds =
      parseConnInfo (some ((connInfoText cname.bytes addr port.toInt32 sname.bytes).take 1023))
        olds := by
  have hlen : ((connInfoText cname.bytes addr port.toInt32 sname.bytes).take 1023).length <
      2 ^ 16 := by
    rw [List.length_take]
    omega
  obtain ⟨ext, he, -, hext⟩ := setMikeyOffer_connInfoPayload next
    (cstr_connInfoBuffer stack cname sname addr port.toInt32 ha) hlen
  obtain ⟨m, hm, hk⟩ := hext { psk := [] } tgk rest
  simp only [connInfoTransfer, he, hm, hk, bind, Except.bind]

/-- Names that come out of a text as fields were proper names, and were not cut. -/
theorem proper_of_termFields {cname addr sname q : Bytes} {more : List Bytes} (port : Int32)
    (hf : termFields bar ((connInfoText cname addr port sname).take 1023) =
      cname :: addr :: q :: sname :: more) :
    (cname ≠ [] ∧ bar ∉ cname) ∧ (addr ≠ [] ∧ bar ∉ addr) ∧ (sname ≠ [] ∧ bar ∉ sname) ∧
      (connInfoText cname addr port sname).length ≤ 1023 := by
  have hmem : ∀ t ∈ cname :: addr :: q :: sname :: more, t ≠ [] ∧ bar ∉ t := by
    intro t ht
    rw [← hf] at ht
    have ht := mem_fields_of_mem_termFields bar ht
    exact ⟨ne_nil_of_mem_fields bar ht, not_mem_of_mem_fields bar ht⟩
  have hc := hmem cname (by simp)
  have ha := hmem addr (by simp)
  have hs := hmem sname (by simp)
  refine ⟨hc, ha, hs, ?_⟩
  -- a cut text has three separators left, not four
  by_contra hlen
  have hle := length_termFields_take cname addr port sname 1023 (by omega)
  rw [hf, List.count_eq_zero_of_not_mem hc.2, List.count_eq_zero_of_not_mem ha.2,
    List.count_eq_zero_of_not_mem hs.2] at hle
  simp only [List.length_cons] at hle
  omega

/-- **connInfo round trip.**  The key server reads back the name, address, port and
group of the KDC, without a NULL token or a read past the extension's copy, exactly
when the three strings are non-empty, hold no `|`, and the formatted text fits. -/
theorem connInfo_round_trip (addr : CString) :
    (∃ olds', connInfoTransfer next stack cname sname addr.bytes port tgk rest olds =
      .ok (⟨some cname.bytes, some addr.bytes, some sname.bytes, port.toInt32⟩, olds')) ↔
    (cname.bytes ≠ [] ∧ bar ∉ cname.bytes) ∧ (addr.bytes ≠ [] ∧ bar ∉ addr.bytes) ∧
      (sname.bytes ≠ [] ∧ bar ∉ sname.bytes) ∧
      (connInfoText cname.bytes addr.bytes port.toInt32 sname.bytes).length ≤ 1023 := by
  rw [connInfoTransfer_eq next stack cname sname port tgk rest olds addr.bytes addr.nul_free]
  have h0 : 0 ∉ connInfoText cname.bytes addr.bytes port.toInt32 sname.bytes :=
    not_mem_connInfoText cname.nul_free addr.nul_free sname.nul_free
  constructor
  · rintro ⟨olds', h⟩
    rcases parseConnInfo_spec _ (fun hz => h0 (List.mem_of_mem_take hz)) olds with
      ⟨n, a, q, g, more, r, hf, hp⟩ | ⟨-, hp⟩
    · rw [hp] at h
      have h : (n = cname.bytes ∧ a = addr.bytes ∧ g = sname.bytes ∧ atoi q = port.toInt32) ∧
          some r = olds' := by simpa using h
      obtain ⟨rfl, rfl, rfl, -⟩ := h.1
      exact proper_of_termFields port.toInt32 hf
    · rw [hp] at h
      cases h
  · rintro ⟨hc, ha, hs, hlen⟩
    rw [List.take_of_length_le hlen]
    obtain ⟨olds', h⟩ := parseConnInfo_connInfoText port.toInt32 olds hc ha hs h0
    exact ⟨olds', h⟩

/-! ## Where the key message goes -/

/-- The host string that gcks2 gives `gethostbyname` for a request the KDC saw from
the address `a`. -/
def contactedHost {ρ : Type} (L : LibMikey ρ) (r : ρ) (a : InetAddr) : Except Fault Bytes := do
  let (connInfo, _) ← connInfoTransfer L.nextPayloadType stack cname sname (fromString (some a))
    port tgk rest olds
  let m ← clientMessage L r connInfo.clientName connInfo.clientAddr (some tgk)
  return m.host

/-- The second closed field of the text decides the host, if `client_addr` holds it. -/
theorem contactedHost_eq {ρ : Type} (L : LibMikey ρ) (r : ρ) (a : InetAddr) :
    (∃ n h q g more,
      termFields bar ((connInfoText cname.bytes (inetText a) port.toInt32 sname.bytes).take 1023) =
        n :: h :: q :: g :: more ∧
      contactedHost stack cname sname port tgk rest olds L r a =
        if h.length < 30 then .ok h else .error .overRead) ∨
    ((termFields bar
        ((connInfoText cname.bytes (inetText a) port.toInt32 sname.bytes).take 1023)).length < 4 ∧
      contactedHost stack cname sname port tgk rest olds L r a = .error .overRead) := by
  have ha0 : (0 : UInt8) ∉ inetText a := not_mem_inetText a (by decide)
  unfold contactedHost
  rw [fromString_some, connInfoTransfer_eq _ stack cname sname port tgk rest olds _ ha0]
  generalize hT : connInfoText cname.bytes (inetText a) port.toInt32 sname.bytes = T
  have h0 : 0 ∉ T.take 1023 := by
    intro h
    subst hT
    exact not_mem_connInfoText cname.nul_free ha0 sname.nul_free (List.mem_of_mem_take h)
  rcases parseConnInfo_spec (T.take 1023) h0 olds with ⟨n, h, q, g, more, r', hf, hp⟩ | ⟨hlt, hp⟩
  · refine .inl ⟨n, h, q, g, more, hf, ?_⟩
    have hsub : ∀ t ∈ termFields bar (T.take 1023), 0 ∉ t ∧ t.length < 2048 := by
      intro t ht
      have hs := sublist_of_mem_fields bar (mem_fields_of_mem_termFields bar ht)
      have hl := hs.length_le
      rw [List.length_take] at hl
      exact ⟨fun hz => h0 (hs.subset hz), by omega⟩
    obtain ⟨hn0, hnl⟩ := hsub n (by simp [hf])
    obtain ⟨hh0, -⟩ := hsub h (by simp [hf])
    rw [hp]
    obtain ⟨text, hm⟩ := clientMessage_eq L r n h tgk hn0 hh0 hnl
    show (clientMessage L r (some n) (some h) (some tgk)).bind _ = _
    rw [hm]
    by_cases hlen : h.length < 30
    · rw [if_pos hlen, if_pos hlen]
      rfl
    · rw [if_neg hlen, if_neg hlen]
      rfl
  · refine .inr ⟨hlt, ?_⟩
    rw [hp]
    rfl

/-- The conditions on a request under which its key message goes to the observed
address: the address text fits `client_addr`, the client's name does not bring an
address of its own, and four closed fields are left by the cut to 1023 bytes. -/
def DestinationKept (a : InetAddr) : Prop :=
  (inetText a).length < 30 ∧
  ((fields bar cname.bytes).length = 1 ∨ (fields bar cname.bytes)[1]? = some (inetText a)) ∧
  4 ≤ (termFields bar
    ((connInfoText cname.bytes (inetText a) port.toInt32 sname.bytes).take 1023)).length

/-- The second closed field is the address exactly when the client's name does not put
something else before it. -/
theorem second_field_eq_iff {cname addr sname h n : Bytes} {l : List Bytes} {port : Int32}
    (haddr : addr ≠ [] ∧ bar ∉ addr) (hport : addr ≠ fmtInt port.toInt)
    (hpre : n :: h :: l <+: termFields bar (connInfoText cname addr port sname)) :
    h = addr ↔ (fields bar cname).length = 1 ∨ (fields bar cname)[1]? = some addr := by
  rw [termFields_connInfoText, fields_of_not_mem bar _ haddr.2 haddr.1] at hpre
  have hsnd : (fields bar cname ++ ([addr] ++ fmtInt port.toInt :: fields bar sname))[1]? =
      some h := by
    obtain ⟨t, ht⟩ := hpre
    rw [← ht]
    rfl
  match hc : fields bar cname with
  | [] =>
    rw [hc] at hsnd
    have hq : fmtInt port.toInt = h := Option.some.inj hsnd
    simp [← hq, Ne.symm hport]
  | [x] =>
    rw [hc] at hsnd
    have hq : addr = h := Option.some.inj hsnd
    simp [hq]
  | x :: y :: l =>
    rw [hc] at hsnd
    have hq : y = h := Option.some.inj hsnd
    simp [hq]

/-- **Destination integrity, exactly.** -/
theorem destination_iff {ρ : Type} (L : LibMikey ρ) (r : ρ) (a : InetAddr) :
    contactedHost stack cname sname port tgk rest olds L r a = .ok (inetText a) ↔
      DestinationKept cname sname port a := by
  rcases contactedHost_eq stack cname sname port tgk rest olds L r a with
    ⟨n, h, q, g, more, hf, he⟩ | ⟨hlt, he⟩
  · have hpre := termFields_take_prefix bar
      (connInfoText cname.bytes (inetText a) port.toInt32 sname.bytes) 1023
    rw [hf] at hpre
    have hiff := second_field_eq_iff ⟨inetText_ne_nil a, not_mem_inetText a (by decide)⟩
      (inetText_ne_fmtInt a port.toInt32.toInt) hpre
    rw [he, DestinationKept, hf, ← hiff]
    constructor
    · intro hk
      split at hk
      · next hlen =>
        cases hk
        exact ⟨hlen, rfl, by simp⟩
      · cases hk
    · rintro ⟨hlen, rfl, -⟩
      rw [if_pos hlen]
  · rw [he]
    constructor
    · intro hk
      cases hk
    · intro hk
      have := hk.2.2
      omega

/-- The host when the fields are known. -/
theorem contactedHost_of_fields {ρ : Type} (L : LibMikey ρ) (r : ρ) (a : InetAddr)
    {n h q g : Bytes} {more : List Bytes}
    (hf : termFields bar ((connInfoText cname.bytes (inetText a) port.toInt32 sname.bytes).take
      1023) = n :: h :: q :: g :: more) :
    contactedHost stack cname sname port tgk rest olds L r a =
      if h.length < 30 then .ok h else .error .overRead := by
  rcases contactedHost_eq stack cname sname port tgk rest olds L r a with
    ⟨n', h', q', g', more', hf', he⟩ | ⟨hlt, -⟩
  · rw [hf] at hf'
    obtain ⟨-, rfl, -⟩ := List.cons.inj hf' |>.imp_right List.cons.inj
    exact he
  · rw [hf] at hlt
    simp only [List.length_cons] at hlt
    omega

end

/-- A client names the host of its key message; another one at the same address is
served there, and a long IPv6 address is read past `client_addr`. -/
theorem destination_from_name :
    let loopback : InetAddr := .inet ![127, 0, 0, 1]
    let group : CString := ⟨ascii "group1/multicast@LOCALHOST", by decide⟩
    let alice : CString := ⟨ascii "alice@LOCALHOST", by decide⟩
    let eve : CString := ⟨ascii "eve|10.6.6.6|@LOCALHOST", by decide⟩
    let long : InetAddr := .inet6 ![0x20, 1, 0xd, 0xb8, 0x85, 0xa3, 0x12, 0x34, 0x56, 0x78, 0x8a,
      0x2e, 0x13, 0x70, 0x73, 0x34]
    let host := fun cname a => contactedHost (calloc 1024) cname group 40000 [1, 2, 3] [] none
      plainMikey [9] a
    inetText loopback = ascii "127.0.0.1" ∧
    host alice loopback = .ok (ascii "127.0.0.1") ∧
    host eve loopback = .ok (ascii "10.6.6.6") ∧
    host eve loopback ≠ .ok (inetText loopback) ∧
    host eve loopback ≠ host alice loopback ∧
    host alice long = .error .overRead := by
  intro loopback group alice eve long host
  have hloop : inetText loopback = ascii "127.0.0.1" := by decide
  have halice : host alice loopback = .ok (ascii "127.0.0.1") :=
    contactedHost_of_fields _ _ _ _ _ _ _ _ _ loopback
      (show termFields bar _ = ascii "alice@LOCALHOST" :: ascii "127.0.0.1" :: ascii "40000" ::
        ascii "group1/multicast@LOCALHOST" :: [] by decide)
  have heve : host eve loopback = .ok (ascii "10.6.6.6") :=
    contactedHost_of_fields _ _ _ _ _ _ _ _ _ loopback
      (show termFields bar _ = ascii "eve" :: ascii "10.6.6.6" :: ascii "@LOCALHOST" ::
        ascii "127.0.0.1" :: [ascii "40000", ascii "group1/multicast@LOCALHOST"] by decide)
  have hlong : host alice long = .error .overRead :=
    contactedHost_of_fields _ _ _ _ _ _ _ _ _ long
      (show termFields bar _ = ascii "alice@LOCALHOST" ::
        ascii "2001:db8:85a3:1234:5678:8a2e:1370:7334" :: ascii "40000" ::
        ascii "group1/multicast@LOCALHOST" :: [] by decide)
  refine ⟨hloop, halice, heve, ?_, ?_, hlong⟩
  · rw [heve, hloop]
    decide
  · rw [heve, halice]
    decide

end KerberizedMikey
