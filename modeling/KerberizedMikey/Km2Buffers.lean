import KerberizedMikey.Gcks2
import KerberizedMikey.PlainMikey
import KerberizedMikey.Km2Transport

/-!
# The fixed buffers of model 2

    gcks2     recv_data[BUFSIZ]   recv of BUFSIZ - 1, then a NUL
    sclient2  recv_data[1024]     recv of 2048, then a NUL
    gcks2     peerUri[2048]       strncpy of 2048
              client_addr[30]     strncpy of 30

A receive is in bounds exactly when `recv` returns fewer bytes than the buffer has
(`recvString_ok_iff`); a copy is terminated exactly when the text is shorter than its
array (`terminated_iff`).
-/

namespace KerberizedMikey

open CLib

/-! ## The receives -/

/-- **Data and NUL inside the buffer.**  A return value of -1 is an index too. -/
theorem recvString_ok_iff (buf : Bytes) (n : Nat) (es : List Event) :
    (∃ text, recvString buf n es = .ok text) ↔
      ∃ bs, (sysRead n es).1 = .bytes bs ∧ bs.length < buf.length := by
  constructor
  · rintro ⟨text, h⟩
    cases hr : (sysRead n es).1 with
    | bytes bs =>
      refine ⟨bs, rfl, ?_⟩
      by_contra hlen
      simp only [recvString, hr, bind, Except.bind] at h
      rcases Nat.lt_or_eq_of_le (Nat.le_of_not_lt hlen) with hgt | heq
      · rw [store_of_gt hgt] at h
        cases h
      · -- the data fills the buffer, the NUL is behind it
        have hfull : (bs ++ buf.drop bs.length).length ≤ bs.length := by simp [heq]
        rw [store_of_le (by omega)] at h
        simp only [storeByte_of_ge hfull] at h
        cases h
    | intr =>
      rw [recvString, hr] at h
      cases h
    | err =>
      rw [recvString, hr] at h
      cases h
  · rintro ⟨bs, hr, hlen⟩
    obtain ⟨rest, hrest⟩ := recvString_of_lt hr hlen
    rw [hrest]
    exact (cstr_ok_iff _).mpr (by simp)

/-- gcks2 asks for one byte less than it has: only a failed `recv` leaves the buffer. -/
theorem gcks2Recv_ok_iff (es : List Event) :
    (∃ text, gcks2Recv es = .ok text) ↔ ∃ bs, (sysRead (bufsiz - 1) es).1 = .bytes bs := by
  unfold gcks2Recv
  rw [recvString_ok_iff, List.length_replicate]
  constructor
  · rintro ⟨bs, hr, -⟩
    exact ⟨bs, hr⟩
  · rintro ⟨bs, hr⟩
    have hle := length_le_of_sysRead hr
    have hpos : 0 < bufsiz := by decide
    exact ⟨bs, hr, by omega⟩

/-! ## The copies -/

/-- `strncpy(dst, s, n)` into an array of `n` bytes is a string exactly when `s` fits. -/
theorem terminated_iff (s : Bytes) (n : Nat) (h : 0 ∉ s) :
    (∃ text, (strncpy (s ++ [0]) n).bind cstr = .ok text) ↔ s.length < n := by
  obtain ⟨dst, hd, hc⟩ := cstr_strncpy s [] n h
  rw [hd]
  show (∃ text, cstr dst = .ok text) ↔ _
  rw [hc]
  by_cases hn : s.length < n
  · rw [if_pos hn]
    exact iff_of_true ⟨s, rfl⟩ hn
  · rw [if_neg hn]
    exact iff_of_false (by rintro ⟨text, ht⟩; cases ht) hn

/-- The names are tokens of a string. -/
theorem parseConnInfo_names {connInfo olds olds' : Option Bytes} {v : ClientConnInfo}
    (h : parseConnInfo connInfo olds = .ok (v, olds')) :
    ∃ n a, v.clientName = some n ∧ v.clientAddr = some a ∧ 0 ∉ n ∧ 0 ∉ a := by
  cases hp : connInfo.or olds with
  | none =>
    rw [Option.or_eq_none_iff] at hp
    rw [hp.1, hp.2] at h
    cases h
  | some p =>
    rcases parseConnInfo_tokens connInfo olds p hp with ⟨n, a, q, g, r, ht, he⟩ | ⟨-, he⟩
    · rw [he] at h
      cases h
      have hn : n ∈ tokens bar p := by simp [ht]
      have ha : a ∈ tokens bar p := by simp [ht]
      exact ⟨n, a, rfl, rfl, nul_not_mem_of_mem_tokens hn, nul_not_mem_of_mem_tokens ha⟩
    · rw [he] at h
      cases h

section
variable {ρ : Type} (L : LibMikey ρ) (r : ρ)

/-- **`send_mikey_message` reads strings** exactly when both names fit their arrays. -/
theorem clientMessage_ok_iff (n a key : Bytes) (hn0 : 0 ∉ n) (ha0 : 0 ∉ a) :
    (∃ m, clientMessage L r (some n) (some a) (some key) = .ok m) ↔
      n.length < 2048 ∧ a.length < 30 := by
  by_cases hn : n.length < 2048
  · obtain ⟨text, hm⟩ := clientMessage_eq L r n a key hn0 ha0 hn
    rw [hm]
    by_cases ha : a.length < 30
    · rw [if_pos ha]
      exact iff_of_true ⟨_, rfl⟩ ⟨hn, ha⟩
    · rw [if_neg ha]
      exact iff_of_false (by rintro ⟨m, hm⟩; cases hm) fun h => ha h.2
  · obtain ⟨peerUri, h1, hp⟩ := cstr_strncpy n [] 2048 hn0
    obtain ⟨clientAddr, h2, -⟩ := cstr_strncpy a [] 30 ha0
    rw [if_neg hn] at hp
    have hm : clientMessage L r (some n) (some a) (some key) = .error .overRead := by
      simp only [clientMessage, deref, h1, h2, hp, bind, Except.bind]
    rw [hm]
    exact iff_of_false (by rintro ⟨m, hm⟩; cases hm) fun h => hn h.1

/-- **When the buffers hold.**  The receives, for everything a peer sends and `recv`
returns; the copies, for all names that `parse_conn_info` finds. -/
theorem km2_buffers_iff :
    (∀ es, (∃ text, gcks2Recv es = .ok text) ↔
      ∃ bs, (sysRead (bufsiz - 1) es).1 = .bytes bs) ∧
    (∀ recvData es, recvData.length = 1024 → ((∃ text, sclient2Recv recvData es = .ok text) ↔
      ∃ bs, (sysRead 2048 es).1 = .bytes bs ∧ bs.length < 1024)) ∧
    ∀ connInfo olds v olds' key, parseConnInfo connInfo olds = .ok (v, olds') →
      ∃ name addr, v.clientName = some name ∧ v.clientAddr = some addr ∧
        ((∃ text, (strncpy (name ++ [0]) 2048).bind cstr = .ok text) ↔ name.length < 2048) ∧
        ((∃ text, (strncpy (addr ++ [0]) 30).bind cstr = .ok text) ↔ addr.length < 30) ∧
        ((∃ m, clientMessage L r v.clientName v.clientAddr (some key) = .ok m) ↔
          name.length < 2048 ∧ addr.length < 30) := by
  refine ⟨gcks2Recv_ok_iff, ?_, ?_⟩
  · intro recvData es hlen
    rw [← hlen]
    exact recvString_ok_iff recvData 2048 es
  · intro connInfo olds v olds' key h
    obtain ⟨name, addr, hn, ha, hn0, ha0⟩ := parseConnInfo_names h
    refine ⟨name, addr, hn, ha, terminated_iff name 2048 hn0, terminated_iff addr 30 ha0, ?_⟩
    rw [hn, ha]
    exact clientMessage_ok_iff L r name addr key hn0 ha0

end

/-- A whole reply at the client, and a request of alice at the key server. -/
theorem km2_buffers_hold :
    (∃ text, sclient2Recv (List.replicate 1024 85) (segment (ascii "mikey AAAA")) = .ok text) ∧
    ∃ v olds, parseConnInfo (some (ascii "alice|10.0.0.7|4001|group1" ++ [0])) none =
        .ok (v, olds) ∧
      ∃ m, clientMessage plainMikey [9] v.clientName v.clientAddr (some [1]) = .ok m := by
  obtain ⟨-, hs, hc⟩ := km2_buffers_iff plainMikey [9]
  refine ⟨(hs _ _ (List.length_replicate)).mpr ⟨ascii "mikey AAAA", rfl, by decide⟩, ?_⟩
  have hp : parseConnInfo (some (ascii "alice|10.0.0.7|4001|group1" ++ [0])) none =
      .ok (⟨some (ascii "alice"), some (ascii "10.0.0.7"), some (ascii "group1"), 4001⟩,
        some [0]) := by decide
  obtain ⟨name, addr, hn, ha, -, -, h⟩ := hc _ _ _ _ [1] hp
  cases hn
  cases ha
  exact ⟨_, _, hp, h.mpr ⟨by decide, by decide⟩⟩

/-- A failed `recv` at either receiver, 1024 bytes at the client, an IPv6 address. -/
theorem km2_buffers_overrun :
    gcks2Recv [.err] = .error .overWrite ∧
    sclient2Recv (List.replicate 1024 85) [.err] = .error .overWrite ∧
    (¬ ∃ text, sclient2Recv (List.replicate 1024 85) (segment (List.replicate 1024 65)) =
      .ok text) ∧
    ∃ v olds, parseConnInfo
        (some (ascii "alice|2001:db8:85a3:1234:5678:8a2e:1370:7334|4001|group1" ++ [0])) none =
          .ok (v, olds) ∧
      ¬ ∃ m, clientMessage plainMikey [9] v.clientName v.clientAddr (some [1]) = .ok m := by
  refine ⟨rfl, rfl, ?_, ?_⟩
  · rintro h
    obtain ⟨bs, hr, hlen⟩ := (recvString_ok_iff _ 2048 _).mp h
    have hbs : bs = List.replicate 1024 65 := by
      have : (sysRead 2048 (segment (List.replicate 1024 65))).1 =
          .bytes ((List.replicate 1024 65).take 2048) := rfl
      rw [this, List.take_of_length_le (by rw [List.length_replicate]; decide)] at hr
      exact (ReadResult.bytes.inj hr).symm
    rw [hbs, List.length_replicate, List.length_replicate] at hlen
    exact absurd hlen (Nat.lt_irrefl _)
  · refine ⟨⟨some (ascii "alice"), some (ascii "2001:db8:85a3:1234:5678:8a2e:1370:7334"),
      some (ascii "group1"), 4001⟩, some [0], by decide, ?_⟩
    intro h
    have := (clientMessage_ok_iff plainMikey [9] _ _ [1] (by decide) (by decide)).mp h
    exact absurd this.2 (by decide)

end KerberizedMikey
