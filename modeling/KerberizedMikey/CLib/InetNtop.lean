import KerberizedMikey.CLib.Decimal
import Mathlib.Data.Fin.VecNotation
import Mathlib.Data.List.OfFn

/-!
# `inet_ntop`

The text of an IPv4 or IPv6 address, as the C library writes it: dotted decimal,
or eight hexadecimal words with the first longest run of at least two zero words
shortened to `::` and the last two words dotted in an encapsulated IPv4 address.

Every text is non-empty, made of hexadecimal digits, `:` and `.` with at least
one of the last two (`inetText_alphabet`, `inetText_mark`), and shorter than 60
bytes (`length_inetText`).
-/

namespace CLib

/-- The octets of an Internet address. -/
inductive InetAddr
  | inet (octets : Fin 4 → UInt8)
  | inet6 (octets : Fin 16 → UInt8)

def dot : UInt8 := 46
def colon : UInt8 := 58

/-- `sprintf(tmp, "%u.%u.%u.%u", ...)`. -/
def inetNtop4 (a b c d : UInt8) : Bytes :=
  fmtNat a.toNat ++ dot :: fmtNat b.toNat ++ dot :: fmtNat c.toNat ++ dot :: fmtNat d.toNat

/-- A run of zero words. -/
structure ZeroRun where
  base : Nat
  len : Nat
deriving DecidableEq

/-- The longer of two runs, the earlier one on a tie. -/
def betterRun (best : Option ZeroRun) (cur : ZeroRun) : Option ZeroRun :=
  match best with
  | none => some cur
  | some b => if b.len < cur.len then some cur else some b

/-- One step of the scan for the longest run: `(best, cur)` before word `i`. -/
def scanRun (st : Option ZeroRun × Option ZeroRun) (iw : Nat × Nat) :
    Option ZeroRun × Option ZeroRun :=
  if iw.2 = 0 then
    match st.2 with
    | none => (st.1, some ⟨iw.1, 1⟩)
    | some c => (st.1, some ⟨c.base, c.len + 1⟩)
  else
    match st.2 with
    | none => st
    | some c => (betterRun st.1 c, none)

/-- The run written as `::`, if any. -/
def bestRun (words : List Nat) : Option ZeroRun :=
  let (best, cur) := ((List.range words.length).zip words).foldl scanRun (none, none)
  let best := match cur with
    | none => best
    | some c => betterRun best c
  best.filter fun b => 2 ≤ b.len

/-- Is word `i` inside the run `best`? -/
def inRun (best : Option ZeroRun) (i : Nat) : Bool :=
  best.any fun b => decide (b.base ≤ i) && decide (i < b.base + b.len)

/-- The formatting loop from word `i` on; `v4` is the dotted tail when the
address encapsulates an IPv4 one. -/
def fmtWords (best : Option ZeroRun) (v4 : Option Bytes) : (i : Nat) → List Nat → Bytes
  | _, [] => []
  | i, w :: ws =>
    if inRun best i then
      (if best.any (·.base = i) then [colon] else []) ++ fmtWords best v4 (i + 1) ws
    else
      (if i = 0 then [] else [colon]) ++
        if i = 6 ∧ v4.isSome then v4.getD [] else fmtHex w ++ fmtWords best v4 (i + 1) ws

def words (octets : Fin 16 → UInt8) : List Nat :=
  List.ofFn fun i : Fin 8 =>
    (octets ⟨2 * i, by omega⟩).toNat * 256 + (octets ⟨2 * i + 1, by omega⟩).toNat

/-- The dotted tail: a run from word 0 of length 6, or of length 5 before `ffff`. -/
def encapsulated (octets : Fin 16 → UInt8) (ws : List Nat) (best : Option ZeroRun) :
    Option Bytes :=
  if best.any (fun b => b.base = 0 && (b.len = 6 || (b.len = 5 && ws[5]? = some 0xffff))) then
    some (inetNtop4 (octets 12) (octets 13) (octets 14) (octets 15))
  else none

def inetNtop6 (octets : Fin 16 → UInt8) : Bytes :=
  let ws := words octets
  let best := bestRun ws
  fmtWords best (encapsulated octets ws best) 0 ws ++
    if best.any (fun b => b.base + b.len = 8) then [colon] else []

/-- The text of an address, without its NUL. -/
def inetText : InetAddr → Bytes
  | .inet o => inetNtop4 (o 0) (o 1) (o 2) (o 3)
  | .inet6 o => inetNtop6 o

/-- `inet_ntop(af, src, dst, size)`: `none` when the text and its NUL do not fit. -/
def inetNtop (a : InetAddr) (size : Nat) : Option Bytes :=
  if (inetText a).length < size then some (inetText a) else none

-- loopback, an encapsulated IPv4 address, and a text of the full eight words
example : inetText (.inet ![127, 0, 0, 1]) = ascii "127.0.0.1" := by decide
example : inetText (.inet6 ![0,0,0,0,0,0,0,0,0,0,0xff,0xff,10,0,0,7]) =
    ascii "::ffff:10.0.0.7" := by
  decide
example : inetText (.inet6 ![0xfe,0x80,0,0,0,0,0,0,0,1,0,0,0,0,0,0]) = ascii "fe80::1:0:0:0" := by
  decide

/-! ## The alphabet -/

/-- A byte of an address text: a lower-case hexadecimal digit, `:` or `.`. -/
def isAddrByte (b : UInt8) : Bool :=
  isDigit b || (decide (97 ≤ b) && decide (b ≤ 102)) || b == colon || b == dot

theorem isAddrByte_hexDigit : ∀ d, d < 16 → isAddrByte (charByte (Nat.digitChar d)) = true := by
  decide

theorem mem_toDigits_sixteen (n : Nat) :
    ∀ c ∈ Nat.toDigits 16 n, ∃ d, d < 16 ∧ c = Nat.digitChar d := by
  induction n using Nat.strong_induction_on with
  | _ n ih =>
    intro c hc
    by_cases hn : n < 16
    · rw [Nat.toDigits_of_lt_base hn, List.mem_singleton] at hc
      exact ⟨n, hn, hc⟩
    · rw [Nat.toDigits_of_base_le (by decide) (by omega), List.mem_append,
        List.mem_singleton] at hc
      rcases hc with hc | hc
      · exact ih (n / 16) (by omega) c hc
      · exact ⟨n % 16, Nat.mod_lt _ (by decide), hc⟩

theorem isAddrByte_of_mem_fmtHex {n : Nat} {b : UInt8} (h : b ∈ fmtHex n) :
    isAddrByte b = true := by
  obtain ⟨c, hc, rfl⟩ := List.mem_map.mp h
  obtain ⟨d, hd, rfl⟩ := mem_toDigits_sixteen n c hc
  exact isAddrByte_hexDigit d hd

theorem isAddrByte_of_mem_fmtNat {n : Nat} {b : UInt8} (h : b ∈ fmtNat n) :
    isAddrByte b = true := by
  simp [isAddrByte, isDigit_of_mem_fmtNat h]

theorem isAddrByte_of_mem_inetNtop4 {a b c d x : UInt8} (h : x ∈ inetNtop4 a b c d) :
    isAddrByte x = true := by
  simp only [inetNtop4, List.mem_append, List.mem_cons] at h
  have hdot : isAddrByte dot = true := by decide
  rcases h with (((h | rfl | h) | rfl | h) | rfl | h)
  all_goals first
    | exact isAddrByte_of_mem_fmtNat h
    | exact hdot

theorem isAddrByte_of_mem_fmtWords {best : Option ZeroRun} {v4 : Option Bytes}
    (hv : ∀ t ∈ v4, ∀ b ∈ t, isAddrByte b = true) (ws : List Nat) (i : Nat) :
    ∀ b ∈ fmtWords best v4 i ws, isAddrByte b = true := by
  have hcolon : isAddrByte colon = true := by decide
  induction ws generalizing i with
  | nil => simp [fmtWords]
  | cons w ws ih =>
    intro b hb
    rw [fmtWords] at hb
    split at hb
    · rcases List.mem_append.mp hb with hb | hb
      · split at hb
        · rw [List.mem_singleton.mp hb]; exact hcolon
        · cases hb
      · exact ih (i + 1) b hb
    · rcases List.mem_append.mp hb with hb | hb
      · split at hb
        · cases hb
        · rw [List.mem_singleton.mp hb]; exact hcolon
      · split at hb
        · next h6 =>
          obtain ⟨t, rfl⟩ := Option.isSome_iff_exists.mp h6.2
          exact hv t rfl b hb
        · rcases List.mem_append.mp hb with hb | hb
          · exact isAddrByte_of_mem_fmtHex hb
          · exact ih (i + 1) b hb

theorem encapsulated_alphabet {octets : Fin 16 → UInt8} {ws : List Nat} {best : Option ZeroRun} :
    ∀ t ∈ encapsulated octets ws best, ∀ b ∈ t, isAddrByte b = true := by
  intro t ht b hb
  unfold encapsulated at ht
  split at ht
  · cases ht
    exact isAddrByte_of_mem_inetNtop4 hb
  · cases ht

theorem inetText_alphabet (a : InetAddr) : ∀ b ∈ inetText a, isAddrByte b = true := by
  intro b hb
  cases a with
  | inet o => exact isAddrByte_of_mem_inetNtop4 hb
  | inet6 o =>
    rcases List.mem_append.mp hb with hb | hb
    · exact isAddrByte_of_mem_fmtWords encapsulated_alphabet _ _ b hb
    · split at hb
      · rw [List.mem_singleton.mp hb]; decide
      · cases hb

theorem not_mem_inetText (a : InetAddr) {b : UInt8} (h : isAddrByte b = false) :
    b ∉ inetText a := by
  intro hm
  rw [inetText_alphabet a b hm] at h
  cases h

/-! ## A dot or a colon -/

/-- The first two words already write a colon: one opens a run or word 1 is
preceded by one. -/
theorem colon_mem_fmtWords (best : Option ZeroRun) (v4 : Option Bytes) (w0 w1 : Nat)
    (ws : List Nat) : colon ∈ fmtWords best v4 0 (w0 :: w1 :: ws) := by
  by_cases h0 : inRun best 0 = true
  · -- a run that holds word 0 starts there
    have hb : best.any (·.base = 0) = true := by
      cases best with
      | none => simp [inRun] at h0
      | some b =>
        simp only [inRun, Option.any_some, Bool.and_eq_true, decide_eq_true_eq] at h0 ⊢
        omega
    rw [fmtWords, if_pos h0, if_pos hb]
    simp
  · have hrest : colon ∈ fmtWords best v4 1 (w1 :: ws) := by
      by_cases h1 : inRun best 1 = true
      · have hb : best.any (·.base = 1) = true := by
          cases best with
          | none => simp [inRun] at h1
          | some b =>
            simp only [inRun, Option.any_some, Bool.and_eq_true, decide_eq_true_eq] at h0 h1 ⊢
            omega
        rw [fmtWords, if_pos h1, if_pos hb]
        simp
      · rw [fmtWords, if_neg h1, if_neg (by decide)]
        simp
    rw [fmtWords, if_neg h0, if_pos rfl]
    exact List.mem_append_right _ (List.mem_append_right _ hrest)

theorem inetText_mark (a : InetAddr) : dot ∈ inetText a ∨ colon ∈ inetText a := by
  cases a with
  | inet o => exact .inl (by simp [inetText, inetNtop4])
  | inet6 o =>
    refine .inr (List.mem_append_left _ ?_)
    have hw : words o = _ := List.ofFn_succ
    rw [hw, List.ofFn_succ]
    exact colon_mem_fmtWords _ _ _ _ _

theorem inetText_ne_nil (a : InetAddr) : inetText a ≠ [] := by
  intro h
  rcases inetText_mark a with hm | hm <;> rw [h] at hm <;> cases hm

/-- An address text is never a printed integer. -/
theorem inetText_ne_fmtInt (a : InetAddr) (z : Int) : inetText a ≠ fmtInt z := by
  intro h
  rcases inetText_mark a with hm | hm
  all_goals
    rw [h] at hm
    exact not_mem_fmtInt (by decide) (by decide) hm

/-! ## Length -/

theorem length_fmtNat_octet (b : UInt8) : (fmtNat b.toNat).length ≤ 3 := by
  have := b.toNat_lt
  rw [fmtNat, List.length_map, Nat.length_toDigits_le_iff (by decide) (by decide)]
  omega

theorem length_inetNtop4 (a b c d : UInt8) : (inetNtop4 a b c d).length ≤ 15 := by
  have := length_fmtNat_octet a
  have := length_fmtNat_octet b
  have := length_fmtNat_octet c
  have := length_fmtNat_octet d
  simp only [inetNtop4, List.length_append, List.length_cons]
  omega

theorem length_fmtWords (best : Option ZeroRun) (v4 : Option Bytes)
    (hv : ∀ t ∈ v4, t.length ≤ 15) (ws : List Nat) (hw : ∀ w ∈ ws, w < 16 ^ 4) (i : Nat) :
    (fmtWords best v4 i ws).length ≤ 5 * ws.length + 16 := by
  induction ws generalizing i with
  | nil => simp [fmtWords]
  | cons w ws ih =>
    have ih := ih (fun v hv => hw v (List.mem_cons_of_mem _ hv)) (i + 1)
    have hx : (fmtHex w).length ≤ 4 := by
      rw [fmtHex, List.length_map, Nat.length_toDigits_le_iff (by decide) (by decide)]
      exact hw w List.mem_cons_self
    rw [fmtWords]
    split
    · split <;> simp only [List.length_append, List.length_cons, List.length_nil] <;> omega
    · have hc : (if i = 0 then [] else [colon]).length ≤ 1 := by split <;> simp
      rw [List.length_append, List.length_cons]
      by_cases h6 : i = 6 ∧ v4.isSome
      · rw [if_pos h6]
        obtain ⟨t, rfl⟩ := Option.isSome_iff_exists.mp h6.2
        have : (Option.getD (some t) []).length ≤ 15 := hv t rfl
        omega
      · rw [if_neg h6, List.length_append]
        omega

theorem length_inetText (a : InetAddr) : (inetText a).length < 60 := by
  cases a with
  | inet o =>
    have := length_inetNtop4 (o 0) (o 1) (o 2) (o 3)
    show (inetNtop4 _ _ _ _).length < 60
    omega
  | inet6 o =>
    have hw : ∀ w ∈ words o, w < 16 ^ 4 := by
      intro w hw
      obtain ⟨i, rfl⟩ := List.mem_ofFn.mp hw
      have := (o ⟨2 * i, by omega⟩).toNat_lt
      have := (o ⟨2 * i + 1, by omega⟩).toNat_lt
      omega
    have hv : ∀ best, ∀ t ∈ encapsulated o (words o) best, t.length ≤ 15 := by
      intro best t ht
      unfold encapsulated at ht
      split at ht
      · cases ht
        exact length_inetNtop4 _ _ _ _
      · cases ht
    have := length_fmtWords (bestRun (words o))
      (encapsulated o (words o) (bestRun (words o))) (hv _) (words o) hw 0
    have hl : (words o).length = 8 := by simp [words]
    show (inetNtop6 o).length < 60
    simp only [inetNtop6, List.length_append]
    split <;> simp only [List.length_cons, List.length_nil] <;> omega

end CLib
