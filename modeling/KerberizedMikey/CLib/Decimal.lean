import KerberizedMikey.CLib.Memory

/-!
# `printf` of integers and `atoi`

`fmtInt` is `%d`, `fmtHex` is `%x`; the digits are `Nat.toDigits`.  `atoi` is
`strtol(s, NULL, 10)` cast to `int`: leading white space, one sign, digits up to
the first other byte, clamped to 64 bits and then truncated to 32.

    atoi (fmtInt z.toInt) = z          for every 32-bit `z`      (atoi_fmtInt)
-/

namespace CLib

def charByte (c : Char) : UInt8 := c.toNat.toUInt8

/-- `%u`. -/
def fmtNat (n : Nat) : Bytes := (Nat.toDigits 10 n).map charByte

/-- `%d`. -/
def fmtInt (z : Int) : Bytes := if z < 0 then 45 :: fmtNat z.natAbs else fmtNat z.natAbs

/-- `%x`. -/
def fmtHex (n : Nat) : Bytes := (Nat.toDigits 16 n).map charByte

/-- `%X`. -/
def fmtHexUpper (n : Nat) : Bytes := (Nat.toDigits 16 n).map fun c => charByte c.toUpper

def isDigit (b : UInt8) : Bool := decide (48 ≤ b) && decide (b ≤ 57)

/-- `isspace` in the C locale. -/
def isSpace (b : UInt8) : Bool := b == 32 || (decide (9 ≤ b) && decide (b ≤ 13))

/-- The value of a digit string. -/
def digitsVal (ds : Bytes) : Nat := ds.foldl (fun v b => 10 * v + (b.toNat - 48)) 0

/-- `strtol(s, NULL, 10)`, clamped to a 64-bit `long`. -/
def strtol (s : Bytes) : Int :=
  let s := s.dropWhile isSpace
  let num (s : Bytes) : Int := digitsVal (s.takeWhile isDigit)
  let v := match s with
    | 45 :: s => - num s
    | 43 :: s => num s
    | s => num s
  max (-2 ^ 63) (min v (2 ^ 63 - 1))

def atoi (s : Bytes) : Int32 := Int32.ofInt (strtol s)

/-! ## Digits -/

theorem isDigit_iff (b : UInt8) : isDigit b = true ↔ 48 ≤ b.toNat ∧ b.toNat ≤ 57 := by
  simp [isDigit, UInt8.le_iff_toNat_le]

theorem digit_charByte (c : Char) (h : c.isDigit = true) :
    isDigit (charByte c) = true ∧ (charByte c).toNat = c.toNat := by
  have hc : 48 ≤ c.toNat ∧ c.toNat ≤ 57 := by
    simp only [Char.isDigit, Bool.and_eq_true, decide_eq_true_eq] at h
    exact ⟨h.1, h.2⟩
  have hn : (charByte c).toNat = c.toNat := by
    show c.toNat % 256 = c.toNat
    omega
  rw [isDigit_iff, hn]
  exact ⟨hc, rfl⟩

theorem isDigit_of_mem_fmtNat {n : Nat} {b : UInt8} (h : b ∈ fmtNat n) : isDigit b = true := by
  obtain ⟨c, hc, rfl⟩ := List.mem_map.mp h
  exact (digit_charByte c (Nat.isDigit_of_mem_toDigits (by decide) (by decide) hc)).1

theorem fmtNat_ne_nil (n : Nat) : fmtNat n ≠ [] := by
  simp [fmtNat, Nat.toDigits_ne_nil]

theorem digitsVal_fmtNat (n : Nat) : digitsVal (fmtNat n) = n := by
  have hfold : ∀ (cs : List Char) (v : Nat), (∀ c ∈ cs, c.isDigit = true) →
      (cs.map charByte).foldl (fun v b => 10 * v + (b.toNat - 48)) v =
        Nat.ofDigitChars 10 cs v := by
    intro cs
    induction cs with
    | nil => intro v _; simp
    | cons c cs ih =>
      intro v h
      rw [List.map_cons, List.foldl_cons, ih _ fun d hd => h d (List.mem_cons_of_mem _ hd),
        Nat.ofDigitChars_cons, (digit_charByte c (h c List.mem_cons_self)).2]
      rfl
  unfold digitsVal fmtNat
  rw [hfold _ 0 fun c hc => Nat.isDigit_of_mem_toDigits (by decide) (by decide) hc]
  exact Nat.ofDigitChars_ten_toDigits

/-- No byte of a printed integer is white space, a NUL or a `|`. -/
theorem mem_fmtInt {z : Int} {b : UInt8} (h : b ∈ fmtInt z) : b = 45 ∨ isDigit b = true := by
  unfold fmtInt at h
  split at h
  · rcases List.mem_cons.mp h with rfl | h
    · exact .inl rfl
    · exact .inr (isDigit_of_mem_fmtNat h)
  · exact .inr (isDigit_of_mem_fmtNat h)

theorem fmtInt_ne_nil (z : Int) : fmtInt z ≠ [] := by
  unfold fmtInt
  split
  · simp
  · exact fmtNat_ne_nil _

theorem not_mem_fmtInt {z : Int} {b : UInt8} (h1 : b ≠ 45) (h2 : isDigit b = false) :
    b ∉ fmtInt z := by
  intro h
  rcases mem_fmtInt h with h | h
  · exact h1 h
  · rw [h] at h2; cases h2

/-! ## The round trip -/

/-- A digit is neither white space nor a sign. -/
theorem not_isSpace_of_isDigit {b : UInt8} (h : isDigit b = true) :
    isSpace b = false ∧ b ≠ 45 ∧ b ≠ 43 := by
  rw [isDigit_iff] at h
  refine ⟨?_, ?_, ?_⟩
  · cases hs : isSpace b with
    | false => rfl
    | true =>
      simp only [isSpace, Bool.or_eq_true, Bool.and_eq_true, decide_eq_true_eq, beq_iff_eq,
        UInt8.le_iff_toNat_le] at hs
      rcases hs with rfl | hs
      · exact absurd h.1 (by decide)
      · have : b.toNat ≤ 13 := hs.2
        omega
  · rintro rfl; exact absurd h.1 (by decide)
  · rintro rfl; exact absurd h.1 (by decide)

theorem takeWhile_isDigit_fmtNat_append (n : Nat) (rest : Bytes)
    (hr : ∀ b ∈ rest.head?, isDigit b = false) :
    (fmtNat n ++ rest).takeWhile isDigit = fmtNat n := by
  rw [List.takeWhile_append_of_pos fun _ h => isDigit_of_mem_fmtNat h]
  cases rest with
  | nil => rw [List.takeWhile_nil, List.append_nil]
  | cons b rest =>
    have hb : isDigit b = false := hr b rfl
    rw [List.takeWhile_cons, if_neg (by simp [hb]), List.append_nil]

/-- `strtol` reads back a 64-bit `%ld`, whatever comes behind the digits. -/
theorem strtol_fmtInt_append (z : Int) (rest : Bytes) (hr : ∀ b ∈ rest.head?, isDigit b = false)
    (h1 : -2 ^ 63 ≤ z) (h2 : z < 2 ^ 63) : strtol (fmtInt z ++ rest) = z := by
  unfold strtol fmtInt
  split
  · have hs : (45 :: (fmtNat z.natAbs ++ rest)).dropWhile isSpace =
        45 :: (fmtNat z.natAbs ++ rest) := by
      rw [List.dropWhile_cons, if_neg (by decide)]
    simp only [List.cons_append, hs, takeWhile_isDigit_fmtNat_append _ rest hr, digitsVal_fmtNat]
    omega
  · obtain ⟨b, ds, hb⟩ := List.exists_cons_of_ne_nil (fmtNat_ne_nil z.natAbs)
    have hd : isDigit b = true := isDigit_of_mem_fmtNat (n := z.natAbs) (by rw [hb]; simp)
    obtain ⟨hsp, h45, h43⟩ := not_isSpace_of_isDigit hd
    have hs : (fmtNat z.natAbs ++ rest).dropWhile isSpace = fmtNat z.natAbs ++ rest := by
      rw [hb, List.cons_append, List.dropWhile_cons, if_neg (by simp [hsp])]
    have hval : digitsVal ((b :: (ds ++ rest)).takeWhile isDigit) = z.natAbs := by
      rw [← List.cons_append, ← hb, takeWhile_isDigit_fmtNat_append _ rest hr, digitsVal_fmtNat]
    simp only [hs]
    rw [hb, List.cons_append]
    split
    · next heq => exact absurd (List.cons.inj heq).1 h45
    · next heq => exact absurd (List.cons.inj heq).1 h43
    · rw [hval]
      omega

theorem strtol_fmtInt (z : Int) (h1 : -2 ^ 63 ≤ z) (h2 : z < 2 ^ 63) : strtol (fmtInt z) = z := by
  have h := strtol_fmtInt_append z [] (by simp) h1 h2
  rwa [List.append_nil] at h

/-- **`atoi` reads back `%d`.** -/
theorem atoi_fmtInt (z : Int32) : atoi (fmtInt z.toInt) = z := by
  have h1 := z.minValue_le_toInt
  have h2 := z.toInt_lt
  have hmin : Int32.minValue.toInt = -2 ^ 31 := by decide
  unfold atoi
  rw [strtol_fmtInt z.toInt (by omega) (by omega), Int32.ofInt_toInt]

end CLib
