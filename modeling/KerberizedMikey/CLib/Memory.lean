import Mathlib.Algebra.Ring.Int.Defs
import Mathlib.Algebra.Ring.Nat
import Mathlib.Data.List.TakeWhile
import Mathlib.Tactic.Common

/-!
# Byte buffers of a C program

An allocation is the list of its bytes; a pointer into it is the list of the
bytes from there to the allocation's end.  A read or write outside is a `Fault`,
never a value.

* `cstr`     : the C string at the front of an allocation
* `strncpy`  : what `strncpy(dst, src, n)` stores in `dst[0, n)`
* `snprintf` : the buffer after `snprintf(dst, n, "%s", s)`
* `copyLoop` : `for (i = 0; i < n; i++) dst[i] = src[off + i]`
-/

namespace CLib

abbrev Bytes := List UInt8

/-- The ways a program leaves the behaviour C defines. -/
inductive Fault
  | nullDeref
  | overRead
  | overWrite
deriving DecidableEq, Repr

/-- Steps that go through, one by one. -/
theorem bind_eq_ok_iff {ε α β : Type} {x : Except ε α} {f : α → Except ε β} {b : β} :
    (x >>= f) = .ok b ↔ ∃ a, x = .ok a ∧ f a = .ok b := by
  cases x with
  | error e =>
    constructor
    · intro h
      cases h
    · rintro ⟨a, h, -⟩
      cases h
  | ok a =>
    constructor
    · intro h
      exact ⟨a, rfl, h⟩
    · rintro ⟨a', h, hf⟩
      cases h
      exact hf

/-- glibc's `BUFSIZ`. -/
def bufsiz : Nat := 8192

/-- `'|'`. -/
def bar : UInt8 := 124

/-- The bytes of an ASCII literal. -/
def ascii (s : String) : Bytes := s.toList.map fun c => c.toNat.toUInt8

/-! ## C strings -/

/-- The string at the front of an allocation: the bytes before its first NUL. -/
def cstr (buf : Bytes) : Except Fault Bytes :=
  if 0 ∈ buf then .ok (buf.takeWhile (· != 0)) else .error .overRead

theorem takeWhile_append_nul (s rest : Bytes) (h : 0 ∉ s) :
    (s ++ 0 :: rest).takeWhile (· != 0) = s := by
  induction s with
  | nil => simp
  | cons b s ih =>
    rw [List.mem_cons, not_or] at h
    have hb : (b != 0) = true := by simpa using Ne.symm h.1
    rw [List.cons_append, List.takeWhile_cons, if_pos hb, ih h.2]

@[simp] theorem cstr_append_nul (s rest : Bytes) (h : 0 ∉ s) : cstr (s ++ 0 :: rest) = .ok s := by
  unfold cstr
  rw [if_pos (by simp), takeWhile_append_nul s rest h]

theorem cstr_of_not_mem (buf : Bytes) (h : 0 ∉ buf) : cstr buf = .error .overRead := by
  unfold cstr
  rw [if_neg h]

theorem cstr_ok_iff (buf : Bytes) : (∃ s, cstr buf = .ok s) ↔ 0 ∈ buf := by
  constructor
  · rintro ⟨s, h⟩
    by_contra hm
    rw [cstr_of_not_mem buf hm] at h
    cases h
  · intro hm
    exact ⟨_, if_pos hm⟩

/-- The bytes of a C string, without its NUL. -/
structure CString where
  bytes : Bytes
  nul_free : 0 ∉ bytes

/-- An allocation of exactly the string and its NUL. -/
def CString.alloc (s : CString) : Bytes := s.bytes ++ [0]

/-- What `cstr` reads contains no NUL. -/
theorem not_mem_of_cstr {buf s : Bytes} (h : cstr buf = .ok s) : 0 ∉ s := by
  unfold cstr at h
  split at h
  · cases h
    intro hm
    simpa using List.mem_takeWhile_imp hm
  · cases h

/-- The string is a proper prefix of its buffer. -/
theorem take_of_cstr {buf s : Bytes} (h : cstr buf = .ok s) :
    s.length < buf.length ∧ buf.take s.length = s := by
  unfold cstr at h
  split at h
  · next hm =>
    cases h
    obtain ⟨a, b, rfl, ha⟩ := List.eq_append_cons_of_mem hm
    rw [takeWhile_append_nul a b ha]
    exact ⟨by simp, List.take_left' rfl⟩
  · cases h

/-! ## Copies -/

/-- The `n` bytes `strncpy(dst, src, n)` stores: `src` up to its NUL, then zeros. -/
def strncpy : (src : Bytes) → (n : Nat) → Except Fault Bytes
  | _, 0 => .ok []
  | [], _ + 1 => .error .overRead
  | b :: src, n + 1 =>
    if b = 0 then .ok (List.replicate (n + 1) 0)
    else (strncpy src n).map (b :: ·)

theorem strncpy_append_nul (s rest : Bytes) (n : Nat) (h : 0 ∉ s) :
    strncpy (s ++ 0 :: rest) n = .ok ((s ++ List.replicate n 0).take n) := by
  induction s generalizing n with
  | nil =>
    cases n with
    | zero => rfl
    | succ n => simp [strncpy]
  | cons b s ih =>
    cases n with
    | zero => rfl
    | succ n =>
      rw [List.mem_cons, not_or] at h
      rw [List.cons_append, strncpy, if_neg (Ne.symm h.1), ih n h.2, List.cons_append,
        List.take_succ_cons, Except.map]
      congr 2
      rw [List.take_append, List.take_append, List.take_replicate, List.take_replicate]
      congr 2
      omega

/-- No NUL in the first `n` bytes: the copy is exact and not terminated. -/
theorem strncpy_of_not_mem (src : Bytes) (n : Nat) (hn : n ≤ src.length) (h : 0 ∉ src.take n) :
    strncpy src n = .ok (src.take n) := by
  induction src generalizing n with
  | nil =>
    have : n = 0 := by simpa using hn
    subst this; rfl
  | cons b src ih =>
    cases n with
    | zero => rfl
    | succ n =>
      rw [List.take_succ_cons, List.mem_cons, not_or] at h
      rw [strncpy, if_neg (Ne.symm h.1), ih n (by simpa using hn) h.2, List.take_succ_cons]
      rfl

/-- `strncpy` stays inside a source of at least `n` bytes, terminated or not. -/
theorem strncpy_of_le (src : Bytes) (n : Nat) (hn : n ≤ src.length) :
    ∃ dst, strncpy src n = .ok dst := by
  induction src generalizing n with
  | nil =>
    have : n = 0 := by simpa using hn
    subst this
    exact ⟨[], rfl⟩
  | cons b src ih =>
    cases n with
    | zero => exact ⟨[], rfl⟩
    | succ n =>
      obtain ⟨dst, hd⟩ := ih n (by simpa using hn)
      rw [strncpy, hd]
      by_cases hb : b = 0
      · exact ⟨_, by rw [if_pos hb]⟩
      · exact ⟨b :: dst, by rw [if_neg hb]; rfl⟩

/-- A C string shorter than `n` is copied whole and terminated; one of `n` bytes or more
fills the array without a NUL. -/
theorem cstr_strncpy (s rest : Bytes) (n : Nat) (h : 0 ∉ s) :
    ∃ dst, strncpy (s ++ 0 :: rest) n = .ok dst ∧
      cstr dst = if s.length < n then .ok s else .error .overRead := by
  refine ⟨_, strncpy_append_nul s rest n h, ?_⟩
  by_cases hn : s.length < n
  · obtain ⟨k, rfl⟩ : ∃ k, n = s.length + (k + 1) := ⟨n - s.length - 1, by omega⟩
    rw [if_pos hn, List.take_append, List.take_of_length_le (by omega), Nat.add_sub_cancel_left,
      List.take_replicate, Nat.min_eq_left (by omega), List.replicate_succ]
    exact cstr_append_nul s _ h
  · rw [if_neg hn, List.take_append_of_le_length (by omega)]
    apply cstr_of_not_mem
    intro hm
    exact h (List.mem_of_mem_take hm)

/-- `dst` after `snprintf(dst, n, ...)` of the text `s` (`0 < n ≤ dst.length`). -/
def snprintf (dst : Bytes) (n : Nat) (s : Bytes) : Bytes :=
  s.take (n - 1) ++ 0 :: dst.drop (min s.length (n - 1) + 1)

theorem cstr_snprintf (dst : Bytes) (n : Nat) (s : Bytes) (h : 0 ∉ s) :
    cstr (snprintf dst n s) = .ok (s.take (n - 1)) :=
  cstr_append_nul _ _ fun hm => h (List.mem_of_mem_take hm)

/-- A text that fits its array is the string in it. -/
theorem cstr_snprintf_of_lt (stack : Bytes) {n : Nat} {s : Bytes} (h0 : 0 ∉ s)
    (h : s.length < n) : cstr (snprintf stack n s) = .ok s := by
  rw [cstr_snprintf _ _ _ h0, List.take_of_length_le (by omega)]

/-- One bounds-checked store `dst[i] = src[j]`. -/
def copyByte (src : Bytes) (off : Nat) (dst : Bytes) (i : Nat) : Except Fault Bytes :=
  if hj : off + i < src.length then
    if i < dst.length then .ok (dst.set i src[off + i]) else .error .overWrite
  else .error .overRead

/-- `for (i = 0; i < n; i++) dst[i] = src[off + i]`. -/
def copyLoop (src : Bytes) (off : Nat) (dst : Bytes) : (n : Nat) → Except Fault Bytes
  | 0 => .ok dst
  | n + 1 => (copyLoop src off dst n).bind fun d => copyByte src off d n

/-- A copy loop that ends without a fault stayed inside the destination. -/
theorem length_copyLoop {src dst d : Bytes} {off n : Nat} (h : copyLoop src off dst n = .ok d) :
    n ≤ dst.length ∧ d.length = dst.length := by
  induction n generalizing d with
  | zero => cases h; exact ⟨Nat.zero_le _, rfl⟩
  | succ n ih =>
    rw [copyLoop] at h
    cases hc : copyLoop src off dst n with
    | error f => rw [hc] at h; cases h
    | ok d' =>
      rw [hc] at h
      obtain ⟨-, hl⟩ := ih hc
      change copyByte src off d' n = .ok d at h
      unfold copyByte at h
      split at h
      · split at h
        · cases h
          rw [List.length_set]
          omega
        · cases h
      · cases h

/-- One that ends with a fault has left one of the buffers. -/
theorem ne_nullDeref_of_copyLoop {src dst : Bytes} {off n : Nat} {f : Fault}
    (h : copyLoop src off dst n = .error f) : f ≠ .nullDeref := by
  induction n with
  | zero => cases h
  | succ n ih =>
    rw [copyLoop] at h
    cases hc : copyLoop src off dst n with
    | error f' =>
      rw [hc] at h
      cases h
      exact ih hc
    | ok d =>
      rw [hc] at h
      change copyByte src off d n = .error f at h
      unfold copyByte at h
      split at h
      · split at h
        · cases h
        · cases h
          decide
      · cases h
        decide

/-- **The copy loop in bounds.**  `dst[0, n)` becomes `src[off, off + n)`. -/
theorem copyLoop_eq (src : Bytes) (off : Nat) (dst : Bytes) (n : Nat)
    (hs : off + n ≤ src.length) (hd : n ≤ dst.length) :
    copyLoop src off dst n = .ok ((src.drop off).take n ++ dst.drop n) := by
  induction n with
  | zero => simp [copyLoop]
  | succ n ih =>
    rw [copyLoop, ih (by omega) (by omega)]
    show copyByte src off _ n = _
    have hl : ((src.drop off).take n).length = n := by simp; omega
    have hj : off + n < src.length := by omega
    rw [copyByte, dif_pos hj, if_pos (by simp; omega)]
    congr 1
    rw [List.set_append_right _ _ (by omega), hl, Nat.sub_self,
      List.take_succ_eq_append_getElem (by simp; omega), List.append_assoc, List.getElem_drop]
    congr 1
    rw [List.drop_eq_getElem_cons (by omega : n < dst.length)]
    rfl

end CLib
