import KerberizedMikey.CLib.Memory
import KerberizedMikey.CLib.Fields

/-!
# `strtok` with a one-byte delimiter

`strtok` keeps one static pointer `olds` between calls; here it is passed in and
out.  A pointer is the bytes from it to its allocation's end, so a scan that
meets neither the delimiter nor a NUL is an `overRead`.  (The NUL `strtok` writes
over a delimiter lies before the new `olds`; nothing reads it again except
through the returned token, which is returned as its C string.)

On a buffer without NUL, `strtok` reads the closed fields one by one, and walks
off the end when none is left:

    0 ∉ p → strtokAt sep p = ok (field, rest)   or   error overRead      (strtokAt_spec)

On one with a NUL, the fields before it, the last of them closed by the NUL; when none
is left the value is NULL.  `tokens` are the fields in either case:

    tokens sep p = t :: ts  →  strtokAt sep p = ok (t, r), tokens sep r = ts
    tokens sep p = []       →  overRead or NULL                         (strtokAt_tokens)
-/

namespace CLib

/-- `s += strspn(s, delim)`. -/
def skipDelim (sep : UInt8) : Bytes → Except Fault Bytes
  | [] => .error .overRead
  | b :: p => if b = sep then skipDelim sep p else .ok (b :: p)

/-- `strpbrk(token, delim)`: the token, and the text from the byte that ends it
(a delimiter or the NUL). -/
def scanToken (sep : UInt8) : Bytes → Except Fault (Bytes × Bytes)
  | [] => .error .overRead
  | b :: p =>
    if b = sep ∨ b = 0 then .ok ([], b :: p)
    else (scanToken sep p).map fun (t, r) => (b :: t, r)

/-- `strtok` from a pointer: the token (`none` when only delimiters are left) and
the new `olds`. -/
def strtokAt (sep : UInt8) (p : Bytes) : Except Fault (Option Bytes × Option Bytes) :=
  (skipDelim sep p).bind fun p =>
    if p.head? = some 0 then .ok (none, some p)
    else
      (scanToken sep p).map fun (t, r) =>
        -- a token that ends at the NUL leaves `olds` there, else just after the delimiter
        if r.head? = some 0 then (some t, some r) else (some t, some r.tail)

/-- `strtok(s, delim)`; `none` stands for a NULL pointer. -/
def strtok (sep : UInt8) (s olds : Option Bytes) : Except Fault (Option Bytes × Option Bytes) :=
  match s, olds with
  | some p, _ => strtokAt sep p
  | none, some p => strtokAt sep p
  | none, none => .error .nullDeref

/-! ## On buffers without NUL -/

theorem skipDelim_of_ne {sep b : UInt8} (h : b ≠ sep) (p : Bytes) :
    skipDelim sep (b :: p) = .ok (b :: p) := by
  rw [skipDelim, if_neg h]

/-- A token ends at the separator or at a NUL. -/
theorem scanToken_append_cons (sep : UInt8) (t r : Bytes) {c : UInt8} (hc : c = sep ∨ c = 0)
    (ht : sep ∉ t) (h0 : 0 ∉ t) : scanToken sep (t ++ c :: r) = .ok (t, c :: r) := by
  induction t with
  | nil => rw [List.nil_append, scanToken, if_pos hc]
  | cons b t ih =>
    rw [List.mem_cons, not_or] at ht h0
    have hb : ¬ (b = sep ∨ b = 0) := not_or.mpr ⟨Ne.symm ht.1, Ne.symm h0.1⟩
    rw [List.cons_append, scanToken, if_neg hb, ih ht.2 h0.2]
    rfl

theorem scanToken_of_not_mem (sep : UInt8) (p : Bytes) (hs : sep ∉ p) (h0 : 0 ∉ p) :
    scanToken sep p = .error .overRead := by
  induction p with
  | nil => rfl
  | cons b p ih =>
    rw [List.mem_cons, not_or] at hs h0
    have hb : ¬ (b = sep ∨ b = 0) := not_or.mpr ⟨Ne.symm hs.1, Ne.symm h0.1⟩
    rw [scanToken, if_neg hb, ih hs.2 h0.2]
    rfl

/-- `strtok` is `nextField` on a buffer without NUL: no field left means the scan
leaves the buffer. -/
theorem strtokAt_eq_nextField {sep : UInt8} (hsep : sep ≠ 0) (p : Bytes) (h0 : 0 ∉ p) :
    strtokAt sep p =
      match nextField sep p with
      | some (t, r) => .ok (some t, some r)
      | none => .error .overRead := by
  induction p with
  | nil => rfl
  | cons b p ih =>
    have h0' := h0
    rw [List.mem_cons, not_or] at h0
    by_cases hb : b = sep
    · subst hb
      rw [nextField_cons_sep, ← ih h0.2, strtokAt, skipDelim, if_pos rfl]
      rfl
    · have hhead : ¬ ((b :: p).head? = some 0) := by
        rw [List.head?_cons, Option.some.injEq]
        exact Ne.symm h0.1
      rw [strtokAt, skipDelim_of_ne hb, Except.bind]
      simp only [if_neg hhead]
      by_cases hm : sep ∈ b :: p
      · obtain ⟨t, r, he, ht⟩ := List.eq_append_cons_of_mem hm
        have hne : t ≠ [] := by
          rintro rfl
          exact hb (List.cons.inj he).1
        rw [he] at h0' ⊢
        rw [scanToken_append_cons sep t r (.inl rfl) ht (fun hz => h0' (List.mem_append_left _ hz)),
          nextField_append_cons sep t r ht hne]
        simp [Except.map, hsep]
      · rw [scanToken_of_not_mem sep _ hm h0', nextField_of_not_mem sep _ hm]
        rfl

/-- **`strtok` reads the closed fields.**  On a buffer without NUL it returns the
first closed field and leaves `olds` on a suffix that holds the others; when no
closed field is left it reads past the buffer. -/
theorem strtokAt_spec {sep : UInt8} (hsep : sep ≠ 0) (p : Bytes) (h0 : 0 ∉ p) :
    (termFields sep p = [] ∧ strtokAt sep p = .error .overRead) ∨
    ∃ t r, termFields sep p = t :: termFields sep r ∧ 0 ∉ r ∧
      strtokAt sep p = .ok (some t, some r) := by
  rw [strtokAt_eq_nextField hsep p h0]
  have hspec := nextField_spec sep p
  cases hn : nextField sep p with
  | none =>
    rw [hn] at hspec
    exact .inl ⟨hspec, rfl⟩
  | some tr =>
    obtain ⟨t, r⟩ := tr
    rw [hn] at hspec
    exact .inr ⟨t, r, hspec.1, fun hz => h0 (hspec.2.subset hz), rfl⟩

/-! ## On all buffers -/

/-- What repeated calls of `strtok` return: the fields up to the first NUL, or the closed
fields of a buffer without one. -/
def tokens (sep : UInt8) (p : Bytes) : List Bytes :=
  if 0 ∈ p then fields sep (p.takeWhile (· != 0)) else termFields sep p

theorem tokens_append_nul (sep : UInt8) (s rest : Bytes) (h0 : 0 ∉ s) :
    tokens sep (s ++ 0 :: rest) = fields sep s := by
  rw [tokens, if_pos (by simp), takeWhile_append_nul s rest h0]

theorem tokens_of_not_mem (sep : UInt8) (p : Bytes) (h0 : 0 ∉ p) :
    tokens sep p = termFields sep p := by
  rw [tokens, if_neg h0]

/-- A token is a C string. -/
theorem nul_not_mem_of_mem_tokens {sep : UInt8} {p t : Bytes} (ht : t ∈ tokens sep p) : 0 ∉ t := by
  intro h0
  by_cases hp : 0 ∈ p
  · rw [tokens, if_pos hp] at ht
    have := List.mem_takeWhile_imp ((sublist_of_mem_fields sep ht).subset h0)
    simp at this
  · rw [tokens_of_not_mem sep p hp] at ht
    exact hp ((sublist_of_mem_fields sep (mem_fields_of_mem_termFields sep ht)).subset h0)

/-- **`strtok` on a C string** returns its first field, or NULL. -/
theorem strtokAt_append_nul {sep : UInt8} (hsep : sep ≠ 0) (s rest : Bytes) (h0 : 0 ∉ s) :
    (fields sep s = [] ∧ strtokAt sep (s ++ 0 :: rest) = .ok (none, some (0 :: rest))) ∨
    ∃ t s', fields sep s = t :: fields sep s' ∧ 0 ∉ s' ∧
      strtokAt sep (s ++ 0 :: rest) = .ok (some t, some (s' ++ 0 :: rest)) := by
  induction s with
  | nil =>
    refine .inl ⟨fields_nil sep, ?_⟩
    rw [List.nil_append, strtokAt, skipDelim_of_ne (Ne.symm hsep)]
    rfl
  | cons b s ih =>
    have h0' := h0
    rw [List.mem_cons, not_or] at h0
    by_cases hb : b = sep
    · subst hb
      rw [fields_cons_sep]
      have hskip : strtokAt b (b :: s ++ 0 :: rest) = strtokAt b (s ++ 0 :: rest) := by
        rw [List.cons_append, strtokAt, strtokAt, skipDelim, if_pos rfl]
      rw [hskip]
      exact ih h0.2
    · right
      have hscan : ∀ {t r : Bytes}, scanToken sep (b :: s ++ 0 :: rest) = .ok (t, r) →
          strtokAt sep (b :: s ++ 0 :: rest) =
            .ok (some t, some (if r.head? = some 0 then r else r.tail)) := by
        intro t r hr
        have hhead : ¬ ((b :: (s ++ 0 :: rest)).head? = some 0) := by
          rw [List.head?_cons, Option.some.injEq]
          exact Ne.symm h0.1
        rw [List.cons_append] at hr ⊢
        rw [strtokAt, skipDelim_of_ne hb, Except.bind]
        simp only [if_neg hhead, hr, Except.map]
        by_cases hz : r.head? = some 0
        · rw [if_pos hz, if_pos hz]
        · rw [if_neg hz, if_neg hz]
      by_cases hm : sep ∈ b :: s
      · obtain ⟨t, r, he, ht⟩ := List.eq_append_cons_of_mem hm
        have hne : t ≠ [] := by
          rintro rfl
          exact hb (List.cons.inj he).1
        rw [he] at h0' hscan ⊢
        refine ⟨t, r, ?_, fun hz => h0' (by simp [hz]), ?_⟩
        · rw [fields_append_cons, fields_of_not_mem sep t ht hne, List.singleton_append]
        · rw [hscan (t := t) (r := sep :: (r ++ 0 :: rest))]
          · rw [List.head?_cons, if_neg (by simpa using hsep), List.tail_cons]
          · rw [List.append_assoc, List.cons_append]
            exact scanToken_append_cons sep t _ (.inl rfl) ht fun hz =>
              h0' (List.mem_append_left _ hz)
      · refine ⟨b :: s, [], ?_, by simp, ?_⟩
        · rw [fields_nil]
          exact fields_of_not_mem sep _ hm (List.cons_ne_nil b s)
        · rw [hscan (scanToken_append_cons sep _ rest (.inr rfl) hm h0'), List.head?_cons,
            if_pos rfl]
          rfl

/-- **`strtok` reads the tokens.**  After the last it finds nothing, or leaves a buffer
that has no NUL. -/
theorem strtokAt_tokens {sep : UInt8} (hsep : sep ≠ 0) (p : Bytes) :
    (tokens sep p = [] ∧ (0 ∉ p ∧ strtokAt sep p = .error .overRead ∨
      0 ∈ p ∧ ∃ r, strtokAt sep p = .ok (none, r))) ∨
    ∃ t r, tokens sep p = t :: tokens sep r ∧ (0 ∈ r ↔ 0 ∈ p) ∧
      strtokAt sep p = .ok (some t, some r) := by
  by_cases h0 : 0 ∈ p
  · obtain ⟨s, rest, rfl, hs⟩ := List.eq_append_cons_of_mem h0
    rw [tokens_append_nul sep s rest hs]
    rcases strtokAt_append_nul hsep s rest hs with ⟨hf, he⟩ | ⟨t, s', hf, hs', he⟩
    · exact .inl ⟨hf, .inr ⟨h0, _, he⟩⟩
    · refine .inr ⟨t, s' ++ 0 :: rest, ?_, iff_of_true (by simp) h0, he⟩
      rw [hf, tokens_append_nul sep s' rest hs']
  · rw [tokens_of_not_mem sep p h0]
    rcases strtokAt_spec hsep p h0 with ⟨hf, he⟩ | ⟨t, r, hf, hr, he⟩
    · exact .inl ⟨hf, .inl ⟨h0, he⟩⟩
    · exact .inr ⟨t, r, by rw [hf, tokens_of_not_mem sep r hr], iff_of_false hr h0, he⟩

end CLib
