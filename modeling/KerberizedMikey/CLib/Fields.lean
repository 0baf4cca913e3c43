import Mathlib.Data.List.TakeWhile
import Mathlib.Tactic.Common

/-!
# Separated fields

A text over any alphabet, cut at a separator `sep` (`List.splitOn`).  Empty
pieces do not count: `fields` are the non-empty pieces, `termFields` those of
them that a separator follows.

    termFields (a ++ sep :: b) = fields a ++ termFields b     (termFields_append_cons)

so a text of fields, each closed by a separator, is read back whole, and a cut
text keeps a prefix of its closed fields (`termFields_take_prefix`).
-/

namespace CLib

section
variable {α : Type*} [BEq α] [LawfulBEq α] (sep : α)

/-- The non-empty pieces of `l` between separators. -/
def fields (l : List α) : List (List α) := (l.splitOn sep).filter (!·.isEmpty)

/-- The non-empty pieces of `l` that end at a separator. -/
def termFields (l : List α) : List (List α) := (l.splitOn sep).dropLast.filter (!·.isEmpty)

omit [LawfulBEq α] in
@[simp] theorem fields_nil : fields sep ([] : List α) = [] := by
  simp [fields]

/-- A non-empty text without separator is one field. -/
theorem fields_of_not_mem (l : List α) (h : sep ∉ l) (hne : l ≠ []) : fields sep l = [l] := by
  unfold fields
  rw [List.splitOn_eq_singleton h]
  simp [hne]

/-- Text that no separator closes has no closed field. -/
theorem termFields_of_not_mem (l : List α) (h : sep ∉ l) : termFields sep l = [] := by
  unfold termFields
  rw [List.splitOn_eq_singleton h]
  rfl

theorem termFields_append_cons (a b : List α) :
    termFields sep (a ++ sep :: b) = fields sep a ++ termFields sep b := by
  unfold termFields fields
  rw [List.splitOn_append_cons_self, List.dropLast_append_of_ne_nil (List.splitOn_ne_nil sep b),
    List.filter_append]

theorem fields_append_cons (a b : List α) :
    fields sep (a ++ sep :: b) = fields sep a ++ fields sep b := by
  unfold fields
  rw [List.splitOn_append_cons_self, List.filter_append]

@[simp] theorem fields_cons_sep (l : List α) : fields sep (sep :: l) = fields sep l := by
  have := fields_append_cons sep [] l
  rwa [fields_nil, List.nil_append, List.nil_append] at this

@[simp] theorem termFields_cons_sep (l : List α) :
    termFields sep (sep :: l) = termFields sep l := by
  have := termFields_append_cons sep [] l
  rwa [fields_nil, List.nil_append, List.nil_append] at this

omit [LawfulBEq α] in
/-- A field is not empty. -/
theorem ne_nil_of_mem_fields {l t : List α} (h : t ∈ fields sep l) : t ≠ [] := by
  have := (List.mem_filter.mp h).2
  simpa using this

theorem not_mem_of_mem_splitOn (l : List α) : ∀ t ∈ l.splitOn sep, sep ∉ t := by
  induction l with
  | nil => simp
  | cons x l ih =>
    intro t ht
    rw [List.splitOn_cons_eq_if_modifyHead] at ht
    split at ht
    · rcases List.mem_cons.mp ht with rfl | ht
      · simp
      · exact ih t ht
    · next hx =>
      obtain ⟨s, ss, hs⟩ := List.exists_cons_of_ne_nil (List.splitOn_ne_nil sep l)
      rw [hs] at ht ih
      rcases List.mem_cons.mp ht with rfl | ht
      · have := ih s List.mem_cons_self
        rw [List.mem_cons, not_or]
        exact ⟨fun e => hx (by simp [e]), this⟩
      · exact ih t (List.mem_cons_of_mem _ ht)

/-- A field holds no separator. -/
theorem not_mem_of_mem_fields {l t : List α} (h : t ∈ fields sep l) : sep ∉ t :=
  not_mem_of_mem_splitOn sep l t (List.mem_filter.mp h).1

omit [LawfulBEq α] in
theorem sublist_of_mem_splitOn (l : List α) : ∀ t ∈ l.splitOn sep, t.Sublist l := by
  induction l with
  | nil => simp
  | cons x l ih =>
    intro t ht
    rw [List.splitOn_cons_eq_if_modifyHead] at ht
    split at ht
    · rcases List.mem_cons.mp ht with rfl | ht
      · exact List.nil_sublist _
      · exact (ih t ht).cons x
    · obtain ⟨s, ss, hs⟩ := List.exists_cons_of_ne_nil (List.splitOn_ne_nil sep l)
      rw [hs] at ht ih
      rcases List.mem_cons.mp ht with rfl | ht
      · exact (ih s List.mem_cons_self).cons_cons x
      · exact (ih t (List.mem_cons_of_mem _ ht)).cons x

omit [LawfulBEq α] in
/-- A field consists of letters of the text, in their order. -/
theorem sublist_of_mem_fields {l t : List α} (h : t ∈ fields sep l) : t.Sublist l :=
  sublist_of_mem_splitOn sep l t (List.mem_filter.mp h).1

omit [LawfulBEq α] in
theorem mem_fields_of_mem_termFields {l t : List α} (h : t ∈ termFields sep l) :
    t ∈ fields sep l := by
  rw [termFields, List.mem_filter] at h
  exact List.mem_filter.mpr ⟨List.dropLast_subset _ h.1, h.2⟩

omit [LawfulBEq α] in
/-- No more closed fields than separators. -/
theorem length_termFields_le_count (l : List α) : (termFields sep l).length ≤ l.count sep := by
  have hlen : (l.splitOn sep).length = l.count sep + 1 := by
    induction l with
    | nil => simp
    | cons x l ih =>
      rw [List.splitOn_cons_eq_if_modifyHead, List.count_cons]
      split
      · next hx => rw [List.length_cons, ih]
      · next hx => rw [List.length_modifyHead, ih]
  calc (termFields sep l).length ≤ (l.splitOn sep).dropLast.length := List.length_filter_le _ _
    _ = l.count sep := by rw [List.length_dropLast, hlen, Nat.add_sub_cancel]

/-- A prefix of a text has a prefix of its closed fields. -/
theorem termFields_append_prefix (a b : List α) :
    termFields sep a <+: termFields sep (a ++ b) := by
  induction hn : a.length using Nat.strong_induction_on generalizing a with
  | _ n ih =>
    by_cases hm : sep ∈ a
    · obtain ⟨p, q, rfl, -⟩ := List.eq_append_cons_of_mem hm
      rw [List.append_assoc, List.cons_append, termFields_append_cons, termFields_append_cons]
      obtain ⟨t, ht⟩ := ih q.length (by rw [← hn]; simp; omega) q rfl
      exact ⟨t, by rw [List.append_assoc, ht]⟩
    · rw [termFields_of_not_mem sep a hm]
      exact List.nil_prefix

theorem termFields_take_prefix (l : List α) (n : Nat) :
    termFields sep (l.take n) <+: termFields sep l := by
  have := termFields_append_prefix sep (l.take n) (l.drop n)
  rwa [List.take_append_drop] at this

/-! ## Reading one field -/

/-- The first closed field and the text after its separator. -/
def nextField (l : List α) : Option (List α × List α) :=
  let l' := l.dropWhile (· == sep)
  match l'.dropWhile (· != sep) with
  | [] => none
  | _ :: r => some (l'.takeWhile (· != sep), r)

@[simp] theorem nextField_cons_sep (l : List α) : nextField sep (sep :: l) = nextField sep l := by
  simp [nextField]

theorem nextField_append_cons (t r : List α) (ht : sep ∉ t) (hne : t ≠ []) :
    nextField sep (t ++ sep :: r) = some (t, r) := by
  have hall : ∀ y ∈ t, (y != sep) = true := by
    intro y hy
    rw [bne_iff_ne]
    rintro rfl
    exact ht hy
  obtain ⟨x, t', rfl⟩ := List.exists_cons_of_ne_nil hne
  have hx : (x == sep) = false := by simpa using hall x List.mem_cons_self
  have hskip : (x :: t' ++ sep :: r).dropWhile (· == sep) = x :: t' ++ sep :: r := by
    rw [List.cons_append, List.dropWhile_cons, if_neg (by simp [hx])]
  have hstop : (x :: t' ++ sep :: r).dropWhile (· != sep) = sep :: r := by
    rw [List.dropWhile_append_of_pos hall]
    simp
  simp only [nextField, hskip, hstop]
  rw [List.takeWhile_append_of_pos hall]
  simp

theorem nextField_of_not_mem (l : List α) (h : sep ∉ l) : nextField sep l = none := by
  have hall : ∀ y ∈ l.dropWhile (· == sep), (y != sep) = true := by
    intro y hy
    rw [bne_iff_ne]
    rintro rfl
    exact h ((List.dropWhile_sublist _).subset hy)
  unfold nextField
  simp only [List.dropWhile_eq_nil_iff.mpr hall]

/-- **One field at a time.**  `nextField` takes the head of `termFields`. -/
theorem nextField_spec (l : List α) :
    match nextField sep l with
    | some (t, r) => termFields sep l = t :: termFields sep r ∧ r <:+ l
    | none => termFields sep l = [] := by
  induction l with
  | nil => rfl
  | cons x l ih =>
    by_cases hx : x = sep
    · subst hx
      rw [nextField_cons_sep, termFields_cons_sep]
      cases hr : nextField x l with
      | none => rw [hr] at ih; exact ih
      | some p =>
        rw [hr] at ih
        exact ⟨ih.1, ih.2.trans (List.suffix_cons x l)⟩
    · by_cases hm : sep ∈ x :: l
      · obtain ⟨t, r, he, ht⟩ := List.eq_append_cons_of_mem hm
        have hne : t ≠ [] := by
          rintro rfl
          exact hx (List.cons.inj he).1
        rw [he, nextField_append_cons sep t r ht hne]
        refine ⟨?_, ⟨t ++ [sep], by simp⟩⟩
        rw [termFields_append_cons, fields_of_not_mem sep t ht hne, List.singleton_append]
      · rw [nextField_of_not_mem sep _ hm]
        exact termFields_of_not_mem sep _ hm

end

end CLib
