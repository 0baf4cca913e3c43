import Mathlib.Data.List.Perm.Basic
import Mathlib.Tactic.Common

/-!
# Shuffling an array in place

`fisherYates picks l a` swaps `a[l]` with `a[l + c]` for the first pick `c`, `a[l + 1]`
for the second, and so on.  With picks inside the rest of the array

* the result is a permutation of the array     (`fisherYates_perm`)
* every permutation is a result                (`fisherYates_surjective`)
-/

namespace CLib

section
variable {α : Type*}

/-- `t = a[i]; a[i] = a[k]; a[k] = t;`, or `none` outside the array. -/
def swapAt (a : List α) (i k : Nat) : Option (List α) := do
  let t ← a[i]?
  let u ← a[k]?
  return (a.set i u).set k t

def fisherYates : (picks : List Nat) → (l : Nat) → List α → Option (List α)
  | [], _, a => some a
  | c :: picks, l, a => (swapAt a l (l + c)).bind (fisherYates picks (l + 1))

/-- Each pick is below what is left of `m` places. -/
def ValidPicks : List Nat → (m : Nat) → Prop
  | [], _ => True
  | c :: picks, m => c < m ∧ ValidPicks picks (m - 1)

theorem swapAt_perm {a : List α} {i k : Nat} (hi : i < a.length) (hk : k < a.length) :
    ∃ b, swapAt a i k = some b ∧ b.Perm a := by
  refine ⟨(a.set i a[k]).set k a[i], ?_, List.set_set_perm hi hk⟩
  rw [swapAt, List.getElem?_eq_getElem hi, List.getElem?_eq_getElem hk]
  rfl

/-- **A shuffle permutes.** -/
theorem fisherYates_perm {picks : List Nat} {l : Nat} {a : List α} (hl : l ≤ a.length)
    (h : ValidPicks picks (a.length - l)) :
    ∃ b, fisherYates picks l a = some b ∧ b.Perm a := by
  induction picks generalizing l a with
  | nil => exact ⟨a, rfl, List.Perm.refl a⟩
  | cons c picks ih =>
    obtain ⟨hc, hpicks⟩ := h
    obtain ⟨b, hb, hperm⟩ := swapAt_perm (a := a) (i := l) (k := l + c) (by omega) (by omega)
    have hlen := hperm.length_eq
    obtain ⟨d, hd, hd'⟩ := ih (l := l + 1) (a := b) (by omega) (by
      rw [hlen, Nat.sub_add_eq]
      exact hpicks)
    refine ⟨d, ?_, hd'.trans hperm⟩
    rw [fisherYates, hb]
    exact hd

/-- Places in front of the swap do not matter. -/
theorem swapAt_append (front a : List α) (c : Nat) :
    swapAt (front ++ a) front.length (front.length + c) = (swapAt a 0 c).map (front ++ ·) := by
  have h0 : (front ++ a)[front.length]? = a[0]? := by
    rw [List.getElem?_append_right (Nat.le_refl _), Nat.sub_self]
  have hc : (front ++ a)[front.length + c]? = a[c]? := by
    rw [List.getElem?_append_right (by omega), Nat.add_sub_cancel_left]
  rw [swapAt, h0, hc]
  unfold swapAt
  cases a[0]? with
  | none => rfl
  | some t =>
    cases a[c]? with
    | none => rfl
    | some u =>
      show some (((front ++ a).set front.length u).set (front.length + c) t) =
        some (front ++ (a.set 0 u).set c t)
      rw [List.set_append_right _ _ (Nat.le_refl _), Nat.sub_self,
        List.set_append_right _ _ (by omega), Nat.add_sub_cancel_left]

/-- The pick comes to the front. -/
theorem swapAt_front {a : List α} {c : Nat} (hc : c < a.length) :
    ∃ rest, swapAt a 0 c = some (a[c] :: rest) := by
  match a, c, hc with
  | x :: xs, 0, _ => exact ⟨xs, rfl⟩
  | x :: xs, c + 1, hc =>
    have hc' : c < xs.length := Nat.lt_of_succ_lt_succ hc
    refine ⟨xs.set c x, ?_⟩
    rw [swapAt, List.getElem?_eq_getElem hc]
    rfl

/-- **A shuffle reaches every permutation**; by induction on the array to reach, whose
head the first pick brings to the front. -/
theorem fisherYates_surjective {a b : List α} (h : b.Perm a) (front : List α) :
    ∃ picks, picks.length = a.length - 1 ∧ ValidPicks picks a.length ∧
      fisherYates picks front.length (front ++ a) = some (front ++ b) := by
  induction b generalizing a front with
  | nil =>
    rw [List.nil_perm.mp h]
    exact ⟨[], rfl, trivial, rfl⟩
  | cons x b ih =>
    obtain ⟨c, hc, hx⟩ := List.getElem_of_mem (h.mem_iff.mp List.mem_cons_self)
    have hlen := h.length_eq
    rw [List.length_cons] at hlen
    by_cases hb : b = []
    · subst hb
      rw [← List.singleton_perm.mp h]
      exact ⟨[], rfl, trivial, rfl⟩
    obtain ⟨rest, hswap⟩ := swapAt_front hc
    rw [hx] at hswap
    have hperm : b.Perm rest := by
      obtain ⟨d, hd, hd'⟩ := swapAt_perm (a := a) (i := 0) (k := c) (by omega) hc
      rw [hswap] at hd
      cases hd
      exact (h.trans hd'.symm).cons_inv
    have hpos := List.length_pos_iff.mpr hb
    have hrest := hperm.length_eq
    obtain ⟨picks, hcount, hvalid, hshuffle⟩ := ih hperm (front ++ [x])
    refine ⟨c :: picks, ?_, ⟨hc, ?_⟩, ?_⟩
    · rw [List.length_cons]
      omega
    · rw [show a.length - 1 = rest.length by omega]
      exact hvalid
    · rw [fisherYates, swapAt_append, hswap]
      rw [List.length_append, List.append_assoc, List.append_assoc] at hshuffle
      exact hshuffle

end

end CLib
