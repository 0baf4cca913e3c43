import KerberizedMikey.CLib.Shuffle
import Mathlib.Algebra.Ring.Nat
import Mathlib.Data.List.Nodup

/-!
# Groups and clients in random order

`test1` shuffles the group numbers for each client, `test3` the client numbers for each
group, and they use the front of the array.  The pick at `l` is
`rand() / (RAND_MAX/(nvalues-l) + 1)`, which is below `nvalues - l` (`pick_lt`); it is any
of these numbers if `(nvalues - l)^2` is at most `RAND_MAX` (`exists_rand`).
-/

namespace KerberizedMikey

open CLib

/-- `rand() / (RAND_MAX/(nvalues-l) + 1)`. -/
def pick (randMax nvalues l rand : Nat) : Nat := rand / (randMax / (nvalues - l) + 1)

/-- `for(l = 0; l < nvalues-1; l++)`, from `l` on, with the numbers `rand()` returns; one
swap for each. -/
def shuffleLoop {α : Type*} (randMax nvalues : Nat) : List Nat → (l : Nat) → List α →
    Option (List α)
  | [], _, a => some a
  | rand :: rands, l, a =>
    (swapAt a l (l + pick randMax nvalues l rand)).bind (shuffleLoop randMax nvalues rands (l + 1))

/-- `a[l] = l + 1`: the group numbers of `test1`. -/
def groupNumbers (nvalues : Nat) : List Nat := (List.range nvalues).map (· + 1)

/-- `a[k] = k`: the client numbers of `test3`. -/
def clientNumbers (nvalues : Nat) : List Nat := List.range nvalues

/-! ## The picks -/

theorem pick_lt {randMax nvalues l rand : Nat} (hl : l < nvalues) (hr : rand ≤ randMax) :
    pick randMax nvalues l rand < nvalues - l := by
  have hpos : 0 < nvalues - l := by omega
  have hlt := Nat.lt_mul_div_succ randMax hpos
  exact Nat.div_lt_of_lt_mul (by rw [Nat.mul_comm]; omega)

/-- Each pick has a number that leads to it, the smallest one. -/
theorem exists_rand {randMax nvalues l c : Nat} (hsq : nvalues ^ 2 ≤ randMax)
    (hc : c < nvalues - l) : ∃ rand, rand ≤ randMax ∧ pick randMax nvalues l rand = c := by
  generalize hm : nvalues - l = m at hc
  have hle : m ≤ nvalues := by omega
  have hdiv : m ≤ randMax / m := by
    rw [Nat.le_div_iff_mul_le (by omega)]
    calc m * m ≤ nvalues * nvalues := Nat.mul_le_mul hle hle
      _ = nvalues ^ 2 := (Nat.pow_two nvalues).symm
      _ ≤ randMax := hsq
  refine ⟨c * (randMax / m + 1), ?_, ?_⟩
  · have hmul : (c + 1) * (randMax / m) ≤ randMax :=
      Nat.le_trans (Nat.mul_le_mul_right _ hc) (Nat.mul_div_le randMax m)
    rw [Nat.succ_mul] at hmul
    rw [Nat.mul_succ]
    omega
  · rw [pick, hm]
    exact Nat.mul_div_cancel c (Nat.succ_pos _)

/-- The picks of the loop. -/
def picks (randMax nvalues : Nat) : List Nat → (l : Nat) → List Nat
  | [], _ => []
  | rand :: rands, l => pick randMax nvalues l rand :: picks randMax nvalues rands (l + 1)

theorem shuffleLoop_eq {α : Type*} (randMax nvalues : Nat) (rands : List Nat) (l : Nat)
    (a : List α) :
    shuffleLoop randMax nvalues rands l a = fisherYates (picks randMax nvalues rands l) l a := by
  induction rands generalizing l a with
  | nil => rfl
  | cons rand rands ih =>
    rw [shuffleLoop, picks, fisherYates]
    congr 1
    funext b
    exact ih (l + 1) b

theorem validPicks_picks {randMax nvalues l : Nat} {rands : List Nat}
    (hl : l + rands.length ≤ nvalues) (hr : ∀ r ∈ rands, r ≤ randMax) :
    ValidPicks (picks randMax nvalues rands l) (nvalues - l) := by
  induction rands generalizing l with
  | nil => exact trivial
  | cons rand rands ih =>
    rw [List.length_cons] at hl
    refine ⟨pick_lt (by omega) (hr rand List.mem_cons_self), ?_⟩
    exact ih (by omega) fun r hm => hr r (List.mem_cons_of_mem _ hm)

theorem exists_rands {randMax nvalues l : Nat} (hsq : nvalues ^ 2 ≤ randMax) {ps : List Nat}
    (h : ValidPicks ps (nvalues - l)) :
    ∃ rands, rands.length = ps.length ∧ (∀ r ∈ rands, r ≤ randMax) ∧
      picks randMax nvalues rands l = ps := by
  induction ps generalizing l with
  | nil => exact ⟨[], rfl, by simp, rfl⟩
  | cons c ps ih =>
    obtain ⟨hc, hps⟩ := h
    obtain ⟨rand, hr, hpick⟩ := exists_rand hsq hc
    obtain ⟨rands, hlen, hall, hrest⟩ := ih (l := l + 1) hps
    refine ⟨rand :: rands, by rw [List.length_cons, hlen, List.length_cons], ?_, ?_⟩
    · intro r hm
      rcases List.mem_cons.mp hm with rfl | hm
      · exact hr
      · exact hall r hm
    · rw [picks, hpick, hrest]

/-! ## The shuffled arrays -/

theorem nodup_groupNumbers (nvalues : Nat) : (groupNumbers nvalues).Nodup :=
  List.nodup_range.map fun _ _ h => Nat.succ.inj h

theorem nodup_clientNumbers (nvalues : Nat) : (clientNumbers nvalues).Nodup := List.nodup_range

/-- **The shuffles of `test1` and `test3`.**  Every index is in the array, the result is a
permutation whose first entries differ, and unless `RAND_MAX` is too small every
permutation is a result. -/
theorem shuffle_assigns (randMax nvalues : Nat) (h : 1 ≤ nvalues) :
    (∀ l rand, l < nvalues → rand ≤ randMax →
      l ≤ l + pick randMax nvalues l rand ∧ l + pick randMax nvalues l rand ≤ nvalues - 1) ∧
    ∀ a ∈ [groupNumbers nvalues, clientNumbers nvalues],
      (∀ rands : List Nat, rands.length = nvalues - 1 → (∀ r ∈ rands, r ≤ randMax) →
        ∃ b, shuffleLoop randMax nvalues rands 0 a = some b ∧ b.Perm a ∧
          ∀ count, (b.take count).Nodup) ∧
      (nvalues ^ 2 ≤ randMax → ∀ b, b.Perm a →
        ∃ rands : List Nat, rands.length = nvalues - 1 ∧ (∀ r ∈ rands, r ≤ randMax) ∧
          shuffleLoop randMax nvalues rands 0 a = some b) := by
  refine ⟨?_, ?_⟩
  · intro l rand hl hr
    have := pick_lt hl hr
    exact ⟨Nat.le_add_right _ _, by omega⟩
  intro a ha
  have hfacts : a.length = nvalues ∧ a.Nodup := by
    rcases List.mem_pair.mp ha with rfl | rfl
    · exact ⟨by simp [groupNumbers], nodup_groupNumbers nvalues⟩
    · exact ⟨by simp [clientNumbers], nodup_clientNumbers nvalues⟩
  obtain ⟨hlen, hnodup⟩ := hfacts
  constructor
  · intro rands hcount hr
    have hvalid : ValidPicks (picks randMax nvalues rands 0) (nvalues - 0) :=
      validPicks_picks (by omega) hr
    obtain ⟨b, hb, hperm⟩ := fisherYates_perm (Nat.zero_le a.length) (by rw [hlen]; exact hvalid)
    refine ⟨b, by rw [shuffleLoop_eq]; exact hb, hperm, ?_⟩
    intro count
    exact (hperm.nodup_iff.mpr hnodup).sublist (List.take_sublist count b)
  · intro hsq b hb
    obtain ⟨ps, hcount, hvalid, hshuffle⟩ := fisherYates_surjective hb []
    rw [hlen] at hcount hvalid
    obtain ⟨rands, hrlen, hall, hpicks⟩ := exists_rands (l := 0) hsq hvalid
    refine ⟨rands, by rw [hrlen, hcount], hall, ?_⟩
    rw [shuffleLoop_eq, hpicks]
    exact hshuffle

/-- Five groups with glibc's `RAND_MAX`: the reverse order is one of those reached. -/
theorem shuffle_assigns_five :
    ∃ rands : List Nat, rands.length = 4 ∧ (∀ r ∈ rands, r ≤ 2147483647) ∧
      shuffleLoop 2147483647 5 rands 0 (groupNumbers 5) = some [5, 4, 3, 2, 1] :=
  ((shuffle_assigns 2147483647 5 (by decide)).2 (groupNumbers 5) (by simp)).2 (by decide)
    [5, 4, 3, 2, 1] (by decide)

end KerberizedMikey
