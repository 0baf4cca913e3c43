import KerberizedMikey.CLib.Decimal
import Mathlib.Data.Nat.Digits.Defs

/-!
# Text files

A text file is the list of its lines, each with its newline.

* `fgets n`  : the next line, or the `n - 1` bytes at its front
* `sumLines` : the numbers that some calls of `fgets` read, added up
* `lastLine` : `tail -n1`
-/

namespace CLib

abbrev TextFile := List Bytes

/-- `fgets(line, n, fp)` and what is left to read. -/
def fgets (n : Nat) : TextFile → Option (Bytes × TextFile)
  | [] => none
  | line :: rest =>
    if line.length < n then some (line, rest)
    else some (line.take (n - 1), line.drop (n - 1) :: rest)

/-- What `tail -n1` prints. -/
def lastLine (file : TextFile) : TextFile := file.getLast?.toList

/-- `count` times `if( fgets(line, n, fp) != NULL ) total += atol( line );`. -/
def sumLines (n : Nat) : (count : Nat) → TextFile → (total : Int) → Int
  | 0, _, total => total
  | count + 1, file, total =>
    match fgets n file with
    | some (line, rest) => sumLines n count rest (total + strtol line)
    | none => sumLines n count file total

/-- The lines fit the buffer of `fgets`. -/
def Fits (n : Nat) (file : TextFile) : Prop := ∀ line ∈ file, line.length < n

theorem fgets_cons {n : Nat} {line : Bytes} (rest : TextFile) (h : line.length < n) :
    fgets n (line :: rest) = some (line, rest) := if_pos h

theorem sumLines_nil (n count : Nat) (total : Int) : sumLines n count [] total = total := by
  induction count with
  | zero => rfl
  | succ count ih => exact ih

/-- **Enough reads add up the file.** -/
theorem sumLines_eq {n count : Nat} {file : TextFile} (total : Int) (hfit : Fits n file)
    (hc : file.length ≤ count) :
    sumLines n count file total = total + (file.map strtol).sum := by
  induction file generalizing count total with
  | nil => rw [sumLines_nil, List.map_nil, List.sum_nil, Int.add_zero]
  | cons line rest ih =>
    obtain ⟨count, rfl⟩ : ∃ k, count = k + 1 := ⟨count - 1, by rw [List.length_cons] at hc; omega⟩
    have hline := hfit line List.mem_cons_self
    rw [sumLines, fgets_cons rest hline]
    dsimp only
    rw [ih _ (fun l hl => hfit l (List.mem_cons_of_mem _ hl)) (Nat.le_of_succ_le_succ hc),
      List.map_cons, List.sum_cons, Int.add_assoc]

/-- A 64-bit `%ld` has at most 20 characters. -/
theorem length_fmtInt_le {z : Int} (h1 : -2 ^ 63 ≤ z) (h2 : z < 2 ^ 63) :
    (fmtInt z).length ≤ 20 := by
  have hdigits : (fmtNat z.natAbs).length ≤ 19 := by
    rw [fmtNat, List.length_map]
    exact Nat.toDigits_length 10 z.natAbs 19 (by decide) (by omega)
  unfold fmtInt
  split
  · rw [List.length_cons]
    omega
  · omega

end CLib
