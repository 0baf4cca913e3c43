import KerberizedMikey.CLib.Memory

/-!
# Simple commands of the shell

What `sh -c` makes of a command of plain words, blanks and `>>`: the arguments of the
program, and the file that its output is appended to.  A command with any other character
is outside of this (`none`), as is one whose first word might be a reserved word.

    plain words with a blank behind each, then ">> file "  ↦  these words, and the file
                                                                     (sh_written)
-/

namespace CLib

/-- A letter, a digit or one of "-./_", which the shell takes as they are. -/
def isPlain (b : UInt8) : Bool :=
  decide (65 ≤ b) && decide (b ≤ 90) || decide (97 ≤ b) && decide (b ≤ 122) ||
    decide (45 ≤ b) && decide (b ≤ 57) || b == 95

inductive ShToken
  | word (w : Bytes)
  /-- `>>` -/
  | appendTo
deriving DecidableEq

/-- The end of a word, if one has begun. -/
def endWord (word : Bytes) : List ShToken := if word = [] then [] else [.word word]

/-- The tokens of the text behind the beginning of a word. -/
def shTokens (word : Bytes) : Bytes → Option (List ShToken)
  | [] => some (endWord word)
  | b :: s =>
    if b = 32 then (shTokens [] s).map (endWord word ++ ·)
    else if b = 62 then
      match word, s with
      | [], 62 :: s => (shTokens [] s).map (.appendTo :: ·)
      -- `>`, and digits in front that name a descriptor
      | _, _ => none
    else if isPlain b then shTokens (word ++ [b]) s
    else none

/-- The words, and the file of the last redirection. -/
def shWords : List ShToken → Option (List Bytes × Option Bytes)
  | [] => some ([], none)
  | .word w :: ts => (shWords ts).map fun p => (w :: p.1, p.2)
  | .appendTo :: .word f :: ts => (shWords ts).map fun p => (p.1, p.2.or (some f))
  | .appendTo :: _ => none

/-- `sh -c`: the arguments from `argv[0]` on, and the file for standard output. -/
def sh (command : Bytes) : Option (List Bytes × Option Bytes) :=
  match (shTokens [] command).bind shWords with
  -- no reserved word has a slash
  | some (words, out) => if 47 ∈ words.headD [] then some (words, out) else none
  | none => none

/-! ## Written commands -/

def IsPlainWord (w : Bytes) : Prop := w ≠ [] ∧ ∀ b ∈ w, isPlain b = true

theorem isPlainWord_iff (w : Bytes) :
    (!w.isEmpty && w.all isPlain) = true ↔ IsPlainWord w := by
  cases w <;> simp [IsPlainWord]

instance (w : Bytes) : Decidable (IsPlainWord w) := decidable_of_iff _ (isPlainWord_iff w)

theorem isPlainWord_append {u v : Bytes} (hu : IsPlainWord u)
    (hv : ∀ b ∈ v, isPlain b = true) : IsPlainWord (u ++ v) := by
  refine ⟨List.append_ne_nil_of_left_ne_nil hu.1 v, ?_⟩
  intro b hb
  rcases List.mem_append.mp hb with hb | hb
  · exact hu.2 b hb
  · exact hv b hb

/-- The token and a blank. -/
def ShToken.written : ShToken → Bytes
  | .word w => w ++ [32]
  | .appendTo => [62, 62, 32]

theorem shTokens_blank (word s : Bytes) :
    shTokens word (32 :: s) = (shTokens [] s).map (endWord word ++ ·) := by
  rw [shTokens.eq_def]
  exact if_pos rfl

theorem shTokens_appendTo (s : Bytes) :
    shTokens [] (62 :: 62 :: s) = (shTokens [] s).map (.appendTo :: ·) := by
  rw [shTokens.eq_def]
  exact (if_neg (by decide)).trans (if_pos rfl)

theorem shTokens_plain {b : UInt8} (hb : isPlain b = true) (word s : Bytes) :
    shTokens word (b :: s) = shTokens (word ++ [b]) s := by
  have h32 : b ≠ 32 := by
    rintro rfl
    exact absurd hb (by decide)
  have h62 : b ≠ 62 := by
    rintro rfl
    exact absurd hb (by decide)
  rw [shTokens.eq_def]
  dsimp only
  rw [if_neg h32, if_neg h62, if_pos hb]

/-- A plain word is read to its end. -/
theorem shTokens_append {w : Bytes} (hw : ∀ b ∈ w, isPlain b = true) (word s : Bytes) :
    shTokens word (w ++ s) = shTokens (word ++ w) s := by
  induction w generalizing word with
  | nil => rw [List.nil_append, List.append_nil]
  | cons b w ih =>
    rw [List.cons_append, shTokens_plain (hw b List.mem_cons_self),
      ih (fun c hc => hw c (List.mem_cons_of_mem _ hc)), List.append_assoc]
    rfl

/-- **The tokens of a written command** are those written. -/
theorem shTokens_written {ts : List ShToken} (h : ∀ w, .word w ∈ ts → IsPlainWord w) :
    shTokens [] (ts.flatMap ShToken.written) = some ts := by
  induction ts with
  | nil => rfl
  | cons t ts ih =>
    have ih := ih fun w hw => h w (List.mem_cons_of_mem _ hw)
    rw [List.flatMap_cons]
    cases t with
    | word w =>
      obtain ⟨hne, hw⟩ := h w List.mem_cons_self
      rw [ShToken.written, List.append_assoc, shTokens_append hw, List.nil_append]
      show shTokens w (32 :: ts.flatMap ShToken.written) = _
      rw [shTokens_blank, ih, endWord, if_neg hne]
      rfl
    | appendTo =>
      show shTokens [] (62 :: 62 :: 32 :: ts.flatMap ShToken.written) = _
      rw [shTokens_appendTo, shTokens_blank, ih]
      rfl

theorem IsPlainWord.nul_free {w : Bytes} (h : IsPlainWord w) : 0 ∉ w := fun h0 =>
  absurd (h.2 0 h0) (by decide)

theorem nul_free_written {ts : List ShToken} (h : ∀ w, .word w ∈ ts → IsPlainWord w) :
    0 ∉ ts.flatMap ShToken.written := by
  intro h0
  obtain ⟨t, ht, h0⟩ := List.mem_flatMap.mp h0
  cases t with
  | word w =>
    rcases List.mem_append.mp h0 with h0 | h0
    · exact (h w ht).nul_free h0
    · exact absurd h0 (by decide)
  | appendTo => exact absurd h0 (by decide)

/-- The program with its arguments, and the file for its output. -/
def appendCommand (words : List Bytes) (file : Bytes) : List ShToken :=
  words.map .word ++ [.appendTo, .word file]

theorem isPlainWord_of_mem_appendCommand {words : List Bytes} {file : Bytes}
    (hwords : ∀ w ∈ words, IsPlainWord w) (hfile : IsPlainWord file) :
    ∀ w, .word w ∈ appendCommand words file → IsPlainWord w := by
  intro w hw
  rcases List.mem_append.mp hw with hw | hw
  · obtain ⟨v, hv, he⟩ := List.mem_map.mp hw
    cases he
    exact hwords w hv
  · simp only [List.mem_cons, List.not_mem_nil, reduceCtorEq, ShToken.word.injEq, or_false,
      false_or] at hw
    rw [hw]
    exact hfile

/-- **A written command.**  The program gets the words, and the file its output. -/
theorem sh_written {prog file : Bytes} {args : List Bytes} (hslash : 47 ∈ prog)
    (hwords : ∀ w ∈ prog :: args, IsPlainWord w) (hfile : IsPlainWord file) :
    sh ((appendCommand (prog :: args) file).flatMap ShToken.written) =
      some (prog :: args, some file) := by
  have hparse : ∀ ws : List Bytes,
      shWords (appendCommand ws file) = some (ws, some file) := by
    intro ws
    induction ws with
    | nil => rfl
    | cons w ws ih =>
      show (shWords (appendCommand ws file)).map _ = _
      rw [ih]
      rfl
  rw [sh, shTokens_written (isPlainWord_of_mem_appendCommand hwords hfile), Option.bind_some,
    hparse]
  exact if_pos hslash

end CLib
