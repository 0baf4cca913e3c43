import KerberizedMikey.CLib.Memory

/-!
# getopt

`getopt` over the words behind the program's name, up to its end: the options in the order
of the calls, and the operands, which it moves behind them.  `takesArg` is the option
string: `none` for a character that is not in it, and whether a colon follows.

Where every option takes an argument, the command lines without a `'?'` are the written ones
(`getopt_ok_iff`):

    getopt takesArg args = (opts, ops), no '?' in opts  ↔  args = items, then maybe "--"

where an item is `-c arg`, `-carg` or an operand.
-/

namespace CLib

/-- What one call of `getopt` returns, with `optarg`. -/
inductive Opt
  | opt (c : UInt8) (optarg : Option Bytes)
  /-- `'?'`. -/
  | unknown
deriving DecidableEq

/-- '-' -/
def dash : UInt8 := 45

section
variable (takesArg : UInt8 → Option Bool)

/-- The characters of a word behind its dash; an option at the end of the word may want the
next word. -/
def optionChars : Bytes → List Opt × Option UInt8
  | [] => ([], none)
  | c :: cs =>
    match takesArg c with
    | none => (.unknown :: (optionChars cs).1, (optionChars cs).2)
    | some false => (.opt c none :: (optionChars cs).1, (optionChars cs).2)
    | some true => if cs = [] then ([], some c) else ([.opt c (some cs)], none)

/-- A word with a dash and more is one of options. -/
def isOptionWord : Bytes → Bool
  | b :: _ :: _ => b == dash
  | _ => false

def getopt : List Bytes → List Opt × List Bytes
  | [] => ([], [])
  | word :: args =>
    if word = [dash, dash] then ([], args)
    else if isOptionWord word then
      match (optionChars takesArg word.tail).2 with
      | none => ((optionChars takesArg word.tail).1 ++ (getopt args).1, (getopt args).2)
      | some c =>
        match args with
        | [] => ((optionChars takesArg word.tail).1 ++ [.unknown], [])
        | arg :: args =>
          ((optionChars takesArg word.tail).1 ++ .opt c (some arg) :: (getopt args).1,
            (getopt args).2)
    else ((getopt args).1, word :: (getopt args).2)

end

/-! ## Written command lines -/

/-- A piece of a command line. -/
inductive Item
  | attached (c : UInt8) (arg : Bytes) (h : arg ≠ [])
  | separate (c : UInt8) (arg : Bytes)
  | operand (word : Bytes) (h : isOptionWord word = false)

def Item.words : Item → List Bytes
  | .attached c arg _ => [dash :: c :: arg]
  | .separate c arg => [[dash, c], arg]
  | .operand word _ => [word]

/-- The option and its argument. -/
def Item.option : Item → Option (UInt8 × Bytes)
  | .attached c arg _ => some (c, arg)
  | .separate c arg => some (c, arg)
  | .operand _ _ => none

def Item.operand? : Item → Option Bytes
  | .operand word _ => some word
  | _ => none

/-- What may follow the items. -/
inductive Rest : List Bytes → List Bytes → Prop
  | none : Rest [] []
  | dashes (operands : List Bytes) : Rest ([dash, dash] :: operands) operands

section
variable {takesArg : UInt8 → Option Bool}

theorem optionChars_cons {c : UInt8} (hc : takesArg c = some true) (arg : Bytes) :
    optionChars takesArg (c :: arg) =
      if arg = [] then ([], some c) else ([.opt c (some arg)], none) := by
  rw [optionChars, hc]

theorem getopt_operand {word : Bytes} (h : isOptionWord word = false) (args : List Bytes) :
    getopt takesArg (word :: args) =
      ((getopt takesArg args).1, word :: (getopt takesArg args).2) := by
  have hne : word ≠ [dash, dash] := by
    rintro rfl
    cases h
  rw [getopt.eq_def]
  dsimp only
  rw [if_neg hne, if_neg (by rw [h]; decide)]

/-- A word of options. -/
theorem getopt_options {c : UInt8} (cs : Bytes) (hne : c :: cs ≠ [dash]) (args : List Bytes) :
    getopt takesArg ((dash :: c :: cs) :: args) =
      match (optionChars takesArg (c :: cs)).2 with
      | none => ((optionChars takesArg (c :: cs)).1 ++ (getopt takesArg args).1,
        (getopt takesArg args).2)
      | some c' =>
        match args with
        | [] => ((optionChars takesArg (c :: cs)).1 ++ [.unknown], [])
        | arg :: args =>
          ((optionChars takesArg (c :: cs)).1 ++ .opt c' (some arg) :: (getopt takesArg args).1,
            (getopt takesArg args).2) := by
  have hne : dash :: c :: cs ≠ [dash, dash] := fun h => hne (List.cons.inj h).2
  rw [getopt.eq_def]
  dsimp only
  rw [if_neg hne, if_pos (by rfl), List.tail_cons]

/-- The calls of `getopt` for an item. -/
theorem getopt_item (hdash : takesArg dash ≠ some true) (item : Item)
    (hc : ∀ o, item.option = some o → takesArg o.1 = some true) (args : List Bytes) :
    getopt takesArg (item.words ++ args) =
      ((item.option.map fun o => Opt.opt o.1 (some o.2)).toList ++ (getopt takesArg args).1,
        item.operand?.toList ++ (getopt takesArg args).2) := by
  have hne : ∀ {c : UInt8} {cs : Bytes}, takesArg c = some true → c :: cs ≠ [dash] := by
    rintro c cs hc ⟨⟩
    exact hdash hc
  cases item with
  | attached c arg h =>
    have hc : takesArg c = some true := hc (c, arg) rfl
    show getopt takesArg ((dash :: c :: arg) :: args) = _
    rw [getopt_options arg (hne hc), optionChars_cons hc, if_neg h]
    rfl
  | separate c arg =>
    have hc : takesArg c = some true := hc (c, arg) rfl
    have hchars : optionChars takesArg [c] = ([], some c) := optionChars_cons hc []
    show getopt takesArg ([dash, c] :: arg :: args) = _
    rw [getopt_options [] (hne hc)]
    simp only [hchars]
    rfl
  | operand word h => exact getopt_operand h args

/-- **Round trip.** -/
theorem getopt_words (hdash : takesArg dash ≠ some true) (items : List Item)
    (hc : ∀ o ∈ items.filterMap Item.option, takesArg o.1 = some true) {rest operands : List Bytes}
    (hrest : Rest rest operands) :
    getopt takesArg (items.flatMap Item.words ++ rest) =
      ((items.filterMap Item.option).map fun o => Opt.opt o.1 (some o.2),
        items.filterMap Item.operand? ++ operands) := by
  induction items with
  | nil =>
    cases hrest with
    | none => rfl
    | dashes =>
      show getopt takesArg ([dash, dash] :: operands) = ([], operands)
      rw [getopt.eq_def]
      exact if_pos rfl
  | cons item items ih =>
    have hhead : ∀ o, item.option = some o → takesArg o.1 = some true := fun o ho =>
      hc o (by rw [List.filterMap_cons, ho]; exact List.mem_cons_self)
    have htail : ∀ o ∈ items.filterMap Item.option, takesArg o.1 = some true := fun o ho =>
      hc o (by rw [List.filterMap_cons]; split <;> simp [ho])
    rw [List.flatMap_cons, List.append_assoc, getopt_item hdash item hhead, ih htail]
    cases item <;> rfl

/-- A word that makes no `'?'` is an item, or the first of one. -/
theorem exists_item (hflag : ∀ c, takesArg c ≠ some false) {word : Bytes} {args : List Bytes}
    (hdd : word ≠ [dash, dash]) (h : ∀ o ∈ (getopt takesArg (word :: args)).1, o ≠ .unknown) :
    ∃ (item : Item) (args' : List Bytes), word :: args = item.words ++ args' ∧
      (∀ o, item.option = some o → takesArg o.1 = some true) ∧ args'.length ≤ args.length := by
  by_cases hword : isOptionWord word = true
  case neg =>
    exact ⟨.operand word (Bool.not_eq_true _ ▸ hword), args, rfl, by rintro o ⟨⟩, Nat.le_refl _⟩
  match word, hword with
  | b :: c :: cs, hb =>
    obtain rfl : b = dash := eq_of_beq hb
    rw [getopt_options cs fun he => hdd (congrArg (dash :: ·) he)] at h
    cases hc : takesArg c with
    | none =>
      -- the first character is a '?'
      exfalso
      rw [optionChars, hc] at h
      dsimp only at h
      cases hcs : (optionChars takesArg cs).2 with
      | none =>
        rw [hcs] at h
        exact h .unknown (by simp) rfl
      | some c' =>
        rw [hcs] at h
        cases args <;> exact h .unknown (by simp) rfl
    | some t =>
      cases t with
      | false => exact absurd hc (hflag c)
      | true =>
        by_cases hcs : cs = []
        · subst hcs
          cases args with
          | nil =>
            rw [optionChars_cons hc, if_pos rfl] at h
            exact absurd rfl (h .unknown (by simp))
          | cons arg args =>
            exact ⟨.separate c arg, args, rfl, by rintro o ⟨⟩; exact hc, Nat.le_succ _⟩
        · exact ⟨.attached c cs hcs, args, rfl, by rintro o ⟨⟩; exact hc, Nat.le_refl _⟩

/-- **The command lines that getopt takes** are the written ones. -/
theorem getopt_ok_iff (hdash : takesArg dash ≠ some true) (hflag : ∀ c, takesArg c ≠ some false)
    (args : List Bytes) :
    (∀ o ∈ (getopt takesArg args).1, o ≠ .unknown) ↔
      ∃ (items : List Item) (rest operands : List Bytes), args = items.flatMap Item.words ++ rest ∧
        Rest rest operands ∧ ∀ o ∈ items.filterMap Item.option, takesArg o.1 = some true := by
  constructor
  · intro h
    induction hn : args.length using Nat.strong_induction_on generalizing args with
    | _ n ih =>
      cases args with
      | nil => exact ⟨[], [], [], rfl, .none, by simp⟩
      | cons word args =>
        by_cases hdd : word = [dash, dash]
        · exact ⟨[], _, args, by rw [hdd]; rfl, .dashes args, by simp⟩
        obtain ⟨item, args', he, hc, hlen⟩ := exists_item hflag hdd h
        rw [he, getopt_item hdash item hc] at h
        have hlt : args'.length < n := by
          rw [← hn, List.length_cons]
          omega
        obtain ⟨items, rest, operands, rfl, hrest, hitems⟩ :=
          ih _ hlt args' (fun o ho => h o (List.mem_append_right _ ho)) rfl
        refine ⟨item :: items, rest, operands, ?_, hrest, ?_⟩
        · rw [he, List.flatMap_cons, List.append_assoc]
        · intro o ho
          rcases List.mem_filterMap.mp ho with ⟨i, hi, hio⟩
          rcases List.mem_cons.mp hi with rfl | hi
          · exact hc o hio
          · exact hitems o (List.mem_filterMap.mpr ⟨i, hi, hio⟩)
  · rintro ⟨items, rest, operands, rfl, hrest, hc⟩ o ho
    rw [getopt_words hdash items hc hrest] at ho
    obtain ⟨p, -, rfl⟩ := List.mem_map.mp ho
    rintro ⟨⟩

end

end CLib
