import Mathlib.Tactic.Common
import KerberizedMikey.CLib.Runs

/-!
# What a program writes

`Output π α` is a program that writes lines `π` and then returns an `α` or stops.
Two programs look alike through `f` when what they write is the same after `f`.
A common beginning does not count, and lines count one by one:

    alike f (x >>= k) (x >>= k')  ↔  ∀ a ∈ x.result, alike f (k a) (k' a)   (alike_bind_iff)
    alike f (print p >>= k) (print q >>= k')
      ↔  f p = f q ∧ alike f (k ()) (k' ())                               (alike_print_iff)

so the comparison of two runs goes down to the lines in which they differ.

`Twin R x y`: the two write the same lines, and go on with results related by `R` or stop
together.  The rules follow the program text, and a loop keeps a relation of its states:

    each round keeps R and writes the same  →  so do all rounds          (Twin.forEach)
-/

namespace CLib

structure Output (π α : Type) where
  written : List π
  /-- `none`: the program has stopped. -/
  result : Option α

namespace Output

section
variable {π α β γ : Type}

instance : Monad (Output π) where
  pure a := ⟨[], some a⟩
  bind x k :=
    match x.result with
    | none => ⟨x.written, none⟩
    | some a => ⟨x.written ++ (k a).written, (k a).result⟩

def print (p : π) : Output π Unit := ⟨[p], some ()⟩

def stop : Output π α := ⟨[], none⟩

/-- A fault ends the program. -/
def ofExcept {ε : Type} : Except ε α → Output π α
  | .ok a => pure a
  | .error _ => stop

/-- `if (failed) { ...; exit(...); }` with a last line. -/
def exitIf (failed : Bool) (p : π) : Output π Unit :=
  if failed then print p >>= fun _ => stop else pure ()

/-- What is written is the same after `f`. -/
def alike (f : π → γ) (x y : Output π α) : Prop := x.written.map f = y.written.map f

end

section
variable {π α β γ δ : Type} (f : π → γ)

theorem bind_assoc' (x : Output π α) (k : α → Output π β) (l : β → Output π δ) :
    x >>= k >>= l = x >>= fun a => k a >>= l := by
  obtain ⟨written, result⟩ := x
  cases result with
  | none => rfl
  | some a =>
    cases h : (k a).result with
    | none => simp [bind, h]
    | some b => simp [bind, h]

theorem id_map' (x : Output π α) : id <$> x = x := by
  obtain ⟨written, result⟩ := x
  cases result with
  | none => rfl
  | some a =>
    show (⟨written ++ [], some a⟩ : Output π α) = ⟨written, some a⟩
    rw [List.append_nil]

instance : LawfulMonad (Output π) :=
  LawfulMonad.mk' (Output π) id_map' (fun _ _ => rfl) bind_assoc'

theorem written_bind_of_some {x : Output π α} {a : α} (h : x.result = some a)
    (k : α → Output π β) : (x >>= k).written = x.written ++ (k a).written := by
  show (match x.result with | none => _ | some a => _ : Output π β).written = _
  rw [h]

theorem written_bind_of_none {x : Output π α} (h : x.result = none) (k : α → Output π β) :
    (x >>= k).written = x.written := by
  show (match x.result with | none => _ | some a => _ : Output π β).written = _
  rw [h]

theorem result_bind_iff {x : Output π α} {k : α → Output π β} {b : β} :
    (x >>= k).result = some b ↔ ∃ a, x.result = some a ∧ (k a).result = some b := by
  obtain ⟨xs, r⟩ := x
  cases r with
  | none =>
    refine iff_of_false ?_ ?_
    · rintro ⟨⟩
    · rintro ⟨a, ⟨⟩, -⟩
  | some a =>
    constructor
    · intro h
      exact ⟨a, rfl, h⟩
    · rintro ⟨_, ⟨⟩, h⟩
      exact h

@[simp] theorem alike_refl (x : Output π α) : alike f x x := rfl

/-- **A common beginning** does not count. -/
theorem alike_bind_iff (x : Output π α) (k k' : α → Output π β) :
    alike f (x >>= k) (x >>= k') ↔ ∀ a, x.result = some a → alike f (k a) (k' a) := by
  unfold alike
  cases h : x.result with
  | none =>
    rw [written_bind_of_none h, written_bind_of_none h]
    simp
  | some a =>
    rw [written_bind_of_some h, written_bind_of_some h, List.map_append, List.map_append,
      List.append_cancel_left_eq]
    constructor
    · rintro hk b ⟨⟩
      exact hk
    · intro hk
      exact hk a rfl

/-- **One line** against one line. -/
theorem alike_print_iff (p q : π) (k k' : Unit → Output π β) :
    alike f (print p >>= k) (print q >>= k') ↔ f p = f q ∧ alike f (k ()) (k' ()) := by
  unfold alike
  rw [written_bind_of_some rfl, written_bind_of_some rfl]
  simp [print]

theorem result_print_bind (p : π) (k : Unit → Output π β) :
    (print p >>= k).result = (k ()).result := rfl

theorem result_exitIf_bind_iff (failed : Bool) (p : π) (k : Unit → Output π β) (b : β) :
    (exitIf failed p >>= k).result = some b ↔ failed = false ∧ (k ()).result = some b := by
  cases failed with
  | true =>
    refine iff_of_false ?_ ?_
    · rintro ⟨⟩
    · rintro ⟨⟨⟩, -⟩
  | false => exact ⟨fun h => ⟨rfl, h⟩, fun h => h.2⟩

theorem result_bind_of_some {x : Output π α} {a : α} (h : x.result = some a)
    (k : α → Output π β) : (x >>= k).result = (k a).result := by
  obtain ⟨xs, r⟩ := x
  cases h
  rfl

theorem result_ofExcept_bind {ε : Type} (x : Except ε α) (k : α → Output π β) :
    (ofExcept x >>= k).result = x.toOption.bind fun a => (k a).result := by
  cases x with
  | error e => rfl
  | ok a => rfl

@[simp] theorem ofExcept_ok {ε : Type} (a : α) :
    (ofExcept (.ok a : Except ε α) : Output π α) = pure a := rfl

@[simp] theorem map_stop (g : α → β) : (g <$> (stop : Output π α)) = stop := rfl

/-- The same line in both. -/
theorem alike_print_same_iff (p : π) (k k' : Unit → Output π β) :
    alike f (print p >>= k) (print p >>= k') ↔ alike f (k ()) (k' ()) := by
  rw [alike_print_iff]
  exact ⟨fun h => h.2, fun h => ⟨rfl, h⟩⟩

end

/-! ## Two programs side by side -/

section
variable {π α β γ δ ε : Type} {R : α → β → Prop} {S : γ → δ → Prop}

structure Twin (R : α → β → Prop) (x : Output π α) (y : Output π β) : Prop where
  written : x.written = y.written
  result : Option.Rel R x.result y.result

theorem Twin.pure {a : α} {b : β} (h : R a b) :
    Twin R (pure a : Output π α) (pure b : Output π β) := ⟨rfl, .some h⟩

theorem Twin.stop : Twin R (Output.stop : Output π α) (Output.stop : Output π β) :=
  ⟨rfl, .none⟩

theorem Twin.bind {x : Output π α} {y : Output π β} {k : α → Output π γ} {l : β → Output π δ}
    (h : Twin R x y) (hk : ∀ a b, R a b → Twin S (k a) (l b)) : Twin S (x >>= k) (y >>= l) := by
  obtain ⟨xs, r⟩ := x
  obtain ⟨ys, r'⟩ := y
  obtain ⟨hw, hr⟩ := h
  dsimp only at hw hr
  cases hr with
  | none => exact ⟨hw, .none⟩
  | @some a b hab =>
    obtain ⟨hw', hr'⟩ := hk a b hab
    refine ⟨?_, hr'⟩
    show xs ++ (k a).written = ys ++ (l b).written
    rw [hw, hw']

theorem Twin.refl (x : Output π α) : Twin Eq x x := by
  refine ⟨rfl, ?_⟩
  cases x.result with
  | none => exact .none
  | some a => exact .some rfl

theorem Twin.eq {x y : Output π α} (h : Twin Eq x y) : x = y := by
  obtain ⟨xs, r⟩ := x
  obtain ⟨ys, r'⟩ := y
  obtain ⟨hw, hr⟩ := h
  dsimp only at hw hr
  cases hr with
  | none => rw [hw]
  | some hab => rw [hw, hab]

/-- The same program in both. -/
theorem Twin.bind_same (x : Output π α) {k : α → Output π γ} {l : α → Output π δ}
    (h : ∀ a, Twin S (k a) (l a)) : Twin S (x >>= k) (x >>= l) := by
  apply (Twin.refl x).bind
  rintro a _ rfl
  exact h a

theorem Twin.ofExcept {x : Except ε α} {y : Except ε β} (h : Option.Rel R x.toOption y.toOption) :
    Twin R (Output.ofExcept x : Output π α) (Output.ofExcept y : Output π β) := by
  cases x with
  | error e =>
    cases y with
    | error e' => exact .stop
    | ok b => cases h
  | ok a =>
    cases y with
    | error e' => cases h
    | ok b =>
      cases h with
      | some hab => exact .pure hab

/-- Programs that are the same after a function of their results. -/
theorem Twin.of_map_eq {f : α → γ} {g : β → γ} {x : Output π α} {y : Output π β}
    (h : f <$> x = g <$> y) : Twin (fun a b => f a = g b) x y := by
  obtain ⟨xs, r⟩ := x
  obtain ⟨ys, r'⟩ := y
  cases r with
  | none =>
    cases r' with
    | none =>
      cases h
      exact ⟨rfl, .none⟩
    | some b => cases h
  | some a =>
    cases r' with
    | none => cases h
    | some b =>
      have hw : xs ++ [] = ys ++ [] := congrArg Output.written h
      have hr : some (f a) = some (g b) := congrArg Output.result h
      rw [List.append_nil, List.append_nil] at hw
      exact ⟨hw, .some (Option.some.inj hr)⟩

/-- The results are those of the two programs. -/
theorem Twin.results {x : Output π α} {y : Output π β} (h : Twin R x y) :
    Twin (fun a b => x.result = some a ∧ y.result = some b) x y := by
  obtain ⟨xs, r⟩ := x
  obtain ⟨ys, r'⟩ := y
  obtain ⟨hw, hr⟩ := h
  dsimp only at hw hr
  cases hr with
  | none => exact ⟨hw, .none⟩
  | some _ => exact ⟨hw, .some ⟨rfl, rfl⟩⟩

/-- Either both stop or neither. -/
theorem Twin.exists_result_iff {x : Output π α} {y : Output π β} (h : Twin R x y) :
    (∃ a, x.result = some a) ↔ ∃ b, y.result = some b := by
  obtain ⟨xs, r⟩ := x
  obtain ⟨ys, r'⟩ := y
  obtain ⟨-, hr⟩ := h
  dsimp only at hr ⊢
  cases hr with
  | none => exact iff_of_false (by rintro ⟨a, ⟨⟩⟩) (by rintro ⟨b, ⟨⟩⟩)
  | @some a b _ => exact iff_of_true ⟨a, rfl⟩ ⟨b, rfl⟩

theorem Twin.mono {R' : α → β → Prop} (hR : ∀ a b, R a b → R' a b) {x : Output π α}
    {y : Output π β} (h : Twin R x y) : Twin R' x y := by
  obtain ⟨xs, r⟩ := x
  obtain ⟨ys, r'⟩ := y
  obtain ⟨hw, hr⟩ := h
  dsimp only at hw hr
  cases hr with
  | none => exact ⟨hw, .none⟩
  | some hab => exact ⟨hw, .some (hR _ _ hab)⟩

/-- A loop over a list, with a state. -/
def forEach (f : α → γ → Output π γ) : List α → γ → Output π γ
  | [], s => pure s
  | a :: as, s => f a s >>= forEach f as

/-- A loop that comes to its end is a run. -/
theorem forEach_result_iff {f : α → γ → Output π γ} {as : List α} {s t : γ} :
    (forEach f as s).result = some t ↔ Run (fun s a t => (f a s).result = some t) s as t := by
  induction as generalizing s with
  | nil =>
    constructor
    · intro h
      cases h
      exact .nil
    · intro run
      rw [run.nil_eq]
      rfl
  | cons a as ih =>
    rw [Run.cons_iff, forEach, result_bind_iff]
    exact exists_congr fun u => and_congr_right fun _ => ih

/-- **Loops.**  `Q` relates what the rounds are about. -/
theorem Twin.forEach {Q : α → β → Prop} {f : α → γ → Output π γ} {g : β → δ → Output π δ}
    (hstep : ∀ a b s t, Q a b → S s t → Twin S (f a s) (g b t)) {as : List α} {bs : List β}
    (h : List.Forall₂ Q as bs) {s : γ} {t : δ} (hs : S s t) :
    Twin S (forEach f as s) (forEach g bs t) := by
  induction h generalizing s t with
  | nil => exact .pure hs
  | cons hab _ ih => exact (hstep _ _ _ _ hab hs).bind fun _ _ hs' => ih hs'

end

end Output

end CLib
