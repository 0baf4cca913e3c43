import KerberizedMikey.CLib.Runs
import Mathlib.Algebra.Order.Group.Multiset

/-!
# A store-and-forward relay

Items are issued, travel in any order, and are taken by one relay that holds one at
a time and delivers or drops it, or crashes over it and takes no other.  In every reachable
state

    issued = pending + held + finished,   delivered + dropped = finished      (Relay.conserved)

so nothing is duplicated, mixed or lost without being dropped.

A relay that drops an item only by a crash, can deliver only those that are `ok` and crashes
only over those that are `fatal`, delivers nothing else (`delivered_run`); an item that is
neither, once it holds it, is the last one it ever took (`blocked`).
-/

namespace CLib

structure Relay (τ : Type*) where
  issued : Multiset τ
  pending : Multiset τ
  held : Multiset τ
  finished : Multiset τ
  delivered : Multiset τ
  dropped : Multiset τ
  running : Bool

namespace Relay

section
variable {τ : Type*}

def init : Relay τ := ⟨0, 0, 0, 0, 0, 0, true⟩

inductive Act (τ : Type*)
  | issue (x : τ)
  | take (x : τ)
  | deliver (x : τ)
  | drop (x : τ)
  | crash (x : τ)

inductive Step : Relay τ → Act τ → Relay τ → Prop
  | issue (s : Relay τ) (x : τ) :
      Step s (.issue x) { s with issued := x ::ₘ s.issued, pending := x ::ₘ s.pending }
  | take (s : Relay τ) (x : τ) (rest : Multiset τ) (hp : s.pending = x ::ₘ rest)
      (hh : s.held = 0) (hr : s.running = true) :
      Step s (.take x) { s with pending := rest, held := {x} }
  | deliver (s : Relay τ) (x : τ) (hh : s.held = {x}) :
      Step s (.deliver x)
        { s with held := 0, finished := x ::ₘ s.finished, delivered := x ::ₘ s.delivered }
  | drop (s : Relay τ) (x : τ) (hh : s.held = {x}) :
      Step s (.drop x)
        { s with held := 0, finished := x ::ₘ s.finished, dropped := x ::ₘ s.dropped }
  | crash (s : Relay τ) (x : τ) (hh : s.held = {x}) :
      Step s (.crash x)
        { s with
          held := 0, finished := x ::ₘ s.finished, dropped := x ::ₘ s.dropped, running := false }

structure Conserved (s : Relay τ) : Prop where
  issued : s.issued = s.pending + s.held + s.finished
  finished : s.delivered + s.dropped = s.finished

theorem conserved_step {s : Relay τ} {a : Act τ} {t : Relay τ} (hs : s.Conserved)
    (h : Step s a t) : t.Conserved := by
  obtain ⟨h1, h2⟩ := hs
  cases h with
  | issue x => exact ⟨by simp [h1], h2⟩
  | take x rest hp hh hr =>
    refine ⟨?_, h2⟩
    rw [h1, hp, hh, add_zero, ← Multiset.singleton_add, add_comm {x} rest]
  | deliver x hh =>
    refine ⟨?_, by simp [← h2]⟩
    rw [h1, hh, add_zero, ← Multiset.singleton_add, add_assoc]
  | drop x hh | crash x hh =>
    refine ⟨?_, by simp [← h2]⟩
    rw [h1, hh, add_zero, ← Multiset.singleton_add, add_assoc]

theorem conserved_init : (init : Relay τ).Conserved := ⟨rfl, rfl⟩

/-- **Conservation.** -/
theorem conserved {as : List (Act τ)} {s : Relay τ} (run : Run Step init as s) :
    s.Conserved :=
  Run.invariant (P := fun _ => True) conserved_init
    (fun _ _ _ _ hs h => conserved_step hs h) run fun _ _ => trivial

/-! ## A relay that waits -/

/-- A step of a relay that holds an item until it can deliver it, or crashes over it. -/
structure WaitStep (ok fatal : τ → Prop) (s : Relay τ) (a : Act τ) (t : Relay τ) : Prop where
  step : Step s a t
  deliver : ∀ x, a = .deliver x → ok x
  drop : ∀ x, a ≠ .drop x
  crash : ∀ x, a = .crash x → fatal x

variable {ok fatal : τ → Prop}

theorem delivered_step {s : Relay τ} {a : Act τ} {t : Relay τ} (h : WaitStep ok fatal s a t) :
    t.delivered = s.delivered ∨ ∃ x, ok x ∧ t.delivered = x ::ₘ s.delivered := by
  obtain ⟨hstep, hok, hdrop, -⟩ := h
  cases hstep with
  | issue x => exact .inl rfl
  | take x rest hp hh hr => exact .inl rfl
  | deliver x hh => exact .inr ⟨x, hok x rfl, rfl⟩
  | drop x hh => exact absurd rfl (hdrop x)
  | crash x hh => exact .inl rfl

/-- **Only items that are ok are delivered.** -/
theorem delivered_run {s : Relay τ} {as : List (Act τ)} {t : Relay τ}
    (run : Run (WaitStep ok fatal) s as t) :
    ∃ new, t.delivered = s.delivered + new ∧ ∀ x ∈ new, ok x := by
  induction run with
  | nil => exact ⟨0, (add_zero _).symm, by simp⟩
  | snoc run h ih =>
    obtain ⟨new, hnew, hok⟩ := ih
    rcases delivered_step h with he | ⟨x, hx, he⟩
    · exact ⟨new, he.trans hnew, hok⟩
    · refine ⟨x ::ₘ new, ?_, ?_⟩
      · rw [he, hnew, Multiset.add_cons]
      · intro y hy
        rcases Multiset.mem_cons.mp hy with rfl | hy
        · exact hx
        · exact hok y hy

/-- **Head-of-line blocking.**  Once it holds an item that is neither ok nor fatal, the relay
has that item for good, and takes and delivers nothing. -/
theorem blocked {s : Relay τ} {x : τ} (hh : s.held = {x}) (hx : ¬ok x) (hf : ¬fatal x)
    {as : List (Act τ)} {t : Relay τ} (run : Run (WaitStep ok fatal) s as t) :
    t.held = {x} ∧ t.delivered = s.delivered ∧ s.pending ≤ t.pending := by
  induction run with
  | nil => exact ⟨hh, rfl, le_refl _⟩
  | snoc run h ih =>
    obtain ⟨hheld, hdel, hpend⟩ := ih
    obtain ⟨hstep, hok, hdrop, hcrash⟩ := h
    cases hstep with
    | issue y => exact ⟨hheld, hdel, hpend.trans (Multiset.le_cons_self _ y)⟩
    | take y rest hp hh' hr =>
      rw [hheld] at hh'
      exact absurd hh' (Multiset.singleton_ne_zero x)
    | deliver y hh' =>
      rw [hheld, Multiset.singleton_inj] at hh'
      exact absurd (hok y rfl) (hh' ▸ hx)
    | drop y hh' => exact absurd rfl (hdrop y)
    | crash y hh' =>
      rw [hheld, Multiset.singleton_inj] at hh'
      exact absurd (hcrash y rfl) (hh' ▸ hf)

end

end Relay

end CLib
