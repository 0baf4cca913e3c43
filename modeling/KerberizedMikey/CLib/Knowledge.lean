import Mathlib.Tactic.Common

/-!
# What an attacker learns from messages

`opens a c`: in one of the messages, who has the key `a` finds the key `c`.  `Learns known
opens` are the keys an attacker gets who starts with `known` and opens whatever he can.

* `Learns.mono`   : with more keys, or more messages, he learns no less
* `Learns.secret` : he learns no key of a set that he has no key of, and whose keys are
  found only with keys of the set
* `learns_iff`    : how he got a key last
* `learns_iff_of_unique` : what one key only opens, he learns just when he learns this key
-/

namespace CLib

section
variable {κ : Type*} {known known' : κ → Prop} {opens opens' : κ → κ → Prop} {k : κ}

inductive Learns (known : κ → Prop) (opens : κ → κ → Prop) : κ → Prop
  | known (k : κ) (h : known k) : Learns known opens k
  | opened (a c : κ) (ha : Learns known opens a) (h : opens a c) : Learns known opens c

theorem Learns.mono (hk : ∀ k, known k → known' k) (ho : ∀ a c, opens a c → opens' a c)
    (h : Learns known opens k) : Learns known' opens' k := by
  induction h with
  | known k h => exact .known k (hk k h)
  | opened a c _ h ih => exact .opened a c ih (ho a c h)

/-- **Secrecy.** -/
theorem Learns.secret (secret : κ → Prop) (hk : ∀ k, known k → ¬secret k)
    (ho : ∀ a c, opens a c → secret c → secret a) (h : Learns known opens k) : ¬secret k := by
  induction h with
  | known k h => exact hk k h
  | opened a c _ h ih => exact fun hc => ih (ho a c h hc)

theorem learns_iff :
    Learns known opens k ↔ known k ∨ ∃ a, Learns known opens a ∧ opens a k := by
  constructor
  · intro h
    cases h with
    | known _ h => exact .inl h
    | opened a _ ha h => exact .inr ⟨a, ha, h⟩
  · rintro (h | ⟨a, ha, h⟩)
    · exact .known k h
    · exact .opened a k ha h

theorem learns_iff_of_unique {a : κ} (hn : ¬known k) (ho : opens a k)
    (hu : ∀ b, opens b k → b = a) : Learns known opens k ↔ Learns known opens a := by
  rw [learns_iff]
  constructor
  · rintro (h | ⟨b, hb, h⟩)
    · exact absurd h hn
    · rw [← hu b h]
      exact hb
  · intro h
    exact .inr ⟨a, h, ho⟩

end

end CLib
