import KerberizedMikey.Mikey

/-!
# A libmikey without encryption

An instance of `LibMikey` on which the model runs: a message is its PSK, TGK and
extension in letters `A`–`P`, each part closed by `..`; a message authenticates under
the PSK it carries, and is parsed under any.
-/

namespace KerberizedMikey

open CLib

def letterPair (b : UInt8) : Bytes := [65 + b / 16, 65 + b % 16]

/-- One part of a message. -/
def writePart (bs : Bytes) : Bytes := bs.flatMap letterPair ++ [46, 46]

/-- A part and what follows it. -/
def readPart : Bytes → Option (Bytes × Bytes)
  | hi :: lo :: rest =>
    if hi = 46 then some ([], rest)
    else (readPart rest).map fun (bs, rest) => (((hi - 65) * 16 + (lo - 65)) :: bs, rest)
  | _ => none

theorem letterPair_facts : ∀ n, n < 256 →
    (65 + n.toUInt8 / 16 - 65) * 16 + (65 + n.toUInt8 % 16 - 65) = n.toUInt8 ∧
      65 + n.toUInt8 / 16 ≠ 46 ∧ 65 + n.toUInt8 / 16 ≠ 0 ∧ 65 + n.toUInt8 % 16 ≠ 0 := by
  decide +kernel

theorem letterPair_spec (b : UInt8) :
    (65 + b / 16 - 65) * 16 + (65 + b % 16 - 65) = b ∧
      65 + b / 16 ≠ 46 ∧ 65 + b / 16 ≠ 0 ∧ 65 + b % 16 ≠ 0 := by
  have := letterPair_facts b.toNat b.toNat_lt
  rwa [show b.toNat.toUInt8 = b by simp] at this

theorem readPart_writePart (bs rest : Bytes) :
    readPart (writePart bs ++ rest) = some (bs, rest) := by
  induction bs with
  | nil => rfl
  | cons b bs ih =>
    obtain ⟨hval, h46, -, -⟩ := letterPair_spec b
    show (if 65 + b / 16 = 46 then _ else (readPart (writePart bs ++ rest)).map _) = _
    rw [if_neg h46, ih, Option.map_some, hval]

theorem not_mem_writePart (bs : Bytes) : 0 ∉ writePart bs := by
  intro h
  rcases List.mem_append.mp h with h | h
  · obtain ⟨b, -, hb⟩ := List.mem_flatMap.mp h
    obtain ⟨-, -, h1, h2⟩ := letterPair_spec b
    rcases List.mem_cons.mp hb with hb | hb
    · exact h1 hb.symm
    · exact h2 (List.mem_singleton.mp hb).symm
  · simp at h

/-- The entropy is the TGK that `generateTgk` returns. -/
def plainMikey : LibMikey Bytes where
  generateTgk r := r.take maxTgk
  nextPayloadType := 1
  initMessage psk tgk extension _ _ :=
    ⟨writePart psk ++ (writePart tgk ++ (extension.map writePart).getD []), by
      have := not_mem_writePart
      cases extension <;> simp [this]⟩
  receive psk text :=
    match readPart text with
    | none => (false, none)
    | some (key, rest) =>
      match readPart rest with
      | none => (false, none)
      | some (tgk, rest) => (key == psk, some ⟨tgk, (readPart rest).map (·.1)⟩)

theorem plainMikey_lawful : plainMikey.Lawful where
  generateTgk_length r := List.length_take_le _ _
  receive_initMessage psk tgk extension peerUri r _ := by
    refine ⟨[], ?_⟩
    simp only [plainMikey, readPart_writePart, beq_self_eq_true]
    cases extension with
    | none => rfl
    | some ext =>
      have := readPart_writePart ext []
      rw [List.append_nil] at this
      simp [this]

theorem plainMikey_keyed : plainMikey.Keyed := by
  intro psk psk' tgk extension peerUri r _ _ h
  simp only [plainMikey, readPart_writePart] at h
  exact (beq_iff_eq.mp h).symm

/-! Clients and a group to run it with. -/

def aliceName : CString := ⟨ascii "alice@LOCALHOST", by decide⟩
def bobName : CString := ⟨ascii "bob@LOCALHOST", by decide⟩
def groupOne : CString := ⟨ascii "group1", by decide⟩

end KerberizedMikey
