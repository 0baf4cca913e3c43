import KerberizedMikey.CLib.Memory

/-!
# 16-bit integers in memory

`beBytes` is the big-endian image, `htons` the conversion of a little-endian host,
whose memory image of a short is `shortBytes`.

    shortBytes (htons n) = beBytes n,    htons (shortOf (beBytes n)) = n
-/

namespace CLib

/-- Most significant byte first. -/
def beBytes (n : UInt16) : Bytes := [(n >>> 8).toUInt8, n.toUInt8]

def ofBe (hi lo : UInt8) : UInt16 := hi.toUInt16 <<< 8 ||| lo.toUInt16

/-- `htons` and `ntohs` on a little-endian host. -/
def htons (n : UInt16) : UInt16 := n <<< 8 ||| n >>> 8

/-- A short in the memory of a little-endian host. -/
def shortBytes (x : UInt16) : Bytes := [x.toUInt8, (x >>> 8).toUInt8]

def shortOf (b0 b1 : UInt8) : UInt16 := ofBe b1 b0

theorem toNat_hi (n : UInt16) : (n >>> 8).toUInt8.toNat = n.toNat / 2 ^ 8 := by
  have := n.toNat_lt
  rw [UInt16.toNat_toUInt8, UInt16.toNat_shiftRight,
    show (8 : UInt16).toNat % 16 = 8 by decide, Nat.shiftRight_eq_div_pow]
  omega

theorem toNat_ofBe (hi lo : UInt8) : (ofBe hi lo).toNat = hi.toNat * 2 ^ 8 + lo.toNat := by
  have h1 := hi.toNat_lt
  have h2 := lo.toNat_lt
  rw [ofBe, UInt16.toNat_or, UInt16.toNat_shiftLeft, UInt8.toNat_toUInt16, UInt8.toNat_toUInt16,
    show (8 : UInt16).toNat % 16 = 8 by decide, Nat.mod_eq_of_lt (by rw [Nat.shiftLeft_eq]; omega),
    ← Nat.shiftLeft_add_eq_or_of_lt (by omega), Nat.shiftLeft_eq]

/-- The two bytes are read back. -/
theorem ofBe_bytes (n : UInt16) : ofBe (n >>> 8).toUInt8 n.toUInt8 = n := by
  apply UInt16.toNat.inj
  rw [toNat_ofBe, toNat_hi, UInt16.toNat_toUInt8]
  omega

theorem toNat_htons (n : UInt16) :
    (htons n).toNat = n.toNat % 2 ^ 8 * 2 ^ 8 + n.toNat / 2 ^ 8 := by
  have := n.toNat_lt
  rw [htons, UInt16.toNat_or, UInt16.toNat_shiftLeft, UInt16.toNat_shiftRight,
    show (8 : UInt16).toNat % 16 = 8 by decide, Nat.shiftRight_eq_div_pow]
  have h : n.toNat <<< 8 % 2 ^ 16 = (n.toNat % 2 ^ 8) <<< 8 := by
    rw [Nat.shiftLeft_eq, Nat.shiftLeft_eq]
    omega
  rw [h, ← Nat.shiftLeft_add_eq_or_of_lt (by omega), Nat.shiftLeft_eq]

/-- In network order the most significant byte comes first. -/
theorem shortBytes_htons (n : UInt16) : shortBytes (htons n) = beBytes n := by
  have h := toNat_htons n
  have hn := n.toNat_lt
  have h0 : (htons n).toUInt8 = (n >>> 8).toUInt8 := by
    apply UInt8.toNat.inj
    rw [UInt16.toNat_toUInt8, toNat_hi]
    omega
  have h1 : (htons n >>> 8).toUInt8 = n.toUInt8 := by
    apply UInt8.toNat.inj
    rw [toNat_hi, UInt16.toNat_toUInt8]
    omega
  rw [shortBytes, beBytes, h0, h1]

theorem htons_htons (n : UInt16) : htons (htons n) = n := by
  apply UInt16.toNat.inj
  have hn := n.toNat_lt
  rw [toNat_htons, toNat_htons]
  omega

/-- `ntohs` of a short received in network order. -/
theorem htons_shortOf_beBytes (n : UInt16) :
    htons (shortOf (n >>> 8).toUInt8 n.toUInt8) = n := by
  have h : shortOf (n >>> 8).toUInt8 n.toUInt8 = htons n := by
    apply UInt16.toNat.inj
    rw [shortOf, toNat_ofBe, toNat_htons, toNat_hi, UInt16.toNat_toUInt8]
  rw [h, htons_htons]

end CLib
