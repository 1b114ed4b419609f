import VaultCovenant.Bytes
import VaultCovenant.Curve.Secp256k1

/-!
# Keys

Secret keys as scalars, and public keys by their x coordinate, as taproot uses them.

Results:
* `SecretKey.ofScalar?_eq_none_iff`: a 64-bit number is a secret key unless it is zero.
-/

namespace VaultCovenant

/-- A public key given by the x coordinate of its point; the point of even ordinate is meant. -/
structure XOnlyKey where
  coordinate : Bytes32
  deriving DecidableEq

namespace XOnlyKey

/-- The 32 bytes of the x coordinate. -/
def bytes (key : XOnlyKey) : Bytes := key.coordinate.bytes

theorem length_bytes (key : XOnlyKey) : key.bytes.length = 32 := key.coordinate.length_eq

/-- The hexadecimal text of the x coordinate. -/
def toHex (key : XOnlyKey) : String := key.coordinate.toHex

/-- The key's point of even ordinate, if the curve has a point with this x coordinate. -/
def point? (key : XOnlyKey) : Option Curve.Affine := Curve.liftX key.coordinate.toNat

/-- The key of a point. -/
def ofPoint (point : Curve.Affine) : XOnlyKey := ⟨Bytes32.ofNat point.x⟩

/-- The key with these bytes, if they are the x coordinate of a point. -/
def ofBytes? (bytes : Bytes) : Option XOnlyKey := do
  let key : XOnlyKey := ⟨← Bytes32.ofBytes? bytes⟩
  let _ ← key.point?
  return key

/-- The key without a known secret, at which an output without a usable key path is rooted. -/
def nothingUpMySleeve : XOnlyKey :=
  ⟨Bytes32.ofNat 0x50929b74c1a04954b78b4b6035e97a5e078a5a0f28ec96d547bfee9ace803ac0⟩

end XOnlyKey

/-- A scalar between one and the group order, exclusive of the latter. -/
structure SecretKey where
  scalar : Nat
  pos : 0 < scalar
  lt : scalar < Curve.groupOrder
  deriving DecidableEq

namespace SecretKey

/-- A small scalar as a secret key; zero is none. -/
def ofScalar? (scalar : UInt64) : Option SecretKey :=
  if h : 0 < scalar.toNat then
    some ⟨scalar.toNat, h, Nat.lt_trans scalar.toNat_lt (by decide)⟩
  else none

theorem ofScalar?_eq_none_iff {scalar : UInt64} : ofScalar? scalar = none ↔ scalar = 0 := by
  unfold ofScalar?
  split
  · rename_i h
    simp only [reduceCtorEq, false_iff]
    rintro rfl
    simp at h
  · rename_i h
    simp only [true_iff]
    exact UInt64.toNat_inj.1 (by simpa using h)

/-- The scalar as 32 bytes. -/
def bytes (key : SecretKey) : Bytes := (Bytes32.ofNat key.scalar).bytes

/-- The public point. -/
def point (key : SecretKey) : Curve.Affine := (Curve.multiple key.scalar).toAffine

/-- The public key by its x coordinate. -/
def xOnly (key : SecretKey) : XOnlyKey := .ofPoint key.point

/-- The public key in compressed form: the parity of the ordinate, then the x coordinate. -/
def compressed (key : SecretKey) : Bytes :=
  let point := key.point
  (if point.hasEvenY then 0x02 else 0x03) :: Bytes.bigEndian 32 point.x

end SecretKey

end VaultCovenant
