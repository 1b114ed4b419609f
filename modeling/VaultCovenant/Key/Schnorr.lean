import VaultCovenant.Hash.Tagged
import VaultCovenant.Key.Secret

/-!
# Schnorr signatures and tweaked keys

Signatures as in BIP-340, with 32 zero bytes as the auxiliary data, so that signing the same
message twice gives the same signature; and output keys as in BIP-341, an internal key tweaked by
a commitment.

Results:
* `length_sign`: a signature has 64 bytes.
-/

namespace VaultCovenant

namespace Schnorr

/-- The secret scalar, negated if the public point has an odd ordinate. -/
def evenScalar (key : SecretKey) (point : Curve.Affine) : Nat :=
  if point.hasEvenY then key.scalar else Curve.groupOrder - key.scalar

/-- The nonce before its sign is fixed: a hash of the masked secret, the public key and the
message. -/
def nonce (scalar : Nat) (publicKey : XOnlyKey) (message : Digest) : Nat :=
  let masked := (Bytes32.ofNat scalar).xor (taggedHash "BIP0340/aux" (Bytes.zeros 32))
  (taggedHash "BIP0340/nonce" (masked.bytes ++ publicKey.bytes ++ message.bytes)).toNat
    % Curve.groupOrder

/-- The challenge that a signature with nonce point `commitment` answers. -/
def challenge (commitment publicKey : XOnlyKey) (message : Digest) : Nat :=
  (taggedHash "BIP0340/challenge" (commitment.bytes ++ publicKey.bytes ++ message.bytes)).toNat
    % Curve.groupOrder

/-- The signature of a 32-byte message: the x coordinate of the nonce point, then the answer. -/
def sign (key : SecretKey) (message : Digest) : Bytes :=
  let point := key.point
  let publicKey := XOnlyKey.ofPoint point
  let d := evenScalar key point
  let k := nonce d publicKey message
  let r := (Curve.multiple k).toAffine
  let commitment := XOnlyKey.ofPoint r
  let k := if r.hasEvenY then k else Curve.groupOrder - k
  let answer := (k + challenge commitment publicKey message * d) % Curve.groupOrder
  commitment.bytes ++ (Bytes32.ofNat answer).bytes

theorem length_sign (key : SecretKey) (message : Digest) : (sign key message).length = 64 := by
  simp [sign, XOnlyKey.length_bytes, Bytes32.length_eq]

end Schnorr

/-- The key of a taproot output, with the parity of its point's ordinate. -/
structure TweakedKey where
  key : XOnlyKey
  oddY : Bool
  deriving DecidableEq

namespace XOnlyKey

/-- The data hashed into the tweak: the internal key, then the root of the tree if there is one. -/
def tweakData (key : XOnlyKey) (root : Option Digest) : Bytes :=
  key.bytes ++ (root.map (·.bytes)).getD []

/-- The scalar by which the internal key is tweaked. -/
def tweakScalar (key : XOnlyKey) (root : Option Digest) : Nat :=
  (taggedHash "TapTweak" (key.tweakData root)).toNat

/-- The internal key's point plus the tweak's multiple of the generator, when it is defined: the
tweak is below the group order, the key is that of a point, and the sum is not infinity. -/
def tweak? (key : XOnlyKey) (root : Option Digest) : Option TweakedKey := do
  let t := key.tweakScalar root
  let point ← key.point?
  let sum ← (Curve.addAffine (Curve.multiple t) point).toAffine?
  if t < Curve.groupOrder then return ⟨.ofPoint sum, !sum.hasEvenY⟩ else none

/-- The output key. Where the tweak is undefined, which happens for no key anybody knows, the
internal key itself stands in. -/
def tweak (key : XOnlyKey) (root : Option Digest) : TweakedKey :=
  (key.tweak? root).getD ⟨key, false⟩

end XOnlyKey

end VaultCovenant
