import VaultCovenant.Taproot.Tree

/-!
# Script-path signatures

The message of BIP-341 and BIP-342 that a signature in a script-path spend covers, with the default
signature hash type: the whole transaction without its witnesses, every output spent, the index of
the input and the leaf.

Results:
* `signScriptPath_eq_error_iff`: signing fails only if there is not one spent output an input.
-/

namespace VaultCovenant

namespace Transaction

/-- The digest of the concatenated pieces of a list. -/
def digestOf {α : Type} (items : List α) (piece : α → Bytes) : Bytes :=
  (sha256 (items.flatMap piece)).bytes

/-- The message for the input at `index` spending through the leaf with a hash. -/
def scriptPathMessage (tx : Transaction) (index : Nat) (spent : List TxOut) (leaf : Digest) :
    Bytes :=
  [0x00, 0x00] ++ tx.versionBytes ++ tx.lockTimeBytes
    ++ digestOf tx.inputs (·.previousOutput.serialize)
    ++ digestOf spent (fun o => Bytes.littleEndian 8 o.value.toNat)
    ++ digestOf spent (·.scriptPubkey.serialize)
    ++ digestOf tx.inputs (fun i => Bytes.littleEndian 4 i.sequence.toNat)
    ++ digestOf tx.outputs TxOut.serialize
    ++ [0x02] ++ Bytes.littleEndian 4 index
    ++ leaf.bytes ++ [0x00] ++ [0xff, 0xff, 0xff, 0xff]

/-- The digest that is signed. -/
def scriptPathSighash (tx : Transaction) (index : Nat) (spent : List TxOut) (leaf : Digest) :
    Digest :=
  taggedHash "TapSighash" (tx.scriptPathMessage index spent leaf)

end Transaction

/-- The signature for the input at `index`, given the outputs that the inputs spend in order. -/
def signScriptPath (tx : Transaction) (index : Nat) (spent : List TxOut) (leaf : Digest)
    (secret : SecretKey) : Except VaultError Bytes :=
  if spent.length = tx.inputs.length then
    .ok (Schnorr.sign secret (tx.scriptPathSighash index spent leaf))
  else .error (.cryptography "Sighash computation failed: prevouts size")

theorem signScriptPath_eq_error_iff {tx : Transaction} {index : Nat} {spent : List TxOut}
    {leaf : Digest} {secret : SecretKey} :
    (∃ e, signScriptPath tx index spent leaf secret = .error e) ↔
      spent.length ≠ tx.inputs.length := by
  unfold signScriptPath
  split <;> simp_all

/-- A small scalar as a secret key, with the failure for zero. -/
def SecretKey.ofScalar (scalar : UInt64) : Except VaultError SecretKey :=
  match SecretKey.ofScalar? scalar with
  | some key => .ok key
  | none =>
    .error (.cryptography ("invalid secret scalar " ++ toString scalar.toNat
      ++ ": malformed or out-of-range secret key"))

end VaultCovenant
