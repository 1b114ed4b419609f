import VaultCovenant.Address.Base58
import VaultCovenant.Address.Bech32
import VaultCovenant.Transaction.Basic

/-!
# Addresses

The texts by which outputs are named to a wallet, and the networks they belong to.
-/

namespace VaultCovenant

/-- A network, as far as addresses tell one from another. -/
inductive Network where
  | main
  | test
  | regtest
  deriving DecidableEq

namespace Network

/-- The word in front of a network's witness programs. -/
def word : Network → String
  | main => "bc"
  | test => "tb"
  | regtest => "bcrt"

/-- The network with a word. -/
def ofWord? (text : String) : Option Network :=
  [main, test, regtest].find? fun network => network.word == text

end Network

/-- What an address names. Hashes are named alike on all networks but the main one. -/
inductive Address where
  | keyHash (onMain : Bool) (hash : Bytes)
  | scriptHash (onMain : Bool) (hash : Bytes)
  | witness (network : Network) (version : Nat) (program : Bytes)
  deriving DecidableEq

/-- Why a text is no address, or none that can be used. -/
inductive AddressError where
  /-- The text is neither a witness program nor checked data in base 58. -/
  | base58
  /-- The network of a witness program is not known. -/
  | unknownNetwork
  /-- The text is too long for data in base 58. -/
  | tooLong
  /-- The data is not one byte and a hash. -/
  | badLength
  /-- The first byte has no meaning. -/
  | badVersion
  /-- The address belongs to another network. -/
  | otherNetwork
  deriving DecidableEq

/-- The wording of a complaint about an address. -/
def AddressError.message : AddressError → String
  | base58 => "base58 error"
  | unknownNetwork => "tried to parse an unknown hrp"
  | tooLong => "legacy address base58 string"
  | badLength => "legacy address base58 data"
  | badVersion => "legacy address base58 prefix"
  | otherNetwork => "validation error"

namespace Address

/-- The text of an address. -/
def text : Address → String
  | keyHash onMain hash => Base58.encodeChecked ((if onMain then 0 else 111) :: hash)
  | scriptHash onMain hash => Base58.encodeChecked ((if onMain then 5 else 196) :: hash)
  | witness network version program => Bech32.encode network.word version program

/-- The address named by data in base 58. -/
def ofLegacyData : Bytes → Except AddressError Address
  | version :: hash =>
    if hash.length ≠ 20 then .error .badLength
    else if version = 0 then .ok (keyHash true hash)
    else if version = 111 then .ok (keyHash false hash)
    else if version = 5 then .ok (scriptHash true hash)
    else if version = 196 then .ok (scriptHash false hash)
    else .error .badVersion
  | [] => .error .badLength

/-- Reads an address: a witness program, or else data in base 58. -/
def ofText (text : String) : Except AddressError Address :=
  match Bech32.decode? text with
  | some (word, version, bytes) =>
    match Network.ofWord? word with
    | some network => .ok (witness network version bytes)
    | none => .error .unknownNetwork
  | none =>
    if 50 < text.utf8ByteSize then .error .tooLong
    else match Base58.decodeChecked? text with
      | some data => ofLegacyData data
      | none => .error .base58

/-- Whether an address can be used on the regression-test network. -/
def isRegtest : Address → Bool
  | keyHash onMain _ | scriptHash onMain _ => !onMain
  | witness network _ _ => network = .regtest

/-- The address, if it can be used on the regression-test network. -/
def onRegtest (a : Address) : Except AddressError Address :=
  if a.isRegtest then .ok a else .error .otherNetwork

/-- The address of the output that a script locks. -/
def ofWitnessScript (network : Network) (script : Script) : Address :=
  witness network 0 (sha256 script.bytes).bytes

end Address

end VaultCovenant
