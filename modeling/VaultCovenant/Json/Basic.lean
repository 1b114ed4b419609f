/-!
# JSON values

The values of JSON and how they are taken apart. A number written without a fraction or an exponent
is an integer; every other number keeps its decimal digits.
-/

namespace VaultCovenant

/-- A JSON value. -/
inductive Json where
  | null
  | bool (value : Bool)
  | int (value : Int)
  /-- `digits · 10 ^ exponent`, of a number written with a fraction or an exponent. -/
  | decimal (digits exponent : Int)
  | str (text : String)
  | arr (items : List Json)
  | obj (fields : List (String × Json))
  deriving Inhabited

namespace Json

/-- The value of a field; of several with one name the last counts. -/
def field? (name : String) : Json → Option Json
  | obj fields => (fields.reverse.find? fun field => field.1 == name).map Prod.snd
  | _ => none

/-- The value of a field, or null if there is none. -/
def field (name : String) (value : Json) : Json := (value.field? name).getD null

/-- Whether a value is null. -/
def isNull : Json → Bool
  | null => true
  | _ => false

/-- The text of a string. -/
def text? : Json → Option String
  | str text => some text
  | _ => none

/-- The number of an integer. -/
def int? : Json → Option Int
  | int value => some value
  | _ => none

/-- The number of an integer from 0 to `2⁶⁴ − 1`. -/
def uint64? : Json → Option UInt64
  | int value =>
    if 0 ≤ value ∧ value < 0x10000000000000000 then some (UInt64.ofNat value.toNat) else none
  | _ => none

/-- The value of a truth value. -/
def bool? : Json → Option Bool
  | bool value => some value
  | _ => none

/-- The items of an array. -/
def items? : Json → Option (List Json)
  | arr items => some items
  | _ => none

/-- A natural number. -/
def nat (n : Nat) : Json := int n

/-- A value or null. -/
def optional {α : Type} (f : α → Json) : Option α → Json
  | none => null
  | some a => f a

/-- An array of strings. -/
def texts (items : List String) : Json := arr (items.map str)

end Json

end VaultCovenant
