/-!
# Short forms of long texts

A long id is shown by its first and last eight bytes.
-/

namespace VaultCovenant.Text

/-- The length up to which a text is shown whole. -/
def wholeLength : Nat := 19

/-- The characters that take up the first `count` bytes, with the rest, unless the cut falls inside
a character. -/
def splitBytes (count : Nat) : List Char → Option (List Char × List Char)
  | [] => if count = 0 then some ([], []) else none
  | c :: cs =>
    if count = 0 then some ([], c :: cs)
    else if c.utf8Size ≤ count then
      (splitBytes (count - c.utf8Size) cs).map fun (front, back) => (c :: front, back)
    else none

/-- A text shown whole if it is short, else by its first and last eight bytes. There is no short
form when a cut falls inside a character. -/
def abbreviate (text : String) : Option String :=
  let size := text.utf8ByteSize
  if size ≤ wholeLength then some text
  else do
    let (front, _) ← splitBytes 8 text.toList
    let (_, back) ← splitBytes (size - 8) text.toList
    return String.ofList front ++ "..." ++ String.ofList back

end VaultCovenant.Text
