import VaultCovenant.Fault
import VaultCovenant.Json.Basic

/-!
# The fault catalog

Every fault with its stage and the rejection that it must provoke, as JSON and as a table.
-/

namespace VaultCovenant

namespace Rejection

/-- A rejection as JSON. -/
def json (r : Rejection) : Json :=
  .obj [("kind", .str r.kind.name), ("reason", .str r.reason)]

end Rejection

namespace Catalog

/-- The entry of a fault as JSON. -/
def entry (fault : Fault) : Json :=
  .obj [
    ("name", .str fault.name),
    ("stage", .str fault.stage.name),
    ("description", .str fault.description),
    ("rejection", fault.expectedRejection.json)]

/-- The catalog as JSON. -/
def json : Json := .arr (Fault.all.map entry)

/-- A text with blanks behind it up to a width. -/
def column (width : Nat) (text : String) : String :=
  text ++ String.ofList (List.replicate (width - text.length) ' ')

/-- A line with three columns. -/
def row (name stage rejection : String) : String :=
  column 32 name ++ " " ++ column 11 stage ++ " " ++ rejection

/-- The lines of a fault. -/
def faultLines (fault : Fault) : List String :=
  [row fault.name fault.stage.name fault.expectedRejection.text, "    " ++ fault.description]

/-- The catalog as a table. -/
def tableLines : List String :=
  row "FAULT" "STAGE" "EXPECTED REJECTION" :: Fault.all.flatMap faultLines

end Catalog

end VaultCovenant
