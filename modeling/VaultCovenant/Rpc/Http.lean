import VaultCovenant.Rpc.Message

/-!
# Calls as HTTP messages

The bytes that carry a call to a node and those that carry the reply. Every call has a connection
of its own, so that the end of the reply is the end of what is received.
-/

namespace VaultCovenant

/-! ## Requests -/

namespace RpcRequest

/-- The lines in front of the body of a request to a host. -/
def headLines (r : RpcRequest) (host : String) (length : Nat) : List String := [
  "POST " ++ r.path ++ " HTTP/1.1",
  "host: " ++ host,
  "Content-Type: application/json",
  "Content-Length: " ++ toString length,
  "Authorization: " ++ r.authorization,
  "Connection: close",
  ""]

/-- The bytes of a request to a host. -/
def message (r : RpcRequest) (host : String) : Bytes :=
  let body := Bytes.ofText r.body
  Bytes.ofText (String.join ((r.headLines host body.length).map (· ++ "\r\n"))) ++ body

end RpcRequest

/-! ## Replies -/

/-- Why bytes are no reply. -/
inductive HttpError where
  /-- The first line is too short for a status. -/
  | tooShort (length : Nat)
  /-- The first line starts with another word. -/
  | otherProtocol (start : String)
  /-- The status is no number. -/
  | badStatus (text : String)
  /-- The length of the body is no number. -/
  | badLength (text : String)
  /-- Less came than the length of the body says. -/
  | incomplete (length received : Nat)
  deriving DecidableEq

/-- The wording of a complaint about a reply. -/
def HttpError.message : HttpError → String
  | tooShort length =>
    "HTTP response too short: length " ++ toString length ++ ", needed 12."
  | otherProtocol start =>
    "HTTP response started with `" ++ start ++ "`; expected `HTTP/1.1 `."
  | badStatus text =>
    "HTTP response had bad status code `" ++ text ++ "`: invalid digit found in string."
  | badLength text =>
    "HTTP response had bad content length `" ++ text ++ "`: invalid digit found in string."
  | incomplete length received =>
    "read " ++ toString received ++ " bytes but HTTP response content-length header was "
      ++ toString length ++ "."

namespace RpcReply

/-- The characters of a head, one a byte. -/
def headChars (bytes : Bytes) : List Char := bytes.map fun b => Char.ofNat b.toNat

/-- The lines of a head and the body behind the first empty line. `line` is the line so far, last
byte first. -/
def splitHead : (line : Bytes) → Bytes → List (List Char) × Bytes
  | line, 0x0d :: 0x0a :: bs =>
    if line.isEmpty then ([], bs)
    else
      let (lines, body) := splitHead [] bs
      (headChars line.reverse :: lines, body)
  | line, b :: bs => splitHead (b :: line) bs
  | line, [] => (if line.isEmpty then [] else [headChars line.reverse], [])

/-- What the first line of a reply starts with. -/
def protocol : List Char := "HTTP/1.1 ".toList

/-- The status in the first line. -/
def statusOf (line : List Char) : Except HttpError Nat :=
  if line.length < 12 then .error (.tooShort line.length)
  else if !protocol.isPrefixOf line then
    .error (.otherProtocol (String.ofList (line.take protocol.length)))
  else
    let digits := (line.drop protocol.length).take 3
    match (String.ofList digits).toNat? with
    | some status => .ok status
    | none => .error (.badStatus (String.ofList digits))

/-- The name of the line with the length of the body. -/
def lengthName : List Char := "content-length: ".toList

/-- The length of the body, if a line gives it. -/
def lengthOf (lines : List (List Char)) : Except HttpError (Option Nat) :=
  match lines.find? fun line => lengthName.isPrefixOf (line.map Char.toLower) with
  | none => .ok none
  | some line =>
    let text := String.ofList (line.drop lengthName.length)
    match text.toNat? with
    | some length => .ok (some length)
    | none => .error (.badLength text)

/-- The reply in the bytes received. -/
def ofMessage (bytes : Bytes) : Except HttpError RpcReply := do
  let (lines, body) := splitHead [] bytes
  let status ← statusOf (lines.headD [])
  match ← lengthOf (lines.drop 1) with
  | none => return ⟨status, body⟩
  | some length =>
    if length ≤ body.length then return ⟨status, body.take length⟩
    else throw (.incomplete length body.length)

end RpcReply

end VaultCovenant
