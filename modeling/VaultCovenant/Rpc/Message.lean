import VaultCovenant.Failure
import VaultCovenant.Json.Parser
import VaultCovenant.Json.Printer

/-!
# Remote calls

The request that names a method with its parameters, and the answer that holds a result or an
error. Requests are answered one by one, so all carry the same number.
-/

namespace VaultCovenant

/-- A call of a method, as it is sent to a path of a node. -/
structure RpcRequest where
  path : String
  authorization : String
  method : String
  params : List Json

namespace RpcRequest

/-- The text of a call. -/
def body (r : RpcRequest) : String :=
  (Json.obj [("method", .str r.method), ("params", .arr r.params), ("id", .nat 0),
    ("jsonrpc", .str "2.0")]).render

end RpcRequest

/-- What came back: the status of the exchange and a text in UTF-8. -/
structure RpcReply where
  status : Nat
  body : Bytes
  deriving DecidableEq

namespace RpcReply

/-- The status that asks for other credentials. -/
def unauthorized : Nat := 401

/-- The error of an answer, as the node words it. -/
def remoteError? (error : Json) : Option RpcError := do
  let code ← (error.field "code").int?
  let text ← (error.field "message").text?
  let data := match error.field "data" with
    | .null => none
    | data => some data.render
  if -0x80000000 ≤ code ∧ code < 0x80000000 then some (.remote (Int32.ofInt code) text data)
  else none

/-- Whether the version of an answer is absent or a text. -/
def hasPlainVersion (answer : Json) : Bool :=
  (answer.field "jsonrpc").isNull || (answer.field "jsonrpc").text?.isSome

/-- The result or the error of an answer. There is neither if the text is no answer; an error
counts whatever the result is. -/
def outcome? (reply : RpcReply) : Option (Except RpcError Json) := do
  let text ← String.fromUTF8? ⟨reply.body.toArray⟩
  let answer ← Json.parse? text
  let _ ← answer.field? "id"
  if !hasPlainVersion answer then none
  else match answer.field "error" with
    | .null => some (.ok (answer.field "result"))
    | error => (remoteError? error).map .error

/-- The complaint about an exchange with a status that tells of a failure. -/
def statusError (status : Nat) : RpcError :=
  .transport ("unexpected HTTP code: " ++ toString status)

/-- The result of a call, read as what it must be. A text that is no answer is put down to the
status, if that is not the one for success. -/
def result {α : Type} (reply : RpcReply) (read : Json → Option α) : Except RpcError α :=
  if reply.status = unauthorized then .error (statusError reply.status)
  else match reply.outcome? with
    | none =>
      if reply.status = 200 then .error (.decode "no answer to a call")
      else .error (statusError reply.status)
    | some (.error e) => .error e
    | some (.ok value) =>
      match read value with
      | some a => .ok a
      | none => .error (.decode "result of another type")

end RpcReply

end VaultCovenant
