import Std.Async.DNS
import Std.Async.TCP
import VaultCovenant.CommandLine.Program
import VaultCovenant.Rpc.Http

/-!
# The executable

The command line over the real world: environment variables, standard output, sockets and a clock.
-/

namespace VaultCovenant

open Std.Async Std.Net

/-! ## Sockets -/

/-- An address with a port. -/
def socketAddress (port : UInt16) : IPAddr → SocketAddress
  | .v4 addr => .v4 ⟨addr, port⟩
  | .v6 addr => .v6 ⟨addr, port⟩

/-- The first address of a host, with a port. -/
def findHost (host : String) (port : UInt16) : IO (Except String SocketAddress) := do
  try
    let found ← (DNS.getAddrInfo host "").block
    match found.toList with
    | first :: _ => return .ok (socketAddress port first)
    | [] => return .error "failed to lookup address information"
  catch e => return .error ("failed to lookup address information: " ++ toString e)

/-- Everything that is received up to the end of a connection. -/
partial def receiveAll (socket : TCP.Socket.Client) (received : ByteArray) : Async ByteArray := do
  match ← socket.recv? 65536 with
  | some bytes => receiveAll socket (received ++ bytes)
  | none => return received

/-- Sends a request over a new connection and receives the reply. -/
def exchangeWith (address : SocketAddress) (host : String) (request : RpcRequest) :
    Async ByteArray := do
  let socket ← TCP.Socket.Client.mk
  socket.connect address
  socket.send ⟨(request.message host).toArray⟩
  receiveAll socket ByteArray.empty

/-- Exchanges a request for a reply, at the address of the node or of the wallet. -/
def exchange (settings : NodeSettings) (node wallet : SocketAddress) (request : RpcRequest) :
    IO (Except String RpcReply) := do
  let address := if request.path = settings.walletLocation.path then wallet else node
  try
    let received ← (exchangeWith address settings.nodeLocation.authority request).block
    return (RpcReply.ofMessage received.toList).mapError HttpError.message
  catch e => return .error ("Couldn't connect to host: " ++ toString e)

/-- Connects to a node. -/
def connect (settings : NodeSettings) : IO (Except VaultError (Connection IO)) := do
  match ← settings.resolve findHost with
  | .error e => return .error e
  | .ok (node, wallet) => return .ok {
      settings
      exchange := exchange settings node wallet
      pause := fun seconds => IO.sleep (UInt32.ofNat (1000 * seconds)) }

/-! ## The program -/

/-- The variables that are looked at. -/
def variableNames : List String :=
  ["RPC_URL", "RPC_PORT", "RPC_USER", "RPC_PASSWORD", "RPC_WALLET"]

/-- The variables that are set. -/
def readVariables : IO (List (String × String)) := do
  let values ← variableNames.mapM fun name => return (name, ← IO.getEnv name)
  return values.filterMap fun (name, value) => value.map (name, ·)

/-- The environment of the running program. Vaults are named from a random number on. -/
def currentEnvironment : IO (CommandLine.Environment IO) := do
  let set ← readVariables
  let first ← IO.rand 0 0xffffffffffffffff
  return {
    lookup := fun name => set.lookup name
    ids := fun k => UInt64.ofNat (first + k)
    connect }

end VaultCovenant

/-- Carries out the command line. -/
def main (words : List String) : IO UInt32 := do
  let outcome ← VaultCovenant.CommandLine.perform (← VaultCovenant.currentEnvironment) words
  IO.print outcome.output
  IO.eprint outcome.errors
  return outcome.status
