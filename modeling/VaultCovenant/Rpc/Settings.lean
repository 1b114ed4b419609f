import VaultCovenant.Failure
import VaultCovenant.Rpc.Host
import VaultCovenant.Text.Base64

/-!
# Settings of a connection

Where a node listens and who calls it, as environment variables say it; the two locations to which
requests go, one for the node and one for the wallet.
-/

namespace VaultCovenant

/-- Where a node listens and who calls it. -/
structure NodeSettings where
  host : String := "127.0.0.1"
  port : String := "18443"
  user : String := "user"
  password : String := "password"
  wallet : String := "opvault"
  deriving DecidableEq

/-- Where a request goes: to a host, possibly with a port, and there to a path. -/
structure Location where
  authority : String
  path : String
  deriving DecidableEq

namespace Location

/-- The part of a text in front of a character, and what follows it if the character is there. -/
def cutAt (c : Char) (text : String) : String × Option String :=
  let front := text.toList.takeWhile (· != c)
  match text.toList.drop front.length with
  | [] => (text, none)
  | _ :: back => (String.ofList front, some (String.ofList back))

/-- The location of a URL without its scheme. A path starts at the first slash; what stands before
an at sign is not part of the host. -/
def ofText (text : String) : Location :=
  let (before, path) := cutAt '/' text
  let (all, host) := cutAt '@' before
  ⟨host.getD all, match path with
    | some rest => "/" ++ rest
    | none => "/"⟩

/-- The host and the port behind the last colon. -/
def hostAndPort? (authority : String) : Option (String × UInt16) := do
  let cs := authority.toList
  let back := cs.reverse.takeWhile (· != ':')
  if back.length = cs.length then none
  else
    let port ← Text.Numeral.naturalBelow? 65536 (String.ofList back.reverse)
    return (String.ofList (cs.take (cs.length - back.length - 1)), UInt16.ofNat port)

/-- A host without the brackets in which an address of groups may stand. -/
def unbracketed (host : String) : String :=
  match host.toList with
  | '[' :: cs =>
    let inner := cs.dropLast
    if cs.getLast? = some ']' && Host.isEightGroups inner then String.ofList inner else host
  | _ => host

/-- The hosts and ports to be tried: with the port given, and with the usual one. -/
def candidates (l : Location) : List (String × UInt16) :=
  ([l.authority, l.authority ++ ":80"].filterMap hostAndPort?).map fun (host, port) =>
    (unbracketed host, port)

/-- The first candidate whose host can be found; the complaint is about the last. -/
def reach {m : Type → Type} [Monad m] {α : Type} (find : String → UInt16 → m (Except String α)) :
    List (String × UInt16) → m (Except String α)
  | [] => pure (.error "invalid socket address")
  | [(host, port)] => find host port
  | (host, port) :: rest => do
    match ← find host port with
    | .ok found => return .ok found
    | .error _ => reach find rest

end Location

namespace NodeSettings

/-- The settings that variables ask for; a variable that is set to the empty text counts. -/
def ofEnvironment (lookup : String → Option String) : NodeSettings :=
  let start : NodeSettings := {}
  { host := (lookup "RPC_URL").getD start.host
    port := (lookup "RPC_PORT").getD start.port
    user := (lookup "RPC_USER").getD start.user
    password := (lookup "RPC_PASSWORD").getD start.password
    wallet := (lookup "RPC_WALLET").getD start.wallet }

/-- Where requests to the node go. -/
def nodeLocation (s : NodeSettings) : Location := .ofText (s.host ++ ":" ++ s.port)

/-- Where requests to the wallet go. -/
def walletLocation (s : NodeSettings) : Location :=
  .ofText (s.host ++ ":" ++ s.port ++ "/wallet/" ++ s.wallet)

/-- What a request shows to be let in. -/
def authorization (s : NodeSettings) : String :=
  "Basic " ++ Text.Base64.text (s.user ++ ":" ++ s.password).toUTF8.toList

/-- Finds the host of the settings, for the node and then for the wallet. -/
def resolve {m : Type → Type} [Monad m] {α : Type} (s : NodeSettings)
    (find : String → UInt16 → m (Except String α)) : m (Except VaultError (α × α)) := do
  let complaint (detail : String) : VaultError :=
    .rpc (.transport ("Couldn't connect to host: " ++ detail))
  match ← Location.reach find s.nodeLocation.candidates with
  | .error detail => return .error (complaint detail)
  | .ok node =>
    match ← Location.reach find s.walletLocation.candidates with
    | .error detail => return .error (complaint detail)
    | .ok wallet => return .ok (node, wallet)

end NodeSettings

end VaultCovenant
