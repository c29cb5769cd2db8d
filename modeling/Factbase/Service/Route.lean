/-!
# Factbase.Service.Route

The paths that requests can be sent to, and the methods they are sent with.
-/

namespace Factbase.Service

inductive Route where
  | query
  | transact
  | stats
  | identities
  | atoms
  deriving DecidableEq

def Route.path : Route → String
  | .query => "/v1/query"
  | .transact => "/v1/transact"
  | .stats => "/v1/stats"
  | .identities => "/v1/identities"
  | .atoms => "/v1/atoms"

def Route.ofPath? (path : String) : Option Route :=
  [Route.query, .transact, .stats, .identities, .atoms].find? (·.path == path)

/-- Whether a route takes a method. What can be asked for can also be asked for without its
body. -/
def Route.takes (route : Route) (method : String) : Bool :=
  match route with
  | .query | .transact => method == "POST"
  | .stats | .identities | .atoms => method == "GET" || method == "HEAD"

/-- A target without the scheme and the host that may stand before its path. -/
def localPart (target : List Char) : List Char :=
  if target.head? = some '/' then target
  else
    match target.dropWhile (· != ':') with
    | ':' :: '/' :: '/' :: rest => rest.dropWhile fun c => c != '/' && c != '?'
    | _ => target

/-- The path and the query string of a target. -/
def splitTarget (target : String) : String × String :=
  let cs := localPart (target.toList.takeWhile (· != '#'))
  (String.ofList (cs.takeWhile (· != '?')), String.ofList ((cs.dropWhile (· != '?')).drop 1))

end Factbase.Service
