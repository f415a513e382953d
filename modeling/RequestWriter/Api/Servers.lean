import RequestWriter.Value.Access
import RequestWriter.Value.Display

/-!
# Servers of a document

The addresses under which an API can be reached. The newer form of a document lists them; the older
one gives a scheme, a host and a common beginning of all paths.
-/

namespace RequestWriter.Api

/-- The address of one listed server, if it has one. -/
def serverUrl? (g : Graph) (server : Value) : Except Fault (Option Value) :=
  (fun url => if url.truthy then some url else none) <$> server.lookupD g "url" Value.null

def listedServers (doc : Document) : Except Fault (List Value) := do
  let servers ← doc.root.lookupD doc.graph "servers" (.list [])
  let listed ← servers.parts doc.graph
  let urls ← listed.mapM (serverUrl? doc.graph)
  return urls.filterMap id

/-- The address that scheme, host and common beginning make, if there is a host. -/
def hostUrl? (doc : Document) : Except Fault (Option String) := do
  let host ← doc.root.lookupD doc.graph "host" Value.null
  if host.truthy then
    let schemes ← doc.root.lookupD doc.graph "schemes" Value.null
    let scheme ← if schemes.truthy then schemes.first doc.graph else .ok (Value.text "https")
    let base ← doc.root.lookupD doc.graph "basePath" (Value.text "")
    return some (scheme.display ++ "://" ++ host.display ++ base.display)
  else return none

def servers (doc : Document) : Except Fault (List Value) := do
  let urls ← listedServers doc
  if urls.isEmpty then
    let url ← hostUrl? doc
    return (url.map Value.text).toList
  else return urls

end RequestWriter.Api
