import ScopeEngine.Lifecycle.Ending

/-!
An engine: the server scope with its locked product and platform entries, the defaults for requests and the listener
they start with. Several engines may share one world and so one registry.
-/

namespace ScopeEngine

open ScopeEngine.Action

namespace Engine

def productName : String := "cfml-runtime"

def productVersion : String := "0.1.0"

def descriptions : List (String × List (String × String)) := [
  ("coldfusion", [("productName", productName), ("productVersion", productVersion)]),
  ("os", [("name", "linux"), ("arch", "x86_64"), ("family", "unix")]),
  ("separator", [("file", "/"), ("path", ":"), ("line", "\n")]),
  ("runtime", [("name", productName), ("version", productVersion)])]

def describe (name : String) (entries : List (String × String)) : Scope :=
  { Scope.new (.of name) with
    bindings := .ofList (entries.map fun (key, text) => (.of key, .string text)) }

def newServerScope : Action ScopeId := do
  let entries ← descriptions.mapM fun (name, entries) => do
    pure (Key.of name, Value.struct (← newScope (describe name entries)))
  newScope (.newLocked ScopeName.server.key entries)

def new (defaults : Settings) (listener : ListenerId) : Action Server := do
  pure { scope := ← newServerScope, defaults, listener }

def serverContext (server : Server) : Action ContextId :=
  modifyGet (·.addContext { parent := none, kind := .server server })

def shutdown (host : Host) (server : Server) : Action (List ShutdownReport) := do
  let c ← serverContext server
  entering c (shutdownAll host c)

end Engine

/-- A world with nothing in it but the listener without hooks. -/
def World.start (clock : Instant) : World :=
  { listeners := Table.empty.add .silent, clock }

end ScopeEngine
