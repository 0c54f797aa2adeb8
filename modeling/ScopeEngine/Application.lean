import ScopeEngine.Bindings
import ScopeEngine.Identity
import ScopeEngine.Instant
import ScopeEngine.Settings

/-!
Applications and sessions. An application is what all requests of one name share; a session belongs to one client of
an application. Either is created, started once by a hook, and shut down once.
-/

namespace ScopeEngine

structure Session where
  id : Key
  application : Key
  scope : ScopeId
  started : Bool := false
  discarded : Bool := false
  shutDown : Bool := false
  /-- Someone is running the start hook; only one caller at a time may. -/
  starting : Bool := false
  created : Instant
  /-- Milliseconds since 1970. -/
  lastVisit : Int64
  timeout : IdleLimit
deriving Inhabited

namespace Session

def isExpiredAt (session : Session) (now : Instant) : Bool :=
  session.timeout.exceeded session.lastVisit now.millis

/-- No longer of use to requests: shut down, failed to start, or idle for too long. -/
def isDefunctAt (session : Session) (now : Instant) : Bool :=
  session.shutDown || session.discarded || session.isExpiredAt now

end Session

structure Application where
  name : Key
  scope : ScopeId
  sessions : Bindings SessionId := .empty
  started : Bool := false
  discarded : Bool := false
  shutDown : Bool := false
  starting : Bool := false
  /-- The listener whose start hook ran; the end hooks are its too. -/
  listener : Option ListenerId := none
  created : Instant
  lastAccess : Int64
  timeout : IdleLimit
  sessionTimeout : IdleLimit
deriving Inhabited

namespace Application

def isDefunct (application : Application) : Bool :=
  application.discarded || application.shutDown

def isExpiredAt (application : Application) (now : Instant) : Bool :=
  application.timeout.exceeded application.lastAccess now.millis

def applySettings (application : Application) (settings : Settings) : Application :=
  { application with
    timeout := .ofDuration settings.applicationLimit, sessionTimeout := .ofDuration settings.sessionLimit }

end Application

/-- What the shutdown of an application did. Failures never stop it. -/
structure ShutdownReport where
  application : String
  sessionsClosed : Nat := 0
  failures : List String := []
deriving DecidableEq, Repr

end ScopeEngine
