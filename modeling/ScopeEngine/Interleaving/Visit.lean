import ScopeEngine.Describing
import ScopeEngine.Interleaving.Opening
import ScopeEngine.Interleaving.Start

/-!
Visits: requests that run at the same time, step by step. A request touches its application or its session and counts
in their scopes. What it found belongs to it alone, everything else is shared.
-/

namespace ScopeEngine.Interleaving

inductive Errand where
  | touchApplication
  | touchSession
  | openSession
  | countInApplication
  | countInSession
deriving DecidableEq, Repr

inductive VisitPhase where
  | ready
  | seeking
  /-- Found; it may have expired. -/
  | weighing (a : ApplicationId)
  | expiring (a : ApplicationId)
  | starting (subject : Instance) (phase : StartPhase)
  | opening (a : ApplicationId) (phase : OpenPhase)
deriving DecidableEq, Repr

structure Visit where
  turn : Nat
  settings : Settings
  client : Key
  errands : List Errand
  application : Option ApplicationId := none
  session : Option SessionId := none
  phase : VisitPhase := .ready

inductive Move where
  | stay (visit : Visit)
  | close (a : ApplicationId) (visit : Visit)
  | retire (a : ApplicationId) (stale : SessionId) (visit : Visit)
  | finished

/-- One more than the integer before; anything else counts as zero. -/
def count (before : Option Value) : Value :=
  .integer ((before.bind Value.toInt?).getD 0 + 1)

namespace Visit

def finish (visit : Visit) (worker : Nat) (shared : Shared) (result : VisitResult) : Option (Move × Shared) :=
  some (.finished, shared.note (.visited worker visit.turn result))

def countIn (visit : Visit) (worker : Nat) (shared : Shared) (scope : ScopeId) : Option (Move × Shared) :=
  match (shared.world.scope scope).update .hits count with
  | .ok (_, counted) => some (.stay visit, shared.change (·.setScope scope counted))
  | .error error => visit.finish worker shared (.failed error)

/-- Whether the request may go on using the application it found before. -/
def keepsApplication (visit : Visit) (w : World) (a : ApplicationId) : Bool :=
  (w.application a).name == visit.settings.applicationKey && !(w.application a).isDefunct

/-- Whether the request may go on using the session it found before. -/
def keepsSession (visit : Visit) (w : World) (a : ApplicationId) (s : SessionId) : Bool :=
  (w.session s).id == visit.client && (w.session s).application == (w.application a).name
    && !(w.session s).isDefunctAt w.clock

def begin (visit : Visit) (worker : Nat) (shared : Shared) : Option (Move × Shared) :=
  match visit.errands with
  | [] => visit.finish worker shared (.served visit.application visit.session)
  | errand :: errands =>
    let next : Visit := { visit with errands }
    match errand with
    | .touchApplication =>
      if visit.settings.hasApplication then
        match visit.application with
        | some a =>
          if visit.keepsApplication shared.world a then some (.stay next, shared.change (·.touchApplication a))
          else some (.stay { next with application := none, session := none, phase := .seeking }, shared)
        | none => some (.stay { next with phase := .seeking }, shared)
      else
        some (.stay next, shared)
    | .touchSession =>
      if visit.settings.sessionManagement then
        some (.stay { next with errands := .touchApplication :: .openSession :: errands }, shared)
      else
        some (.stay next, shared)
    | .openSession =>
      match visit.application, visit.session with
      | some a, some s =>
        if visit.keepsSession shared.world a s then some (.stay next, shared.change (·.touchSession s))
        else some (.stay { next with session := none, phase := .opening a .reserving }, shared)
      | some a, none => some (.stay { next with phase := .opening a .reserving }, shared)
      | none, _ => some (.stay next, shared)
    | .countInApplication =>
      match visit.application with
      | some a => next.countIn worker shared (shared.world.application a).scope
      | none => visit.finish worker shared (.failed (.scopeNotFound ScopeName.application.text))
    | .countInSession =>
      match visit.session with
      | some s => next.countIn worker shared (shared.world.session s).scope
      | none => visit.finish worker shared (.failed (.scopeNotFound ScopeName.session.text))

def afterStart (visit : Visit) (worker : Nat) (shared : Shared) :
    Instance → StartResult → Option (Move × Shared)
  | .application _, .started => some (.stay { visit with phase := .ready }, shared)
  | .application _, .gone => some (.stay { visit with application := none, phase := .seeking }, shared)
  | .session _ s, .started => some (.stay { visit with phase := .ready }, shared.change (·.touchSession s))
  | .session a _, .gone => some (.stay { visit with session := none, phase := .opening a .reserving }, shared)
  | _, .failed error => visit.finish worker shared (.failed error)

def afterOpen (visit : Visit) (shared : Shared) (a : ApplicationId) : Option World.Placed → Option (Move × Shared)
  | none =>
    let again : Visit := { visit with
      application := none, session := none, errands := .touchSession :: visit.errands, phase := .ready }
    some (.stay again, shared)
  | some placed =>
    let visit := { visit with session := some placed.session, phase := .starting (.session a placed.session) .glancing }
    match placed.stale with
    | none => some (.stay visit, shared)
    | some stale => some (.retire a stale visit, shared)

/-- One step of a visit. None if it has to wait. -/
def step (scenario : Scenario) (worker : Nat) (visit : Visit) (shared : Shared) : Option (Move × Shared) :=
  match visit.phase with
  | .ready => visit.begin worker shared
  | .seeking =>
    let (a, world) := shared.world.findOrCreateApplication visit.settings.applicationKey visit.settings
    some (.stay { visit with phase := .weighing a }, { shared with world })
  | .weighing a =>
    if (shared.world.application a).isExpiredAt shared.world.clock then
      some (.stay { visit with phase := .expiring a }, shared)
    else
      let visit := { visit with application := some a, phase := .starting (.application a) .glancing }
      some (.stay visit, shared.change (·.touchApplication a))
  | .expiring a =>
    let (removed, world) := shared.world.unregister a
    let visit := { visit with phase := .seeking }
    some (if removed then .close a visit else .stay visit, { shared with world })
  | .starting subject phase =>
    match phase.step scenario worker subject shared with
    | none => none
    | some (.more phase, shared) => some (.stay { visit with phase := .starting subject phase }, shared)
    | some (.done result, shared) => visit.afterStart worker shared subject result
  | .opening a phase =>
    match phase.step scenario worker a visit.client shared with
    | none => none
    | some (.more phase, shared) => some (.stay { visit with phase := .opening a phase }, shared)
    | some (.done answer, shared) => visit.afterOpen shared a answer

end Visit

end ScopeEngine.Interleaving
