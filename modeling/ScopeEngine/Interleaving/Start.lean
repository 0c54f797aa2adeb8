import ScopeEngine.Interleaving.Shared

/-!
Having an instance started, step by step. Whoever does not find it started waits for its start lock, looks again, and
runs the start hook. A failed start discards the instance before the lock is given back.
-/

namespace ScopeEngine.Interleaving

namespace Instance

def isStarted (w : World) : Instance → Bool
  | .application a => (w.application a).started
  | .session _ s => (w.session s).started

def isDiscarded (w : World) : Instance → Bool
  | .application a => (w.application a).discarded
  | .session _ s => (w.session s).discarded

def isLocked (w : World) : Instance → Bool
  | .application a => (w.application a).starting
  | .session _ s => (w.session s).starting

def name (w : World) : Instance → String
  | .application a => (w.application a).name.name
  | .session _ s => (w.session s).id.name

def startHook : Instance → Hook
  | .application _ => .applicationStart
  | .session _ _ => .sessionStart

def phase : Instance → Phase
  | .application _ => .applicationStart
  | .session _ _ => .sessionStart

def lock (w : World) : Instance → World
  | .application a => w.beginApplicationStart a
  | .session _ s => w.beginSessionStart s

def unlock (w : World) : Instance → World
  | .application a => w.leaveApplicationStart a
  | .session _ s => w.leaveSessionStart s

def keepListener (l : ListenerId) (w : World) : Instance → World
  | .application a => w.keepListener a l
  | .session _ _ => w

def markStarted (w : World) : Instance → World
  | .application a => w.applicationStarted a
  | .session _ s => w.sessionStarted s

def markDiscarded (w : World) : Instance → World
  | .application a => w.applicationRefused a
  | .session _ s => w.sessionRefused s

/-- Takes the instance out of where it is looked up, if it is still there. -/
def remove (w : World) : Instance → World
  | .application a => (w.unregister a).2
  | .session a s => (w.dropSession a s).2

def isPlaceHeld (scenario : Scenario) (shared : Shared) : Instance → Bool
  | .application _ => false
  | .session a s => shared.isHeld a (scenario.shard (shared.world.session s).id)

end Instance

inductive StartPhase where
  | glancing
  | waiting
  | inspecting
  | calling
  | recording
  | marking
  | discarding (cause : Error)
  | removing (cause : Error)
  /-- About to give the lock back. -/
  | leaving (result : StartResult)
deriving DecidableEq, Repr

def Answer.refusal (phase : Phase) : Answer → Option Error
  | .proceed => none
  | .refuse => some (.startAborted phase)
  | .raise error => some error

/-- One step of an attempt to have an instance started. None if it has to wait. -/
def StartPhase.step (scenario : Scenario) (worker : Nat) (subject : Instance) (shared : Shared) :
    StartPhase → Option (Progress StartPhase StartResult × Shared)
  | .glancing =>
    if subject.isStarted shared.world then
      some (.done .started, shared.note (.attempted worker subject .started))
    else
      some (.more .waiting, shared)
  | .waiting =>
    if subject.isLocked shared.world then none
    else some (.more .inspecting, shared.change (subject.lock ·))
  | .inspecting =>
    if subject.isStarted shared.world then some (.more (.leaving .started), shared)
    else if subject.isDiscarded shared.world then some (.more (.leaving .gone), shared)
    else some (.more .calling, shared)
  | .calling =>
    let (answer, shared) := shared.call scenario worker subject.startHook subject
    match answer.refusal subject.phase with
    | none => some (.more .recording, shared)
    | some cause => some (.more (.discarding cause), shared)
  | .recording => some (.more .marking, shared.change (subject.keepListener scenario.listener ·))
  | .marking => some (.more (.leaving .started), shared.change (subject.markStarted ·))
  | .discarding cause => some (.more (.removing cause), shared.change (subject.markDiscarded ·))
  | .removing cause =>
    if subject.isPlaceHeld scenario shared then none
    else
      let error : Error := .startFailed subject.phase (subject.name shared.world) cause
      some (.more (.leaving (.failed error)), shared.change (subject.remove ·))
  | .leaving result =>
    some (.done result, (shared.change (subject.unlock ·)).note (.attempted worker subject result))

end ScopeEngine.Interleaving
