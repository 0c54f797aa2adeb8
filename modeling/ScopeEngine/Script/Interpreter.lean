import ScopeEngine.Script.LifecycleSteps
import ScopeEngine.Script.NameSteps

/-!
Running scripts. Steps run one after another; each reports its outcome together with the bodies of functions that ran
during it. Outside functions an error is recorded and the next step runs; in the body of a function it ends the body.
Bodies may call each other without end, so a run is given a number of nested calls and blocks that it may use.
-/

namespace ScopeEngine.Script

open ScopeEngine.Action

inductive Flow where
  | next
  | returned (value : Value)
  | raised (error : Error)

abbrev Executor := Bool → ContextId → Command → Action (Result × Flow)

def runStep (execute : Command → Action (Result × Flow)) (arrange : List Event → List Event) (step : Step) :
    Action (Outcome × Flow) := do
  let before := (← get).journal
  modify fun w => { w with journal := [] }
  let result ← attempt (execute step.command)
  let events := arrange (← get).journal
  modify fun w => { w with journal := before }
  match result with
  | .ok (result, flow) => pure (.mk result events, flow)
  | .error error => pure (.mk (.failed error) events, .raised error)

/-- Whether a command visits applications and sessions in an order that means nothing. -/
def Command.isSweep : Command → Bool
  | .application (.shutdown _) | .application (.restart _) => true
  | .registry (.shutdown _) | .registry .shutdownAll | .registry .shutdownEngine => true
  | _ => false

/-- Splits a list into its longest runs of related neighbours. -/
def groups {α : Type} (related : α → α → Bool) : List α → List (List α)
  | [] => []
  | a :: rest =>
    match groups related rest with
    | [] => [[a]]
    | [] :: others => [a] :: others
    | (b :: run) :: others => if related a b then (a :: b :: run) :: others else [a] :: (b :: run) :: others

def orderText (text : Option String) : String := text.getD ""

/-- Events by application, and events of one hook and application by session, drawn ids last. -/
def arrangeSweep (events : List Event) : List Event :=
  let byApplication := events.mergeSort fun a b =>
    (compare (orderText a.application) (orderText b.application)).isLE
  let runs := groups (fun a b => a.function == b.function && a.application == b.application) byApplication
  runs.flatMap (DrawnId.sortBy fun event => orderText event.session)

def runSteps (execute : Command → Action (Result × Flow)) (inBody : Bool) : List Step → Action (List Outcome × Flow)
  | [] => pure ([], .next)
  | step :: rest => do
    let arrange := if step.command.isSweep then arrangeSweep else id
    let (outcome, flow) ← runStep execute arrange step
    let continues := match flow with
      | .next => true
      | .returned _ => false
      | .raised _ => !inBody || step.tolerant
    if continues then
      let (outcomes, flow) ← runSteps execute inBody rest
      pure (outcome :: outcomes, flow)
    else
      pure ([outcome], flow)

def sessionArgument (w : World) (c : ContextId) : Option String := do
  let call ← (w.context c).call?
  match (w.scope call.arguments).get (.ofInt 1) with
  | some (.struct s) =>
    match (w.scope s).get .jsessionid with
    | some (.string id) => some id
    | _ => none
  | _ => none

def runBody (execute : Executor) (body : Body) (c : ContextId) : Action Value := do
  let w ← get
  let application := (w.splicedApplication c).map fun a => (w.application a).name.name
  let (outcomes, flow) ← runSteps (execute true c) true body
  let event := Event.mk ((w.functionName c).map Key.name) application (sessionArgument w c) outcomes
  modify fun w => { w with journal := w.journal ++ [event] }
  match flow with
  | .next => pure .null
  | .returned value => pure value
  | .raised error => fail error

def patience : Nat := 1000000

def hostOf (execute : Executor) : Host := ⟨runBody execute, patience⟩

def runBlock (execute : Executor) (inBody : Bool) (c : ContextId) (body : List Step) : Action (Result × Flow) := do
  let (outcomes, flow) ← entering c (runSteps (execute inBody c) inBody body)
  pure (.block outcomes, flow)

def withEngine {α : Type} (server : Server) (action : Action α) : Action α := fun w =>
  let (result, after) := action { w with engine := server }
  (result, { after with engine := w.engine })

def runWithin (execute : Executor) (host : Host) (inBody : Bool) (c : ContextId) (body : List Step) :
    Place → Action (Result × Flow)
  | .request => do runBlock execute inBody (← modifyGet (·.newRequest c false)) body
  | .template path => do
    let vars ← newScope (.new ScopeName.vars.key)
    let context : Context := { parent := some c, kind := .template vars, templates := [path] }
    runBlock execute inBody (← modifyGet (·.addContext context)) body
  | .component handle => do
    let k ← named (·.components) handle
    runBlock execute inBody (← modifyGet (·.addContext { parent := some c, kind := .component k })) body
  | .detached handle => do
    let a ← named (·.applications) handle
    runBlock execute inBody (← modifyGet (·.newDetached c a)) body
  | .parent => do orAbsent ((← get).context c).parent
  | .nearestRequest => do orAbsent (((← get).requestOf c).map (·.1))
  | .nearest kind => do orAbsent ((← get).nearest c kind)
  | .node handle => do runBlock execute inBody (← named (·.nodes) handle) body
  | .engine settings listener => do
    let settings ← match settings with
      | some settings => pure settings
      | none => fail .malformedConfig
    let listener ← match listener with
      | some listener => newListener host c listener
      | none => pure World.silentListener
    let server ← Engine.new settings listener
    withEngine server do
      runBlock execute inBody (← Engine.serverContext server) body
where
  orAbsent (place : Option ContextId) : Action (Result × Flow) :=
    match place with
    | some c => runBlock execute inBody c body
    | none => pure (.absent, .next)

def count (counter : String) : Action Int := do
  let n := ((← get).counters.lookup counter).getD 0 + 1
  modify fun w => { w with counters := (counter, n) :: w.counters.filter (·.1 != counter) }
  pure n

/-- Runs a command with at most `fuel` nested calls and blocks. -/
def execute : (fuel : Nat) → Executor
  | 0, _, _, _ => exhausted
  | fuel + 1, inBody, c, command => do
    let again := execute fuel
    let host := hostOf again
    let reply (action : Action Reply) : Action (Result × Flow) := do pure (.reply (← action), .next)
    let block (runs : Bool) (body : List Step) : Action (Result × Flow) :=
      if runs then runBlock again inBody c body else pure (.skipped, .next)
    match command with
    | .return_ value =>
      let value ← evaluate host c value
      pure (.returned ((← get).snapshot value), .returned value)
    | .raise error => fail error
    | .sleep ms =>
      modify fun w => { w with clock := w.clock.addMillis ms }
      pure (.reply .nothing, .next)
    | .ifCount counter limit body => block ((← count counter) ≤ limit) body
    | .ifEqual a b body =>
      let a ← evaluate host c a
      let b ← evaluate host c b
      block (a == b) body
    | .within place body => runWithin again host inBody c body place
    | .value step => reply (step.run host c)
    | .scope step => reply (step.run host c)
    | .name step => reply (step.run host c)
    | .function step => reply (step.run host c)
    | .context step => reply (step.run c)
    | .lifecycle step => reply (step.run host c)
    | .application step => reply (step.run host c)
    | .session step => reply step.run
    | .registry step => reply (step.run host c)

structure Program where
  settings : Settings := {}
  listener : Option ListenerSpec := none
  steps : List Step

/-- The listener of a program. It comes before the engine of the program, so its hooks are declared at the server context
of an engine of their own. -/
def Program.newListener (program : Program) (host : Host) : Action ListenerId := do
  match program.listener with
  | none => pure World.silentListener
  | some listener =>
    let server ← Engine.new {} World.silentListener
    withEngine server do
      let c ← Engine.serverContext server
      entering c (Script.newListener host c listener)

/-- Runs a program from the beginning, at the server context of its engine. -/
def Program.action (program : Program) (fuel : Nat) : Action (List Outcome) := do
  let listener ← program.newListener (hostOf (execute fuel))
  let server ← Engine.new program.settings listener
  let c ← Engine.serverContext server
  withEngine server do
    let (outcomes, _) ← entering c (runSteps (execute fuel false c) false program.steps)
    pure outcomes

def Program.run (program : Program) (fuel : Nat) (clock : Instant) : Except Interruption (List Outcome) :=
  (program.action fuel (World.start clock)).1

end ScopeEngine.Script
