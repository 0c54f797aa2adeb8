import ScopeEngine.Interleaving.Machine

/-! What one step of a session's or an application's life can do, phase by phase and with the reasons for each way it
can go: asking for a session, having an instance started, ending a session, and shutting an application down. -/

namespace ScopeEngine.Interleaving

open World

def EndPhase.isPast : EndPhase → Bool
  | .flagging => false
  | .weighing | .calling => true

def StartPhase.isLocked : StartPhase → Bool
  | .glancing | .waiting => false
  | _ => true

variable (scenario : Scenario) (worker : Nat)

inductive OpenPhase.Goes (a : ApplicationId) (id : Key) (shared : Shared) :
    OpenPhase → Progress OpenPhase (Option Placed) → Shared → Prop
  | reserves (free : shared.isHeld a (scenario.shard id) = false) :
      Goes a id shared .reserving (.more .checking) (shared.hold a (scenario.shard id))
  | declines (shut : (shared.world.application a).shutDown = true) :
      Goes a id shared .checking (.done none) ((shared.release a (scenario.shard id)).note (.declined worker a))
  | admits (unshut : (shared.world.application a).shutDown = false) : Goes a id shared .checking (.more .placing) shared
  | finds {s : SessionId} (there : (shared.world.application a).sessions.find? id = some s)
      (live : (shared.world.session s).isDefunctAt shared.world.clock = false) :
      Goes a id shared .placing (.done (some (.found s))) (shared.release a (scenario.shard id))
  | places {stale : Option SessionId} (there : (shared.world.application a).sessions.find? id = stale)
      (defunct : ∀ s, stale = some s → (shared.world.session s).isDefunctAt shared.world.clock = true) :
      Goes a id shared .placing (.done (some (.created shared.world.sessions.next stale)))
        ((({ shared with world := (shared.world.insertSession a id stale).2 } : Shared).release a
          (scenario.shard id)).note (.placed worker a shared.world.sessions.next))

inductive StartPhase.Goes (subject : Instance) (shared : Shared) :
    StartPhase → Progress StartPhase StartResult → Shared → Prop
  | glances (started : subject.isStarted shared.world = true) :
      Goes subject shared .glancing (.done .started) (shared.note (.attempted worker subject .started))
  | waits (unstarted : subject.isStarted shared.world = false) : Goes subject shared .glancing (.more .waiting) shared
  | locks (free : subject.isLocked shared.world = false) :
      Goes subject shared .waiting (.more .inspecting) (shared.change (subject.lock ·))
  | finds (started : subject.isStarted shared.world = true) :
      Goes subject shared .inspecting (.more (.leaving .started)) shared
  | misses (unstarted : subject.isStarted shared.world = false) (gone : subject.isDiscarded shared.world = true) :
      Goes subject shared .inspecting (.more (.leaving .gone)) shared
  | dares (unstarted : subject.isStarted shared.world = false) (there : subject.isDiscarded shared.world = false) :
      Goes subject shared .inspecting (.more .calling) shared
  | proceeds : Goes subject shared .calling (.more .recording)
      (shared.note (.called worker subject.startHook subject .proceed))
  | refuses {answer : Answer} {cause : Error} (refusal : answer.refusal subject.phase = some cause) :
      Goes subject shared .calling (.more (.discarding cause))
        (shared.note (.called worker subject.startHook subject answer))
  | records : Goes subject shared .recording (.more .marking) (shared.change (subject.keepListener scenario.listener ·))
  | marks : Goes subject shared .marking (.more (.leaving .started)) (shared.change (subject.markStarted ·))
  | discards {cause : Error} :
      Goes subject shared (.discarding cause) (.more (.removing cause)) (shared.change (subject.markDiscarded ·))
  | removes {cause : Error} (free : subject.isPlaceHeld scenario shared = false) :
      Goes subject shared (.removing cause)
        (.more (.leaving (.failed (.startFailed subject.phase (subject.name shared.world) cause))))
        (shared.change (subject.remove ·))
  | leaves {result : StartResult} :
      Goes subject shared (.leaving result) (.done result)
        ((shared.change (subject.unlock ·)).note (.attempted worker subject result))

inductive EndPhase.Goes (listener : Option ListenerId) (a : ApplicationId) (s : SessionId) (shared : Shared) :
    EndPhase → Progress EndPhase (Option Error) → Shared → Prop
  | repeats (ended : (shared.world.session s).shutDown = true) :
      Goes listener a s shared .flagging (.done none) { shared with world := (shared.world.endSession s).2 }
  | flags (unended : (shared.world.session s).shutDown = false) :
      Goes listener a s shared .flagging (.more .weighing) { shared with world := (shared.world.endSession s).2 }
  | dares (due : ((shared.world.session s).started && listener.isSome) = true) :
      Goes listener a s shared .weighing (.more .calling) shared
  | forgets (undue : ((shared.world.session s).started && listener.isSome) = false) :
      Goes listener a s shared .weighing (.done none) shared
  | calls {answer : Answer} {error : Option Error} :
      Goes listener a s shared .calling (.done error) (shared.note (.called worker .sessionEnd (.session a s) answer))

inductive Closing.Goes (closing : Closing) (shared : Shared) : Option Closing → Shared → Prop
  | repeats {report : ShutdownReport} (here : closing.phase = .flagging)
      (shut : (shared.world.application closing.application).shutDown = true) :
      Goes closing shared none
        (({ shared with world := (shared.world.beginShutdown closing.application).2 } : Shared).note
          (.closed worker closing.application report closing.requested))
  | flags (here : closing.phase = .flagging)
      (unshut : (shared.world.application closing.application).shutDown = false) :
      Goes closing shared (some { closing with phase := .fetching })
        { shared with world := (shared.world.beginShutdown closing.application).2 }
  | fetches (here : closing.phase = .fetching) :
      Goes closing shared (some { closing with
        listener := (shared.world.application closing.application).listener, phase := .listing 0 [] }) shared
  | lists {shard : Nat} {ids : List Key} (here : closing.phase = .listing shard ids) (within : shard ≤ scenario.lastShard)
      (free : shared.isHeld closing.application shard = false) :
      Goes closing shared (some { closing with
        phase := .listing (shard + 1) (ids ++ (shared.world.application closing.application).sessions.keys.filter
          (scenario.shard · == shard)) }) shared
  | lacks {shard : Nat} (here : closing.phase = .listing shard []) (beyond : scenario.lastShard < shard) :
      Goes closing shared (some { closing with phase := .weighing }) shared
  | drains {shard : Nat} {ids : List Key} (here : closing.phase = .listing shard ids)
      (beyond : scenario.lastShard < shard) (found : ids ≠ []) :
      Goes closing shared (some { closing with phase := .draining ids }) shared
  | relists (here : closing.phase = .draining []) :
      Goes closing shared (some { closing with phase := .listing 0 [] }) shared
  | takes {id : Key} {ids : List Key} {s : SessionId} (here : closing.phase = .draining (id :: ids))
      (free : shared.isHeld closing.application (scenario.shard id) = false)
      (there : (shared.world.application closing.application).sessions.find? id = some s) :
      Goes closing shared (some { closing with phase := .ending s .flagging ids })
        { shared with world := (shared.world.takeSession closing.application id).2 }
  | misses {id : Key} {ids : List Key} (here : closing.phase = .draining (id :: ids))
      (missing : (shared.world.application closing.application).sessions.find? id = none) :
      Goes closing shared (some { closing with phase := .draining ids })
        { shared with world := (shared.world.takeSession closing.application id).2 }
  | ends {s : SessionId} {phase next : EndPhase} {ids : List Key} {after : Shared}
      (here : closing.phase = .ending s phase ids)
      (goes : phase.Goes worker closing.listener closing.application s shared (.more next) after) :
      Goes closing shared (some { closing with phase := .ending s next ids }) after
  | books {s : SessionId} {phase : EndPhase} {ids : List Key} {error : Option Error} {after : Shared}
      (here : closing.phase = .ending s phase ids)
      (goes : phase.Goes worker closing.listener closing.application s shared (.done error) after) :
      Goes closing shared (some { closing.book after.world s error with phase := .draining ids }) after
  | dares (here : closing.phase = .weighing) (started : (shared.world.application closing.application).started = true) :
      Goes closing shared (some { closing with phase := .calling }) shared
  | forgets {report : ShutdownReport} (here : closing.phase = .weighing) :
      Goes closing shared none (shared.note (.closed worker closing.application report closing.requested))
  | calls {report : ShutdownReport} {answer : Answer} (here : closing.phase = .calling) :
      Goes closing shared none
        ((shared.note (.called worker .applicationEnd (.application closing.application) answer)).note
          (.closed worker closing.application report closing.requested))

variable {scenario worker} {shared after : Shared}

theorem OpenPhase.goes_of_step {a : ApplicationId} {id : Key} {phase : OpenPhase}
    {progress : Progress OpenPhase (Option Placed)}
    (did : phase.step scenario worker a id shared = some (progress, after)) :
    phase.Goes scenario worker a id shared progress after := by
  cases phase with
  | reserving =>
    simp only [step] at did
    split at did
    next => cases did
    next free =>
      cases did
      exact .reserves (by simpa using free)
  | checking =>
    simp only [step] at did
    split at did
    next shut =>
      cases did
      exact .declines shut
    next unshut =>
      cases did
      exact .admits (by simpa using unshut)
  | placing =>
    simp only [step, placeSession] at did
    cases there : (shared.world.application a).sessions.find? id with
    | none =>
      simp only [there] at did
      cases did
      exact .places there (by simp)
    | some s =>
      simp only [there] at did
      cases defunct : (shared.world.session s).isDefunctAt shared.world.clock with
      | false =>
        simp only [defunct, Bool.false_eq_true, if_false] at did
        cases did
        exact .finds there defunct
      | true =>
        simp only [defunct, if_true] at did
        cases did
        exact .places there (by simpa using defunct)

theorem StartPhase.goes_of_step {subject : Instance} {phase : StartPhase} {progress : Progress StartPhase StartResult}
    (did : phase.step scenario worker subject shared = some (progress, after)) :
    phase.Goes scenario worker subject shared progress after := by
  cases phase with
  | glancing =>
    simp only [step] at did
    split at did
    next started =>
      cases did
      exact .glances started
    next unstarted =>
      cases did
      exact .waits (by simpa using unstarted)
  | waiting =>
    simp only [step] at did
    split at did
    next => cases did
    next free =>
      cases did
      exact .locks (by simpa using free)
  | inspecting =>
    simp only [step] at did
    split at did
    next started =>
      cases did
      exact .finds started
    next unstarted =>
      split at did
      next gone =>
        cases did
        exact .misses (by simpa using unstarted) gone
      next there =>
        cases did
        exact .dares (by simpa using unstarted) (by simpa using there)
  | calling =>
    simp only [step, Shared.call] at did
    cases answer : scenario.plan subject.startHook (shared.calls subject.startHook) with
    | proceed =>
      simp only [answer, Answer.refusal] at did
      cases did
      exact .proceeds
    | refuse | raise error =>
      simp only [answer, Answer.refusal] at did
      cases did
      exact .refuses rfl
  | recording =>
    cases did
    exact .records
  | marking =>
    cases did
    exact .marks
  | discarding cause =>
    cases did
    exact .discards
  | removing cause =>
    simp only [step] at did
    split at did
    next => cases did
    next free =>
      cases did
      exact .removes (by simpa using free)
  | leaving result =>
    cases did
    exact .leaves

theorem EndPhase.goes_of_step {listener : Option ListenerId} {a : ApplicationId} {s : SessionId} {phase : EndPhase}
    {progress : Progress EndPhase (Option Error)}
    (did : phase.step scenario worker listener a s shared = (progress, after)) :
    phase.Goes worker listener a s shared progress after := by
  cases phase with
  | flagging =>
    simp only [step] at did
    split at did
    next ended =>
      cases did
      exact .repeats ended
    next unended =>
      cases did
      exact .flags (by simpa [endSession] using unended)
  | weighing =>
    simp only [step] at did
    split at did
    next due =>
      cases did
      exact .dares due
    next undue =>
      cases did
      exact .forgets (by simpa using undue)
  | calling =>
    simp only [step, Shared.call] at did
    cases answer : scenario.plan .sessionEnd (shared.calls .sessionEnd) with
    | proceed | refuse | raise error =>
      simp only [answer] at did
      cases did
      exact .calls

theorem Closing.goes_of_step {closing : Closing} {left : Option Closing}
    (did : closing.step scenario worker shared = some (left, after)) :
    closing.Goes scenario worker shared left after := by
  cases here : closing.phase with
  | flagging =>
    simp only [step, here] at did
    split at did
    next shut =>
      cases did
      exact .repeats here shut
    next unshut =>
      cases did
      exact .flags here (by simpa [beginShutdown] using unshut)
  | fetching =>
    simp only [step, here] at did
    cases did
    exact .fetches here
  | listing shard ids =>
    simp only [step, here] at did
    split at did
    next within =>
      split at did
      next => cases did
      next free =>
        cases did
        exact .lists here within (by simpa using free)
    next beyond =>
      split at did
      next lacking =>
        cases did
        rw [List.isEmpty_iff.mp lacking] at here
        exact .lacks here (by omega)
      next found =>
        cases did
        exact .drains here (by omega) (by simpa using found)
  | draining ids =>
    cases ids with
    | nil =>
      simp only [step, here] at did
      cases did
      exact .relists here
    | cons id ids =>
      simp only [step, here] at did
      split at did
      next => cases did
      next free =>
        cases there : (shared.world.application closing.application).sessions.find? id with
        | none =>
          simp only [takeSession, there] at did
          cases did
          exact .misses here there
        | some s =>
          simp only [takeSession, there] at did
          cases did
          exact .takes here (by simpa using free) there
  | ending s phase ids =>
    simp only [step, here] at did
    split at did
    next next middle ended =>
      cases did
      exact .ends here (EndPhase.goes_of_step ended)
    next error middle ended =>
      cases did
      exact .books here (EndPhase.goes_of_step ended)
  | weighing =>
    simp only [step, here] at did
    split at did
    next due =>
      cases did
      exact .dares here (Bool.and_eq_true_iff.mp due).1
    next =>
      cases did
      exact .forgets here
  | calling =>
    simp only [step, here, Shared.call] at did
    cases answer : scenario.plan .applicationEnd (shared.calls .applicationEnd) with
    | proceed | refuse | raise error =>
      simp only [answer] at did
      cases did
      exact .calls here

end ScopeEngine.Interleaving
