/-
# LipSync.Synchronizer.Command — everything that can be called on a synchronizer, as data.

Each call is a `Command` with a `Reply`, and every call is held as a dialogue. `Synchronizer.turn`
holds one with the pipelines. This is the one place where a synchronizer gets poisoned: by any
activity that breaks off, whichever call it belongs to.
-/
import LipSync.Synchronizer.Basic

namespace LipSync

/-- A call on a synchronizer. -/
inductive Command where
  | reconfigure (binding : Binding)
  | cycle (now : Instant)
  | untilNextCycle (now : Instant)
  | nextCycle
  | isActive
  | histories
  | interval
  deriving DecidableEq, Inhabited

/-- Results that hold no value are equal when they hold the same error, or none. -/
local instance : DecidableEq (Except SyncError Unit)
  | .ok (), .ok () => isTrue rfl
  | .error e, .error e' =>
    if h : e = e' then isTrue (congrArg _ h) else isFalse fun heq => h (Except.error.inj heq)
  | .ok _, .error _ | .error _, .ok _ => isFalse nofun

/-- What a call returns. -/
inductive Reply where
  | reconfigured (result : Except SyncError Unit)
  | cycled (targets : Option Delays)
  | untilNextCycle (milliseconds : UInt64)
  | nextCycle (due : Option Instant)
  | isActive (active : Bool)
  | histories (audioAndVideo : Option (History × History))
  | interval (duration : Duration)
  deriving DecidableEq

/-- What came of one call: what it returned, unless it broke off, and what happened on the way. -/
structure Turn where
  reply : Except Crash Reply
  events : List Event

namespace Synchronizer

/-- A call as a dialogue, which ends with the reply and the synchronizer after it. -/
def perform (s : Synchronizer) : Command → Dialogue (Reply × Synchronizer)
  | .reconfigure binding => do
    let (result, s) ← s.reconfigure binding
    return (.reconfigured result, s)
  | .cycle now => do
    let (targets, s) ← s.cycle now
    return (.cycled targets, s)
  | .nextCycle => do
    let due ← s.nextCycle
    return (.nextCycle due, s)
  | .untilNextCycle now => return (.untilNextCycle (s.untilNextCycle now), s)
  | .isActive => return (.isActive s.isActive, s)
  | .histories => return (.histories s.histories, s)
  | .interval => return (.interval s.settings.interval, s)

/-- Makes one call, with the pipelines answering out of the state `world`. -/
def turn {σ : Type} (respond : Responder σ) (s : Synchronizer) (world : σ) (c : Command) :
    Turn × Synchronizer × σ :=
  let exchange := (s.perform c).run respond world
  match exchange.result with
  | .ok (reply, next) => (⟨.ok reply, exchange.events⟩, next, exchange.world)
  | .error cause => (⟨.error cause, exchange.events⟩, s.poison, exchange.world)

end Synchronizer

end LipSync
