/-
# LipSync.Synchronizer.Basic — keeping the two streams of a call in step.

A synchronizer is bound to an audio channel and a video stream, or to nothing, and is told when to
run a cycle; it owns no timer. Cycles are due one interval after each other, counted from the last
one that was run, whatever came of it.

An activity that breaks off half-way leaves no state that could be relied on. So the synchronizer is
then poisoned for good: it refuses every binding, asks nothing, and answers as if it had none.
-/
import LipSync.Clock.Instant
import LipSync.Synchronizer.Session

namespace LipSync

/-- What a synchronizer is to be bound to. -/
inductive Binding where
  | disabled
  | enabled (endpoints : Endpoints)
  deriving DecidableEq, Inhabited

/-- The text of a binding, which shows the channel and no handles. -/
def Binding.describe : Binding → String
  | disabled => "Disabled"
  | enabled endpoints =>
    let channel := toString endpoints.channel.number
    "Enabled(SyncEndpoints \x7b channel: ChannelId(" ++ channel ++ "), .. \x7d)"

/-- What is chosen when a synchronizer is made. -/
structure Settings where
  /-- The time from one cycle to the next. -/
  interval : Duration := .ofParts 1 0
  tuning : Tuning := {}
  /-- The number of samples kept for each stream. -/
  historyCapacity : Nat := History.defaultCapacity
  deriving DecidableEq, Inhabited

/-- Whether a synchronizer can be relied on, and its state as long as it can. -/
inductive Condition where
  | serving (lastCycle : Instant) (session : Option Session)
  | poisoned
  deriving DecidableEq, Inhabited

/-- A synchronizer. -/
structure Synchronizer where
  settings : Settings
  condition : Condition
  deriving DecidableEq, Inhabited

namespace Synchronizer

/-- A synchronizer made at an instant, bound to nothing. -/
def unbound (settings : Settings) (made : Instant) : Synchronizer := ⟨settings, .serving made none⟩

/-- The synchronizer after an activity of it broke off. -/
def poison (s : Synchronizer) : Synchronizer := { s with condition := .poisoned }

/-- The error of everything that is asked of a poisoned synchronizer. -/
def poisonedError : SyncError := .poisoned "poisoned lock: another task failed inside"

/-! ## What can be read -/

/-- The session, if it is bound and can be relied on. -/
def session? (s : Synchronizer) : Option Session :=
  match s.condition with
  | .serving _ session => session
  | .poisoned => none

/-- Whether there is a session. -/
def isActive (s : Synchronizer) : Bool := s.session?.isSome

/-- The histories of audio and video, while there is a session. -/
def histories (s : Synchronizer) : Option (History × History) :=
  s.session?.map fun session => (session.audio.history, session.video.history)

/-- The whole milliseconds from `now` until the next cycle is due, in 64 bits. Once it is overdue
there are none, and at no time are there more than the interval has. -/
def untilNextCycle (s : Synchronizer) (now : Instant) : UInt64 :=
  let left := match s.condition with
    | .serving lastCycle _ => s.settings.interval - now.since lastCycle
    | .poisoned => s.settings.interval
  .ofNat left.milliseconds

/-- When the next cycle is due. An instant past the range of the clock breaks the activity off. -/
def nextCycle (s : Synchronizer) : Dialogue (Option Instant) :=
  match s.condition with
  | .poisoned => return none
  | .serving lastCycle _ =>
    match lastCycle.after? s.settings.interval with
    | some due => return due
    | none => .crash .instantOverflow

/-! ## Binding -/

/-- The binding in force. -/
def bindingOf (session : Option Session) : Binding :=
  match session with
  | none => .disabled
  | some session => .enabled session.endpoints

/-- The session that a new binding starts with. -/
def sessionOf (settings : Settings) : Binding → Option Session
  | .disabled => none
  | .enabled endpoints => some (.start endpoints settings.historyCapacity settings.tuning)

/-- What there is to tell about a new binding. -/
def bindingNotes : Binding → List Note
  | .disabled => [⟨.debug, "audio/video sync disabled"⟩]
  | .enabled endpoints =>
    let channel := endpoints.channel.number
    [⟨.debug, s!"audio/video sync enabled for audio channel {channel}"⟩]

/-- Binds the synchronizer. The binding that is in force already changes nothing; any other starts
over. -/
def reconfigure (s : Synchronizer) (binding : Binding) :
    Dialogue (Except SyncError Unit × Synchronizer) := do
  match s.condition with
  | .poisoned => return (.error poisonedError, s)
  | .serving lastCycle session =>
    if bindingOf session = binding then return (.ok (), s)
    Dialogue.notes (bindingNotes binding)
    let condition := .serving lastCycle (sessionOf s.settings binding)
    return (.ok (), { s with condition })

/-! ## Cycles -/

/-- What there is to tell about a cycle that came to nothing. -/
def failureNote (e : SyncError) : Note :=
  if e.isTransient then ⟨.debug, s!"sync cycle skipped: {e.message}"⟩
  else ⟨.warn, s!"sync cycle failed: {e.message}"⟩

/-- Runs a cycle at an instant, and tells the delays that the pipelines were asked for, if any. -/
def cycle (s : Synchronizer) (now : Instant) : Dialogue (Option Delays × Synchronizer) := do
  match s.condition with
  | .poisoned =>
    Dialogue.notes [failureNote poisonedError]
    return (none, s)
  | .serving _ none => return (none, { s with condition := .serving now none })
  | .serving _ (some session) =>
    let (outcome, session) ← session.cycle
    -- the schedule moves whatever the outcome is
    let s := { s with condition := .serving now session }
    match outcome with
    | .ok targets => return (targets, s)
    | .error e =>
      Dialogue.notes [failureNote e]
      return (none, s)

end Synchronizer

end LipSync
