/-
# LipSync.Pipeline.Dialogue — an activity that asks the pipelines as it goes.

What a synchronizer does depends on answers that it gets only while doing it. A `Dialogue` is such
an activity as a value: it ends with a result, asks one request and goes on according to the answer,
or leaves a note. It can also break off, and breaks off when the other side does.

`Dialogue.run` holds a dialogue with a `Responder`, a party that answers each request out of a state
of its own, and keeps a record of everything asked and noted on the way.
-/
import LipSync.Note
import LipSync.Pipeline.Request

namespace LipSync

/-- Why an activity broke off half-way. -/
inductive Crash where
  /-- The other side broke off while it was asked, with this message. -/
  | unanswered (message : String)
  /-- The next cycle is due at an instant that the clock cannot show. -/
  | instantOverflow
  deriving DecidableEq, Inhabited

/-- The text of a crash. -/
def Crash.message : Crash → String
  | unanswered message => message
  | instantOverflow => "overflow when adding duration to instant"

/-- An activity with a result of type `α`. -/
inductive Dialogue (α : Type) where
  | done (result : α)
  | crash (cause : Crash)
  | ask (request : Request) (next : request.Answer → Dialogue α)
  | note (entry : Note) (next : Dialogue α)

namespace Dialogue

/-- The activity that goes on with `f` where `d` is done. -/
def bind {α β : Type} (d : Dialogue α) (f : α → Dialogue β) : Dialogue β :=
  match d with
  | done result => f result
  | crash cause => crash cause
  | ask request next => ask request fun answer => (next answer).bind f
  | note entry next => note entry (next.bind f)

instance : Monad Dialogue where
  pure := done
  bind := bind

/-- Asks one request. -/
def request (r : Request) : Dialogue r.Answer := ask r done

/-- Leaves notes, the first one first. -/
def notes (entries : List Note) : Dialogue Unit := entries.foldr note (done ())

end Dialogue

/-! ## Holding a dialogue -/

/-- A party that answers requests out of a state of type `σ`, or breaks off with a message. -/
abbrev Responder (σ : Type) := (request : Request) → σ → Except String request.Answer × σ

/-- One thing that happened in a dialogue. -/
inductive Event where
  | asked (request : Request)
  | noted (entry : Note)
  deriving DecidableEq, Inhabited

/-- What comes of a dialogue: how it ended, the state that the responder is in, and what happened in
order. -/
structure Exchange (σ α : Type) where
  result : Except Crash α
  world : σ
  events : List Event

/-- The exchange with one more event in front. -/
def Exchange.cons {σ α : Type} (e : Event) (x : Exchange σ α) : Exchange σ α :=
  { x with events := e :: x.events }

/-- Holds a dialogue with a responder that starts in the state `world`. A request that gets no
answer has been asked all the same. -/
def Dialogue.run {σ α : Type} (respond : Responder σ) (d : Dialogue α) (world : σ) : Exchange σ α :=
  match d with
  | done result => ⟨.ok result, world, []⟩
  | crash cause => ⟨.error cause, world, []⟩
  | ask request next =>
    match respond request world with
    | (.ok answer, world) => ((next answer).run respond world).cons (.asked request)
    | (.error message, world) => ⟨.error (.unanswered message), world, [.asked request]⟩
  | note entry next => (next.run respond world).cons (.noted entry)

end LipSync
