/-
# LipSync.Proofs.Synchronizer.Runs — synchronizers that are called again and again.

A run is a list of calls, each with the answers that the pipelines give during it. What came of it
is kept in a record, with one entry for each call. Answers given beforehand are no restriction:
whatever pipelines a call is made with, it comes to what it comes to under some answers
(`Synchronizer.turn_eq_call`). A cycle ends whenever every request it makes gets an answer.
-/
import LipSync.Proofs.Synchronizer.Cycle

namespace LipSync

open Dialogue

/-- A call on a synchronizer, and what the pipelines answer during it. -/
structure Call where
  command : Command
  answers : Answers

/-- What a record keeps of one call: the synchronizer before it, the call, and what came of it. -/
structure Entry where
  before : Synchronizer
  call : Call
  turn : Turn

/-- Pipelines that have these delays, give these readings, and agree to be moved, except for audio,
which has an answer of its own. -/
def Answers.usual (delays : Delays) (readings : Medium → Readings)
    (audioAnswer : Except SyncError Unit) : Answers
  | .videoDelay => .ok delays.video
  | .holdVideo _ => .ok ()
  | .delayEstimate _ _ => .ok (some ⟨delays.audio, 0⟩)
  | .rtpHandles _ _ => .ok (some ⟨⟨0⟩, ⟨0⟩⟩)
  | .holdAudio _ _ _ => .ok audioAnswer
  | .mediaTime m _ => .ok (readings m).mediaTime
  | .arrivalTime m _ => .ok (readings m).arrivalTime
  | .report m _ => .ok (readings m).report

/-- Pipelines with the same readings of both streams, where audio agrees too. -/
def Answers.agreeable (r : Readings) : Answers := .usual ⟨20, 40⟩ (fun _ => r) (.ok ())

/-- Readings of a stream with 90000 ticks a second, whose packets and reports take no time. -/
def Readings.atSecond (second : Nat) : Readings :=
  let ticks : MediaTime := ⟨.ofNat (90000 * second)⟩
  ⟨some ticks, some (.ofNat (1000 * second)), some ⟨⟨.ofNat second, 0⟩, ticks⟩⟩

/-- A channel and a video stream to bind to. -/
def Endpoints.usual : Endpoints := ⟨⟨7⟩, ⟨0⟩, ⟨1⟩, ⟨1⟩⟩

namespace Synchronizer

/-- Makes one call. -/
def call (s : Synchronizer) (c : Call) : Turn × Synchronizer :=
  ((s.turn c.answers.responder () c.command).1, (s.turn c.answers.responder () c.command).2.1)

/-- The record of some calls in order. -/
def record (s : Synchronizer) : List Call → List Entry
  | [] => []
  | c :: cs => ⟨s, c, (s.call c).1⟩ :: (s.call c).2.record cs

@[simp] theorem record_nil (s : Synchronizer) : s.record [] = [] := rfl

@[simp] theorem record_cons (s : Synchronizer) (c : Call) (cs : List Call) :
    s.record (c :: cs) = ⟨s, c, (s.call c).1⟩ :: (s.call c).2.record cs := rfl

/-! ## One call -/

variable {s next : Synchronizer} {a : Answers} {command : Command} {reply : Reply}
  {events : List Event}

/-- A call that ends leaves what its dialogue yields. -/
theorem call_of_yields (h : Yields a (s.perform command) (reply, next) events) :
    s.call ⟨command, a⟩ = (⟨.ok reply, events⟩, next) := by
  obtain ⟨hresult, hevents⟩ := h
  simp only [call, turn, hresult, hevents]

/-- A call that returned a reply has ended. -/
theorem yields_of_reply (h : (s.call ⟨command, a⟩).1.reply = .ok reply) :
    ∃ events next, Yields a (s.perform command) (reply, next) events ∧
      s.call ⟨command, a⟩ = (⟨.ok reply, events⟩, next) := by
  simp only [call, turn] at h
  split at h
  · next reply' next hresult =>
    cases h
    have hyields : Yields a (s.perform command) (reply, next) _ := ⟨hresult, rfl⟩
    exact ⟨_, next, hyields, call_of_yields hyields⟩
  · cases h

/-- A call that breaks off poisons. -/
theorem call_of_error {c : Call} {cause : Crash} (h : (s.call c).1.reply = .error cause) :
    (s.call c).2 = s.poison := by
  simp only [call, turn] at h ⊢
  split at h
  · cases h
  · rfl

/-- What breaks a call off has broken its dialogue off. -/
theorem result_of_error {cause : Crash} (h : (s.call ⟨command, a⟩).1.reply = .error cause) :
    ((s.perform command).run a.responder ()).result = .error cause := by
  simp only [call, turn] at h
  split at h
  · cases h
  · next hresult =>
    cases h
    exact hresult

/-- A dialogue that breaks off breaks its call off. -/
theorem error_of_result {cause : Crash}
    (h : ((s.perform command).run a.responder ()).result = .error cause) :
    (s.call ⟨command, a⟩).1.reply = .error cause := by
  simp only [call, turn, h]

/-- Whether a call ends or not, what happened in its dialogue has happened in it. -/
theorem events_call (s : Synchronizer) (command : Command) (a : Answers) :
    (s.call ⟨command, a⟩).1.events = ((s.perform command).run a.responder ()).events := by
  simp only [call, turn]
  split <;> rfl

/-! ## Any pipelines at all -/

/-- A cycle makes its requests in their order. -/
theorem orderly_cycle (s : Synchronizer) (now : Instant) :
    (s.perform (.cycle now)).Orderly 0 11 := by
  refine Orderly.bind ?_ (Nat.le_refl _) fun _ => orderly_pure (Nat.le_refl _)
  unfold Synchronizer.cycle
  split
  · exact (orderly_notes (Nat.le_refl _)).bind (by decide) fun _ => orderly_pure (by decide)
  · exact orderly_pure (by decide)
  · next session _ =>
    refine (Session.orderly_cycle session).bind (Nat.le_refl _) ?_
    rintro ⟨e | targets, after⟩
    · refine (orderly_notes (Nat.le_refl _)).bind (Nat.le_refl _) ?_
      intro _
      exact orderly_pure (Nat.le_refl _)
    · exact orderly_pure (Nat.le_refl _)

theorem orderly_reconfigure (s : Synchronizer) (binding : Binding) :
    (s.perform (.reconfigure binding)).Orderly 0 11 := by
  refine Orderly.bind ?_ (Nat.le_refl _) fun _ => orderly_pure (Nat.le_refl _)
  unfold reconfigure
  split
  · exact orderly_pure (by decide)
  · split
    · exact orderly_pure (by decide)
    · exact (orderly_notes (Nat.le_refl _)).bind (by decide) fun _ => orderly_pure (by decide)

/-- Whatever pipelines a call is made with, and whatever they remember, it comes to the same under
answers that are given beforehand. -/
theorem turn_eq_call {σ : Type} (respond : Responder σ) (s : Synchronizer) (world : σ)
    (command : Command) :
    ∃ a : Answers, ((s.turn respond world command).1, (s.turn respond world command).2.1) =
      s.call ⟨command, a⟩ := by
  -- the next instant may be past the clock, but nothing is asked there
  have hasked : ∃ a : Answers,
      ((s.perform command).run respond world).result =
        ((s.perform command).run a.responder ()).result ∧
      ((s.perform command).run respond world).events =
        ((s.perform command).run a.responder ()).events := by
    cases command with
    | cycle now => exact (orderly_cycle s now).exists_answers respond world
    | reconfigure binding => exact (orderly_reconfigure s binding).exists_answers respond world
    | nextCycle =>
      refine ⟨fun _ => .error "", ?_⟩
      simp only [perform, nextCycle]
      split
      · exact ⟨rfl, rfl⟩
      · split <;> exact ⟨rfl, rfl⟩
    | untilNextCycle now => exact ⟨fun _ => .error "", rfl, rfl⟩
    | isActive => exact ⟨fun _ => .error "", rfl, rfl⟩
    | histories => exact ⟨fun _ => .error "", rfl, rfl⟩
    | interval => exact ⟨fun _ => .error "", rfl, rfl⟩
  obtain ⟨a, hresult, hevents⟩ := hasked
  refine ⟨a, ?_⟩
  simp only [call, turn, hresult, hevents]
  cases ((s.perform command).run a.responder ()).result <;> rfl

/-- Every request made during the call gets an answer. -/
def Answered (s : Synchronizer) (c : Call) : Prop :=
  ∀ r ∈ requests (s.call c).1.events, ∃ answer, c.answers r = .ok answer

/-- Whether there is an answer. -/
instance decidableAnswer {α : Type} (answer : Except String α) :
    Decidable (∃ x, answer = .ok x) :=
  match answer with
  | .ok x => .isTrue ⟨x, rfl⟩
  | .error _ => .isFalse (by simp)

instance (s : Synchronizer) (c : Call) : Decidable (s.Answered c) :=
  inferInstanceAs (Decidable (∀ r ∈ requests _, _))

/-- A cycle during which every request gets an answer ends. -/
theorem reply_of_answered {now : Instant} (h : s.Answered ⟨.cycle now, a⟩) :
    ∃ reply, (s.call ⟨.cycle now, a⟩).1.reply = .ok reply := by
  have hanswered : ∀ r ∈ requests ((s.perform (.cycle now)).run a.responder ()).events,
      ∃ answer, a r = .ok answer := by
    rw [← events_call]
    exact h
  obtain ⟨⟨reply, next⟩, hyields⟩ := (orderly_cycle s now).yields hanswered
  exact ⟨reply, by rw [call_of_yields hyields]⟩

/-! ## Binding -/

/-- Binding a synchronizer that can be relied on. -/
theorem call_reconfigure (settings : Settings) (lastCycle : Instant) (session : Option Session)
    (binding : Binding) (a : Answers) :
    call ⟨settings, .serving lastCycle session⟩ ⟨.reconfigure binding, a⟩ =
      if bindingOf session = binding then
        (⟨.ok (.reconfigured (.ok ())), []⟩, ⟨settings, .serving lastCycle session⟩)
      else
        (⟨.ok (.reconfigured (.ok ())), (bindingNotes binding).map .noted⟩,
          ⟨settings, .serving lastCycle (sessionOf settings binding)⟩) := by
  split
  · next hsame =>
    apply call_of_yields
    simp only [perform, reconfigure, if_pos hsame]
    exact yields_bind.mpr ⟨_, [], [], yields_pure.mpr ⟨rfl, rfl⟩, yields_pure.mpr ⟨rfl, rfl⟩, rfl⟩
  · next hother =>
    apply call_of_yields
    simp only [perform, reconfigure, if_neg hother]
    refine yields_bind.mpr ⟨(.ok (), ⟨settings, .serving lastCycle (sessionOf settings binding)⟩),
      _, [], ?_, yields_pure.mpr ⟨rfl, rfl⟩, (List.append_nil _).symm⟩
    exact yields_bind.mpr
      ⟨(), _, [], yields_notes.mpr rfl, yields_pure.mpr ⟨rfl, rfl⟩, (List.append_nil _).symm⟩

/-! ## The schedule -/

/-- Asking when the next cycle is due breaks off where the clock cannot show it. -/
theorem call_nextCycle (settings : Settings) (lastCycle : Instant) (session : Option Session)
    (a : Answers) :
    call ⟨settings, .serving lastCycle session⟩ ⟨.nextCycle, a⟩ =
      match lastCycle.after? settings.interval with
      | some due => (⟨.ok (.nextCycle (some due)), []⟩, ⟨settings, .serving lastCycle session⟩)
      | none => (⟨.error .instantOverflow, []⟩, ⟨settings, .poisoned⟩) := by
  cases hdue : lastCycle.after? settings.interval with
  | some due =>
    apply call_of_yields
    simp only [perform, nextCycle, hdue]
    exact yields_bind.mpr ⟨_, [], [], yields_pure.mpr ⟨rfl, rfl⟩, yields_pure.mpr ⟨rfl, rfl⟩, rfl⟩
  | none =>
    simp only [call, turn, perform, nextCycle, hdue]
    rfl

/-! ## Cycles -/

theorem condition_of_session {session : Session} (h : s.session? = some session) :
    ∃ lastCycle, s.condition = .serving lastCycle (some session) := by
  unfold session? at h
  split at h
  · next lastCycle _ hcondition =>
    cases h
    exact ⟨lastCycle, hcondition⟩
  · cases h

/-- A cycle of a synchronizer that is bound is the cycle of its session, and moves the schedule. -/
theorem cycle_of_yields {session : Session} {now : Instant} {targets : Option Delays}
    (hs : s.session? = some session) (h : Yields a (s.cycle now) (targets, next) events) :
    ∃ outcome after, session.Cycles a outcome after (setters events) ∧
      targets = outcome.toOption ∧ next = { s with condition := .serving now (some after) } := by
  obtain ⟨lastCycle, hcondition⟩ := condition_of_session hs
  unfold Synchronizer.cycle at h
  rw [hcondition] at h
  obtain ⟨⟨outcome, after⟩, _, _, hcycle, h₁, rfl⟩ := yields_bind.mp h
  have hcycles := Session.cycles_of_yields hcycle
  refine ⟨outcome, after, ?_⟩
  cases outcome with
  | ok targets =>
    obtain ⟨hresult, rfl⟩ := yields_pure.mp h₁
    cases hresult
    rw [List.append_nil]
    exact ⟨hcycles, rfl, rfl⟩
  | error e =>
    obtain ⟨_, _, _, hnotes, h₂, rfl⟩ := yields_bind.mp h₁
    obtain ⟨hresult, rfl⟩ := yields_pure.mp h₂
    cases hresult
    rw [yields_notes.mp hnotes, List.append_nil, setters_append, setters_noted, List.append_nil]
    exact ⟨hcycles, rfl, rfl⟩

/-- The same of a call that returned. -/
theorem cycle_of_reply {session : Session} {now : Instant} (hs : s.session? = some session)
    (h : (s.call ⟨.cycle now, a⟩).1.reply = .ok reply) :
    ∃ outcome after, session.Cycles a outcome after (setters (s.call ⟨.cycle now, a⟩).1.events) ∧
      reply = .cycled outcome.toOption ∧
      (s.call ⟨.cycle now, a⟩).2 = { s with condition := .serving now (some after) } := by
  obtain ⟨events, next, hyields, hcall⟩ := yields_of_reply h
  rw [hcall]
  unfold perform at hyields
  obtain ⟨⟨targets, s'⟩, _, _, hcycle, hreturn, rfl⟩ := yields_bind.mp hyields
  obtain ⟨hreply, rfl⟩ := yields_pure.mp hreturn
  cases hreply
  obtain ⟨outcome, after, hcycles, rfl, rfl⟩ := cycle_of_yields hs hcycle
  rw [List.append_nil]
  exact ⟨outcome, after, hcycles, rfl, rfl⟩

/-- A cycle during which every request gets an answer does return. -/
theorem cycle_of_answered {session : Session} {now : Instant} (hs : s.session? = some session)
    (h : s.Answered ⟨.cycle now, a⟩) :
    ∃ outcome after, session.Cycles a outcome after (setters (s.call ⟨.cycle now, a⟩).1.events) ∧
      (s.call ⟨.cycle now, a⟩).1.reply = .ok (.cycled outcome.toOption) ∧
      (s.call ⟨.cycle now, a⟩).2 = { s with condition := .serving now (some after) } := by
  obtain ⟨reply, hreply⟩ := reply_of_answered h
  obtain ⟨outcome, after, hcycles, rfl, hafter⟩ := cycle_of_reply hs hreply
  exact ⟨outcome, after, hcycles, hreply, hafter⟩

end Synchronizer

end LipSync
