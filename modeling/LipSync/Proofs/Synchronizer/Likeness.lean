/-
# LipSync.Proofs.Synchronizer.Likeness — synchronizers that cannot be told apart.

A `Likeness` is a way in which the receptions of a stream may differ without its being noticed: the
same skews are measured by like receptions, and they stay alike when they are refreshed. One of the
two may see the pipelines through a `view` of its own, as long as that changes nothing but what is
read of the streams. Synchronizers whose receptions are alike, and which are alike otherwise, then
make the same requests and give the same replies, call after call (`Synchronizer.Like.record`); only
the histories that they show may differ.
-/
import LipSync.Proofs.Pipeline.Coupling
import LipSync.Proofs.Synchronizer.Runs
import Mathlib.Data.Option.Basic

namespace LipSync

open Dialogue

/-- The request reads a stream. -/
def Request.readsStream : Request → Bool
  | mediaTime _ _ | arrivalTime _ _ | report _ _ => true
  | _ => false

/-- A way in which receptions may differ without its being noticed. -/
structure Likeness where
  /-- What the second one is answered where the first one is answered `a`. -/
  view : Answers → Answers
  view_eq : ∀ a r, r.readsStream = false → view a r = a r
  /-- How far apart the two may have run their last cycles. -/
  instants : Instant → Instant → Prop
  instants_refl : ∀ t, instants t t
  /-- How the readings of a stream differ. -/
  readings : Medium → Readings → Readings → Prop
  read : ∀ a m transport receiver, Coupled a (view a) (readings m)
    (Medium.read m transport receiver) (Medium.read m transport receiver)
  /-- How the receptions of a stream differ. -/
  receptions : Medium → Reception → Reception → Prop
  update : ∀ {m r r' x x'}, receptions m r r' → readings m x x' →
    Alike (fun u v => receptions m u.reception v.reception) (r.update x) (r'.update x')
  measure : ∀ {audio audio' video video'}, receptions .audio audio audio' →
    receptions .video video video' → Skew.measure audio video = Skew.measure audio' video'

variable {L : Likeness} {a : Answers}

/-! ## Sessions -/

theorem Likeness.refresh {m : Medium} {r r' : Reception} (h : L.receptions m r r')
    (transport : Transport) (receiver : Receiver) :
    Coupled a (L.view a) (Alike (L.receptions m)) (r.refresh m transport receiver).run
      (r'.refresh m transport receiver).run := by
  unfold Reception.refresh
  refine (L.read a m transport receiver).run_lift_bind ?_
  intro x x' hx
  refine coupled_run_except_bind (L.update h hx) ?_
  intro u v huv
  refine coupled_notes.run_lift_bind ?_
  intro _ _ _
  exact coupled_pure (.ok huv)

namespace Session

/-- The sessions differ in their receptions at most, which are alike. -/
structure Like (L : Likeness) (s s' : Session) : Prop where
  endpoints_eq : s.endpoints = s'.endpoints
  audio : L.receptions .audio s.audio s'.audio
  video : L.receptions .video s.video s'.video
  compensator_eq : s.compensator = s'.compensator

namespace Like

variable {s s' : Session}

theorem gather (h : s.Like L s') :
    Coupled a (L.view a) (Alike fun x y => x.1 = y.1 ∧ x.2.Like L y.2) s.gather.run
      s'.gather.run := by
  obtain ⟨hendpoints, haudio, hvideo, hcompensator⟩ := h
  unfold Session.gather
  rw [hendpoints]
  refine (coupled_request_of_eq (L.view_eq a _ rfl)).run_lift_bind ?_
  rintro videoDelay _ rfl
  refine (coupled_request_of_eq (L.view_eq a _ rfl)).run_lift_bind ?_
  rintro estimate _ rfl
  cases estimate with
  | none => exact coupled_pure (.error _)
  | some estimate =>
    refine (coupled_request_of_eq (L.view_eq a _ rfl)).run_lift_bind ?_
    rintro handles _ rfl
    cases handles with
    | none => exact coupled_pure (.error _)
    | some handles =>
      refine (L.refresh hvideo _ _).run_bind ?_
      intro video video' hvideo'
      refine (L.refresh haudio _ _).run_bind ?_
      intro audio audio' haudio'
      exact coupled_pure (.ok ⟨rfl, rfl, haudio', hvideo', hcompensator⟩)

theorem skew (h : s.Like L s') :
    Coupled a (L.view a) (Alike Eq) s.skew.run s'.skew.run := by
  unfold Session.skew
  rw [L.measure h.audio h.video]
  refine coupled_run_except_bind (Alike.refl (fun _ => rfl) _) ?_
  rintro skew _ rfl
  refine coupled_notes.run_lift_bind ?_
  intro _ _ _
  exact coupled_pure (Alike.refl (fun _ => rfl) _)

theorem apply (h : s.Like L s') (adjustment : Adjustment) :
    Coupled a (L.view a) (Like L) (s.apply adjustment) (s'.apply adjustment) := by
  obtain ⟨hendpoints, haudio, hvideo, -⟩ := h
  -- whatever audio answers, both go on with the same compensator
  have hlast (compensator : Compensator) :
      Coupled a (L.view a) (Like L)
        (do Dialogue.request (.holdVideo adjustment.targets.video)
            return { s with compensator })
        (do Dialogue.request (.holdVideo adjustment.targets.video)
            return { s' with compensator }) := by
    refine (coupled_request_of_eq (L.view_eq a _ rfl)).bind ?_
    intro _ _ _
    exact coupled_pure ⟨hendpoints, haudio, hvideo, rfl⟩
  rw [hendpoints] at hlast
  unfold Session.apply
  rw [hendpoints]
  refine (coupled_request_of_eq (L.view_eq a _ rfl)).bind ?_
  rintro answer _ rfl
  cases answer with
  | ok _ => exact hlast adjustment.next
  | error e => exact coupled_notes.bind fun _ _ _ => hlast adjustment.next.revert

theorem steer (h : s.Like L s') (skew : Int) (current : Delays) :
    Coupled a (L.view a) (fun x y => x.1 = y.1 ∧ x.2.Like L y.2) (s.steer skew current)
      (s'.steer skew current) := by
  unfold Session.steer
  rw [h.compensator_eq]
  refine coupled_notes.bind ?_
  intro _ _ _
  refine coupled_notes.bind ?_
  intro _ _ _
  refine (h.apply _).bind ?_
  intro next next' hnext
  exact coupled_pure ⟨rfl, hnext⟩

/-- A cycle makes the same requests and has the same outcome, and leaves the sessions alike. -/
theorem cycle (h : s.Like L s') :
    Coupled a (L.view a) (fun x y => x.1 = y.1 ∧ x.2.Like L y.2) s.cycle s'.cycle := by
  unfold Session.cycle
  refine h.gather.bind ?_
  rintro _ _ (@⟨⟨current, next⟩, ⟨_, next'⟩, rfl, hnext⟩ | e)
  · refine hnext.skew.bind ?_
    rintro _ _ (@⟨skew, _, rfl⟩ | e)
    · refine (hnext.steer skew current).bind ?_
      rintro ⟨targets, after⟩ ⟨_, after'⟩ ⟨rfl, hafter⟩
      exact coupled_pure ⟨rfl, hafter⟩
    · exact coupled_pure ⟨rfl, hnext⟩
  · exact coupled_pure ⟨rfl, h⟩

end Like

end Session

/-! ## Synchronizers -/

/-- Both are poisoned, or both serve, one after a cycle about when the other had one. -/
inductive Condition.Like (L : Likeness) : Condition → Condition → Prop
  | serving {lastCycle lastCycle' : Instant} {session session' : Option Session}
      (instants : L.instants lastCycle lastCycle')
      (sessions : Option.Rel (Session.Like L) session session') :
      Like L (.serving lastCycle session) (.serving lastCycle' session')
  | poisoned : Like L .poisoned .poisoned

/-- A reply, unless it tells the histories. -/
def Reply.outward : Reply → Option Reply
  | histories _ => none
  | reply => some reply

/-- What a call returned, unless that is the histories, and what it asked. -/
def Turn.outward (t : Turn) : Except Crash (Option Reply) × List Request :=
  (t.reply.map Reply.outward, requests t.events)

/-- The call binds or runs a cycle. -/
def Command.drives : Command → Bool
  | reconfigure _ | cycle _ => true
  | _ => false

namespace Synchronizer

/-- The synchronizers are alike in all that they can be asked for, and start alike when they are
bound anew. -/
structure Like (L : Likeness) (s s' : Synchronizer) : Prop where
  interval_eq : s.settings.interval = s'.settings.interval
  tuning_eq : s.settings.tuning = s'.settings.tuning
  fresh : ∀ m, L.receptions m (.empty s.settings.historyCapacity)
    (.empty s'.settings.historyCapacity)
  condition : s.condition.Like L s'.condition

/-- The synchronizer after some calls. -/
def after (s : Synchronizer) (calls : List Call) : Synchronizer :=
  calls.foldl (fun s c => (s.call c).2) s

theorem bindingOf_eq {session session' : Option Session}
    (h : Option.Rel (Session.Like L) session session') :
    bindingOf session = bindingOf session' := by
  cases h with
  | none => rfl
  | some h => exact congrArg Binding.enabled h.endpoints_eq

namespace Like

variable {s s' : Synchronizer}

/-- Both with another condition that is alike. -/
theorem withCondition (h : s.Like L s') {condition condition' : Condition}
    (hcondition : condition.Like L condition') :
    Like L { s with condition } { s' with condition := condition' } :=
  ⟨h.interval_eq, h.tuning_eq, h.fresh, hcondition⟩

/-- Both have a session, or neither has. -/
theorem sessions (h : s.Like L s') :
    Option.Rel (Session.Like L) s.session? s'.session? := by
  have hcondition := h.condition
  unfold Synchronizer.session?
  generalize s.condition = condition, s'.condition = condition' at hcondition
  cases hcondition with
  | poisoned => exact .none
  | serving instants sessions => exact sessions

theorem poison (h : s.Like L s') : s.poison.Like L s'.poison := h.withCondition .poisoned

theorem sessionOf (h : s.Like L s') (binding : Binding) :
    Option.Rel (Session.Like L) (Synchronizer.sessionOf s.settings binding)
      (Synchronizer.sessionOf s'.settings binding) := by
  cases binding with
  | disabled => exact .none
  | enabled endpoints =>
    refine .some ⟨rfl, h.fresh .audio, h.fresh .video, ?_⟩
    exact congrArg Compensator.initial h.tuning_eq

theorem reconfigure (h : s.Like L s') (binding : Binding) :
    Coupled a (L.view a) (fun x y => x.1 = y.1 ∧ x.2.Like L y.2) (s.reconfigure binding)
      (s'.reconfigure binding) := by
  have hcondition := h.condition
  unfold Synchronizer.reconfigure
  generalize s.condition = condition, s'.condition = condition' at hcondition
  cases hcondition with
  | poisoned => exact coupled_pure ⟨rfl, h⟩
  | serving instants sessions =>
    simp only [bindingOf_eq sessions]
    split
    · exact coupled_pure ⟨rfl, h⟩
    · refine coupled_notes.bind ?_
      intro _ _ _
      exact coupled_pure ⟨rfl, h.withCondition (.serving instants (h.sessionOf binding))⟩

theorem cycle (h : s.Like L s') (now : Instant) :
    Coupled a (L.view a) (fun x y => x.1 = y.1 ∧ x.2.Like L y.2) (s.cycle now)
      (s'.cycle now) := by
  have hcondition := h.condition
  unfold Synchronizer.cycle
  generalize s.condition = condition, s'.condition = condition' at hcondition
  cases hcondition with
  | poisoned =>
    refine coupled_notes.bind ?_
    intro _ _ _
    exact coupled_pure ⟨rfl, h⟩
  | serving instants sessions =>
    have hnow := L.instants_refl now
    cases sessions with
    | none => exact coupled_pure ⟨rfl, h.withCondition (.serving hnow .none)⟩
    | some hsession =>
      refine hsession.cycle.bind ?_
      rintro ⟨outcome, next⟩ ⟨_, next'⟩ ⟨rfl, hnext⟩
      have hlike := h.withCondition (.serving hnow (.some hnext))
      cases outcome with
      | ok targets => exact coupled_pure ⟨rfl, hlike⟩
      | error e =>
        refine coupled_notes.bind ?_
        intro _ _ _
        exact coupled_pure ⟨rfl, hlike⟩

theorem nextCycle (h : s.Like L s') (hinstants : ∀ t t', L.instants t t' → t = t') :
    Coupled a (L.view a) Eq s.nextCycle s'.nextCycle := by
  have hcondition := h.condition
  unfold Synchronizer.nextCycle
  generalize s.condition = condition, s'.condition = condition' at hcondition
  cases hcondition with
  | poisoned => exact coupled_pure rfl
  | serving instants sessions =>
    rw [hinstants _ _ instants, h.interval_eq]
    simp only
    split
    · exact coupled_pure rfl
    · exact .crash _

theorem untilNextCycle_eq (h : s.Like L s') (hinstants : ∀ t t', L.instants t t' → t = t')
    (now : Instant) : s.untilNextCycle now = s'.untilNextCycle now := by
  have hcondition := h.condition
  unfold Synchronizer.untilNextCycle
  generalize s.condition = condition, s'.condition = condition' at hcondition
  cases hcondition with
  | poisoned => rw [h.interval_eq]
  | serving instants sessions => simp only [hinstants _ _ instants, h.interval_eq]

theorem isActive_eq (h : s.Like L s') : s.isActive = s'.isActive := by
  have hsessions := h.sessions
  unfold Synchronizer.isActive
  generalize s.session? = session, s'.session? = session' at hsessions
  cases hsessions <;> rfl

/-- A call makes the same requests and gives the same reply, but for the histories. -/
theorem perform (h : s.Like L s') (c : Command)
    (hc : c.drives = true ∨ ∀ t t', L.instants t t' → t = t') :
    Coupled a (L.view a) (fun x y => x.1.outward = y.1.outward ∧ x.2.Like L y.2) (s.perform c)
      (s'.perform c) := by
  cases c with
  | reconfigure binding =>
    refine (h.reconfigure binding).bind ?_
    rintro ⟨result, next⟩ ⟨_, next'⟩ ⟨rfl, hnext⟩
    exact coupled_pure ⟨rfl, hnext⟩
  | cycle now =>
    refine (h.cycle now).bind ?_
    rintro ⟨targets, next⟩ ⟨_, next'⟩ ⟨rfl, hnext⟩
    exact coupled_pure ⟨rfl, hnext⟩
  | nextCycle =>
    refine (h.nextCycle (hc.resolve_left Bool.false_ne_true)).bind ?_
    rintro due _ rfl
    exact coupled_pure ⟨rfl, h⟩
  | untilNextCycle now =>
    refine coupled_pure ⟨?_, h⟩
    rw [h.untilNextCycle_eq (hc.resolve_left Bool.false_ne_true)]
  | isActive =>
    refine coupled_pure ⟨?_, h⟩
    rw [h.isActive_eq]
  | histories => exact coupled_pure ⟨rfl, h⟩
  | interval =>
    refine coupled_pure ⟨?_, h⟩
    rw [h.interval_eq]

end Like

end Synchronizer

/-- The call as it is made on the second one. -/
def Likeness.call (L : Likeness) (c : Call) : Call := ⟨c.command, L.view c.answers⟩

namespace Synchronizer.Like

variable {s s' : Synchronizer}

theorem call (h : s.Like L s') (c : Call)
    (hc : c.command.drives = true ∨ ∀ t t', L.instants t t' → t = t') :
    (s.call c).1.outward = (s'.call (L.call c)).1.outward ∧
      (s.call c).2.Like L (s'.call (L.call c)).2 := by
  obtain ⟨hresult, hrequests⟩ := (h.perform (a := c.answers) c.command hc).run
  simp only [Synchronizer.call, turn, Likeness.call]
  generalize (s.perform c.command).run c.answers.responder () = x at hresult hrequests
  generalize (s'.perform c.command).run (L.view c.answers).responder () = y at hresult hrequests
  obtain ⟨result, _, events⟩ := x
  obtain ⟨result', _, events'⟩ := y
  simp only at hresult hrequests ⊢
  cases hresult with
  | @ok x y related =>
    obtain ⟨reply, next⟩ := x
    obtain ⟨reply', next'⟩ := y
    obtain ⟨hreply, hnext⟩ := related
    refine ⟨?_, hnext⟩
    show (Except.ok reply.outward, requests events) = (Except.ok reply'.outward, requests events')
    rw [hreply, hrequests]
  | error cause =>
    refine ⟨?_, h.poison⟩
    show (Except.error cause, requests events) = (Except.error cause, requests events')
    rw [hrequests]

/-- Call after call, like synchronizers make the same requests and give the same replies, but for
the histories, and stay alike. -/
theorem record (h : s.Like L s') (calls : List Call)
    (hcalls : ∀ c ∈ calls, c.command.drives = true ∨ ∀ t t', L.instants t t' → t = t') :
    (s.record calls).map (·.turn.outward) =
        (s'.record (calls.map L.call)).map (·.turn.outward) ∧
      (s.after calls).Like L (s'.after (calls.map L.call)) := by
  induction calls generalizing s s' with
  | nil => exact ⟨rfl, h⟩
  | cons c calls ih =>
    obtain ⟨hturn, hnext⟩ := h.call c (hcalls c List.mem_cons_self)
    obtain ⟨hrest, hafter⟩ := ih hnext fun c hc => hcalls c (List.mem_cons_of_mem _ hc)
    refine ⟨?_, hafter⟩
    simp only [List.map_cons, record_cons, hturn, hrest]

end Synchronizer.Like

end LipSync
