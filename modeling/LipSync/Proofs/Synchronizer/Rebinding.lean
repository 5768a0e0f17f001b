/-
# LipSync.Proofs.Synchronizer.Rebinding — what binding anew forgets, and what binding again keeps.

Binding to something else starts over. Whatever two synchronizers have been through, once both are
bound anew to the same they differ in nothing but when they ran their last cycle, and go on alike
(`Synchronizer.new_binding_forgets_the_past`).

Binding to what is in force already changes nothing at all. So such calls can be put into a run
wherever they fit, and every other call of it finds the same synchronizer and comes to the same
(`Synchronizer.repeated_binding_is_invisible`).
-/
import LipSync.Proofs.Synchronizer.Poisoning
import LipSync.Proofs.Synchronizer.Skipping

namespace LipSync

open Dialogue

/-! ## Bindings that differ -/

/-- The bindings differ: in whether there is one, in the channel, or in one of the three objects. -/
def Binding.Differs : Binding → Binding → Prop
  | disabled, disabled => False
  | enabled e, enabled e' => e.channel ≠ e'.channel ∨ e.audio ≠ e'.audio ∨
      e.videoTransport ≠ e'.videoTransport ∨ e.videoReceiver ≠ e'.videoReceiver
  | _, _ => True

instance : (b b' : Binding) → Decidable (b.Differs b')
  | .disabled, .disabled => inferInstanceAs (Decidable False)
  | .enabled _, .enabled _ => inferInstanceAs (Decidable (_ ∨ _ ∨ _ ∨ _))
  | .disabled, .enabled _ | .enabled _, .disabled => inferInstanceAs (Decidable True)

theorem Binding.Differs.ne {b b' : Binding} (h : b.Differs b') : b ≠ b' := by
  rintro rfl
  cases b with
  | disabled => exact h
  | enabled e => simp [Differs] at h

namespace Synchronizer

variable {s t : Synchronizer}

/-! ## Synchronizers that differ in the schedule alone -/

/-- Only asking for the next cycle can break off for the schedule. -/
theorem not_overflows {c : Call} (hc : c.command ≠ .nextCycle) : ¬(s.call c).1.Overflows := by
  intro hoverflows
  cases reply_eq_error_iff.mp hoverflows with
  | schedule command_eq condition_eq past => exact hc command_eq

/-- Without asking for the next cycle, they go on alike. -/
theorem SameButSchedule.record (h : s.SameButSchedule t) {calls : List Call}
    (hcalls : ∀ c ∈ calls, c.command ≠ .nextCycle) :
    (s.record calls).map (·.turn.unscheduled) = (t.record calls).map (·.turn.unscheduled) ∧
      (s.after calls).SameButSchedule (t.after calls) := by
  induction calls generalizing s t with
  | nil => exact ⟨rfl, h⟩
  | cons c calls ih =>
    have hc := hcalls c List.mem_cons_self
    obtain ⟨hturn, hnext⟩ := h.call c (not_overflows hc) (not_overflows hc)
    obtain ⟨hrest, hafter⟩ := ih hnext fun c hc => hcalls c (List.mem_cons_of_mem _ hc)
    refine ⟨?_, hafter⟩
    simp only [record_cons, List.map_cons, hturn, hrest]

/-! ## Binding to something else -/

/-- Binding to something else leaves nothing of what was, but the schedule. -/
theorem call_reconfigure_of_ne (hs : s.condition ≠ .poisoned) {binding : Binding}
    (hother : bindingOf s.session? ≠ binding) (a : Answers) :
    (s.call ⟨.reconfigure binding, a⟩).1.reply = .ok (.reconfigured (.ok ())) ∧
      (s.call ⟨.reconfigure binding, a⟩).2.settings = s.settings ∧
      (s.call ⟨.reconfigure binding, a⟩).2.condition.session? =
        some (sessionOf s.settings binding) := by
  obtain ⟨settings, condition⟩ := s
  cases condition with
  | poisoned => exact absurd rfl hs
  | serving lastCycle session =>
    have hother : bindingOf session ≠ binding := hother
    rw [call_reconfigure, if_neg hother]
    exact ⟨rfl, rfl, rfl⟩

theorem SameButSchedule.isActive_eq (h : s.SameButSchedule t) : s.isActive = t.isActive := by
  rw [isActive, isActive, h.session_eq]

theorem SameButSchedule.histories_eq (h : s.SameButSchedule t) : s.histories = t.histories := by
  rw [histories, histories, h.session_eq]

/-- Take two synchronizers with the same settings that can be relied on, whatever each has been
through, and bind both to something that neither is bound to. Then nothing of what was makes a
difference any more: the same calls with the same answers ask the same of the pipelines and return
the same on both, and wherever they stop both are active or neither is, and the histories are the
same. Only what tells the schedule is left out. -/
theorem new_binding_forgets_the_past (s s' : Synchronizer) (hsettings : s.settings = s'.settings)
    (hs : s.condition ≠ .poisoned) (hs' : s'.condition ≠ .poisoned) (binding : Binding)
    (hother : (bindingOf s.session?).Differs binding)
    (hother' : (bindingOf s'.session?).Differs binding) (a a' : Answers) (calls : List Call)
    (hcalls : ∀ c ∈ calls, c.command ≠ .nextCycle) :
    let turn := (s.call ⟨.reconfigure binding, a⟩).1
    let turn' := (s'.call ⟨.reconfigure binding, a'⟩).1
    let t := (s.call ⟨.reconfigure binding, a⟩).2
    let t' := (s'.call ⟨.reconfigure binding, a'⟩).2
    turn.reply = .ok (.reconfigured (.ok ())) ∧ turn'.reply = turn.reply ∧
      (t.record calls).map (·.turn.unscheduled) = (t'.record calls).map (·.turn.unscheduled) ∧
      (t.after calls).isActive = (t'.after calls).isActive ∧
      (t.after calls).histories = (t'.after calls).histories := by
  intro turn turn' t t'
  obtain ⟨hreply, hkept, hfresh⟩ := call_reconfigure_of_ne hs hother.ne a
  obtain ⟨hreply', hkept', hfresh'⟩ := call_reconfigure_of_ne hs' hother'.ne a'
  -- both have the session that the binding makes, whatever they had before
  have hsame : t.SameButSchedule t' := by
    constructor
    · exact hkept.trans (hsettings.trans hkept'.symm)
    · rw [hfresh, hfresh', hsettings]
  obtain ⟨hrecord, hafter⟩ := hsame.record hcalls
  exact ⟨hreply, hreply'.trans hreply.symm, hrecord, hafter.isActive_eq, hafter.histories_eq⟩

/-- One synchronizer is bound to another channel and has held audio back for a late video; the other
one has done so for the very channel that is to be bound, and was disabled since. -/
theorem new_binding_forgets_the_past_of_late_video :
    let late (second : Nat) : Medium → Readings
      | .audio => .atSecond second
      | .video =>
        { Readings.atSecond second with arrivalTime := some (.ofNat (1000 * second + 200)) }
    let cycle (second : Nat) : Call :=
      ⟨.cycle ⟨1000 * second⟩, .usual ⟨20, 40⟩ (late second) (.ok ())⟩
    let answers := Answers.agreeable (.atSecond 1)
    let other : Binding := .enabled { Endpoints.usual with channel := ⟨9⟩ }
    let s := (unbound {} ⟨0⟩).after [⟨.reconfigure other, answers⟩, cycle 1, cycle 2]
    let s' := (unbound {} ⟨7⟩).after [⟨.reconfigure (.enabled .usual), answers⟩, cycle 1, cycle 2,
      ⟨.reconfigure .disabled, answers⟩]
    s.session?.map (·.compensator.extraAudio) = some 80 ∧ s'.isActive = false ∧
      s.settings = s'.settings ∧ s.condition ≠ .poisoned ∧ s'.condition ≠ .poisoned ∧
      (bindingOf s.session?).Differs (.enabled .usual) ∧
      (bindingOf s'.session?).Differs (.enabled .usual) ∧
      let t := (s.call ⟨.reconfigure (.enabled .usual), answers⟩).2
      let t' := (s'.call ⟨.reconfigure (.enabled .usual), answers⟩).2
      (t.record [cycle 3, cycle 4]).map (·.turn.unscheduled) =
        (t'.record [cycle 3, cycle 4]).map (·.turn.unscheduled) ∧
      (t.after [cycle 3, cycle 4]).histories = (t'.after [cycle 3, cycle 4]).histories := by
  intro late cycle answers other s s'
  obtain ⟨-, -, hrecord, -, hhistories⟩ := new_binding_forgets_the_past s s' (by decide +kernel)
    (by decide +kernel) (by decide +kernel) (.enabled .usual) (by decide +kernel)
    (by decide +kernel) answers answers [cycle 3, cycle 4] (by decide)
  refine ⟨?_, ?_, ?_, ?_, ?_, ?_, ?_, hrecord, hhistories⟩
  all_goals decide +kernel

/-! ## Binding to the same -/

/-- Nothing comes of the call: it binds, asks nothing and notes nothing, and it is accepted unless
the synchronizer is poisoned. -/
structure Silent (e : Entry) : Prop where
  binds : ∃ binding, e.call.command = .reconfigure binding
  events_eq : e.turn.events = []
  accepted : e.before.condition ≠ .poisoned → e.turn.reply = .ok (.reconfigured (.ok ()))

/-- Binding to what is in force changes nothing. -/
theorem Bound.repeated {binding : Binding} (h : s.Bound binding) (a : Answers) :
    (s.call ⟨.reconfigure binding, a⟩).2 = s ∧
      Silent ⟨s, ⟨.reconfigure binding, a⟩, (s.call ⟨.reconfigure binding, a⟩).1⟩ := by
  obtain ⟨settings, condition⟩ := s
  cases h with
  | poisoned => exact ⟨rfl, ⟨binding, rfl⟩, rfl, fun hs => absurd rfl hs⟩
  | serving binding_eq =>
    rw [call_reconfigure, if_pos binding_eq]
    exact ⟨rfl, ⟨binding, rfl⟩, rfl, fun _ => rfl⟩

end Synchronizer

/-- The second run is the first one with some calls put in between that bind to what was asked for
last. At first that is `binding`. -/
inductive Repeats : Binding → List Call → List Call → Prop
  | nil {binding : Binding} : Repeats binding [] []
  | keep {binding : Binding} {calls calls' : List Call} (c : Call)
      (rest : Repeats (c.command.bindingAfter binding) calls calls') :
      Repeats binding (c :: calls) (c :: calls')
  | again {binding : Binding} {calls calls' : List Call} (a : Answers)
      (rest : Repeats binding calls calls') :
      Repeats binding calls (⟨.reconfigure binding, a⟩ :: calls')

/-- The second list is the first one with some members put in between that have the property. -/
inductive Interspersed {α : Type} (p : α → Prop) : List α → List α → Prop
  | nil : Interspersed p [] []
  | keep {xs ys : List α} (x : α) (rest : Interspersed p xs ys) :
      Interspersed p (x :: xs) (x :: ys)
  | extra {xs ys : List α} {y : α} (has : p y) (rest : Interspersed p xs ys) :
      Interspersed p xs (y :: ys)

namespace Synchronizer

variable {s : Synchronizer} {binding : Binding}

/-- The calls put in between are silent, and all others find the same synchronizer. -/
theorem Bound.record_repeats (h : s.Bound binding) {calls calls' : List Call}
    (hrepeats : Repeats binding calls calls') :
    Interspersed Silent (s.record calls) (s.record calls') ∧ s.after calls' = s.after calls := by
  induction hrepeats generalizing s with
  | nil => exact ⟨.nil, rfl⟩
  | keep c rest ih =>
    obtain ⟨hrecord, hafter⟩ := ih (h.call c)
    exact ⟨.keep _ hrecord, hafter⟩
  | @again binding calls calls' a rest ih =>
    -- what is in force when the call is made is what was asked for last, as the call asks again
    obtain ⟨hsame, hsilent⟩ := h.repeated a
    obtain ⟨hrecord, hafter⟩ := ih h
    refine ⟨.extra hsilent ?_, ?_⟩
    · rw [hsame]
      exact hrecord
    · show (s.call ⟨.reconfigure binding, a⟩).2.after calls' = s.after calls
      rw [hsame]
      exact hafter

/-- There is a session exactly when something is bound. -/
theorem Bound.isSome_session_iff (h : s.Bound binding) (hs : s.condition ≠ .poisoned) :
    s.session?.isSome = true ↔ ∃ e, binding = .enabled e := by
  obtain ⟨settings, condition⟩ := s
  cases h with
  | poisoned => exact absurd rfl hs
  | @serving lastCycle session binding_eq =>
    subst binding_eq
    show session.isSome = true ↔ _
    cases session <;> simp [bindingOf]

/-- Binding again to what was asked for last is invisible. However many such calls are put into a
run, and wherever, each of them is silent, and every other call finds the same synchronizer, returns
the same and asks the same; what is left in the end is the same as well. And as long as nothing is
poisoned, there is a session to be seen, and there are histories, exactly when something was asked
for last. -/
theorem repeated_binding_is_invisible (settings : Settings) (made : Instant) :
    let s := unbound settings made
    (∀ calls calls' : List Call, Repeats .disabled calls calls' →
      Interspersed Silent (s.record calls) (s.record calls') ∧ s.after calls' = s.after calls) ∧
    (∀ calls : List Call, (s.after calls).condition ≠ .poisoned →
      ((s.after calls).isActive = true ↔ ∃ e, lastBinding calls = .enabled e) ∧
      ((s.after calls).histories.isSome = true ↔ ∃ e, lastBinding calls = .enabled e)) := by
  intro s
  constructor
  · intro calls calls' hrepeats
    exact (bound_unbound settings made).record_repeats hrepeats
  · intro calls hs
    have hsession := (bound_after settings made calls).isSome_session_iff hs
    refine ⟨hsession, ?_⟩
    rw [histories, Option.isSome_map]
    exact hsession

/-- Every call of a run is followed by binding again to what is in force then, at first to nothing
and twice once there is something. -/
theorem repeated_binding_is_invisible_after_each_call :
    let answers := Answers.agreeable (.atSecond 1)
    let bind : Call := ⟨.reconfigure (.enabled .usual), answers⟩
    let first : Call := ⟨.cycle ⟨1000⟩, answers⟩
    let second : Call := ⟨.cycle ⟨2000⟩, .agreeable (.atSecond 2)⟩
    let calls : List Call := [bind, first, second]
    let calls' : List Call := [⟨.reconfigure .disabled, answers⟩, bind, bind, bind, first, bind,
      second, bind]
    let s := unbound {} ⟨0⟩
    Repeats .disabled calls calls' ∧ Interspersed Silent (s.record calls) (s.record calls') ∧
      s.after calls' = s.after calls ∧ (s.after calls).condition ≠ .poisoned ∧
      (s.after calls).isActive = true ∧ (s.after calls).histories.isSome = true := by
  intro answers bind first second calls calls' s
  obtain ⟨hinvisible, hactive⟩ := repeated_binding_is_invisible {} ⟨0⟩
  have hrepeats : Repeats .disabled calls calls' :=
    .again _ (.keep bind (.again _ (.again _ (.keep first (.again _ (.keep second
      (.again _ .nil)))))))
  have hs : (s.after calls).condition ≠ .poisoned := by decide +kernel
  obtain ⟨hrecord, hafter⟩ := hinvisible calls calls' hrepeats
  obtain ⟨hsession, hhistories⟩ := hactive calls hs
  have hlast : ∃ e, lastBinding calls = .enabled e := ⟨.usual, rfl⟩
  exact ⟨hrepeats, hrecord, hafter, hs, hsession.mpr hlast, hhistories.mpr hlast⟩

end Synchronizer

end LipSync
