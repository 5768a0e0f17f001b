/-
# LipSync.Proofs.Synchronizer.Binding — the binding that is in force.

What a synchronizer is bound to is told by the calls alone: it is what was asked for last
(`lastBinding`), unless the synchronizer is poisoned (`Synchronizer.bound_after`). Cycles and reads
change nothing about it. A synchronizer that is bound to nothing, or poisoned, runs cycles that ask
nothing and tell nothing.
-/
import LipSync.Proofs.Synchronizer.Likeness

namespace LipSync

/-! ## What the calls ask for -/

/-- The binding that was asked for last once the call has been made, if `binding` was before it. -/
def Command.bindingAfter (binding : Binding) : Command → Binding
  | reconfigure asked => asked
  | _ => binding

/-- The binding that some calls asked for last, or nothing if they asked for none. -/
def lastBinding (calls : List Call) : Binding :=
  calls.foldl (fun binding c => c.command.bindingAfter binding) .disabled

/-- The binding is in force, unless there is none because of the poisoning. -/
inductive Condition.Bound (binding : Binding) : Condition → Prop
  | serving {lastCycle : Instant} {session : Option Session}
      (binding_eq : Synchronizer.bindingOf session = binding) :
      Bound binding (.serving lastCycle session)
  | poisoned : Bound binding .poisoned

/-- A cycle leaves its session bound to what it was bound to. -/
theorem Session.Cycles.endpoints_eq {a : Answers} {s next : Session}
    {outcome : Except SyncError Delays} {moved : List Request}
    (h : s.Cycles a outcome next moved) : next.endpoints = s.endpoints := by
  cases h with
  | starved e starved => rfl
  | unmeasured e refreshes unmeasured =>
    cases refreshes
    rfl
  | applied refreshes measured adjustment_eq answered =>
    cases refreshes
    rfl

namespace Synchronizer

/-- The synchronizer is bound to this, or poisoned. -/
def Bound (s : Synchronizer) (binding : Binding) : Prop := s.condition.Bound binding

variable {s : Synchronizer} {binding : Binding}

theorem bindingOf_sessionOf (settings : Settings) (binding : Binding) :
    bindingOf (sessionOf settings binding) = binding := by
  cases binding <;> rfl

theorem Bound.session?_eq_none (h : s.Bound .disabled) : s.session? = none := by
  unfold Bound at h
  unfold session?
  generalize s.condition = condition at h
  cases h with
  | @serving lastCycle session binding_eq =>
    cases session with
    | none => rfl
    | some session => cases binding_eq
  | poisoned => rfl

/-- A session is bound to what is in force. -/
theorem Bound.eq_enabled (h : s.Bound binding) {session : Session}
    (hsession : s.session? = some session) : binding = .enabled session.endpoints := by
  unfold Bound at h
  obtain ⟨lastCycle, hcondition⟩ := condition_of_session hsession
  rw [hcondition] at h
  cases h with
  | serving binding_eq => exact binding_eq.symm

/-! ## Calls without a session -/

/-- Whatever is called, a poisoned synchronizer stays as it is, and asks nothing. -/
theorem call_of_poisoned (h : s.condition = .poisoned) (c : Call) :
    (s.call c).2 = s ∧ requests (s.call c).1.events = [] := by
  obtain ⟨settings, condition⟩ := s
  obtain rfl : condition = .poisoned := h
  obtain ⟨command, a⟩ := c
  cases command <;> exact ⟨rfl, rfl⟩

/-- A cycle without a session asks nothing, tells no delays, and leaves none. -/
theorem cycle_of_no_session (h : s.session? = none) (now : Instant) (a : Answers) :
    (s.call ⟨.cycle now, a⟩).1.reply = .ok (.cycled none) ∧
      requests (s.call ⟨.cycle now, a⟩).1.events = [] ∧
      (s.call ⟨.cycle now, a⟩).2.session? = none := by
  obtain ⟨settings, condition⟩ := s
  cases condition with
  | poisoned => exact ⟨rfl, rfl, rfl⟩
  | serving lastCycle session =>
    obtain rfl : session = none := h
    exact ⟨rfl, rfl, rfl⟩

/-! ## Calls keep the binding -/

theorem Bound.reconfigure (h : s.Bound binding) (asked : Binding) (a : Answers) :
    (s.call ⟨.reconfigure asked, a⟩).2.Bound asked := by
  obtain ⟨settings, condition⟩ := s
  cases h with
  | poisoned =>
    rw [(call_of_poisoned rfl _).1]
    exact .poisoned
  | serving binding_eq =>
    rw [call_reconfigure]
    split
    · next hsame => exact .serving hsame
    · exact .serving (bindingOf_sessionOf settings asked)

theorem Bound.cycle (h : s.Bound binding) (now : Instant) (a : Answers) :
    (s.call ⟨.cycle now, a⟩).2.Bound binding := by
  cases hsession : s.session? with
  | none =>
    obtain ⟨settings, condition⟩ := s
    cases h with
    | poisoned =>
      rw [(call_of_poisoned rfl _).1]
      exact .poisoned
    | @serving lastCycle session binding_eq =>
      obtain rfl : session = none := hsession
      exact .serving binding_eq
  | some session =>
    cases hreply : (s.call ⟨.cycle now, a⟩).1.reply with
    | error cause =>
      -- somebody did not answer, and the poisoning leaves no session to be bound
      rw [call_of_error hreply]
      exact .poisoned
    | ok reply =>
      obtain ⟨outcome, after, hcycles, -, hafter⟩ := cycle_of_reply hsession hreply
      rw [hafter, h.eq_enabled hsession, ← hcycles.endpoints_eq]
      exact .serving rfl

theorem Bound.nextCycle (h : s.Bound binding) (a : Answers) :
    (s.call ⟨.nextCycle, a⟩).2.Bound binding := by
  obtain ⟨settings, condition⟩ := s
  cases h with
  | poisoned =>
    rw [(call_of_poisoned rfl _).1]
    exact .poisoned
  | serving binding_eq =>
    rw [call_nextCycle]
    split
    · exact .serving binding_eq
    · exact .poisoned

/-- What is in force after a call is what it asked for, or else what was in force before. -/
theorem Bound.call (h : s.Bound binding) (c : Call) :
    (s.call c).2.Bound (c.command.bindingAfter binding) := by
  obtain ⟨command, a⟩ := c
  cases command with
  | reconfigure asked => exact h.reconfigure asked a
  | cycle now => exact h.cycle now a
  | nextCycle => exact h.nextCycle a
  | untilNextCycle | isActive | histories | interval => exact h

theorem Bound.after (h : s.Bound binding) (calls : List Call) :
    (s.after calls).Bound (calls.foldl (fun b c => c.command.bindingAfter b) binding) := by
  induction calls generalizing s binding with
  | nil => exact h
  | cons c calls ih => exact ih (h.call c)

theorem bound_unbound (settings : Settings) (made : Instant) :
    (unbound settings made).Bound .disabled := .serving rfl

/-- After any calls, what was asked for last is in force. -/
theorem bound_after (settings : Settings) (made : Instant) (calls : List Call) :
    ((unbound settings made).after calls).Bound (lastBinding calls) :=
  (bound_unbound settings made).after calls

end Synchronizer

end LipSync
