/-
# LipSync.Proofs.Synchronizer.Skipping — a skipped cycle leaves no trace but in the schedule.

A cycle that finds something missing is skipped. It refreshes neither stream and leaves the
compensator alone, so all that remains of it is the instant at which it was run. Two synchronizers
that differ in nothing but that instant go on alike (`Synchronizer.SameButSchedule`), as long as
nobody asks for the next cycle where the clock cannot show when it is due: that breaks the one off
and not the other. So skipped cycles can be taken out of a run, and what is left of it comes to the
same.
-/
import LipSync.Proofs.Synchronizer.Runs

namespace LipSync

open Dialogue

/-! ## What a single cycle leaves -/

namespace Session.Cycles

variable {a : Answers} {s next : Session} {outcome : Except SyncError Delays}
  {moved : List Request}

/-- A cycle that finds something missing changes nothing. -/
theorem eq_of_starved (h : s.Cycles a outcome next moved) (hs : s.Starved a) :
    outcome.toOption = none ∧ next = s ∧ moved = [] := by
  cases h with
  | starved e starved => exact ⟨rfl, rfl, rfl⟩
  | unmeasured e refreshes unmeasured => exact absurd hs refreshes.not_starved
  | applied refreshes measured adjustment_eq answered => exact absurd hs refreshes.not_starved

/-- Any other one refreshes both streams, whatever follows. -/
theorem refreshes_of_not_starved (h : s.Cycles a outcome next moved) (hs : ¬s.Starved a) :
    ∃ current refreshed, s.Refreshes a current refreshed ∧
      next = { refreshed with compensator := next.compensator } := by
  cases h with
  | starved e starved => exact absurd starved hs
  | unmeasured e refreshes unmeasured => exact ⟨_, _, refreshes, rfl⟩
  | applied refreshes measured adjustment_eq answered => exact ⟨_, _, refreshes, rfl⟩

/-- The compensator changes only in a cycle that tells delays. -/
theorem compensator_eq_of_none (h : s.Cycles a outcome next moved)
    (hnone : outcome.toOption = none) : next.compensator = s.compensator := by
  cases h with
  | starved e starved => rfl
  | unmeasured e refreshes unmeasured =>
    cases refreshes
    rfl
  | applied refreshes measured adjustment_eq answered => cases hnone

end Session.Cycles

/-! ## Differing in the schedule alone -/

/-- The session of a condition that can be relied on. -/
def Condition.session? : Condition → Option (Option Session)
  | serving _ session => some session
  | poisoned => none

namespace Synchronizer

/-- The synchronizers differ at most in when they ran their last cycle. -/
def SameButSchedule (s t : Synchronizer) : Prop :=
  s.settings = t.settings ∧ s.condition.session? = t.condition.session?

theorem SameButSchedule.refl (s : Synchronizer) : s.SameButSchedule s := ⟨rfl, rfl⟩

theorem SameButSchedule.trans {s t u : Synchronizer} (h : s.SameButSchedule t)
    (h' : t.SameButSchedule u) : s.SameButSchedule u :=
  ⟨h.1.trans h'.1, h.2.trans h'.2⟩

/-- Both are poisoned, and then they are the same, or both serve the same session. -/
theorem SameButSchedule.cases {s t : Synchronizer} (h : s.SameButSchedule t) :
    (s = t ∧ s.condition = .poisoned) ∨
    ∃ settings session lastCycle lastCycle',
      s = ⟨settings, .serving lastCycle session⟩ ∧ t = ⟨settings, .serving lastCycle' session⟩ := by
  obtain ⟨settings, condition⟩ := s
  obtain ⟨settings', condition'⟩ := t
  obtain ⟨hsettings, hsession⟩ := h
  simp only at hsettings
  subst hsettings
  cases condition <;> cases condition' <;> simp_all [Condition.session?]

theorem SameButSchedule.session_eq {s t : Synchronizer} (h : s.SameButSchedule t) :
    s.session? = t.session? := by
  obtain ⟨rfl, -⟩ | ⟨settings, session, lastCycle, lastCycle', rfl, rfl⟩ := h.cases
  · rfl
  · rfl

end Synchronizer

/-- A reply, unless it tells the schedule. -/
def Reply.unscheduled : Reply → Option Reply
  | untilNextCycle _ | nextCycle _ => none
  | reply => some reply

/-- What came of a call, but for what it tells of the schedule. -/
def Turn.unscheduled (t : Turn) : Except Crash (Option Reply) × List Event :=
  (t.reply.map Reply.unscheduled, t.events)

/-- The call broke off because the clock cannot show when the next cycle is due. -/
def Turn.Overflows (t : Turn) : Prop := t.reply = .error .instantOverflow

instance (t : Turn) : Decidable t.Overflows := inferInstanceAs (Decidable (_ = _))

namespace Synchronizer

/-- A call comes to the same on both, unless it breaks one off for the schedule. -/
theorem SameButSchedule.call {s t : Synchronizer} (h : s.SameButSchedule t) (c : Call)
    (hs : ¬(s.call c).1.Overflows) (ht : ¬(t.call c).1.Overflows) :
    (s.call c).1.unscheduled = (t.call c).1.unscheduled ∧
      (s.call c).2.SameButSchedule (t.call c).2 := by
  obtain ⟨rfl, -⟩ | ⟨settings, session, lastCycle, lastCycle', rfl, rfl⟩ := h.cases
  · exact ⟨rfl, .refl _⟩
  obtain ⟨command, a⟩ := c
  cases command with
  | reconfigure binding =>
    rw [call_reconfigure, call_reconfigure]
    split
    · exact ⟨rfl, rfl, rfl⟩
    · exact ⟨rfl, rfl, rfl⟩
  | cycle now =>
    -- a cycle never looks at when the last one was
    have hperform : perform ⟨settings, .serving lastCycle session⟩ (.cycle now) =
        perform ⟨settings, .serving lastCycle' session⟩ (.cycle now) := by
      cases session <;> rfl
    have hcall : Synchronizer.call ⟨settings, .serving lastCycle session⟩ ⟨.cycle now, a⟩ =
        Synchronizer.call ⟨settings, .serving lastCycle' session⟩ ⟨.cycle now, a⟩ := by
      unfold Synchronizer.call turn
      rw [hperform]
      rfl
    rw [hcall]
    exact ⟨rfl, .refl _⟩
  | nextCycle =>
    rw [call_nextCycle] at hs ht ⊢
    rw [call_nextCycle]
    cases hdue : lastCycle.after? settings.interval with
    | none =>
      rw [hdue] at hs
      exact absurd rfl hs
    | some due =>
      cases hdue' : lastCycle'.after? settings.interval with
      | none =>
        rw [hdue'] at ht
        exact absurd rfl ht
      | some due' => exact ⟨rfl, rfl, rfl⟩
  | untilNextCycle now => exact ⟨rfl, rfl, rfl⟩
  | isActive => exact ⟨rfl, rfl, rfl⟩
  | histories => exact ⟨rfl, rfl, rfl⟩
  | interval => exact ⟨rfl, rfl, rfl⟩

end Synchronizer

/-! ## Taking skipped cycles out of a run -/

/-- The call is a cycle of a session that finds something missing, and nobody breaks it off. -/
def Entry.skipped (e : Entry) : Bool :=
  match e.call.command, e.before.session?, e.turn.reply with
  | .cycle _, some session, .ok _ => session.Starved e.call.answers
  | _, _, _ => false

theorem Entry.skipped_iff {e : Entry} :
    e.skipped = true ↔ ∃ now session reply, e.call.command = .cycle now ∧
      e.before.session? = some session ∧ session.Starved e.call.answers ∧
      e.turn.reply = .ok reply := by
  unfold Entry.skipped
  split
  · next hcommand hsession hreply => simp [hcommand, hsession, hreply]
  · next hother =>
    refine iff_of_false Bool.false_ne_true ?_
    rintro ⟨now, session, reply, hcommand, hsession, -, hreply⟩
    exact hother now session reply hcommand hsession hreply

/-- What an entry shows of the session before the call and of what came of it, but for what the call
tells of the schedule. -/
def Entry.shown (e : Entry) : Option Session × Except Crash (Option Reply) × List Event :=
  (e.before.session?, e.turn.unscheduled)

namespace Synchronizer

/-- A skipped cycle changes nothing but the schedule. -/
theorem sameButSchedule_of_skipped {s : Synchronizer} {c : Call}
    (h : Entry.skipped ⟨s, c, (s.call c).1⟩ = true) : (s.call c).2.SameButSchedule s := by
  obtain ⟨command, a⟩ := c
  obtain ⟨now, session, reply, hcommand, hsession, hstarved, hreply⟩ := Entry.skipped_iff.mp h
  simp only at hcommand hsession hstarved hreply
  subst hcommand
  obtain ⟨outcome, after, hcycles, -, hafter⟩ := cycle_of_reply hsession hreply
  obtain ⟨-, rfl, -⟩ := hcycles.eq_of_starved hstarved
  obtain ⟨lastCycle, hcondition⟩ := condition_of_session hsession
  rw [hafter]
  exact ⟨rfl, by rw [hcondition]; rfl⟩

/-- No entry of the record breaks off for the schedule. -/
def NeverOverflows (entries : List Entry) : Prop := ∀ e ∈ entries, ¬e.turn.Overflows

instance (entries : List Entry) : Decidable (NeverOverflows entries) :=
  inferInstanceAs (Decidable (∀ e ∈ entries, _))

/-- The entries of a record but for the skipped cycles. -/
def kept (entries : List Entry) : List Entry := entries.filter fun e => !e.skipped

/-- The kept calls come to the same without the skipped ones in between. -/
theorem record_kept {s t : Synchronizer} (h : s.SameButSchedule t) (calls : List Call)
    (hs : NeverOverflows (s.record calls))
    (ht : NeverOverflows (t.record ((kept (s.record calls)).map Entry.call))) :
    (t.record ((kept (s.record calls)).map Entry.call)).map Entry.shown =
      (kept (s.record calls)).map Entry.shown := by
  induction calls generalizing s t with
  | nil => rfl
  | cons c calls ih =>
    have hlater : NeverOverflows ((s.call c).2.record calls) :=
      fun e he => hs e (List.mem_cons_of_mem _ he)
    cases hskipped : Entry.skipped ⟨s, c, (s.call c).1⟩ with
    | true =>
      have hkept : kept (s.record (c :: calls)) = kept ((s.call c).2.record calls) :=
        List.filter_cons_of_neg (by simp [hskipped])
      rw [hkept] at ht ⊢
      exact ih ((sameButSchedule_of_skipped hskipped).trans h) hlater ht
    | false =>
      have hkept : kept (s.record (c :: calls)) =
          ⟨s, c, (s.call c).1⟩ :: kept ((s.call c).2.record calls) :=
        List.filter_cons_of_pos (by simp [hskipped])
      rw [hkept] at ht ⊢
      simp only [List.map_cons, record_cons] at ht ⊢
      obtain ⟨hturn, hagree⟩ := h.call c (hs _ List.mem_cons_self) (ht _ List.mem_cons_self)
      rw [ih hagree hlater fun e he => ht e (List.mem_cons_of_mem _ he)]
      simp only [Entry.shown, h.session_eq, hturn]

/-- A cycle refreshes both streams or neither, and neither when anything is missing; the compensator
changes only where the cycle tells delays. So skipped cycles can be taken out of a run: unless the
schedule breaks one of the two runs off, the other calls find the same session and come to the same,
but for what they tell of the schedule. -/
theorem skipped_cycles_leave_no_trace :
    (∀ (s : Synchronizer) (session : Session) (now : Instant) (a : Answers),
      s.session? = some session → s.Answered ⟨.cycle now, a⟩ →
        ∃ targets, (s.call ⟨.cycle now, a⟩).1.reply = .ok (.cycled targets) ∧
          let next := (s.call ⟨.cycle now, a⟩).2.session?
          (session.Starved a → targets = none ∧ next = some session) ∧
          (¬session.Starved a → ∃ current refreshed compensator,
            session.Refreshes a current refreshed ∧
              next = some { refreshed with compensator }) ∧
          (targets = none → next.map Session.compensator = some session.compensator)) ∧
    (∀ (s : Synchronizer) (calls : List Call),
      let kept := kept (s.record calls)
      NeverOverflows (s.record calls) → NeverOverflows (s.record (kept.map Entry.call)) →
        (s.record (kept.map Entry.call)).map Entry.shown = kept.map Entry.shown) := by
  constructor
  · intro s session now a hsession hanswered
    obtain ⟨outcome, after, hcycles, hreply, hafter⟩ := cycle_of_answered hsession hanswered
    have hnext : (s.call ⟨.cycle now, a⟩).2.session? = some after := by
      rw [hafter]
      rfl
    rw [hnext]
    refine ⟨outcome.toOption, hreply, fun hstarved => ?_, fun hfed => ?_, fun hnone => ?_⟩
    · obtain ⟨hnone, rfl, -⟩ := hcycles.eq_of_starved hstarved
      exact ⟨hnone, rfl⟩
    · obtain ⟨current, refreshed, hrefreshes, hafter⟩ := hcycles.refreshes_of_not_starved hfed
      exact ⟨current, refreshed, after.compensator, hrefreshes, by rw [← hafter]⟩
    · rw [Option.map_some, hcycles.compensator_eq_of_none hnone]
  · intro s calls kept hs ht
    exact record_kept (.refl s) calls hs ht

/-- A cycle without readings between the first two reports, taken out. -/
theorem skipped_cycles_leave_no_trace_between_reports :
    let binding := Command.reconfigure (.enabled .usual)
    let bound := ((unbound {} ⟨0⟩).call ⟨binding, .agreeable (.atSecond 1)⟩).2
    let session := Session.start .usual History.defaultCapacity {}
    let silent := Answers.agreeable ⟨none, none, none⟩
    let calls : List Call := [⟨.cycle ⟨0⟩, .agreeable (.atSecond 1)⟩, ⟨.cycle ⟨1000⟩, silent⟩,
      ⟨.nextCycle, silent⟩, ⟨.cycle ⟨2000⟩, .agreeable (.atSecond 2)⟩]
    let kept := kept (bound.record calls)
    session.Starved silent ∧ (bound.call ⟨.cycle ⟨0⟩, silent⟩).2.session? = some session ∧
      kept.length = 3 ∧
      (bound.record (kept.map Entry.call)).map Entry.shown = kept.map Entry.shown := by
  obtain ⟨single, deletion⟩ := skipped_cycles_leave_no_trace
  have hstarved : (Session.start .usual History.defaultCapacity {}).Starved
      (.agreeable ⟨none, none, none⟩) := by decide +kernel
  refine ⟨hstarved, ?_, by decide +kernel, ?_⟩
  · obtain ⟨targets, -, hskipped, -, -⟩ :=
      single ((unbound {} ⟨0⟩).call ⟨.reconfigure (.enabled .usual), .agreeable (.atSecond 1)⟩).2
        (.start .usual History.defaultCapacity {}) ⟨0⟩ (.agreeable ⟨none, none, none⟩)
        (by decide +kernel) (by decide +kernel)
    exact (hskipped hstarved).2
  · exact deletion _ _ (by decide +kernel) (by decide +kernel)

/-- Where the clock cannot show when the next cycle after the skipped one is due, asking for it
breaks off and poisons. The last cycle then comes to nothing; without the skipped one it tells
delays. -/
theorem skipped_cycle_reaches_past_clock :
    let made := unbound { interval := .ofParts 9223372031854775807 0 } ⟨0⟩
    let entries := made.record [⟨.reconfigure (.enabled .usual), .agreeable (.atSecond 1)⟩,
      ⟨.cycle ⟨0⟩, .agreeable (.atSecond 1)⟩,
      ⟨.cycle ⟨9000000000000000000⟩, .agreeable ⟨none, none, none⟩⟩,
      ⟨.nextCycle, .agreeable (.atSecond 2)⟩, ⟨.cycle ⟨1000000000⟩, .agreeable (.atSecond 2)⟩]
    let others := made.record ((kept entries).map Entry.call)
    (kept entries).map (·.call.command) = [.reconfigure (.enabled .usual), .cycle ⟨0⟩, .nextCycle,
        .cycle ⟨1000000000⟩] ∧
      (kept entries).getLast?.map (·.turn.reply) = some (.ok (.cycled none)) ∧
      others.getLast?.map (·.turn.reply) = some (.ok (.cycled (some ⟨20, 40⟩))) := by
  decide +kernel

end Synchronizer

end LipSync
