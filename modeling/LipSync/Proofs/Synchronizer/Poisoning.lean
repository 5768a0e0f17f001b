/-
# LipSync.Proofs.Synchronizer.Poisoning — what poisons a synchronizer, and what it is then.

A call breaks off for one of two reasons only (`Synchronizer.BreaksOff`): during the cycle of a
session a pipeline gave no answer, whichever of them it was, or the next cycle was asked for where
the clock cannot show it. As long as none did, the synchronizer serves, and its last cycle is the
last one among its calls (`Synchronizer.Serves`).

After that nothing can be told of what the synchronizer had been through, nor of what was left
half-done: its answers depend on the interval alone (`Command.refusal`), and it asks nothing.
-/
import LipSync.Proofs.Synchronizer.Binding

namespace LipSync

open Dialogue

/-! ## When the last cycle was -/

/-- The instant of the last cycle once the call has been made, if it was `last` before. -/
def Command.lastCycleAfter (last : Instant) : Command → Instant
  | cycle now => now
  | _ => last

/-- The instant of the last cycle among some calls, or `made` if there is none. -/
def lastCycle (made : Instant) (calls : List Call) : Instant :=
  calls.foldl (fun last c => c.command.lastCycleAfter last) made

/-! ## Refusals -/

/-- What a poisoned synchronizer returns, if its cycles are due this long after each other. -/
def Command.refusal (due : Duration) : Command → Reply
  | reconfigure _ => .reconfigured (.error Synchronizer.poisonedError)
  | cycle _ => .cycled none
  | untilNextCycle _ => .untilNextCycle (.ofNat due.milliseconds)
  | nextCycle => .nextCycle none
  | isActive => .isActive false
  | histories => .histories none
  | interval => .interval due

namespace Synchronizer

variable {s : Synchronizer} {settings : Settings} {last made : Instant} {c : Call}

theorem reply_of_poisoned (h : s.condition = .poisoned) (c : Call) :
    (s.call c).1.reply = .ok (c.command.refusal s.settings.interval) := by
  obtain ⟨settings, condition⟩ := s
  obtain rfl : condition = .poisoned := h
  obtain ⟨command, a⟩ := c
  cases command <;> rfl

theorem after_append (s : Synchronizer) (first rest : List Call) :
    s.after (first ++ rest) = (s.after first).after rest := List.foldl_append ..

theorem after_of_poisoned (h : s.condition = .poisoned) (calls : List Call) :
    s.after calls = s := by
  induction calls with
  | nil => rfl
  | cons c calls ih =>
    show (s.call c).2.after calls = s
    rw [(call_of_poisoned h c).1, ih]

/-- Every later call is refused, and asks nothing. -/
theorem record_of_poisoned (h : s.condition = .poisoned) (calls : List Call) :
    ∀ e ∈ s.record calls, e.turn.reply = .ok (e.call.command.refusal s.settings.interval) ∧
      requests e.turn.events = [] := by
  induction calls with
  | nil =>
    intro e he
    cases he
  | cons c calls ih =>
    obtain ⟨hsame, hasked⟩ := call_of_poisoned h c
    intro e he
    rw [record_cons, hsame] at he
    rcases List.mem_cons.mp he with rfl | he
    · exact ⟨reply_of_poisoned h c, hasked⟩
    · exact ih e he

/-! ## Breaking off -/

/-- What can break a call off. -/
inductive BreaksOff (s : Synchronizer) (c : Call) : Crash → Prop
  /-- A cycle of the session, in which the last thing asked got no answer. -/
  | pipeline {now : Instant} {session : Session} {r : Request} {message : String}
      (command_eq : c.command = .cycle now) (session_eq : s.session? = some session)
      (asked : (requests (s.call c).1.events).getLast? = some r)
      (unanswered : c.answers r = .error message) : BreaksOff s c (.unanswered message)
  /-- The next cycle is asked for, and is due past the range of the clock. -/
  | schedule {last : Instant} {session : Option Session} (command_eq : c.command = .nextCycle)
      (condition_eq : s.condition = .serving last session)
      (past : last.after? s.settings.interval = none) : BreaksOff s c .instantOverflow

theorem breaksOff_of_cycle {now : Instant} {a : Answers} {cause : Crash}
    (h : (s.call ⟨.cycle now, a⟩).1.reply = .error cause) : s.BreaksOff ⟨.cycle now, a⟩ cause := by
  cases hsession : s.session? with
  | none =>
    rw [(cycle_of_no_session hsession now a).1] at h
    cases h
  | some session =>
    have hresult := result_of_error h
    -- a cycle does not break off by itself, so somebody did not answer
    obtain ⟨message, rfl⟩ := (orderly_cycle s now).unanswered hresult
    obtain ⟨r, hasked, hr⟩ := (orderly_cycle s now).unanswered_iff.mp hresult
    rw [← events_call] at hasked
    exact .pipeline rfl hsession hasked hr

theorem breaksOff_of_nextCycle {a : Answers} {cause : Crash}
    (h : (s.call ⟨.nextCycle, a⟩).1.reply = .error cause) : s.BreaksOff ⟨.nextCycle, a⟩ cause := by
  obtain ⟨settings, condition⟩ := s
  cases condition with
  | poisoned => cases h
  | serving last session =>
    rw [call_nextCycle] at h
    split at h
    · cases h
    · next past =>
      cases h
      exact .schedule rfl rfl past

theorem reply_reconfigure (h : s.condition ≠ .poisoned) (binding : Binding) (a : Answers) :
    (s.call ⟨.reconfigure binding, a⟩).1.reply = .ok (.reconfigured (.ok ())) := by
  obtain ⟨settings, condition⟩ := s
  cases condition with
  | poisoned => exact absurd rfl h
  | serving last session =>
    rw [call_reconfigure]
    split <;> rfl

/-- These are what breaks calls off, and all that does. -/
theorem reply_eq_error_iff {cause : Crash} :
    (s.call c).1.reply = .error cause ↔ s.BreaksOff c cause := by
  obtain ⟨command, a⟩ := c
  constructor
  · intro h
    cases command with
    | cycle now => exact breaksOff_of_cycle h
    | nextCycle => exact breaksOff_of_nextCycle h
    | reconfigure binding =>
      have hserving : s.condition ≠ .poisoned := by
        intro hpoisoned
        rw [reply_of_poisoned hpoisoned] at h
        cases h
      rw [reply_reconfigure hserving] at h
      cases h
    | untilNextCycle | isActive | histories | interval => cases h
  · intro h
    cases h with
    | pipeline command_eq session_eq asked unanswered =>
      obtain rfl := command_eq
      rw [events_call] at asked
      exact error_of_result ((orderly_cycle s _).unanswered_iff.mpr ⟨_, asked, unanswered⟩)
    | schedule command_eq condition_eq past =>
      obtain rfl := command_eq
      obtain ⟨settings, condition⟩ := s
      obtain rfl := condition_eq
      have hpast : _ = none := past
      rw [call_nextCycle, hpast]

/-! ## Serving -/

/-- The synchronizer can be relied on, has these settings, and ran its last cycle then. -/
def Serves (s : Synchronizer) (settings : Settings) (last : Instant) : Prop :=
  ∃ session, s = ⟨settings, .serving last session⟩

theorem Serves.not_poisoned (h : s.Serves settings last) : s.condition ≠ .poisoned := by
  obtain ⟨session, rfl⟩ := h
  intro hpoisoned
  cases hpoisoned

/-- A call that returns leaves a synchronizer that serves. -/
theorem Serves.call_of_reply {reply : Reply} (h : s.Serves settings last)
    (hreply : (s.call c).1.reply = .ok reply) :
    (s.call c).2.Serves settings (c.command.lastCycleAfter last) := by
  obtain ⟨session, rfl⟩ := h
  obtain ⟨command, a⟩ := c
  cases command with
  | reconfigure binding =>
    rw [call_reconfigure]
    split
    · exact ⟨session, rfl⟩
    · exact ⟨sessionOf settings binding, rfl⟩
  | cycle now =>
    cases session with
    | none => exact ⟨none, rfl⟩
    | some session =>
      obtain ⟨outcome, after, -, -, hafter⟩ := cycle_of_reply rfl hreply
      exact ⟨some after, hafter⟩
  | nextCycle =>
    rw [call_nextCycle] at hreply ⊢
    split at hreply
    · exact ⟨session, rfl⟩
    · cases hreply
  | untilNextCycle | isActive | histories | interval => exact ⟨session, rfl⟩

/-- A call is what poisons a synchronizer if it breaks off, and otherwise not. -/
theorem Serves.call (h : s.Serves settings last) (c : Call) :
    (s.call c).2.Serves settings (c.command.lastCycleAfter last) ∨
      (s.call c).2 = ⟨settings, .poisoned⟩ ∧ ∃ cause, s.BreaksOff c cause := by
  cases hreply : (s.call c).1.reply with
  | ok reply => exact Or.inl (h.call_of_reply hreply)
  | error cause =>
    refine Or.inr ⟨?_, cause, reply_eq_error_iff.mp hreply⟩
    rw [call_of_error hreply]
    obtain ⟨session, rfl⟩ := h
    rfl

/-- After any calls a synchronizer serves, or it has been poisoned. -/
theorem Serves.after (h : s.Serves settings last) (calls : List Call) :
    (s.after calls).Serves settings (lastCycle last calls) ∨
      s.after calls = ⟨settings, .poisoned⟩ := by
  induction calls generalizing s last with
  | nil => exact Or.inl h
  | cons c calls ih =>
    rcases h.call c with hserves | ⟨hpoisoned, -⟩
    · exact ih hserves
    · refine Or.inr ?_
      show (s.call c).2.after calls = _
      rw [hpoisoned, after_of_poisoned rfl]

/-- It is poisoned exactly when one of the calls broke off while it served. -/
theorem Serves.poisoned_iff (h : s.Serves settings last) (calls : List Call) :
    (s.after calls).condition = .poisoned ↔
      ∃ first c rest cause, calls = first ++ c :: rest ∧
        (s.after first).condition ≠ .poisoned ∧ (s.after first).BreaksOff c cause := by
  constructor
  · intro hpoisoned
    induction calls generalizing s last with
    | nil => exact absurd hpoisoned h.not_poisoned
    | cons c calls ih =>
      rcases h.call c with hserves | ⟨-, cause, hbreaks⟩
      · -- `c` returned, so the call that broke off is among the others
        obtain ⟨first, c', rest, cause, rfl, hbefore, hbreaks⟩ := ih hserves hpoisoned
        exact ⟨c :: first, c', rest, cause, rfl, hbefore, hbreaks⟩
      · exact ⟨[], c, calls, cause, rfl, h.not_poisoned, hbreaks⟩
  · rintro ⟨first, c, rest, cause, rfl, -, hbreaks⟩
    have hpoisoned : ((s.after first).call c).2.condition = .poisoned := by
      rw [call_of_error (reply_eq_error_iff.mpr hbreaks)]
      rfl
    rw [after_append]
    show (((s.after first).call c).2.after rest).condition = .poisoned
    rw [after_of_poisoned hpoisoned, hpoisoned]

theorem serves_unbound (settings : Settings) (made : Instant) :
    (unbound settings made).Serves settings made := ⟨none, rfl⟩

/-- Poisoning has two causes only, and is total and for good. A synchronizer is poisoned exactly
when an earlier call broke off while it still served: a pipeline that a cycle of the session asked
gave no answer, or the next cycle was asked for and would be due, counted from the last one, where
the clock cannot show it. Whatever is called from then on is refused in the same way, whatever
happened before, and asks nothing. And until then no binding is refused. -/
theorem poisoned_for_good (settings : Settings) (made : Instant) :
    let s := unbound settings made
    (∀ calls : List Call, (s.after calls).condition = .poisoned ↔
      ∃ first c rest cause, calls = first ++ c :: rest ∧
        (s.after first).condition ≠ .poisoned ∧ (s.after first).BreaksOff c cause) ∧
    (∀ calls : List Call, (s.after calls).condition ≠ .poisoned →
      (s.after calls).Serves settings (lastCycle made calls) ∧
        ∀ binding a, ((s.after calls).call ⟨.reconfigure binding, a⟩).1.reply =
          .ok (.reconfigured (.ok ()))) ∧
    ∀ first calls : List Call, (s.after first).condition = .poisoned →
      s.after (first ++ calls) = s.poison ∧
        ∀ e ∈ (s.after first).record calls,
          e.turn.reply = .ok (e.call.command.refusal settings.interval) ∧
            requests e.turn.events = [] := by
  intro s
  have hs : s.Serves settings made := serves_unbound settings made
  refine ⟨hs.poisoned_iff, ?_, ?_⟩
  · intro calls hserving
    refine ⟨?_, fun binding a => reply_reconfigure hserving binding a⟩
    rcases hs.after calls with hserves | hpoisoned
    · exact hserves
    · rw [hpoisoned] at hserving
      exact absurd rfl hserving
  · intro first calls hpoisoned
    have heq : s.after first = s.poison := by
      rcases hs.after first with hserves | heq
      · exact absurd hpoisoned hserves.not_poisoned
      · exact heq
    refine ⟨?_, ?_⟩
    · rw [after_append, heq, after_of_poisoned rfl]
    · rw [heq]
      exact record_of_poisoned rfl calls

/-- Audio has been moved when video breaks off, in the second cycle of a session; and, apart from
that, a cycle after one second, from which the interval reaches past the clock. -/
theorem poisoned_for_good_between_setters :
    let answers := Answers.agreeable (.atSecond 1)
    let broken : Answers :=
      Function.update (Answers.agreeable (.atSecond 2)) (.holdVideo 40) (.error "gone")
    let bind : Call := ⟨.reconfigure (.enabled .usual), answers⟩
    let calls : List Call := [bind, ⟨.cycle ⟨1000⟩, answers⟩]
    let breaking : Call := ⟨.cycle ⟨2000⟩, broken⟩
    let later : List Call := [breaking, bind, ⟨.isActive, answers⟩]
    let s := unbound {} ⟨0⟩
    let distant : Settings := { interval := .ofParts 9223372036854775807 0 }
    let t := unbound distant ⟨0⟩
    let second : Call := ⟨.cycle ⟨1000000000⟩, answers⟩
    (s.after calls).Serves {} ⟨1000⟩ ∧
      setters ((s.after calls).call breaking).1.events = [.holdAudio ⟨0⟩ ⟨7⟩ 20, .holdVideo 40] ∧
      s.after (calls ++ [breaking] ++ later) = s.poison ∧
      (∀ e ∈ (s.after (calls ++ [breaking])).record later,
        e.turn.reply = .ok (e.call.command.refusal (.ofParts 1 0)) ∧
          requests e.turn.events = []) ∧
      (t.after [second]).Serves distant ⟨1000000000⟩ ∧
      (t.after [second, ⟨.nextCycle, answers⟩]).condition = .poisoned := by
  intro answers broken bind calls breaking later s distant t second
  obtain ⟨hcauses, hserving, hrefused⟩ := poisoned_for_good {} ⟨0⟩
  have hcalls : (s.after calls).condition ≠ .poisoned := by decide +kernel
  have hbreaks : (s.after calls).BreaksOff breaking (.unanswered "gone") := by
    refine .pipeline (r := .holdVideo 40) rfl rfl ?_ rfl
    decide +kernel
  have hpoisoned : (s.after (calls ++ [breaking])).condition = .poisoned :=
    (hcauses _).mpr ⟨calls, breaking, [], _, rfl, hcalls, hbreaks⟩
  obtain ⟨hsame, hlater⟩ := hrefused (calls ++ [breaking]) later hpoisoned
  obtain ⟨hcauses', hserving', -⟩ := poisoned_for_good distant ⟨0⟩
  have hsecond : (t.after [second]).condition ≠ .poisoned := by decide +kernel
  have hpast : (t.after [second]).BreaksOff ⟨.nextCycle, answers⟩ .instantOverflow :=
    .schedule rfl rfl (by decide +kernel)
  exact ⟨(hserving calls hcalls).1, by decide +kernel, hsame, hlater,
    (hserving' [second] hsecond).1,
    (hcauses' _).mpr ⟨[second], _, [], _, rfl, hsecond, hpast⟩⟩

end Synchronizer

end LipSync
