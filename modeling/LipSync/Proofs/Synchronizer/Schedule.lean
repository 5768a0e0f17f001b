/-
# LipSync.Proofs.Synchronizer.Schedule — when the next cycle is due, told in two ways.

The next cycle is due one interval after the last one, whatever came of that. A synchronizer tells
this as an instant, and as the time left until then (`Synchronizer.Announces`). The second is worked
out from the interval and the time that has passed, and not from the instant, and is rounded and cut
to a word; but whoever waits for so long is never late (`WaitsFor.not_late`), also where the local
clock has gone back to before the last cycle.
-/
import LipSync.Proofs.Synchronizer.Poisoning

namespace LipSync

/-! ## Instants -/

theorem Instant.after?_eq_some_iff {t due : Instant} {d : Duration} : t.after? d = some due ↔
    due.nanoseconds = t.nanoseconds + d.nanoseconds ∧ due.nanoseconds < limit.nanoseconds := by
  obtain ⟨sum⟩ := due
  unfold after?
  dsimp only
  split
  · next hlimit =>
    rw [Option.some.injEq, Instant.mk.injEq]
    constructor
    · rintro rfl
      exact ⟨rfl, hlimit⟩
    · rintro ⟨rfl, -⟩
      rfl
  · next hlimit =>
    refine iff_of_false (by simp) ?_
    rintro ⟨rfl, hsum⟩
    exact hlimit hsum

/-- A span is at least as long as its whole milliseconds, and they are if they are cut to a word. -/
theorem Duration.ofNat_milliseconds_le (d : Duration) :
    1000000 * (UInt64.ofNat d.milliseconds).toNat ≤ d.nanoseconds := by
  have hcut : (UInt64.ofNat d.milliseconds).toNat ≤ d.milliseconds := by
    rw [UInt64.toNat_ofNat']
    exact Nat.mod_le _ _
  exact Nat.le_trans (Nat.mul_le_mul_left _ hcut) (Nat.mul_div_le _ _)

/-! ## The time left -/

/-- What `hint`, in milliseconds, tells at an instant `now` of how long to wait, when the last cycle
was run at `last` and the next one is due at `due`, one `interval` later. -/
structure WaitsFor (interval : Duration) (last due now : Instant) (hint : UInt64) : Prop where
  /-- It is the whole milliseconds until the next cycle, cut to 64 bits. -/
  eq_until : last.nanoseconds ≤ now.nanoseconds → hint = .ofNat (due.since now).milliseconds
  /-- Before the last cycle it is those of the interval. -/
  eq_interval : now.nanoseconds < last.nanoseconds → hint = .ofNat interval.milliseconds
  not_late : now.nanoseconds + 1000000 * hint.toNat ≤ max due.nanoseconds now.nanoseconds
  le_interval : 1000000 * hint.toNat ≤ interval.nanoseconds
  eq_zero : due.nanoseconds ≤ now.nanoseconds → hint = 0

namespace Synchronizer

variable {s : Synchronizer} {settings : Settings} {last due : Instant}

/-- The synchronizer tells when the next cycle is due, and at any instant how long to wait. -/
def Announces (s : Synchronizer) (interval : Duration) (last due : Instant) : Prop :=
  (∀ a, (s.call ⟨.nextCycle, a⟩).1.reply = .ok (.nextCycle (some due))) ∧
  ∀ now a, ∃ hint, (s.call ⟨.untilNextCycle now, a⟩).1.reply = .ok (.untilNextCycle hint) ∧
    WaitsFor interval last due now hint

theorem waitsFor_untilNextCycle (hdue : last.after? settings.interval = some due)
    (session : Option Session) (now : Instant) :
    WaitsFor settings.interval last due now
      (untilNextCycle ⟨settings, .serving last session⟩ now) := by
  obtain ⟨hsum, -⟩ := Instant.after?_eq_some_iff.mp hdue
  show WaitsFor _ _ _ _ (.ofNat (settings.interval - now.since last).milliseconds)
  generalize settings.interval = interval at hsum
  have hleft : (interval - now.since last).nanoseconds =
      interval.nanoseconds - (now.nanoseconds - last.nanoseconds).toNat := rfl
  have hrounded := (interval - now.since last).ofNat_milliseconds_le
  refine ⟨?_, ?_, ?_, ?_, ?_⟩
  · intro hafter
    have hsince : (due.since now).nanoseconds = (due.nanoseconds - now.nanoseconds).toNat := rfl
    have heq : (interval - now.since last).nanoseconds = (due.since now).nanoseconds := by omega
    rw [Duration.milliseconds, heq, Duration.milliseconds]
  · intro hbefore
    have heq : (interval - now.since last).nanoseconds = interval.nanoseconds := by omega
    rw [Duration.milliseconds, heq, Duration.milliseconds]
  · omega
  · omega
  · intro hover
    have heq : (interval - now.since last).nanoseconds = 0 := by omega
    rw [Duration.milliseconds, heq]
    rfl

theorem announces_of_serves (hs : s.Serves settings last)
    (hdue : last.after? settings.interval = some due) :
    s.Announces settings.interval last due := by
  obtain ⟨session, rfl⟩ := hs
  refine ⟨?_, ?_⟩
  · intro a
    rw [call_nextCycle, hdue]
  · intro now a
    exact ⟨_, rfl, waitsFor_untilNextCycle hdue session now⟩

/-! ## After a run -/

/-- Calls that are not cycles leave the last one to be the last. -/
theorem lastCycle_of_not_cycle {calls : List Call}
    (h : ∀ c ∈ calls, ∀ now, c.command ≠ .cycle now) (last : Instant) :
    lastCycle last calls = last := by
  induction calls with
  | nil => rfl
  | cons c calls ih =>
    obtain ⟨hfirst, hrest⟩ := List.forall_mem_cons.mp h
    have hsame : c.command.lastCycleAfter last = last := by
      cases hcommand : c.command with
      | cycle now => exact absurd hcommand (hfirst now)
      | reconfigure | untilNextCycle | nextCycle | isActive | histories | interval => rfl
    show lastCycle (c.command.lastCycleAfter last) calls = last
    rw [hsame, ih hrest]

theorem lastCycle_append_cycle {rest : List Call} (h : ∀ c ∈ rest, ∀ now, c.command ≠ .cycle now)
    (made last : Instant) (first : List Call) (a : Answers) :
    lastCycle made (first ++ ⟨.cycle last, a⟩ :: rest) = last := by
  show List.foldl _ _ _ = _
  rw [List.foldl_append]
  exact lastCycle_of_not_cycle h last

/-- After any calls that leave a synchronizer which can be relied on, with a last cycle among them,
the next cycle is announced in two ways, and they agree: as the instant one interval after that
cycle, whatever came of it, and as the time left until then, never too long, nothing once the next
cycle is overdue, and after a step back of the clock no longer than the interval. A new binding
changes neither. -/
theorem announces_next_cycle (settings : Settings) (made last due : Instant)
    (first rest : List Call) (a : Answers) (hrest : ∀ c ∈ rest, ∀ now, c.command ≠ .cycle now)
    (hserving : ((unbound settings made).after (first ++ ⟨.cycle last, a⟩ :: rest)).condition ≠
      .poisoned)
    (hdue : last.after? settings.interval = some due) :
    let s := (unbound settings made).after (first ++ ⟨.cycle last, a⟩ :: rest)
    due.nanoseconds = last.nanoseconds + settings.interval.nanoseconds ∧
      s.Announces settings.interval last due ∧
      ∀ binding b, (s.call ⟨.reconfigure binding, b⟩).2.Announces settings.interval last due := by
  intro s
  have hs : s.Serves settings last := by
    rcases (serves_unbound settings made).after (first ++ ⟨.cycle last, a⟩ :: rest) with
      hserves | hpoisoned
    · rwa [lastCycle_append_cycle hrest] at hserves
    · rw [hpoisoned] at hserving
      exact absurd rfl hserving
  refine ⟨(Instant.after?_eq_some_iff.mp hdue).1, announces_of_serves hs hdue, ?_⟩
  intro binding b
  have hreply := reply_reconfigure hs.not_poisoned binding b
  exact announces_of_serves (hs.call_of_reply hreply) hdue

/-- The clock has gone back between two cycles, the interval is no whole number of milliseconds, and
the session has ended since the last cycle. -/
theorem announces_next_cycle_after_step_back :
    let settings : Settings := { interval := .ofParts 1 500000 }
    let answers := Answers.agreeable (.atSecond 1)
    let first : List Call :=
      [⟨.reconfigure (.enabled .usual), answers⟩, ⟨.cycle ⟨5000000000⟩, answers⟩]
    let rest : List Call := [⟨.reconfigure .disabled, answers⟩, ⟨.nextCycle, answers⟩]
    let last : Instant := ⟨2000400000⟩
    let due : Instant := ⟨3000900000⟩
    let s := (unbound settings ⟨0⟩).after (first ++ ⟨.cycle last, answers⟩ :: rest)
    ((∀ c ∈ rest, ∀ now, c.command ≠ .cycle now) ∧ s.condition ≠ .poisoned ∧
        last.after? settings.interval = some due) ∧
      s.Announces settings.interval last due ∧
      s.untilNextCycle ⟨2500000000⟩ = 500 ∧ s.untilNextCycle ⟨1000000000⟩ = 1000 ∧
      s.untilNextCycle ⟨3000900000⟩ = 0 := by
  intro settings answers first rest last due s
  have hrest : ∀ c ∈ rest, ∀ now, c.command ≠ .cycle now := by simp [rest]
  have hserving : s.condition ≠ .poisoned := by decide +kernel
  have hdue : last.after? settings.interval = some due := by decide +kernel
  obtain ⟨-, hannounces, -⟩ :=
    announces_next_cycle settings ⟨0⟩ last due first rest answers hrest hserving hdue
  exact ⟨⟨hrest, hserving, hdue⟩, hannounces, by decide +kernel, by decide +kernel,
    by decide +kernel⟩

end Synchronizer

end LipSync
