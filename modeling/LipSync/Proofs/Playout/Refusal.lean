/-
# LipSync.Proofs.Playout.Refusal — an audio step that was refused leaves nothing behind.

Audio may refuse the delay that a step asks for, and video follows all the same. The compensator
then takes the audio part of the step back by the one number that it remembers of it. That is enough
whatever the step was: a raise that the cap cut short, a release, one of more delay than audio had,
or no audio step at all. A step that would have moved audio has moved nothing else, so once it is
taken back the compensator is where it was; any other step has nothing to take back.

So in the loop of compensator and pipelines a refused step is either no step at all or the step
itself, and the refused steps that would have moved audio can be left out of a run.
-/
import LipSync.Proofs.Playout.Settling

namespace LipSync

namespace Compensator

variable {c : Compensator} {skew : Int} {current : Delays}

/-- A step that changes what was added to audio leaves video alone, and taking it back leads to where
the compensator was. -/
theorem revert_of_moved (h : (c.adjust skew current).next.extraAudio ≠ c.extraAudio) :
    (c.adjust skew current).next.revert = { c with lastAudioStep := 0 } ∧
      (c.adjust skew current).targets.video = current.video := by
  rw [c.revert_adjust skew current]
  have step := c.adjust_step skew current
  generalize c.adjust skew current = a at step h
  cases step with
  | rest verdict settled => exact absurd rfl h
  | raiseAudio added unsettled ahead added_eq => exact ⟨rfl, rfl⟩
  | releaseAudio released unsettled behind held released_eq => exact ⟨rfl, rfl⟩
  | raiseVideo added unsettled behind spent added_eq => exact absurd rfl h

/-- Any other step leaves audio alone, and there is nothing to take back. -/
theorem revert_of_unmoved (h : (c.adjust skew current).next.extraAudio = c.extraAudio) :
    (c.adjust skew current).next.revert = (c.adjust skew current).next ∧
      (c.adjust skew current).targets.audio = current.audio := by
  have step := c.adjust_step skew current
  generalize c.adjust skew current = a at step h
  cases step with
  | rest verdict settled => exact ⟨rfl, rfl⟩
  | raiseAudio added unsettled ahead added_eq =>
    obtain rfl : added = 0 := by
      simp only at h
      omega
    exact ⟨rfl, rfl⟩
  | releaseAudio released unsettled behind held released_eq =>
    obtain rfl : released = 0 := by
      simp only at h
      omega
    exact ⟨rfl, rfl⟩
  | raiseVideo added unsettled behind spent added_eq => exact ⟨rfl, rfl⟩

/-- Taking a step back forgets it, so there is nothing to take back a second time. -/
theorem revert_revert (c : Compensator) : c.revert.revert = c.revert := by
  show Compensator.mk c.tuning ((c.revert.extraAudio : Int) - 0).toNat c.extraVideo 0 = c.revert
  rw [Int.sub_zero, Int.toNat_natCast]
  rfl

end Compensator

/-! ## A loop in which audio may refuse -/

/-- A step that is asked of the pipelines: the skew it is for, and whether audio refuses. -/
structure Attempt where
  skew : Int
  refused : Bool
  deriving DecidableEq

namespace Playback

/-- One step. Both pipelines follow it, unless audio refuses: then audio keeps its delay, and the
compensator takes the audio step back. -/
def attempt (p : Playback) (t : Attempt) : Playback :=
  let adjustment := p.adjust t.skew p.delays
  if t.refused then
    ⟨adjustment.next.revert, { p.delays with video := adjustment.targets.video }⟩
  else ⟨adjustment.next, adjustment.targets⟩

/-- The playback after some attempts in order. -/
def attempts (p : Playback) (ts : List Attempt) : Playback := ts.foldl attempt p

/-- A step for `skew` changes what was added to audio. -/
def MovesAudio (p : Playback) (skew : Int) : Prop :=
  (p.adjust skew p.delays).next.extraAudio ≠ p.extraAudio

instance (p : Playback) (skew : Int) : Decidable (p.MovesAudio skew) :=
  inferInstanceAs (Decidable (_ ≠ _))

/-- The attempts but for those that would have moved audio and were refused. -/
def lasting (p : Playback) : List Attempt → List Attempt
  | [] => []
  | t :: ts =>
    if t.refused ∧ p.MovesAudio t.skew then (p.attempt t).lasting ts
    else t :: (p.attempt t).lasting ts

/-- The playbacks differ at most in how the last step went. -/
def SameButLast (p q : Playback) : Prop :=
  { p with lastAudioStep := 0 } = { q with lastAudioStep := 0 }

variable {p q : Playback} {skew : Int}

theorem SameButLast.sameDelays (h : p.SameButLast q) : p.SameDelays q :=
  ⟨congrArg (·.delays) h, congrArg (·.extraAudio) h, congrArg (·.extraVideo) h⟩

/-- How the last step went makes no difference to the next one. -/
theorem SameButLast.attempt_eq (h : p.SameButLast q) (t : Attempt) :
    p.attempt t = q.attempt t := by
  show { p with lastAudioStep := 0 }.attempt t = { q with lastAudioStep := 0 }.attempt t
  rw [h]

/-- Refused, a step that would have moved audio is no step at all. -/
theorem attempt_of_movesAudio (h : p.MovesAudio skew) :
    (p.attempt ⟨skew, true⟩).SameButLast p := by
  obtain ⟨hrevert, hvideo⟩ := Compensator.revert_of_moved h
  show Playback.mk { (p.adjust skew p.delays).next.revert with lastAudioStep := 0 }
    ⟨p.delays.audio, (p.adjust skew p.delays).targets.video⟩ = _
  rw [hrevert, hvideo]

/-- Any other step is the same whether or not audio refuses it. -/
theorem attempt_of_not_movesAudio (h : ¬p.MovesAudio skew) :
    p.attempt ⟨skew, true⟩ = p.attempt ⟨skew, false⟩ := by
  obtain ⟨hrevert, haudio⟩ := Compensator.revert_of_unmoved (not_not.mp h)
  show Playback.mk (p.adjust skew p.delays).next.revert
      ⟨p.delays.audio, (p.adjust skew p.delays).targets.video⟩ =
    ⟨(p.adjust skew p.delays).next, (p.adjust skew p.delays).targets⟩
  rw [hrevert, ← haudio]

/-- Without the refused steps that would have moved audio, a loop comes to the same. -/
theorem SameButLast.attempts_lasting (h : p.SameButLast q) (ts : List Attempt) :
    (q.attempts (p.lasting ts)).SameButLast (p.attempts ts) := by
  induction ts generalizing p q with
  | nil => exact h.symm
  | cons t ts ih =>
    obtain ⟨skew, refused⟩ := t
    unfold lasting
    split
    · next hdropped =>
      obtain ⟨hrefused, hmoves⟩ := hdropped
      obtain rfl : refused = true := hrefused
      exact ih ((attempt_of_movesAudio hmoves).trans h)
    · show ((q.attempt ⟨skew, refused⟩).attempts _).SameButLast _
      rw [← h.attempt_eq]
      exact ih rfl

/-- Taking back a refused audio step leads exactly to what was added to audio before, leaves alone
what was added to video, and cannot be done twice; if the step had moved audio, it is then taken
again in the same way. So in a loop a refused step is no step at all if it would have moved audio,
and otherwise what it is when audio agrees; and leaving out the former makes no difference to the
delays, nor to what is remembered as added. -/
theorem refusal_leaves_no_drift :
    (∀ (c : Compensator) (skew : Int) (current : Delays),
      let a := c.adjust skew current
      (a.next.extraAudio : Int) - a.next.lastAudioStep = c.extraAudio ∧
        a.next.revert.extraAudio = c.extraAudio ∧
        a.next.revert.extraVideo = a.next.extraVideo ∧
        a.next.revert.revert = a.next.revert ∧
        (a.next.extraAudio ≠ c.extraAudio → a.next.revert.adjust skew current = a)) ∧
    (∀ (p : Playback) (skew : Int),
      (p.MovesAudio skew → (p.attempt ⟨skew, true⟩).SameDelays p) ∧
        (¬p.MovesAudio skew → p.attempt ⟨skew, true⟩ = p.attempt ⟨skew, false⟩)) ∧
    ∀ (p : Playback) (ts : List Attempt),
      (p.attempts (p.lasting ts)).SameDelays (p.attempts ts) := by
  refine ⟨?_, ?_, ?_⟩
  · intro c skew current a
    refine ⟨c.extraAudio_sub_lastAudioStep skew current, c.extraAudio_revert_adjust skew current,
      rfl, a.next.revert_revert, ?_⟩
    intro hmoved
    rw [(Compensator.revert_of_moved hmoved).1, Compensator.adjust_forget]
  · intro p skew
    refine ⟨?_, attempt_of_not_movesAudio⟩
    intro hmoves
    exact (attempt_of_movesAudio hmoves).sameDelays
  · intro p ts
    have hself : p.SameButLast p := rfl
    exact (hself.attempts_lasting ts).sameDelays

/-- A refused raise, a refused release, and a refused step of video alone; and a release of more delay
than audio has, taken back and taken again. -/
theorem refusal_leaves_no_drift_in_mixed_run :
    let p : Playback := ⟨.initial ⟨30, 5, 400⟩, ⟨0, 40⟩⟩
    let ts : List Attempt := [⟨100, false⟩, ⟨100, true⟩, ⟨-50, true⟩, ⟨-50, false⟩, ⟨-50, true⟩,
      ⟨-50, false⟩]
    let last : Compensator := ⟨⟨30, 5, 400⟩, 40, 0, 0⟩
    p.lasting ts = [⟨100, false⟩, ⟨-50, false⟩, ⟨-50, true⟩, ⟨-50, false⟩] ∧
      (p.attempts ts).delays = ⟨0, 90⟩ ∧
      (p.attempts [⟨100, false⟩, ⟨-50, false⟩, ⟨-50, true⟩, ⟨-50, false⟩]).SameDelays
        (p.attempts ts) ∧
      (last.adjust (-50) ⟨10, 40⟩).next.extraAudio ≠ last.extraAudio ∧
      (last.adjust (-50) ⟨10, 40⟩).next.revert.adjust (-50) ⟨10, 40⟩ =
        last.adjust (-50) ⟨10, 40⟩ := by
  intro p ts last
  obtain ⟨hstep, -, hrun⟩ := refusal_leaves_no_drift
  have hlasting : p.lasting ts = [⟨100, false⟩, ⟨-50, false⟩, ⟨-50, true⟩, ⟨-50, false⟩] := by
    decide
  have hmoved : (last.adjust (-50) ⟨10, 40⟩).next.extraAudio ≠ last.extraAudio := by decide
  obtain ⟨-, -, -, -, hagain⟩ := hstep last (-50) ⟨10, 40⟩
  exact ⟨hlasting, by decide, hlasting ▸ hrun p ts, hmoved, hagain hmoved⟩

end Playback

end LipSync
