/-
# LipSync.Proofs.Synchronizer.Carried — the pipelines carry what the compensator remembers.

A pipeline has some delay of its own, and is held back further only if it was asked for more: its
delay is the greater of the two. The compensator keeps count of the delay that it added, and never
checks the count against the pipelines. The two agree all the same (`Carries`): each pipeline has
the delay that it had when the session started and what the session has added since. A refusal by
audio keeps that, since what the compensator then takes back is just what audio did not do.
-/
import LipSync.Proofs.Playout.Step
import LipSync.Proofs.Synchronizer.Runs

namespace LipSync

/-! ## What a step aims at -/

namespace Compensator

/-- Some delays, and what the compensator has added to them. -/
def addedTo (c : Compensator) (base : Delays) : Delays :=
  ⟨base.audio + c.extraAudio, base.video + c.extraVideo⟩

/-- The targets of a step are what it will have added, if it starts from what has been added. -/
theorem targets_eq_addedTo (c : Compensator) (skew : Int) (base : Delays) :
    (c.adjust skew (c.addedTo base)).targets =
      (c.adjust skew (c.addedTo base)).next.addedTo base := by
  have step := c.adjust_step skew (c.addedTo base)
  generalize c.adjust skew (c.addedTo base) = a at step
  cases step with
  | rest verdict settled => rfl
  | raiseAudio added unsettled ahead added_eq => simp only [addedTo, Nat.add_assoc]
  | releaseAudio released unsettled behind held released_eq =>
    have hheld : released ≤ c.extraAudio := released_eq ▸ Nat.min_le_right _ _
    simp only [addedTo, Nat.add_sub_assoc hheld]
  | raiseVideo added unsettled behind spent added_eq => simp only [addedTo, Nat.add_assoc]

/-- The step remembered is what audio is moved by, also where it is moved back. -/
theorem target_eq_add_lastAudioStep (c : Compensator) (skew : Int) (base : Delays) :
    ((c.adjust skew (c.addedTo base)).targets.audio : Int) =
      (c.addedTo base).audio + (c.adjust skew (c.addedTo base)).next.lastAudioStep := by
  have step := c.adjust_step skew (c.addedTo base)
  generalize c.adjust skew (c.addedTo base) = a at step
  cases step with
  | rest verdict settled => simp only [hold, Int.add_zero]
  | raiseAudio added unsettled ahead added_eq => simp only [Int.natCast_add]
  | releaseAudio released unsettled behind held released_eq =>
    simp only [addedTo]
    omega
  | raiseVideo added unsettled behind spent added_eq => simp only [Int.add_zero]

end Compensator

/-! ## Pipelines that can be held back -/

/-- The delays that the two pipelines have of their own, and the ones that they were last asked
for and took on. -/
structure Pipelines where
  ownAudio : Nat
  ownVideo : Nat
  minAudio : Nat
  minVideo : Nat
  deriving DecidableEq

/-- The delays that the pipelines have. -/
def Pipelines.delays (p : Pipelines) : Delays :=
  ⟨max p.ownAudio p.minAudio, max p.ownVideo p.minVideo⟩

/-- The pipelines after a request, which audio takes on only if it says so. -/
def Pipelines.heed (a : Answers) (p : Pipelines) : Request → Pipelines
  | .holdAudio engine channel delay =>
    match a (.holdAudio engine channel delay) with
    | .ok (.ok ()) => { p with minAudio := delay }
    | _ => p
  | .holdVideo delay => { p with minVideo := delay }
  | _ => p

/-- The answers tell the delays that the pipelines have, where they tell any. -/
def Answers.Tell (a : Answers) (e : Endpoints) (p : Pipelines) : Prop :=
  (∀ delay, a .videoDelay = .ok delay → delay = p.delays.video) ∧
  ∀ estimate, a (.delayEstimate e.audio e.channel) = .ok (some estimate) →
    estimate.total = p.delays.audio

theorem Answers.tell_usual {delays : Delays} {p : Pipelines} (e : Endpoints) (h : p.delays = delays)
    (hfits : delays.audio ≤ maxTellableDelay) (readings : Medium → Readings)
    (audioAnswer : Except SyncError Unit) :
    (Answers.usual delays readings audioAnswer).Tell e p := by
  subst h
  constructor
  · rintro _ ⟨⟩
    rfl
  · rintro _ ⟨⟩
    exact Nat.min_eq_left hfits

/-! ## What one cycle keeps -/

/-- The pipelines have the delays `base` and what the session has added to them. -/
structure Carries (e : Endpoints) (base : Delays) (p : Pipelines) (s : Session) : Prop where
  endpoints_eq : s.endpoints = e
  delays_eq : p.delays = s.compensator.addedTo base
  ownAudio_le : p.ownAudio ≤ base.audio
  ownVideo_le : p.ownVideo ≤ base.video

namespace Carries

variable {e : Endpoints} {base : Delays} {p : Pipelines} {s next : Session} {a : Answers}

/-- A session that starts has added nothing yet. -/
theorem start (e : Endpoints) (capacity : Nat) (t : Tuning) (p : Pipelines) :
    Carries e p.delays p (.start e capacity t) where
  endpoints_eq := rfl
  delays_eq := rfl
  ownAudio_le := Nat.le_max_left _ _
  ownVideo_le := Nat.le_max_left _ _

/-- Refreshing the streams has no part in it. -/
theorem refreshes {current : Delays} (h : Carries e base p s)
    (hrefreshes : s.Refreshes a current next) : Carries e base p next := by
  cases hrefreshes
  exact ⟨h.endpoints_eq, h.delays_eq, h.ownAudio_le, h.ownVideo_le⟩

/-- The delays that a cycle starts from are those that the pipelines have. -/
theorem current_eq {current : Delays} (h : Carries e base p s) (htell : a.Tell e p)
    (hrefreshes : s.Refreshes a current next) : current = s.compensator.addedTo base := by
  obtain ⟨hvideo, haudio⟩ := htell
  cases hrefreshes with
  | intro videoDelay_eq estimate_eq handles_eq video_reads video_update audio_reads audio_update =>
    rw [← h.delays_eq, hvideo _ videoDelay_eq, haudio _ (h.endpoints_eq ▸ estimate_eq)]

/-- Both pipelines are asked for the targets of a step, and the compensator settles by what audio
answers. -/
theorem settle (h : Carries e base p s) (skew : Int) {adjustment : Adjustment}
    (hadjustment : adjustment = s.compensator.adjust skew (s.compensator.addedTo base))
    {engine : AudioEngine} {channel : Channel} {answer : Except SyncError Unit}
    (hanswer : a (.holdAudio engine channel adjustment.targets.audio) = .ok answer) :
    Carries e base
      ([.holdAudio engine channel adjustment.targets.audio,
        .holdVideo adjustment.targets.video].foldl (Pipelines.heed a) p)
      { s with compensator := adjustment.settle answer } := by
  obtain ⟨hendpoints, hdelays, hownAudio, hownVideo⟩ := h
  have htargets : adjustment.targets = adjustment.next.addedTo base := by
    rw [hadjustment, Compensator.targets_eq_addedTo]
  have haudio : base.audio ≤ adjustment.targets.audio := by
    rw [htargets]
    exact Nat.le_add_right _ _
  have hvideo : base.video ≤ adjustment.targets.video := by
    rw [htargets]
    exact Nat.le_add_right _ _
  simp only [List.foldl_cons, List.foldl_nil, Pipelines.heed, hanswer]
  cases answer with
  | ok _ =>
    refine ⟨hendpoints, ?_, hownAudio, hownVideo⟩
    show Delays.mk (max p.ownAudio adjustment.targets.audio)
      (max p.ownVideo adjustment.targets.video) = adjustment.next.addedTo base
    rw [← htargets, Nat.max_eq_right (Nat.le_trans hownAudio haudio),
      Nat.max_eq_right (Nat.le_trans hownVideo hvideo)]
  | error error =>
    refine ⟨hendpoints, ?_, hownAudio, hownVideo⟩
    -- audio stays where it is, and the compensator goes back to it
    have hrevert : adjustment.next.revert.extraAudio = s.compensator.extraAudio := by
      rw [hadjustment, Compensator.extraAudio_revert_adjust]
    have hcurrent : p.delays.audio = base.audio + s.compensator.extraAudio := by
      rw [hdelays]
      rfl
    show Delays.mk p.delays.audio (max p.ownVideo adjustment.targets.video) =
      ⟨base.audio + adjustment.next.revert.extraAudio, base.video + adjustment.next.extraVideo⟩
    rw [hrevert, hcurrent, Nat.max_eq_right (Nat.le_trans hownVideo hvideo), htargets]
    rfl

/-- Whatever a cycle comes to, the pipelines carry what is remembered after it. -/
theorem cycles {outcome : Except SyncError Delays} {moved : List Request} (h : Carries e base p s)
    (htell : a.Tell e p) (hcycles : s.Cycles a outcome next moved) :
    Carries e base (moved.foldl (Pipelines.heed a) p) next := by
  cases hcycles with
  | starved error starved => exact h
  | unmeasured error refreshes unmeasured => exact h.refreshes refreshes
  | @applied current refreshed skew answer adjustment refreshes measured adjustment_eq answered =>
    have hcurrent := h.current_eq htell refreshes
    have hcompensator : s.compensator = refreshed.compensator := by
      cases refreshes
      rfl
    rw [hcurrent, hcompensator] at adjustment_eq
    exact (h.refreshes refreshes).settle skew adjustment_eq answered

end Carries

/-! ## A session and its pipelines, cycle after cycle -/

/-- A synchronizer and the pipelines that it moves. -/
structure Loop where
  synchronizer : Synchronizer
  pipelines : Pipelines

namespace Loop

/-- Runs a cycle. -/
def cycle (l : Loop) (now : Instant) (a : Answers) : Loop :=
  ⟨(l.synchronizer.call ⟨.cycle now, a⟩).2,
    (setters (l.synchronizer.call ⟨.cycle now, a⟩).1.events).foldl (Pipelines.heed a) l.pipelines⟩

/-- The loops that come of `first` by cycles in which every request gets an answer, and the answers
tell the delays that the pipelines have. -/
inductive Reaches (e : Endpoints) (first : Loop) : Loop → Prop
  | first : Reaches e first first
  | cycle {l : Loop} {now : Instant} {a : Answers} (reaches : Reaches e first l)
      (answered : l.synchronizer.Answered ⟨.cycle now, a⟩) (tell : a.Tell e l.pipelines) :
      Reaches e first (l.cycle now a)

/-- The synchronizer is bound, and the pipelines carry what its session remembers. -/
def Carrying (e : Endpoints) (base : Delays) (l : Loop) : Prop :=
  ∃ session, l.synchronizer.session? = some session ∧ Carries e base l.pipelines session

theorem Carrying.cycle {e : Endpoints} {base : Delays} {l : Loop} (h : l.Carrying e base)
    {now : Instant} {a : Answers} (answered : l.synchronizer.Answered ⟨.cycle now, a⟩)
    (tell : a.Tell e l.pipelines) : (l.cycle now a).Carrying e base := by
  obtain ⟨session, hsession, hcarries⟩ := h
  obtain ⟨outcome, after, hcycles, -, hafter⟩ := Synchronizer.cycle_of_answered hsession answered
  refine ⟨after, ?_, hcarries.cycles tell hcycles⟩
  show (l.synchronizer.call ⟨.cycle now, a⟩).2.session? = some after
  rw [hafter]
  rfl

theorem Carrying.reaches {e : Endpoints} {base : Delays} {first l : Loop}
    (h : first.Carrying e base) (hreaches : Reaches e first l) : l.Carrying e base := by
  induction hreaches with
  | first => exact h
  | cycle reaches answered tell ih => exact ih.cycle answered tell

/-- Before every cycle of a session that binding has started, each pipeline has the delay that it
had then and what the compensator remembers of it. So no step takes audio below what it had then,
and none gives back more than audio has: its target is exactly the remembered step away. -/
theorem delays_are_base_plus_extra {s : Synchronizer} {lastCycle : Instant}
    {previous : Option Session} {e : Endpoints}
    (hserving : s.condition = .serving lastCycle previous)
    (hother : Synchronizer.bindingOf previous ≠ .enabled e) (a : Answers) (p : Pipelines) {l : Loop}
    (hreaches : Reaches e ⟨(s.call ⟨.reconfigure (.enabled e), a⟩).2, p⟩ l) :
    ∃ session, l.synchronizer.session? = some session ∧
      l.pipelines.delays.audio = p.delays.audio + session.compensator.extraAudio ∧
      l.pipelines.delays.video = p.delays.video + session.compensator.extraVideo ∧
      ∀ skew : Int,
        let adjustment := session.compensator.adjust skew l.pipelines.delays
        p.delays.audio ≤ adjustment.targets.audio ∧
          (adjustment.targets.audio : Int) =
            l.pipelines.delays.audio + adjustment.next.lastAudioStep := by
  have hfirst : Carrying e p.delays ⟨(s.call ⟨.reconfigure (.enabled e), a⟩).2, p⟩ := by
    obtain ⟨settings, condition⟩ := s
    cases hserving
    rw [Synchronizer.call_reconfigure, if_neg hother]
    exact ⟨_, rfl, .start e settings.historyCapacity settings.tuning p⟩
  obtain ⟨session, hsession, -, hdelays, -, -⟩ := hfirst.reaches hreaches
  refine ⟨session, hsession, by rw [hdelays]; rfl, by rw [hdelays]; rfl, fun skew => ?_⟩
  simp only [hdelays]
  refine ⟨?_, session.compensator.target_eq_add_lastAudioStep skew p.delays⟩
  rw [Compensator.targets_eq_addedTo]
  exact Nat.le_add_right _ _

/-- Video is 200 ms late. Audio is held back by a whole step, then a cycle is skipped, and then
audio refuses to be held back further. -/
theorem delays_are_base_plus_extra_after_refusal :
    let late (second : Nat) : Medium → Readings
      | .audio => .atSecond second
      | .video =>
        { Readings.atSecond second with arrivalTime := some (.ofNat (1000 * second + 200)) }
    let bound := ((Synchronizer.unbound {} ⟨0⟩).call
      ⟨.reconfigure (.enabled .usual), .agreeable (.atSecond 1)⟩).2
    let l := Loop.mk bound ⟨20, 40, 0, 0⟩
      |>.cycle ⟨0⟩ (.usual ⟨20, 40⟩ (late 1) (.ok ()))
      |>.cycle ⟨1000⟩ (.usual ⟨20, 40⟩ (late 2) (.ok ()))
      |>.cycle ⟨2000⟩ (.usual ⟨100, 40⟩ (fun _ => ⟨none, none, none⟩) (.ok ()))
      |>.cycle ⟨3000⟩ (.usual ⟨100, 40⟩ (late 3) (.error (.applyFailed "busy")))
    ∃ session, l.synchronizer.session? = some session ∧ session.compensator.extraAudio = 80 ∧
      l.pipelines.delays.audio = 20 + session.compensator.extraAudio := by
  intro late bound l
  have hreaches : Reaches .usual ⟨bound, ⟨20, 40, 0, 0⟩⟩ l := by
    refine .cycle (.cycle (.cycle (.cycle .first ?_ ?_) ?_ ?_) ?_ ?_) ?_ ?_
    · decide +kernel
    · exact Answers.tell_usual _ (by decide +kernel) (by decide) _ _
    · decide +kernel
    · exact Answers.tell_usual _ (by decide +kernel) (by decide) _ _
    · decide +kernel
    · exact Answers.tell_usual _ (by decide +kernel) (by decide) _ _
    · decide +kernel
    · exact Answers.tell_usual _ (by decide +kernel) (by decide) _ _
  obtain ⟨session, hsession, haudio, -, -⟩ :=
    delays_are_base_plus_extra rfl (by decide) (.agreeable (.atSecond 1)) ⟨20, 40, 0, 0⟩ hreaches
  have hextra : l.synchronizer.session?.map (·.compensator.extraAudio) = some 80 := by
    decide +kernel
  rw [hsession] at hextra
  exact ⟨session, hsession, Option.some.inj hextra, haudio⟩

end Loop

end LipSync
