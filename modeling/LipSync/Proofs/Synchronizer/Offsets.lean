/-
# LipSync.Proofs.Synchronizer.Offsets — nothing that is done depends on where media clocks start.

Two synchronizers are driven alike, but everything that the second one reads of a media clock is a
constant number of ticks ahead, one number for audio and one for video, and wraps wherever it comes
to wrap. The two make the same requests and give the same replies
(`Synchronizer.offsets_leave_no_trace`); only their histories run apart, by these numbers.
-/
import LipSync.Proofs.Clock.Offset
import LipSync.Proofs.Synchronizer.Likeness

namespace LipSync

open Dialogue

variable {k : UInt32} {ks : Medium → UInt32}

/-! ## Receptions that run apart -/

/-- The second reception is of a stream whose media clock is `k` ticks ahead. As long as nothing has
been received there is no media time to be ahead with. -/
structure Reception.Offset (k : UInt32) (r r' : Reception) : Prop where
  history_eq : r'.history = r.history.shift k
  arrivalTime_eq : r'.arrivalTime = r.arrivalTime
  mediaTime_eq : r.history.samples ≠ [] → r'.mediaTime = r.mediaTime.shift k

namespace Reception

theorem offset_empty (k : UInt32) (capacity : Nat) :
    Offset k (empty capacity) (empty capacity) where
  history_eq := rfl
  arrivalTime_eq := rfl
  mediaTime_eq := fun h => absurd rfl h

theorem offset_receive {r r' : Reception} (h : Offset k r r') (a : Arrival) :
    Offset k (r.receive a).reception (r'.receive (a.shift k)).reception where
  history_eq := by
    show (r'.history.update (a.sample.shift k)).2 = (r.history.update a.sample).2.shift k
    rw [h.history_eq, History.update_shift]
  arrivalTime_eq := rfl
  mediaTime_eq := fun _ => rfl

/-- Readings that run apart are taken or refused alike, and leave receptions that run apart. -/
theorem offset_update {r r' : Reception} (h : Offset k r r') (x : Readings) :
    Alike (fun u v : Refresh => Offset k u.reception v.reception) (r.update x)
      (r'.update (x.shift k)) := by
  rw [Reception.update_eq, Reception.update_eq, Readings.arrival?_shift]
  cases x.arrival? with
  | none => exact .error _
  | some a => exact .ok (offset_receive h a)

/-- The delay is the same, also while there is none because too little has been received. -/
theorem Offset.delay_eq {r r' : Reception} (h : Offset k r r') : r.delay = r'.delay := by
  obtain ⟨mediaTime', arrivalTime', history'⟩ := r'
  obtain ⟨hhistory, harrivalTime, hmediaTime⟩ := h
  simp only at hhistory harrivalTime hmediaTime
  subst hhistory harrivalTime
  by_cases hnone : r.history.samples = []
  · have hshort : r.history.lastTwo = .error .insufficientData := by
      rw [History.lastTwo, hnone]
    simp only [delay, History.wallClockAt_eq, History.lastTwo_shift, hshort, Except.map]
  · rw [hmediaTime hnone]
    exact (delay_shift k r).symm

end Reception

/-! ## Answers that run apart -/

/-- The same answers, but what they tell of the media clocks, which is `ks` ahead. -/
def Answers.shift (ks : Medium → UInt32) (a : Answers) : Answers
  | .mediaTime m receiver => (a (.mediaTime m receiver)).map (Option.map (MediaTime.shift (ks m)))
  | .report m transport => (a (.report m transport)).map (Option.map (SenderReport.shift (ks m)))
  | r => a r

/-- The same failure, or an answer that a map takes to the other. -/
theorem alike_map {ε α β : Type} (f : α → β) (x : Except ε α) :
    Alike (fun u v => v = f u) x (x.map f) := by
  cases x with
  | error e => exact .error e
  | ok x => exact .ok rfl

theorem Medium.coupled_read_shift (ks : Medium → UInt32) (a : Answers) (m : Medium)
    (transport : Transport) (receiver : Receiver) :
    Coupled a (a.shift ks) (fun x x' => x' = x.shift (ks m)) (m.read transport receiver)
      (m.read transport receiver) := by
  unfold Medium.read
  refine (coupled_request (alike_map _ (a (.mediaTime m receiver)))).bind ?_
  rintro mediaTime _ rfl
  cases mediaTime with
  | none => exact coupled_pure rfl
  | some mediaTime =>
    refine (coupled_request_of_eq (a := a) (b := a.shift ks) rfl).bind ?_
    rintro arrivalTime _ rfl
    cases arrivalTime with
    | none => exact coupled_pure rfl
    | some arrivalTime =>
      refine (coupled_request (alike_map _ (a (.report m transport)))).bind ?_
      rintro report _ rfl
      exact coupled_pure rfl

/-- Media clocks that are `ks` ahead go unnoticed. -/
def offsetLikeness (ks : Medium → UInt32) : Likeness where
  view := Answers.shift ks
  view_eq a r hr := by
    cases r <;> first | rfl | cases hr
  instants := Eq
  instants_refl _ := rfl
  readings m x x' := x' = x.shift (ks m)
  read a m := Medium.coupled_read_shift ks a m
  receptions m := Reception.Offset (ks m)
  update {_ _ _ x _} hr hx := hx ▸ Reception.offset_update hr x
  measure ha hv := by
    unfold Skew.measure
    rw [ha.delay_eq, hv.delay_eq]

/-! ## Synchronizers that run apart -/

/-- The call, with answers whose media clocks are `ks` ahead. -/
def Call.shift (ks : Medium → UInt32) (c : Call) : Call := ⟨c.command, c.answers.shift ks⟩

namespace Synchronizer

theorem like_unbound (ks : Medium → UInt32) (settings : Settings) (made : Instant) :
    (unbound settings made).Like (offsetLikeness ks) (unbound settings made) where
  interval_eq := rfl
  tuning_eq := rfl
  fresh _ := Reception.offset_empty _ _
  condition := .serving rfl .none

theorem Like.histories_eq {s s' : Synchronizer} (h : s.Like (offsetLikeness ks) s') :
    s'.histories =
      s.histories.map fun h => (h.1.shift (ks .audio), h.2.shift (ks .video)) := by
  have hsessions := h.sessions
  unfold histories
  generalize s.session? = session, s'.session? = session' at hsessions
  cases hsessions with
  | none => rfl
  | some hsession =>
    have haudio := hsession.audio.history_eq
    have hvideo := hsession.video.history_eq
    simp only [Option.map_some, haudio, hvideo]

/-- How far ahead a media clock runs is not to be told from what becomes of a sample, from the wall
clock at a moment, or from a skew. So when everything that a synchronizer reads of the two media
clocks is that far ahead, each call makes the same requests and gives the same reply, and the
histories are the same but for being ahead. -/
theorem offsets_leave_no_trace :
    (∀ (k : UInt32) (h : History) (s : Sample),
      (h.shift k).update (s.shift k) = ((h.update s).1, (h.update s).2.shift k)) ∧
    (∀ (k : UInt32) (h : History) (m : MediaTime),
      (h.shift k).wallClockAt (m.shift k) = h.wallClockAt m) ∧
    (∀ (k j : UInt32) (audio video : Reception),
      relativeDelay (audio.shift k) (video.shift j) = relativeDelay audio video) ∧
    ∀ (ks : Medium → UInt32) (settings : Settings) (made : Instant) (calls : List Call),
      let s := unbound settings made
      (s.record (calls.map (Call.shift ks))).map (·.turn.outward) =
          (s.record calls).map (·.turn.outward) ∧
        (s.after (calls.map (Call.shift ks))).histories =
          (s.after calls).histories.map fun h =>
            (h.1.shift (ks .audio), h.2.shift (ks .video)) := by
  refine ⟨History.update_shift, History.wallClockAt_shift, relativeDelay_shift, ?_⟩
  intro ks settings made calls s
  obtain ⟨hrecord, hafter⟩ :=
    (like_unbound ks settings made).record calls fun _ _ => Or.inr fun _ _ h => h
  exact ⟨hrecord.symm, hafter.histories_eq⟩

end Synchronizer

end LipSync
