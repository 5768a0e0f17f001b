/-
# LipSync.Proofs.Clock.Offset — where a media clock starts makes no difference.

A media clock starts at any reading, and wraps. All that is ever taken of two of its readings is
whether they are the same and the way from one to the other, so a stream whose clock runs a constant
number of ticks apart (`shift`) is measured alike, bit for bit: its history takes up the same
samples (`History.update_shift`), shows the same wall clock at every moment
(`History.wallClockAt_shift`), and gives the same skew against another stream
(`relativeDelay_shift`).
-/
import LipSync.Proofs.Clock.Measuring
import LipSync.Skew

namespace LipSync

variable {k : UInt32}

/-! ## Readings and samples -/

/-- The reading of a clock that is `k` ticks ahead. -/
def MediaTime.shift (k : UInt32) (t : MediaTime) : MediaTime := ⟨t.ticks + k⟩

namespace MediaTime

variable {t u : MediaTime}

theorem ticks_sub_shift (k : UInt32) (t u : MediaTime) :
    (t.shift k).ticks - (u.shift k).ticks = t.ticks - u.ticks := by
  show t.ticks + k - (u.ticks + k) = t.ticks - u.ticks
  grind

@[simp] theorem distance_shift : (t.shift k).distance (u.shift k) = t.distance u := by
  rw [distance, distance, ticks_sub_shift]

@[simp] theorem isAhead_shift : (t.shift k).isAhead (u.shift k) = t.isAhead u := by
  rw [isAhead, isAhead, ticks_sub_shift]

theorem shift_inj : t.shift k = u.shift k ↔ t = u := by
  constructor
  · intro h
    have hticks : t.ticks + k = u.ticks + k := congrArg MediaTime.ticks h
    exact congrArg MediaTime.mk ((UInt32.add_left_inj k).mp hticks)
  · exact congrArg (MediaTime.shift k)

@[simp] theorem shift_beq_shift : (t.shift k == u.shift k) = (t == u) := by
  apply Bool.eq_iff_iff.mpr
  rw [beq_iff_eq, beq_iff_eq, shift_inj]

end MediaTime

/-- The sample of a media clock that is `k` ticks ahead. -/
def Sample.shift (k : UInt32) (s : Sample) : Sample := ⟨s.wallClock, s.mediaTime.shift k⟩

namespace Sample

variable {s t : Sample}

@[simp] theorem advances_shift : (s.shift k).advances (t.shift k) = s.advances t := by
  show (decide (t.wallClock < s.wallClock) &&
    (s.mediaTime.shift k).isAhead (t.mediaTime.shift k)) = s.advances t
  rw [MediaTime.isAhead_shift]
  rfl

@[simp] theorem shift_beq_shift : (s.shift k == t.shift k) = (s == t) := by
  show (s.wallClock == t.wallClock && s.mediaTime.shift k == t.mediaTime.shift k) = (s == t)
  rw [MediaTime.shift_beq_shift]
  rfl

end Sample

/-! ## Histories -/

namespace History

variable {h : History} {s : Sample}

/-- The history of a stream whose media clock is `k` ticks ahead: as many samples, at the same wall
clocks. -/
def shift (k : UInt32) (h : History) : History :=
  { h with
    samples := h.samples.map (Sample.shift k)
    lastStale := h.lastStale.map (Sample.shift k) }

@[simp] theorem latest?_shift : (h.shift k).latest? = h.latest?.map (Sample.shift k) :=
  List.head?_map

@[simp] theorem append_shift : (h.shift k).append (s.shift k) = (h.append s).shift k := by
  show History.mk h.capacity ((s.shift k :: h.samples.map (Sample.shift k)).take h.capacity)
    none 0 = ⟨h.capacity, ((s :: h.samples).take h.capacity).map (Sample.shift k), none, 0⟩
  rw [List.map_take, List.map_cons]

@[simp] theorem clear_append_shift :
    (h.shift k).clear.append (s.shift k) = (h.clear.append s).shift k :=
  append_shift (h := h.clear)

theorem lastStale_beq_shift :
    ((h.shift k).lastStale == some (s.shift k)) = (h.lastStale == some s) := by
  show (h.lastStale.map (Sample.shift k) == some (s.shift k)) = _
  cases h.lastStale with
  | none => rfl
  | some stale => simp only [Option.map_some, Option.some_beq_some, Sample.shift_beq_shift]

/-- The same becomes of each sample, and what is kept is kept apart. -/
theorem update_shift (k : UInt32) (h : History) (s : Sample) :
    (h.shift k).update (s.shift k) = ((h.update s).1, (h.update s).2.shift k) := by
  unfold update
  rw [latest?_shift]
  cases h.latest? with
  | none => simp only [Option.map_none, append_shift]
  | some latest =>
    simp only [Option.map_some, Sample.advances_shift, Sample.shift_beq_shift, lastStale_beq_shift]
    split
    · rw [append_shift]
    · split
      · rfl
      · show (if h.staleCount + 1 < maxStale then _ else _) = _
        split
        · rfl
        · rw [clear_append_shift]

theorem lastTwo_shift :
    (h.shift k).lastTwo = h.lastTwo.map fun last => (last.1.shift k, last.2.shift k) := by
  unfold lastTwo shift
  cases h.samples with
  | nil => rfl
  | cons newest rest => cases rest <;> rfl

theorem ticksBetween_shift (k : UInt32) (older newest : Sample) :
    ticksBetween (older.shift k) (newest.shift k) = ticksBetween older newest := by
  rw [ticksBetween, ticksBetween, Sample.shift, Sample.shift, MediaTime.distance_shift]

theorem wallClockOn_shift (k : UInt32) (older newest : Sample) (m : MediaTime) :
    wallClockOn (older.shift k) (newest.shift k) (m.shift k) = wallClockOn older newest m := by
  rw [wallClockOn, wallClockOn, ticksBetween_shift, Sample.shift, Sample.shift,
    MediaTime.distance_shift]

/-- The wall clock shows the same at the same moment. -/
theorem wallClockAt_shift (k : UInt32) (h : History) (m : MediaTime) :
    (h.shift k).wallClockAt (m.shift k) = h.wallClockAt m := by
  rw [wallClockAt_eq, wallClockAt_eq, lastTwo_shift]
  cases h.lastTwo <;> simp only [Except.map, wallClockOn_shift]

end History

/-! ## Receptions -/

/-- The report on a media clock that is `k` ticks ahead. -/
def SenderReport.shift (k : UInt32) (r : SenderReport) : SenderReport :=
  { r with mediaTime := r.mediaTime.shift k }

/-- The readings of a stream whose media clock is `k` ticks ahead. -/
def Readings.shift (k : UInt32) (r : Readings) : Readings :=
  { r with mediaTime := r.mediaTime.map (MediaTime.shift k)
           report := r.report.map (SenderReport.shift k) }

/-- The arrival of a stream whose media clock is `k` ticks ahead. -/
def Arrival.shift (k : UInt32) (a : Arrival) : Arrival :=
  { a with mediaTime := a.mediaTime.shift k, sample := a.sample.shift k }

theorem Sample.ofReport?_shift (k : UInt32) (r : SenderReport) :
    Sample.ofReport? (r.shift k) = (Sample.ofReport? r).map (Sample.shift k) := by
  unfold Sample.ofReport?
  show (if r.ntp.isZero then _ else _) = _
  split <;> rfl

theorem Readings.arrival?_shift (k : UInt32) (r : Readings) :
    (r.shift k).arrival? = r.arrival?.map (Arrival.shift k) := by
  obtain ⟨mediaTime, arrivalTime, report⟩ := r
  cases mediaTime with
  | none => rfl
  | some mediaTime =>
    cases arrivalTime with
    | none => rfl
    | some arrivalTime =>
      cases report with
      | none => rfl
      | some report =>
        show ((Sample.ofReport? (report.shift k)).bind fun sample => some _) =
          ((Sample.ofReport? report).bind fun sample => some _).map _
        rw [Sample.ofReport?_shift]
        cases Sample.ofReport? report <;> rfl

namespace Reception

/-- The reception of a stream whose media clock is `k` ticks ahead. -/
def shift (k : UInt32) (r : Reception) : Reception :=
  { r with mediaTime := r.mediaTime.shift k, history := r.history.shift k }

theorem delay_shift (k : UInt32) (r : Reception) : (r.shift k).delay = r.delay := by
  unfold delay
  show ((r.history.shift k).wallClockAt (r.mediaTime.shift k) >>= _) = _
  rw [History.wallClockAt_shift]
  rfl

end Reception

/-- The skew of two streams is the same, however far apart their media clocks run. -/
theorem relativeDelay_shift (k j : UInt32) (audio video : Reception) :
    relativeDelay (audio.shift k) (video.shift j) = relativeDelay audio video := by
  unfold relativeDelay Skew.measure
  rw [Reception.delay_shift, Reception.delay_shift]

end LipSync
