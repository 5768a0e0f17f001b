/-
# LipSync.Proofs.Reception — an update that fails leaves no trace.

An update fails for one reason only, which is that its readings are incomplete
(`Reception.update_error_iff`), and whatever it did read is forgotten. Any other update refreshes
the reception as a whole: the newest packet, also when its report has been read before, and the
history. So of all the readings that a reception is given, the complete ones alone make it what it
is, and an update that failed might as well not have been tried.
-/
import LipSync.Proofs.Clock.Repetition
import LipSync.Reception
import Mathlib.Data.List.Induction

namespace LipSync

/-! ## Readings -/

namespace Readings

variable {x : Readings} {a : Arrival}

/-- A reading is missing, or the report comes from a sender without a wall clock. -/
def Incomplete (x : Readings) : Prop :=
  x.mediaTime = none ∨ x.arrivalTime = none ∨ x.report = none ∨
    ∃ report, x.report = some report ∧ report.ntp.isZero = true

/-- The sample that the report gives, if there is one. -/
def sample? (x : Readings) : Option Sample := x.report.bind Sample.ofReport?

theorem arrival?_eq_none_iff : x.arrival? = none ↔ x.Incomplete := by
  obtain ⟨mediaTime, arrivalTime, report⟩ := x
  cases mediaTime <;> cases arrivalTime <;> cases report <;>
    simp [arrival?, Incomplete, Sample.ofReport?]

instance (x : Readings) : Decidable x.Incomplete := decidable_of_iff _ arrival?_eq_none_iff

theorem arrival?_eq_some_iff : x.arrival? = some a ↔
    x.mediaTime = some a.mediaTime ∧ x.arrivalTime = some a.arrivalTime ∧
      x.sample? = some a.sample := by
  simp only [arrival?, sample?, Option.bind_eq_bind, Option.bind_eq_some_iff, Option.pure_def,
    Option.some.injEq]
  constructor
  · rintro ⟨_, hmedia, _, harrival, report, hreport, _, hsample, rfl⟩
    exact ⟨hmedia, harrival, report, hreport, hsample⟩
  · rintro ⟨hmedia, harrival, report, hreport, hsample⟩
    exact ⟨_, hmedia, _, harrival, report, hreport, _, hsample, rfl⟩

theorem exists_arrival (h : ¬x.Incomplete) : ∃ a, x.arrival? = some a :=
  Option.ne_none_iff_exists'.mp (mt arrival?_eq_none_iff.mp h)

end Readings

namespace Reception

variable {r : Reception} {x : Readings} {a : Arrival} {run : List Readings}

/-! ## One update -/

theorem updateInPlace_run (r : Reception) (x : Readings) : (updateInPlace x).run.run r =
    match x.arrival? with
    | none => (.error .noMeasurement, r)
    | some a => (.ok (r.receive a), (r.receive a).reception) := by
  unfold updateInPlace
  cases x.arrival? <;> rfl

theorem update_eq (r : Reception) (x : Readings) : r.update x =
    match x.arrival? with
    | none => .error .noMeasurement
    | some a => .ok (r.receive a) := by
  rw [update, updateInPlace_run]
  cases x.arrival? <;> rfl

/-- An update fails when its readings are incomplete, and always with the same error. -/
theorem update_error_iff {e : SyncError} :
    r.update x = .error e ↔ x.Incomplete ∧ e = .noMeasurement := by
  rw [← Readings.arrival?_eq_none_iff, update_eq]
  cases x.arrival? <;> simp [eq_comm]

theorem update_ok_iff {refresh : Refresh} :
    r.update x = .ok refresh ↔ ∃ a, x.arrival? = some a ∧ refresh = r.receive a := by
  rw [update_eq]
  cases x.arrival? <;> simp [eq_comm]

theorem not_incomplete_of_update {refresh : Refresh} (h : r.update x = .ok refresh) :
    ¬x.Incomplete := by
  intro hincomplete
  rw [update_error_iff.mpr ⟨hincomplete, rfl⟩] at h
  cases h

/-- An update that was tried: what was read, and what it returned. -/
structure Attempt where
  readings : Readings
  result : Except SyncError Bool
  deriving DecidableEq

/-- What came of an update. It returns whether there was a new report. -/
def attempt (r : Reception) (x : Readings) : Attempt :=
  ⟨x, (r.update x).map fun refresh => refresh.uptake.isNew⟩

/-- The reception once an update in place has been tried. -/
def next (r : Reception) (x : Readings) : Reception := ((updateInPlace x).run.run r).2

theorem attempt_of_incomplete (h : x.Incomplete) : r.attempt x = ⟨x, .error .noMeasurement⟩ := by
  rw [attempt, update_error_iff.mpr ⟨h, rfl⟩]
  rfl

theorem attempt_of_arrival (h : x.arrival? = some a) :
    r.attempt x = ⟨x, .ok (r.history.update a.sample).1.isNew⟩ := by
  rw [attempt, update_ok_iff.mpr ⟨a, h, rfl⟩]
  rfl

theorem next_of_incomplete (h : x.Incomplete) : r.next x = r := by
  rw [next, updateInPlace_run, Readings.arrival?_eq_none_iff.mpr h]

theorem next_of_arrival (h : x.arrival? = some a) :
    r.next x = ⟨a.mediaTime, a.arrivalTime, r.history.offer a.sample⟩ := by
  rw [next, updateInPlace_run, h]
  rfl

/-! ## Runs of updates -/

/-- What came of some updates that were tried in order. -/
def record (r : Reception) : List Readings → List Attempt
  | [] => []
  | x :: run => r.attempt x :: (r.next x).record run

/-- The reception once some updates have been tried in order. -/
def after (r : Reception) (run : List Readings) : Reception := run.foldl next r

theorem after_append (r : Reception) (run run' : List Readings) :
    r.after (run ++ run') = (r.after run).after run' := List.foldl_append ..

theorem readings_record (r : Reception) (run : List Readings) :
    (r.record run).map (·.readings) = run := by
  induction run generalizing r with
  | nil => rfl
  | cons x run ih => exact congrArg (x :: ·) (ih (r.next x))

/-- Whatever came before, an update fails when its readings are incomplete. -/
theorem error_iff_of_record (r : Reception) (run : List Readings) :
    ∀ t ∈ r.record run, ∀ e, t.result = .error e ↔ t.readings.Incomplete ∧ e = .noMeasurement := by
  induction run generalizing r with
  | nil =>
    intro t ht
    cases ht
  | cons x run ih =>
    intro t ht e
    rcases List.mem_cons.mp ht with rfl | ht
    · by_cases h : x.Incomplete
      · rw [attempt_of_incomplete h]
        simp [h, eq_comm]
      · obtain ⟨a, ha⟩ := Readings.exists_arrival h
        rw [attempt_of_arrival ha]
        simp [h]
    · exact ih (r.next x) t ht e

/-- The readings of the updates that went through. -/
def kept (attempts : List Attempt) : List Readings :=
  (attempts.filter (·.result.isOk)).map (·.readings)

/-- The updates that go through are those with complete readings. -/
theorem kept_record (r : Reception) (run : List Readings) :
    kept (r.record run) = run.filter (¬·.Incomplete) := by
  have hok : ∀ t ∈ r.record run, t.result.isOk = decide (¬t.readings.Incomplete) := by
    intro t ht
    have herror := error_iff_of_record r run t ht
    cases hresult : t.result with
    | ok isNew =>
      have hcomplete : ¬t.readings.Incomplete := by
        intro h
        rw [(herror .noMeasurement).mpr ⟨h, rfl⟩] at hresult
        cases hresult
      exact (decide_eq_true hcomplete).symm
    | error e =>
      have hincomplete := ((herror e).mp hresult).1
      exact (decide_eq_false (not_not_intro hincomplete)).symm
  calc kept (r.record run)
      = ((r.record run).filter (¬·.readings.Incomplete)).map (·.readings) := by
        rw [kept, List.filter_congr hok]
    _ = ((r.record run).map (·.readings)).filter (¬·.Incomplete) := by
        rw [List.filter_map]
        rfl
    _ = run.filter (¬·.Incomplete) := by rw [readings_record]

/-- Updates that fail may be left out. -/
theorem after_filter (r : Reception) (run : List Readings) :
    r.after (run.filter (¬·.Incomplete)) = r.after run := by
  induction run generalizing r with
  | nil => rfl
  | cons x run ih =>
    by_cases h : x.Incomplete
    · rw [List.filter_cons_of_neg (by simpa using h), ih]
      show r.after run = (r.next x).after run
      rw [next_of_incomplete h]
    · rw [List.filter_cons_of_pos (by simpa using h)]
      exact ih (r.next x)

/-- A run of updates that go through leaves the readings of the last one, and the history that all
their samples have been offered to. -/
theorem after_complete (hrun : ∀ x ∈ run, ¬x.Incomplete) :
    (r.after run).mediaTime = (run.getLast?.bind Readings.mediaTime).getD r.mediaTime ∧
      (r.after run).arrivalTime = (run.getLast?.bind Readings.arrivalTime).getD r.arrivalTime ∧
      (r.after run).history = r.history.after ((run.filterMap Readings.sample?).map .offer) := by
  induction run using List.reverseRecOn with
  | nil => exact ⟨rfl, rfl, rfl⟩
  | append_singleton run x ih =>
    obtain ⟨hrun, hlast⟩ := List.forall_mem_append.mp hrun
    obtain ⟨-, -, hhistory⟩ := ih hrun
    obtain ⟨a, ha⟩ := Readings.exists_arrival (hlast x (List.mem_singleton_self x))
    obtain ⟨hmedia, harrival, hsample⟩ := Readings.arrival?_eq_some_iff.mp ha
    rw [after_append, List.getLast?_concat]
    show ((r.after run).next x).mediaTime = _ ∧ ((r.after run).next x).arrivalTime = _ ∧
      ((r.after run).next x).history = _
    rw [next_of_arrival ha]
    refine ⟨?_, ?_, ?_⟩
    · rw [Option.bind_some, hmedia, Option.getD_some]
    · rw [Option.bind_some, harrival, Option.getD_some]
    · rw [List.filterMap_append, List.map_append, History.after_append, ← hhistory,
        List.filterMap_cons_some hsample]
      rfl

/-- What is returned by the updates that go through is what the history answers to their samples. -/
theorem results_record (r : Reception) (run : List Readings) :
    (r.record run).filterMap (·.result.toOption) =
      r.history.news ((run.filter (¬·.Incomplete)).filterMap Readings.sample?) := by
  induction run generalizing r with
  | nil => rfl
  | cons x run ih =>
    rw [record]
    by_cases h : x.Incomplete
    · rw [attempt_of_incomplete h, next_of_incomplete h, List.filter_cons_of_neg (by simpa using h),
        ← ih r]
      rfl
    · obtain ⟨a, ha⟩ := Readings.exists_arrival h
      obtain ⟨-, -, hsample⟩ := Readings.arrival?_eq_some_iff.mp ha
      rw [attempt_of_arrival ha, List.filter_cons_of_pos (by simpa using h),
        List.filterMap_cons_some hsample, History.news]
      show (r.history.update a.sample).1.isNew :: ((r.next x).record run).filterMap _ = _
      rw [ih, next_of_arrival ha]

/-- Whatever a reception is given: an update fails exactly when its readings are incomplete, and
always with the same error. The reception is then as if the failed ones had never been tried: it has
the readings of the last one that went through, or those that it had at the start, which are zero in
an empty one; its history has been offered the samples of those that went through; and these
returned what the history answered. -/
theorem failed_updates_leave_no_trace (r : Reception) (run : List Readings) :
    let attempts := r.record run
    let kept := kept attempts
    let samples := kept.filterMap Readings.sample?
    let next := r.after run
    attempts.map (·.readings) = run ∧
      (∀ t ∈ attempts, ∀ e, t.result = .error e ↔
        t.readings.Incomplete ∧ e = .noMeasurement) ∧
      next = r.after kept ∧
      next.mediaTime = (kept.getLast?.bind Readings.mediaTime).getD r.mediaTime ∧
      next.arrivalTime = (kept.getLast?.bind Readings.arrivalTime).getD r.arrivalTime ∧
      next.history = r.history.after (samples.map .offer) ∧
      attempts.filterMap (·.result.toOption) = r.history.news samples ∧
      ∀ capacity, (empty capacity).mediaTime = ⟨0⟩ ∧ (empty capacity).arrivalTime = 0 := by
  intro attempts kept samples next
  have hkept : kept = run.filter (¬·.Incomplete) := kept_record r run
  have hnext : next = r.after kept := by
    rw [hkept, after_filter]
  have hcomplete : ∀ x ∈ kept, ¬x.Incomplete := by
    intro x hx
    rw [hkept] at hx
    simpa using (List.mem_filter.mp hx).2
  have hresults : attempts.filterMap (·.result.toOption) = r.history.news samples := by
    show _ = r.history.news (kept.filterMap Readings.sample?)
    rw [hkept]
    exact results_record r run
  obtain ⟨hmedia, harrival, hhistory⟩ := after_complete (r := r) hcomplete
  rw [← hnext] at hmedia harrival hhistory
  exact ⟨readings_record r run, error_iff_of_record r run, hnext, hmedia, harrival, hhistory,
    hresults, fun capacity => ⟨rfl, rfl⟩⟩

/-- Incomplete readings of each kind before, between and after two complete ones with the same
report, of which the second brings a newer packet. -/
theorem failed_updates_leave_no_trace_around_repeated_report :
    let packet (second : Nat) (report : Option SenderReport) : Readings :=
      ⟨some ⟨.ofNat (90000 * second)⟩, some (.ofNat (1000 * second)), report⟩
    let report : SenderReport := ⟨⟨1, 0⟩, ⟨90000⟩⟩
    let clockless : Readings := packet 3 (some ⟨.zero, ⟨270000⟩⟩)
    let run := [packet 1 none, packet 2 (some report), clockless, ⟨none, some 9, some report⟩,
      packet 4 (some report), ⟨some ⟨7⟩, none, some report⟩]
    let r := empty 2
    let next := r.after run
    (⟨clockless, .error .noMeasurement⟩ ∈ r.record run ∧ clockless.Incomplete) ∧
      (next.mediaTime = ⟨360000⟩ ∧ next.arrivalTime = 4000) ∧
      next = r.after [packet 2 (some report), packet 4 (some report)] ∧
      (r.record run).filterMap (·.result.toOption) = [true, false] := by
  intro packet report clockless run r next
  obtain ⟨-, herror, hafter, hmedia, harrival, -, hresults, -⟩ :=
    failed_updates_leave_no_trace r run
  have hmem : (⟨clockless, .error .noMeasurement⟩ : Attempt) ∈ r.record run := by decide +kernel
  have hkept : kept (r.record run) = [packet 2 (some report), packet 4 (some report)] := by
    decide +kernel
  rw [hkept] at hafter hmedia harrival hresults
  refine ⟨⟨hmem, ((herror _ hmem _).mp rfl).1⟩, ⟨hmedia, harrival⟩, hafter, ?_⟩
  rw [hresults]
  decide +kernel

end Reception

end LipSync
