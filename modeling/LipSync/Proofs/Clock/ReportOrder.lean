/-
# LipSync.Proofs.Clock.ReportOrder — reports are kept in order, although their times are rounded.

In milliseconds a time is what its word stands for, rounded once (`NtpTime.toMillis_eq`): the seconds
and the fraction are both exact until they are added. So times in order are in order in milliseconds
as well, and the most that rounding can do is to make two of them equal. A sample that advances
another one on the wall clock therefore comes from a report with a later time.

A sample does not tell the time of its report. What is kept here beside a history is the reports that
were accepted since it was last empty or restarted (`Fed`); the samples are those of the newest of
them.
-/
import LipSync.Proofs.Binary64.Magnitude
import LipSync.Proofs.Clock.Growth
import LipSync.Proofs.Clock.NtpTime

namespace LipSync

namespace NtpTime

/-- Two halves of a word that are scaled apart are the scaled word. -/
theorem shiftLeft_halves (high low scale p : Nat) :
    (high * scale) <<< (p + 32) + (low * scale) <<< p = (high * 4294967296 + low) * scale <<< p := by
  rw [Nat.shiftLeft_eq, Nat.shiftLeft_eq, Nat.shiftLeft_eq, Nat.pow_add, Nat.add_mul]
  show high * scale * (2 ^ p * 4294967296) + low * scale * 2 ^ p = _
  ac_rfl

/-- A time in milliseconds is rounded once. Its word counts units of 2⁻³² s. -/
theorem toMillis_eq (t : NtpTime) :
    t.toMillis = .ofQuotient false (t.toUInt64.toNat * 1000 <<< 1042) 1 := by
  have hseconds := t.seconds.toNat_lt
  have hfraction := t.fraction.toNat_lt
  have hwhole : Binary64.ofInt t.seconds.toNat * .ofInt (1000 : Nat) =
      .ofInt (t.seconds.toNat * 1000 : Nat) :=
    Binary64.ofInt_natCast_mul (by omega) (by omega) (by omega)
  have hscaled : Binary64.ofInt t.fraction.toNat * .ofInt (1000 : Nat) =
      .ofInt (t.fraction.toNat * 1000 : Nat) :=
    Binary64.ofInt_natCast_mul (by omega) (by omega) (by omega)
  have hsum : (t.seconds.toNat * 1000) <<< 1074 + (t.fraction.toNat * 1000) <<< 1042 =
      t.toUInt64.toNat * 1000 <<< 1042 := by
    rw [toNat_toUInt64]
    exact shiftLeft_halves _ _ _ _
  show Binary64.ofInt t.seconds.toNat * .ofInt (1000 : Nat) +
    Binary64.ofInt t.fraction.toNat * .ofInt (1000 : Nat) / .ofInt (1 <<< 32 : Nat) = _
  rw [hwhole, hscaled, Binary64.ofInt_natCast (by omega),
    Binary64.ofInt_natCast_div (by omega) (by decide), Binary64.finite_false_add, hsum]

/-- Times in order are in order in milliseconds. -/
theorem toMillis_mono {a b : NtpTime} (h : a.toUInt64 ≤ b.toUInt64) : a.toMillis ≤ b.toMillis := by
  rw [toMillis_eq, toMillis_eq]
  refine Binary64.le_iff.mpr ⟨_, _, Binary64.position_ofQuotient Nat.one_pos _ _,
    Binary64.position_ofQuotient Nat.one_pos _ _, ?_⟩
  apply Binary64.nearest_mono Nat.one_pos
  exact Int.ofNat_le.mpr (Nat.mul_le_mul_right _ (UInt64.le_iff_toNat_le.mp h))

end NtpTime

/-! ## Samples of reports -/

namespace Sample

variable {r r' : SenderReport} {s s' : Sample}

theorem wallClock_of_ofReport? (h : ofReport? r = some s) : s.wallClock = r.ntp.toMillis := by
  unfold ofReport? at h
  split at h
  · cases h
  · cases h
    rfl

/-- A sample that advances another one comes from a report with a later time. -/
theorem toUInt64_lt_of_advances (h : ofReport? r = some s) (h' : ofReport? r' = some s')
    (hadvances : s'.advances s = true) : r.ntp.toUInt64 < r'.ntp.toUInt64 := by
  obtain ⟨hlt, -⟩ := advances_iff.mp hadvances
  rw [wallClock_of_ofReport? h, wallClock_of_ofReport? h'] at hlt
  by_contra hnot
  exact Binary64.not_lt_of_le (NtpTime.toMillis_mono (UInt64.not_lt.mp hnot)) hlt

end Sample

/-! ## Histories that are fed with reports -/

/-- The reports accepted since the last restart, newest first, once the sample of `r` has been
offered. -/
def Uptake.acceptReport (accepted : List SenderReport) (r : SenderReport) :
    Uptake → List SenderReport
  | known | stale => accepted
  | restarted => [r]
  | appended => r :: accepted

/-- What is done to a history that is fed with reports. -/
inductive Feed where
  | report (r : SenderReport)
  | clear
  deriving DecidableEq

/-- What it does to the history. A report without a wall clock gives no sample to offer. -/
def Feed.change? : Feed → Option History.Change
  | report r => (Sample.ofReport? r).map .offer
  | clear => some .clear

/-- A history, and the reports that it accepted since it was last empty or restarted, newest first. -/
structure Fed where
  history : History
  accepted : List SenderReport
  deriving DecidableEq

namespace Fed

def empty (requested : Nat) : Fed := ⟨.empty requested, []⟩

/-- A report is read, or the history is cleared. -/
def feed (f : Fed) : Feed → Fed
  | .report r =>
    match Sample.ofReport? r with
    | none => f
    | some s =>
      let (uptake, history) := f.history.update s
      ⟨history, uptake.acceptReport f.accepted r⟩
  | .clear => ⟨f.history.clear, []⟩

/-- What some feeds in order come to. -/
def after (f : Fed) (feeds : List Feed) : Fed := feeds.foldl feed f

theorem feed_of_none {r : SenderReport} (h : Sample.ofReport? r = none) (f : Fed) :
    f.feed (.report r) = f := by
  rw [feed, h]

theorem feed_of_some {r : SenderReport} {s : Sample} (h : Sample.ofReport? r = some s) (f : Fed) :
    f.feed (.report r) =
      ⟨(f.history.update s).2, (f.history.update s).1.acceptReport f.accepted r⟩ := by
  rw [feed, h]

/-- Keeping the reports beside it leaves the history as it would be. -/
theorem history_after (f : Fed) (feeds : List Feed) :
    (f.after feeds).history = f.history.after (feeds.filterMap Feed.change?) := by
  induction feeds generalizing f with
  | nil => rfl
  | cons x feeds ih =>
    refine (ih (f.feed x)).trans ?_
    cases x with
    | clear => rfl
    | report r =>
      cases hsample : Sample.ofReport? r with
      | none =>
        have hnone : (Feed.report r).change? = none := by rw [Feed.change?, hsample]; rfl
        rw [List.filterMap_cons_none hnone, feed_of_none hsample]
      | some s =>
        have hsome : (Feed.report r).change? = some (.offer s) := by rw [Feed.change?, hsample]; rfl
        rw [List.filterMap_cons_some hsome, feed_of_some hsample]
        rfl

/-- The samples are those of the newest accepted reports, as many as there is room for, and the
reports have later and later times. -/
structure InOrder (requested : Nat) (f : Fed) : Prop where
  sound : History.Sound requested f.history
  samples_eq : f.history.samples.map some =
    (f.accepted.take f.history.capacity).map Sample.ofReport?
  increasing : f.accepted.Pairwise fun newer older => older.ntp.toUInt64 < newer.ntp.toUInt64

variable {requested : Nat} {f : Fed} {r newest : SenderReport} {s : Sample}

theorem inOrder_empty (requested : Nat) : InOrder requested (empty requested) :=
  ⟨History.sound_empty requested, by rw [empty, List.take_nil]; rfl, .nil⟩

namespace InOrder

/-- The newest sample is that of the newest accepted report. -/
theorem latest_of_head (hf : InOrder requested f) (hhead : f.accepted.head? = some newest) :
    ∃ latest, f.history.latest? = some latest ∧ Sample.ofReport? newest = some latest := by
  have hroom := hf.sound.two_le_capacity
  have hheads := congrArg List.head? hf.samples_eq
  rw [List.head?_map, List.head?_map, List.head?_take, if_neg (by omega), hhead,
    Option.map_some] at hheads
  obtain ⟨latest, hlatest, hsample⟩ := Option.map_eq_some_iff.mp hheads
  exact ⟨latest, hlatest, hsample.symm⟩

/-- A report whose sample advances the newest one is later than all that were accepted. -/
theorem increasing_cons (hf : InOrder requested f) (hsample : Sample.ofReport? r = some s)
    (ahead : ∀ latest, f.history.latest? = some latest → s.advances latest = true) :
    (r :: f.accepted).Pairwise fun newer older => older.ntp.toUInt64 < newer.ntp.toUInt64 := by
  refine List.pairwise_cons.mpr ⟨?_, hf.increasing⟩
  intro older holder
  have hpairs := hf.increasing
  cases haccepted : f.accepted with
  | nil =>
    rw [haccepted] at holder
    cases holder
  | cons newest rest =>
    rw [haccepted] at holder hpairs
    obtain ⟨latest, hlatest, hnewest⟩ := hf.latest_of_head (by rw [haccepted]; rfl)
    have hlt := Sample.toUInt64_lt_of_advances hnewest hsample (ahead latest hlatest)
    rcases List.mem_cons.mp holder with rfl | hrest
    · exact hlt
    · exact UInt64.lt_trans ((List.pairwise_cons.mp hpairs).1 older hrest) hlt

theorem append (hf : InOrder requested f) (hsample : Sample.ofReport? r = some s)
    (ahead : ∀ latest, f.history.latest? = some latest → s.advances latest = true) :
    InOrder requested ⟨f.history.append s, r :: f.accepted⟩ where
  sound := hf.sound.append ahead
  samples_eq := by
    obtain ⟨room, hroom⟩ := Nat.exists_eq_add_of_le' hf.sound.two_le_capacity
    have hsamples := hf.samples_eq
    show ((s :: f.history.samples).take f.history.capacity).map some =
      ((r :: f.accepted).take f.history.capacity).map Sample.ofReport?
    rw [hroom] at hsamples ⊢
    rw [List.take_succ_cons, List.take_succ_cons, List.map_cons, List.map_cons, hsample,
      List.map_take, hsamples, ← List.map_take, List.take_take, Nat.min_eq_left (Nat.le_succ _)]
  increasing := hf.increasing_cons hsample ahead

theorem clear (hf : InOrder requested f) : InOrder requested ⟨f.history.clear, []⟩ :=
  ⟨hf.sound.clear, by rw [List.take_nil]; rfl, .nil⟩

theorem feed (hf : InOrder requested f) (x : Feed) : InOrder requested (f.feed x) := by
  cases x with
  | clear => exact hf.clear
  | report r =>
    cases hsample : Sample.ofReport? r with
    | none =>
      rw [feed_of_none hsample]
      exact hf
    | some s =>
      rw [feed_of_some hsample]
      have htakes := f.history.takes_update s
      generalize (f.history.update s).1 = uptake, (f.history.update s).2 = next at htakes
      cases htakes with
      | appended ahead => exact hf.append hsample ahead
      | known held behind repeats => exact hf
      | stale held behind distinct few =>
        exact ⟨hf.sound.takes (.stale held behind distinct few), hf.samples_eq, hf.increasing⟩
      | restarted held behind distinct many =>
        refine hf.clear.append hsample ?_
        rintro latest ⟨⟩

theorem after (hf : InOrder requested f) (feeds : List Feed) :
    InOrder requested (f.after feeds) := by
  induction feeds generalizing f with
  | nil => exact hf
  | cons x feeds ih => exact ih (hf.feed x)

/-- A report that is not later than the newest accepted one is not appended behind it. -/
theorem not_appended (hf : InOrder requested f) (hhead : f.accepted.head? = some newest)
    (hle : r.ntp.toUInt64 ≤ newest.ntp.toUInt64) (hsample : Sample.ofReport? r = some s) :
    (((f.history.update s).1 = .known ∨ (f.history.update s).1 = .stale) ∧
        (f.history.update s).2.samples = f.history.samples) ∨
      ((f.history.update s).1 = .restarted ∧ (f.history.update s).2.samples = [s]) := by
  obtain ⟨latest, hlatest, hnewest⟩ := hf.latest_of_head hhead
  have htakes := f.history.takes_update s
  generalize (f.history.update s).1 = uptake, (f.history.update s).2 = next at htakes
  cases htakes with
  | appended ahead =>
    have hlt := Sample.toUInt64_lt_of_advances hnewest hsample (ahead latest hlatest)
    exact absurd hlt (UInt64.not_lt.mpr hle)
  | known held behind repeats => exact Or.inl ⟨Or.inl rfl, rfl⟩
  | stale held behind distinct few => exact Or.inl ⟨Or.inr rfl, rfl⟩
  | restarted held behind distinct many =>
    have hroom : [s].length ≤ f.history.capacity := Nat.le_of_succ_le hf.sound.two_le_capacity
    exact Or.inr ⟨rfl, List.take_of_length_le hroom⟩

end InOrder

end Fed

/-- Times in order are in order in milliseconds. So whatever reports a history is fed with, and
wherever it is cleared in between: its samples are those of the newest reports that it accepted since
it was last empty or restarted, these have later and later times, and a report whose time is not
later than the newest of them is left out, counted as stale, or restarts the history as its only
sample, but is never put behind it. -/
theorem reports_keep_order :
    (∀ a b : NtpTime, a.toUInt64 ≤ b.toUInt64 → a.toMillis ≤ b.toMillis) ∧
    ∀ (requested : Nat) (feeds : List Feed),
      let h := (History.empty requested).after (feeds.filterMap Feed.change?)
      let fed := (Fed.empty requested).after feeds
      fed.history = h ∧
        h.samples.map some = (fed.accepted.take h.capacity).map Sample.ofReport? ∧
        fed.accepted.Pairwise (fun newer older => older.ntp.toUInt64 < newer.ntp.toUInt64) ∧
        ∀ newest, fed.accepted.head? = some newest →
          ∀ r : SenderReport, r.ntp.toUInt64 ≤ newest.ntp.toUInt64 →
            ∀ s, Sample.ofReport? r = some s →
              (((h.update s).1 = .known ∨ (h.update s).1 = .stale) ∧
                  (h.update s).2.samples = h.samples) ∨
                ((h.update s).1 = .restarted ∧ (h.update s).2.samples = [s]) := by
  refine ⟨fun a b => NtpTime.toMillis_mono, ?_⟩
  intro requested feeds h fed
  have hhistory : fed.history = h := (Fed.empty requested).history_after feeds
  have hf : fed.InOrder requested := (Fed.inOrder_empty requested).after feeds
  rw [← hhistory]
  refine ⟨rfl, hf.samples_eq, hf.increasing, ?_⟩
  intro newest hhead r hle s hsample
  exact hf.not_appended hhead hle hsample

/-- Two reports whose times are the same once rounded, so that the later one is not accepted, and a
third one that is. The second time once more, at a new media time, is then left out as well. -/
theorem reports_keep_order_where_times_collide :
    let early : SenderReport := ⟨⟨4000000000, 0⟩, ⟨0⟩⟩
    let close : SenderReport := ⟨⟨4000000000, 1⟩, ⟨10⟩⟩
    let late : SenderReport := ⟨⟨4000000001, 0⟩, ⟨20⟩⟩
    let again : SenderReport := ⟨close.ntp, ⟨30⟩⟩
    let feeds : List Feed := [.report early, .report close, .report late]
    let h := (History.empty 2).after (feeds.filterMap Feed.change?)
    (early.ntp.toUInt64 < close.ntp.toUInt64 ∧ early.ntp.toMillis = close.ntp.toMillis ∧
        early.ntp.toMillis ≤ close.ntp.toMillis) ∧
      ((Fed.empty 2).after feeds).accepted = [late, early] ∧
      h.samples.map some = [late, early].map Sample.ofReport? ∧
      ∃ s, Sample.ofReport? again = some s ∧
        ((((h.update s).1 = .known ∨ (h.update s).1 = .stale) ∧
            (h.update s).2.samples = h.samples) ∨
          ((h.update s).1 = .restarted ∧ (h.update s).2.samples = [s])) := by
  intro early close late again feeds h
  obtain ⟨hmono, hrun⟩ := reports_keep_order
  obtain ⟨-, hsamples, -, hnot⟩ := hrun 2 feeds
  have haccepted : ((Fed.empty 2).after feeds).accepted = [late, early] := by decide +kernel
  have hroom : h.capacity = 2 := by decide +kernel
  have hnewest : ((Fed.empty 2).after feeds).accepted.head? = some late := by rw [haccepted]; rfl
  have hsample : Sample.ofReport? again = some ⟨again.ntp.toMillis, ⟨30⟩⟩ := rfl
  refine ⟨⟨by decide, by decide +kernel, hmono _ _ (by decide)⟩, haccepted, ?_, _, hsample, ?_⟩
  · show h.samples.map some = _
    rw [hsamples, haccepted, hroom]
    rfl
  · exact hnot late hnewest again (by decide) _ hsample

end LipSync
