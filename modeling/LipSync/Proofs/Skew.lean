/-
# LipSync.Proofs.Skew — when there is a skew to act on.

The receive delay of a stream takes two samples, whatever they are, so a skew takes two samples of
each stream. It is acted on unless it is more, once rounded, than a network can cause
(`relativeDelay_ok_iff`). Nothing else stands in the way.

The limit is compared with the rounded skew, and what is told is an integer in a word. These agree
about what is plausible: the rounded skew is whole, so its integer part loses nothing of it but what
is far past the limit anyway (`Skew.accept_ofRounded_round`).
-/
import LipSync.Proofs.Binary64.Rounding
import LipSync.Proofs.Reception
import LipSync.Skew

namespace LipSync

variable {audio video : Reception}

theorem History.lastTwo_of_lt {h : History} (hsize : h.size < 2) :
    h.lastTwo = .error .insufficientData := by
  unfold lastTwo
  split
  · next newest older rest hsamples =>
    rw [size, hsamples] at hsize
    simp only [List.length_cons] at hsize
    omega
  · rfl

theorem History.exists_lastTwo {h : History} (hsize : 2 ≤ h.size) :
    ∃ older newest, h.lastTwo = .ok (older, newest) := by
  unfold size at hsize
  unfold lastTwo
  match hsamples : h.samples with
  | newest :: older :: rest => exact ⟨older, newest, rfl⟩
  | [newest] | [] =>
    rw [hsamples] at hsize
    simp at hsize

namespace Reception

variable {r : Reception}

theorem delay_of_lt (hsize : r.history.size < 2) : r.delay = .error .insufficientData := by
  rw [delay, History.wallClockAt_eq, History.lastTwo_of_lt hsize]
  rfl

theorem exists_delay (hsize : 2 ≤ r.history.size) : ∃ milliseconds, r.delay = .ok milliseconds := by
  obtain ⟨older, newest, hlast⟩ := History.exists_lastTwo hsize
  rw [delay, History.wallClockAt_eq, hlast]
  exact ⟨_, rfl⟩

end Reception

/-! ## Skews to act on -/

namespace Skew

/-- The rounded skew of the two receptions is more than a network can cause. -/
def Implausible (audio video : Reception) : Prop :=
  ∃ audioDelay videoDelay, audio.delay = .ok audioDelay ∧ video.delay = .ok videoDelay ∧
    .ofInt limit < (videoDelay - audioDelay).round.abs

variable {audioDelay videoDelay : Binary64}

theorem implausible_iff (haudio : audio.delay = .ok audioDelay)
    (hvideo : video.delay = .ok videoDelay) :
    Implausible audio video ↔ .ofInt limit < (videoDelay - audioDelay).round.abs := by
  unfold Implausible
  -- the limit has no part in this, and is not to be worked out
  generalize Binary64.ofInt limit = bound
  constructor
  · rintro ⟨audioDelay', videoDelay', haudio', hvideo', hlimit⟩
    cases haudio.symm.trans haudio'
    cases hvideo.symm.trans hvideo'
    exact hlimit
  · intro hlimit
    exact ⟨audioDelay, videoDelay, haudio, hvideo, hlimit⟩

theorem accept_ofRounded_ok_iff (x : Binary64) :
    (∃ milliseconds, (ofRounded x).accept = .ok milliseconds) ↔ ¬.ofInt limit < x.abs := by
  unfold ofRounded
  generalize Binary64.ofInt limit = bound
  split
  · next hlimit =>
    constructor
    · rintro ⟨milliseconds, haccept⟩
      cases haccept
    · intro hnot
      exact absurd hlimit hnot
  · next hlimit => exact ⟨fun _ => hlimit, fun _ => ⟨_, rfl⟩⟩

section Limit

-- stated for any limit in a word, because the actual one as a number is not to be worked out
variable {n : Int} {x : Binary64}

/-- A number within the limit has an integer part within it. -/
theorem toMilliseconds_of_not_lt (hn : 0 ≤ n) (hword : n < 2147483647) (h : ¬.ofInt n < x.abs) :
    -n ≤ toMilliseconds x ∧ toMilliseconds x ≤ n := by
  have hbits : n.natAbs ≤ 1 <<< 53 := by omega
  cases x with
  | nan => exact ⟨Int.neg_nonpos_of_nonneg hn, hn⟩
  | infinity s => exact absurd (Binary64.ofInt_lt_abs_infinity hbits s) h
  | finite s m hm =>
    rw [Binary64.ofInt_lt_abs_iff hbits] at h
    have hpart : ((m / Binary64.oneUnits : Nat) : Int) ≤ n := by
      rw [Int.natCast_ediv]
      exact Int.ediv_le_of_le_mul (Int.natCast_pos.mpr Binary64.oneUnits_pos) (Int.not_lt.mp h)
    rw [toMilliseconds, Binary64.truncateWithin_finite, Binary64.signed]
    generalize m / Binary64.oneUnits = part at hpart
    split <;> omega

/-- A whole number past the limit has an integer part past it. -/
theorem toMilliseconds_of_lt (hn : 0 ≤ n) (hword : n < 2147483647) (h : .ofInt n < x.round.abs) :
    toMilliseconds x.round < -n ∨ n < toMilliseconds x.round := by
  have hbits : n.natAbs ≤ 1 <<< 53 := by omega
  cases hx : x.round with
  | nan =>
    rw [hx] at h
    exact absurd h (Binary64.not_lt_abs_nan _)
  | infinity s =>
    rw [toMilliseconds, Binary64.truncateWithin_infinity]
    split <;> omega
  | finite s m hm =>
    obtain ⟨k, rfl⟩ := Binary64.oneUnits_dvd_of_round hx
    rw [hx, Binary64.ofInt_lt_abs_iff hbits, Nat.mul_comm, Int.natCast_mul] at h
    have hk : n < k := Int.lt_of_mul_lt_mul_right h (Int.natCast_nonneg _)
    have hpart : Binary64.oneUnits * k / Binary64.oneUnits = k :=
      Nat.mul_div_cancel_left k Binary64.oneUnits_pos
    rw [toMilliseconds, Binary64.truncateWithin_finite, hpart, Binary64.signed]
    split <;> omega

end Limit

/-- A rounded skew is told if it is within the limit, and reported if it is past it. -/
theorem accept_ofRounded_round (x : Binary64) :
    (∃ d, (ofRounded x.round).accept = .ok d ∧ -limit ≤ d ∧ d ≤ limit) ∨
      ∃ e, (ofRounded x.round).accept = .error (.skewOutOfRange e) ∧ (e < -limit ∨ limit < e) := by
  have hlimit : 0 ≤ limit := by decide
  have hword : limit < 2147483647 := by decide
  unfold ofRounded
  generalize limit = n at hlimit hword
  split
  · next h => exact Or.inr ⟨_, rfl, toMilliseconds_of_lt hlimit hword h⟩
  · next h => exact Or.inl ⟨_, rfl, toMilliseconds_of_not_lt hlimit hword h⟩

theorem measure_of_delays (haudio : audio.delay = .ok audioDelay)
    (hvideo : video.delay = .ok videoDelay) :
    measure audio video = .ok (ofRounded (videoDelay - audioDelay).round) := by
  rw [measure, haudio, hvideo]
  rfl

theorem measure_of_lt (h : audio.history.size < 2 ∨ video.history.size < 2) :
    measure audio video = .error .insufficientData := by
  by_cases haudio : audio.history.size < 2
  · rw [measure, Reception.delay_of_lt haudio]
    rfl
  · obtain ⟨audioDelay, hdelay⟩ := Reception.exists_delay (Nat.not_lt.mp haudio)
    rw [measure, hdelay, Reception.delay_of_lt (h.resolve_left haudio)]
    rfl

end Skew

theorem relativeDelay_of_lt (h : audio.history.size < 2 ∨ video.history.size < 2) :
    relativeDelay audio video = .error .insufficientData := by
  rw [relativeDelay, Skew.measure_of_lt h]
  rfl

theorem relativeDelay_of_measure {skew : Skew} (h : Skew.measure audio video = .ok skew) :
    relativeDelay audio video = skew.accept := by
  rw [relativeDelay, h]
  rfl

/-- There is a skew to act on exactly when both streams have two samples and it is plausible. -/
theorem relativeDelay_ok_iff :
    (∃ milliseconds, relativeDelay audio video = .ok milliseconds) ↔
      2 ≤ audio.history.size ∧ 2 ≤ video.history.size ∧ ¬Skew.Implausible audio video := by
  by_cases hsizes : audio.history.size < 2 ∨ video.history.size < 2
  · rw [relativeDelay_of_lt hsizes]
    constructor
    · rintro ⟨milliseconds, hskew⟩
      cases hskew
    · rintro ⟨haudio, hvideo, -⟩
      omega
  · obtain ⟨haudioSize, hvideoSize⟩ := not_or.mp hsizes
    obtain ⟨audioDelay, haudio⟩ := Reception.exists_delay (Nat.not_lt.mp haudioSize)
    obtain ⟨videoDelay, hvideo⟩ := Reception.exists_delay (Nat.not_lt.mp hvideoSize)
    rw [relativeDelay_of_measure (Skew.measure_of_delays haudio hvideo),
      Skew.accept_ofRounded_ok_iff, ← Skew.implausible_iff haudio hvideo]
    exact ⟨fun h => ⟨Nat.not_lt.mp haudioSize, Nat.not_lt.mp hvideoSize, h⟩, fun h => h.2.2⟩

/-! ## What a skew can be -/

/-- A sample that restarts a history is the only one then. -/
theorem History.Takes.size_of_restarted {h next : History} {s : Sample}
    (htakes : h.Takes s .restarted next) : next.size < 2 := by
  cases htakes with
  | restarted held behind distinct many =>
    show ([s].take h.capacity).length < 2
    rw [List.length_take]
    exact Nat.lt_of_le_of_lt (Nat.min_le_right _ _) (Nat.lt_succ_self 1)

theorem Reception.size_of_restarted {r : Reception} {x : Readings} {refresh : Refresh}
    (h : r.update x = .ok refresh) (hu : refresh.uptake = .restarted) :
    refresh.reception.history.size < 2 := by
  obtain ⟨a, -, rfl⟩ := update_ok_iff.mp h
  have huptake : (r.history.update a.sample).1 = .restarted := hu
  have htakes := r.history.takes_update a.sample
  rw [huptake] at htakes
  exact htakes.size_of_restarted

/-- With two samples of each stream, there is a skew within the limit, or one past it is reported. -/
theorem relativeDelay_of_le (haudio : 2 ≤ audio.history.size) (hvideo : 2 ≤ video.history.size) :
    (∃ d, relativeDelay audio video = .ok d ∧ -10000 ≤ d ∧ d ≤ 10000) ∨
      ∃ e, relativeDelay audio video = .error (.skewOutOfRange e) ∧ (e < -10000 ∨ 10000 < e) := by
  obtain ⟨audioDelay, haudioDelay⟩ := Reception.exists_delay haudio
  obtain ⟨videoDelay, hvideoDelay⟩ := Reception.exists_delay hvideo
  rw [relativeDelay_of_measure (Skew.measure_of_delays haudioDelay hvideoDelay)]
  exact Skew.accept_ofRounded_round (videoDelay - audioDelay)

/-- Whatever two receptions hold, there is no skew exactly as long as either of them has fewer than
two samples, and so right after either was restarted; otherwise there is one that a network can have
caused, or an error that reports one which it cannot. Which of the two it is goes by the skew as it
was measured and rounded: it is told exactly when it is not more than a network can cause. -/
theorem skew_is_two_sided_and_plausible (audio video : Reception) :
    (relativeDelay audio video = .error .insufficientData ↔
        audio.history.size < 2 ∨ video.history.size < 2) ∧
      (relativeDelay audio video = .error .insufficientData ∨
        (∃ d, relativeDelay audio video = .ok d ∧ -10000 ≤ d ∧ d ≤ 10000) ∨
        ∃ e, relativeDelay audio video = .error (.skewOutOfRange e) ∧
          (e < -10000 ∨ 10000 < e)) ∧
      ((∃ d, relativeDelay audio video = .ok d) ↔
        2 ≤ audio.history.size ∧ 2 ≤ video.history.size ∧ ¬Skew.Implausible audio video) ∧
      (∀ x refresh, audio.update x = .ok refresh → refresh.uptake = .restarted →
        relativeDelay refresh.reception video = .error .insufficientData) ∧
      ∀ x refresh, video.update x = .ok refresh → refresh.uptake = .restarted →
        relativeDelay audio refresh.reception = .error .insufficientData := by
  refine ⟨⟨?_, relativeDelay_of_lt⟩, ?_, relativeDelay_ok_iff, ?_, ?_⟩
  · intro h
    by_contra hsizes
    obtain ⟨haudio, hvideo⟩ := not_or.mp hsizes
    rcases relativeDelay_of_le (Nat.not_lt.mp haudio) (Nat.not_lt.mp hvideo) with
      ⟨d, hd, -⟩ | ⟨e, he, -⟩
    · rw [h] at hd
      cases hd
    · rw [h] at he
      cases he
  · by_cases hsizes : audio.history.size < 2 ∨ video.history.size < 2
    · exact Or.inl (relativeDelay_of_lt hsizes)
    · obtain ⟨haudio, hvideo⟩ := not_or.mp hsizes
      exact Or.inr (relativeDelay_of_le (Nat.not_lt.mp haudio) (Nat.not_lt.mp hvideo))
  · intro x refresh hupdate hrestarted
    exact relativeDelay_of_lt (Or.inl (Reception.size_of_restarted hupdate hrestarted))
  · intro x refresh hupdate hrestarted
    exact relativeDelay_of_lt (Or.inr (Reception.size_of_restarted hupdate hrestarted))

/-- The sender of video has started again: two reports from its new life leave the skew as it was
measured before, and the third one restarts the history. -/
theorem skew_is_two_sided_and_plausible_through_restart :
    let reading (second : Nat) : Readings :=
      ⟨some ⟨.ofNat (90000 * second)⟩, some (.ofNat (1000 * second)),
        some ⟨⟨.ofNat second, 0⟩, ⟨.ofNat (90000 * second)⟩⟩⟩
    let audio := (Reception.empty 2).after [reading 10, reading 11]
    let video := (Reception.empty 2).after [reading 10, reading 11, reading 5, reading 6]
    (relativeDelay audio video = .ok 0 ∧ ¬Skew.Implausible audio video) ∧
      ∃ refresh, video.update (reading 7) = .ok refresh ∧ refresh.uptake = .restarted ∧
        relativeDelay audio refresh.reception = .error .insufficientData := by
  intro reading audio video
  obtain ⟨-, -, htold, -, hvideo⟩ := skew_is_two_sided_and_plausible audio video
  have hskew : relativeDelay audio video = .ok 0 := by decide +kernel
  have harrival : (reading 7).arrival? = some ⟨⟨630000⟩, 7000, ⟨.ofInt 7000, ⟨630000⟩⟩⟩ := by
    decide +kernel
  have hupdate : video.update (reading 7) =
      .ok (video.receive ⟨⟨630000⟩, 7000, ⟨.ofInt 7000, ⟨630000⟩⟩⟩) :=
    Reception.update_ok_iff.mpr ⟨_, harrival, rfl⟩
  have hrestarted :
      (video.receive ⟨⟨630000⟩, 7000, ⟨.ofInt 7000, ⟨630000⟩⟩⟩).uptake = .restarted := by
    decide +kernel
  exact ⟨⟨hskew, (htold.mp ⟨0, hskew⟩).2.2⟩, _, hupdate, hrestarted,
    hvideo _ _ hupdate hrestarted⟩

end LipSync
