/-
# LipSync.Proofs.Clock.Repetition — reading the same report again is harmless.

The newest report of a stream is read in every cycle, and most of the time it is the one that was
read before. However a history took a sample, offering it once more is answered as known and changes
nothing (`History.update_update`): a sample that was taken in is the newest one then, and one that
was counted as stale is the last stale one. So copies can be put into a run of samples right behind
each of them, and nothing else comes out differently.

A wall clock that is not a number equals nothing, so a sample with one is never known.
-/
import LipSync.Proofs.Clock.Growth

namespace LipSync

namespace History

variable {requested : Nat} {h next : History} {s : Sample} {uptake : Uptake}

/-! ## Offering a sample once more -/

theorem latest?_append (hs : Sound requested h) (s : Sample) : (h.append s).latest? = some s := by
  have hroom := hs.two_le_capacity
  show ((s :: h.samples).take h.capacity).head? = some s
  rw [List.head?_take, if_neg (by omega), List.head?_cons]

theorem update_of_repeats {latest : Sample} (held : h.latest? = some latest)
    (behind : s.advances latest = false) (repeats : h.Repeats s) : h.update s = (.known, h) := by
  unfold update
  rw [held]
  simp only [behind, Bool.false_eq_true, if_false, if_pos ((repeats_iff held).mp repeats)]

/-- However a sample was taken, it is known when it is offered again. -/
theorem update_of_takes (hs : Sound requested h) (hnum : s.wallClock ≠ .nan)
    (htakes : h.Takes s uptake next) : next.update s = (.known, next) := by
  have hself : (s == s) = true := Sample.beq_self_iff.mpr hnum
  cases htakes with
  | appended ahead =>
    have hlatest := latest?_append hs s
    exact update_of_repeats hlatest s.not_advances_self (Or.inl ⟨s, hlatest, hself⟩)
  | known held behind repeats => exact update_of_repeats held behind repeats
  | stale held behind distinct few => exact update_of_repeats held behind (Or.inr ⟨s, rfl, hself⟩)
  | restarted held behind distinct many =>
    have hlatest := latest?_append hs.clear s
    exact update_of_repeats hlatest s.not_advances_self (Or.inl ⟨s, hlatest, hself⟩)

theorem update_update (hs : Sound requested h) (hnum : s.wallClock ≠ .nan) :
    (h.offer s).update s = (.known, h.offer s) :=
  update_of_takes hs hnum (h.takes_update s)

/-- Offering a sample once and then `extra` times more. -/
def copies (extra : Nat) (s : Sample) : List Change := List.replicate (extra + 1) (.offer s)

/-- A sample that is known changes nothing, however often it is offered. -/
theorem after_replicate (known : h.update s = (.known, h)) (n : Nat) :
    h.after (List.replicate n (.offer s)) = h := by
  induction n with
  | zero => rfl
  | succ n ih =>
    have hoffer : h.offer s = h := congrArg Prod.snd known
    show (h.offer s).after (List.replicate n (.offer s)) = h
    rw [hoffer, ih]

/-- Copies of a sample do what the first of them does. -/
theorem after_copies (hs : Sound requested h) (hnum : s.wallClock ≠ .nan) (extra : Nat) :
    h.after (copies extra s) = h.offer s :=
  after_replicate (update_update hs hnum) extra

/-! ## What is answered to a run of samples -/

/-- What is answered to some samples that are offered in order: of each, whether it is in the
history then and was not before. -/
def news (h : History) : List Sample → List Bool
  | [] => []
  | s :: ss => (h.update s).1.isNew :: (h.offer s).news ss

theorem news_append (h : History) (ss ts : List Sample) :
    h.news (ss ++ ts) = h.news ss ++ (h.after (ss.map .offer)).news ts := by
  induction ss generalizing h with
  | nil => rfl
  | cons s ss ih => exact congrArg ((h.update s).1.isNew :: ·) (ih (h.offer s))

theorem news_replicate (known : h.update s = (.known, h)) (n : Nat) :
    h.news (List.replicate n s) = List.replicate n false := by
  induction n with
  | zero => rfl
  | succ n ih =>
    rw [List.replicate_succ, List.replicate_succ, news, offer, known, ih]
    rfl

/-! ## Copies in a run -/

/-- A run of samples in which each comes with so many more copies of it right behind. -/
def withCopies (run : List (Sample × Nat)) : List Sample :=
  run.flatMap fun p => List.replicate (p.2 + 1) p.1

/-- What is answered to a run, and `false` to each copy that has been put in. -/
def withSilence (news : List Bool) (run : List (Sample × Nat)) : List Bool :=
  (news.zip run).flatMap fun p => p.1 :: List.replicate p.2.2 false

theorem withCopies_cons (s : Sample) (extra : Nat) (run : List (Sample × Nat)) :
    withCopies ((s, extra) :: run) = s :: (List.replicate extra s ++ withCopies run) :=
  List.flatMap_cons

/-- A run comes to the same with copies in it. -/
theorem withCopies_run (hs : Sound requested h) (run : List (Sample × Nat))
    (hnum : ∀ p ∈ run, p.1.wallClock ≠ .nan) :
    h.after ((withCopies run).map .offer) = h.after ((run.map Prod.fst).map .offer) ∧
      h.news (withCopies run) = withSilence (h.news (run.map Prod.fst)) run := by
  induction run generalizing h with
  | nil => exact ⟨rfl, rfl⟩
  | cons p run ih =>
    obtain ⟨s, extra⟩ := p
    obtain ⟨hfirst, hrest⟩ := List.forall_mem_cons.mp hnum
    -- behind the first copy of `s`, the others find a history that knows it
    have known := update_update hs hfirst
    have hcopies : (h.offer s).after ((List.replicate extra s).map .offer) = h.offer s := by
      rw [List.map_replicate, after_replicate known]
    obtain ⟨hafter, hnews⟩ := ih (hs.offer s) hrest
    rw [withCopies_cons]
    constructor
    · rw [List.map_cons, List.map_append]
      show (h.offer s).after _ = (h.offer s).after _
      rw [after_append, hcopies, hafter]
    · show (h.update s).1.isNew :: (h.offer s).news _ = _
      rw [news_append, hcopies, news_replicate known, hnews]
      rfl

/-- Whatever was done to a history before, and whatever becomes of each sample of a run: copies that
are put in behind the samples leave the history as it would be without them, are not new themselves,
and change nothing about which of the others are. -/
theorem rereading_changes_nothing (requested : Nat) (changes : List Change)
    (run : List (Sample × Nat)) (hnum : ∀ p ∈ run, p.1.wallClock ≠ .nan) :
    let h := (empty requested).after changes
    let once := run.map Prod.fst
    h.after ((withCopies run).map .offer) = h.after (once.map .offer) ∧
      h.news (withCopies run) = withSilence (h.news once) run ∧
      ∀ s : Sample, s.wallClock ≠ .nan → (h.offer s).update s = (.known, h.offer s) := by
  intro h once
  have hs : Sound requested h := (sound_empty requested).after changes
  obtain ⟨hafter, hnews⟩ := withCopies_run hs run hnum
  exact ⟨hafter, hnews, fun s hnum' => update_update hs hnum'⟩

/-- All that can become of a sample, and copies of each: one report too late, the newest one, one
more that counts, the third, which restarts the history, and its successor. -/
theorem rereading_changes_nothing_through_restart :
    let report (second : Nat) : Sample := ⟨.ofInt (1000 * second), ⟨.ofNat (90000 * second)⟩⟩
    let h := (empty 2).after [.offer (report 10), .offer (report 11)]
    let run := [(report 5, 2), (report 11, 1), (report 6, 0), (report 5, 3), (report 6, 1)]
    (∀ p ∈ run, p.1.wallClock ≠ .nan) ∧
      h.news (run.map Prod.fst) = [false, false, false, true, true] ∧
      h.news (withCopies run) = [false, false, false, false, false, false,
        true, false, false, false, true, false] ∧
      h.after ((withCopies run).map .offer) = h.after ((run.map Prod.fst).map .offer) := by
  intro report h run
  have hnum : ∀ p ∈ run, p.1.wallClock ≠ .nan := by decide +kernel
  obtain ⟨hafter, hnews, -⟩ :=
    rereading_changes_nothing 2 [.offer (report 10), .offer (report 11)] run hnum
  have honce : h.news (run.map Prod.fst) = [false, false, false, true, true] := by decide +kernel
  refine ⟨hnum, honce, ?_, hafter⟩
  rw [hnews, honce]
  rfl

end History

end LipSync
