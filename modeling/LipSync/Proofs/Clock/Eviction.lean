/-
# LipSync.Proofs.Clock.Eviction — what is lost when the oldest sample makes room.

Of the samples accepted since the last restart a history holds the newest, as many as there is room
for, in the order in which they were accepted (`History.Retains`). Whether a sample is accepted, and
everything that is measured, goes by the two newest samples and by the stale run alone. There is
always room for two, so histories that agree in these (`History.SameNewest`) treat every sample the
same, whatever else each of them still holds.
-/
import LipSync.Proofs.Clock.Growth

namespace LipSync

/-- The samples accepted since the last restart, newest first, once `s` has been offered. The sample
that makes the restart is one of them. -/
def Uptake.accept (accepted : List Sample) (s : Sample) : Uptake → List Sample
  | known | stale => accepted
  | restarted => [s]
  | appended => s :: accepted

namespace History

variable {h h' : History} {s : Sample}

/-! ## What is held of what was accepted -/

/-- The history was made to keep `requested` samples, and holds the newest of the accepted ones, as
many as there is room for. -/
structure Retains (requested : Nat) (accepted : List Sample) (h : History) : Prop where
  capacity_eq : h.capacity = max requested minCapacity
  samples_eq : h.samples = accepted.take h.capacity

theorem retains_empty (requested : Nat) : Retains requested [] (empty requested) :=
  ⟨rfl, List.take_nil.symm⟩

namespace Retains

variable {requested requested' : Nat} {accepted : List Sample}

theorem append (hh : h.Retains requested accepted) (s : Sample) :
    (h.append s).Retains requested (s :: accepted) where
  capacity_eq := hh.capacity_eq
  samples_eq := by
    show (s :: h.samples).take h.capacity = (s :: accepted).take h.capacity
    rw [hh.samples_eq]
    cases h.capacity with
    | zero => rfl
    | succ room =>
      rw [List.take_succ_cons, List.take_succ_cons, List.take_take, Nat.min_eq_left (Nat.le_succ _)]

/-- Offering a sample leaves the newest of what has been accepted then. -/
theorem update (hh : h.Retains requested accepted) (s : Sample) :
    (h.update s).2.Retains requested ((h.update s).1.accept accepted s) := by
  have htakes := h.takes_update s
  generalize (h.update s).1 = uptake, (h.update s).2 = next at htakes
  cases htakes with
  | appended ahead => exact hh.append s
  | known held behind repeats => exact hh
  | stale held behind distinct few => exact ⟨hh.capacity_eq, hh.samples_eq⟩
  | restarted held behind distinct many => exact ⟨hh.capacity_eq, rfl⟩

/-- Of two histories that hold the newest of the same samples, the shorter one ends the longer
one. -/
theorem suffix (hh : h.Retains requested accepted) (hh' : h'.Retains requested' accepted)
    (hle : h.size ≤ h'.size) : h.toList <:+ h'.toList := by
  unfold size at hle
  unfold toList
  rw [hh.samples_eq, hh'.samples_eq] at hle ⊢
  apply List.reverse_suffix.mpr
  exact List.prefix_of_prefix_length_le (List.take_prefix _ _) (List.take_prefix _ _) hle

end Retains

/-! ## What goes by the two newest -/

/-- Both have room for two samples, and agree in the two newest and in the stale run. -/
structure SameNewest (h h' : History) : Prop where
  two_le_left : 2 ≤ h.capacity
  two_le_right : 2 ≤ h'.capacity
  take_two_eq : h.samples.take 2 = h'.samples.take 2
  lastStale_eq : h.lastStale = h'.lastStale
  staleCount_eq : h.staleCount = h'.staleCount

theorem sameNewest_empty (capacity capacity' : Nat) :
    SameNewest (empty capacity) (empty capacity') :=
  ⟨Nat.le_max_right _ _, Nat.le_max_right _ _, rfl, rfl, rfl⟩

theorem lastTwo_eq_take (h : History) :
    h.lastTwo = match h.samples.take 2 with
      | [newest, older] => .ok (older, newest)
      | _ => .error .insufficientData := by
  unfold lastTwo
  match h.samples with
  | [] => rfl
  | [_] => rfl
  | _ :: _ :: _ => rfl

theorem take_two_append (hroom : 2 ≤ h.capacity) (s : Sample) :
    (h.append s).samples.take 2 = s :: (h.samples.take 2).take 1 := by
  show ((s :: h.samples).take h.capacity).take 2 = _
  rw [List.take_take, Nat.min_eq_left hroom, List.take_succ_cons, List.take_take]
  rfl

namespace SameNewest

theorem latest?_eq (hh : SameNewest h h') : h.latest? = h'.latest? := by
  have htake (samples : List Sample) : (samples.take 2).head? = samples.head? := by
    cases samples <;> rfl
  calc
    h.latest? = (h.samples.take 2).head? := (htake h.samples).symm
    _ = (h'.samples.take 2).head? := by rw [hh.take_two_eq]
    _ = h'.latest? := htake h'.samples

theorem lastTwo_eq (hh : SameNewest h h') : h.lastTwo = h'.lastTwo := by
  rw [lastTwo_eq_take, lastTwo_eq_take, hh.take_two_eq]

theorem append (hh : SameNewest h h') (s : Sample) : SameNewest (h.append s) (h'.append s) where
  two_le_left := hh.two_le_left
  two_le_right := hh.two_le_right
  take_two_eq := by
    rw [take_two_append hh.two_le_left, take_two_append hh.two_le_right, hh.take_two_eq]
  lastStale_eq := rfl
  staleCount_eq := rfl

theorem clear (hh : SameNewest h h') : SameNewest h.clear h'.clear :=
  ⟨hh.two_le_left, hh.two_le_right, rfl, rfl, rfl⟩

/-- The same becomes of a sample in both, and they agree afterwards. -/
theorem update (hh : SameNewest h h') (s : Sample) :
    (h.update s).1 = (h'.update s).1 ∧ SameNewest (h.update s).2 (h'.update s).2 := by
  unfold History.update
  rw [hh.latest?_eq, hh.lastStale_eq, hh.staleCount_eq]
  cases h'.latest? with
  | none => exact ⟨rfl, hh.append s⟩
  | some latest =>
    simp only
    split
    · exact ⟨rfl, hh.append s⟩
    · split
      · exact ⟨rfl, hh⟩
      · split
        · exact ⟨rfl, hh.two_le_left, hh.two_le_right, hh.take_two_eq, rfl, rfl⟩
        · exact ⟨rfl, hh.clear.append s⟩

end SameNewest

end History

end LipSync
