/-
# LipSync.Binary64.Order — comparing numbers by value.

NaN compares with nothing, itself included, and the two zeros are equal. So `==`, `<` and `≤` go
through `position`, the place of a number on the line of units, which NaN does not have; equality of
the values themselves is `=`.
-/
import LipSync.Binary64.Arithmetic

namespace LipSync.Binary64

/-- The place of a number on the line of units. The infinities stand just past the finite ones. -/
def position : Binary64 → Option Int
  | nan => none
  | infinity s => some (signed s limitUnits)
  | finite s m _ => some (signed s m)

/-- Equality of places: false on NaN, true between the two zeros. -/
instance : BEq Binary64 where
  beq a b := match a.position, b.position with
    | some x, some y => x == y
    | _, _ => false

/-- Both numbers have a place, and the first stands before the second. -/
instance : LT Binary64 where
  lt a b := match a.position, b.position with
    | some x, some y => x < y
    | _, _ => False

/-- Both numbers have a place, and the first does not stand after the second. -/
instance : LE Binary64 where
  le a b := match a.position, b.position with
    | some x, some y => x ≤ y
    | _, _ => False

theorem beq_iff {a b : Binary64} :
    (a == b) = true ↔ ∃ x, a.position = some x ∧ b.position = some x := by
  show (match a.position, b.position with
    | some x, some y => x == y
    | _, _ => false) = true ↔ _
  cases a.position <;> cases b.position <;> simp
  exact eq_comm

theorem lt_iff {a b : Binary64} :
    a < b ↔ ∃ x y, a.position = some x ∧ b.position = some y ∧ x < y := by
  show (match a.position, b.position with
    | some x, some y => x < y
    | _, _ => False) ↔ _
  cases a.position <;> cases b.position <;> simp

theorem le_iff {a b : Binary64} :
    a ≤ b ↔ ∃ x y, a.position = some x ∧ b.position = some y ∧ x ≤ y := by
  show (match a.position, b.position with
    | some x, some y => x ≤ y
    | _, _ => False) ↔ _
  cases a.position <;> cases b.position <;> simp

instance (a b : Binary64) : Decidable (a < b) :=
  match ha : a.position, hb : b.position with
  | some x, some y => decidable_of_iff (x < y) (by simp [lt_iff, ha, hb])
  | none, _ => .isFalse (by simp [lt_iff, ha])
  | some _, none => .isFalse (by simp [lt_iff, hb])

instance (a b : Binary64) : Decidable (a ≤ b) :=
  match ha : a.position, hb : b.position with
  | some x, some y => decidable_of_iff (x ≤ y) (by simp [le_iff, ha, hb])
  | none, _ => .isFalse (by simp [le_iff, ha])
  | some _, none => .isFalse (by simp [le_iff, hb])

end LipSync.Binary64
