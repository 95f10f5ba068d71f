import Mathlib.Algebra.Order.Ring.Int

/-! Signed arithmetic whose overflow is undefined, as partial operations. -/
namespace SignedWord

/-- The difference when it is representable, nothing when computing it overflows. -/
def checkedSub (a b : Int32) : Option Int32 :=
  if -2 ^ 31 ≤ a.toInt - b.toInt ∧ a.toInt - b.toInt < 2 ^ 31 then some (a - b) else none

theorem checkedSub_toInt {a b c : Int32} (h : checkedSub a b = some c) :
    c.toInt = a.toInt - b.toInt := by
  unfold checkedSub at h
  split at h
  · rename_i bounds
    cases h
    rw [Int32.toInt_sub]
    exact Int.bmod_eq_of_le (by omega) (by omega)
  · cases h

/-- Taking a non-negative amount away from at least as much never overflows. -/
theorem checkedSub_of_le {a b : Int32} (nonneg : 0 ≤ b.toInt) (le : b.toInt ≤ a.toInt) :
    checkedSub a b = some (a - b) := by
  have upper := a.toInt_lt
  rw [checkedSub, if_pos (by omega)]

/-- The successor when it is representable, nothing when computing it overflows. -/
def checkedIncrement (a : Int64) : Option Int64 :=
  if a.toInt + 1 < 2 ^ 63 then some (a + 1) else none

theorem checkedIncrement_toInt {a b : Int64} (h : checkedIncrement a = some b) :
    b.toInt = a.toInt + 1 := by
  unfold checkedIncrement at h
  split at h
  · rename_i bound
    cases h
    have lower := a.le_toInt
    rw [Int64.toInt_add]
    exact Int.bmod_eq_of_le (by simp; omega) (by simp; omega)
  · cases h

theorem checkedIncrement_of_lt {a : Int64} (below : a.toInt + 1 < 2 ^ 63) :
    checkedIncrement a = some (a + 1) := if_pos below

/-- The sum when it is representable, nothing when computing it overflows. -/
def checkedAdd (a b : Int64) : Option Int64 :=
  if -2 ^ 63 ≤ a.toInt + b.toInt ∧ a.toInt + b.toInt < 2 ^ 63 then some (a + b) else none

theorem checkedAdd_eq_some {a b c : Int64} :
    checkedAdd a b = some c ↔ c.toInt = a.toInt + b.toInt := by
  unfold checkedAdd
  constructor
  · intro h
    split at h
    · rename_i bounds
      cases h
      rw [Int64.toInt_add]
      exact Int.bmod_eq_of_le (by simp; omega) (by simp; omega)
    · cases h
  · intro sum
    have lower := c.le_toInt
    have upper := c.toInt_lt
    rw [if_pos (by omega)]
    congr 1
    apply Int64.toInt.inj
    rw [Int64.toInt_add, sum]
    exact Int.bmod_eq_of_le (by simp; omega) (by simp; omega)

end SignedWord
