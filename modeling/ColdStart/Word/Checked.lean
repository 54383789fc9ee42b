import ColdStart.Halt

/-! Checked arithmetic on words. A sum, difference or product that leaves the word's
range halts the computation instead of wrapping, so that a computation never halts is
a statement about its operands. -/
namespace ColdStart.Word

def add? (a b : Word) : Except Halt Word :=
  if a.toNat + b.toNat < count then .ok (a + b) else .error .addOverflow

def sub? (a b : Word) : Except Halt Word :=
  if b ≤ a then .ok (a - b) else .error .subOverflow

def mul? (a b : Word) : Except Halt Word :=
  if a.toNat * b.toNat < count then .ok (a * b) else .error .mulOverflow

/-- The sum, or the greatest word where the sum is none. -/
def addClamped (a b : Word) : Word :=
  if a.toNat + b.toNat < count then a + b else BitVec.allOnes 64

/-- A number that is small enough is held as it is. -/
theorem toNat_ofNat_of_lt {n : Nat} (fits : n < count) : (BitVec.ofNat 64 n).toNat = n :=
  Nat.mod_eq_of_lt fits

theorem add?_ok {a b : Word} (fits : a.toNat + b.toNat < count) : add? a b = .ok (a + b) :=
  if_pos fits

theorem add?_error {a b : Word} (large : count ≤ a.toNat + b.toNat) :
    add? a b = .error .addOverflow :=
  if_neg (Nat.not_lt.mpr large)

theorem toNat_of_add? {a b c : Word} (sum : add? a b = .ok c) :
    c.toNat = a.toNat + b.toNat := by
  unfold add? at sum
  split at sum
  · rename_i fits
    cases sum
    rw [BitVec.toNat_add]
    exact Nat.mod_eq_of_lt fits
  · cases sum

theorem add?_eq_ok_iff {a b c : Word} : add? a b = .ok c ↔ c.toNat = a.toNat + b.toNat := by
  refine ⟨toNat_of_add?, fun sum => ?_⟩
  have fits : add? a b = .ok (a + b) := add?_ok (sum ▸ c.isLt)
  rw [fits, Except.ok.injEq, ← BitVec.toNat_inj, sum, toNat_of_add? fits]

theorem sub?_ok {a b : Word} (le : b ≤ a) : sub? a b = .ok (a - b) :=
  if_pos le

theorem toNat_of_sub? {a b c : Word} (difference : sub? a b = .ok c) :
    c.toNat + b.toNat = a.toNat := by
  unfold sub? at difference
  split at difference
  · rename_i le
    cases difference
    rw [BitVec.toNat_sub_of_le le, Nat.sub_add_cancel le]
  · cases difference

theorem mul?_ok {a b : Word} (fits : a.toNat * b.toNat < count) : mul? a b = .ok (a * b) :=
  if_pos fits

end ColdStart.Word
