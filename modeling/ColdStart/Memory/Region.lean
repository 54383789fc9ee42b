import ColdStart.Memory.Kind
import ColdStart.Text
import ColdStart.Word.Checked

/-! Regions: runs of physical memory of one kind. A region is any start and size;
whether it ends within the word is known only where its end is asked for. Where a
region holds an address or reaches past the window, a difference decides, which is
taken only of a greater word and a smaller one. -/
namespace ColdStart

structure Region where
  start : Word
  size : Word
  memory : MemoryKind
deriving DecidableEq

namespace Region

/-- The address after the last byte. -/
def stop (r : Region) : Except Halt Word :=
  Word.add? r.start r.size

def holds (r : Region) (a : Word) : Bool :=
  r.start ≤ a && a - r.start < r.size

/-- `holds` with its difference checked. -/
def holds? (r : Region) (a : Word) : Except Halt Bool := do
  if r.start ≤ a then
    return (← Word.sub? a r.start) < r.size
  else
    return false

/-- Each region begins before the other ends. -/
def overlaps (r s : Region) : Except Halt Bool := do
  if r.start < (← s.stop) then
    return s.start < (← r.stop)
  else
    return false

/-- What is wrong with the region by itself, as the one at `index`. -/
def defect? (r : Region) (index : Nat) : Option Defect :=
  if r.size = 0 then
    some (.zeroSized index)
  else if r.start % pageSize ≠ 0 ∨ r.size % pageSize ≠ 0 then
    some (.misaligned index)
  else if windowSize ≤ r.start ∨ windowSize - r.start < r.size then
    some (.outsideWindow index)
  else
    none

/-- The region reaches past `top`. -/
def exceeds? (r : Region) (top : Word) : Except Halt Bool := do
  if top ≤ r.start then
    return true
  else
    return (← Word.sub? top r.start) < r.size

/-- `defect?` with its difference checked. -/
def checkedDefect? (r : Region) (index : Nat) : Except Halt (Option Defect) := do
  if r.size = 0 then
    return some (.zeroSized index)
  else if r.start % pageSize ≠ 0 ∨ r.size % pageSize ≠ 0 then
    return some (.misaligned index)
  else if ← r.exceeds? windowSize then
    return some (.outsideWindow index)
  else
    return none

def inspect (r : Region) : String :=
  Text.record "Region"
    [("start", toString r.start.toNat), ("size", toString r.size.toNat), ("memory", r.memory.label)]

theorem holds_iff {r : Region} {a : Word} :
    r.holds a ↔ r.start.toNat ≤ a.toNat ∧ a.toNat < r.start.toNat + r.size.toNat := by
  simp only [holds, Bool.and_eq_true, decide_eq_true_eq, BitVec.le_def, BitVec.lt_def]
  constructor
  · rintro ⟨low, high⟩
    rw [BitVec.toNat_sub_of_le (BitVec.le_def.mpr low)] at high
    omega
  · rintro ⟨low, high⟩
    rw [BitVec.toNat_sub_of_le (BitVec.le_def.mpr low)]
    omega

/-- The difference that `holds` takes is always there. -/
theorem holds?_eq (r : Region) (a : Word) : r.holds? a = .ok (r.holds a) := by
  by_cases low : r.start ≤ a
  · rw [holds?, holds, if_pos low, decide_eq_true low, Word.sub?_ok low]
    rfl
  · rw [holds?, holds, if_neg low, decide_eq_false low]
    rfl

theorem exceeds?_eq (r : Region) (top : Word) :
    r.exceeds? top = .ok (decide (top ≤ r.start ∨ top - r.start < r.size)) := by
  by_cases above : top ≤ r.start
  · rw [exceeds?, if_pos above, decide_eq_true (.inl above)]
    rfl
  · have below := BitVec.le_of_lt (BitVec.not_le.mp above)
    rw [exceeds?, if_neg above, Word.sub?_ok below]
    simp only [bind, Except.bind, above, false_or]
    rfl

/-- The difference that `defect?` takes is always there. -/
theorem checkedDefect?_eq (r : Region) (index : Nat) :
    r.checkedDefect? index = .ok (r.defect? index) := by
  unfold checkedDefect? defect?
  by_cases empty : r.size = 0
  · rw [if_pos empty, if_pos empty]
    rfl
  by_cases misaligned : r.start % pageSize ≠ 0 ∨ r.size % pageSize ≠ 0
  · rw [if_neg empty, if_neg empty, if_pos misaligned, if_pos misaligned]
    rfl
  rw [if_neg empty, if_neg empty, if_neg misaligned, if_neg misaligned, exceeds?_eq]
  by_cases outside : windowSize ≤ r.start ∨ windowSize - r.start < r.size
  · rw [decide_eq_true outside, if_pos outside]
    rfl
  · rw [decide_eq_false outside, if_neg outside]
    rfl

end Region
end ColdStart
