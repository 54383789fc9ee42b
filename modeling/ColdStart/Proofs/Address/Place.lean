import ColdStart.Address.Virtual
import ColdStart.Proofs.Address.Rounding
import Mathlib.Tactic.NormNum

/-! Where an address lies: in which page, at which place in each table, and in the
window or above it. Everything is brought down to quotients and remainders of the
address as a number. -/
namespace ColdStart

namespace PhysAddr

theorem isMultiple_page (a : PhysAddr) :
    a.isMultiple pageSize = .ok (decide (a.word.toNat % 0x1000 = 0)) := by
  have power : pageSize.toNat = 2 ^ 12 := rfl
  rw [isMultiple_of_power power, Except.ok.injEq, decide_eq_decide, Nat.dvd_iff_mod_eq_zero]
  rfl

end PhysAddr

namespace VirtAddr

theorem place_lt (v : VirtAddr) (level : Nat) :
    (v.word >>> indexShift level).toNat % entriesPerTable < entriesPerTable :=
  Nat.mod_lt _ (by decide)

/-- The place of the address in the table that a walk meets at a level. -/
def placeAt (v : VirtAddr) (level : Nat) : Fin entriesPerTable :=
  ⟨(v.word >>> indexShift level).toNat % entriesPerTable, v.place_lt level⟩

theorem index_ok (v : VirtAddr) {level : Nat} (present : level ≤ 3) :
    v.index level = .ok (v.placeAt level) :=
  if_pos present

theorem placeAt_val (v : VirtAddr) (level : Nat) :
    (v.placeAt level).val = v.word.toNat / 2 ^ indexShift level % 512 := by
  simp only [placeAt, BitVec.toNat_ushiftRight, Nat.shiftRight_eq_div_pow, entriesPerTable]

/-- The four places and the offset in the page, all from the region offset. -/
theorem places (v : VirtAddr) :
    (v.placeAt 0).val = v.regionOffset.toNat / 0x8000000000 ∧
    (v.placeAt 1).val = v.regionOffset.toNat / 0x40000000 % 512 ∧
    (v.placeAt 2).val = v.regionOffset.toNat / 0x200000 % 512 ∧
    (v.placeAt 3).val = v.regionOffset.toNat / 0x1000 % 512 := by
  simp only [placeAt_val, regionOffset_toNat, indexShift, pageShift, tableShift]
  omega

/-- An address is above the window exactly if it leaves the first entry of one of the
first two tables or the first two of the third. -/
theorem regionOffset_lt_window_iff (v : VirtAddr) :
    v.regionOffset < windowSize ↔
      (v.placeAt 0).val = 0 ∧ (v.placeAt 1).val = 0 ∧ (v.placeAt 2).val < sectionCount := by
  obtain ⟨first, second, third, _⟩ := v.places
  rw [first, second, third, BitVec.lt_def, toNat_windowSize, sectionCount]
  omega

/-- An address below 2^48 is the region offset of both its aliases. -/
theorem regionOffset_lowerAlias {a : PhysAddr} (small : a.word.toNat < 0x1000000000000) :
    a.lowerAlias.regionOffset = a.word := by
  apply BitVec.eq_of_toNat_eq
  rw [regionOffset_toNat]
  exact Nat.mod_eq_of_lt small

end VirtAddr

/-- A mask of ones from bit zero takes the remainder. -/
theorem Word.toNat_and_ones (w : Word) {shift : Nat} (small : shift < 64) :
    (w &&& (((1 <<< shift : Nat) : Word) - 1)).toNat = w.toNat % 2 ^ shift := by
  have bit : 2 ^ shift < 2 ^ 64 := Nat.pow_lt_pow_right (by decide) small
  have power : ((1 <<< shift : Nat) : Word).toNat = 2 ^ shift := by
    rw [BitVec.natCast_eq_ofNat, BitVec.toNat_ofNat, Nat.shiftLeft_eq, Nat.one_mul, Nat.mod_eq_of_lt bit]
  rw [Word.toNat_and_low power, power]

/-- Joining an aligned address with an offset below the alignment adds them. -/
theorem Word.toNat_or_low {base offset : Word} (shift : Nat) (aligned : base.toNat % 2 ^ shift = 0)
    (below : offset.toNat < 2 ^ shift) :
    (base ||| offset).toNat = base.toNat + offset.toNat := by
  obtain ⟨n, multiple⟩ := Nat.dvd_of_mod_eq_zero aligned
  rw [BitVec.toNat_or, multiple]
  exact (Nat.two_pow_add_eq_or_of_lt below n).symm

namespace VirtAddr

theorem toNat_upperAlias {a : PhysAddr} (small : a.word.toNat < 0x1000000000000) :
    a.upperAlias.word.toNat = 0xffff000000000000 + a.word.toNat := by
  have start : upperStart.toNat = 0xffff000000000000 := rfl
  rw [PhysAddr.upperAlias, BitVec.or_comm, Word.toNat_or_low 48 rfl small, start]

theorem regionOffset_upperAlias {a : PhysAddr} (small : a.word.toNat < 0x1000000000000) :
    a.upperAlias.regionOffset = a.word := by
  apply BitVec.eq_of_toNat_eq
  rw [regionOffset_toNat, toNat_upperAlias small]
  omega

end VirtAddr
end ColdStart
