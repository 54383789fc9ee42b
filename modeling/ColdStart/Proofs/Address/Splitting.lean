import ColdStart.Proofs.Address.Place
import Mathlib.Data.Prod.Lex

/-! An address taken apart. Each level of the tables decides nine bits, and what a level and
those below it decide is the place at that level and what the next one decides. So the parts
are digits of the region offset: they give it back, and comparing them from the left compares
the offsets. The region comes first of all, because the canonical addresses of the upper one
are above those of the lower one. -/
namespace ColdStart

/-- Numbers with a digit split off at the end are compared by the rest first. -/
theorem lt_iff_quotient_first {b m n r s : Nat} (low : r < b) (low' : s < b) :
    m * b + r < n * b + s ↔ m < n ∨ m = n ∧ r < s := by
  rcases Nat.lt_trichotomy m n with below | rfl | above
  · have room := Nat.mul_le_mul_right b (Nat.succ_le_of_lt below)
    rw [Nat.succ_mul] at room
    omega
  · omega
  · have room := Nat.mul_le_mul_right b (Nat.succ_le_of_lt above)
    rw [Nat.succ_mul] at room
    omega

namespace VirtAddr

/-- The way to an address within its region: the places at the four levels and the offset in
the page, compared from the left. -/
abbrev Route :=
  Fin entriesPerTable ×ₗ Fin entriesPerTable ×ₗ Fin entriesPerTable ×ₗ Fin entriesPerTable ×ₗ Word

def route (v : VirtAddr) : Except Halt Route := do
  let first ← v.index 0
  let second ← v.index 1
  let third ← v.index 2
  let fourth ← v.index 3
  return toLex (first, toLex (second, toLex (third, toLex (fourth, v.pageOffset))))

theorem route_ok (v : VirtAddr) :
    v.route = .ok (toLex (v.placeAt 0, toLex (v.placeAt 1, toLex (v.placeAt 2,
      toLex (v.placeAt 3, v.pageOffset))))) :=
  rfl

/-- The bits of an address that the tables above bit `shift` leave open. -/
def below (v : VirtAddr) (shift : Nat) : Nat :=
  v.word.toNat % 2 ^ shift

theorem below_lt (v : VirtAddr) (shift : Nat) : v.below shift < 2 ^ shift :=
  Nat.mod_lt _ (Nat.two_pow_pos shift)

/-- A table decides its place of what the tables above it leave open. -/
theorem below_table (v : VirtAddr) (level : Nat) :
    v.below (indexShift level + tableShift) =
      (v.placeAt level).val * 2 ^ indexShift level + v.below (indexShift level) := by
  have size : 2 ^ tableShift = 512 := rfl
  rw [below, below, placeAt_val, Nat.pow_add, Nat.mod_mul, size]
  rw [Nat.mul_comm, Nat.add_comm]

theorem below_table_lt_iff (u v : VirtAddr) (level : Nat) :
    u.below (indexShift level + tableShift) < v.below (indexShift level + tableShift) ↔
      u.placeAt level < v.placeAt level ∨ u.placeAt level = v.placeAt level ∧
        u.below (indexShift level) < v.below (indexShift level) := by
  rw [below_table, below_table, lt_iff_quotient_first (u.below_lt _) (v.below_lt _), Fin.lt_def,
    Fin.ext_iff]

theorem below_page (v : VirtAddr) : v.below (indexShift 3) = v.pageOffset.toNat :=
  v.pageOffset_toNat.symm

theorem below_region (v : VirtAddr) : v.below addressBits = v.regionOffset.toNat :=
  v.regionOffset_toNat.symm

theorem regionOffset_lt (v : VirtAddr) : v.regionOffset.toNat < 0x1000000000000 := by
  rw [← below_region]
  exact v.below_lt addressBits

/-- The region offset, digit by digit. -/
theorem regionOffset_digits (v : VirtAddr) :
    v.regionOffset.toNat = (v.placeAt 0).val * 2 ^ 39 + (v.placeAt 1).val * 2 ^ 30 +
      (v.placeAt 2).val * 2 ^ 21 + (v.placeAt 3).val * 2 ^ 12 + v.pageOffset.toNat := by
  calc v.regionOffset.toNat
    _ = v.below (indexShift 0 + tableShift) := v.below_region.symm
    _ = (v.placeAt 0).val * 2 ^ 39 + v.below (indexShift 1 + tableShift) := v.below_table 0
    _ = (v.placeAt 0).val * 2 ^ 39 +
        ((v.placeAt 1).val * 2 ^ 30 + v.below (indexShift 2 + tableShift)) := by
      rw [v.below_table 1]
      rfl
    _ = (v.placeAt 0).val * 2 ^ 39 + ((v.placeAt 1).val * 2 ^ 30 +
        ((v.placeAt 2).val * 2 ^ 21 + v.below (indexShift 3 + tableShift))) := by
      rw [v.below_table 2]
      rfl
    _ = _ := by
      rw [v.below_table 3, v.below_page]
      simp only [Nat.add_assoc]
      rfl

/-- Offsets are compared as the ways to them are. -/
theorem regionOffset_lt_iff (u v : VirtAddr) {p q : Route} (way : u.route = .ok p)
    (way' : v.route = .ok q) : u.regionOffset < v.regionOffset ↔ p < q := by
  rw [route_ok] at way way'
  cases way
  cases way'
  simp only [Prod.Lex.toLex_lt_toLex]
  -- The last level takes in the page; the others then come apart from the first one down.
  rw [BitVec.lt_def, BitVec.lt_def, ← below_page, ← below_page, ← below_region, ← below_region]
  rw [← below_table_lt_iff u v 3]
  rw [show addressBits = indexShift 0 + tableShift from rfl, below_table_lt_iff u v 0]
  rw [show indexShift 0 = indexShift 1 + tableShift from rfl, below_table_lt_iff u v 1]
  rw [show indexShift 1 = indexShift 2 + tableShift from rfl, below_table_lt_iff u v 2]
  exact Iff.rfl

/-- A canonical address is its region offset, on top of the ones that are the upper region's. -/
theorem Canonical.toNat_word {v : VirtAddr} (canonical : v.Canonical) :
    v.word.toNat = (if v.isUpper then 0xffff else 0) * 0x1000000000000 + v.regionOffset.toNat := by
  have high : (v.word >>> addressBits).toNat = if v.isUpper then 0xffff else 0 := by
    rcases canonical with lower | upper
    · rw [isUpper, lower]
      rfl
    · rw [isUpper, upper]
      rfl
  rw [toNat_high] at high
  rw [← high, regionOffset_toNat]
  exact (Nat.div_add_mod' _ _).symm

theorem Canonical.lt_iff {u v : VirtAddr} (cu : u.Canonical) (cv : v.Canonical) :
    u.word < v.word ↔
      u.isUpper < v.isUpper ∨ u.isUpper = v.isUpper ∧ u.regionOffset < v.regionOffset := by
  rw [BitVec.lt_def, cu.toNat_word, cv.toNat_word,
    lt_iff_quotient_first u.regionOffset_lt v.regionOffset_lt, BitVec.lt_def]
  cases u.isUpper <;> cases v.isUpper <;> simp

theorem isUpper_iff (v : VirtAddr) : v.isUpper = true ↔ 0xffff000000000000 ≤ v.word.toNat := by
  have ones : (0xffff : Word).toNat = 0xffff := rfl
  have bound := v.word.isLt
  rw [isUpper, beq_iff_eq, ← BitVec.toNat_inj, toNat_high, ones]
  omega

/-- The way to an address depends on nothing but its region offset. -/
theorem route_congr {u v : VirtAddr} (same : u.regionOffset = v.regionOffset) :
    u.route = v.route := by
  obtain ⟨first, second, third, fourth⟩ := u.places
  obtain ⟨first', second', third', fourth'⟩ := v.places
  have zero : u.placeAt 0 = v.placeAt 0 := Fin.ext (by rw [first, first', same])
  have one : u.placeAt 1 = v.placeAt 1 := Fin.ext (by rw [second, second', same])
  have two : u.placeAt 2 = v.placeAt 2 := Fin.ext (by rw [third, third', same])
  have three : u.placeAt 3 = v.placeAt 3 := Fin.ext (by rw [fourth, fourth', same])
  have page : u.pageOffset = v.pageOffset := by
    have offsets := congrArg BitVec.toNat same
    rw [regionOffset_toNat, regionOffset_toNat] at offsets
    apply BitVec.eq_of_toNat_eq
    rw [pageOffset_toNat, pageOffset_toNat]
    omega
  rw [route_ok, route_ok, zero, one, two, three, page]

/-- Canonical addresses are in the order of their regions and, within a region, of the ways to
them. The places and the offset in the page spell out the region offset. An address below
2^48 has two aliases, one in each region, with itself as their offset and so one way to both. -/
theorem route_in_order :
    (∀ u v : VirtAddr, u.Canonical → v.Canonical → ∃ p q, u.route = .ok p ∧ v.route = .ok q ∧
      (u.word < v.word ↔ toLex (u.isUpper, p) < toLex (v.isUpper, q))) ∧
    (∀ v : VirtAddr, ∃ place : Fin 4 → Fin entriesPerTable,
      (∀ level : Fin 4, v.index level = .ok (place level)) ∧
      v.regionOffset.toNat = (place 0).val * 2 ^ 39 + (place 1).val * 2 ^ 30 +
        (place 2).val * 2 ^ 21 + (place 3).val * 2 ^ 12 + v.pageOffset.toNat) ∧
    (∀ pa : PhysAddr, pa.word.toNat < 2 ^ 48 →
      (∃ p, pa.lowerAlias.route = .ok p ∧ pa.upperAlias.route = .ok p) ∧
      pa.lowerAlias.regionOffset = pa.word ∧ pa.upperAlias.regionOffset = pa.word ∧
      pa.lowerAlias.isUpper = false ∧ pa.upperAlias.isUpper = true) := by
  refine ⟨?_, ?_, ?_⟩
  · intro u v cu cv
    refine ⟨_, _, u.route_ok, v.route_ok, ?_⟩
    rw [Prod.Lex.toLex_lt_toLex, cu.lt_iff cv, regionOffset_lt_iff u v u.route_ok v.route_ok]
  · intro v
    refine ⟨fun level => v.placeAt level, ?_, v.regionOffset_digits⟩
    intro level
    exact v.index_ok (Nat.le_of_lt_succ level.isLt)
  · intro pa small
    have lower := regionOffset_lowerAlias small
    have upper := regionOffset_upperAlias small
    refine ⟨⟨_, route_ok _, ?_⟩, lower, upper, ?_, ?_⟩
    · rw [route_congr (upper.trans lower.symm), route_ok]
    · rw [← Bool.not_eq_true, isUpper_iff]
      exact Nat.not_le.mpr (small.trans (by decide))
    · rw [isUpper_iff, toNat_upperAlias small]
      exact Nat.le_add_right _ _

/-- The last address of the lower region is below the first of the upper one, although the
way to it is the last of all and the way to the other the first. -/
theorem route_in_order_across_regions :
    (mk 0xffffffffffff).Canonical ∧ (mk 0xffff000000000000).Canonical ∧
    (∃ p q, (mk 0xffffffffffff).route = .ok p ∧ (mk 0xffff000000000000).route = .ok q ∧
      ((0xffffffffffff : Word) < 0xffff000000000000 ↔
        toLex ((mk 0xffffffffffff).isUpper, p) < toLex ((mk 0xffff000000000000).isUpper, q))) ∧
    (0xffffffffffff : Word).toNat < 2 ^ 48 ∧
    (PhysAddr.mk 0xffffffffffff).upperAlias.regionOffset = 0xffffffffffff := by
  have last : (mk 0xffffffffffff).Canonical := by decide
  have first : (mk 0xffff000000000000).Canonical := by decide
  have small : (0xffffffffffff : Word).toNat < 2 ^ 48 := by decide
  obtain ⟨ordered, -, aliased⟩ := route_in_order
  exact ⟨last, first, ordered _ _ last first, small, (aliased (.mk 0xffffffffffff) small).2.2.1⟩

end VirtAddr
end ColdStart
