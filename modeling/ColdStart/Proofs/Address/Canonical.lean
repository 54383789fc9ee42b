import ColdStart.Address.Virtual

/-! Which virtual addresses are canonical. A virtual address comes about in three ways, and
they owe it to different things. A word is taken only after its high bits have been looked
at. The alias in the upper region sets these bits itself, so of an address wider than the
region it drops what is too much. The alias in the lower region keeps the word as it is, so
it is canonical for the addresses that happen to be canonical already, and for no others. -/
namespace ColdStart

namespace VirtAddr

/-- The sixteen high bits are all `b`. -/
def HighBits (v : VirtAddr) (b : Bool) : Prop :=
  ∀ bit, 48 ≤ bit → bit < 64 → v.word.getLsbD bit = b

/-- High bits that are all alike, as the shift brings them down. -/
def high (b : Bool) : Word :=
  if b then 0xffff else 0

theorem getLsbD_high (b : Bool) {i : Nat} (inside : i < 64) :
    (high b).getLsbD i = (b && decide (i < 16)) := by
  cases b
  · exact BitVec.getLsbD_zero
  · have ones : high true = (BitVec.allOnes 16).setWidth 64 := rfl
    rw [ones, BitVec.getLsbD_setWidth, BitVec.getLsbD_allOnes, decide_eq_true inside]

theorem highBits_iff {v : VirtAddr} {b : Bool} : v.HighBits b ↔ v.word >>> addressBits = high b := by
  have width : addressBits = 48 := rfl
  constructor
  · intro all
    apply BitVec.eq_of_getLsbD_eq
    intro i inside
    rw [BitVec.getLsbD_ushiftRight, getLsbD_high b inside]
    by_cases low : i < 16
    · rw [all _ (by omega) (by omega), decide_eq_true low, Bool.and_true]
    · rw [BitVec.getLsbD_of_ge _ _ (by omega), decide_eq_false low, Bool.and_false]
  · intro shifted bit above below
    have brought : (v.word >>> addressBits).getLsbD (bit - addressBits) = v.word.getLsbD bit := by
      rw [BitVec.getLsbD_ushiftRight, Nat.add_sub_cancel' (by omega)]
    have low : decide (bit - addressBits < 16) = true := decide_eq_true (by omega)
    rw [← brought, shifted, getLsbD_high b (by omega), low, Bool.and_true]

theorem canonical_iff_highBits {v : VirtAddr} :
    v.Canonical ↔ v.HighBits false ∨ v.HighBits true := by
  rw [highBits_iff, highBits_iff]
  exact Iff.rfl

/-- By its value as a number a canonical address is at one of the two ends. -/
theorem canonical_iff_ends {v : VirtAddr} :
    v.Canonical ↔ v.word.toNat < 0x1000000000000 ∨ 0xffff000000000000 ≤ v.word.toNat := by
  have bound := v.word.isLt
  rw [Canonical, ← BitVec.toNat_inj, ← BitVec.toNat_inj, toNat_high]
  have none : (0 : Word).toNat = 0 := rfl
  have ones : (0xffff : Word).toNat = 0xffff := rfl
  rw [none, ones]
  omega

theorem highBits_upperAlias (pa : PhysAddr) : pa.upperAlias.HighBits true := by
  intro bit above below
  have start : upperStart = BitVec.allOnes 64 <<< 48 := rfl
  have set : upperStart.getLsbD bit = true := by
    rw [start, BitVec.getLsbD_shiftLeft, BitVec.getLsbD_allOnes, decide_eq_true below,
      decide_eq_false (Nat.not_lt.mpr above), decide_eq_true (by omega)]
    rfl
  rw [PhysAddr.upperAlias, BitVec.getLsbD_or, set, Bool.or_true]

/-- An address that was checked is canonical, and so is every alias in the upper region; an
alias in the lower region is canonical exactly if the physical address is below 2^48 or in
the last 2^48 bytes there are. It is the canonical ones that the check gives back. -/
theorem canonical_constructions (a : Word) (pa : PhysAddr) (v : VirtAddr) :
    (ofWord? a = .ok v → v.word = a ∧ (v.HighBits false ∨ v.HighBits true)) ∧
    pa.upperAlias.HighBits true ∧
    ((pa.lowerAlias.HighBits false ∨ pa.lowerAlias.HighBits true) ↔
      pa.word.toNat < 0x1000000000000 ∨ 0xffff000000000000 ≤ pa.word.toNat) ∧
    (ofWord? v.word = .ok v ↔ v.HighBits false ∨ v.HighBits true) := by
  simp only [← canonical_iff_highBits]
  refine ⟨ofWord?_eq_ok_iff.mp, highBits_upperAlias pa, canonical_iff_ends, ?_⟩
  rw [ofWord?_eq_ok_iff, and_iff_right rfl]

/-- The least physical address that the lower region has no room for has an alias there all
the same, which is not canonical and which the check refuses. -/
theorem lowerAlias_not_canonical :
    ¬ ((PhysAddr.mk 0x1000000000000).lowerAlias.HighBits false ∨
      (PhysAddr.mk 0x1000000000000).lowerAlias.HighBits true) ∧
    ofWord? (PhysAddr.mk 0x1000000000000).lowerAlias.word = .error ⟨0x1000000000000⟩ := by
  rw [← canonical_iff_highBits]
  exact ⟨by decide, rfl⟩

end VirtAddr
end ColdStart
