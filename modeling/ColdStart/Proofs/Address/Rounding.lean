import ColdStart.Address.Physical
import Mathlib.Order.Bounds.Basic
import Mathlib.Tactic.NormNum

/-! Rounding to multiples of a power of two. The bits that rounding down clears are the
remainder, so the greatest multiple that is not above the address is left. Rounding up adds
one less than the step before it clears. That sum leaves the word exactly where the least
multiple that is not below the address does, since the number of words is a multiple of the
step as well: so it halts there and nowhere else. That rounding again changes nothing, that
it keeps the order and that it leaves just the multiples alone follows from what the results
are, whatever bits they are made of. -/
namespace ColdStart

/-- The greatest multiple of `step` that is not above `a`. -/
def IsFloor (step a r : Nat) : Prop :=
  IsGreatest {m | step ∣ m ∧ m ≤ a} r

/-- The least multiple of `step` that is not below `a`. -/
def IsCeiling (step a r : Nat) : Prop :=
  IsLeast {m | step ∣ m ∧ a ≤ m} r

section Multiples
variable {step a b r : Nat}

theorem isFloor_div_mul (positive : 0 < step) : IsFloor step a (a / step * step) := by
  refine ⟨⟨Nat.dvd_mul_left _ _, Nat.div_mul_le_self _ _⟩, ?_⟩
  rintro m ⟨⟨q, rfl⟩, below⟩
  have quotient : q ≤ a / step := (Nat.le_div_iff_mul_le positive).mpr (by rwa [Nat.mul_comm])
  calc step * q = q * step := Nat.mul_comm _ _
    _ ≤ a / step * step := Nat.mul_le_mul_right _ quotient

theorem isCeiling_div_mul (positive : 0 < step) :
    IsCeiling step a ((a + (step - 1)) / step * step) := by
  have parts := Nat.div_add_mod' (a + (step - 1)) step
  have rest := Nat.mod_lt (a + (step - 1)) positive
  refine ⟨⟨Nat.dvd_mul_left _ _, by omega⟩, ?_⟩
  rintro m ⟨⟨q, rfl⟩, above⟩
  have quotient : (a + (step - 1)) / step < q + 1 := by
    rw [Nat.div_lt_iff_lt_mul positive, Nat.succ_mul, Nat.mul_comm]
    omega
  calc (a + (step - 1)) / step * step ≤ q * step :=
        Nat.mul_le_mul_right _ (Nat.lt_succ_iff.mp quotient)
    _ = step * q := Nat.mul_comm _ _

theorem isFloor_iff (positive : 0 < step) : IsFloor step a r ↔ r = a / step * step :=
  ⟨fun floor => floor.unique (isFloor_div_mul positive),
    fun same => same ▸ isFloor_div_mul positive⟩

theorem isFloor_self_iff : IsFloor step a a ↔ step ∣ a :=
  ⟨fun floor => floor.1.1, fun multiple => ⟨⟨multiple, Nat.le_refl a⟩, fun _ m => m.2⟩⟩

theorem isCeiling_self_iff : IsCeiling step a a ↔ step ∣ a :=
  ⟨fun ceiling => ceiling.1.1, fun multiple => ⟨⟨multiple, Nat.le_refl a⟩, fun _ m => m.2⟩⟩

theorem IsFloor.mono {s : Nat} (le : a ≤ b) (floor : IsFloor step a r)
    (other : IsFloor step b s) : r ≤ s :=
  IsGreatest.mono floor other fun _ m => ⟨m.1, m.2.trans le⟩

theorem IsCeiling.mono {s : Nat} (le : a ≤ b) (ceiling : IsCeiling step a r)
    (other : IsCeiling step b s) : r ≤ s :=
  IsLeast.mono other ceiling fun _ m => ⟨m.1, le.trans m.2⟩

/-- The least multiple is within a bound that is a multiple itself exactly if the sum that
is rounded down is. -/
theorem ceiling_lt_iff {bound : Nat} (positive : 0 < step) (divides : step ∣ bound) :
    (a + (step - 1)) / step * step < bound ↔ a + (step - 1) < bound := by
  have parts := Nat.div_add_mod' (a + (step - 1)) step
  constructor
  · intro within
    obtain ⟨q, rfl⟩ := divides
    -- Both are multiples, so a whole step lies between them.
    have next : (a + (step - 1)) / step + 1 ≤ q := by
      rw [Nat.mul_comm] at within
      exact Nat.lt_of_mul_lt_mul_left within
    have room := Nat.mul_le_mul_left step next
    have rest := Nat.mod_lt (a + (step - 1)) positive
    rw [Nat.mul_add, Nat.mul_one, Nat.mul_comm step (_ / _)] at room
    omega
  · intro within
    omega

end Multiples

namespace Word
variable {step : Word} {k : Nat}

theorem pos_of_power (power : step.toNat = 2 ^ k) : 0 < step.toNat :=
  power ▸ Nat.two_pow_pos k

theorem one_le_of_power (power : step.toNat = 2 ^ k) : (1 : Word) ≤ step :=
  BitVec.le_def.mpr (pos_of_power power)

theorem sub?_one (power : step.toNat = 2 ^ k) : sub? step 1 = .ok (step - 1) :=
  sub?_ok (one_le_of_power power)

theorem toNat_sub_one (power : step.toNat = 2 ^ k) : (step - 1).toNat = 2 ^ k - 1 := by
  rw [BitVec.toNat_sub_of_le (one_le_of_power power), power]
  rfl

theorem power_dvd_count (power : step.toNat = 2 ^ k) : step.toNat ∣ count := by
  have bound : 2 ^ k < 2 ^ 64 := power ▸ step.isLt
  have exponent : k < 64 := (Nat.pow_lt_pow_iff_right (by decide)).mp bound
  rw [power]
  exact Nat.pow_dvd_pow 2 exponent.le

/-- The bits below a power of two are the remainder. -/
theorem toNat_and_low (power : step.toNat = 2 ^ k) (a : Word) :
    (a &&& (step - 1)).toNat = a.toNat % step.toNat := by
  rw [BitVec.toNat_and, toNat_sub_one power, power]
  exact Nat.and_two_pow_sub_one_eq_mod a.toNat k

/-- A mask divides a word into two parts that add up to it. -/
theorem toNat_and_not (a mask : Word) :
    (a &&& ~~~mask).toNat + (a &&& mask).toNat = a.toNat := by
  have apart : (a &&& ~~~mask) &&& (a &&& mask) = 0 := by
    ext i
    simp +contextual
  have joined : (a &&& ~~~mask) + (a &&& mask) = a := by
    rw [BitVec.add_eq_or_of_and_eq_zero _ _ apart]
    ext i
    simp [← Bool.and_or_distrib_left]
  rw [← BitVec.toNat_add_of_and_eq_zero apart, joined]

/-- Clearing the bits below takes the remainder away. -/
theorem toNat_and_high (power : step.toNat = 2 ^ k) (a : Word) :
    (a &&& ~~~(step - 1)).toNat = a.toNat / step.toNat * step.toNat := by
  have parts := toNat_and_not a (step - 1)
  have quotient := Nat.div_add_mod' a.toNat step.toNat
  rw [toNat_and_low power] at parts
  omega

end Word

section Power
variable {step : Word} {k : Nat} {a b r : Word}

theorem roundDown_eq (power : step.toNat = 2 ^ k) (a : Word) :
    roundDown a step = .ok (a &&& ~~~(step - 1)) := by
  rw [roundDown, Word.sub?_one power]
  rfl

theorem roundDown_eq_ok_iff (power : step.toNat = 2 ^ k) :
    roundDown a step = .ok r ↔ IsFloor step.toNat a.toNat r.toNat := by
  rw [roundDown_eq power, Except.ok.injEq, ← BitVec.toNat_inj, Word.toNat_and_high power,
    isFloor_iff (Word.pos_of_power power), eq_comm]

/-- Rounding up adds first, and it is the sum that has to fit. -/
theorem roundUp_eq (power : step.toNat = 2 ^ k) (a : Word) :
    roundUp a step =
      if a.toNat + (step.toNat - 1) < Word.count then roundDown (a + (step - 1)) step
      else .error .addOverflow := by
  rw [roundUp, Word.sub?_one power, power, ← Word.toNat_sub_one power]
  change (Word.add? a (step - 1) >>= fun raised => roundDown raised step) = _
  unfold Word.add?
  split
  · rfl
  · rfl

theorem roundUp_of_ceiling (power : step.toNat = 2 ^ k) {c : Nat}
    (ceiling : IsCeiling step.toNat a.toNat c) :
    roundUp a step = if c < Word.count then .ok (BitVec.ofNat 64 c) else .error .addOverflow := by
  have positive := Word.pos_of_power power
  have value := ceiling.unique (isCeiling_div_mul positive)
  have fits := ceiling_lt_iff (a := a.toNat) positive (Word.power_dvd_count power)
  rw [← value] at fits
  rw [roundUp_eq power, if_congr fits.symm rfl rfl]
  split
  · rename_i within
    have sum : (a + (step - 1)).toNat = a.toNat + (step.toNat - 1) := by
      rw [BitVec.toNat_add, Word.toNat_sub_one power, ← power]
      exact Nat.mod_eq_of_lt (fits.mp within)
    have held := Word.toNat_ofNat_of_lt within
    rw [roundDown_eq_ok_iff power, isFloor_iff positive, sum, held]
    exact value
  · rfl

theorem roundUp_eq_ok_iff (power : step.toNat = 2 ^ k) :
    roundUp a step = .ok r ↔ IsCeiling step.toNat a.toNat r.toNat := by
  constructor
  · intro rounded
    have least := isCeiling_div_mul (a := a.toNat) (Word.pos_of_power power)
    rw [roundUp_of_ceiling power least] at rounded
    split at rounded
    · rename_i within
      cases rounded
      rw [Word.toNat_ofNat_of_lt within]
      exact least
    · cases rounded
  · intro ceiling
    have within : r.toNat < Word.count := r.isLt
    rw [roundUp_of_ceiling power ceiling, if_pos within, BitVec.ofNat_toNat, BitVec.setWidth_eq]

theorem PhysAddr.isMultiple_of_power (power : step.toNat = 2 ^ k) (pa : PhysAddr) :
    pa.isMultiple step = .ok (decide (step.toNat ∣ pa.word.toNat)) := by
  have same : (pa.word &&& (step - 1) == 0) = decide (step.toNat ∣ pa.word.toNat) := by
    rw [Bool.eq_iff_iff, beq_iff_eq, decide_eq_true_iff, Nat.dvd_iff_mod_eq_zero,
      ← Word.toNat_and_low power]
    exact BitVec.toNat_inj.symm
  unfold isMultiple
  rw [Word.sub?_one power, ← same]
  rfl

end Power

/-- What rounding to multiples of a step is to do, for every address. -/
structure RoundsExactly (step : Word) : Prop where
  down : ∀ a, ∃ r, roundDown a step = .ok r ∧ IsFloor step.toNat a.toNat r.toNat
  /-- The least multiple is the answer if it is a word, and the only halt is that it is none. -/
  up : ∀ a, ∃ c, IsCeiling step.toNat a.toNat c ∧
    roundUp a step = if c < Word.count then .ok (BitVec.ofNat 64 c) else .error .addOverflow
  down_again : ∀ a r, roundDown a step = .ok r → roundDown r step = .ok r
  up_again : ∀ a r, roundUp a step = .ok r → roundUp r step = .ok r
  down_mono : ∀ a b r s, a ≤ b → roundDown a step = .ok r → roundDown b step = .ok s → r ≤ s
  /-- Below an address that is rounded up every address is. -/
  up_mono : ∀ a b s, a ≤ b → roundUp b step = .ok s → ∃ r, roundUp a step = .ok r ∧ r ≤ s
  /-- The multiples are the addresses that neither way of rounding changes. -/
  multiple : ∀ pa : PhysAddr, ∃ answer, pa.isMultiple step = .ok answer ∧
    (answer = true ↔ pa.roundDown step = .ok pa) ∧ (answer = true ↔ pa.roundUp step = .ok pa)
  address : ∀ pa : PhysAddr, pa.roundDown step = (roundDown pa.word step).map PhysAddr.mk ∧
    pa.roundUp step = (roundUp pa.word step).map PhysAddr.mk

/-- Rounding an address as such changes it exactly where rounding its word does. -/
theorem PhysAddr.map_mk_eq_ok_iff {x : Except Halt Word} {pa : PhysAddr} :
    x.map PhysAddr.mk = .ok pa ↔ x = .ok pa.word := by
  cases x with
  | error e => simp [Except.map]
  | ok w => cases pa; simp [Except.map]

/-- Rounding to multiples of any power of two that is a word is exact, and rounding up halts
only where no word could be the answer. -/
theorem roundsExactly_of_power {step : Word} {k : Nat} (power : step.toNat = 2 ^ k) :
    RoundsExactly step where
  down a := by
    have rounded := roundDown_eq power a
    exact ⟨_, rounded, (roundDown_eq_ok_iff power).mp rounded⟩
  up a := by
    have least := isCeiling_div_mul (a := a.toNat) (Word.pos_of_power power)
    exact ⟨_, least, roundUp_of_ceiling power least⟩
  down_again a r rounded := by
    rw [roundDown_eq_ok_iff power] at rounded ⊢
    exact isFloor_self_iff.mpr rounded.1.1
  up_again a r rounded := by
    rw [roundUp_eq_ok_iff power] at rounded ⊢
    exact isCeiling_self_iff.mpr rounded.1.1
  down_mono a b r s le rounded other := by
    rw [roundDown_eq_ok_iff power] at rounded other
    exact rounded.mono le other
  up_mono a b s le rounded := by
    rw [roundUp_eq_ok_iff power] at rounded
    have least := isCeiling_div_mul (a := a.toNat) (Word.pos_of_power power)
    have below := least.mono le rounded
    have within := Nat.lt_of_le_of_lt below s.isLt
    refine ⟨_, (roundUp_of_ceiling power least).trans (if_pos within), ?_⟩
    rw [BitVec.le_def]
    exact (Nat.mod_le _ _).trans below
  multiple pa := by
    refine ⟨_, PhysAddr.isMultiple_of_power power pa, ?_, ?_⟩
    · rw [decide_eq_true_iff]
      exact (isFloor_self_iff.symm.trans (roundDown_eq_ok_iff power).symm).trans
        PhysAddr.map_mk_eq_ok_iff.symm
    · rw [decide_eq_true_iff]
      exact (isCeiling_self_iff.symm.trans (roundUp_eq_ok_iff power).symm).trans
        PhysAddr.map_mk_eq_ok_iff.symm
  address _ := ⟨rfl, rfl⟩

/-- The greatest step there is leaves two multiples that are words. -/
theorem roundsExactly_half : (0x8000000000000000 : Word).toNat = 2 ^ 63 ∧
    RoundsExactly 0x8000000000000000 :=
  ⟨by decide, roundsExactly_of_power (show (0x8000000000000000 : Word).toNat = 2 ^ 63 by decide)⟩

end ColdStart
