import ColdStart.Address.Geometry

/-! Bit fields of a word. A field is a run of bits; reading brings it down to bit
zero, writing replaces exactly its own bits. Both are characterized bit by bit,
so that no later proof looks at masks or shifts: fields that share no bit do not
disturb one another, and a value that fits is read back as it was written. What is
relied on of accessors that a declaration of bit ranges stands for is said once, in
`Accessors`; the four here are such accessors, and any others do the same. -/
namespace ColdStart

structure Field where
  name : String
  low : Nat
  width : Nat
deriving DecidableEq

namespace Field

/-- Bit `i` of a word belongs to the field. -/
def Holds (f : Field) (i : Nat) : Prop :=
  f.low ≤ i ∧ i < f.low + f.width

instance (f : Field) (i : Nat) : Decidable (f.Holds i) :=
  inferInstanceAs (Decidable (_ ∧ _))

/-- The greatest value that the field has room for. -/
def greatest (f : Field) : Word :=
  (BitVec.allOnes f.width).setWidth 64

/-- The word whose set bits are those of the field. -/
def mask (f : Field) : Word :=
  f.greatest <<< f.low

def read (f : Field) (w : Word) : Word :=
  ((w >>> f.low).setWidth f.width).setWidth 64

def write (f : Field) (w v : Word) : Word :=
  (w &&& ~~~f.mask) ||| ((v <<< f.low) &&& f.mask)

/-- The lowest bit of the field, which for a flag is all of it. -/
def test (f : Field) (w : Word) : Bool :=
  w.getLsbD f.low

def put (f : Field) (w : Word) (b : Bool) : Word :=
  f.write w (if b then 1 else 0)

/-- The value has no bit beyond the field's width. -/
def Fits (f : Field) (v : Word) : Prop :=
  v >>> f.width = 0

instance (f : Field) (v : Word) : Decidable (f.Fits v) :=
  inferInstanceAs (Decidable (_ = _))

/-- The field has room for the number. -/
def Admits (f : Field) (n : Nat) : Prop :=
  n ≤ f.greatest.toNat

instance (f : Field) (n : Nat) : Decidable (f.Admits n) :=
  inferInstanceAs (Decidable (_ ≤ _))

/-- The fields have no bit in common. -/
def Apart (f g : Field) : Prop :=
  f.low + f.width ≤ g.low ∨ g.low + g.width ≤ f.low

instance (f g : Field) : Decidable (f.Apart g) :=
  inferInstanceAs (Decidable (_ ∨ _))

theorem getLsbD_greatest (f : Field) (i : Nat) :
    f.greatest.getLsbD i = decide (i < 64 ∧ i < f.width) := by
  by_cases a : i < 64 <;> simp [greatest, a]

theorem getLsbD_mask (f : Field) {i : Nat} (inside : i < 64) :
    f.mask.getLsbD i = decide (f.Holds i) := by
  by_cases below : i < f.low
  · simp [mask, Holds, inside, below, Nat.not_le.mpr below]
  · have start : f.low ≤ i := Nat.le_of_not_lt below
    simp [mask, greatest, Holds, inside, start, below]
    omega

theorem getLsbD_read (f : Field) (w : Word) (i : Nat) :
    (f.read w).getLsbD i = (decide (i < 64 ∧ i < f.width) && w.getLsbD (f.low + i)) := by
  by_cases a : i < 64 <;> by_cases b : i < f.width <;> simp [read, a, b]

/-- A field brought back to its place: the word without its other bits. -/
theorem read_shiftLeft (f : Field) (w : Word) (within : f.low + f.width ≤ 64) :
    f.read w <<< f.low = w &&& f.mask := by
  apply BitVec.eq_of_getLsbD_eq
  intro i inside
  rw [BitVec.getLsbD_shiftLeft, BitVec.getLsbD_and, getLsbD_mask f inside, getLsbD_read]
  by_cases held : f.Holds i
  · obtain ⟨lower, upper⟩ := held
    have own : i - f.low < 64 ∧ i - f.low < f.width := by omega
    simp [own, inside, Holds, lower, upper, Nat.not_lt.mpr lower]
  · have other : i < f.low ∨ ¬ i - f.low < f.width := by
      rw [Holds] at held
      omega
    rcases other with below | above
    · simp [held, below]
    · simp [held, above]

theorem getLsbD_write (f : Field) (w v : Word) {i : Nat} (inside : i < 64) :
    (f.write w v).getLsbD i = if f.Holds i then v.getLsbD (i - f.low) else w.getLsbD i := by
  simp only [write, BitVec.getLsbD_or, BitVec.getLsbD_and, BitVec.getLsbD_not,
    BitVec.getLsbD_shiftLeft, getLsbD_mask f inside, inside, decide_true, Bool.true_and]
  by_cases held : f.Holds i
  · simp [held, Nat.not_lt.mpr held.1]
  · simp [held]

/-- Cutting a value down to what the field has room for changes nothing of what is written. -/
theorem write_and_greatest (f : Field) (w v : Word) :
    f.write w (v &&& f.greatest) = f.write w v := by
  apply BitVec.eq_of_getLsbD_eq
  intro i inside
  rw [getLsbD_write f _ _ inside, getLsbD_write f _ _ inside]
  by_cases held : f.Holds i
  · have own : i - f.low < 64 ∧ i - f.low < f.width := by
      obtain ⟨lower, upper⟩ := held
      omega
    rw [if_pos held, if_pos held, BitVec.getLsbD_and, getLsbD_greatest, decide_eq_true own,
      Bool.and_true]
  · rw [if_neg held, if_neg held]

theorem admits_zero (f : Field) : f.Admits 0 :=
  Nat.zero_le _

theorem admits_and_greatest (f : Field) (w : Word) : f.Admits (w &&& f.greatest).toNat := by
  rw [Admits, BitVec.toNat_and]
  exact Nat.and_le_right

/-- A flag that is put changes its own bit alone. -/
theorem getLsbD_put (f : Field) (w : Word) (b : Bool) (flag : f.width = 1) {i : Nat}
    (inside : i < 64) : (f.put w b).getLsbD i = if f.Holds i then b else w.getLsbD i := by
  rw [put, getLsbD_write f w _ inside]
  by_cases held : f.Holds i
  · have own : i - f.low = 0 := by
      obtain ⟨lower, upper⟩ := held
      omega
    rw [if_pos held, if_pos held, own]
    cases b <;> rfl
  · rw [if_neg held, if_neg held]

/-- A written value that fits is read back. -/
theorem read_write (f : Field) (w v : Word) (within : f.low + f.width ≤ 64) (fits : f.Fits v) :
    f.read (f.write w v) = v := by
  apply BitVec.eq_of_getLsbD_eq
  intro i inside
  rw [getLsbD_read]
  by_cases own : i < f.width
  · have place : f.low + i < 64 := by omega
    have held : f.Holds (f.low + i) := ⟨Nat.le_add_right _ _, Nat.add_lt_add_left own _⟩
    rw [getLsbD_write f w v place, if_pos held, Nat.add_sub_cancel_left]
    simp [inside, own]
  · have shifted : (v >>> f.width).getLsbD (i - f.width) = false := by
      rw [show v >>> f.width = 0#64 from fits, BitVec.getLsbD_zero]
    rw [BitVec.getLsbD_ushiftRight, Nat.add_sub_cancel' (Nat.le_of_not_lt own)] at shifted
    simp [own, shifted]

/-- Writing one field leaves what another reads. -/
theorem read_write_of_apart (f g : Field) (w v : Word) (within : f.low + f.width ≤ 64)
    (apart : f.Apart g) : f.read (g.write w v) = f.read w := by
  apply BitVec.eq_of_getLsbD_eq
  intro i inside
  rw [getLsbD_read, getLsbD_read]
  by_cases own : i < f.width
  · have place : f.low + i < 64 := by omega
    have free : ¬ g.Holds (f.low + i) := by
      rintro ⟨lower, upper⟩
      rcases apart with before | after <;> omega
    rw [getLsbD_write g w v place, if_neg free]
  · simp [own]

/-- Of any written value, the bits that the field has room for are read back. -/
theorem read_write_cut (f : Field) (w v : Word) (within : f.low + f.width ≤ 64) :
    f.read (f.write w v) = (v.setWidth f.width).setWidth 64 := by
  apply BitVec.eq_of_getLsbD_eq
  intro i inside
  rw [getLsbD_read]
  by_cases own : i < f.width
  · have place : f.low + i < 64 := by omega
    have held : f.Holds (f.low + i) := ⟨Nat.le_add_right _ _, Nat.add_lt_add_left own _⟩
    rw [getLsbD_write f w v place, if_pos held, Nat.add_sub_cancel_left]
    simp [inside, own]
  · simp [own]

theorem test_write (f : Field) (w v : Word) (inside : f.low < 64) (some : 0 < f.width) :
    f.test (f.write w v) = v.getLsbD 0 := by
  have held : f.Holds f.low := ⟨Nat.le_refl _, Nat.lt_add_of_pos_right some⟩
  rw [test, getLsbD_write f w v inside, if_pos held, Nat.sub_self]

/-- Writing one field leaves what another tests. -/
theorem test_write_of_apart (f g : Field) (w v : Word) (inside : f.low < 64) (some : 0 < f.width)
    (apart : f.Apart g) : f.test (g.write w v) = f.test w := by
  have free : ¬ g.Holds f.low := by
    rintro ⟨lower, upper⟩
    rcases apart with before | after <;> omega
  rw [test, getLsbD_write g w v inside, if_neg free, test]

/-- What the accessors of declared bit ranges have to do. A getter brings the bits of its
range down to bit zero, and a setter gives them the bits of a value that fits and leaves all
others. The accessors of a flag do so with its one bit. -/
structure Accessors where
  get : Field → Word → Word
  set : Field → Word → Word → Word
  test : Field → Word → Bool
  put : Field → Word → Bool → Word
  get_bit : ∀ f w i, i < 64 → (get f w).getLsbD i = (decide (i < f.width) && w.getLsbD (f.low + i))
  set_bit : ∀ f w v i, f.Fits v → i < 64 →
    (set f w v).getLsbD i = if f.Holds i then v.getLsbD (i - f.low) else w.getLsbD i
  test_bit : ∀ f w, f.width = 1 → test f w = w.getLsbD f.low
  put_bit : ∀ f w b i, f.width = 1 → i < 64 →
    (put f w b).getLsbD i = if f.Holds i then b else w.getLsbD i

def accessors : Accessors where
  get := read
  set := write
  test := test
  put := put
  get_bit f w i inside := by
    rw [getLsbD_read, Bool.decide_and, decide_eq_true inside, Bool.true_and]
  set_bit f w v _ _ inside := getLsbD_write f w v inside
  test_bit _ _ _ := rfl
  put_bit f w b _ flag inside := getLsbD_put f w b flag inside

/-- Whatever accessors there are, they are these. -/
theorem Accessors.agree (a : Accessors) (f : Field) (w : Word) :
    a.get f w = f.read w ∧ (∀ v, f.Fits v → a.set f w v = f.write w v) ∧
    (f.width = 1 → a.test f w = f.test w ∧ ∀ b, a.put f w b = f.put w b) := by
  refine ⟨?_, ?_, ?_⟩
  · apply BitVec.eq_of_getLsbD_eq
    intro i inside
    exact (a.get_bit f w i inside).trans (accessors.get_bit f w i inside).symm
  · intro v fits
    apply BitVec.eq_of_getLsbD_eq
    intro i inside
    rw [a.set_bit f w v i fits inside, getLsbD_write f w v inside]
  · intro flag
    refine ⟨a.test_bit f w flag, fun b => ?_⟩
    apply BitVec.eq_of_getLsbD_eq
    intro i inside
    rw [a.put_bit f w b i flag inside, getLsbD_put f w b flag inside]

end Field
end ColdStart
