import ColdStart.Translation.Area

/-! The tables by number. The number of a table is how many come before it, and the numbers
go on for last-level tables that the area has no room for. All that is said of names, places
and byte offsets comes down to them: a table starts as many pages in as come before it,
unless that is no word; it is one of the area's exactly if its number is small enough; and an
offset names the table whose number is the offset's page. -/
namespace ColdStart.TableId

/-- One of the tables that the area has. -/
def InArea : TableId → Prop
  | level0 | level1 | level2 => True
  | level3 n => n < sectionCount

instance : DecidablePred InArea
  | level0 | level1 | level2 => inferInstanceAs (Decidable True)
  | level3 n => inferInstanceAs (Decidable (n < sectionCount))

/-- How many tables come before it. -/
def number : TableId → Nat
  | level0 => 0
  | level1 => 1
  | level2 => 2
  | level3 n => n + 3

def ofNumber : Nat → TableId
  | 0 => level0
  | 1 => level1
  | 2 => level2
  | n + 3 => level3 n

/-- Where the table would start is no word. -/
def Overflows (table : TableId) : Prop :=
  table.offset = .error .mulOverflow ∨ table.offset = .error .addOverflow

variable {table other : TableId} {offset : Word}

@[simp] theorem ofNumber_number (table : TableId) : ofNumber table.number = table := by
  cases table <;> rfl

@[simp] theorem number_ofNumber : ∀ n, (ofNumber n).number = n
  | 0 | 1 | 2 => rfl
  | _ + 3 => rfl

theorem ofNumber_eq_iff {n : Nat} : ofNumber n = table ↔ n = table.number :=
  ⟨fun named => named ▸ (number_ofNumber n).symm, fun same => same ▸ ofNumber_number table⟩

theorem number_injective (same : table.number = other.number) : table = other := by
  rw [← ofNumber_number table, same, ofNumber_number]

theorem inArea_iff : table.InArea ↔ table.number < tableCount := by
  cases table with
  | level0 | level1 | level2 => exact iff_of_true trivial (by decide)
  | level3 n => exact (Nat.add_lt_add_iff_right (k := 3)).symm

/-- A table of the area is found at its number, and no other table is found at all. -/
theorem position_eq_ok_iff {place : Fin tableCount} :
    table.position = .ok place ↔ table.number = place := by
  have bound := place.isLt
  cases table with
  | level0 | level1 | level2 => simp [position, number, Fin.ext_iff]
  | level3 n =>
    simp only [tableCount] at bound
    by_cases within : n < sectionCount
    · simp [position, number, within, Fin.ext_iff, Nat.add_comm]
    · have far : n + 3 ≠ place := by omega
      simp [position, number, within, far]

theorem inArea_iff_position : table.InArea ↔ ∃ place, table.position = .ok place := by
  simp only [inArea_iff, position_eq_ok_iff]
  exact ⟨fun within => ⟨⟨_, within⟩, rfl⟩, fun ⟨place, same⟩ => same ▸ place.isLt⟩

/-- A table starts where the pages of those before it end. -/
theorem offset_eq_ok_iff :
    table.offset = .ok offset ↔ offset.toNat = pageSize.toNat * table.number := by
  cases table with
  | level0 | level1 | level2 =>
    rw [TableId.offset, Except.ok.injEq, eq_comm, ← BitVec.toNat_inj]
    rfl
  | level3 n =>
    have three : (3 * pageSize).toNat = 0x3000 := rfl
    rw [TableId.offset, number, toNat_pageSize]
    split
    · rename_i product
      rw [Word.add?_eq_ok_iff, three, Word.toNat_ofNat_of_lt product]
      omega
    · rename_i large
      refine iff_of_false (fun halted => ?_) fun same => large ?_
      · cases halted
      · have bound : offset.toNat < Word.count := offset.isLt
        omega

/-- No two tables start at one place. -/
theorem offset_injective (starts : table.offset = .ok offset) (here : other.offset = .ok offset) :
    table = other := by
  rw [offset_eq_ok_iff] at starts here
  exact number_injective (Nat.eq_of_mul_eq_mul_left (by decide) (starts.symm.trans here))

theorem offset_of_fits (fits : pageSize.toNat * table.number < Word.count) :
    table.offset = .ok (BitVec.ofNat 64 (pageSize.toNat * table.number)) :=
  offset_eq_ok_iff.mpr (Word.toNat_ofNat_of_lt fits)

theorem offset_of_inArea (inside : table.InArea) :
    table.offset = .ok (BitVec.ofNat 64 (pageSize.toNat * table.number)) := by
  apply offset_of_fits
  calc pageSize.toNat * table.number
    _ < pageSize.toNat * tableCount := Nat.mul_lt_mul_of_pos_left (inArea_iff.mp inside) (by decide)
    _ < Word.count := by decide

theorem overflows_iff : table.Overflows ↔ Word.count ≤ pageSize.toNat * table.number := by
  constructor
  · intro halted
    refine Nat.le_of_not_lt fun fits => ?_
    rw [Overflows, offset_of_fits fits] at halted
    rcases halted with product | sum
    · cases product
    · cases sum
  · intro large
    cases table with
    | level0 | level1 | level2 => exact absurd large (by decide)
    | level3 n =>
      have three : (3 * pageSize).toNat = 0x3000 := rfl
      rw [number, toNat_pageSize] at large
      rw [Overflows, TableId.offset, toNat_pageSize]
      split
      · rename_i product
        right
        apply Word.add?_error
        rw [three, Word.toNat_ofNat_of_lt product]
        omega
      · exact Or.inl rfl

theorem ofOffset?_eq (offset : Word) :
    ofOffset? offset =
      if offset.toNat % pageSize.toNat ≠ 0 ∨ areaSize.toNat ≤ offset.toNat then none
      else some (ofNumber (offset.toNat / pageSize.toNat)) := by
  have whole : offset % pageSize ≠ 0 ↔ offset.toNat % pageSize.toNat ≠ 0 := by
    rw [ne_eq, ← BitVec.toNat_inj, BitVec.toNat_umod]
    exact Iff.rfl
  have page : (offset >>> pageShift).toNat = offset.toNat / pageSize.toNat :=
    Nat.shiftRight_eq_div_pow _ _
  unfold ofOffset?
  simp only [whole, BitVec.le_def, page]
  match offset.toNat / pageSize.toNat with
  | 0 | 1 | 2 => rfl
  | _ + 3 => rfl

theorem ofOffset?_eq_none_iff :
    ofOffset? offset = none ↔ offset.toNat % pageSize.toNat ≠ 0 ∨ areaSize ≤ offset := by
  rw [ofOffset?_eq, BitVec.le_def]
  split
  · rename_i outside
    exact iff_of_true rfl outside
  · rename_i inside
    exact iff_of_false (Option.some_ne_none _) inside

/-- An offset names the table of the area that starts there. -/
theorem ofOffset?_eq_some_iff :
    ofOffset? offset = some table ↔
      table.InArea ∧ offset.toNat = pageSize.toNat * table.number := by
  rw [ofOffset?_eq, inArea_iff, toNat_areaSize_eq, toNat_pageSize]
  split
  · rename_i outside
    exact iff_of_false (Option.some_ne_none _).symm (by omega)
  · rename_i inside
    rw [Option.some.injEq, ofNumber_eq_iff]
    omega

theorem ofOffset?_eq_some_iff_offset :
    ofOffset? offset = some table ↔ table.InArea ∧ table.offset = .ok offset := by
  rw [ofOffset?_eq_some_iff, offset_eq_ok_iff]

end ColdStart.TableId
