import ColdStart.Address.Geometry
import ColdStart.Word.Checked

/-! The area of the boot tables: five tables one after another, the first three
levels once each and a table of the last level for every section of the window.
A table is named by its place in the scheme, and the name of a last-level table
may be any number; only those of the window's sections have a place in the area.
Names and byte offsets correspond one to one on the area. -/
namespace ColdStart

inductive TableId
  | level0
  | level1
  | level2
  /-- The last-level table of one section. -/
  | level3 (index : Nat)
deriving DecidableEq

def tableCount : Nat := 3 + sectionCount

def areaEntries : Nat := tableCount * entriesPerTable

def areaSize : Word := 0x5000

theorem toNat_areaSize : areaSize.toNat = 0x5000 := rfl

/-- A table takes up a page. -/
theorem toNat_areaSize_eq : areaSize.toNat = pageSize.toNat * tableCount := rfl

namespace TableId

def inspect : TableId → String
  | level0 => "Level0"
  | level1 => "Level1"
  | level2 => "Level2"
  | level3 n => "Level3(" ++ toString n ++ ")"

/-- The number of a table by its place in the area. -/
def position : TableId → Except Halt (Fin tableCount)
  | level0 => .ok ⟨0, by decide⟩
  | level1 => .ok ⟨1, by decide⟩
  | level2 => .ok ⟨2, by decide⟩
  | level3 n =>
    if within : n < sectionCount then
      .ok ⟨3 + n, Nat.add_lt_add_left within 3⟩
    else
      .error (.indexOutOfBounds sectionCount n)

/-- Byte offset of the table from the start of the area. -/
def offset : TableId → Except Halt Word
  | level0 => .ok 0
  | level1 => .ok pageSize
  | level2 => .ok (2 * pageSize)
  | level3 n =>
    if n * pageSize.toNat < Word.count then
      Word.add? (3 * pageSize) (BitVec.ofNat 64 (n * pageSize.toNat))
    else
      .error .mulOverflow

/-- The table that starts at a byte offset of the area. -/
def ofOffset? (offset : Word) : Option TableId :=
  if offset % pageSize ≠ 0 ∨ areaSize ≤ offset then
    none
  else
    match (offset >>> pageShift).toNat with
    | 0 => some level0
    | 1 => some level1
    | 2 => some level2
    | n => some (level3 (n - 3))

end TableId

/-- The entry that is `index` places into table number `table`. -/
def slotOf (table : Fin tableCount) (index : Fin entriesPerTable) : Fin areaEntries :=
  ⟨table * entriesPerTable + index, by
    have t := table.isLt
    have i := index.isLt
    simp only [areaEntries, tableCount, sectionCount, entriesPerTable] at *
    omega⟩

structure TableArea where
  words : Vector Word areaEntries
deriving DecidableEq

inductive Store
  /-- Every entry of every table becomes zero. -/
  | clear
  | entry (table : Fin tableCount) (index : Fin entriesPerTable) (word : Word)
deriving DecidableEq

namespace TableArea

def empty : TableArea :=
  ⟨Vector.replicate areaEntries 0⟩

def get (area : TableArea) (table : Fin tableCount) (index : Fin entriesPerTable) : Word :=
  area.words[slotOf table index]

def set (area : TableArea) (table : Fin tableCount) (index : Fin entriesPerTable) (word : Word) :
    TableArea :=
  ⟨area.words.set (slotOf table index) word⟩

def apply (area : TableArea) : Store → TableArea
  | .clear => empty
  | .entry table index word => area.set table index word

def applyAll (area : TableArea) (stores : List Store) : TableArea :=
  stores.foldl apply area

def entry (area : TableArea) (table : TableId) (index : Nat) : Except Halt Word := do
  let place ← table.position
  if within : index < entriesPerTable then
    return area.get place ⟨index, within⟩
  else
    throw (.indexOutOfBounds entriesPerTable index)

/-- The entries of a table that have the valid bit, with their indices. -/
def validEntries (area : TableArea) (table : TableId) : Except Halt (List (Nat × Word)) := do
  let place ← table.position
  return (List.finRange entriesPerTable).filterMap fun i =>
    let raw := area.get place i
    if raw.getLsbD 0 then some (i.val, raw) else none

/-- The area with eight bytes stored at a byte offset, if the offset is a
multiple of eight within the area. -/
def storeAt? (area : TableArea) (offset : Word) (word : Word) : Option TableArea :=
  if offset.toNat % 8 = 0 then
    if within : offset.toNat / 8 < areaEntries then
      some ⟨area.words.set (offset.toNat / 8) word⟩
    else
      none
  else
    none

theorem slotOf_injective {s t : Fin tableCount} {i j : Fin entriesPerTable}
    (same : slotOf s i = slotOf t j) : s = t ∧ i = j := by
  have places := congrArg Fin.val same
  have ib := i.isLt
  have jb := j.isLt
  simp only [slotOf, entriesPerTable] at places ib jb
  exact ⟨Fin.ext (by omega), Fin.ext (by omega)⟩

@[simp] theorem get_empty (t : Fin tableCount) (i : Fin entriesPerTable) : empty.get t i = 0 := by
  simp [get, empty]

theorem get_set (area : TableArea) (s t : Fin tableCount) (i j : Fin entriesPerTable) (w : Word) :
    (area.set s i w).get t j = if s = t ∧ i = j then w else area.get t j := by
  by_cases same : s = t ∧ i = j
  · obtain ⟨rfl, rfl⟩ := same
    simp [get, set]
  · have apart : slotOf s i ≠ slotOf t j := fun h => same (slotOf_injective h)
    have places : (slotOf s i).val ≠ (slotOf t j).val := fun h => apart (Fin.ext h)
    simp [get, set, same, places]

end TableArea
end ColdStart
