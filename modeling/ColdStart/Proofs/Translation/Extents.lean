import ColdStart.Proofs.Translation.Identity
import ColdStart.Proofs.Translation.Numbering
import Mathlib.Data.Set.Lattice
import Mathlib.Order.CompletePartialOrder

/-! The bytes of the tables. A table takes up the page that its offset begins, so the tables
lie one after another without a gap, and those of the area fill it. A table that the area has
no room for starts past its end or nowhere, and no offset names it. Every table that a walk
goes down to was named by an offset, so a walk never reads outside the area, whatever is
written in it and wherever it is said to be. -/
namespace ColdStart

namespace TableId
variable {table : TableId} {a : Nat}

/-- The bytes that a table takes up, by their offsets in the area. -/
def extent (table : TableId) : Set Nat :=
  {a | ∃ start, table.offset = .ok start ∧ a ∈ Set.Ico start.toNat (start.toNat + pageSize.toNat)}

/-- The page that a byte lies in is the number of its table. -/
theorem number_of_mem_extent (within : a ∈ table.extent) : table.number = a / pageSize.toNat := by
  obtain ⟨start, starts, from_start, to_end⟩ := within
  rw [offset_eq_ok_iff, toNat_pageSize] at starts
  rw [toNat_pageSize] at to_end ⊢
  omega

theorem mem_extent_iff (inside : table.InArea) :
    a ∈ table.extent ↔ a / pageSize.toNat = table.number := by
  refine ⟨fun within => (number_of_mem_extent within).symm, fun page => ?_⟩
  have starts := offset_of_inArea inside
  refine ⟨_, starts, ?_⟩
  rw [Set.mem_Ico, offset_eq_ok_iff.mp starts, ← page, toNat_pageSize]
  omega

theorem extents_disjoint : Pairwise (Function.onFun Disjoint extent) := by
  intro s t distinct
  rw [Function.onFun, Set.disjoint_left]
  intro a inS inT
  exact distinct (number_injective ((number_of_mem_extent inS).trans (number_of_mem_extent inT).symm))

theorem extents_fill_area :
    (⋃ (table : TableId) (_ : table.InArea), table.extent) = Set.Ico 0 areaSize.toNat := by
  ext a
  simp only [Set.mem_iUnion, Set.mem_Ico, Nat.zero_le, true_and, toNat_areaSize_eq]
  constructor
  · rintro ⟨table, inside, within⟩
    rw [inArea_iff, number_of_mem_extent within, Nat.div_lt_iff_lt_mul (by decide),
      Nat.mul_comm] at inside
    exact inside
  · intro below
    have inside : (ofNumber (a / pageSize.toNat)).InArea := by
      rw [inArea_iff, number_ofNumber]
      exact Nat.div_lt_of_lt_mul below
    exact ⟨_, inside, (mem_extent_iff inside).mpr (number_ofNumber _).symm⟩

/-- A table that the area does not have starts at a place that names none, or nowhere. -/
theorem offset_past_area (past : ¬ table.InArea) :
    table.Overflows ∨ ∃ start, table.offset = .ok start ∧ ofOffset? start = none := by
  by_cases fits : pageSize.toNat * table.number < Word.count
  · right
    have starts := offset_of_fits fits
    refine ⟨_, starts, Option.eq_none_iff_forall_ne_some.mpr fun named found => past ?_⟩
    obtain ⟨inside, here⟩ := ofOffset?_eq_some_iff_offset.mp found
    rw [offset_injective starts here]
    exact inside
  · left
    exact overflows_iff.mpr (Nat.le_of_not_lt fits)

end TableId

namespace Walk
variable {area : TableArea} {base : PhysAddr} {va : VirtAddr} {level left : Nat} {table : TableId}

/-- A link leads to a table of the area or nowhere. -/
theorem inArea_of_next? {view : Value .link} {next : TableId} (found : next? base view = some next) :
    next.InArea := by
  dsimp only [next?] at found
  split at found
  · exact (TableId.ofOffset?_eq_some_iff.mp found).1
  · contradiction

/-- The entry of a table of the area is there to be read, and leads to such tables only. -/
theorem step_of_inArea (inside : table.InArea) (present : level ≤ 3) :
    ∃ s, step area base va level table = .ok s ∧ ∀ next, s = .down next → next.InArea := by
  obtain ⟨place, position⟩ := TableId.inArea_iff_position.mp inside
  rw [step_eq position present]
  cases Entry.ofWord (area.get place (va.placeAt level)) level with
  | invalid | block | page => exact ⟨_, rfl, nofun⟩
  | link view =>
    dsimp only
    cases found : next? base view with
    | none => exact ⟨_, rfl, nofun⟩
    | some next =>
      refine ⟨_, rfl, fun _ same => ?_⟩
      cases same
      exact inArea_of_next? found

theorem fromTable_of_inArea (inside : table.InArea) (present : left ≤ 3) :
    ∃ walk, fromTable area base va left table = .ok walk := by
  -- What is kept from level to level is that the table is one of the area's.
  induction left generalizing table with
  | zero =>
    obtain ⟨s, stepped, -⟩ := step_of_inArea inside (Nat.le_refl 3)
    rw [fromTable, stepped]
    cases s with
    | ended walk => exact ⟨_, rfl⟩
    | down next => exact ⟨_, rfl⟩
  | succ left rest =>
    obtain ⟨s, stepped, leads⟩ := step_of_inArea inside (Nat.sub_le 3 (left + 1))
    cases s with
    | ended walk => exact ⟨_, fromTable_of_ended stepped⟩
    | down next =>
      rw [fromTable_of_down stepped]
      exact rest (leads next rfl) (Nat.le_of_succ_le present)

end Walk

namespace TableId

/-- The tables of the area and the byte offsets that are multiples of the page size and
inside it name one another. Every other last-level table starts at a word that names no
table, or its offset is no word. So no two tables share a byte, those of the area take up
just all of it, and no walk finds a table missing. -/
theorem offsets_one_to_one :
    (∀ offset table, ofOffset? offset = some table ↔ table.InArea ∧ table.offset = .ok offset) ∧
    (∀ offset, ofOffset? offset = none ↔
      offset.toNat % pageSize.toNat ≠ 0 ∨ areaSize ≤ offset) ∧
    (∀ n, sectionCount ≤ n → ((level3 n).Overflows ↔ Word.count ≤ 4096 * (n + 3)) ∧
      ((level3 n).Overflows ∨ ∃ start, (level3 n).offset = .ok start ∧ ofOffset? start = none)) ∧
    Pairwise (Function.onFun Disjoint extent) ∧
    (⋃ (table : TableId) (_ : table.InArea), table.extent) = Set.Ico 0 areaSize.toNat ∧
    (∀ base view next, Walk.next? base view = some next → ∃ place, next.position = .ok place) ∧
    (∀ (area : TableArea) base va, ∃ walk, area.walk base va = .ok walk) := by
  refine ⟨fun offset table => ofOffset?_eq_some_iff_offset, fun offset => ofOffset?_eq_none_iff,
    fun n past => ⟨overflows_iff, offset_past_area (Nat.not_lt.mpr past)⟩, extents_disjoint,
    extents_fill_area, fun base view next found => ?_, fun area base va => ?_⟩
  · exact inArea_iff_position.mp (Walk.inArea_of_next? found)
  · exact Walk.fromTable_of_inArea trivial (Nat.le_refl 3)

/-- The last table that starts at a word, the one after it, and the last one of the area, to
which a link leads. -/
theorem offsets_one_to_one_at_ends :
    (sectionCount ≤ 0xffffffffffffc ∧ ¬ (level3 0xffffffffffffc).Overflows ∧
      ∃ start, (level3 0xffffffffffffc).offset = .ok start ∧ ofOffset? start = none) ∧
    (sectionCount ≤ 0xffffffffffffd ∧ (level3 0xffffffffffffd).Overflows) ∧
    Walk.next? ⟨0x80000⟩ (Link.forTable ⟨0x84000⟩) = some (level3 1) ∧
    ∃ place, (level3 1).position = .ok place := by
  obtain ⟨-, -, past, -, -, reads, -⟩ := offsets_one_to_one
  have before : sectionCount ≤ 0xffffffffffffc := by decide
  have after : sectionCount ≤ 0xffffffffffffd := by decide
  have fits : ¬ (level3 0xffffffffffffc).Overflows := fun halted =>
    absurd ((past _ before).1.mp halted) (by decide)
  have leads : Walk.next? ⟨0x80000⟩ (Link.forTable ⟨0x84000⟩) = some (level3 1) := by decide
  exact ⟨⟨before, fits, (past _ before).2.resolve_left fits⟩,
    ⟨after, (past _ after).1.mpr (by decide)⟩, leads, reads _ _ _ leads⟩

end TableId
end ColdStart
