import ColdStart.Proofs.Translation.Identity

/-! The walk against the walker of the architecture. The walker knows no areas: it reads
memory at the addresses that it computes, follows a link to wherever it points, and ends
at a fault or at a leaf. Its rules are stated here over a flat memory that holds the
tables of an area and nothing else, for tables with any contents and at any base. Then
every way of the walker is the walk's and there is always one, so the walk inherits what
the rules make plain: it ends by the last level whatever links to what, it reads one
entry a level, and the sixteen high bits of the address have no part in it. -/
namespace ColdStart

/-- The eight bytes at an address, where there are any. -/
abbrev FlatMemory := Nat → Option Word

namespace TableArea

/-- A memory that holds the tables of the area one after another, and nothing else. Its
addresses go on past the last one that a register can hold, so that nothing wraps. -/
def flat (area : TableArea) (base : PhysAddr) : FlatMemory := fun address =>
  if base.word.toNat ≤ address ∧ (address - base.word.toNat) % 8 = 0 then
    area.words[(address - base.word.toNat) / 8]?
  else
    none

/-- Where table number `t` starts. -/
def startOf (base : PhysAddr) (t : Fin tableCount) : Nat :=
  base.word.toNat + 0x1000 * t

end TableArea

namespace Walker

/-- How many low bits of an address lie below an entry at a level. -/
def reach (level : Nat) : Nat :=
  12 + 9 * (3 - level)

/-- Where the walker reads in the table at `table`: nine bits of the address choose the
entry. -/
def entryAt (va : VirtAddr) (level table : Nat) : Nat :=
  table + 8 * (va.word.extractLsb' (reach level) 9).toNat

inductive Form
  | invalid
  | link
  | leaf
deriving DecidableEq

/-- What the two low bits of an entry say at a level; what is reserved is invalid. -/
def form (raw : Word) (level : Nat) : Form :=
  match level, raw.toNat % 4 with
  | 0, 3 | 1, 3 | 2, 3 => .link
  | 1, 1 | 2, 1 | 3, 3 => .leaf
  | _, _ => .invalid

/-- The address in bits 47 to 12 of a link. -/
def linked (raw : Word) : Nat :=
  0x1000 * (raw.extractLsb' 12 36).toNat

inductive Ending
  | fault (level : Nat)
  | leaf (raw : Word) (level : Nat)

namespace Ending

def level : Ending → Nat
  | fault level => level
  | leaf _ level => level

/-- The leaf's address has no bits among those that it leaves to the address. -/
def Aligned (raw : Word) (level : Nat) : Prop :=
  ∀ i, 12 ≤ i → i < reach level → raw.getLsbD i = false

/-- A walk says what the walker found: a fault at its level, or the leaf with the address
joined from its high bits and the low bits of `va`. -/
def Gives (va : VirtAddr) : Ending → Walk → Prop
  | fault level, walk => walk = .fault level
  | leaf raw level, walk => ∃ pa, walk = .mapped pa ⟨raw⟩ level ∧ (Aligned raw level →
      ∀ i < 64, pa.word.getLsbD i =
        if i < reach level then va.word.getLsbD i else decide (i < 48) && raw.getLsbD i)

end Ending

/-- The way of the walker from the table at `table`, met at `level`: the addresses it
reads at, in order, and how it ends. Links lead to one of the tables or nowhere. -/
inductive Way (memory : FlatMemory) (base : PhysAddr) (va : VirtAddr) :
    Nat → Nat → List Nat → Ending → Prop
  | invalid {level table : Nat} {raw : Word} (read : memory (entryAt va level table) = some raw)
      (invalid : form raw level = .invalid) :
      Way memory base va level table [entryAt va level table] (.fault level)
  | astray {level table : Nat} {raw : Word} (read : memory (entryAt va level table) = some raw)
      (link : form raw level = .link) (nowhere : ∀ t, linked raw ≠ TableArea.startOf base t) :
      Way memory base va level table [entryAt va level table] (.fault level)
  | leaf {level table : Nat} {raw : Word} (read : memory (entryAt va level table) = some raw)
      (leaf : form raw level = .leaf) :
      Way memory base va level table [entryAt va level table] (.leaf raw level)
  | down {level table : Nat} {raw : Word} {t : Fin tableCount} {reads : List Nat} {ending : Ending}
      (read : memory (entryAt va level table) = some raw) (link : form raw level = .link)
      (there : linked raw = TableArea.startOf base t)
      (onwards : Way memory base va (level + 1) (linked raw) reads ending) :
      Way memory base va level table (entryAt va level table :: reads) ending

variable {area : TableArea} {base : PhysAddr} {va : VirtAddr} {level table : Nat}
  {reads : List Nat} {ending : Ending} {raw : Word} {memory : FlatMemory} {t : Fin tableCount}

theorem reach_eq (level : Nat) : reach level = VirtAddr.indexShift level := by
  rw [reach, VirtAddr.indexShift, Nat.mul_comm, pageShift, tableShift]

theorem index_eq (va : VirtAddr) (level : Nat) :
    (va.word.extractLsb' (reach level) 9).toNat = (va.placeAt level).val := by
  rw [BitVec.extractLsb'_toNat, Nat.shiftRight_eq_div_pow, VirtAddr.placeAt_val, reach_eq]

/-- The memory has an entry wherever the walker looks in a table. -/
theorem flat_entryAt (area : TableArea) (base : PhysAddr) (va : VirtAddr) (level : Nat)
    (t : Fin tableCount) : area.flat base (entryAt va level (TableArea.startOf base t)) =
      some (area.get t (va.placeAt level)) := by
  have address : entryAt va level (TableArea.startOf base t) =
      base.word.toNat + 8 * (slotOf t (va.placeAt level)).val := by
    simp only [entryAt, index_eq, TableArea.startOf, slotOf, entriesPerTable]
    omega
  rw [TableArea.flat, address, Nat.add_sub_cancel_left, Nat.mul_mod_right,
    Nat.mul_div_cancel_left _ (by decide), if_pos ⟨Nat.le_add_right _ _, rfl⟩]
  exact Vector.getElem?_eq_getElem (slotOf t (va.placeAt level)).isLt

/-- The two readings of an entry agree at every level that there is. -/
theorem ofWord_form (raw : Word) (present : level ≤ 3) :
    match form raw level with
    | .invalid => Entry.ofWord raw level = .invalid
    | .link => level < 3 ∧ Entry.ofWord raw level = .link ⟨raw⟩
    | .leaf => Entry.ofWord raw level = .block ⟨raw⟩ ∨ Entry.ofWord raw level = .page ⟨raw⟩ := by
  have bits : raw.toNat % 4 = 2 * (raw.getLsbD 1).toNat + (raw.getLsbD 0).toNat := by
    rw [BitVec.getLsbD, BitVec.getLsbD, Nat.toNat_testBit, Nat.toNat_testBit]
    omega
  have levels : level = 0 ∨ level = 1 ∨ level = 2 ∨ level = 3 := by omega
  unfold form Entry.ofWord
  rw [bits]
  obtain rfl | rfl | rfl | rfl := levels <;>
    cases raw.getLsbD 0 <;> cases raw.getLsbD 1 <;> simp

theorem toNat_target (raw : Word) : (Link.target ⟨raw⟩).word.toNat = linked raw := by
  simp only [Link.target, Value.read, Field.read, Link.next, pageShift, linked,
    BitVec.toNat_shiftLeft, BitVec.toNat_setWidth, BitVec.toNat_ushiftRight,
    BitVec.extractLsb'_toNat, Nat.shiftRight_eq_div_pow, Nat.shiftLeft_eq]
  omega

theorem next?_of_start (there : linked raw = TableArea.startOf base t) :
    ∃ id, Walk.next? base ⟨raw⟩ = some id ∧ id.position = .ok t := by
  have target := (toNat_target raw).trans there
  rw [TableArea.startOf] at target
  have above : base.word ≤ (Link.target ⟨raw⟩).word := BitVec.le_def.mpr (by omega)
  refine ⟨.ofNumber t, ?_, TableId.position_eq_ok_iff.mpr (TableId.number_ofNumber t)⟩
  rw [Walk.next?, if_pos above, TableId.ofOffset?_eq_some_iff, TableId.inArea_iff,
    TableId.number_ofNumber, BitVec.toNat_sub_of_le above, target, toNat_pageSize]
  exact ⟨t.isLt, Nat.add_sub_cancel_left _ _⟩

theorem next?_of_nowhere (nowhere : ∀ t, linked raw ≠ TableArea.startOf base t) :
    Walk.next? base ⟨raw⟩ = none := by
  unfold Walk.next?
  by_cases above : base.word ≤ (Link.target ⟨raw⟩).word
  · rw [if_pos above, Option.eq_none_iff_forall_ne_some]
    intro id found
    obtain ⟨inside, starts⟩ := TableId.ofOffset?_eq_some_iff.mp found
    have order := BitVec.le_def.mp above
    rw [BitVec.toNat_sub_of_le above, toNat_target, toNat_pageSize] at starts
    rw [toNat_target] at order
    refine nowhere ⟨id.number, TableId.inArea_iff.mp inside⟩ ?_
    simp only [TableArea.startOf]
    omega
  · exact if_neg above

/-- The walk that ends where the walker does, with the address joined as the walk joins it. -/
def Ending.found (va : VirtAddr) : Ending → Walk
  | fault level => .fault level
  | leaf raw level => .mapped ⟨(Leaf.target ⟨raw⟩).word ||| Walk.within level va⟩ ⟨raw⟩ level

section
variable {id : TableId} (position : id.position = .ok t) (present : level ≤ 3)
  (read : area.flat base (entryAt va level (TableArea.startOf base t)) = some raw)
include position present read

theorem step_of_invalid (invalid : form raw level = .invalid) :
    Walk.step area base va level id = .ok (.ended (.fault level)) := by
  have decoded := ofWord_form raw present
  rw [invalid] at decoded
  rw [flat_entryAt, Option.some.injEq] at read
  rw [Walk.step_eq position present, read, decoded]

theorem step_of_leaf (leaf : form raw level = .leaf) :
    Walk.step area base va level id = .ok (.ended ((Ending.leaf raw level).found va)) := by
  have decoded := ofWord_form raw present
  rw [leaf] at decoded
  rw [flat_entryAt, Option.some.injEq] at read
  rw [Walk.step_eq position present, read]
  rcases decoded with block | page
  · rw [block, Ending.found]
  · rw [page, Ending.found]

theorem step_of_link (link : form raw level = .link) :
    level < 3 ∧ Walk.step area base va level id = .ok (match Walk.next? base ⟨raw⟩ with
      | some next => .down next
      | none => .ended (.fault level)) := by
  have decoded := ofWord_form raw present
  rw [link] at decoded
  rw [flat_entryAt, Option.some.injEq] at read
  refine ⟨decoded.1, ?_⟩
  rw [Walk.step_eq position present, read, decoded.2]
  dsimp only
  cases Walk.next? base ⟨raw⟩ <;> rfl

end

namespace Way

/-- Every way of the walker is the walk's. The induction goes along the way: one table of
it is one step of the walk, and a link uses up a level. -/
theorem fromTable (way : Way (area.flat base) base va level table reads ending) :
    ∀ {left : Nat} {id : TableId} {t : Fin tableCount}, level + left = 3 →
      id.position = .ok t → table = TableArea.startOf base t →
      Walk.fromTable area base va left id = .ok (ending.found va) := by
  induction way with
  | invalid read invalid =>
    rintro left id t levels position rfl
    obtain rfl : _ = 3 - left := Nat.eq_sub_of_add_eq levels
    exact Walk.fromTable_of_ended (step_of_invalid position (by omega) read invalid)
  | astray read link nowhere =>
    rintro left id t levels position rfl
    obtain rfl : _ = 3 - left := Nat.eq_sub_of_add_eq levels
    apply Walk.fromTable_of_ended
    rw [(step_of_link position (by omega) read link).2, next?_of_nowhere nowhere, Ending.found]
  | leaf read leaf =>
    rintro left id t levels position rfl
    obtain rfl : _ = 3 - left := Nat.eq_sub_of_add_eq levels
    exact Walk.fromTable_of_ended (step_of_leaf position (by omega) read leaf)
  | down read link there onwards rest =>
    rintro left id t levels position rfl
    obtain ⟨before, step⟩ := step_of_link position (by omega) read link
    obtain ⟨next, found, place⟩ := next?_of_start there
    rw [found] at step
    obtain ⟨below, rfl⟩ : ∃ below, left = below + 1 := ⟨left - 1, by omega⟩
    obtain rfl : _ = 3 - (below + 1) := Nat.eq_sub_of_add_eq levels
    rw [Walk.fromTable_of_down step]
    exact rest (by omega) place there

/-- The walker always has a way, whatever the tables hold. -/
theorem exists_of_levels (area : TableArea) (base : PhysAddr) (va : VirtAddr) :
    ∀ left level (t : Fin tableCount), level + left = 3 →
      ∃ reads ending,
        Way (area.flat base) base va level (TableArea.startOf base t) reads ending := by
  intro left
  induction left with
  | zero =>
    rintro level t (rfl : level = 3)
    have read := flat_entryAt area base va 3 t
    have decoded := ofWord_form (area.get t (va.placeAt 3)) (Nat.le_refl 3)
    cases shape : form (area.get t (va.placeAt 3)) 3 with
    | invalid => exact ⟨_, _, .invalid read shape⟩
    | leaf => exact ⟨_, _, .leaf read shape⟩
    | link =>
      rw [shape] at decoded
      exact absurd decoded.1 (Nat.lt_irrefl 3)
  | succ left rest =>
    intro level t levels
    have read := flat_entryAt area base va level t
    cases shape : form (area.get t (va.placeAt level)) level with
    | invalid => exact ⟨_, _, .invalid read shape⟩
    | leaf => exact ⟨_, _, .leaf read shape⟩
    | link =>
      by_cases known : ∃ next, linked (area.get t (va.placeAt level)) = TableArea.startOf base next
      · obtain ⟨next, there⟩ := known
        obtain ⟨reads, ending, onwards⟩ := rest (level + 1) next (by omega)
        rw [← there] at onwards
        exact ⟨_, _, .down read shape there onwards⟩
      · exact ⟨_, _, .astray read shape fun next there => known ⟨next, there⟩⟩

/-- One read at each level from the first to the one that the way ends at. -/
theorem reads_length (way : Way memory base va level table reads ending) :
    level + reads.length = ending.level + 1 := by
  induction way with
  | invalid | astray | leaf => rfl
  | down _ _ _ _ rest =>
    rw [List.length_cons]
    omega

/-- Links are followed above the last level only. -/
theorem level_le (way : Way memory base va level table reads ending) (present : level ≤ 3) :
    ending.level ≤ 3 := by
  induction way with
  | invalid | astray | leaf => exact present
  | @down _ _ raw _ _ _ _ link _ _ rest =>
    have decoded := ofWord_form raw present
    rw [link] at decoded
    exact rest decoded.1

end Way

theorem getLsbD_within (va : VirtAddr) (present : level ≤ 3) (i : Nat) :
    (Walk.within level va).getLsbD i = (decide (i < reach level) && va.word.getLsbD i) := by
  rw [BitVec.getLsbD, Walk.toNat_within va present, Nat.testBit_mod_two_pow, reach_eq]
  rfl

theorem getLsbD_target (raw : Word) (i : Nat) :
    (Leaf.target ⟨raw⟩).word.getLsbD i = (decide (12 ≤ i ∧ i < 48) && raw.getLsbD i) := by
  have shifted : (Leaf.target ⟨raw⟩).word = Leaf.output.read raw <<< 12 := rfl
  rw [shifted, BitVec.getLsbD_shiftLeft, Field.getLsbD_read]
  by_cases page : 12 ≤ i
  · have place : Leaf.output.low + (i - 12) = i := Nat.add_sub_cancel' page
    have room : i - 12 < Leaf.output.width ↔ i < 48 := Nat.sub_lt_iff_lt_add page
    rw [place]
    by_cases high : i < 48
    · have inside : i < 64 := by omega
      have small : i - 12 < 64 := by omega
      simp [page, high, room, inside, small]
    · simp [page, high, room]
  · simp [page, Nat.lt_of_not_le page]

theorem Ending.gives_found (va : VirtAddr) (ending : Ending) (present : ending.level ≤ 3) :
    ending.Gives va (ending.found va) := by
  cases ending with
  | fault level => rfl
  | leaf raw level =>
    have above : level ≤ 3 := present
    refine ⟨_, rfl, fun aligned i _ => ?_⟩
    rw [BitVec.getLsbD_or, getLsbD_within va above, getLsbD_target]
    by_cases low : i < reach level
    · rw [if_pos low]
      by_cases page : 12 ≤ i
      · simp [aligned i page low, low]
      · simp [page, low]
    · have page : 12 ≤ i := Nat.le_trans (Nat.le_add_right 12 _) (Nat.le_of_not_lt low)
      simp [low, page]

/-- The walker reads nothing of an address above bit 47. -/
theorem entryAt_congr {va' : VirtAddr} (same : ∀ i < 48, va'.word.getLsbD i = va.word.getLsbD i)
    (level table : Nat) : entryAt va' level table = entryAt va level table := by
  have bits : va'.word.extractLsb' (reach level) 9 = va.word.extractLsb' (reach level) 9 := by
    apply BitVec.eq_of_getLsbD_eq
    intro i inside
    rw [BitVec.getLsbD_extractLsb', BitVec.getLsbD_extractLsb', same]
    rw [reach]
    omega
  rw [entryAt, bits, entryAt]

section
variable {other : FlatMemory} {va' : VirtAddr}
  (same : ∀ i < 48, va'.word.getLsbD i = va.word.getLsbD i)
include same

theorem read_congr (agree : other (entryAt va level table) = memory (entryAt va level table))
    (read : memory (entryAt va level table) = some raw) :
    other (entryAt va' level table) = some raw := by
  rw [entryAt_congr same, agree, read]

/-- The way depends on the entries that it reads and on the low 48 bits of the address only. -/
theorem Way.congr (way : Way memory base va level table reads ending) :
    (∀ address ∈ reads, other address = memory address) →
      Way other base va' level table reads ending := by
  induction way with
  | invalid read invalid =>
    intro agree
    rw [← entryAt_congr same]
    exact .invalid (read_congr same (agree _ (List.mem_singleton_self _)) read) invalid
  | astray read link nowhere =>
    intro agree
    rw [← entryAt_congr same]
    exact .astray (read_congr same (agree _ (List.mem_singleton_self _)) read) link nowhere
  | leaf read leaf =>
    intro agree
    rw [← entryAt_congr same]
    exact .leaf (read_congr same (agree _ (List.mem_singleton_self _)) read) leaf
  | down read link there _ rest =>
    intro agree
    rw [← entryAt_congr same]
    exact .down (read_congr same (agree _ List.mem_cons_self) read) link there
      (rest fun address among => agree address (List.mem_cons_of_mem _ among))

theorem Ending.found_congr (ending : Ending) (present : ending.level ≤ 3) :
    ending.found va' = ending.found va := by
  cases ending with
  | fault level => rfl
  | leaf raw level =>
    have above : level ≤ 3 := present
    have within : Walk.within level va' = Walk.within level va := by
      apply BitVec.eq_of_getLsbD_eq
      intro i _
      rw [getLsbD_within va' above, getLsbD_within va above]
      by_cases low : i < reach level
      · rw [same i (by rw [reach] at low; omega)]
      · simp only [low, decide_false, Bool.false_and]
    rw [found, within, found]

end

end Walker

namespace TableArea

/-- The walk of any area for any address at any base ends, and as every way of the walker
from the first table ends, of which there always is one. The ways are of at most four
reads, none below the last level; and the walk is the same in every other area that has
the same entries where the way reads, for every other address with the same low 48 bits. -/
theorem walk_as_walker (area : TableArea) (base : PhysAddr) (va : VirtAddr) :
    ∃ walk, area.walk base va = .ok walk ∧
      (∃ reads ending, Walker.Way (area.flat base) base va 0 base.word.toNat reads ending) ∧
      ∀ reads ending, Walker.Way (area.flat base) base va 0 base.word.toNat reads ending →
        reads.length ≤ 4 ∧ ending.level ≤ 3 ∧ ending.Gives va walk ∧
        ∀ (other : TableArea) (va' : VirtAddr),
          (∀ address ∈ reads, other.flat base address = area.flat base address) →
          (∀ i < 48, va'.word.getLsbD i = va.word.getLsbD i) →
          other.walk base va' = .ok walk := by
  have first : base.word.toNat = startOf base ⟨0, by decide⟩ := rfl
  obtain ⟨reads, ending, way⟩ := Walker.Way.exists_of_levels area base va 3 0 ⟨0, by decide⟩ rfl
  have found : area.walk base va = .ok (ending.found va) := way.fromTable rfl rfl rfl
  refine ⟨_, found, ⟨reads, ending, way⟩, fun reads' ending' way' => ?_⟩
  have same : ending'.found va = ending.found va :=
    Except.ok.inj ((way'.fromTable rfl rfl first).symm.trans found)
  have present := way'.level_le (Nat.zero_le 3)
  have length := way'.reads_length
  refine ⟨by omega, present, same ▸ Walker.Ending.gives_found va ending' present, ?_⟩
  intro other va' agree low
  rw [← same, ← ending'.found_congr low present]
  exact (way'.congr low agree).fromTable rfl rfl first

end TableArea
end ColdStart
