import ColdStart.Proofs.Translation.Contents
import ColdStart.Translation.Walk

/-! The walk through the tables of a build finds the window mapped to itself, and
nothing else mapped. A walk is followed one table at a time: what a table's entry
decodes to says how the walk goes on. The three upper levels lead from the places
of an address to its section, so the leaf that is met is the section's block or
the address's page, and either carries the kind that the partition has there. -/
namespace ColdStart

namespace Walk
variable {area : TableArea} {base : PhysAddr} {va : VirtAddr} {level : Nat} {table : TableId}
  {place : Fin tableCount}

theorem step_eq (position : table.position = .ok place) (present : level ≤ 3) :
    step area base va level table =
      match Entry.ofWord (area.get place (va.placeAt level)) level with
      | .invalid => .ok (.ended (.fault level))
      | .block leaf | .page leaf =>
        .ok (.ended (.mapped ⟨(Leaf.target leaf).word ||| within level va⟩ leaf level))
      | .link view =>
        match next? base view with
        | some next => .ok (.down next)
        | none => .ok (.ended (.fault level)) := by
  have read := area.entry_eq position (va.placeAt level)
  rw [step, VirtAddr.index_ok va present]
  simp only [bind, Except.bind, read]
  rfl

theorem fromTable_of_ended {left : Nat} {walk : Walk}
    (ended : step area base va (3 - left) table = .ok (.ended walk)) :
    fromTable area base va left table = .ok walk := by
  cases left with
  | zero => rw [fromTable, ended]; rfl
  | succ left => rw [fromTable, ended]; rfl

theorem fromTable_of_down {left : Nat} {next : TableId}
    (down : step area base va (3 - (left + 1)) table = .ok (.down next)) :
    fromTable area base va (left + 1) table = fromTable area base va left next := by
  rw [fromTable, down]
  rfl

theorem next?_forTable {offset : Word} (aligned : base.word.toNat % 0x1000 = 0)
    (room : base.word.toNat + offset.toNat < 0x1000000000000) (whole : offset.toNat % 0x1000 = 0) :
    next? base (Link.forTable ⟨base.word + offset⟩) = TableId.ofOffset? offset := by
  have sum : (base.word + offset).toNat = base.word.toNat + offset.toNat := by
    rw [BitVec.toNat_add]
    omega
  have framed := PhysAddr.framed_mk (a := base.word + offset) (by omega) (by omega)
  have after : base.word ≤ base.word + offset := BitVec.le_def.mpr (by omega)
  unfold next?
  rw [Link.target_forTable framed, if_pos after, BitVec.add_comm, BitVec.add_sub_cancel]

theorem toNat_within (va : VirtAddr) (present : level ≤ 3) :
    (within level va).toNat = va.word.toNat % 2 ^ VirtAddr.indexShift level := by
  apply Word.toNat_and_ones
  simp only [VirtAddr.indexShift, pageShift, tableShift]
  omega

section
variable (position : table.position = .ok place)
include position

theorem step_of_zero (present : level ≤ 3) (vacant : area.get place (va.placeAt level) = 0) :
    step area base va level table = .ok (.ended (.fault level)) := by
  rw [step_eq position present, vacant, Entry.ofWord_zero]

theorem step_of_block {pa : PhysAddr} {kind : MemoryKind}
    (word : area.get place (va.placeAt 2) = (Leaf.block pa kind).word) :
    step area base va 2 table = .ok (.ended (.mapped
      ⟨(Leaf.target (Leaf.block pa kind)).word ||| within 2 va⟩ (Leaf.block pa kind) 2)) := by
  rw [step_eq position (by decide), word, Entry.ofWord_block]

theorem step_of_lastLevel {pa : PhysAddr} {kind : MemoryKind}
    (word : area.get place (va.placeAt 3) = (Leaf.lastLevel pa kind).word) :
    step area base va 3 table = .ok (.ended (.mapped
      ⟨(Leaf.target (Leaf.lastLevel pa kind)).word ||| within 3 va⟩ (Leaf.lastLevel pa kind) 3)) := by
  rw [step_eq position (by decide), word, Entry.ofWord_lastLevel]

section
variable (above : level < 3) (aligned : base.word.toNat % 0x1000 = 0)
  (room : base.word.toNat + areaSize.toNat ≤ 0x1000000000000) {offset : Word}
  (whole : offset.toNat % 0x1000 = 0) (inside : offset.toNat < areaSize.toNat) {next : TableId}
  (named : TableId.ofOffset? offset = some next)
include above aligned room whole inside named

theorem step_of_forTable
    (word : area.get place (va.placeAt level) = (Link.forTable ⟨base.word + offset⟩).word) :
    step area base va level table = .ok (.down next) := by
  rw [step_eq position (Nat.le_of_lt above), word, Entry.ofWord_forTable _ above]
  simp only [next?_forTable aligned (by omega) whole, named]

/-- A table with a link in its first place only is left where the address has another. -/
theorem step_of_first (word : area.get place (va.placeAt level) =
      if (va.placeAt level).val = 0 then (Link.forTable ⟨base.word + offset⟩).word else 0) :
    step area base va level table =
      .ok (if (va.placeAt level).val = 0 then .down next else .ended (.fault level)) := by
  by_cases first : (va.placeAt level).val = 0
  · rw [if_pos first] at word ⊢
    exact step_of_forTable position above aligned room whole inside named word
  · rw [if_neg first] at word ⊢
    exact step_of_zero position (Nat.le_of_lt above) word

end

end

end Walk

namespace Build
open ColdStart.Partition

variable {p : Partition} {base : PhysAddr} {area : TableArea}

/-- The area is as a build for `base` leaves it. -/
def Holds (p : Partition) (base : PhysAddr) (area : TableArea) : Prop :=
  ∀ slot : TableArea.Slot, area.get slot.1 slot.2 = contents p base slot

theorem ofOffset?_tableOffset (n : Fin sectionCount) :
    TableId.ofOffset? (tableOffset n) = some (.level3 n) :=
  TableId.ofOffset?_eq_some_iff_offset.mpr ⟨n.isLt, offset_level3 n⟩

def sectionLeaf (n : Nat) (kind : MemoryKind) : Value .leaf :=
  Leaf.block ⟨sectionStart n⟩ kind

def pageLeaf (p : Partition) (n : Nat) (index : Fin entriesPerTable) : Value .leaf :=
  Leaf.lastLevel ⟨pageStart n index⟩ (p.kindAt (pageStart n index))

section
variable (aligned : base.word.toNat % 0x1000 = 0)
  (room : base.word.toNat + areaSize.toNat ≤ 0x1000000000000) (holds : Holds p base area)
  (va : VirtAddr)
include aligned room holds

theorem step_level0 : Walk.step area base va 0 .level0 =
    .ok (if (va.placeAt 0).val = 0 then .down .level1 else .ended (.fault 0)) :=
  Walk.step_of_first rfl (by decide) aligned room (show pageSize.toNat % 0x1000 = 0 from rfl)
    (by decide) rfl (holds (⟨0, by decide⟩, va.placeAt 0))

theorem step_level1 : Walk.step area base va 1 .level1 =
    .ok (if (va.placeAt 1).val = 0 then .down .level2 else .ended (.fault 1)) :=
  Walk.step_of_first rfl (by decide) aligned room (show (2 * pageSize).toNat % 0x1000 = 0 from rfl)
    (by decide) rfl (holds (⟨1, by decide⟩, va.placeAt 1))

omit aligned room in
theorem step_level2_above (above : ¬ (va.placeAt 2).val < sectionCount) :
    Walk.step area base va 2 .level2 = .ok (.ended (.fault 2)) :=
  Walk.step_of_zero rfl (by decide) ((holds (⟨2, by decide⟩, va.placeAt 2)).trans (if_neg above))

omit aligned room in
theorem get_level2 (within : (va.placeAt 2).val < sectionCount) :
    area.get ⟨2, by decide⟩ (va.placeAt 2) = sectionWord p base (va.placeAt 2) :=
  (holds (⟨2, by decide⟩, va.placeAt 2)).trans (if_pos within)

omit aligned room in
theorem step_level2_uniform (within : (va.placeAt 2).val < sectionCount) {kind : MemoryKind}
    (uniform : sectionKind p (va.placeAt 2) = some kind) :
    Walk.step area base va 2 .level2 = .ok (.ended (.mapped
      ⟨(Leaf.target (sectionLeaf (va.placeAt 2) kind)).word ||| Walk.within 2 va⟩
      (sectionLeaf (va.placeAt 2) kind) 2)) := by
  have word := get_level2 holds va within
  rw [sectionWord, uniform] at word
  exact Walk.step_of_block rfl word

theorem step_level2_mixed (within : (va.placeAt 2).val < sectionCount)
    (mixed : sectionKind p (va.placeAt 2) = none) :
    Walk.step area base va 2 .level2 = .ok (.down (.level3 (va.placeAt 2))) := by
  have word := get_level2 holds va within
  rw [sectionWord, mixed] at word
  have offset := toNat_tableOffset within
  have size := toNat_areaSize
  have named : TableId.ofOffset? (tableOffset (va.placeAt 2)) = some (.level3 (va.placeAt 2)) :=
    ofOffset?_tableOffset ⟨va.placeAt 2, within⟩
  simp only [sectionCount] at within
  exact Walk.step_of_forTable rfl (by decide) aligned room (by omega) (by omega) named word

omit aligned room in
theorem step_level3 (n : Fin sectionCount) (mixed : sectionKind p n = none) :
    Walk.step area base va 3 (.level3 n) = .ok (.ended (.mapped
      ⟨(Leaf.target (pageLeaf p n (va.placeAt 3))).word ||| Walk.within 3 va⟩
      (pageLeaf p n (va.placeAt 3)) 3)) :=
  Walk.step_of_lastLevel (position_level3 n)
    ((holds (pageSlot n (va.placeAt 3))).trans (contents_pageSlot mixed _))

/-- Above the window the walk faults in the first table that the address leaves. -/
theorem walk_above (above : windowSize ≤ va.regionOffset) :
    area.walk base va = .ok (.fault
      (if (va.placeAt 0).val ≠ 0 then 0 else if (va.placeAt 1).val ≠ 0 then 1 else 2)) := by
  have first := step_level0 aligned room holds va
  have second := step_level1 aligned room holds va
  unfold TableArea.walk
  by_cases zero : (va.placeAt 0).val = 0
  · rw [if_pos zero] at first
    rw [Walk.fromTable_of_down first, if_neg (not_not_intro zero)]
    by_cases one : (va.placeAt 1).val = 0
    · rw [if_pos one] at second
      have past : ¬ (va.placeAt 2).val < sectionCount := fun within =>
        BitVec.not_lt.mpr above (va.regionOffset_lt_window_iff.mpr ⟨zero, one, within⟩)
      rw [Walk.fromTable_of_down second, if_neg (not_not_intro one)]
      exact Walk.fromTable_of_ended (step_level2_above holds va past)
    · rw [if_neg one] at second
      rw [if_pos one]
      exact Walk.fromTable_of_ended second
  · rw [if_neg zero] at first
    rw [if_pos zero]
    exact Walk.fromTable_of_ended first

theorem walk_window (inside : va.regionOffset < windowSize) :
    area.walk base va = Walk.fromTable area base va 1 .level2 := by
  obtain ⟨zero, one, _⟩ := va.regionOffset_lt_window_iff.mp inside
  have first := step_level0 aligned room holds va
  have second := step_level1 aligned room holds va
  rw [if_pos zero] at first
  rw [if_pos one] at second
  rw [TableArea.walk, Walk.fromTable_of_down first, Walk.fromTable_of_down second]

end

section
variable (va : VirtAddr) (inside : va.regionOffset < windowSize)
include inside

theorem toNat_sectionStart_placeAt :
    (sectionStart (va.placeAt 2)).toNat = va.regionOffset.toNat / 0x200000 * 0x200000 := by
  obtain ⟨_, _, within⟩ := va.regionOffset_lt_window_iff.mp inside
  have below : va.regionOffset.toNat < 0x400000 := BitVec.lt_def.mp inside
  obtain ⟨_, _, third, _⟩ := va.places
  rw [toNat_sectionStart within]
  omega

theorem toNat_pageStart_placeAt :
    (pageStart (va.placeAt 2) (va.placeAt 3)).toNat = va.regionOffset.toNat / 0x1000 * 0x1000 := by
  obtain ⟨_, _, within⟩ := va.regionOffset_lt_window_iff.mp inside
  have below : va.regionOffset.toNat < 0x400000 := BitVec.lt_def.mp inside
  obtain ⟨_, _, third, fourth⟩ := va.places
  rw [toNat_pageStart within]
  omega

/-- The section's start and the offset in the section make the region offset. -/
theorem block_target (kind : MemoryKind) :
    (Leaf.target (sectionLeaf (va.placeAt 2) kind)).word ||| Walk.within 2 va = va.regionOffset := by
  have below : va.regionOffset.toNat < 0x400000 := BitVec.lt_def.mp inside
  have start := toNat_sectionStart_placeAt va inside
  have offset : (Walk.within 2 va).toNat = va.word.toNat % 0x200000 := Walk.toNat_within va (by decide)
  have region := va.regionOffset_toNat
  have framed := PhysAddr.framed_mk (a := sectionStart (va.placeAt 2)) (by omega) (by omega)
  rw [sectionLeaf, (Leaf.block_describes _ kind).target framed]
  change sectionStart (va.placeAt 2) ||| Walk.within 2 va = _
  apply BitVec.eq_of_toNat_eq
  rw [Word.toNat_or_low 21 (by omega) (by omega)]
  omega

theorem page_target :
    (Leaf.target (pageLeaf p (va.placeAt 2) (va.placeAt 3))).word ||| Walk.within 3 va =
      va.regionOffset := by
  have below : va.regionOffset.toNat < 0x400000 := BitVec.lt_def.mp inside
  have start := toNat_pageStart_placeAt va inside
  have offset : (Walk.within 3 va).toNat = va.word.toNat % 0x1000 := Walk.toNat_within va (by decide)
  have region := va.regionOffset_toNat
  have framed := PhysAddr.framed_mk (a := pageStart (va.placeAt 2) (va.placeAt 3)) (by omega) (by omega)
  rw [pageLeaf, (Leaf.lastLevel_describes _ _).target framed]
  change pageStart (va.placeAt 2) (va.placeAt 3) ||| Walk.within 3 va = _
  apply BitVec.eq_of_toNat_eq
  rw [Word.toNat_or_low 12 (by omega) (by omega)]
  omega

theorem kindAt_pageStart :
    p.kindAt (pageStart (va.placeAt 2) (va.placeAt 3)) = p.kindAt va.regionOffset := by
  apply kindAt_eq_of_page
  rw [toNat_pageStart_placeAt va inside, toNat_pageSize]
  omega

theorem inSpan_section_iff {a : Word} : InSpan (sectionStart (va.placeAt 2)) sectionSize a ↔
    a.toNat / sectionSize.toNat = va.regionOffset.toNat / sectionSize.toNat := by
  have start := toNat_sectionStart_placeAt va inside
  rw [InSpan, toNat_sectionSize]
  omega

theorem kindAt_of_uniform {kind : MemoryKind}
    (uniform : sectionKind p (va.placeAt 2) = some kind) : p.kindAt va.regionOffset = kind :=
  sectionKind_eq_some_iff.mp uniform _ ((inSpan_section_iff va inside).mpr rfl)

/-- A section has one kind exactly if all its addresses have the kind of any of them. -/
theorem sectionKind_ne_none_iff : sectionKind p (va.placeAt 2) ≠ none ↔
    ∀ a : Word, a.toNat / sectionSize.toNat = va.regionOffset.toNat / sectionSize.toNat →
      p.kindAt a = p.kindAt va.regionOffset := by
  simp only [← inSpan_section_iff va inside, ← sectionKind_eq_some_iff]
  constructor
  · intro some
    obtain ⟨kind, uniform⟩ := Option.ne_none_iff_exists'.mp some
    rw [uniform, kindAt_of_uniform va inside uniform]
  · intro uniform none
    rw [none] at uniform
    contradiction

end

/-- In the window the walk ends at a leaf that maps the address to itself and says
what the partition says of it: a block where the section has one kind, and a page
where it has two. -/
theorem walk_inside (aligned : base.word.toNat % 0x1000 = 0)
    (room : base.word.toNat + areaSize.toNat ≤ 0x1000000000000) (holds : Holds p base area)
    (va : VirtAddr) (inside : va.regionOffset < windowSize) :
    ∃ (leaf : Value .leaf) (start : PhysAddr),
      Leaf.Describes leaf start (p.kindAt va.regionOffset) ∧
      area.walk base va = .ok (.mapped ⟨va.regionOffset⟩ leaf
        (if sectionKind p (va.placeAt 2) = none then 3 else 2)) := by
  obtain ⟨_, _, within⟩ := va.regionOffset_lt_window_iff.mp inside
  rw [walk_window aligned room holds va inside]
  cases uniform : sectionKind p (va.placeAt 2) with
  | some kind =>
    have last := step_level2_uniform holds va within uniform
    rw [block_target va inside] at last
    rw [kindAt_of_uniform va inside uniform]
    exact ⟨_, _, Leaf.block_describes _ kind, Walk.fromTable_of_ended last⟩
  | none =>
    have down := step_level2_mixed aligned room holds va within uniform
    have last := step_level3 holds va ⟨va.placeAt 2, within⟩ uniform
    rw [page_target va inside] at last
    rw [← kindAt_pageStart va inside, Walk.fromTable_of_down down]
    exact ⟨_, _, Leaf.lastLevel_describes _ _, Walk.fromTable_of_ended last⟩

/-- The tables of a partition, wherever they are and whatever was there before, map
exactly the window, each address of either region to the offset it has there. -/
theorem walk_build (p : Partition) (base : PhysAddr) (area : TableArea)
    (aligned : base.word.toNat % pageSize.toNat = 0)
    (room : base.word.toNat + areaSize.toNat ≤ 2 ^ addressBits) :
    (∃ tally, (build p base).outcome = .ok tally) ∧
    ∀ va : VirtAddr,
      (va.regionOffset < windowSize → ∃ leaf level,
        (area.applyAll (build p base).emitted).walk base va =
          .ok (.mapped ⟨va.regionOffset⟩ leaf level) ∧
        Leaf.memory leaf = some (p.kindAt va.regionOffset) ∧
        (leaf.test Leaf.pxn = true ↔ p.kindAt va.regionOffset = .device) ∧
        leaf.test Leaf.uxn = true ∧ leaf.test Leaf.af = true ∧ leaf.read Leaf.ap = 0 ∧
        ((∀ a : Word, a.toNat / sectionSize.toNat = va.regionOffset.toNat / sectionSize.toNat →
            p.kindAt a = p.kindAt va.regionOffset) → level = 2) ∧
        ((∃ a : Word, a.toNat / sectionSize.toNat = va.regionOffset.toNat / sectionSize.toNat ∧
            p.kindAt a ≠ p.kindAt va.regionOffset) → level = 3)) ∧
      (windowSize ≤ va.regionOffset → ∃ first second,
        va.index 0 = .ok first ∧ va.index 1 = .ok second ∧
        (area.applyAll (build p base).emitted).walk base va = .ok (.fault
          (if first.val ≠ 0 then 0 else if second.val ≠ 0 then 1 else 2))) := by
  have fits : base.word.toNat + areaSize.toNat ≤ Word.count := Nat.le_trans room (by decide)
  have holds : Holds p base (area.applyAll (build p base).emitted) := get_build aligned fits area
  refine ⟨⟨_, congrArg Emission.outcome (build_eq aligned fits)⟩, fun va => ⟨?_, ?_⟩⟩
  · intro inside
    obtain ⟨leaf, start, described, mapped⟩ := walk_inside aligned room holds va inside
    have uniform := sectionKind_ne_none_iff (p := p) va inside
    refine ⟨leaf, _, mapped, described.memory, ?_, described.unprivileged, described.accessed,
      described.access, ?_, ?_⟩
    · rw [described.privileged]
      cases p.kindAt va.regionOffset <;> decide
    · exact fun all => if_neg (uniform.mpr all)
    · rintro ⟨a, near, differs⟩
      exact if_pos (not_not.mp fun some => differs (uniform.mp some a near))
  · intro above
    exact ⟨_, _, va.index_ok (by decide), va.index_ok (by decide),
      walk_above aligned room holds va above⟩

/-- A map that splits the first section between the two kinds, over what the build of another
map has left: pages through either region on both sides of the cut, a block in the section of
one kind, and a fault above the window. -/
theorem walk_build_split : ∃ (p : Partition) (area : TableArea),
    p.regions = [⟨0, 0x80000, .normalNonCacheable⟩, ⟨0x200000, 0x200000, .normalNonCacheable⟩,
      ⟨0x80000, 0x180000, .device⟩] ∧
    area = (TableArea.empty.applyAll (build .standard ⟨0x100000⟩).emitted).applyAll
      (build p ⟨0x80000⟩).emitted ∧
    ∃ below above block,
      area.walk ⟨0x80000⟩ ⟨0xffff00000007f234⟩ = .ok (.mapped ⟨0x7f234⟩ below 3) ∧
      Leaf.memory below = some .normalNonCacheable ∧
      area.walk ⟨0x80000⟩ ⟨0x80234⟩ = .ok (.mapped ⟨0x80234⟩ above 3) ∧
      Leaf.memory above = some .device ∧ above.test Leaf.pxn = true ∧
      area.walk ⟨0x80000⟩ ⟨0x201234⟩ = .ok (.mapped ⟨0x201234⟩ block 2) ∧
      Leaf.memory block = some .normalNonCacheable ∧
      area.walk ⟨0x80000⟩ ⟨0x400000⟩ = .ok (.fault 2) := by
  refine ⟨⟨_, rfl⟩, _, rfl, rfl, ?_⟩
  have tables := walk_build ⟨[⟨0, 0x80000, .normalNonCacheable⟩,
    ⟨0x200000, 0x200000, .normalNonCacheable⟩, ⟨0x80000, 0x180000, .device⟩], rfl⟩ ⟨0x80000⟩
    (TableArea.empty.applyAll (build .standard ⟨0x100000⟩).emitted) (by decide) (by decide)
  obtain ⟨below, _, belowMapped, belowKind, _, _, _, _, _, belowMixed⟩ :=
    (tables.2 ⟨0xffff00000007f234⟩).1 (by decide)
  obtain ⟨above, _, aboveMapped, aboveKind, never, _, _, _, _, aboveMixed⟩ :=
    (tables.2 ⟨0x80234⟩).1 (by decide)
  obtain ⟨block, _, blockMapped, blockKind, _, _, _, _, uniform, _⟩ :=
    (tables.2 ⟨0x201234⟩).1 (by decide)
  obtain ⟨first, second, firstIndex, secondIndex, fault⟩ := (tables.2 ⟨0x400000⟩).2 (by decide)
  cases belowMixed ⟨0x80000, by decide, by decide⟩
  cases aboveMixed ⟨0, by decide, by decide⟩
  have whole := uniform fun a inSection => by
    have held : Region.Spans ⟨0x200000, 0x200000, .normalNonCacheable⟩ a.toNat := by
      have second : a.toNat / 0x200000 = 1 := inSection
      change 0x200000 ≤ a.toNat ∧ a.toNat < 0x200000 + 0x200000
      omega
    exact (kindAt_of_mem (by simp) held).trans (by decide)
  cases whole
  cases firstIndex
  cases secondIndex
  exact ⟨below, above, block, belowMapped, belowKind, aboveMapped, aboveKind,
    never.mpr (by decide), blockMapped, blockKind, fault⟩

end Build
end ColdStart
