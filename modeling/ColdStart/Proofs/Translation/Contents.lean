import ColdStart.Proofs.Address.Place
import ColdStart.Proofs.Partition.Span
import ColdStart.Proofs.Translation.Descriptor
import ColdStart.Proofs.Translation.Numbering
import ColdStart.Translation.Build

/-! What a build leaves in the table area. The stores of a build are given in one
piece: after the area has been cleared, each place on a list is given the word
that `contents` has for it, and `contents` is zero at every other place. So the
area afterwards is `contents`, whatever was there before, and two builds with the
same contents cannot be told apart. -/
namespace ColdStart

namespace TableArea

/-- A place of the area. -/
abbrev Slot := Fin tableCount × Fin entriesPerTable

theorem applyAll_cons (area : TableArea) (s : Store) (rest : List Store) :
    area.applyAll (s :: rest) = (area.apply s).applyAll rest := rfl

/-- Stores that give every place its value under one function leave that value at the
places they name. -/
theorem get_applyAll (value : Slot → Word) (area : TableArea) (slots : List Slot) (slot : Slot) :
    (area.applyAll (slots.map fun s => .entry s.1 s.2 (value s))).get slot.1 slot.2 =
      if slot ∈ slots then value slot else area.get slot.1 slot.2 := by
  induction slots generalizing area with
  | nil => simp [applyAll]
  | cons s rest ih =>
    rw [List.map_cons, applyAll_cons, ih]
    by_cases later : slot ∈ rest
    · rw [if_pos later, if_pos (List.mem_cons_of_mem s later)]
    · rw [if_neg later, apply, get_set]
      by_cases here : slot = s
      · subst here
        simp
      · have apart : ¬ (s.1 = slot.1 ∧ s.2 = slot.2) := fun same =>
          here (Prod.ext same.1 same.2).symm
        rw [if_neg apart, if_neg]
        simp [here, later]

theorem entry_eq (area : TableArea) {table : TableId} {place : Fin tableCount}
    (position : table.position = .ok place) (index : Fin entriesPerTable) :
    area.entry table index = .ok (area.get place index) := by
  rw [entry, position]
  exact dif_pos index.isLt

/-- Two areas with the same words in all their places are the same. -/
theorem eq_of_get {area other : TableArea} (same : ∀ t i, area.get t i = other.get t i) :
    area = other := by
  obtain ⟨words⟩ := area
  obtain ⟨others⟩ := other
  congr 1
  apply Vector.ext
  intro n inside
  have table : n / entriesPerTable < tableCount := by
    simp only [areaEntries, tableCount, sectionCount, entriesPerTable] at *
    omega
  have index : n % entriesPerTable < entriesPerTable := Nat.mod_lt _ (by decide)
  have place : (slotOf ⟨_, table⟩ ⟨_, index⟩).val = n := Nat.div_add_mod' n entriesPerTable
  have words := same ⟨_, table⟩ ⟨_, index⟩
  simp only [get, Fin.getElem_fin, place] at words
  exact words

end TableArea

namespace Build
open ColdStart.Partition

def sectionStart (n : Nat) : Word :=
  BitVec.ofNat 64 n * sectionSize

/-- The address that a last-level entry of a section's table maps. -/
def pageStart (n : Nat) (index : Fin entriesPerTable) : Word :=
  sectionStart n + BitVec.ofNat 64 index * pageSize

theorem toNat_sectionStart {n : Nat} (within : n < sectionCount) :
    (sectionStart n).toNat = n * 0x200000 := by
  simp only [sectionCount] at within
  rw [sectionStart, BitVec.toNat_mul, BitVec.toNat_ofNat, toNat_sectionSize]
  omega

theorem toNat_pageStart {n : Nat} (within : n < sectionCount) (index : Fin entriesPerTable) :
    (pageStart n index).toNat = n * 0x200000 + index * 0x1000 := by
  have start := toNat_sectionStart within
  have bound := index.isLt
  simp only [sectionCount, entriesPerTable] at within bound
  rw [pageStart, BitVec.toNat_add, BitVec.toNat_mul, BitVec.toNat_ofNat, start, toNat_pageSize]
  omega

/-- Neither the start of a section nor the offset of a page in it leaves the word. -/
theorem mul?_sectionSize {n : Nat} (within : n < sectionCount) :
    Word.mul? sectionSize (BitVec.ofNat 64 n) = .ok (sectionStart n) := by
  have fits : sectionSize.toNat * (BitVec.ofNat 64 n).toNat < Word.count := by
    simp only [sectionCount] at within
    rw [BitVec.toNat_ofNat, toNat_sectionSize, Word.count]
    omega
  rw [Word.mul?_ok fits, BitVec.mul_comm, sectionStart]

theorem mul?_pageSize (index : Fin entriesPerTable) :
    Word.mul? pageSize (BitVec.ofNat 64 index) = .ok (BitVec.ofNat 64 index * pageSize) := by
  have fits : pageSize.toNat * (BitVec.ofNat 64 index).toNat < Word.count := by
    have bound := index.isLt
    simp only [entriesPerTable] at bound
    rw [BitVec.toNat_ofNat, toNat_pageSize, Word.count]
    omega
  rw [Word.mul?_ok fits, BitVec.mul_comm]

/-- The kind of a section, if it has only one. -/
def sectionKind (p : Partition) (n : Nat) : Option MemoryKind :=
  match p.kindOver (sectionStart n) sectionSize with
  | .ok kind => kind
  | .error _ => none

theorem kindOver_section (p : Partition) (n : Nat) :
    p.kindOver (sectionStart n) sectionSize = .ok (sectionKind p n) := by
  obtain ⟨kind, ended, _⟩ := @kindOver_spec p (sectionStart n) sectionSize (by decide)
  rw [sectionKind, ended]

theorem sectionKind_eq_some_iff {p : Partition} {n : Nat} {kind : MemoryKind} :
    sectionKind p n = some kind ↔
      ∀ a, InSpan (sectionStart n) sectionSize a → p.kindAt a = kind := by
  obtain ⟨verdict, ended, uniform⟩ :=
    @kindOver_spec p (sectionStart n) sectionSize (by decide)
  rw [kindOver_section] at ended
  rw [← uniform kind, Except.ok.inj ended]

/-- Every address of the section has this kind. -/
def Uniform (p : Partition) (n : Nat) (kind : MemoryKind) : Prop :=
  ∀ a : Word, a.toNat / sectionSize.toNat = n → p.kindAt a = kind

/-- Two addresses of the section differ in kind. -/
def Mixed (p : Partition) (n : Nat) : Prop :=
  ∃ a b : Word, a.toNat / sectionSize.toNat = n ∧ b.toNat / sectionSize.toNat = n ∧
    p.kindAt a ≠ p.kindAt b

theorem inSpan_section {n : Nat} (within : n < sectionCount) {a : Word} :
    InSpan (sectionStart n) sectionSize a ↔ a.toNat / sectionSize.toNat = n := by
  have start := toNat_sectionStart within
  rw [InSpan, toNat_sectionSize]
  omega

theorem uniform_iff {p : Partition} {n : Nat} (within : n < sectionCount) {kind : MemoryKind} :
    Uniform p n kind ↔ sectionKind p n = some kind := by
  rw [sectionKind_eq_some_iff]
  simp only [Uniform, inSpan_section within]

theorem mixed_iff {p : Partition} {n : Nat} (within : n < sectionCount) :
    Mixed p n ↔ sectionKind p n = none := by
  constructor
  · rintro ⟨a, b, aIn, bIn, differ⟩
    cases kind : sectionKind p n with
    | none => rfl
    | some k =>
      have uniform := (uniform_iff within).mpr kind
      exact absurd ((uniform a aIn).trans (uniform b bIn).symm) differ
  · intro none
    by_contra alike
    simp only [Mixed, not_exists, not_and, not_not] at alike
    have first : (sectionStart n).toNat / sectionSize.toNat = n := by
      rw [toNat_sectionStart within]
      exact Nat.mul_div_cancel n (by decide)
    have uniform : Uniform p n (p.kindAt (sectionStart n)) := fun a aIn =>
      alike a (sectionStart n) aIn first
    rw [uniform_iff within, none] at uniform
    contradiction

def tableOffset (n : Nat) : Word :=
  3 * pageSize + BitVec.ofNat 64 (n * pageSize.toNat)

theorem toNat_tableOffset {n : Nat} (within : n < sectionCount) :
    (tableOffset n).toNat = 0x3000 + n * 0x1000 := by
  have three : (3 * pageSize).toNat = 0x3000 := rfl
  simp only [sectionCount] at within
  rw [tableOffset, BitVec.toNat_add, BitVec.toNat_ofNat, three, toNat_pageSize]
  omega

def linkWord (base : PhysAddr) (offset : Word) : Word :=
  (Link.forTable ⟨base.word + offset⟩).word

def sectionWord (p : Partition) (base : PhysAddr) (n : Nat) : Word :=
  match sectionKind p n with
  | some kind => (Leaf.block ⟨sectionStart n⟩ kind).word
  | none => linkWord base (tableOffset n)

def pageWord (p : Partition) (n : Nat) (index : Fin entriesPerTable) : Word :=
  (Leaf.lastLevel ⟨pageStart n index⟩ (p.kindAt (pageStart n index))).word

/-- What a build leaves at each place of the area. -/
def contents (p : Partition) (base : PhysAddr) (slot : TableArea.Slot) : Word :=
  match slot.1.val with
  | 0 => if slot.2.val = 0 then linkWord base pageSize else 0
  | 1 => if slot.2.val = 0 then linkWord base (2 * pageSize) else 0
  | 2 => if slot.2.val < sectionCount then sectionWord p base slot.2 else 0
  | n + 3 => if sectionKind p n = none then pageWord p n slot.2 else 0

theorem zero_lt_tables : 0 < tableCount := by decide

theorem one_lt_tables : 1 < tableCount := by decide

theorem two_lt_tables : 2 < tableCount := by decide

theorem zero_lt_entries : 0 < entriesPerTable := by decide

/-- There are fewer sections than a table has entries. -/
theorem section_lt_entries (n : Fin sectionCount) : n.val < entriesPerTable :=
  Nat.lt_trans n.isLt (by decide)

def sectionSlot (n : Fin sectionCount) : TableArea.Slot :=
  (⟨2, two_lt_tables⟩, ⟨n, section_lt_entries n⟩)

def pageSlot (n : Fin sectionCount) (index : Fin entriesPerTable) : TableArea.Slot :=
  (⟨3 + n, Nat.add_lt_add_left n.isLt 3⟩, index)

/-- The places a section's build stores to, in order. -/
def sectionSlots (p : Partition) (n : Fin sectionCount) : List TableArea.Slot :=
  sectionSlot n ::
    if sectionKind p n = none then (List.finRange entriesPerTable).map (pageSlot n) else []

/-- The places a build stores to, in order. -/
def slots (p : Partition) : List TableArea.Slot :=
  (⟨0, zero_lt_tables⟩, ⟨0, zero_lt_entries⟩) :: (⟨1, one_lt_tables⟩, ⟨0, zero_lt_entries⟩) ::
    (List.finRange sectionCount).flatMap (sectionSlots p)

def tallied (p : Partition) (tally : BuildTally) (n : Fin sectionCount) : BuildTally :=
  if sectionKind p n = none then { tally with pages := tally.pages + entriesPerTable }
  else { tally with blocks := tally.blocks + 1 }

def storeAt (p : Partition) (base : PhysAddr) (slot : TableArea.Slot) : Store :=
  .entry slot.1 slot.2 (contents p base slot)

variable {p : Partition} {base : PhysAddr}

theorem linkTo_ok {table : TableId} {offset : Word} (place : table.offset = .ok offset)
    (room : base.word.toNat + offset.toNat < Word.count) :
    linkTo base table = .ok (linkWord base offset) := by
  rw [linkTo, place]
  simp only [bind, Except.bind, PhysAddr.advance, Functor.map, Except.map, Word.add?_ok room,
    Link.forTable?_eq, linkWord, pure, Except.pure]

theorem store_eq {table : TableId} {place : Fin tableCount} (position : table.position = .ok place)
    (index : Fin entriesPerTable) (word : Word) :
    store table index word = ⟨[.entry place index word], .ok ()⟩ := by
  rw [store, position]
  rfl

theorem position_level3 (n : Fin sectionCount) :
    (TableId.level3 n).position = .ok ⟨3 + n, Nat.add_lt_add_left n.isLt 3⟩ :=
  dif_pos n.isLt

theorem offset_level3 (n : Fin sectionCount) : (TableId.level3 n).offset = .ok (tableOffset n) := by
  rw [TableId.offset_eq_ok_iff, toNat_tableOffset n.isLt, TableId.number, toNat_pageSize]
  omega

theorem contents_level3 (n : Fin sectionCount) (index : Fin entriesPerTable) :
    contents p base (pageSlot n index) = if sectionKind p n = none then pageWord p n index else 0 := by
  simp only [contents, pageSlot, Nat.add_comm 3]

theorem contents_pageSlot {n : Fin sectionCount} (mixed : sectionKind p n = none)
    (index : Fin entriesPerTable) : contents p base (pageSlot n index) = pageWord p n index := by
  rw [contents_level3, if_pos mixed]

theorem contents_sectionSlot (n : Fin sectionCount) :
    contents p base (sectionSlot n) = sectionWord p base n := by
  simp only [contents, sectionSlot, n.isLt, if_true]

theorem page_eq {n : Fin sectionCount} (mixed : sectionKind p n = none)
    (index : Fin entriesPerTable) :
    page p ⟨sectionStart n⟩ (.level3 n) index = ⟨[storeAt p base (pageSlot n index)], .ok ()⟩ := by
  have offset : (BitVec.ofNat 64 index * pageSize).toNat = index * 0x1000 := by
    have bound := index.isLt
    simp only [entriesPerTable] at bound
    rw [BitVec.toNat_mul, BitVec.toNat_ofNat, toNat_pageSize]
    omega
  have sum : (PhysAddr.mk (sectionStart n)).advance (BitVec.ofNat 64 index * pageSize) =
      .ok ⟨pageStart n index⟩ := by
    have room : (sectionStart n).toNat + (BitVec.ofNat 64 index * pageSize).toNat < Word.count := by
      have bound := index.isLt
      have within := n.isLt
      simp only [entriesPerTable, sectionCount] at bound within
      rw [offset, toNat_sectionStart n.isLt, Word.count]
      omega
    simp only [PhysAddr.advance, Word.add?_ok room]
    rfl
  rw [page, mul?_pageSize, Emission.lift_ok_bind, sum, Emission.lift_ok_bind, kindAt?_eq,
    Emission.lift_ok_bind, Leaf.lastLevel?_eq, Emission.lift_ok_bind,
    store_eq (position_level3 n), storeAt, contents_pageSlot mixed]
  rfl

theorem index_sectionStart (n : Fin sectionCount) :
    (PhysAddr.mk (sectionStart n)).lowerAlias.index 2 = .ok (sectionSlot n).2 := by
  rw [VirtAddr.index_ok _ (by decide)]
  congr 1
  apply Fin.ext
  have bound := n.isLt
  simp only [sectionCount] at bound
  simp only [VirtAddr.placeAt_val, PhysAddr.lowerAlias, toNat_sectionStart n.isLt, sectionSlot,
    VirtAddr.indexShift, pageShift, tableShift]
  omega

theorem pages_eq {n : Fin sectionCount} (mixed : sectionKind p n = none) :
    (List.finRange entriesPerTable).forM (page p ⟨sectionStart n⟩ (.level3 n)) =
      ⟨((List.finRange entriesPerTable).map (pageSlot n)).map (storeAt p base), .ok ()⟩ := by
  rw [Emission.forM_of_ok fun index _ => page_eq mixed index, List.map_map, List.map_eq_flatMap]
  rfl

/-- A section of one kind gets a block. -/
theorem addSection_of_uniform {n : Fin sectionCount} {kind : MemoryKind}
    (uniform : sectionKind p n = some kind) (tally : BuildTally) :
    addSection p base tally n = (do
      store .level2 (sectionSlot n).2 (Leaf.block ⟨sectionStart n⟩ kind).word
      return { tally with blocks := tally.blocks + 1 }) := by
  rw [addSection, mul?_sectionSize n.isLt, Emission.lift_ok_bind, addSectionAt]
  simp only [index_sectionStart, kindOver_section, uniform, Leaf.block?_eq, Emission.lift_ok_bind]

/-- A section of two kinds gets a link to its last-level table, and its pages. -/
theorem addSection_of_mixed {n : Fin sectionCount} (mixed : sectionKind p n = none)
    (tally : BuildTally) :
    addSection p base tally n = (do
      store .level2 (sectionSlot n).2 (← linkTo base (.level3 n))
      (List.finRange entriesPerTable).forM (page p ⟨sectionStart n⟩ (.level3 n))
      return { tally with pages := tally.pages + entriesPerTable }) := by
  rw [addSection, mul?_sectionSize n.isLt, Emission.lift_ok_bind, addSectionAt]
  simp only [index_sectionStart, kindOver_section, mixed, Emission.lift_ok_bind]

theorem addSection_eq {n : Fin sectionCount} (linkable : sectionKind p n = none →
      base.word.toNat + (tableOffset n).toNat < Word.count) (tally : BuildTally) :
    addSection p base tally n =
      ⟨(sectionSlots p n).map (storeAt p base), .ok (tallied p tally n)⟩ := by
  have stored (word : Word) : store .level2 (sectionSlot n).2 word =
      ⟨[.entry (sectionSlot n).1 (sectionSlot n).2 word], .ok ()⟩ := store_eq rfl _ _
  have first : storeAt p base (sectionSlot n) =
      .entry (sectionSlot n).1 (sectionSlot n).2 (sectionWord p base n) := by
    rw [storeAt, contents_sectionSlot]
  cases kind : sectionKind p n with
  | some k =>
    have word : sectionWord p base n = (Leaf.block ⟨sectionStart n⟩ k).word := by
      rw [sectionWord, kind]
    have apart : ¬ sectionKind p n = none := by
      rw [kind]
      exact Option.some_ne_none k
    rw [addSection_of_uniform kind, stored, sectionSlots, tallied, if_neg apart, if_neg apart,
      List.map_singleton, first, word]
    rfl
  | none =>
    have word : sectionWord p base n = linkWord base (tableOffset n) := by
      rw [sectionWord, kind]
    have linked : linkTo base (.level3 n) = .ok (linkWord base (tableOffset n)) :=
      linkTo_ok (offset_level3 n) (linkable kind)
    have pages : (List.finRange entriesPerTable).forM (page p ⟨sectionStart n⟩ (.level3 n)) =
        ⟨((List.finRange entriesPerTable).map (pageSlot n)).map (storeAt p base), .ok ()⟩ :=
      pages_eq kind
    rw [addSection_of_mixed kind, linked, Emission.lift_ok_bind, stored, pages, sectionSlots,
      tallied, if_pos kind, if_pos kind, List.map_cons, first, word, Emission.mk_ok_bind,
      Emission.mk_ok_bind]
    simp only [Emission.emitted_pure, Emission.outcome_pure, List.append_nil, List.singleton_append]

theorem mem_slots {slot : TableArea.Slot} :
    slot ∈ slots p ↔ slot = (⟨0, by decide⟩, ⟨0, by decide⟩) ∨
      slot = (⟨1, by decide⟩, ⟨0, by decide⟩) ∨
      ∃ n, slot = sectionSlot n ∨ (sectionKind p n = none ∧ ∃ index, slot = pageSlot n index) := by
  have inSection (n : Fin sectionCount) : slot ∈ sectionSlots p n ↔
      slot = sectionSlot n ∨ (sectionKind p n = none ∧ ∃ index, slot = pageSlot n index) := by
    rw [sectionSlots, List.mem_cons]
    by_cases mixed : sectionKind p n = none
    · simp [mixed, eq_comm]
    · simp [mixed]
  simp only [slots, List.mem_cons, List.mem_flatMap, List.mem_finRange, true_and, inSection]

/-- A build stores to every place that has contents. -/
theorem contents_of_not_mem {slot : TableArea.Slot} (outside : slot ∉ slots p) :
    contents p base slot = 0 := by
  rw [mem_slots] at outside
  simp only [not_or, not_exists, not_and] at outside
  obtain ⟨first, second, sections⟩ := outside
  obtain ⟨⟨t, below⟩, i⟩ := slot
  match t, below with
  | 0, _ => exact if_neg fun zero => first (Prod.ext rfl (Fin.ext zero))
  | 1, _ => exact if_neg fun zero => second (Prod.ext rfl (Fin.ext zero))
  | 2, _ => exact if_neg fun within => (sections ⟨i, within⟩).1 rfl
  | n + 3, below =>
    have within : n < sectionCount := by
      simp only [tableCount] at below
      omega
    refine if_neg fun mixed => (sections ⟨n, within⟩).2 mixed i (Prod.ext (Fin.ext ?_) rfl)
    exact Nat.add_comm n 3

/-- The address of every table that a build links is a word. -/
structure Linkable (p : Partition) (base : PhysAddr) : Prop where
  level1 : base.word.toNat + pageSize.toNat < Word.count
  level2 : base.word.toNat + (2 * pageSize).toNat < Word.count
  level3 : ∀ n : Fin sectionCount, sectionKind p n = none →
    base.word.toNat + (tableOffset n).toNat < Word.count

theorem linkable_of_room (room : base.word.toNat + areaSize.toNat ≤ Word.count) : Linkable p base := by
  have size := toNat_areaSize
  have one := toNat_pageSize
  have two : (2 * pageSize).toNat = 0x2000 := rfl
  refine ⟨by omega, by omega, fun n _ => ?_⟩
  have bound := n.isLt
  have offset := toNat_tableOffset n.isLt
  simp only [sectionCount] at bound
  omega

theorem build_of_linkable (aligned : base.word.toNat % 0x1000 = 0) (linkable : Linkable p base) :
    build p base = ⟨.clear :: (slots p).map (storeAt p base),
      .ok ((List.finRange sectionCount).foldl (tallied p) ⟨0, 0⟩)⟩ := by
  have first : linkTo base .level1 = .ok (linkWord base pageSize) := linkTo_ok rfl linkable.level1
  have second : linkTo base .level2 = .ok (linkWord base (2 * pageSize)) :=
    linkTo_ok rfl linkable.level2
  have sections : (List.range sectionCount).foldlM (addSection p base) ⟨0, 0⟩ =
      ⟨(List.finRange sectionCount).flatMap fun n => (sectionSlots p n).map (storeAt p base),
        .ok ((List.finRange sectionCount).foldl (tallied p) ⟨0, 0⟩)⟩ := by
    rw [← List.map_coe_finRange_eq_range, List.foldlM_map]
    exact Emission.foldlM_of_ok (fun tally n _ => addSection_eq (linkable.level3 n) tally) _
  unfold build
  rw [PhysAddr.isMultiple_page, decide_eq_true aligned, first, second, sections, slots,
    List.map_cons, List.map_cons, List.map_flatMap]
  rfl

/-- What a build leaves is `contents`, over whatever was in the area. -/
theorem get_build_of_linkable (aligned : base.word.toNat % 0x1000 = 0) (linkable : Linkable p base)
    (area : TableArea) (slot : TableArea.Slot) :
    (area.applyAll (build p base).emitted).get slot.1 slot.2 = contents p base slot := by
  rw [build_of_linkable aligned linkable, TableArea.applyAll_cons]
  unfold storeAt
  rw [TableArea.get_applyAll (contents p base)]
  by_cases stored : slot ∈ slots p
  · rw [if_pos stored]
  · rw [if_neg stored, contents_of_not_mem stored]
    exact TableArea.get_empty _ _

section
variable (aligned : base.word.toNat % 0x1000 = 0)
  (room : base.word.toNat + areaSize.toNat ≤ Word.count)
include aligned room

theorem build_eq : build p base = ⟨.clear :: (slots p).map (storeAt p base),
    .ok ((List.finRange sectionCount).foldl (tallied p) ⟨0, 0⟩)⟩ :=
  build_of_linkable aligned (linkable_of_room room)

theorem get_build (area : TableArea) (slot : TableArea.Slot) :
    (area.applyAll (build p base).emitted).get slot.1 slot.2 = contents p base slot :=
  get_build_of_linkable aligned (linkable_of_room room) area slot

end

section
variable {q : Partition} (same : ∀ a, p.kindAt a = q.kindAt a)
include same

theorem kindOver_congr (start : Word) :
    p.kindOver start sectionSize = q.kindOver start sectionSize := by
  obtain ⟨verdict, ended, uniform⟩ := @kindOver_spec p start sectionSize (by decide)
  obtain ⟨other, ended', uniform'⟩ := @kindOver_spec q start sectionSize (by decide)
  rw [ended, ended']
  congr 1
  apply Option.ext
  intro kind
  rw [uniform, uniform']
  simp only [same]

/-- Partitions with the same kinds have the same build, store by store, at any base. -/
theorem build_congr (base : PhysAddr) : build p base = build q base := by
  have pages : page p = page q := by
    funext start table index
    unfold page
    simp only [kindAt?_eq, same]
  have sections : addSectionAt p base = addSectionAt q base := by
    funext tally n start
    unfold addSectionAt
    simp only [kindOver_congr same, pages]
  unfold build addSection
  rw [sections]

end

/-- The tables are a function of what the partition says of the window: neither the order
nor the cuts of its regions, nor anything that was in the area, can be told from them. -/
theorem build_by_kinds (p q : Partition) (base : PhysAddr) (area other : TableArea)
    (aligned : base.word.toNat % pageSize.toNat = 0)
    (room : base.word.toNat + areaSize.toNat ≤ Word.count)
    (same : ∀ a, a < windowSize → p.kindAt a = q.kindAt a) :
    ∃ tally, (build p base).outcome = .ok tally ∧ (build q base).outcome = .ok tally ∧
      area.applyAll (build p base).emitted = other.applyAll (build q base).emitted := by
  have everywhere : ∀ a, p.kindAt a = q.kindAt a := by
    intro a
    by_cases inside : a < windowSize
    · exact same a inside
    · rw [kindAt_of_outside (BitVec.not_lt.mp inside), kindAt_of_outside (BitVec.not_lt.mp inside)]
  rw [← build_congr everywhere base]
  refine ⟨_, congrArg Emission.outcome (build_eq aligned room),
    congrArg Emission.outcome (build_eq aligned room), TableArea.eq_of_get fun t i => ?_⟩
  exact (get_build aligned room area (t, i)).trans (get_build aligned room other (t, i)).symm

/-- The boot map, and its regions cut and turned around, over an area that the build of
another base has left. -/
theorem build_by_kinds_cut : ∃ q : Partition,
    q.regions = [⟨0x200000, 0x200000, .device⟩, ⟨0x1000, 0x1ff000, .normalNonCacheable⟩,
      ⟨0, 0x1000, .normalNonCacheable⟩] ∧
    ∃ tally, (build .standard ⟨0x80000⟩).outcome = .ok tally ∧
      (build q ⟨0x80000⟩).outcome = .ok tally ∧
      TableArea.empty.applyAll (build .standard ⟨0x80000⟩).emitted =
        (TableArea.empty.applyAll (build q ⟨0x100000⟩).emitted).applyAll
          (build q ⟨0x80000⟩).emitted := by
  refine ⟨⟨_, rfl⟩, rfl, build_by_kinds _ _ _ _ _ (by decide) (by decide) fun a _ => ?_⟩
  exact kindAt_eq_of_cut (by decide) a

end Build
end ColdStart
