import ColdStart.Profile
import ColdStart.Proofs.Translation.Identity

/-! A census of the tables after a build: which entries of which table are valid, what
they are, and that all the others are zero, those included that no walk ever reads. In
each table the valid entries are the first so many, so one lemma lists them all, and the
numbers that the build reports are the lengths of these lists. Together the leaves map
as many bytes as the window has. -/
namespace ColdStart

/-- Where only the first entries of a list have a value, these are left. -/
theorem filterMap_finRange_of_first {α : Type} {m n : Nat} (le : n ≤ m) {f : Fin m → Option α}
    {g : Fin n → α} (first : ∀ i : Fin n, f (i.castLE le) = some (g i))
    (rest : ∀ i : Fin m, n ≤ i.val → f i = none) :
    (List.finRange m).filterMap f = (List.finRange n).map g := by
  induction m with
  | zero =>
    obtain rfl := Nat.le_zero.mp le
    rfl
  | succ m ih =>
    by_cases all : n = m + 1
    · subst all
      rw [show f = fun i => some (g i) from funext first, List.filterMap_eq_map']
    · have below : n ≤ m := by omega
      have last : f (Fin.last m) = none := rest _ below
      have before := ih below (f := fun i => f i.castSucc) first fun i => rest i.castSucc
      rw [List.finRange_succ_last, List.filterMap_append, List.filterMap_map]
      simp only [List.filterMap_cons, last, List.filterMap_nil, List.append_nil]
      exact before

namespace TableId

/-- The level at which a walk meets the table. -/
def level : TableId → Nat
  | level0 => 0
  | level1 => 1
  | level2 => 2
  | level3 _ => 3

end TableId

namespace TableArea
variable {area : TableArea} {table : TableId} {place : Fin tableCount}

theorem validEntries_of_first (position : table.position = .ok place) {n : Nat}
    (le : n ≤ entriesPerTable)
    (valid : ∀ i, (area.get place i).getLsbD 0 = decide (i.val < n)) :
    area.validEntries table =
      .ok ((List.finRange n).map fun i => (i.val, area.get place (i.castLE le))) := by
  rw [validEntries, position]
  refine congrArg Except.ok (filterMap_finRange_of_first le (fun i => ?_) fun i past => ?_)
  · simp only [valid, Fin.val_castLE, i.isLt, decide_true, if_true]
  · simp only [valid, Nat.not_lt.mpr past, decide_false, Bool.false_eq_true, if_false]

theorem slot_of_entry {index : Nat} {word : Word} (read : area.entry table index = .ok word) :
    ∃ (place : Fin tableCount) (i : Fin entriesPerTable),
      table.position = .ok place ∧ i.val = index ∧ area.get place i = word := by
  cases position : table.position with
  | error halt =>
    rw [entry, position] at read
    cases read
  | ok place =>
    by_cases inside : index < entriesPerTable
    · rw [area.entry_eq position ⟨index, inside⟩] at read
      exact ⟨place, ⟨index, inside⟩, rfl, rfl, Except.ok.inj read⟩
    · rw [entry, position] at read
      simp only [bind, Except.bind, dif_neg inside] at read
      cases read

end TableArea

/-- The entry is a block, as its level reads it. -/
def Entry.isBlock : Entry → Bool
  | block _ => true
  | _ => false

/-- The slot that a kind names holds its attribute byte. -/
theorem Profile.attributeAt_slot (kind : MemoryKind) :
    MairEl1.attributeAt mair kind.slot = .ok kind.encoding := by
  cases kind <;> rfl

namespace Build
open ColdStart.Partition

variable {p : Partition} {base : PhysAddr} {n : Nat}

theorem valid_linkWord (base : PhysAddr) (offset : Word) : (linkWord base offset).getLsbD 0 = true :=
  Link.test_valid_forTable _

theorem valid_sectionWord (p : Partition) (base : PhysAddr) (n : Nat) :
    (sectionWord p base n).getLsbD 0 = true := by
  unfold sectionWord
  cases sectionKind p n with
  | some kind => exact (Leaf.block_describes _ kind).valid
  | none => exact valid_linkWord base _

theorem valid_pageWord (p : Partition) (n : Nat) (index : Fin entriesPerTable) :
    (pageWord p n index).getLsbD 0 = true :=
  (Leaf.lastLevel_describes _ _).valid

/-- How many entries of table number `t` a build leaves valid. -/
def validCount (p : Partition) : Nat → Nat
  | 0 | 1 => 1
  | 2 => sectionCount
  | n + 3 => if sectionKind p n = none then entriesPerTable else 0

theorem validCount_le (p : Partition) (t : Nat) : validCount p t ≤ entriesPerTable := by
  have few : 1 ≤ entriesPerTable ∧ sectionCount ≤ entriesPerTable := by decide
  unfold validCount
  split
  · exact few.1
  · exact few.1
  · exact few.2
  · split
    · exact Nat.le_refl _
    · exact Nat.zero_le _

theorem contents_early {slot : TableArea.Slot} (early : slot.2.val < validCount p slot.1) :
    (contents p base slot).getLsbD 0 = true := by
  obtain ⟨⟨t, below⟩, i⟩ := slot
  match t, below with
  | 0, below =>
    have word : contents p base (⟨0, below⟩, i) = linkWord base pageSize :=
      if_pos (Nat.lt_one_iff.mp early)
    rw [word, valid_linkWord]
  | 1, below =>
    have word : contents p base (⟨1, below⟩, i) = linkWord base (2 * pageSize) :=
      if_pos (Nat.lt_one_iff.mp early)
    rw [word, valid_linkWord]
  | 2, below =>
    have word : contents p base (⟨2, below⟩, i) = sectionWord p base i := if_pos early
    rw [word, valid_sectionWord]
  | n + 3, below =>
    have mixed : sectionKind p n = none := by
      by_contra uniform
      simp only [validCount, uniform, if_false] at early
      exact Nat.not_lt_zero _ early
    have word : contents p base (⟨n + 3, below⟩, i) = pageWord p n i := if_pos mixed
    rw [word, valid_pageWord]

theorem contents_late {slot : TableArea.Slot} (late : validCount p slot.1 ≤ slot.2.val) :
    contents p base slot = 0 := by
  obtain ⟨⟨t, below⟩, i⟩ := slot
  match t, below with
  | 0, _ | 1, _ => exact if_neg (Nat.ne_of_gt late)
  | 2, _ => exact if_neg (Nat.not_lt.mpr late)
  | n + 3, _ =>
    refine if_neg fun mixed => ?_
    simp only [validCount, mixed, if_true] at late
    exact Nat.not_lt.mpr late i.isLt

theorem valid_contents (slot : TableArea.Slot) :
    (contents p base slot).getLsbD 0 = decide (slot.2.val < validCount p slot.1) := by
  by_cases early : slot.2.val < validCount p slot.1
  · rw [contents_early early, decide_eq_true early]
  · rw [contents_late (Nat.not_lt.mp early), decide_eq_false early]
    rfl

theorem contents_of_invalid {slot : TableArea.Slot}
    (invalid : (contents p base slot).getLsbD 0 = false) : contents p base slot = 0 := by
  rw [valid_contents, decide_eq_false_iff_not] at invalid
  exact contents_late (Nat.not_lt.mp invalid)

/-- What a walk reads from a table after a build. -/
def decoded (p : Partition) (base : PhysAddr) : TableId → Nat → Entry
  | .level0, index =>
    if index = 0 then .link (Link.forTable ⟨base.word + pageSize⟩) else .invalid
  | .level1, index =>
    if index = 0 then .link (Link.forTable ⟨base.word + 2 * pageSize⟩) else .invalid
  | .level2, index =>
    if index < sectionCount then
      match sectionKind p index with
      | some kind => .block (Leaf.block ⟨sectionStart index⟩ kind)
      | none => .link (Link.forTable ⟨base.word + tableOffset index⟩)
    else
      .invalid
  | .level3 n, index =>
    if sectionKind p n = none then
      let start := sectionStart n + BitVec.ofNat 64 index * pageSize
      .page (Leaf.lastLevel ⟨start⟩ (p.kindAt start))
    else
      .invalid

theorem ofWord_contents {table : TableId} {place : Fin tableCount}
    (position : table.position = .ok place) (index : Fin entriesPerTable) :
    Entry.ofWord (contents p base (place, index)) table.level = decoded p base table index := by
  have ite_eq {c : Prop} [Decidable c] {word : Word} {level : Nat} {e : Entry}
      (same : c → Entry.ofWord word level = e) :
      Entry.ofWord (if c then word else 0) level = if c then e else .invalid := by
    by_cases holds : c
    · rw [if_pos holds, if_pos holds, same holds]
    · rw [if_neg holds, if_neg holds, Entry.ofWord_zero]
  cases table with
  | level0 =>
    cases position
    exact ite_eq fun _ => Entry.ofWord_forTable _ (by decide)
  | level1 =>
    cases position
    exact ite_eq fun _ => Entry.ofWord_forTable _ (by decide)
  | level2 =>
    cases position
    refine ite_eq fun _ => ?_
    unfold sectionWord
    cases sectionKind p index with
    | some kind => exact Entry.ofWord_block _ kind
    | none => exact Entry.ofWord_forTable _ (by decide)
  | level3 n =>
    by_cases within : n < sectionCount
    · cases (position_level3 ⟨n, within⟩).symm.trans position
      exact (congrArg (Entry.ofWord · 3) (contents_level3 ⟨n, within⟩ index)).trans
        (ite_eq fun _ => Entry.ofWord_lastLevel _ _)
    · rw [TableId.position, dif_neg within] at position
      cases position

theorem ofWord_section (p : Partition) (base : PhysAddr) (n : Fin sectionCount) :
    Entry.ofWord (contents p base (⟨2, by decide⟩, n.castLE (by decide))) 2 =
      match sectionKind p n with
      | some kind => .block (sectionLeaf n kind)
      | none => .link (Link.forTable ⟨base.word + tableOffset n⟩) :=
  (ofWord_contents (show TableId.level2.position = .ok ⟨2, by decide⟩ from rfl) _).trans
    (if_pos n.isLt)

/-- A leaf that is read at the level of its table describes memory of some kind. -/
theorem describes_of_decoded {table : TableId} {index : Nat} {leaf : Value .leaf}
    (found : decoded p base table index = .block leaf ∨ decoded p base table index = .page leaf) :
    ∃ pa kind, Leaf.Describes leaf pa kind := by
  unfold decoded at found
  split at found
  · split at found <;> simp at found
  · split at found <;> simp at found
  · split at found
    · split at found
      · simp only [Entry.block.injEq, reduceCtorEq, or_false] at found
        exact ⟨_, _, found ▸ Leaf.block_describes _ _⟩
      · simp at found
    · simp at found
  · split at found
    · simp only [Entry.page.injEq, reduceCtorEq, false_or] at found
      exact ⟨_, _, found ▸ Leaf.lastLevel_describes _ _⟩
    · simp at found

/-- The entry decodes to a link to this table of the area at `base`. -/
def LinksTo (base : PhysAddr) (table : TableId) (level : Nat) (word : Word) : Prop :=
  ∃ view offset, Entry.ofWord word level = .link view ∧ table.offset = .ok offset ∧
    (Link.target view).word.toNat = base.word.toNat + offset.toNat

theorem linksTo_of_decoded (aligned : base.word.toNat % 0x1000 = 0)
    (room : base.word.toNat + areaSize.toNat ≤ 0x1000000000000) {table : TableId} {offset : Word}
    (place : table.offset = .ok offset) (whole : offset.toNat % 0x1000 = 0)
    (inside : offset.toNat < areaSize.toNat) {level : Nat} {word : Word}
    (link : Entry.ofWord word level = .link (Link.forTable ⟨base.word + offset⟩)) :
    LinksTo base table level word := by
  have sum : (base.word + offset).toNat = base.word.toNat + offset.toNat := by
    rw [BitVec.toNat_add]
    omega
  have framed := PhysAddr.framed_mk (a := base.word + offset) (by omega) (by omega)
  exact ⟨_, offset, link, place, by rw [Link.target_forTable framed, sum]⟩

/-- What stands in the tables of a partition, and what was counted while they were built. -/
structure Census (p : Partition) (base : PhysAddr) (area : TableArea) (tally : BuildTally) :
    Prop where
  level0 : ∃ word, area.validEntries .level0 = .ok [(0, word)] ∧ LinksTo base .level1 0 word
  level1 : ∃ word, area.validEntries .level1 = .ok [(0, word)] ∧ LinksTo base .level2 1 word
  /-- One entry for each section. -/
  level2 : ∃ word : Fin sectionCount → Word,
    area.validEntries .level2 = .ok ((List.finRange sectionCount).map fun n => (n.val, word n)) ∧
    ∀ n : Fin sectionCount, (∀ kind, Uniform p n kind →
        ∃ leaf, Entry.ofWord (word n) 2 = .block leaf ∧ Leaf.memory leaf = some kind) ∧
      (Mixed p n → LinksTo base (.level3 n) 2 (word n))
  uniform : ∀ (n : Fin sectionCount) (kind : MemoryKind), Uniform p n kind →
    ∀ index < entriesPerTable, area.entry (.level3 n) index = .ok 0
  mixed : ∀ n : Fin sectionCount, Mixed p n → ∃ word : Fin entriesPerTable → Word,
    area.validEntries (.level3 n) =
      .ok ((List.finRange entriesPerTable).map fun i => (i.val, word i)) ∧
    ∀ i, ∃ leaf, Entry.ofWord (word i) 3 = .page leaf ∧
      Leaf.memory leaf = some (p.kindAt (pageStart n i))
  /-- What is not valid is zero. -/
  vacant : ∀ table index word, area.entry table index = .ok word → word.getLsbD 0 = false → word = 0
  /-- Every leaf indexes the attribute byte of its kind. -/
  leaves : ∀ (table : TableId) index word leaf, area.entry table index = .ok word →
    Entry.ofWord word table.level = .block leaf ∨ Entry.ofWord word table.level = .page leaf →
    ∃ kind, Leaf.memory leaf = some kind ∧
      MairEl1.attributeAt Profile.mair (leaf.read Leaf.attrIndex).toNat = .ok kind.encoding
  blocks : ∃ entries, area.validEntries .level2 = .ok entries ∧
    tally.blocks = entries.countP fun e => (Entry.ofWord e.2 2).isBlock
  pages : ∃ entries : Fin sectionCount → List (Nat × Word),
    (∀ n : Fin sectionCount, area.validEntries (.level3 n) = .ok (entries n)) ∧
    tally.pages = ((List.finRange sectionCount).map fun n => (entries n).length).sum
  /-- The leaves map as many bytes as the window has. -/
  whole : tally.blocks * sectionSize.toNat + tally.pages * pageSize.toNat = windowSize.toNat

section
variable {area : TableArea} (holds : Holds p base area)
include holds

theorem validEntries_build {table : TableId} {place : Fin tableCount}
    (position : table.position = .ok place) {k : Nat} (le : k ≤ entriesPerTable)
    (count : validCount p place = k) :
    area.validEntries table =
      .ok ((List.finRange k).map fun i => (i.val, contents p base (place, i.castLE le))) := by
  subst count
  rw [TableArea.validEntries_of_first position le fun i => ?_]
  · exact congrArg Except.ok (List.map_congr_left fun i _ => by rw [holds (place, i.castLE le)])
  · rw [holds (place, i), valid_contents]

theorem contents_of_entry {table : TableId} {index : Nat} {word : Word}
    (read : area.entry table index = .ok word) : ∃ (place : Fin tableCount) (i : Fin entriesPerTable),
      table.position = .ok place ∧ i.val = index ∧ contents p base (place, i) = word := by
  obtain ⟨place, i, position, same, word⟩ := TableArea.slot_of_entry read
  exact ⟨place, i, position, same, (holds (place, i)).symm.trans word⟩

end

theorem validCount_level3 (p : Partition) (n : Nat) :
    validCount p (3 + n) = if sectionKind p n = none then entriesPerTable else 0 := by
  rw [Nat.add_comm, validCount]

/-- What a build counts is how many sections have one kind, and the entries of their tables. -/
theorem foldl_tallied (ns : List (Fin sectionCount)) (tally : BuildTally) :
    ns.foldl (tallied p) tally =
      { blocks := tally.blocks + ns.countP fun n : Fin sectionCount => sectionKind p n ≠ none
        pages := tally.pages + (ns.map fun n : Fin sectionCount => validCount p (3 + n)).sum } := by
  induction ns generalizing tally with
  | nil => rfl
  | cons n ns ih =>
    rw [List.foldl_cons, ih, tallied, List.countP_cons, List.map_cons, List.sum_cons,
      validCount_level3]
    by_cases mixed : sectionKind p n = none
    · simp [mixed, Nat.add_assoc]
    · simp [mixed, Nat.add_assoc, Nat.add_comm 1]

/-- The bytes that the counted leaves map. -/
def bytes (tally : BuildTally) : Nat :=
  tally.blocks * sectionSize.toNat + tally.pages * pageSize.toNat

/-- Either way a section adds its own size. -/
theorem bytes_tallied (tally : BuildTally) (n : Fin sectionCount) :
    bytes (tallied p tally n) = bytes tally + sectionSize.toNat := by
  have whole : entriesPerTable * pageSize.toNat = sectionSize.toNat := rfl
  unfold bytes tallied
  by_cases mixed : sectionKind p n = none
  · rw [if_pos mixed, Nat.add_mul, whole, Nat.add_assoc]
  · rw [if_neg mixed, Nat.add_mul, Nat.one_mul, Nat.add_right_comm]

theorem bytes_foldl_tallied (ns : List (Fin sectionCount)) (tally : BuildTally) :
    bytes (ns.foldl (tallied p) tally) = bytes tally + ns.length * sectionSize.toNat := by
  induction ns generalizing tally with
  | nil => simp
  | cons n ns ih => rw [List.foldl_cons, ih, bytes_tallied, List.length_cons, Nat.add_mul]; omega

theorem census_of_holds (aligned : base.word.toNat % 0x1000 = 0)
    (room : base.word.toNat + areaSize.toNat ≤ 0x1000000000000) {area : TableArea}
    (holds : Holds p base area) :
    Census p base area ((List.finRange sectionCount).foldl (tallied p) ⟨0, 0⟩) := by
  have link (table : TableId) {place : Fin tableCount} (position : table.position = .ok place)
      (index : Fin entriesPerTable) : Entry.ofWord (contents p base (place, index)) table.level =
        decoded p base table index := ofWord_contents position index
  constructor
  case level0 =>
    refine ⟨_, validEntries_build holds rfl (k := 1) (by decide) rfl, ?_⟩
    have whole : pageSize.toNat % 0x1000 = 0 := rfl
    exact linksTo_of_decoded aligned room rfl whole (by decide) (link .level0 rfl _)
  case level1 =>
    refine ⟨_, validEntries_build holds rfl (k := 1) (by decide) rfl, ?_⟩
    have whole : (2 * pageSize).toNat % 0x1000 = 0 := rfl
    exact linksTo_of_decoded aligned room rfl whole (by decide) (link .level1 rfl _)
  case level2 =>
    refine ⟨_, validEntries_build holds rfl (k := sectionCount) (by decide) rfl, fun n => ⟨?_, ?_⟩⟩
    · intro kind uniform
      have known := (uniform_iff n.isLt).mp uniform
      have leaf := ofWord_section p base n
      rw [known] at leaf
      exact ⟨_, leaf, (Leaf.block_describes _ kind).memory⟩
    · intro mixed
      have offset := toNat_tableOffset n.isLt
      have size := toNat_areaSize
      have bound : n.val < 2 := n.isLt
      have word := ofWord_section p base n
      rw [(mixed_iff n.isLt).mp mixed] at word
      exact linksTo_of_decoded aligned room (offset_level3 n) (by omega) (by omega) word
  case uniform =>
    intro n kind uniform index inside
    have known := (uniform_iff n.isLt).mp uniform
    rw [area.entry_eq (position_level3 n) ⟨index, inside⟩]
    have word := (holds (pageSlot n ⟨index, inside⟩)).trans (contents_level3 n _)
    rw [known] at word
    exact congrArg Except.ok word
  case mixed =>
    intro n mixed
    have none := (mixed_iff n.isLt).mp mixed
    have count := (validCount_level3 p n).trans (if_pos none)
    refine ⟨_, validEntries_build holds (position_level3 n) (Nat.le_refl _) count, fun i => ?_⟩
    have leaf := link (.level3 n) (position_level3 n) (i.castLE (Nat.le_refl _))
    rw [decoded, if_pos none] at leaf
    exact ⟨_, leaf, (Leaf.lastLevel_describes _ _).memory⟩
  case vacant =>
    intro table index word read invalid
    obtain ⟨place, i, _, _, rfl⟩ := contents_of_entry holds read
    exact contents_of_invalid invalid
  case leaves =>
    intro table index word leaf read found
    obtain ⟨place, i, position, _, rfl⟩ := contents_of_entry holds read
    rw [link table position i] at found
    obtain ⟨pa, kind, described⟩ := describes_of_decoded found
    exact ⟨kind, described.memory, by rw [described.slot, Profile.attributeAt_slot]⟩
  case blocks =>
    refine ⟨_, validEntries_build holds rfl (k := sectionCount) (by decide) rfl, ?_⟩
    rw [foldl_tallied, List.countP_map]
    refine (Nat.zero_add _).trans (List.countP_congr fun n _ => ?_)
    simp only [Function.comp_apply, ofWord_section, decide_eq_true_iff]
    cases sectionKind p n with
    | some kind => simp [Entry.isBlock]
    | none => simp [Entry.isBlock]
  case pages =>
    refine ⟨_, fun n => validEntries_build holds (position_level3 n) (validCount_le p _) rfl, ?_⟩
    simp only [foldl_tallied, List.length_map, List.length_finRange, Nat.zero_add]
  case whole => exact bytes_foldl_tallied (List.finRange sectionCount) ⟨0, 0⟩

/-- Whatever was in the area, a build leaves these entries and no others, and reports how
many leaves it wrote. -/
theorem build_census (p : Partition) (base : PhysAddr) (area : TableArea)
    (aligned : base.word.toNat % pageSize.toNat = 0)
    (room : base.word.toNat + areaSize.toNat ≤ 2 ^ addressBits) :
    ∃ tally, (build p base).outcome = .ok tally ∧
      Census p base (area.applyAll (build p base).emitted) tally := by
  have fits : base.word.toNat + areaSize.toNat ≤ Word.count := Nat.le_trans room (by decide)
  exact ⟨_, congrArg Emission.outcome (build_eq aligned fits),
    census_of_holds aligned room (get_build aligned fits area)⟩

/-- The boot map over the tables of a partition that splits the first section. -/
theorem build_census_over_pages : ∃ p : Partition,
    p.regions = [⟨0, 0x1000, .device⟩, ⟨0x1000, 0x3ff000, .normalNonCacheable⟩] ∧
    ∃ tally, (build .standard ⟨0x80000⟩).outcome = .ok tally ∧
      Census .standard ⟨0x80000⟩ ((TableArea.empty.applyAll (build p ⟨0x80000⟩).emitted).applyAll
        (build .standard ⟨0x80000⟩).emitted) tally :=
  ⟨⟨_, rfl⟩, rfl, build_census _ _ _ (by decide) (by decide)⟩

end Build
end ColdStart
