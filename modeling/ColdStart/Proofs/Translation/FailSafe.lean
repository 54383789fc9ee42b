import ColdStart.Proofs.Translation.Identity

/-! Builds for a base at the end of memory. A build halts where the address of a table
that it has to link is no word, and goes through otherwise, also where the address has
more bits than a link can hold. Such a link is cut to an address below the base, where
the walk looks for no table: so a walk is lost at a link, or it comes to the leaf that
it would have come to anywhere. -/
namespace ColdStart

namespace Walk
variable {area : TableArea} {base : PhysAddr} {va : VirtAddr} {level : Nat} {table : TableId}
  {place : Fin tableCount}

/-- An address that a link cannot hold is cut to one below the base. -/
theorem next?_of_cut {offset : Word} (fits : base.word.toNat + offset.toNat < Word.count)
    (past : 0x1000000000000 ≤ base.word.toNat + offset.toNat)
    (small : offset.toNat < 0x1000000000000) :
    next? base (Link.forTable ⟨base.word + offset⟩) = none := by
  have sum : (base.word + offset).toNat = base.word.toNat + offset.toNat :=
    Word.toNat_of_add? (Word.add?_ok fits)
  unfold next?
  rw [if_neg]
  rw [BitVec.le_def, Link.target_forTable_frame, PhysAddr.toNat_frame, sum]
  omega

/-- From the table the walk goes to the next one, or is lost there. -/
def DownOrLost (area : TableArea) (base : PhysAddr) (va : VirtAddr) (level : Nat)
    (table next : TableId) : Prop :=
  step area base va level table = .ok (.down next) ∨
    step area base va level table = .ok (.ended (.fault level))

theorem downOrLost_of_forTable (position : table.position = .ok place) (above : level < 3)
    (aligned : base.word.toNat % 0x1000 = 0) {offset : Word}
    (fits : base.word.toNat + offset.toNat < Word.count) (whole : offset.toNat % 0x1000 = 0)
    (inside : offset.toNat < areaSize.toNat) {next : TableId}
    (named : TableId.ofOffset? offset = some next)
    (word : area.get place (va.placeAt level) = (Link.forTable ⟨base.word + offset⟩).word) :
    DownOrLost area base va level table next := by
  have size := toNat_areaSize
  rw [DownOrLost, step_eq position (Nat.le_of_lt above), word, Entry.ofWord_forTable _ above]
  by_cases room : base.word.toNat + offset.toNat < 0x1000000000000
  · left
    simp only [next?_forTable aligned room whole, named]
  · right
    simp only [next?_of_cut fits (Nat.not_lt.mp room) (by omega)]

end Walk

namespace Build
open ColdStart.Partition

variable {p : Partition} {base : PhysAddr} {area : TableArea}

/-- The tables that a build links: the second and the third, and the last-level table of
each section that has two kinds. -/
inductive Linked (p : Partition) : TableId → Prop
  | level1 : Linked p .level1
  | level2 : Linked p .level2
  | level3 (n : Fin sectionCount) (mixed : Mixed p n) : Linked p (.level3 n)

theorem linkable_iff : Linkable p base ↔ ∀ table offset, Linked p table →
    table.offset = .ok offset → base.word.toNat + offset.toNat < Word.count := by
  constructor
  · rintro ⟨level1, level2, level3⟩ table offset linked place
    cases linked with
    | level1 =>
      cases place
      exact level1
    | level2 =>
      cases place
      exact level2
    | level3 n mixed =>
      cases (offset_level3 n).symm.trans place
      exact level3 n ((mixed_iff n.isLt).mp mixed)
  · intro fits
    exact ⟨fits .level1 _ .level1 rfl, fits .level2 _ .level2 rfl, fun n mixed =>
      fits _ _ (.level3 n ((mixed_iff n.isLt).mpr mixed)) (offset_level3 n)⟩

theorem build_of_misaligned (misaligned : base.word.toNat % 0x1000 ≠ 0) :
    build p base = ⟨[], .error .areaMisaligned⟩ := by
  unfold build
  rw [PhysAddr.isMultiple_page, decide_eq_false misaligned]
  rfl

theorem linkTo_of_large {table : TableId} {offset : Word} (place : table.offset = .ok offset)
    (large : Word.count ≤ base.word.toNat + offset.toNat) :
    linkTo base table = .error .addOverflow := by
  rw [linkTo, place]
  simp only [bind, Except.bind, PhysAddr.advance, Functor.map, Except.map, Word.add?_error large]

theorem addSection_of_large {n : Fin sectionCount} (mixed : sectionKind p n = none)
    (large : Word.count ≤ base.word.toNat + (tableOffset n).toNat) (tally : BuildTally) :
    (addSection p base tally n).outcome = .error .addOverflow := by
  rw [addSection_of_mixed mixed, linkTo_of_large (offset_level3 n) large]
  rfl

theorem build_of_not_linkable (aligned : base.word.toNat % 0x1000 = 0)
    (lacking : ¬ Linkable p base) : (build p base).outcome = .error .addOverflow := by
  unfold build
  rw [PhysAddr.isMultiple_page, decide_eq_true aligned]
  by_cases level1 : base.word.toNat + pageSize.toNat < Word.count
  · have first : linkTo base .level1 = .ok (linkWord base pageSize) := linkTo_ok rfl level1
    by_cases level2 : base.word.toNat + (2 * pageSize).toNat < Word.count
    · have second : linkTo base .level2 = .ok (linkWord base (2 * pageSize)) := linkTo_ok rfl level2
      obtain ⟨n, mixed, large⟩ : ∃ n : Fin sectionCount, sectionKind p n = none ∧
          Word.count ≤ base.word.toNat + (tableOffset n).toNat := by
        by_contra! fits
        exact lacking ⟨level1, level2, fits⟩
      have steps : ∀ tally, ∀ n ∈ List.finRange sectionCount,
          (addSection p base tally n).outcome = .ok (tallied p tally n) ∨
            (addSection p base tally n).outcome = .error .addOverflow := by
        intro tally n _
        by_cases linkable : sectionKind p n = none →
            base.word.toNat + (tableOffset n).toNat < Word.count
        · exact Or.inl (congrArg Emission.outcome (addSection_eq linkable tally))
        · rw [Classical.not_imp, Nat.not_lt] at linkable
          exact Or.inr (addSection_of_large linkable.1 linkable.2 tally)
      have halts := Emission.foldlM_of_error steps
        ⟨n, List.mem_finRange n, addSection_of_large mixed large⟩ ⟨0, 0⟩
      rw [first, second, ← List.map_coe_finRange_eq_range, List.foldlM_map]
      exact halts
    · have second : linkTo base .level2 = .error .addOverflow :=
        linkTo_of_large rfl (Nat.not_lt.mp level2)
      rw [first, second]
      rfl
  · have first : linkTo base .level1 = .error .addOverflow :=
      linkTo_of_large rfl (Nat.not_lt.mp level1)
    rw [first]
    rfl

/-- How a build ends, at any base. -/
theorem build_outcome (p : Partition) (base : PhysAddr) :
    (base.word.toNat % 0x1000 ≠ 0 ∧ (build p base).outcome = .error .areaMisaligned) ∨
    (base.word.toNat % 0x1000 = 0 ∧ ¬ Linkable p base ∧
      (build p base).outcome = .error .addOverflow) ∨
    (base.word.toNat % 0x1000 = 0 ∧ Linkable p base ∧
      ∃ tally, (build p base).outcome = .ok tally) := by
  by_cases aligned : base.word.toNat % 0x1000 = 0
  · by_cases linkable : Linkable p base
    · exact Or.inr (Or.inr ⟨aligned, linkable, _,
        congrArg Emission.outcome (build_of_linkable aligned linkable)⟩)
    · exact Or.inr (Or.inl ⟨aligned, linkable, build_of_not_linkable aligned linkable⟩)
  · exact Or.inl ⟨aligned, congrArg Emission.outcome (build_of_misaligned aligned)⟩

/-- A walk that faults, or maps an address of the window to itself as memory of its kind. -/
def Sound (p : Partition) (va : VirtAddr) (walk : Walk) : Prop :=
  (∃ level, walk = .fault level) ∨
    ∃ leaf level, walk = .mapped ⟨va.regionOffset⟩ leaf level ∧ va.regionOffset < windowSize ∧
      Leaf.memory leaf = some (p.kindAt va.regionOffset)

/-- The walk from a table ends, and soundly. -/
def EndsSoundly (p : Partition) (base : PhysAddr) (area : TableArea) (va : VirtAddr) (left : Nat)
    (table : TableId) : Prop :=
  ∃ walk, Walk.fromTable area base va left table = .ok walk ∧ Sound p va walk

section
variable {va : VirtAddr} {left : Nat} {table next : TableId}

theorem EndsSoundly.of_fault {level : Nat}
    (ended : Walk.step area base va (3 - left) table = .ok (.ended (.fault level))) :
    EndsSoundly p base area va left table :=
  ⟨_, Walk.fromTable_of_ended ended, Or.inl ⟨level, rfl⟩⟩

theorem EndsSoundly.of_link
    (through : Walk.DownOrLost area base va (3 - (left + 1)) table next)
    (onwards : EndsSoundly p base area va left next) :
    EndsSoundly p base area va (left + 1) table := by
  rcases through with down | lost
  · rw [EndsSoundly, Walk.fromTable_of_down down]
    exact onwards
  · exact .of_fault lost

end

section
variable (aligned : base.word.toNat % 0x1000 = 0) (linkable : Linkable p base)
  (holds : Holds p base area) (va : VirtAddr)
include aligned linkable holds

theorem endsSoundly_level2 (inside : va.regionOffset < windowSize) :
    EndsSoundly p base area va 1 .level2 := by
  obtain ⟨_, _, within⟩ := va.regionOffset_lt_window_iff.mp inside
  cases uniform : sectionKind p (va.placeAt 2) with
  | some kind =>
    have last := step_level2_uniform holds va within uniform
    rw [block_target va inside] at last
    refine ⟨_, Walk.fromTable_of_ended last, Or.inr ⟨_, _, rfl, inside, ?_⟩⟩
    rw [kindAt_of_uniform va inside uniform]
    exact (Leaf.block_describes _ kind).memory
  | none =>
    have word := get_level2 holds va within
    rw [sectionWord, uniform] at word
    have fits : base.word.toNat + (tableOffset (va.placeAt 2)).toNat < Word.count :=
      linkable.level3 ⟨va.placeAt 2, within⟩ uniform
    have named : TableId.ofOffset? (tableOffset (va.placeAt 2)) = some (.level3 (va.placeAt 2)) :=
      ofOffset?_tableOffset ⟨va.placeAt 2, within⟩
    have offset := toNat_tableOffset within
    have size := toNat_areaSize
    have small : (va.placeAt 2).val < 2 := within
    have through : Walk.DownOrLost area base va 2 .level2 (.level3 (va.placeAt 2)) :=
      Walk.downOrLost_of_forTable rfl (by decide) aligned fits (by omega) (by omega) named word
    have last := step_level3 holds va ⟨va.placeAt 2, within⟩ uniform
    rw [page_target va inside] at last
    apply EndsSoundly.of_link through
    refine ⟨_, Walk.fromTable_of_ended last, Or.inr ⟨_, _, rfl, inside, ?_⟩⟩
    rw [← kindAt_pageStart va inside]
    exact (Leaf.lastLevel_describes _ _).memory

theorem endsSoundly_level1 (zero : (va.placeAt 0).val = 0) :
    EndsSoundly p base area va 2 .level1 := by
  have word := holds (⟨1, by decide⟩, va.placeAt 1)
  by_cases one : (va.placeAt 1).val = 0
  · have through : Walk.DownOrLost area base va 1 .level1 .level2 :=
      Walk.downOrLost_of_forTable rfl (by decide) aligned linkable.level2
        (show (2 * pageSize).toNat % 0x1000 = 0 from rfl) (by decide) rfl (word.trans (if_pos one))
    apply EndsSoundly.of_link through
    by_cases within : (va.placeAt 2).val < sectionCount
    · exact endsSoundly_level2 aligned linkable holds va
        (va.regionOffset_lt_window_iff.mpr ⟨zero, one, within⟩)
    · exact .of_fault (step_level2_above holds va within)
  · have lost : Walk.step area base va 1 .level1 = .ok (.ended (.fault 1)) :=
      Walk.step_of_zero rfl (by decide) (word.trans (if_neg one))
    exact .of_fault lost

theorem endsSoundly_level0 : EndsSoundly p base area va 3 .level0 := by
  have word := holds (⟨0, by decide⟩, va.placeAt 0)
  by_cases zero : (va.placeAt 0).val = 0
  · have through : Walk.DownOrLost area base va 0 .level0 .level1 :=
      Walk.downOrLost_of_forTable rfl (by decide) aligned linkable.level1
        (show pageSize.toNat % 0x1000 = 0 from rfl) (by decide) rfl (word.trans (if_pos zero))
    exact .of_link through (endsSoundly_level1 aligned linkable holds va zero)
  · have lost : Walk.step area base va 0 .level0 = .ok (.ended (.fault 0)) :=
      Walk.step_of_zero rfl (by decide) (word.trans (if_neg zero))
    exact .of_fault lost

end

/-- A build halts for a base that is not page aligned, and then before it writes, or where
the address of a table that it links is no word. After any other build a walk faults or
maps an address of the window to itself, as memory of the kind that it has there. -/
theorem build_fail_safe (p : Partition) (base : PhysAddr) (area : TableArea) :
    (∀ halt, (build p base).outcome = .error halt ↔
      (base.word.toNat % pageSize.toNat ≠ 0 ∧ halt = .areaMisaligned) ∨
      (base.word.toNat % pageSize.toNat = 0 ∧ halt = .addOverflow ∧
        ∃ table offset, Linked p table ∧ table.offset = .ok offset ∧
          2 ^ 64 ≤ base.word.toNat + offset.toNat)) ∧
    (base.word.toNat % pageSize.toNat ≠ 0 → area.applyAll (build p base).emitted = area) ∧
    ((∃ tally, (build p base).outcome = .ok tally) → ∀ va : VirtAddr, ∃ walk,
      (area.applyAll (build p base).emitted).walk base va = .ok walk ∧
      ((∃ level, walk = .fault level) ∨
        ∃ leaf level, walk = .mapped ⟨va.regionOffset⟩ leaf level ∧
          va.regionOffset < windowSize ∧
          Leaf.memory leaf = some (p.kindAt va.regionOffset))) := by
  have page : pageSize.toNat = 0x1000 := rfl
  have unlinkable : ¬ Linkable p base ↔ ∃ table offset, Linked p table ∧
      table.offset = .ok offset ∧ 2 ^ 64 ≤ base.word.toNat + offset.toNat := by
    simp only [linkable_iff, not_forall, exists_prop, Nat.not_lt]
    rfl
  rw [page]
  simp only [← unlinkable]
  refine ⟨fun halt => ?_, fun misaligned => ?_, fun built va => ?_⟩
  · rcases build_outcome p base with ⟨misaligned, ended⟩ | ⟨aligned, lacking, ended⟩ |
      ⟨aligned, linkable, _, ended⟩
    · simp [ended, misaligned, eq_comm]
    · simp [ended, aligned, lacking, eq_comm]
    · simp [ended, aligned, linkable]
  · rw [build_of_misaligned misaligned]
    rfl
  · rcases build_outcome p base with ⟨_, ended⟩ | ⟨_, _, ended⟩ | ⟨aligned, linkable, _⟩
    · simp [ended] at built
    · simp [ended] at built
    · exact endsSoundly_level0 aligned linkable (get_build_of_linkable aligned linkable area) va

-- Three pages below the end of memory there is room for all that this partition links.
example : (build .standard ⟨0xffffffffffffd000⟩).outcome = .ok ⟨2, 0⟩ := by cbv
example : (build .standard ⟨0xffffffffffffe000⟩).outcome = .error .addOverflow := by cbv

end Build
end ColdStart
