import ColdStart.Profile
import Mathlib.Data.List.Pairwise

/-! Masks that share no bit. The check looks at each mask once and compares it with a single
word, the union of the masks before it. A union shares with a mask just what its members
share with it, so nothing is lost by that, and what the check answers is said of all pairs:
it does not depend on the order of the masks, and taking some away never breaks it. -/
namespace ColdStart

namespace Word

/-- The two words have no bit in common. -/
def Apart (a b : Word) : Prop :=
  a &&& b = 0

variable {a b c : Word}

theorem Apart.symm (apart : Apart a b) : Apart b a :=
  (BitVec.and_comm b a).trans apart

theorem zero_apart (a : Word) : Apart 0 a :=
  BitVec.zero_and

/-- A union is apart from what its members are apart from. -/
theorem union_apart_iff : Apart (a ||| b) c ↔ Apart a c ∧ Apart b c := by
  rw [Apart, BitVec.and_or_distrib_right]
  exact BitVec.or_eq_zero_iff

end Word

/-- The scan goes through exactly if the masks are apart from what was seen before them and
from one another. -/
theorem maskedApart_iff {seen : Word} {masks : List Word} :
    maskedApart seen masks = true ↔ (∀ m ∈ masks, seen.Apart m) ∧ masks.Pairwise Word.Apart := by
  induction masks generalizing seen with
  | nil => simp [maskedApart]
  | cons m rest ih =>
    rw [maskedApart, List.forall_mem_cons, List.pairwise_cons]
    by_cases apart : seen &&& m = 0
    · have later : (∀ n ∈ rest, (seen ||| m).Apart n) ↔
          (∀ n ∈ rest, seen.Apart n) ∧ ∀ n ∈ rest, m.Apart n := by
        simp only [Word.union_apart_iff, forall_and]
      rw [if_neg (not_not_intro apart), ih, later]
      exact ⟨fun ⟨⟨before, here⟩, rest⟩ => ⟨⟨apart, before⟩, here, rest⟩,
        fun ⟨⟨_, before⟩, here, rest⟩ => ⟨⟨before, here⟩, rest⟩⟩
    · rw [if_pos apart]
      exact iff_of_false Bool.false_ne_true fun passed => apart passed.1.1

theorem disjointMasks_iff_pairwise {masks : List Word} :
    disjointMasks masks = true ↔ masks.Pairwise Word.Apart := by
  rw [disjointMasks, maskedApart_iff]
  exact and_iff_right fun m _ => m.zero_apart

/-- Masks pass exactly if no two of them share a bit, in any order that they are given in,
and a list of them passes only if every list that is left of it does. -/
theorem disjointMasks_exact (masks : List Word) :
    (disjointMasks masks = true ↔ ∀ i j : Fin masks.length, i < j → masks[i] &&& masks[j] = 0) ∧
    (∀ other, other.Perm masks → disjointMasks other = disjointMasks masks) ∧
    (∀ part, part.Sublist masks → disjointMasks masks = true → disjointMasks part = true) := by
  refine ⟨?_, fun other reordered => ?_, fun part left passed => ?_⟩
  · rw [disjointMasks_iff_pairwise]
    exact List.pairwise_iff_get
  · rw [Bool.eq_iff_iff, disjointMasks_iff_pairwise, disjointMasks_iff_pairwise]
    exact reordered.pairwise_iff Word.Apart.symm
  · rw [disjointMasks_iff_pairwise] at passed ⊢
    exact passed.sublist left

-- The second mask takes in the first.
example : disjointMasks [1, 3] = false := by decide

namespace Profile

/-- The masks that the values of this boot are spelled out in, register by register. -/
def masks : Layout → List Word
  | .hcrEl2 => [HcrEl2.rw.mask]
  | .scrEl3 => [ScrEl3.reservedOnes, ScrEl3.rw.mask, ScrEl3.ns.mask]
  | .sctlrEl1 =>
    [sctlrFixed, SctlrEl1.span.mask, SctlrEl1.ee.mask, SctlrEl1.e0e.mask, SctlrEl1.ntwe.mask,
      SctlrEl1.ntwi.mask, SctlrEl1.i.mask, SctlrEl1.c.mask, SctlrEl1.a.mask, SctlrEl1.m.mask]
  | .spsr => [asynchronousMasks, BitVec.ofNat 64 Mode.el1h.code]
  | .tcrEl1 => [lowerSize, upperSize, lowerGranule, upperGranule]
  | _ => []

theorem masks_pass (l : Layout) : disjointMasks (masks l) = true := by
  cases l <;> decide

/-- The value that this boot gives to a register with masks. -/
def value? : Layout → Option Word
  | .hcrEl2 => some hcr.word
  | .scrEl3 => some scr.word
  | .sctlrEl1 => some sctlrOff.word
  | .spsr => some spsr.word
  | .tcrEl1 => some tcr.word
  | _ => none

/-- Each value is the union of those of its register's masks that it has. -/
theorem value_spelled {l : Layout} {w : Word} (value : value? l = some w) :
    w = ((masks l).filter fun m => w &&& m = m).foldl (· ||| ·) 0 := by
  cases l <;> cases value <;> decide

end Profile

/-- The masks of EL1 system control share no bit. They pass from the last to the first as well,
and so do those of the two caches alone. -/
theorem disjointMasks_exact_sctlr :
    (∀ i j : Fin (Profile.masks .sctlrEl1).length, i < j →
      (Profile.masks .sctlrEl1)[i] &&& (Profile.masks .sctlrEl1)[j] = 0) ∧
    (Profile.masks .sctlrEl1).reverse.Perm (Profile.masks .sctlrEl1) ∧
    disjointMasks (Profile.masks .sctlrEl1).reverse = disjointMasks (Profile.masks .sctlrEl1) ∧
    [SctlrEl1.i.mask, SctlrEl1.c.mask].Sublist (Profile.masks .sctlrEl1) ∧
    disjointMasks [SctlrEl1.i.mask, SctlrEl1.c.mask] = true := by
  obtain ⟨pairs, order, less⟩ := disjointMasks_exact (Profile.masks .sctlrEl1)
  have passed := Profile.masks_pass .sctlrEl1
  have caches : [SctlrEl1.i.mask, SctlrEl1.c.mask].Sublist (Profile.masks .sctlrEl1) := by decide
  have turned := List.reverse_perm (Profile.masks .sctlrEl1)
  exact ⟨pairs.mp passed, turned, order _ turned, caches, less _ caches passed⟩

end ColdStart
