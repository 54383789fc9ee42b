import ColdStart.Proofs.Translation.Descriptor
import Mathlib.Data.Set.Operations

/-! Decoding undoes encoding. Whatever address and kind a descriptor is encoded for, it is
decoded as what it is at each level that has its form, and as nothing at the levels that
reserve it. It says of its memory what it was made from: an address cut down to the bits it
has room for, so that no bit of the address reaches another field and no field the address.
All else that a descriptor could say is left at zero. -/
namespace ColdStart

namespace Leaf

/-- What a leaf for `pa` and `kind` says, and that it says no more. -/
structure Encodes (v : Value .leaf) (pa : PhysAddr) (kind : MemoryKind) : Prop where
  target : target v = pa.frame
  memory : memory v = some kind
  privileged : v.test pxn = true ↔ kind = .device
  unprivileged : v.test uxn = true
  accessed : v.test af = true
  access : v.read ap = 0
  shareability : v.read sh = 0
  nonSecure : v.test ns = false
  nonGlobal : v.test ng = false
  contiguous : v.test contiguous = false
  undeclared : ∀ bit < 64, Value.Undeclared .leaf bit → v.word.getLsbD bit = false

variable {v : Value .leaf} {pa : PhysAddr} {kind : MemoryKind}

/-- A described leaf says no more if the fields that no description mentions are zero. -/
theorem Describes.encodes (described : Describes v pa kind) (shareability : v.read sh = 0)
    (nonSecure : v.test ns = false) (nonGlobal : v.test ng = false)
    (single : v.test contiguous = false)
    (undeclared : ∀ bit < 64, Value.Undeclared .leaf bit → v.word.getLsbD bit = false) :
    Encodes v pa kind where
  target := described.target_frame
  memory := described.memory
  privileged := by
    rw [described.privileged]
    cases kind <;> decide
  unprivileged := described.unprivileged
  accessed := described.accessed
  access := described.access
  shareability := shareability
  nonSecure := nonSecure
  nonGlobal := nonGlobal
  contiguous := single
  undeclared := undeclared

theorem block_encodes (pa : PhysAddr) (kind : MemoryKind) : Encodes (block pa kind) pa kind := by
  apply (block_describes pa kind).encodes
  case undeclared =>
    intro bit inside undeclared
    simp (disch := first | assumption | decide) only [block, Value.getLsbD_write_undeclared,
      Value.getLsbD_put_undeclared]
    exact BitVec.getLsbD_zero
  all_goals
    simp (disch := decide) only [block, Value.read, Value.test, Value.write, Value.put, Field.put,
      Field.read_write_of_apart, Field.read_write_cut, Field.test_write_of_apart, Field.test_write]
    rfl

/-- The bit that makes a page adds nothing to what a leaf says. -/
theorem lastLevel_encodes (pa : PhysAddr) (kind : MemoryKind) :
    Encodes (lastLevel pa kind) pa kind := by
  obtain ⟨-, -, -, -, -, -, shareability, nonSecure, nonGlobal, single, undeclared⟩ :=
    block_encodes pa kind
  apply (lastLevel_describes pa kind).encodes
  case undeclared =>
    intro bit inside outside
    rw [lastLevel, Value.getLsbD_put_undeclared (by decide) outside inside]
    exact undeclared bit inside outside
  all_goals
    simp (disch := decide) only [lastLevel, Value.read, Value.test, Value.put, Field.put,
      Field.read_write_of_apart, Field.test_write_of_apart]
    assumption

/-- Leaves that say what they were made from are alike only if they were made from the same. -/
theorem injOn_of_encodes {encode : PhysAddr → MemoryKind → Value .leaf}
    (encodes : ∀ pa kind, Encodes (encode pa kind) pa kind) :
    Set.InjOn (fun e : PhysAddr × MemoryKind => encode e.1 e.2) {e | e.1.Framed} := by
  intro e framed f framed' same
  have targets := congrArg Leaf.target same
  have kinds := congrArg Leaf.memory same
  rw [(encodes _ _).target, (encodes _ _).target, framed.frame_eq, framed'.frame_eq] at targets
  rw [(encodes _ _).memory, (encodes _ _).memory] at kinds
  exact Prod.ext targets (Option.some.inj kinds)

theorem block_ne_lastLevel (pa pb : PhysAddr) (kind other : MemoryKind) :
    block pa kind ≠ lastLevel pb other := by
  intro same
  have forms := test_page_block pa kind
  rw [same, test_page_lastLevel] at forms
  nomatch forms

end Leaf

/-- Beside the address and the two bits of its form a link sets nothing. -/
theorem Link.getLsbD_forTable (pa : PhysAddr) {bit : Nat} (above : 2 ≤ bit)
    (outside : bit < 12 ∨ 48 ≤ bit) : (forTable pa).word.getLsbD bit = false := by
  by_cases inside : bit < 64
  · have apart : ¬ next.Holds bit ∧ ¬ table.Holds bit ∧ ¬ valid.Holds bit := by
      simp only [Field.Holds, next, table, valid]
      omega
    simp (disch := first | assumption | decide) only [forTable, Value.put, Value.write,
      Field.getLsbD_put, Field.getLsbD_write]
    simp [apart]
  · exact BitVec.getLsbD_of_ge _ _ (Nat.not_lt.mp inside)

namespace Entry

/-- The word that a decoded entry carries. -/
def word? : Entry → Option Word
  | invalid => none
  | link view => some view.word
  | block view | page view => some view.word

theorem ofWord_carries (raw : Word) (level : Nat) :
    ofWord raw level = invalid ∨ (ofWord raw level).word? = some raw := by
  unfold ofWord
  grind [word?]

/-- A block is decoded as itself at levels 1 and 2 and as nothing at the others, a page as
itself at level 3, and a link as itself above it. Each leads to the address that it was made
for, without the bits outside 47 to 12; a leaf says of its memory what it was made for, and
neither sets anything more. So of page aligned addresses below 2^48 and kinds no two have
the same encoding. Whatever word is decoded, the entry is invalid or carries that word. -/
theorem ofWord_encoded :
    (∀ pa kind,
      ofWord (Leaf.block pa kind).word 0 = invalid ∧
      ofWord (Leaf.block pa kind).word 1 = block (Leaf.block pa kind) ∧
      ofWord (Leaf.block pa kind).word 2 = block (Leaf.block pa kind) ∧
      ofWord (Leaf.block pa kind).word 3 = invalid ∧
      ofWord (Leaf.lastLevel pa kind).word 3 = page (Leaf.lastLevel pa kind) ∧
      Leaf.Encodes (Leaf.block pa kind) pa kind ∧ Leaf.Encodes (Leaf.lastLevel pa kind) pa kind) ∧
    (∀ pa,
      (∀ level < 3, ofWord (Link.forTable pa).word level = link (Link.forTable pa)) ∧
      Link.target (Link.forTable pa) = pa.frame ∧
      ∀ bit, 2 ≤ bit → bit < 12 ∨ 48 ≤ bit → (Link.forTable pa).word.getLsbD bit = false) ∧
    Set.InjOn (fun e : PhysAddr × MemoryKind => Leaf.block e.1 e.2) {e | e.1.Framed} ∧
    Set.InjOn (fun e : PhysAddr × MemoryKind => Leaf.lastLevel e.1 e.2) {e | e.1.Framed} ∧
    (∀ pa pb kind other, Leaf.block pa kind ≠ Leaf.lastLevel pb other) ∧
    Set.InjOn Link.forTable {pa | pa.Framed} ∧
    ∀ raw level, ofWord raw level = invalid ∨ (ofWord raw level).word? = some raw := by
  refine ⟨fun pa kind => ?_, fun pa => ?_, Leaf.injOn_of_encodes Leaf.block_encodes,
    Leaf.injOn_of_encodes Leaf.lastLevel_encodes, Leaf.block_ne_lastLevel, ?_, ofWord_carries⟩
  · exact ⟨ofWord_block_at pa kind 0, ofWord_block_at pa kind 1, ofWord_block_at pa kind 2,
      ofWord_block_at pa kind 3, ofWord_lastLevel pa kind, Leaf.block_encodes pa kind,
      Leaf.lastLevel_encodes pa kind⟩
  · exact ⟨fun _ above => ofWord_forTable pa above, Link.target_forTable_frame pa,
      fun _ => Link.getLsbD_forTable pa⟩
  · intro pa framed pb framed' same
    have targets := congrArg Link.target same
    rwa [Link.target_forTable framed, Link.target_forTable framed'] at targets

end Entry
end ColdStart
