import ColdStart.Translation.Walk
import Mathlib.Tactic.NormNum

/-! What the encoded descriptors say when they are decoded. A leaf of either form
says the same of the memory it maps; the two differ in the one bit that tells a
page from a block. Addresses come back without the bits outside their field, and
so unchanged where they are page aligned and within 48 bits. -/
namespace ColdStart

/-- A page aligned address that a descriptor can hold. -/
def PhysAddr.Framed (pa : PhysAddr) : Prop :=
  pa.word.toNat % 0x1000 = 0 ∧ pa.word.toNat < 0x1000000000000

theorem PhysAddr.framed_mk {a : Word} (aligned : a.toNat % 0x1000 = 0)
    (small : a.toNat < 0x1000000000000) : (mk a).Framed :=
  ⟨aligned, small⟩

/-- The address without the bits that no descriptor keeps: those outside 47 to 12. -/
def PhysAddr.frame (pa : PhysAddr) : PhysAddr :=
  ⟨pa.word &&& 0x0000fffffffff000⟩

theorem PhysAddr.toNat_frame (pa : PhysAddr) :
    pa.frame.word.toNat = pa.word.toNat % 0x1000000000000 / 0x1000 * 0x1000 := by
  have kept : pa.frame.word = Leaf.output.read pa.word <<< pageShift :=
    (Field.read_shiftLeft Leaf.output pa.word (by decide)).symm
  rw [kept]
  simp only [Field.read, Leaf.output, pageShift, BitVec.toNat_shiftLeft, BitVec.toNat_setWidth,
    BitVec.toNat_ushiftRight, Nat.shiftRight_eq_div_pow, Nat.shiftLeft_eq]
  omega

theorem PhysAddr.Framed.frame_eq {pa : PhysAddr} (framed : pa.Framed) : pa.frame = pa := by
  obtain ⟨aligned, small⟩ := framed
  have kept := pa.toNat_frame
  have same : pa.frame.word = pa.word := BitVec.eq_of_toNat_eq (by omega)
  exact congrArg PhysAddr.mk same

namespace Leaf

theorem admits_slot (kind : MemoryKind) : attrIndex.Admits kind.slot := by
  cases kind <;> decide

/-- Every block can be encoded. -/
theorem block?_eq (pa : PhysAddr) (kind : MemoryKind) : block? pa kind = .ok (block pa kind) := by
  simp only [block?, bind, Except.bind, Value.enter?_ok (admits_slot kind),
    Value.enter?_ok ap.admits_zero, Value.enter?_ok sh.admits_zero, Value.enter?_and_greatest]
  rfl

theorem lastLevel?_eq (pa : PhysAddr) (kind : MemoryKind) :
    lastLevel? pa kind = .ok (lastLevel pa kind) := by
  rw [lastLevel?, block?_eq]
  rfl

/-- What a leaf says of the memory it maps. -/
structure Describes (v : Value .leaf) (pa : PhysAddr) (kind : MemoryKind) : Prop where
  valid : v.test valid = true
  slot : (v.read attrIndex).toNat = kind.slot
  access : v.read ap = 0
  accessed : v.test af = true
  privileged : v.test pxn = !kind.executable
  unprivileged : v.test uxn = true
  frame : v.read output = output.read pa.word

theorem block_describes (pa : PhysAddr) (kind : MemoryKind) : Describes (block pa kind) pa kind := by
  constructor
  all_goals simp (disch := decide) only [block, Value.read, Value.test, Value.write, Value.put,
    Field.put, Field.read_write_of_apart, Field.read_write_cut, Field.test_write_of_apart,
    Field.test_write]
  case valid | accessed | unprivileged => rfl
  case access => rfl
  case slot | privileged => cases kind <;> rfl
  case frame => rfl

/-- The bit that makes a page is no part of the description. -/
theorem Describes.put_page {v : Value .leaf} {pa : PhysAddr} {kind : MemoryKind}
    (described : Describes v pa kind) (b : Bool) : Describes (v.put page b) pa kind := by
  obtain ⟨valid, slot, access, accessed, privileged, unprivileged, frame⟩ := described
  constructor
  all_goals simp (disch := decide) only [Value.read, Value.test, Value.put, Field.put,
    Field.read_write_of_apart, Field.test_write_of_apart]
  all_goals assumption

theorem lastLevel_describes (pa : PhysAddr) (kind : MemoryKind) :
    Describes (lastLevel pa kind) pa kind :=
  (block_describes pa kind).put_page true

theorem test_page_block (pa : PhysAddr) (kind : MemoryKind) : (block pa kind).test page = false := by
  simp (disch := decide) only [block, Value.test, Value.write, Value.put, Field.put,
    Field.test_write_of_apart, Field.test_write]
  rfl

theorem test_page_lastLevel (pa : PhysAddr) (kind : MemoryKind) :
    (lastLevel pa kind).test page = true := by
  simp (disch := decide) only [lastLevel, Value.test, Value.put, Field.put, Field.test_write]
  rfl

variable {v : Value .leaf} {pa : PhysAddr} {kind : MemoryKind}

theorem Describes.memory (described : Describes v pa kind) : memory v = some kind := by
  unfold Leaf.memory
  have decoded : Coded.ofCode? MemoryKind kind.slot = .ok kind := Coded.ofCode?_code kind
  rw [described.slot, decoded]
  rfl

/-- Of any address a leaf keeps bits 47 to 12. -/
theorem Describes.target_frame (described : Describes v pa kind) : Leaf.target v = pa.frame := by
  unfold Leaf.target PhysAddr.frame
  rw [described.frame]
  exact congrArg PhysAddr.mk (Field.read_shiftLeft output pa.word (by decide))

theorem Describes.target (described : Describes v pa kind) (framed : pa.Framed) : target v = pa :=
  described.target_frame.trans framed.frame_eq

end Leaf

namespace Link

/-- Every link can be encoded. -/
theorem forTable?_eq (pa : PhysAddr) : forTable? pa = .ok (forTable pa) := by
  simp only [forTable?, bind, Except.bind, Value.enter?_and_greatest,
    Value.enter?_ok apTable.admits_zero]
  rfl

theorem test_valid_forTable (pa : PhysAddr) : (forTable pa).test valid = true := by
  simp (disch := decide) only [forTable, Value.test, Value.write, Value.put, Field.put,
    Field.test_write_of_apart, Field.test_write]
  rfl

theorem test_table_forTable (pa : PhysAddr) : (forTable pa).test table = true := by
  simp (disch := decide) only [forTable, Value.test, Value.write, Value.put, Field.put,
    Field.test_write_of_apart, Field.test_write]
  rfl

/-- Of any address a link keeps bits 47 to 12. -/
theorem target_forTable_frame (pa : PhysAddr) : target (forTable pa) = pa.frame := by
  unfold target PhysAddr.frame
  simp (disch := decide) only [forTable, Value.read, Value.write, Value.put, Field.put,
    Field.read_write_of_apart, Field.read_write_cut]
  exact congrArg PhysAddr.mk (Field.read_shiftLeft next pa.word (by decide))

theorem target_forTable {pa : PhysAddr} (framed : pa.Framed) : target (forTable pa) = pa :=
  (target_forTable_frame pa).trans framed.frame_eq

end Link

namespace Entry

theorem ofWord_zero (level : Nat) : ofWord 0 level = invalid :=
  rfl

/-- At the levels that have blocks a block is decoded as what it is. -/
theorem ofWord_block_at (pa : PhysAddr) (kind : MemoryKind) (level : Nat) :
    ofWord (Leaf.block pa kind).word level =
      if level = 0 ∨ level = 3 then invalid else block (Leaf.block pa kind) := by
  have valid : (Leaf.block pa kind).word.getLsbD 0 = true := (Leaf.block_describes pa kind).valid
  have form : (Leaf.block pa kind).word.getLsbD 1 = false := Leaf.test_page_block pa kind
  rw [ofWord, valid, form]
  rfl

theorem ofWord_block (pa : PhysAddr) (kind : MemoryKind) :
    ofWord (Leaf.block pa kind).word 2 = block (Leaf.block pa kind) :=
  ofWord_block_at pa kind 2

theorem ofWord_lastLevel (pa : PhysAddr) (kind : MemoryKind) :
    ofWord (Leaf.lastLevel pa kind).word 3 = page (Leaf.lastLevel pa kind) := by
  have valid : (Leaf.lastLevel pa kind).word.getLsbD 0 = true :=
    (Leaf.lastLevel_describes pa kind).valid
  have form : (Leaf.lastLevel pa kind).word.getLsbD 1 = true := Leaf.test_page_lastLevel pa kind
  rw [ofWord, valid, form]
  rfl

theorem ofWord_forTable (pa : PhysAddr) {level : Nat} (above : level < 3) :
    ofWord (Link.forTable pa).word level = link (Link.forTable pa) := by
  have valid : (Link.forTable pa).word.getLsbD 0 = true := Link.test_valid_forTable pa
  have form : (Link.forTable pa).word.getLsbD 1 = true := Link.test_table_forTable pa
  rw [ofWord, valid, form]
  simp only [Nat.ne_of_lt above, if_false, if_true, Bool.not_true, Bool.false_eq_true]

end Entry
end ColdStart
