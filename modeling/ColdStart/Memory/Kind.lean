import ColdStart.Coded

/-! The two kinds of memory the boot tables map. A kind's code is the slot of
the attribute register that holds its attribute byte, and so the index every
descriptor of that kind carries. -/
namespace ColdStart

inductive MemoryKind
  /-- Strongly ordered: no gathering, no reordering, no early acknowledgement. -/
  | device
  /-- Normal memory, inner and outer non-cacheable. -/
  | normalNonCacheable
deriving DecidableEq

namespace MemoryKind

def slot : MemoryKind → Nat
  | device => 0
  | normalNonCacheable => 1

def label : MemoryKind → String
  | device => "Device"
  | normalNonCacheable => "NormalNonCacheable"

/-- Every kind, in slot order. -/
def all : List MemoryKind :=
  [device, normalNonCacheable]

instance : Coded MemoryKind where
  kind := "MemoryType"
  all := all
  code := slot
  label := label

/-- The kind of whatever no region describes. -/
def strictest : MemoryKind := device

/-- The attribute byte, in the encoding of the attribute register. -/
def encoding : MemoryKind → BitVec 8
  | device => 0x00
  | normalNonCacheable => 0x44

/-- Instructions may be fetched from memory of this kind. -/
def executable : MemoryKind → Bool
  | device => false
  | normalNonCacheable => true

instance : LawfulCoded MemoryKind where
  mem_all k := by cases k <;> decide
  code_injective {a b} same := by cases a <;> cases b <;> first | rfl | cases same

end MemoryKind
end ColdStart
