import ColdStart.Memory.Kind
import ColdStart.Register.Inspect

/-! Entries of translation tables. The two low bits of an entry mean different
things at each level: with both set it is a link above the last level and a page
at the last, with the upper one clear it is a block where blocks exist and
reserved elsewhere. A decoded entry carries the raw word unchanged. Encoding enters
one number after another, of the address what its field has room for; what comes of
it is also given outright, as a word that needs no check. -/
namespace ColdStart

namespace Leaf

/-- A valid block that maps `pa`: read and write at EL1, no access from EL0,
the access flag set so that the first access does not fault. Devices are never
executable, and nothing is from EL0. -/
def block (pa : PhysAddr) (kind : MemoryKind) : Value .leaf :=
  (⟨0⟩ : Value .leaf)
    |>.put valid true
    |>.put page false
    |>.write attrIndex (BitVec.ofNat 64 kind.slot)
    |>.put ns false
    |>.write ap 0
    |>.write sh 0
    |>.put af true
    |>.put ng false
    |>.write output (pa.word >>> pageShift)
    |>.put contiguous false
    |>.put pxn (!kind.executable)
    |>.put uxn true

/-- The same attributes for a page of the last level. -/
def lastLevel (pa : PhysAddr) (kind : MemoryKind) : Value .leaf :=
  (block pa kind).put page true

/-- Encodes a block. -/
def block? (pa : PhysAddr) (kind : MemoryKind) : Except Halt (Value .leaf) := do
  let v ← (((⟨0⟩ : Value .leaf).put valid true).put page false).enter? attrIndex kind.slot
  let v ← (v.put ns false).enter? ap 0
  let v ← v.enter? sh 0
  let v ← ((v.put af true).put ng false).enter? output
    ((pa.word >>> pageShift) &&& output.greatest).toNat
  return v |>.put contiguous false |>.put pxn (!kind.executable) |>.put uxn true

/-- Encodes a page of the last level. -/
def lastLevel? (pa : PhysAddr) (kind : MemoryKind) : Except Halt (Value .leaf) := do
  return (← block? pa kind).put page true

def target (v : Value .leaf) : PhysAddr :=
  ⟨v.read output <<< pageShift⟩

/-- The kind whose slot the entry indexes, if it indexes one that is used. -/
def memory (v : Value .leaf) : Option MemoryKind :=
  (Coded.ofCode? MemoryKind (v.read attrIndex).toNat).toOption

end Leaf

namespace Link

/-- Points at the table at `pa` and places no limits on the levels below. -/
def forTable (pa : PhysAddr) : Value .link :=
  (⟨0⟩ : Value .link)
    |>.put valid true
    |>.put table true
    |>.write next (pa.word >>> pageShift)
    |>.put pxnTable false
    |>.put uxnTable false
    |>.write apTable 0
    |>.put nsTable false

/-- Encodes a link to the table at `pa`. -/
def forTable? (pa : PhysAddr) : Except Halt (Value .link) := do
  let v ← (((⟨0⟩ : Value .link).put valid true).put table true).enter? next
    ((pa.word >>> pageShift) &&& next.greatest).toNat
  let v ← ((v.put pxnTable false).put uxnTable false).enter? apTable 0
  return v.put nsTable false

def target (v : Value .link) : PhysAddr :=
  ⟨v.read next <<< pageShift⟩

end Link

/-- An entry as the level of its table reads it. -/
inductive Entry
  /-- Any access through it faults. -/
  | invalid
  | link (view : Value .link)
  | block (view : Value .leaf)
  | page (view : Value .leaf)
deriving DecidableEq

namespace Entry

/-- Reads a raw entry of a table at `level`. There are no blocks at level 0, and
at level 3 an entry with bit 1 clear is reserved. -/
def ofWord (raw : Word) (level : Nat) : Entry :=
  if !raw.getLsbD 0 then
    invalid
  else if raw.getLsbD 1 then
    if level = 3 then page ⟨raw⟩ else link ⟨raw⟩
  else if level = 0 ∨ level = 3 then
    invalid
  else
    block ⟨raw⟩

def label : Entry → String
  | invalid => "Invalid"
  | link _ => "Table"
  | block _ => "Block"
  | page _ => "Page"

def inspect (e : Entry) : String :=
  match e with
  | invalid => e.label
  | link view => Text.applied e.label view.inspect
  | block view | page view => Text.applied e.label view.inspect

end Entry
end ColdStart
