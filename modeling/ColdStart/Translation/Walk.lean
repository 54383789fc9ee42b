import ColdStart.Address.Virtual
import ColdStart.Translation.Area
import ColdStart.Translation.Entry

/-! Walking the tables in software. The walk goes down at most four levels; it
faults at an invalid entry and at a link that does not point at the start of a
table of the area, and ends at the first leaf. A leaf found at a level maps the
address bits below that level unchanged. Tables that link to themselves are
walked like any others, because every step takes a level. -/
namespace ColdStart

/-- How a walk ends. -/
inductive Walk
  | mapped (pa : PhysAddr) (leaf : Value .leaf) (level : Nat)
  | fault (level : Nat)
deriving DecidableEq

namespace Walk

def inspect : Walk → String
  | mapped pa leaf level =>
      Text.record "Mapped"
        [("pa", pa.inspect), ("leaf", leaf.inspect), ("level", toString level)]
  | fault level => Text.record "Fault" [("level", toString level)]

/-- The table of an area at `base` that a link points at. -/
def next? (base : PhysAddr) (view : Value .link) : Option TableId :=
  let target := (Link.target view).word
  if base.word ≤ target then TableId.ofOffset? (target - base.word) else none

/-- The address bits below an entry of a table at `level`. -/
def within (level : Nat) (va : VirtAddr) : Word :=
  va.word &&& ((1 <<< VirtAddr.indexShift level) - 1)

/-- How a walk goes on from a table. -/
inductive Step
  | ended (walk : Walk)
  | down (table : TableId)
deriving DecidableEq

/-- One table of a walk: what its entry for the address leads to. -/
def step (area : TableArea) (base : PhysAddr) (va : VirtAddr) (level : Nat) (table : TableId) :
    Except Halt Step := do
  let raw ← area.entry table (← va.index level)
  match Entry.ofWord raw level with
  | .invalid => return .ended (fault level)
  | .block leaf | .page leaf =>
    return .ended (mapped ⟨(Leaf.target leaf).word ||| within level va⟩ leaf level)
  | .link view =>
    match next? base view with
    | some next => return .down next
    | none => return .ended (fault level)

/-- Walks on from a table at the level that has `left` levels below it. -/
def fromTable (area : TableArea) (base : PhysAddr) (va : VirtAddr) :
    (left : Nat) → TableId → Except Halt Walk
  | 0, table => do
    match ← step area base va 3 table with
    | .ended walk => return walk
    | .down _ => return fault 3
  | left + 1, table => do
    match ← step area base va (3 - (left + 1)) table with
    | .ended walk => return walk
    | .down next => fromTable area base va left next

end Walk

namespace TableArea

/-- Translates `va` the way the walker does, for an area that it finds at `base`. -/
def walk (area : TableArea) (base : PhysAddr) (va : VirtAddr) : Except Halt Walk :=
  Walk.fromTable area base va 3 .level0

end TableArea
end ColdStart
