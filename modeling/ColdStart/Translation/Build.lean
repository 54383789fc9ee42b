import ColdStart.Address.Virtual
import ColdStart.Emission
import ColdStart.Memory.Partition
import ColdStart.Translation.Area
import ColdStart.Translation.Entry

/-! Building the tables of a partition. The build is the list of stores it makes:
the area is cleared, the first two levels are linked, and every section of the
window becomes one block where it is of one kind, and otherwise a link to its own
last-level table with a page for each of its addresses. Links hold the address
at which the walker will find the area, so the sum of that address and an offset
may leave the word; the stores made before such a halt stay made. -/
namespace ColdStart

/-- How many leaves a build wrote. -/
structure BuildTally where
  blocks : Nat
  pages : Nat
deriving DecidableEq

namespace BuildTally

def inspect (t : BuildTally) : String :=
  Text.record "BuildSummary" [("blocks", toString t.blocks), ("pages", toString t.pages)]

end BuildTally

namespace Build

/-- The entry that points at a table of the area at `base`. -/
def linkTo (base : PhysAddr) (table : TableId) : Except Halt Word := do
  let place ← base.advance (← table.offset)
  return (← Link.forTable? place).word

def store (table : TableId) (index : Fin entriesPerTable) (word : Word) : Emission Store Unit := do
  let place ← table.position
  Emission.emit (.entry place index word)

/-- The page of a section at one index of its last-level table. -/
def page (p : Partition) (start : PhysAddr) (table : TableId) (index : Fin entriesPerTable) :
    Emission Store Unit := do
  let pa ← start.advance (← Word.mul? pageSize (BitVec.ofNat 64 index))
  store table index (← Leaf.lastLevel? pa (← p.kindAt? pa.word)).word

/-- One section of the window, from its start: a block, or a link and its pages. -/
def addSectionAt (p : Partition) (base : PhysAddr) (tally : BuildTally) (number : Nat)
    (start : PhysAddr) : Emission Store BuildTally := do
  let index ← start.lowerAlias.index 2
  match ← p.kindOver start.word sectionSize with
  | some kind =>
    store .level2 index (← Leaf.block? start kind).word
    return { tally with blocks := tally.blocks + 1 }
  | none =>
    let table := TableId.level3 number
    store .level2 index (← linkTo base table)
    (List.finRange entriesPerTable).forM (page p start table)
    return { tally with pages := tally.pages + entriesPerTable }

def addSection (p : Partition) (base : PhysAddr) (tally : BuildTally) (number : Nat) :
    Emission Store BuildTally := do
  let start ← Word.mul? sectionSize (BitVec.ofNat 64 number)
  addSectionAt p base tally number ⟨start⟩

end Build

/-- Everything the tables of a partition need, for an area that the walker finds
at `base`, which has to be page aligned. -/
def build (p : Partition) (base : PhysAddr) : Emission Store BuildTally := do
  require (← base.isMultiple pageSize) .areaMisaligned
  Emission.emit .clear
  let origin := (PhysAddr.mk 0).lowerAlias
  Build.store .level0 (← origin.index 0) (← Build.linkTo base .level1)
  Build.store .level1 (← origin.index 1) (← Build.linkTo base .level2)
  (List.range sectionCount).foldlM (Build.addSection p base) ⟨0, 0⟩

end ColdStart
