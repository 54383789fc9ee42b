import ColdStart.Address.Geometry
import ColdStart.Text

/-! Why a list of regions is no partition of the low window. Each defect names
the offending regions by their place in the list, or the first address left
uncovered. -/
namespace ColdStart

inductive Defect
  | empty
  | tooManyRegions
  /-- Start or size is no multiple of the page size. -/
  | misaligned (index : Nat)
  | zeroSized (index : Nat)
  /-- Some of the region lies outside the window. -/
  | outsideWindow (index : Nat)
  | overlap (first second : Nat)
  /-- No region holds `address`. -/
  | gap (address : Word)
deriving DecidableEq

namespace Defect

def label : Defect → String
  | empty => "Empty"
  | tooManyRegions => "TooManyRegions"
  | misaligned _ => "Misaligned"
  | zeroSized _ => "ZeroSized"
  | outsideWindow _ => "OutsideWindow"
  | overlap _ _ => "Overlap"
  | gap _ => "Gap"

def inspect (d : Defect) : String :=
  match d with
  | empty | tooManyRegions => d.label
  | misaligned i | zeroSized i | outsideWindow i => Text.record d.label [("index", toString i)]
  | overlap i j => Text.record d.label [("first", toString i), ("second", toString j)]
  | gap a => Text.record d.label [("at", toString a.toNat)]

def message : Defect → String
  | empty => "partition has no regions"
  | tooManyRegions => "partition has more than " ++ toString maxRegions ++ " regions"
  | misaligned i => "region " ++ toString i ++ " is not aligned to " ++ Text.hex pageSize.toNat
  | zeroSized i => "region " ++ toString i ++ " is empty"
  | outsideWindow i => "region " ++ toString i ++ " reaches past " ++ Text.hex windowSize.toNat
  | overlap i j => "regions " ++ toString i ++ " and " ++ toString j ++ " overlap"
  | gap a => "no region covers " ++ Text.hex a.toNat

/-- The defect without its place, for a list that was never meant to be refused. -/
def reason : Defect → String
  | empty => "partition has no regions"
  | tooManyRegions => "partition has too many regions"
  | misaligned _ => "region is not page aligned"
  | zeroSized _ => "region is empty"
  | outsideWindow _ => "region reaches past the low memory window"
  | overlap _ _ => "regions overlap"
  | gap _ => "regions leave a gap in the window"

end Defect
end ColdStart
