import ColdStart.Machine.Core
import ColdStart.Memory.Partition
import ColdStart.Profile
import ColdStart.Register.Inspect

/-! Turning translation on. An activation is four register values, and one is
given out only for a placement under which the running code keeps its footing:
the core has 4 KiB pages, the tables lie page aligned in the window and clear of
the image, the whole image is executable and the whole stack is normal memory.
The order of the writes is the point: the tables reach memory before the walker
may look, everything the walker reads is in effect before translation is, and
the instruction stream is fetched anew directly after. -/
namespace ColdStart

/-- A half-open range of addresses. -/
structure Span where
  start : Word
  stop : Word
deriving DecidableEq

structure Placement where
  partition : Partition
  tables : PhysAddr
  image : Span
  stack : Span

inductive Refusal
  | granuleUnsupported
  | tablesMisaligned (tables : Word)
  | tablesOutsideWindow (tables : Word)
  | tablesOverlapImage (tables : Word)
  | imageNotExecutable (image : Span)
  | stackNotNormal (stack : Span)
deriving DecidableEq

namespace Refusal

def label : Refusal → String
  | granuleUnsupported => "Granule4kUnsupported"
  | tablesMisaligned _ => "TablesMisaligned"
  | tablesOutsideWindow _ => "TablesOutsideWindow"
  | tablesOverlapImage _ => "TablesOverlapImage"
  | imageNotExecutable _ => "ImageNotExecutable"
  | stackNotNormal _ => "StackNotNormal"

def extent (s : Span) : String :=
  Text.hex s.start.toNat ++ ".." ++ Text.hex s.stop.toNat

def message : Refusal → String
  | granuleUnsupported => "4 KiB granule not supported"
  | tablesMisaligned t => "tables at " ++ Text.hex t.toNat ++ " are not page aligned"
  | tablesOutsideWindow t => "tables at " ++ Text.hex t.toNat ++ " are outside the identity map"
  | tablesOverlapImage t => "tables at " ++ Text.hex t.toNat ++ " overlap the image"
  | imageNotExecutable s => "image at " ++ extent s ++ " is not in executable memory"
  | stackNotNormal s => "stack at " ++ extent s ++ " is not in normal memory"

def inspect (e : Refusal) : String :=
  match e with
  | granuleUnsupported => e.label
  | tablesMisaligned t | tablesOutsideWindow t | tablesOverlapImage t =>
      Text.record e.label [("tables", toString t.toNat)]
  | imageNotExecutable s | stackNotNormal s =>
      Text.record e.label [("start", toString s.start.toNat), ("end", toString s.stop.toNat)]

end Refusal

def demand (condition : Bool) (otherwise : Refusal) : ExceptT Refusal (Except Halt) Unit :=
  if condition then pure () else throw otherwise

/-- The one kind of a span's bytes; a span without bytes has none. -/
def Partition.kindOf (p : Partition) (s : Span) : Except Halt (Option MemoryKind) :=
  if s.stop ≤ s.start then
    return none
  else do
    p.kindOver s.start (← Word.sub? s.stop s.start)

structure Activation where
  mair : Value .mairEl1
  lowerRoot : Value .ttbr
  upperRoot : Value .ttbr
  tcr : Value .tcrEl1
deriving DecidableEq

namespace Activation

/-- Both regions are walked from the first table of the area at `tables`. -/
def rootedAt (tables : PhysAddr) : Except Halt Activation := do
  let root ← Ttbr.forTable (← tables.advance (← TableId.level0.offset))
  return { mair := Profile.mair, lowerRoot := root, upperRoot := root, tcr := Profile.tcr }

/-- The six conditions, in the order in which a failure is reported. -/
def admitted (features : Value .idAa64Mmfr0El1) (p : Placement) :
    ExceptT Refusal (Except Halt) Activation := do
  let tables := p.tables.word
  demand (IdAa64Mmfr0El1.has4k features) .granuleUnsupported
  demand (← p.tables.isMultiple pageSize) (.tablesMisaligned tables)
  demand (tables.toNat + areaSize.toNat < Word.count) (.tablesOutsideWindow tables)
  let stop := tables + areaSize
  demand (stop ≤ windowSize) (.tablesOutsideWindow tables)
  demand (!(tables < p.image.stop && p.image.start < stop)) (.tablesOverlapImage tables)
  demand (((← p.partition.kindOf p.image).map MemoryKind.executable).getD false)
    (.imageNotExecutable p.image)
  demand ((← p.partition.kindOf p.stack) == some .normalNonCacheable) (.stackNotNormal p.stack)
  rootedAt p.tables

/-- The activation of a placement, or why there is none. -/
def forPlacement? (features : Value .idAa64Mmfr0El1) (p : Placement) :
    Except Halt (Except Refusal Activation) :=
  (admitted features p).run

/-- System control with translation on and both caches off. -/
def enabled (before : Value .sctlrEl1) : Value .sctlrEl1 :=
  before |>.put SctlrEl1.m true |>.put SctlrEl1.c false |>.put SctlrEl1.i false

def inspect (a : Activation) : String :=
  Text.record "Activation"
    [("mair", a.mair.inspect), ("ttbr0", a.lowerRoot.inspect), ("ttbr1", a.upperRoot.inspect),
      ("tcr", a.tcr.inspect)]

variable {σ : Type} [Core σ]

/-- Programs the core and turns translation on, for tables that are already
written. Gives the system control value that was written. -/
def enable (a : Activation) : StateM σ (Value .sctlrEl1) := do
  Core.barrier .dataSync
  Core.write .mairEl1 a.mair.word
  Core.write .ttbr0El1 a.lowerRoot.word
  Core.write .ttbr1El1 a.upperRoot.word
  Core.write .tcrEl1 a.tcr.word
  Core.barrier .dropTranslations
  Core.barrier .dataSync
  Core.barrier .instructionSync
  let after := enabled (← Core.sctlr)
  Core.write .sctlrEl1 after.word
  Core.barrier .instructionSync
  return after

end Activation
end ColdStart
