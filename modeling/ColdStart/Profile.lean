import ColdStart.Memory.Kind
import ColdStart.Register.Control
import ColdStart.Register.Paging
import ColdStart.Register.Status

/-! The register values of this boot. Every control register is composed from a
full set of settings; the attribute register has one slot for each kind of
memory. The masks name single decisions of these values, and no two masks of one
register share a bit. -/
namespace ColdStart

/-- No two of the masks share a bit: each is compared with the union of those
before it. -/
def maskedApart (seen : Word) : List Word → Bool
  | [] => true
  | m :: rest => if seen &&& m ≠ 0 then false else maskedApart (seen ||| m) rest

def disjointMasks (masks : List Word) : Bool :=
  maskedApart 0 masks

namespace Profile

def kernelLevel : Level := .el1

/-- One slot for each kind of memory, in slot order; the other slots are zero. -/
def mair : Value .mairEl1 :=
  MemoryKind.all.foldl (fun v k => MairEl1.replace v k.slot k.encoding) ⟨0⟩

/-- EL1 is 64-bit, and nothing is routed or trapped to EL2. -/
def hcr : Value .hcrEl2 :=
  HcrEl2.compose
    { lowerIs64Bit := true
      trapGeneral := false
      routeSError := false
      routeIrq := false
      routeFiq := false
      setWayOverride := false
      secondStage := false }

/-- The lower levels are non-secure and 64-bit. -/
def scr : Value .scrEl3 :=
  ScrEl3.compose
    { nonSecure := true
      routeIrq := false
      routeFiq := false
      routeExternalAbort := false
      secureCallsOff := false
      hypervisorCalls := false
      secureFetchOnly := false
      lowerIs64Bit := true }

/-- EL1 system control while translation is off: little-endian, caches off, stack
checks on. -/
def sctlrOff : Value .sctlrEl1 :=
  SctlrEl1.compose
    { order := .little
      userOrder := .little
      panUnchanged := true
      writeNeverExecute := false
      userWfeAllowed := true
      userWfiAllowed := true
      instructionCache := false
      userBarriers := true
      userStackCheck := true
      stackCheck := true
      dataCache := false
      alignmentCheck := false
      translation := false }

/-- EL2 system control: little-endian, translation and caches off, stack checks
on. -/
def sctlrEl2 : Value .sctlrEl2 :=
  SctlrEl2.compose
    { order := .little
      writeNeverExecute := false
      instructionCache := false
      stackCheck := true
      dataCache := false
      alignmentCheck := false
      translation := false }

/-- The last return, into the kernel: on its own stack, with SError, IRQ and FIQ
masked. -/
def spsr : Value .spsr :=
  Spsr.compose
    { mode := .el1h
      debugMasked := false
      sErrorMasked := true
      irqMasked := true
      fiqMasked := true }

/-- Forty-eight-bit addresses and 4 KiB pages, walked uncached and unshared. -/
def region : TcrEl1.Region where
  width := addressBits
  granule := .kb4
  inner := .nonCacheable
  outer := .nonCacheable
  shareability := 0
  walksDisabled := false

/-- Both regions alike, with 32-bit physical addresses. -/
def translation : TcrEl1.Settings where
  lower := region
  upper := region
  asidFromUpper := false
  physicalSize := .bits32

def tcr : Value .tcrEl1 :=
  TcrEl1.pack translation

/-- The bits of EL1 system control that this boot always sets: the reserved ones,
the stack checks and the EL0 barriers. -/
def sctlrFixed : Word :=
  SctlrEl1.reservedOnes ||| SctlrEl1.cp15ben.mask ||| SctlrEl1.sa0.mask ||| SctlrEl1.sa.mask

def asynchronousMasks : Word :=
  Spsr.a.mask ||| Spsr.i.mask ||| Spsr.f.mask

def lowerSize : Word :=
  TcrEl1.t0sz.write 0 (BitVec.ofNat 64 (64 - region.width))

def upperSize : Word :=
  TcrEl1.t1sz.write 0 (BitVec.ofNat 64 (64 - region.width))

def lowerGranule : Word :=
  TcrEl1.tg0.write 0 region.granule.lowerCode

def upperGranule : Word :=
  TcrEl1.tg1.write 0 region.granule.upperCode

end Profile
end ColdStart
