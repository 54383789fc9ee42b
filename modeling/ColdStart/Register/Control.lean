import ColdStart.Register.Layout

/-! The control registers that a boot composes from settings. Each composition
starts from the bits that must be one and gives every other field of the layout
the value its settings name, so nothing is left to an unknown reset value. -/
namespace ColdStart

inductive ByteOrder
  | little
  | big
deriving DecidableEq

namespace ByteOrder

def label : ByteOrder → String
  | little => "Little"
  | big => "Big"

def isBig : ByteOrder → Bool
  | little => false
  | big => true

def ofBig (b : Bool) : ByteOrder :=
  if b then big else little

end ByteOrder

namespace SctlrEl1

/-- What EL1 system control says; every member is written. -/
structure Settings where
  order : ByteOrder
  userOrder : ByteOrder
  panUnchanged : Bool
  writeNeverExecute : Bool
  userWfeAllowed : Bool
  userWfiAllowed : Bool
  instructionCache : Bool
  userBarriers : Bool
  userStackCheck : Bool
  stackCheck : Bool
  dataCache : Bool
  alignmentCheck : Bool
  translation : Bool
deriving DecidableEq

/-- The bits that must read as one. -/
def reservedOnes : Word :=
  res22.mask ||| res11.mask

def compose (s : Settings) : Value .sctlrEl1 :=
  (⟨reservedOnes⟩ : Value .sctlrEl1)
    |>.put ee s.order.isBig
    |>.put e0e s.userOrder.isBig
    |>.put span s.panUnchanged
    |>.put wxn s.writeNeverExecute
    |>.put ntwe s.userWfeAllowed
    |>.put ntwi s.userWfiAllowed
    |>.put i s.instructionCache
    |>.put cp15ben s.userBarriers
    |>.put sa0 s.userStackCheck
    |>.put sa s.stackCheck
    |>.put c s.dataCache
    |>.put a s.alignmentCheck
    |>.put m s.translation

def order (v : Value .sctlrEl1) : ByteOrder :=
  .ofBig (v.test ee)

def userOrder (v : Value .sctlrEl1) : ByteOrder :=
  .ofBig (v.test e0e)

end SctlrEl1

namespace SctlrEl2

structure Settings where
  order : ByteOrder
  writeNeverExecute : Bool
  instructionCache : Bool
  stackCheck : Bool
  dataCache : Bool
  alignmentCheck : Bool
  translation : Bool
deriving DecidableEq

/-- The bits that must read as one, none of them in a field. -/
def reservedOnes : Word := 0x30c50830

def compose (s : Settings) : Value .sctlrEl2 :=
  (⟨reservedOnes⟩ : Value .sctlrEl2)
    |>.put ee s.order.isBig
    |>.put wxn s.writeNeverExecute
    |>.put i s.instructionCache
    |>.put sa s.stackCheck
    |>.put c s.dataCache
    |>.put a s.alignmentCheck
    |>.put m s.translation

def order (v : Value .sctlrEl2) : ByteOrder :=
  .ofBig (v.test ee)

end SctlrEl2

namespace HcrEl2

/-- What the hypervisor configuration says; all other bits are zero. -/
structure Settings where
  lowerIs64Bit : Bool
  trapGeneral : Bool
  routeSError : Bool
  routeIrq : Bool
  routeFiq : Bool
  setWayOverride : Bool
  secondStage : Bool
deriving DecidableEq

def compose (s : Settings) : Value .hcrEl2 :=
  (⟨0⟩ : Value .hcrEl2)
    |>.put rw s.lowerIs64Bit
    |>.put tge s.trapGeneral
    |>.put amo s.routeSError
    |>.put imo s.routeIrq
    |>.put fmo s.routeFiq
    |>.put swio s.setWayOverride
    |>.put vm s.secondStage

end HcrEl2

namespace ScrEl3

structure Settings where
  nonSecure : Bool
  routeIrq : Bool
  routeFiq : Bool
  routeExternalAbort : Bool
  secureCallsOff : Bool
  hypervisorCalls : Bool
  secureFetchOnly : Bool
  lowerIs64Bit : Bool
deriving DecidableEq

/-- The bits that must read as one. -/
def reservedOnes : Word :=
  res5.mask ||| res4.mask

def compose (s : Settings) : Value .scrEl3 :=
  (⟨reservedOnes⟩ : Value .scrEl3)
    |>.put ns s.nonSecure
    |>.put irq s.routeIrq
    |>.put fiq s.routeFiq
    |>.put ea s.routeExternalAbort
    |>.put smd s.secureCallsOff
    |>.put hce s.hypervisorCalls
    |>.put sif s.secureFetchOnly
    |>.put rw s.lowerIs64Bit

end ScrEl3

namespace CnthctlEl2

/-- EL1 uses the physical counter and timer without a trap. -/
def untrapped : Value .cnthctlEl2 :=
  (⟨0⟩ : Value .cnthctlEl2) |>.put el1pcen true |>.put el1pcten true

end CnthctlEl2
end ColdStart
