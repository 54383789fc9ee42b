import ColdStart.Privilege.Level
import ColdStart.Register.Layout

/-! The registers that say in which state the core runs or is to run: the
current level, the saved status an exception return restores, and which core of
the system this is. -/
namespace ColdStart

namespace CurrentEl

def level (v : Value .currentEl) : Level :=
  .ofBits ((v.read elRaw).setWidth 2)

end CurrentEl

namespace Spsr

/-- What a saved status says. Execution is always 64-bit. -/
structure Settings where
  mode : Mode
  debugMasked : Bool
  sErrorMasked : Bool
  irqMasked : Bool
  fiqMasked : Bool
deriving DecidableEq

/-- The same masks, returning into another mode. -/
def withMode (v : Value .spsr) (mode : Mode) : Value .spsr :=
  v.write modeRaw (BitVec.ofNat 64 mode.code)

def compose (s : Settings) : Value .spsr :=
  (withMode ⟨0⟩ s.mode)
    |>.put nrw false
    |>.put d s.debugMasked
    |>.put a s.sErrorMasked
    |>.put i s.irqMasked
    |>.put f s.fiqMasked

/-- The mode returned into, or the mode bits where they name none. -/
def mode (v : Value .spsr) : Except Nat Mode :=
  let raw := (v.read modeRaw).toNat
  match Coded.ofCode? Mode raw with
  | .ok m => .ok m
  | .error _ => .error raw

/-- SError, IRQ and FIQ are all masked. -/
def asynchronousMasked (v : Value .spsr) : Bool :=
  v.test a && v.test i && v.test f

end Spsr

namespace MpidrEl1

/-- The four affinity fields. -/
def affinityMask : Word := 0xff00ffffff

/-- The core that boots is the one whose affinity is zero throughout. -/
def isBootCore (v : Value .mpidrEl1) : Bool :=
  v.word &&& affinityMask == 0

end MpidrEl1
end ColdStart
