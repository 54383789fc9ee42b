import ColdStart.Address.Geometry
import ColdStart.Word.Checked
import ColdStart.Text

/-! Physical addresses and rounding. The rounding is bit arithmetic: it clears
the bits of `step - 1`, which rounds to a multiple only where the step is a
power of two. Rounding up adds before it clears and halts where the sum leaves
the word; a step of zero halts at once. -/
namespace ColdStart

def roundDown (a step : Word) : Except Halt Word := do
  let low ← Word.sub? step 1
  return a &&& ~~~low

def roundUp (a step : Word) : Except Halt Word := do
  let low ← Word.sub? step 1
  let raised ← Word.add? a low
  roundDown raised step

structure PhysAddr where
  word : Word
deriving DecidableEq

namespace PhysAddr

/-- None of the bits of `step - 1` is set. -/
def isMultiple (a : PhysAddr) (step : Word) : Except Halt Bool := do
  let low ← Word.sub? step 1
  return a.word &&& low == 0

def roundDown (a : PhysAddr) (step : Word) : Except Halt PhysAddr :=
  PhysAddr.mk <$> ColdStart.roundDown a.word step

def roundUp (a : PhysAddr) (step : Word) : Except Halt PhysAddr :=
  PhysAddr.mk <$> ColdStart.roundUp a.word step

/-- The address `bytes` further on. -/
def advance (a : PhysAddr) (bytes : Word) : Except Halt PhysAddr :=
  PhysAddr.mk <$> Word.add? a.word bytes

def inspect (a : PhysAddr) : String :=
  Text.applied "PhysAddr" (Text.hex a.word.toNat)

end PhysAddr
end ColdStart
