import ColdStart.Address.Virtual
import ColdStart.Machine.Core
import ColdStart.Register.Lookup
import ColdStart.Register.Status

/-! The operations of a core as instructions. A processor executes one
instruction at a time and gives back the value that it loads, which is zero for
an instruction that loads none. An exception return first gives the level below
the stack pointer in use and the address to go on at, so that the code after it
continues on the same stack. Every processor is a core. -/
namespace ColdStart

inductive Instruction
  | readRegister (source : Encoding)
  | writeRegister (target : Encoding) (word : Word)
  | maskInterrupts
  | unmaskInterrupts
  | barrier (barrier : Barrier)
  /-- Translates an address as an EL1 read would. -/
  | translate (address : Word)
  | exceptionReturn
  | waitForEvent
  | readStack
  /-- Loads the address of the instruction after the next exception return. -/
  | readResume
  | writeStack (level : Level) (word : Word)
  /-- Sets the address that an exception return from a level goes to. -/
  | writeLink (level : Level) (word : Word)
deriving DecidableEq

class Processor (σ : Type) where
  execute : Instruction → StateM σ Word
  store : List Store → StateM σ Unit

namespace Processor
variable {σ : Type} [Processor σ]

def perform (instruction : Instruction) : StateM σ Unit := do
  let _ ← execute instruction

def read (r : SystemRegister) : StateM σ Word :=
  execute (.readRegister r.encoding)

def write (r : SystemRegister) (w : Word) : StateM σ Unit :=
  perform (.writeRegister r.encoding w)

/-- Drops from a level to the one below; there is none below EL0. -/
def leave (source : Level) : StateM σ Unit :=
  match source.below with
  | none => pure ()
  | some lower => do
    let stack ← execute .readStack
    perform (.writeStack lower stack)
    let resume ← execute .readResume
    perform (.writeLink source resume)
    perform .exceptionReturn

/-- Asks the core for the translation of an address at EL1. -/
def translate (va : VirtAddr) : StateM σ Word := do
  perform (.translate va.word)
  perform (.barrier .instructionSync)
  read .parEl1

instance : Core σ where
  level := do
    let w ← read .currentEl
    return CurrentEl.level ⟨w⟩
  features := do
    let w ← read .idAa64Mmfr0El1
    return ⟨w⟩
  sctlr := do
    let w ← read .sctlrEl1
    return ⟨w⟩
  write := write
  barrier b := perform (.barrier b)
  exceptionReturn := leave
  store := store

end Processor

/-- No core at all: everything reads as zero and nothing has an effect. -/
instance : Processor Unit where
  execute _ := pure 0
  store _ := pure ()

end ColdStart
