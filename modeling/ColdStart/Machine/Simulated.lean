import ColdStart.Machine.Instruction
import ColdStart.Machine.RegisterFile

/-! A simulated core. Its state is a file of registers by the names that
instructions use, a table area, and the log of executed instructions. A register
that was never given reads as zero. There are no privilege checks; an exception
return takes level and interrupt masks from the saved status of the level it is
executed at. The stack pointer in use and the address after an exception return
are registers that are only read. -/
namespace ColdStart

inductive RegisterName
  | system (encoding : Encoding)
  | stackOf (level : Level)
  | linkOf (level : Level)
  /-- The stack pointer in use. -/
  | stack
  /-- The address after an exception return. -/
  | resume
  /-- A register no instruction of the library names. -/
  | other (name : String)
deriving DecidableEq

namespace RegisterName

def text : RegisterName → String
  | system e => e.text
  | stackOf l => "sp_el" ++ toString l.rank
  | linkOf l => "elr_el" ++ toString l.rank
  | stack => "sp"
  | resume => "label"
  | other name => name

/-- Every register an instruction of the library can name. -/
def known : List RegisterName :=
  SystemRegister.all.map (fun r => system r.encoding) ++
    [stackOf .el0, stackOf .el1, stackOf .el2, linkOf .el1, linkOf .el2, linkOf .el3, stack, resume]

def ofText (name : String) : RegisterName :=
  (known.find? fun r => r.text == name).getD (other name)

end RegisterName

/-- An instruction with the value it loaded. -/
structure Executed where
  instruction : Instruction
  loaded : Word
deriving DecidableEq

namespace Executed

/-- The assembler form of the instruction with the value that passed; filling a
scratch register has none. -/
def text? (e : Executed) : Option String :=
  match e.instruction with
  | .readRegister source => some ("mrs " ++ source.text ++ " = " ++ Text.hex e.loaded.toNat)
  | .writeRegister target w => some ("msr " ++ target.text ++ " = " ++ Text.hex w.toNat)
  | .maskInterrupts => some "msr daifset, #3"
  | .unmaskInterrupts => some "msr daifclr, #3"
  | .barrier .dataSync => some "dsb ish"
  | .barrier .instructionSync => some "isb"
  | .barrier .dropTranslations => some "tlbi vmalle1"
  | .translate a => some ("at s1e1r, " ++ Text.hex a.toNat)
  | .exceptionReturn => some "eret"
  | .waitForEvent => some "wfe"
  | .readStack | .readResume => none
  | .writeStack l w => some ("msr " ++ (RegisterName.stackOf l).text ++ " = " ++ Text.hex w.toNat)
  | .writeLink l w => some ("msr " ++ (RegisterName.linkOf l).text ++ " = " ++ Text.hex w.toNat)

end Executed

structure SimulatedCore where
  registers : RegisterFile RegisterName
  tables : TableArea
  log : List Executed

namespace SimulatedCore

def initial (registers : RegisterFile RegisterName) : SimulatedCore :=
  ⟨registers, .empty, []⟩

def get (c : SimulatedCore) (r : RegisterName) : Word :=
  c.registers.read r

def set (c : SimulatedCore) (r : RegisterName) (w : Word) : SimulatedCore :=
  { c with registers := c.registers.set r w }

def getSystem (c : SimulatedCore) (r : SystemRegister) : Word :=
  c.get (.system r.encoding)

def setSystem (c : SimulatedCore) (r : SystemRegister) (w : Word) : SimulatedCore :=
  c.set (.system r.encoding) w

def interruptMasks : Word :=
  Daif.i.mask ||| Daif.f.mask

/-- The saved status by which an exception return at the current level returns. -/
def savedStatus (c : SimulatedCore) : Word :=
  match SystemRegister.savedStatus (CurrentEl.level ⟨c.getSystem .currentEl⟩) with
  | some r => c.getSystem r
  | none => 0

def loads (c : SimulatedCore) : Instruction → Word
  | .readRegister source => c.get (.system source)
  | .readStack => c.get .stack
  | .readResume => c.get .resume
  | _ => 0

def step (c : SimulatedCore) : Instruction → SimulatedCore
  | .writeRegister target w => c.set (.system target) w
  | .maskInterrupts => c.setSystem .daif (c.getSystem .daif ||| interruptMasks)
  | .unmaskInterrupts => c.setSystem .daif (c.getSystem .daif &&& ~~~interruptMasks)
  | .writeStack l w => c.set (.stackOf l) w
  | .writeLink l w => c.set (.linkOf l) w
  | .exceptionReturn =>
    let status := c.savedStatus
    (c.setSystem .currentEl (status &&& 0xc)).setSystem .daif (status &&& 0x3c0)
  | .readRegister _ | .barrier _ | .translate _ | .waitForEvent | .readStack | .readResume => c

instance : Processor SimulatedCore where
  execute instruction := fun c =>
    let loaded := c.loads instruction
    let after := c.step instruction
    (loaded, { after with log := after.log ++ [⟨instruction, loaded⟩] })
  store stores := fun c => ((), { c with tables := c.tables.applyAll stores })

/-- Waits for an event on a core that stops with the last of `limit` waits. -/
def wait (limit : Nat) : Run SimulatedCore Unit := do
  (Processor.perform .waitForEvent : StateM SimulatedCore Unit)
  if limit ≤ 1 then throw .coreStopped

/-- Waits for good, on a core that stops with the last of `limit` waits. -/
def park : (limit : Nat) → Run SimulatedCore Unit
  | 0 => wait 0
  | limit + 1 => do
    wait (limit + 1)
    park limit

end SimulatedCore
end ColdStart
