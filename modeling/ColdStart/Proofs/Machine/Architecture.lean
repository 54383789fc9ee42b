import ColdStart.Machine.Instruction
import ColdStart.Machine.RegisterFile

/-! A core with the meaning that the architecture gives its instructions. What an
encoding accesses, which stack pointer is in use, where a return goes and what it takes
over are written down here from the architecture and not from the library, so that a
wrong number in the library shows as a wrong access. Straight code runs along the
program counter, four bytes an instruction. The code between two sequences is not part
of the library: a sequence may begin at any address, and the core carries those addresses
along. So it does with the answers to translations. There are no privilege checks. -/
namespace ColdStart

/-- The registers as the architecture tells them apart. -/
inductive ArchRegister
  | system (register : SystemRegister)
  | stackOf (level : Level)
  | linkOf (level : Level)
  /-- Any register that has no name here. -/
  | other (encoding : Encoding)
deriving DecidableEq

namespace ArchRegister

/-- The register with an encoding, by the tables of the architecture. -/
def ofEncoding (e : Encoding) : ArchRegister :=
  match e with
  | ⟨3, 0, 0, 0, 5⟩ => system .mpidrEl1
  | ⟨3, 0, 0, 7, 0⟩ => system .idAa64Mmfr0El1
  | ⟨3, 0, 1, 0, 0⟩ => system .sctlrEl1
  | ⟨3, 0, 2, 0, 0⟩ => system .ttbr0El1
  | ⟨3, 0, 2, 0, 1⟩ => system .ttbr1El1
  | ⟨3, 0, 2, 0, 2⟩ => system .tcrEl1
  | ⟨3, 0, 4, 0, 0⟩ => system .spsrEl1
  | ⟨3, 0, 4, 0, 1⟩ => linkOf .el1
  | ⟨3, 0, 4, 1, 0⟩ => stackOf .el0
  | ⟨3, 0, 4, 2, 2⟩ => system .currentEl
  | ⟨3, 0, 7, 4, 0⟩ => system .parEl1
  | ⟨3, 0, 10, 2, 0⟩ => system .mairEl1
  | ⟨3, 3, 4, 2, 1⟩ => system .daif
  | ⟨3, 4, 1, 0, 0⟩ => system .sctlrEl2
  | ⟨3, 4, 1, 1, 0⟩ => system .hcrEl2
  | ⟨3, 4, 4, 0, 0⟩ => system .spsrEl2
  | ⟨3, 4, 4, 0, 1⟩ => linkOf .el2
  | ⟨3, 4, 4, 1, 0⟩ => stackOf .el1
  | ⟨3, 4, 14, 0, 3⟩ => system .cntvoffEl2
  | ⟨3, 4, 14, 1, 0⟩ => system .cnthctlEl2
  | ⟨3, 6, 1, 1, 0⟩ => system .scrEl3
  | ⟨3, 6, 4, 0, 0⟩ => system .spsrEl3
  | ⟨3, 6, 4, 0, 1⟩ => linkOf .el3
  | ⟨3, 6, 4, 1, 0⟩ => stackOf .el2
  | _ => other e

/-- The saved status of a level; EL0 has none. -/
def statusOf? : Level → Option ArchRegister
  | .el0 => none
  | .el1 => some (system .spsrEl1)
  | .el2 => some (system .spsrEl2)
  | .el3 => some (system .spsrEl3)

end ArchRegister

/-- The four interrupt masks of the processor state. -/
structure Masks where
  debug : Bool
  sError : Bool
  irq : Bool
  fiq : Bool
deriving DecidableEq

namespace Masks

/-- Bits 9 to 6, the same in the mask register and in a saved status. -/
def ofWord (w : Word) : Masks :=
  ⟨w.getLsbD 9, w.getLsbD 8, w.getLsbD 7, w.getLsbD 6⟩

def word (m : Masks) : Word :=
  ((if m.debug then 0x200 else 0) ||| (if m.sError then 0x100 else 0)) |||
    ((if m.irq then 0x80 else 0) ||| (if m.fiq then 0x40 else 0))

@[simp] theorem ofWord_word (m : Masks) : ofWord m.word = m := by
  obtain ⟨d, a, i, f⟩ := m
  cases d <;> cases a <;> cases i <;> cases f <;> rfl

end Masks

/-- Where the core is: its level, the stack pointer in use, the next instruction. -/
structure Point where
  level : Level
  stack : Word
  counter : Word
deriving DecidableEq

/-- What the core did: an instruction, with where it was before and after, or a store to
the table area. -/
inductive Act
  | executed (instruction : Instruction) (before after : Point)
  | stored (store : Store)
deriving DecidableEq

structure A64Core where
  level : Level
  /-- The level's own stack pointer is in use, and not that of EL0. -/
  ownStack : Bool
  masks : Masks
  registers : RegisterFile ArchRegister
  counter : Word
  /-- Where the sequences to come begin, the next one first. -/
  sites : Nat → Word
  /-- What the core answers when it is asked for the translation of an address. -/
  translations : Word → Word
  tables : TableArea
  log : List Act

namespace A64Core

def stack (c : A64Core) : Word :=
  c.registers.read (.stackOf (if c.ownStack then c.level else .el0))

def point (c : A64Core) : Point :=
  ⟨c.level, c.stack, c.counter⟩

def get (c : A64Core) : ArchRegister → Word
  | .system .currentEl => BitVec.ofNat 64 (4 * c.level.rank)
  | .system .daif => c.masks.word
  | r => c.registers.read r

/-- Registers that can only be read stay as they are. -/
def set (c : A64Core) (r : ArchRegister) (w : Word) : A64Core :=
  match r with
  | .system .currentEl | .system .idAa64Mmfr0El1 | .system .mpidrEl1 => c
  | .system .daif => { c with masks := .ofWord w }
  | r => { c with registers := c.registers.set r w }

/-- An exception return takes level, choice of stack and masks from the saved status of
the level it leaves and goes on at that level's link. -/
def returned (c : A64Core) : A64Core :=
  match ArchRegister.statusOf? c.level with
  | none => c
  | some r =>
    let status := c.registers.read r
    { c with
      level := .ofBits (status.extractLsb' 2 2)
      ownStack := status.getLsbD 0
      masks := .ofWord status
      counter := c.registers.read (.linkOf c.level) }

/-- The address to resume at is loaded two instructions before the exception return. -/
def loads (c : A64Core) : Instruction → Word
  | .readRegister source => c.get (.ofEncoding source)
  | .readStack => c.stack
  | .readResume => c.counter + 12
  | _ => 0

def effect (c : A64Core) : Instruction → A64Core
  | .writeRegister target w => c.set (.ofEncoding target) w
  | .maskInterrupts => { c with masks := { c.masks with irq := true, fiq := true } }
  | .unmaskInterrupts => { c with masks := { c.masks with irq := false, fiq := false } }
  | .translate a => c.set (.system .parEl1) (c.translations a)
  | .writeStack level w => { c with registers := c.registers.set (.stackOf level) w }
  | .writeLink level w => { c with registers := c.registers.set (.linkOf level) w }
  | _ => c

def next (c : A64Core) : Instruction → A64Core
  | .exceptionReturn => c.returned
  | instruction => { c.effect instruction with counter := c.counter + 4 }

/-- The last four instructions of a descent's sequence follow on its first; all others
are reached from code elsewhere. -/
def continues : Instruction → Bool
  | .writeStack .. | .readResume | .writeLink .. | .exceptionReturn => true
  | _ => false

/-- The core with the counter at the instruction that it executes next. -/
def reach (c : A64Core) (instruction : Instruction) : A64Core :=
  if continues instruction then c
  else { c with counter := c.sites 0, sites := fun n => c.sites (n + 1) }

/-- The instruction that is executed next, with where it leads. -/
def act (c : A64Core) (instruction : Instruction) : Act :=
  let here := c.reach instruction
  .executed instruction here.point (here.next instruction).point

def run (c : A64Core) (instruction : Instruction) : A64Core :=
  let there := (c.reach instruction).next instruction
  { there with log := there.log ++ [c.act instruction] }

instance : Processor A64Core where
  execute instruction := fun c => ((c.reach instruction).loads instruction, c.run instruction)
  store stores := fun c =>
    ((), { c with tables := c.tables.applyAll stores, log := c.log ++ stores.map .stored })

end A64Core
end ColdStart
