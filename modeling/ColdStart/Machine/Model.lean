import ColdStart.Machine.Core
import ColdStart.Machine.RegisterFile
import ColdStart.Register.Status

/-! The model core: a level, a register file, a table area, and the trace of what
was done to them, stores to the tables among the register writes. Reads leave no
trace. An exception return moves to the level of the mode in the saved status it
returns by; where that status names no mode, the core stays where it is. There
are no privilege checks: whether an operation was allowed is a statement about
the trace. -/
namespace ColdStart

inductive Event
  | write (register : SystemRegister) (word : Word)
  | barrier (barrier : Barrier)
  | exceptionReturn (source target : Level)
  | store (store : Store)
deriving DecidableEq

structure ModelCore where
  level : Level
  features : Value .idAa64Mmfr0El1
  registers : RegisterFile SystemRegister
  tables : TableArea
  trace : List Event

namespace ModelCore

/-- A core at a level whose only known register is its system control. -/
def initial (level : Level) (features : Value .idAa64Mmfr0El1) (sctlr : Value .sctlrEl1) :
    ModelCore where
  level := level
  features := features
  registers := RegisterFile.empty.set .sctlrEl1 sctlr.word
  tables := .empty
  trace := []

/-- Where an exception return from `source` leads. -/
def landing (m : ModelCore) (source : Level) : Level :=
  match SystemRegister.savedStatus source with
  | none => m.level
  | some r =>
    match Spsr.mode ⟨m.registers.read r⟩ with
    | .ok mode => mode.level
    | .error _ => m.level

instance : Core ModelCore where
  level := fun m => (m.level, m)
  features := fun m => (m.features, m)
  sctlr := fun m => (⟨m.registers.read .sctlrEl1⟩, m)
  write r w := fun m =>
    ((), { m with registers := m.registers.set r w, trace := m.trace ++ [.write r w] })
  barrier b := fun m => ((), { m with trace := m.trace ++ [.barrier b] })
  exceptionReturn source := fun m =>
    let target := m.landing source
    ((), { m with level := target, trace := m.trace ++ [.exceptionReturn source target] })
  store stores := fun m =>
    ((), { m with tables := m.tables.applyAll stores, trace := m.trace ++ stores.map .store })

end ModelCore

namespace Event

def barrierText : Barrier → String
  | .dataSync => "dsb_ish"
  | .instructionSync => "isb"
  | .dropTranslations => "tlbi_vmalle1"

/-- The printed form of an operation of the core; stores are none. -/
def text? : Event → Option String
  | write r w => some (r.label ++ "=" ++ Text.hex w.toNat)
  | barrier b => some (barrierText b)
  | exceptionReturn source target => some ("eret " ++ source.label ++ " " ++ target.label)
  | store _ => none

end Event
end ColdStart
