import ColdStart.Emission
import ColdStart.Register.System
import ColdStart.Translation.Area

/-! What a boot asks of the core it runs on: its level and features, writes of
system registers, barriers, exception returns, and stores to the table area.
Descent, table construction and activation use nothing else, so they run alike
on every core that offers these operations, and the order in which they use them
is all that there is to observe. -/
namespace ColdStart

inductive Barrier
  /-- Memory accesses before it are complete for the inner shareable domain. -/
  | dataSync
  /-- Instructions after it are fetched anew. -/
  | instructionSync
  /-- Every cached translation of EL1 and EL0 is dropped. -/
  | dropTranslations
deriving DecidableEq

class Core (σ : Type) where
  level : StateM σ Level
  features : StateM σ (Value .idAa64Mmfr0El1)
  sctlr : StateM σ (Value .sctlrEl1)
  write : SystemRegister → Word → StateM σ Unit
  barrier : Barrier → StateM σ Unit
  /-- Drops from a level to the one its saved status names. -/
  exceptionReturn : Level → StateM σ Unit
  /-- Changes the table area, in order. -/
  store : List Store → StateM σ Unit

namespace Core
variable {σ α : Type} [Core σ]

/-- Writes the saved status of a level; EL0 has none. -/
def writeStatus (level : Level) (status : Value .spsr) : StateM σ Unit :=
  match SystemRegister.savedStatus level with
  | some r => write r status.word
  | none => pure ()

/-- Makes the stores of an emission and ends as it does. -/
def perform (x : Emission Store α) : Run σ α := do
  (store x.emitted : StateM σ Unit)
  Run.ofExcept x.outcome

end Core
end ColdStart
