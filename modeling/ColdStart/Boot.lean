import ColdStart.Activation
import ColdStart.Privilege.Descent
import ColdStart.Translation.Build

/-! The whole boot. Every check is made first: the descent is planned and the
placement admitted before anything is written, so a boot that is refused has
left no mark on the core. Then the core descends, the tables are built, and
translation is turned on. -/
namespace ColdStart

/-- What stopped a boot before its first write. -/
inductive BootError
  | descent (error : DescentError)
  | activation (refusal : Refusal)
deriving DecidableEq

namespace BootError

def label : BootError → String
  | descent _ => "Descent"
  | activation _ => "Activation"

def message : BootError → String
  | descent e => "descent: " ++ e.message
  | activation e => "activation: " ++ e.message

def inspect (e : BootError) : String :=
  match e with
  | descent inner => Text.applied e.label inner.inspect
  | activation inner => Text.applied e.label inner.inspect

end BootError

/-- The state in which a boot leaves the core. -/
structure Booted where
  level : Level
  tables : BuildTally
  sctlr : Value .sctlrEl1
deriving DecidableEq

namespace Booted

def inspect (b : Booted) : String :=
  Text.record "Booted"
    [("level", b.level.label), ("tables", b.tables.inspect), ("sctlr", b.sctlr.inspect)]

end Booted

variable {σ : Type} [Core σ]

/-- Takes the core from its reset level to the kernel's, with translation on. -/
def boot (p : Placement) : Run σ (Except BootError Booted) := do
  let current ← (Core.level : StateM σ Level)
  match ← Run.ofExcept (Descent.plan? current Profile.kernelLevel) with
  | .error e => return .error (.descent e)
  | .ok descent =>
    let features ← (Core.features : StateM σ (Value .idAa64Mmfr0El1))
    match ← Run.ofExcept (Activation.forPlacement? features p) with
    | .error e => return .error (.activation e)
    | .ok activation =>
      let level ← descent.take
      let tables ← Core.perform (build p.partition p.tables)
      let sctlr ← (activation.enable : StateM σ (Value .sctlrEl1))
      return .ok { level, tables, sctlr }

end ColdStart
