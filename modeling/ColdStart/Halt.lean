import ColdStart.Memory.Defect
import ColdStart.Privilege.Level

/-! Halts: the ways in which a computation stops dead, because an operand left
its range or a condition its caller had to keep was broken. A halt is no answer
of the library. Errors that a caller is meant to meet have types of their own;
a halt is what the caller is promised never to see. -/
namespace ColdStart

/-- Why a computation stopped dead. -/
inductive Halt
  | addOverflow
  | subOverflow
  | mulOverflow
  | fieldOverflow
  | noSuchLevel
  | noSuchSlot
  | rootMisaligned
  | rootTooWide
  | areaMisaligned
  | lowerWidth
  | upperWidth
  /-- A descent was begun on a core that is at the level `found`. -/
  | levelMismatch (found expected : Level)
  | indexOutOfBounds (length index : Nat)
  | notPartition (defect : Defect)
  /-- The core's clock stopped. -/
  | coreStopped
  /-- A loop was cut off before it had ended. -/
  | endless
deriving DecidableEq

namespace Halt

def message : Halt → String
  | addOverflow => "attempt to add with overflow"
  | subOverflow => "attempt to subtract with overflow"
  | mulOverflow => "attempt to multiply with overflow"
  | fieldOverflow => "assertion failed: value <= Self::MAX.value"
  | noSuchLevel => "assertion failed: level <= 3"
  | noSuchSlot => "assertion failed: index < 8"
  | rootMisaligned => "assertion failed: table.is_aligned(crate::catalog::PAGE_SIZE)"
  | rootTooWide => "assertion failed: table.as_u64() >> 48 == 0"
  | areaMisaligned => "assertion failed: tables_pa.is_aligned(PAGE_SIZE)"
  | lowerWidth => "assertion failed: lower.va_bits >= 25 && lower.va_bits <= 48"
  | upperWidth => "assertion failed: upper.va_bits >= 25 && upper.va_bits <= 48"
  | levelMismatch found expected =>
      "assertion `left == right` failed\n  left: " ++ found.label ++ "\n right: " ++ expected.label
  | indexOutOfBounds length index =>
      "index out of bounds: the len is " ++ toString length ++ " but the index is " ++ toString index
  | notPartition defect => defect.reason
  | coreStopped => "core stopped"
  | endless => "loop does not end"

end Halt

def require (condition : Bool) (otherwise : Halt) : Except Halt Unit :=
  if condition then .ok () else .error otherwise

theorem require_eq_ok_iff {condition : Bool} {otherwise : Halt} {u : Unit} :
    require condition otherwise = .ok u ↔ condition = true := by
  cases condition <;> simp [require]

/-- A condition that is required guards all that follows. -/
theorem require_bind_eq_ok_iff {α : Type} {condition : Bool} {otherwise : Halt}
    {next : Unit → Except Halt α} {a : α} :
    (require condition otherwise >>= next) = .ok a ↔ condition = true ∧ next () = .ok a := by
  cases condition with
  | true => exact (and_iff_right rfl).symm
  | false => exact iff_of_false (fun answer => nomatch answer) (fun both => nomatch both.1)

/-- A computation on a state that may halt. What it did to the state before the
halt stays done. -/
abbrev Run (σ : Type) := ExceptT Halt (StateM σ)

namespace Run
variable {σ α : Type}

def on (x : Run σ α) (s : σ) : Except Halt α × σ :=
  StateT.run (ExceptT.run x) s

/-- A result computed without touching the state. -/
def ofExcept (x : Except Halt α) : Run σ α :=
  ExceptT.mk (pure x)

theorem on_ofExcept (x : Except Halt α) (s : σ) : (ofExcept x : Run σ α).on s = (x, s) := rfl

theorem on_lift (x : StateM σ α) (s : σ) :
    (liftM x : Run σ α).on s = (.ok (x s).1, (x s).2) := rfl

/-- A computation that halts skips what follows. -/
theorem on_bind {β : Type} (x : Run σ α) (f : α → Run σ β) (s : σ) :
    (x >>= f).on s = match (x.on s).1 with
      | .ok a => (f a).on (x.on s).2
      | .error e => (.error e, (x.on s).2) := by
  change (match x.on s with | (r, u) => (ExceptT.bindCont f r : StateM σ _) u) = _
  obtain ⟨answer, t⟩ := x.on s
  cases answer <;> rfl

theorem on_bind_of_ok {β : Type} {x : Run σ α} {s t : σ} {a : α} (ran : x.on s = (.ok a, t))
    (f : α → Run σ β) : (x >>= f).on s = (f a).on t := by
  rw [on_bind, ran]

end Run
end ColdStart
