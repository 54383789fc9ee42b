import ColdStart.Machine.Core
import ColdStart.Profile
import ColdStart.Register.Inspect

/-! The way down from the level at which a core was reset to a target. A descent
is planned as one exit for each level left, and all checking is done by planning:
taking it writes registers only, and it can halt only on a core that is not where
the plan starts. An exit configures the level being left, names the level below
in the saved status, and returns. Planning puts the exits into three places, one
after another; what it ends with is also given outright. -/
namespace ColdStart

/-- What is written to leave a level for the one below. -/
inductive Exit
  | el3 (scr : Value .scrEl3) (sctlr : Value .sctlrEl2) (status : Value .spsr)
  | el2 (hcr : Value .hcrEl2) (timer : Value .cnthctlEl2) (offset : Word) (status : Value .spsr)
  | el1 (status : Value .spsr)
deriving DecidableEq

namespace Exit

def source : Exit → Level
  | el3 .. => .el3
  | el2 .. => .el2
  | el1 .. => .el1

def target : Exit → Level
  | el3 .. => .el2
  | el2 .. => .el1
  | el1 .. => .el0

def status : Exit → Value .spsr
  | el3 _ _ s => s
  | el2 _ _ _ s => s
  | el1 s => s

/-- The saved status that enters a level with the boot's masks. -/
def entering (level : Level) : Value .spsr :=
  Spsr.withMode Profile.spsr (.entering level)

/-- The exit of a level; EL0 has none. -/
def leaving? (level : Level) : Option Exit := do
  let status := entering (← level.below)
  match level with
  | .el3 => some (el3 Profile.scr Profile.sctlrEl2 status)
  | .el2 => some (el2 Profile.hcr CnthctlEl2.untrapped 0 status)
  | _ => some (el1 status)

def inspect : Exit → String
  | el3 scr sctlr status => Text.record "El3"
      [("scr", scr.inspect), ("sctlr_el2", sctlr.inspect), ("spsr", status.inspect)]
  | el2 hcr timer offset status => Text.record "El2"
      [("hcr", hcr.inspect), ("cnthctl", timer.inspect), ("cntvoff", toString offset.toNat),
        ("spsr", status.inspect)]
  | el1 status => Text.record "El1" [("spsr", status.inspect)]

variable {σ : Type} [Core σ]

def configure : Exit → StateM σ Unit
  | el3 scr sctlr _ => do
    Core.write .scrEl3 scr.word
    Core.write .sctlrEl2 sctlr.word
  | el2 hcr timer offset _ => do
    Core.write .hcrEl2 hcr.word
    Core.write .cnthctlEl2 timer.word
    Core.write .cntvoffEl2 offset
  | el1 _ => pure ()

def take (e : Exit) : StateM σ Unit := do
  e.configure
  Core.writeStatus e.source e.status
  Core.exceptionReturn e.source

end Exit

/-- Why no descent can be planned. -/
inductive DescentError
  | belowTarget (current target : Level)
deriving DecidableEq

namespace DescentError

def label : DescentError → String
  | belowTarget .. => "BelowTarget"

def message : DescentError → String
  | belowTarget current target =>
      "running at " ++ current.display ++ ", cannot climb to " ++ target.display

def inspect (e : DescentError) : String :=
  match e with
  | belowTarget current target =>
      Text.record e.label [("current", current.label), ("target", target.label)]

end DescentError

structure Descent where
  start : Level
  target : Level
  /-- The system control value to begin with, where the start may write it. -/
  sctlr : Option (Value .sctlrEl1)
  exits : List Exit
deriving DecidableEq

namespace Descent

/-- The levels left on the way from `current` down to `target`. -/
def levelsLeft (current target : Level) : List Level :=
  Level.descending.filter fun l => l ≤ current ∧ target < l

/-- The descent from `current` down to `target`. -/
def between? (current target : Level) : Except DescentError Descent :=
  if current < target then
    .error (.belowTarget current target)
  else
    .ok
      { start := current
        target := target
        sctlr := if current = .el0 then none else some Profile.sctlrOff
        exits := (levelsLeft current target).filterMap Exit.leaving? }

/-- How many exits there can be: every level but the last has one. -/
def maxExits : Nat := 3

/-- The places that a plan has for exits. -/
abbrev Places := Vector (Option Exit) maxExits

/-- Puts the exits of the levels from `level` down to `target` into the places from
`place` on. -/
def fill? (target level : Level) (place : Nat) (exits : Places) : Except Halt Places :=
  if target < level then
    if within : place < maxExits then
      match next : level.below with
      | some lower => fill? target lower (place + 1) (exits.set place (Exit.leaving? level))
      | none => .ok (exits.set place (Exit.leaving? level))
    else
      .error (.indexOutOfBounds maxExits place)
  else
    .ok exits
termination_by level.rank
decreasing_by exact Nat.lt_of_succ_le (Nat.le_of_eq (Level.rank_below next))

/-- Plans the descent from `current` down to `target`, level by level. -/
def plan? (current target : Level) : Except Halt (Except DescentError Descent) := do
  if current < target then
    return .error (.belowTarget current target)
  else
    let places ← fill? target current 0 (Vector.replicate maxExits none)
    return .ok
      { start := current
        target := target
        sctlr := if current = .el0 then none else some Profile.sctlrOff
        exits := places.toList.filterMap id }

/-- The printed form has a place for each exit that there can be. -/
def inspect (d : Descent) : String :=
  let exits := d.exits.map some ++ List.replicate (maxExits - d.exits.length) none
  Text.record "Descent"
    [("start", d.start.label), ("target", d.target.label),
      ("sctlr", Text.optional Value.inspect d.sctlr),
      ("exits", Text.listed (exits.map (Text.optional Exit.inspect)))]

variable {σ : Type} [Core σ]

/-- Runs the exits on a core that is at the start level; ends with the level that
the core says it is at. -/
def take (d : Descent) : Run σ Level := do
  let found ← (Core.level : StateM σ Level)
  Run.ofExcept (require (found == d.start) (.levelMismatch found d.start))
  match d.sctlr with
  | some v => (Core.write .sctlrEl1 v.word : StateM σ Unit)
  | none => pure ()
  (d.exits.forM Exit.take : StateM σ Unit)
  (Core.level : StateM σ Level)

/-- Takes the core from wherever it is down to `target`. -/
def downTo (target : Level) : Run σ (Except DescentError Level) := do
  let current ← (Core.level : StateM σ Level)
  match ← Run.ofExcept (plan? current target) with
  | .error e => return .error e
  | .ok d => return .ok (← d.take)

end Descent
end ColdStart
