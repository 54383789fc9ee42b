import ColdStart.Coded

/-! The four exception levels, ordered by privilege, and the modes in which a
level can run. A mode fixes its level and says which stack pointer is in use:
the `t` modes use the one of EL0, the `h` modes the level's own. Descent only
ever moves from a level to the one below it. -/
namespace ColdStart

/-- An exception level; EL3 is the most privileged. -/
inductive Level
  | el0
  | el1
  | el2
  | el3
deriving DecidableEq

namespace Level

def rank : Level → Nat
  | el0 => 0
  | el1 => 1
  | el2 => 2
  | el3 => 3

def label : Level → String
  | el0 => "El0"
  | el1 => "El1"
  | el2 => "El2"
  | el3 => "El3"

instance : Coded Level where
  kind := "ExceptionLevel"
  all := [el0, el1, el2, el3]
  code := rank
  label := label

instance : LE Level := ⟨fun a b => a.rank ≤ b.rank⟩
instance : LT Level := ⟨fun a b => a.rank < b.rank⟩
instance (a b : Level) : Decidable (a ≤ b) := inferInstanceAs (Decidable (a.rank ≤ b.rank))
instance (a b : Level) : Decidable (a < b) := inferInstanceAs (Decidable (a.rank < b.rank))

/-- The architecture's own spelling, such as `EL1`. -/
def display (l : Level) : String :=
  "EL" ++ toString l.rank

/-- Every level, the most privileged first. -/
def descending : List Level :=
  [el3, el2, el1, el0]

def below : Level → Option Level
  | el3 => some el2
  | el2 => some el1
  | el1 => some el0
  | el0 => none

/-- Two bits name every level. -/
def ofBits (bits : BitVec 2) : Level :=
  match bits.toNat with
  | 0 => el0
  | 1 => el1
  | 2 => el2
  | _ => el3

def compare (a b : Level) : Ordering :=
  Ord.compare a.rank b.rank

theorem le_iff {a b : Level} : a ≤ b ↔ a.rank ≤ b.rank := Iff.rfl

theorem lt_iff {a b : Level} : a < b ↔ a.rank < b.rank := Iff.rfl

instance : LawfulCoded Level where
  mem_all l := by cases l <;> decide
  code_injective {a b} same := by cases a <;> cases b <;> first | rfl | cases same

theorem rank_below {a b : Level} (next : a.below = some b) : b.rank + 1 = a.rank := by
  cases a <;> simp_all [below] <;> subst next <;> rfl

end Level

/-- What the mode bits of a saved status can name. -/
inductive Mode
  | el0t
  | el1t
  | el1h
  | el2t
  | el2h
  | el3t
  | el3h
deriving DecidableEq

namespace Mode

/-- The level in bits 3:2, the choice of stack pointer in bit 0. -/
def code : Mode → Nat
  | el0t => 0b0000
  | el1t => 0b0100
  | el1h => 0b0101
  | el2t => 0b1000
  | el2h => 0b1001
  | el3t => 0b1100
  | el3h => 0b1101

def label : Mode → String
  | el0t => "El0t"
  | el1t => "El1t"
  | el1h => "El1h"
  | el2t => "El2t"
  | el2h => "El2h"
  | el3t => "El3t"
  | el3h => "El3h"

instance : Coded Mode where
  kind := "ExceptionMode"
  all := [el0t, el1t, el1h, el2t, el2h, el3t, el3h]
  code := code
  label := label

def level : Mode → Level
  | el0t => .el0
  | el1t | el1h => .el1
  | el2t | el2h => .el2
  | el3t | el3h => .el3

/-- The mode in which a level is entered by a return into it: on its own stack
pointer, except at EL0, which has none. -/
def entering : Level → Mode
  | .el0 => el0t
  | .el1 => el1h
  | .el2 => el2h
  | .el3 => el3h

@[simp] theorem level_entering (l : Level) : (entering l).level = l := by
  cases l <;> rfl

theorem code_lt (m : Mode) : m.code < 16 := by
  cases m <;> decide

instance : LawfulCoded Mode where
  mem_all m := by cases m <;> decide
  code_injective {a b} same := by cases a <;> cases b <;> first | rfl | cases same

end Mode
end ColdStart
