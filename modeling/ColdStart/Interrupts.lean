import ColdStart.Machine.Instruction

/-! Masking interrupts on a single core. Sections in which IRQ and FIQ are masked
can be nested: each restores exactly the two masks that it found, and leaves the
debug and SError masks as its body left them. A section is opened and closed
around a body, or by hand with a token of two bits that remembers the masks. -/
namespace ColdStart.Interrupts

variable {σ α : Type} [Processor σ]

def mask : StateM σ Unit :=
  Processor.perform .maskInterrupts

def unmask : StateM σ Unit :=
  Processor.perform .unmaskInterrupts

def masks : StateM σ (Value .daif) := do
  let w ← Processor.read .daif
  return ⟨w⟩

def isMasked : StateM σ Bool := do
  let now ← masks
  return now.test Daif.i

/-- Masks IRQ and FIQ and gives the masks as they were. -/
def save : StateM σ (Value .daif) := do
  let before ← masks
  mask
  return before

/-- Puts the masks of IRQ and FIQ back, and those two only. -/
def restore (saved : Value .daif) : StateM σ Unit := do
  let now ← masks
  let next := now |>.put Daif.i (saved.test Daif.i) |>.put Daif.f (saved.test Daif.f)
  Processor.write .daif next.word

def without (body : StateM σ α) : StateM σ α := do
  let saved ← save
  let result ← body
  restore saved
  return result

/-- Which of IRQ (bit 0) and FIQ (bit 1) were masked when a section was entered. -/
abbrev Token := BitVec 8

namespace Token

def ofMasks (saved : Value .daif) : Token :=
  (if saved.test Daif.i then 1 else 0) ||| (if saved.test Daif.f then 2 else 0)

def toMasks (token : Token) : Value .daif :=
  (⟨0⟩ : Value .daif) |>.put Daif.i (token.getLsbD 0) |>.put Daif.f (token.getLsbD 1)

end Token

def enter : StateM σ Token := do
  let saved ← save
  return Token.ofMasks saved

/-- Closes the innermost open section, given its token. -/
def leave (token : Token) : StateM σ Unit :=
  restore token.toMasks

def within (body : StateM σ α) : StateM σ α := do
  let token ← enter
  let result ← body
  leave token
  return result

end ColdStart.Interrupts
