import ColdStart.Memory.Region

/-! Partitions of the low window. A list of regions is accepted when every region
is page aligned, non-empty and inside the window, no two overlap, and following
ends from address zero reaches the top of the window. Coverage is not looked at
byte by byte: it follows because the regions are apart. The kind of a span is
likewise decided from clipped lengths alone, so whatever no region covers counts
as the strictest kind. -/
namespace ColdStart

namespace Partition

/-- A region of a list with its place in it. -/
abbrev Placed := Region × Nat

def firstUnfit? (regions : List Placed) : Option Defect :=
  regions.findSome? fun p => p.1.defect? p.2

/-- Looks for `firstUnfit?`, each region's difference checked. -/
def scanUnfit? : List Placed → Except Halt (Option Defect)
  | [] => .ok none
  | p :: rest => do
    match ← p.1.checkedDefect? p.2 with
    | some d => return some d
    | none => scanUnfit? rest

theorem firstUnfit?_cons (p : Placed) (rest : List Placed) :
    firstUnfit? (p :: rest) = (p.1.defect? p.2).or (firstUnfit? rest) := by
  rw [firstUnfit?, List.findSome?_cons]
  cases p.1.defect? p.2 <;> rfl

theorem scanUnfit?_eq (regions : List Placed) : scanUnfit? regions = .ok (firstUnfit? regions) := by
  induction regions with
  | nil => rfl
  | cons p rest ih =>
    rw [scanUnfit?, Region.checkedDefect?_eq, ih, firstUnfit?_cons]
    cases p.1.defect? p.2 <;> rfl

/-- The place of the first region that overlaps `r`. -/
def firstMeeting? (r : Region) : List Placed → Except Halt (Option Nat)
  | [] => .ok none
  | s :: rest => do
    if ← r.overlaps s.1 then
      return some s.2
    else
      firstMeeting? r rest

/-- The first pair of regions that overlap, in the order of the pairs. -/
def firstOverlap? : List Placed → Except Halt (Option Defect)
  | [] => .ok none
  | r :: rest => do
    match ← firstMeeting? r.1 rest with
    | some second => return some (.overlap r.2 second)
    | none => firstOverlap? rest

/-- Follows region ends from `reached` until the window is covered, each time by
the last region of the list that begins there. A scan that has not ended after
`left` steps is cut off. -/
def firstGap? (regions : List Region) : (left : Nat) → (reached : Word) → Except Halt (Option Defect)
  | 0, _ => .error .endless
  | left + 1, reached =>
    if reached < windowSize then
      match regions.reverse.find? fun r => r.start == reached with
      | some r => do firstGap? regions left (← r.stop)
      | none => return some (.gap reached)
    else
      return none

/-- The first defect of a list of regions, if it is no partition. Every step of
the last scan uses up a region, so it ends one step after the last of them. -/
def defect? (regions : List Region) : Except Halt (Option Defect) := do
  if regions.isEmpty then
    return some .empty
  else if maxRegions < regions.length then
    return some .tooManyRegions
  else
    match ← scanUnfit? regions.zipIdx with
    | some d => return some d
    | none =>
      match ← firstOverlap? regions.zipIdx with
      | some d => return some d
      | none => firstGap? regions (regions.length + 1) 0

end Partition

/-- Regions without a defect, in the order in which they were given. -/
structure Partition where
  regions : List Region
  sound : Partition.defect? regions = .ok none

namespace Partition

def ofRegions? (regions : List Region) : Except Halt (Except Defect Partition) :=
  match verdict : defect? regions with
  | .error halt => .error halt
  | .ok (some defect) => .ok (.error defect)
  | .ok none => .ok (.ok ⟨regions, verdict⟩)

def ofRegions (regions : List Region) : Except Halt Partition := do
  match ← ofRegions? regions with
  | .ok p => return p
  | .error defect => throw (.notPartition defect)

/-- The boot map: the first section holds the image, its stack and the tables,
the second holds devices. -/
def standard : Partition where
  regions := [⟨0, sectionSize, .normalNonCacheable⟩, ⟨sectionSize, sectionSize, .device⟩]
  sound := rfl

def kindAt (p : Partition) (a : Word) : MemoryKind :=
  match p.regions.find? fun r => r.holds a with
  | some r => r.memory
  | none => .strictest

/-- The first region that holds the address. -/
def firstHolding? (a : Word) : List Region → Except Halt (Option Region)
  | [] => .ok none
  | r :: rest => do
    if ← r.holds? a then
      return some r
    else
      firstHolding? a rest

/-- Looks for `kindAt`, each region's difference checked. -/
def kindAt? (p : Partition) (a : Word) : Except Halt MemoryKind := do
  match ← firstHolding? a p.regions with
  | some r => return r.memory
  | none => return .strictest

theorem firstHolding?_eq (a : Word) (regions : List Region) :
    firstHolding? a regions = .ok (regions.find? fun r => r.holds a) := by
  induction regions with
  | nil => rfl
  | cons r rest ih =>
    rw [firstHolding?, Region.holds?_eq, ih, List.find?_cons]
    cases r.holds a <;> rfl

/-- Every address has a kind. -/
theorem kindAt?_eq (p : Partition) (a : Word) : p.kindAt? a = .ok (p.kindAt a) := by
  rw [kindAt?, firstHolding?_eq, kindAt]
  cases p.regions.find? fun r => r.holds a <;> rfl

/-- What a scan of a span has met: the kind of the regions so far, and how many
bytes of the span they cover. -/
structure Cover where
  kind : Option MemoryKind
  bytes : Word
deriving DecidableEq

/-- Scans the regions that meet `[start, stop)`, until one has another kind. -/
def cover? (start stop : Word) (found : Cover) : List Region → Except Halt (Option Cover)
  | [] => .ok (some found)
  | r :: rest => do
    let after ← r.stop
    let low := if r.start ≤ start then start else r.start
    let high := if after ≤ stop then after else stop
    if high ≤ low then
      cover? start stop found rest
    else
      let bytes ← Word.add? found.bytes (← Word.sub? high low)
      match found.kind with
      | none => cover? start stop ⟨some r.memory, bytes⟩ rest
      | some kind =>
        if kind = r.memory then cover? start stop ⟨some kind, bytes⟩ rest else return none

/-- The one kind of the `size` bytes from `start`, which end at the top of memory
at the latest. A mixed span has none, and neither has an empty one. -/
def kindOver (p : Partition) (start size : Word) : Except Halt (Option MemoryKind) := do
  match ← cover? start (Word.addClamped start size) ⟨none, 0⟩ p.regions with
  | none => return none
  | some found =>
    if found.bytes < size then
      return if found.kind.getD .strictest = .strictest then some .strictest else none
    else
      return found.kind

end Partition
end ColdStart
