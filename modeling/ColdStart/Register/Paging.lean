import ColdStart.Address.Physical
import ColdStart.Coded
import ColdStart.Register.Layout

/-! The registers that say how addresses are translated: the shape of both
regions, the root of their tables, the attribute bytes that descriptors index,
and what the core supports. The two regions encode the same granule
differently, and a reserved granule encoding names none. -/
namespace ColdStart

/-- The size of a page, and of a table. -/
inductive Granule
  | kb4
  | kb16
  | kb64
deriving DecidableEq

namespace Granule

def label : Granule → String
  | kb4 => "Kb4"
  | kb16 => "Kb16"
  | kb64 => "Kb64"

def all : List Granule := [kb4, kb16, kb64]

def lowerCode : Granule → Word
  | kb4 => 0b00
  | kb64 => 0b01
  | kb16 => 0b10

def upperCode : Granule → Word
  | kb16 => 0b01
  | kb4 => 0b10
  | kb64 => 0b11

def ofLowerCode? (w : Word) : Option Granule :=
  all.find? fun g => g.lowerCode == w

def ofUpperCode? (w : Word) : Option Granule :=
  all.find? fun g => g.upperCode == w

@[simp] theorem ofLowerCode?_lowerCode (g : Granule) : ofLowerCode? g.lowerCode = some g := by
  cases g <;> rfl

@[simp] theorem ofUpperCode?_upperCode (g : Granule) : ofUpperCode? g.upperCode = some g := by
  cases g <;> rfl

end Granule

inductive WalkCacheability
  | nonCacheable
  | writeBackWriteAllocate
  | writeThrough
  | writeBackNoWriteAllocate
deriving DecidableEq

namespace WalkCacheability

def code : WalkCacheability → Nat
  | nonCacheable => 0b00
  | writeBackWriteAllocate => 0b01
  | writeThrough => 0b10
  | writeBackNoWriteAllocate => 0b11

instance : Coded WalkCacheability where
  kind := "WalkCacheability"
  all := [nonCacheable, writeBackWriteAllocate, writeThrough, writeBackNoWriteAllocate]
  code := code
  label
    | nonCacheable => "NonCacheable"
    | writeBackWriteAllocate => "WriteBackWriteAllocate"
    | writeThrough => "WriteThrough"
    | writeBackNoWriteAllocate => "WriteBackNoWriteAllocate"

instance : LawfulCoded WalkCacheability where
  mem_all c := by cases c <;> decide
  code_injective {a b} same := by cases a <;> cases b <;> first | rfl | cases same

end WalkCacheability

inductive PhysicalSize
  | bits32
  | bits36
  | bits40
  | bits42
  | bits44
  | bits48
  | bits52
deriving DecidableEq

namespace PhysicalSize

def code : PhysicalSize → Nat
  | bits32 => 0b000
  | bits36 => 0b001
  | bits40 => 0b010
  | bits42 => 0b011
  | bits44 => 0b100
  | bits48 => 0b101
  | bits52 => 0b110

instance : Coded PhysicalSize where
  kind := "PhysicalAddressSize"
  all := [bits32, bits36, bits40, bits42, bits44, bits48, bits52]
  code := code
  label
    | bits32 => "Bits32"
    | bits36 => "Bits36"
    | bits40 => "Bits40"
    | bits42 => "Bits42"
    | bits44 => "Bits44"
    | bits48 => "Bits48"
    | bits52 => "Bits52"

instance : LawfulCoded PhysicalSize where
  mem_all s := by cases s <;> decide
  code_injective {a b} same := by cases a <;> cases b <;> first | rfl | cases same

end PhysicalSize

namespace TcrEl1

structure Region where
  /-- Width of the region's addresses, 25 to 48 bits. -/
  width : Nat
  granule : Granule
  inner : WalkCacheability
  outer : WalkCacheability
  /-- 0b00 is non-shareable, 0b10 outer, 0b11 inner. -/
  shareability : Nat
  walksDisabled : Bool
deriving DecidableEq

structure Settings where
  lower : Region
  upper : Region
  asidFromUpper : Bool
  physicalSize : PhysicalSize
deriving DecidableEq

def Region.hasWidth (r : Region) : Bool :=
  25 ≤ r.width && r.width ≤ 48

/-- The word that settings make, each number cut down to its field. -/
def pack (s : Settings) : Value .tcrEl1 :=
  (⟨0⟩ : Value .tcrEl1)
    |>.write ips (BitVec.ofNat 64 s.physicalSize.code)
    |>.put a1 s.asidFromUpper
    |>.write t0sz (BitVec.ofNat 64 (64 - s.lower.width))
    |>.write tg0 s.lower.granule.lowerCode
    |>.write irgn0 (BitVec.ofNat 64 s.lower.inner.code)
    |>.write orgn0 (BitVec.ofNat 64 s.lower.outer.code)
    |>.write sh0 (BitVec.ofNat 64 s.lower.shareability)
    |>.put epd0 s.lower.walksDisabled
    |>.write t1sz (BitVec.ofNat 64 (64 - s.upper.width))
    |>.write tg1 s.upper.granule.upperCode
    |>.write irgn1 (BitVec.ofNat 64 s.upper.inner.code)
    |>.write orgn1 (BitVec.ofNat 64 s.upper.outer.code)
    |>.write sh1 (BitVec.ofNat 64 s.upper.shareability)
    |>.put epd1 s.upper.walksDisabled

/-- Refuses widths that no region has, and enters every number into its field. -/
def compose (s : Settings) : Except Halt (Value .tcrEl1) := do
  require s.lower.hasWidth .lowerWidth
  require s.upper.hasWidth .upperWidth
  let v ← (⟨0⟩ : Value .tcrEl1).enter? ips s.physicalSize.code
  let v ← (v.put a1 s.asidFromUpper).enter? t0sz (64 - s.lower.width)
  let v ← v.enter? tg0 s.lower.granule.lowerCode.toNat
  let v ← v.enter? irgn0 s.lower.inner.code
  let v ← v.enter? orgn0 s.lower.outer.code
  let v ← v.enter? sh0 s.lower.shareability
  let v ← (v.put epd0 s.lower.walksDisabled).enter? t1sz (64 - s.upper.width)
  let v ← v.enter? tg1 s.upper.granule.upperCode.toNat
  let v ← v.enter? irgn1 s.upper.inner.code
  let v ← v.enter? orgn1 s.upper.outer.code
  let v ← v.enter? sh1 s.upper.shareability
  return v.put epd1 s.upper.walksDisabled

def lowerWidth (v : Value .tcrEl1) : Nat :=
  64 - (v.read t0sz).toNat

def upperWidth (v : Value .tcrEl1) : Nat :=
  64 - (v.read t1sz).toNat

def lowerGranule (v : Value .tcrEl1) : Option Granule :=
  Granule.ofLowerCode? (v.read tg0)

def upperGranule (v : Value .tcrEl1) : Option Granule :=
  Granule.ofUpperCode? (v.read tg1)

end TcrEl1

namespace Ttbr

/-- Points at a first-level table, which must be page aligned and below 2^48. -/
def forTable (table : PhysAddr) : Except Halt (Value .ttbr) := do
  require (← table.isMultiple pageSize) .rootMisaligned
  require (table.word >>> 48 == 0) .rootTooWide
  let v ← ((⟨0⟩ : Value .ttbr).write asid 0).enter? baddr (table.word >>> 1).toNat
  return v.put cnp false

def table (v : Value .ttbr) : PhysAddr :=
  ⟨v.read baddr <<< 1⟩

end Ttbr

namespace MairEl1

def attributeAt (v : Value .mairEl1) (slot : Nat) : Except Halt (BitVec 8) := do
  require (slot < 8) .noSuchSlot
  return (v.word >>> (8 * slot)).setWidth 8

/-- Another byte in a slot that there is. -/
def replace (v : Value .mairEl1) (slot : Nat) (byte : BitVec 8) : Value .mairEl1 :=
  let shift := 8 * slot
  ⟨(v.word &&& ~~~((0xff : Word) <<< shift)) ||| (byte.setWidth 64 <<< shift)⟩

def withAttribute (v : Value .mairEl1) (slot : Nat) (byte : BitVec 8) :
    Except Halt (Value .mairEl1) := do
  require (slot < 8) .noSuchSlot
  return replace v slot byte

end MairEl1

namespace IdAa64Mmfr0El1

def has4k (v : Value .idAa64Mmfr0El1) : Bool :=
  v.read tgran4 == 0 || v.read tgran4 == 1

def has16k (v : Value .idAa64Mmfr0El1) : Bool :=
  v.read tgran16 != 0

def has64k (v : Value .idAa64Mmfr0El1) : Bool :=
  v.read tgran64 == 0

/-- The widest physical address, unless the encoding is reserved. -/
def physicalSize (v : Value .idAa64Mmfr0El1) : Option PhysicalSize :=
  (Coded.ofCode? PhysicalSize (v.read parange).toNat).toOption

end IdAa64Mmfr0El1
end ColdStart
