import ColdStart.Address.Physical

/-! Virtual addresses. An address is canonical when its sixteen high bits are all
clear (the lower region) or all set (the upper region). A physical address has
an alias in each region; the aliases keep every bit of an address wider than a
region, so they are canonical only for the addresses that a region can hold. -/
namespace ColdStart

structure VirtAddr where
  word : Word
deriving DecidableEq

/-- A word whose sixteen high bits are neither all clear nor all set. -/
structure NotCanonical where
  word : Word
deriving DecidableEq

namespace NotCanonical

def label : String := "InvalidVirtAddr"

def inspect (e : NotCanonical) : String :=
  Text.applied label (Text.hex e.word.toNat)

def message (e : NotCanonical) : String :=
  Text.hex e.word.toNat ++ " is not a canonical " ++ toString addressBits ++ "-bit virtual address"

end NotCanonical

namespace VirtAddr

/-- Accepts canonical words only. -/
def ofWord? (a : Word) : Except NotCanonical VirtAddr :=
  if a >>> addressBits = 0 ∨ a >>> addressBits = 0xffff then .ok ⟨a⟩ else .error ⟨a⟩

def Canonical (v : VirtAddr) : Prop :=
  v.word >>> addressBits = 0 ∨ v.word >>> addressBits = 0xffff

instance (v : VirtAddr) : Decidable v.Canonical :=
  inferInstanceAs (Decidable (_ ∨ _))

/-- The address lies in the upper region. -/
def isUpper (v : VirtAddr) : Bool :=
  v.word >>> addressBits == 0xffff

/-- The forty-eight bits that a region keeps of an address. -/
def regionOffset (v : VirtAddr) : Word :=
  (v.word.setWidth addressBits).setWidth 64

/-- The twelve bits below the page. -/
def pageOffset (v : VirtAddr) : Word :=
  (v.word.setWidth pageShift).setWidth 64

/-- Where the nine bits begin that index a table at `level`. -/
def indexShift (level : Nat) : Nat :=
  pageShift + (3 - level) * tableShift

/-- The entry of a table at `level` through which a walk for this address goes. -/
def index (v : VirtAddr) (level : Nat) : Except Halt (Fin entriesPerTable) :=
  if level ≤ 3 then
    .ok ⟨(v.word >>> indexShift level).toNat % entriesPerTable, Nat.mod_lt _ (by decide)⟩
  else
    .error .noSuchLevel

def inspect (v : VirtAddr) : String :=
  Text.applied "VirtAddr" (Text.hex v.word.toNat)

theorem ofWord?_eq_ok_iff {a : Word} {v : VirtAddr} :
    ofWord? a = .ok v ↔ v.word = a ∧ v.Canonical := by
  unfold ofWord? Canonical
  constructor
  · intro accepted
    split at accepted
    · cases accepted
      exact ⟨rfl, ‹_›⟩
    · cases accepted
  · rintro ⟨rfl, canonical⟩
    rw [if_pos canonical]

theorem regionOffset_toNat (v : VirtAddr) : v.regionOffset.toNat = v.word.toNat % 0x1000000000000 := by
  simp only [regionOffset, addressBits, BitVec.toNat_setWidth]
  omega

theorem pageOffset_toNat (v : VirtAddr) : v.pageOffset.toNat = v.word.toNat % 0x1000 := by
  simp only [pageOffset, pageShift, BitVec.toNat_setWidth]
  omega

theorem toNat_high (v : VirtAddr) :
    (v.word >>> addressBits).toNat = v.word.toNat / 0x1000000000000 := by
  rw [BitVec.toNat_ushiftRight, Nat.shiftRight_eq_div_pow]
  rfl

end VirtAddr

namespace PhysAddr

/-- The same address in the lower region. -/
def lowerAlias (a : PhysAddr) : VirtAddr :=
  ⟨a.word⟩

/-- The same address in the upper region. -/
def upperAlias (a : PhysAddr) : VirtAddr :=
  ⟨a.word ||| upperStart⟩

end PhysAddr
end ColdStart
