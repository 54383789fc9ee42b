import ColdStart.Address.Physical
import ColdStart.Coded
import ColdStart.Register.Layout

/-! The physical address register, which holds what a translation instruction
found. Bit zero says whether it failed, and the rest is laid out differently for
the two outcomes, so the register is read through one of two layouts. -/
namespace ColdStart

/-- Why a translation failed. -/
inductive FaultStatus
  | addressSizeLevel0
  | addressSizeLevel1
  | addressSizeLevel2
  | addressSizeLevel3
  | translationLevel0
  | translationLevel1
  | translationLevel2
  | translationLevel3
  | accessFlagLevel1
  | accessFlagLevel2
  | accessFlagLevel3
  | permissionLevel1
  | permissionLevel2
  | permissionLevel3
  | externalAbort
  | externalAbortOnWalkLevel0
  | externalAbortOnWalkLevel1
  | externalAbortOnWalkLevel2
  | externalAbortOnWalkLevel3
  | alignment
  | tlbConflict
deriving DecidableEq

namespace FaultStatus

def code : FaultStatus → Nat
  | addressSizeLevel0 => 0b000000
  | addressSizeLevel1 => 0b000001
  | addressSizeLevel2 => 0b000010
  | addressSizeLevel3 => 0b000011
  | translationLevel0 => 0b000100
  | translationLevel1 => 0b000101
  | translationLevel2 => 0b000110
  | translationLevel3 => 0b000111
  | accessFlagLevel1 => 0b001001
  | accessFlagLevel2 => 0b001010
  | accessFlagLevel3 => 0b001011
  | permissionLevel1 => 0b001101
  | permissionLevel2 => 0b001110
  | permissionLevel3 => 0b001111
  | externalAbort => 0b010000
  | externalAbortOnWalkLevel0 => 0b010100
  | externalAbortOnWalkLevel1 => 0b010101
  | externalAbortOnWalkLevel2 => 0b010110
  | externalAbortOnWalkLevel3 => 0b010111
  | alignment => 0b100001
  | tlbConflict => 0b110000

def label : FaultStatus → String
  | addressSizeLevel0 => "AddressSizeLevel0"
  | addressSizeLevel1 => "AddressSizeLevel1"
  | addressSizeLevel2 => "AddressSizeLevel2"
  | addressSizeLevel3 => "AddressSizeLevel3"
  | translationLevel0 => "TranslationLevel0"
  | translationLevel1 => "TranslationLevel1"
  | translationLevel2 => "TranslationLevel2"
  | translationLevel3 => "TranslationLevel3"
  | accessFlagLevel1 => "AccessFlagLevel1"
  | accessFlagLevel2 => "AccessFlagLevel2"
  | accessFlagLevel3 => "AccessFlagLevel3"
  | permissionLevel1 => "PermissionLevel1"
  | permissionLevel2 => "PermissionLevel2"
  | permissionLevel3 => "PermissionLevel3"
  | externalAbort => "SyncExternalAbort"
  | externalAbortOnWalkLevel0 => "SyncExternalAbortOnWalkLevel0"
  | externalAbortOnWalkLevel1 => "SyncExternalAbortOnWalkLevel1"
  | externalAbortOnWalkLevel2 => "SyncExternalAbortOnWalkLevel2"
  | externalAbortOnWalkLevel3 => "SyncExternalAbortOnWalkLevel3"
  | alignment => "Alignment"
  | tlbConflict => "TlbConflict"

instance : Coded FaultStatus where
  kind := "FaultStatus"
  all := [addressSizeLevel0, addressSizeLevel1, addressSizeLevel2, addressSizeLevel3,
    translationLevel0, translationLevel1, translationLevel2, translationLevel3,
    accessFlagLevel1, accessFlagLevel2, accessFlagLevel3,
    permissionLevel1, permissionLevel2, permissionLevel3, externalAbort,
    externalAbortOnWalkLevel0, externalAbortOnWalkLevel1, externalAbortOnWalkLevel2,
    externalAbortOnWalkLevel3, alignment, tlbConflict]
  code := code
  label := label

instance : LawfulCoded FaultStatus where
  mem_all s := by cases s <;> decide
  code_injective {a b} same := by cases a <;> cases b <;> first | rfl | cases same

end FaultStatus

/-- What a translation instruction found. -/
inductive Translated
  | mapped (view : Value .mapped)
  | faulted (view : Value .faulted)

namespace Mapped

/-- The physical address of `va`, which gives the bits below the page. -/
def output (v : Value .mapped) (va : Word) : PhysAddr :=
  ⟨(v.read pa <<< pageShift) ||| (va &&& 0xfff)⟩

end Mapped

namespace Faulted

/-- The status, or its code where that is not a known one. -/
def status (v : Value .faulted) : Except Nat FaultStatus :=
  let raw := (v.read fstRaw).toNat
  match Coded.ofCode? FaultStatus raw with
  | .ok s => .ok s
  | .error _ => .error raw

end Faulted

namespace Translated

/-- The outcome a raw register holds. -/
def ofWord (w : Word) : Translated :=
  if w.getLsbD 0 then .faulted ⟨w⟩ else .mapped ⟨w⟩

def output (t : Translated) (va : Word) : Option PhysAddr :=
  match t with
  | mapped view => some (Mapped.output view va)
  | faulted _ => none

end Translated
end ColdStart
