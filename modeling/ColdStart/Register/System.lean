import ColdStart.Privilege.Level
import ColdStart.Register.Layout

/-! The system registers of the core, each with the encoding by which an
instruction names it, whether it can be read and written at all, and the layout
of its contents. The virtual counter offset is a plain number without a layout;
the physical address register is read through one of two. -/
namespace ColdStart

/-- The five numbers by which an instruction names a system register. -/
structure Encoding where
  op0 : Nat
  op1 : Nat
  crn : Nat
  crm : Nat
  op2 : Nat
deriving DecidableEq

namespace Encoding

/-- The generic assembler name, such as `S3_0_C1_C0_0`. -/
def text (e : Encoding) : String :=
  "S" ++ toString e.op0 ++ "_" ++ toString e.op1 ++ "_C" ++ toString e.crn ++
    "_C" ++ toString e.crm ++ "_" ++ toString e.op2

end Encoding

inductive SystemRegister
  | cnthctlEl2
  | cntvoffEl2
  | currentEl
  | daif
  | hcrEl2
  | idAa64Mmfr0El1
  | mairEl1
  | mpidrEl1
  | parEl1
  | scrEl3
  | sctlrEl1
  | sctlrEl2
  | spsrEl1
  | spsrEl2
  | spsrEl3
  | tcrEl1
  | ttbr0El1
  | ttbr1El1
deriving DecidableEq

namespace SystemRegister

def all : List SystemRegister :=
  [cnthctlEl2, cntvoffEl2, currentEl, daif, hcrEl2, idAa64Mmfr0El1, mairEl1, mpidrEl1, parEl1,
    scrEl3, sctlrEl1, sctlrEl2, spsrEl1, spsrEl2, spsrEl3, tcrEl1, ttbr0El1, ttbr1El1]

def encoding : SystemRegister → Encoding
  | cnthctlEl2 => ⟨3, 4, 14, 1, 0⟩
  | cntvoffEl2 => ⟨3, 4, 14, 0, 3⟩
  | currentEl => ⟨3, 0, 4, 2, 2⟩
  | daif => ⟨3, 3, 4, 2, 1⟩
  | hcrEl2 => ⟨3, 4, 1, 1, 0⟩
  | idAa64Mmfr0El1 => ⟨3, 0, 0, 7, 0⟩
  | mairEl1 => ⟨3, 0, 10, 2, 0⟩
  | mpidrEl1 => ⟨3, 0, 0, 0, 5⟩
  | parEl1 => ⟨3, 0, 7, 4, 0⟩
  | scrEl3 => ⟨3, 6, 1, 1, 0⟩
  | sctlrEl1 => ⟨3, 0, 1, 0, 0⟩
  | sctlrEl2 => ⟨3, 4, 1, 0, 0⟩
  | spsrEl1 => ⟨3, 0, 4, 0, 0⟩
  | spsrEl2 => ⟨3, 4, 4, 0, 0⟩
  | spsrEl3 => ⟨3, 6, 4, 0, 0⟩
  | tcrEl1 => ⟨3, 0, 2, 0, 2⟩
  | ttbr0El1 => ⟨3, 0, 2, 0, 0⟩
  | ttbr1El1 => ⟨3, 0, 2, 0, 1⟩

def label : SystemRegister → String
  | cnthctlEl2 => "CnthctlEl2"
  | cntvoffEl2 => "CntvoffEl2"
  | currentEl => "CurrentEl"
  | daif => "Daif"
  | hcrEl2 => "HcrEl2"
  | idAa64Mmfr0El1 => "IdAa64Mmfr0El1"
  | mairEl1 => "MairEl1"
  | mpidrEl1 => "MpidrEl1"
  | parEl1 => "ParEl1"
  | scrEl3 => "ScrEl3"
  | sctlrEl1 => "SctlrEl1"
  | sctlrEl2 => "SctlrEl2"
  | spsrEl1 => "SpsrEl1"
  | spsrEl2 => "SpsrEl2"
  | spsrEl3 => "SpsrEl3"
  | tcrEl1 => "TcrEl1"
  | ttbr0El1 => "Ttbr0El1"
  | ttbr1El1 => "Ttbr1El1"

def ofLabel? (name : String) : Option SystemRegister :=
  all.find? fun r => r.label == name

/-- The library reads this register. -/
def isReadable : SystemRegister → Bool
  | cnthctlEl2 | cntvoffEl2 | spsrEl1 | spsrEl2 | spsrEl3 => false
  | _ => true

/-- The library writes this register. -/
def isWritable : SystemRegister → Bool
  | currentEl | idAa64Mmfr0El1 | mpidrEl1 | parEl1 => false
  | _ => true

/-- The saved status that an exception return from `level` restores. -/
def savedStatus : Level → Option SystemRegister
  | .el0 => none
  | .el1 => some spsrEl1
  | .el2 => some spsrEl2
  | .el3 => some spsrEl3

end SystemRegister
end ColdStart
