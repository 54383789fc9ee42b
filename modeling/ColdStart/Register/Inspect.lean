import ColdStart.Register.Lookup
import ColdStart.Register.Paging
import ColdStart.Register.Status
import ColdStart.Register.System
import ColdStart.Text

/-! The printed form of a register. Each layout names the fields worth reading in
the architecture's spelling: flags as one digit, numbers in decimal, encodings in
binary and bytes in hexadecimal with as many digits as the field has room for,
addresses and decoded modes by their own printed form. Reserved and unnamed bits
are not printed. -/
namespace ColdStart

namespace Value
variable {l : Layout}

private def flags (v : Value l) (fields : List (String × Field)) : List (String × String) :=
  fields.map fun f => (f.1, Text.bit (v.test f.2))

private def decimal (v : Value l) (f : Field) : String :=
  toString (v.read f).toNat

/-- One binary digit for each bit of the field. -/
private def binary (v : Value l) (f : Field) : String :=
  Text.binFilled f.width (v.read f).toNat

/-- One hexadecimal digit for each four bits of the field. -/
private def hexadecimal (v : Value l) (f : Field) : String :=
  Text.hexFilled (f.width / 4) (v.read f).toNat

def inspect : {l : Layout} → Value l → String
  | .cnthctlEl2, v => Text.register "CNTHCTL_EL2"
      (v.flags [("EL1PCEN", CnthctlEl2.el1pcen), ("EL1PCTEN", CnthctlEl2.el1pcten)])
  | .currentEl, v => Text.braced "CurrentEL" (CurrentEl.level v).display
  | .daif, v => Text.register "DAIF"
      (v.flags [("D", Daif.d), ("A", Daif.a), ("I", Daif.i), ("F", Daif.f)])
  | .hcrEl2, v => Text.register "HCR_EL2"
      (v.flags [("RW", HcrEl2.rw), ("TGE", HcrEl2.tge), ("AMO", HcrEl2.amo), ("IMO", HcrEl2.imo),
        ("FMO", HcrEl2.fmo), ("SWIO", HcrEl2.swio), ("VM", HcrEl2.vm)])
  | .idAa64Mmfr0El1, v => Text.register "ID_AA64MMFR0_EL1"
      [("TGran4", v.binary IdAa64Mmfr0El1.tgran4), ("TGran64", v.binary IdAa64Mmfr0El1.tgran64),
        ("TGran16", v.binary IdAa64Mmfr0El1.tgran16), ("PARange", v.binary IdAa64Mmfr0El1.parange)]
  | .mairEl1, v => Text.braced "MAIR_EL1"
      (" ".intercalate (Layout.mairEl1.fields.reverse.map v.hexadecimal))
  | .mpidrEl1, v => Text.register "MPIDR_EL1"
      ([("Aff3", v.decimal MpidrEl1.aff3), ("Aff2", v.decimal MpidrEl1.aff2),
        ("Aff1", v.decimal MpidrEl1.aff1), ("Aff0", v.decimal MpidrEl1.aff0)] ++
        v.flags [("U", MpidrEl1.u), ("MT", MpidrEl1.mt)])
  | .scrEl3, v => Text.register "SCR_EL3"
      (v.flags [("RW", ScrEl3.rw), ("SIF", ScrEl3.sif), ("HCE", ScrEl3.hce), ("SMD", ScrEl3.smd),
        ("EA", ScrEl3.ea), ("FIQ", ScrEl3.fiq), ("IRQ", ScrEl3.irq), ("NS", ScrEl3.ns)])
  | .sctlrEl1, v => Text.register "SCTLR_EL1"
      (v.flags [("EE", SctlrEl1.ee), ("E0E", SctlrEl1.e0e), ("SPAN", SctlrEl1.span),
        ("WXN", SctlrEl1.wxn), ("nTWE", SctlrEl1.ntwe), ("nTWI", SctlrEl1.ntwi),
        ("I", SctlrEl1.i), ("CP15BEN", SctlrEl1.cp15ben), ("SA0", SctlrEl1.sa0),
        ("SA", SctlrEl1.sa), ("C", SctlrEl1.c), ("A", SctlrEl1.a), ("M", SctlrEl1.m)])
  | .sctlrEl2, v => Text.register "SCTLR_EL2"
      (v.flags [("EE", SctlrEl2.ee), ("WXN", SctlrEl2.wxn), ("I", SctlrEl2.i),
        ("SA", SctlrEl2.sa), ("C", SctlrEl2.c), ("A", SctlrEl2.a), ("M", SctlrEl2.m)])
  | .spsr, v => Text.register "SPSR"
      (v.flags [("D", Spsr.d), ("A", Spsr.a), ("I", Spsr.i), ("F", Spsr.f), ("nRW", Spsr.nrw)] ++
        [("M", Text.answered Mode.label (Spsr.mode v))])
  | .tcrEl1, v => Text.register "TCR_EL1"
      [("IPS", v.binary TcrEl1.ips),
        ("TG1", Text.optional Granule.label (TcrEl1.upperGranule v)),
        ("T1SZ", v.decimal TcrEl1.t1sz), ("EPD1", Text.bit (v.test TcrEl1.epd1)),
        ("TG0", Text.optional Granule.label (TcrEl1.lowerGranule v)),
        ("T0SZ", v.decimal TcrEl1.t0sz), ("EPD0", Text.bit (v.test TcrEl1.epd0))]
  | .ttbr, v => Text.register "TTBR"
      [("ASID", v.hexadecimal Ttbr.asid), ("BADDR", (Ttbr.table v).inspect),
        ("CnP", Text.bit (v.test Ttbr.cnp))]
  | .leaf, v => Text.register (if v.test Leaf.page then "PAGE" else "BLOCK")
      ([("OA", Text.hex (v.read Leaf.output <<< pageShift).toNat),
        ("AttrIndx", v.decimal Leaf.attrIndex), ("AP", v.binary Leaf.ap), ("SH", v.binary Leaf.sh)] ++
        v.flags [("AF", Leaf.af), ("PXN", Leaf.pxn), ("UXN", Leaf.uxn)])
  | .link, v => Text.register "TABLE"
      [("NEXT", Text.hex (v.read Link.next <<< pageShift).toNat),
        ("NS", Text.bit (v.test Link.nsTable)), ("AP", v.binary Link.apTable),
        ("UXN", Text.bit (v.test Link.uxnTable)), ("PXN", Text.bit (v.test Link.pxnTable))]
  | .mapped, v => Text.register "PAR_EL1"
      [("PA", Text.hex (v.read Mapped.pa <<< pageShift).toNat), ("ATTR", v.hexadecimal Mapped.attr),
        ("NS", Text.bit (v.test Mapped.ns)), ("SH", v.binary Mapped.sh)]
  | .faulted, v => Text.register "PAR_EL1"
      ([("F", "1")] ++ v.flags [("S", Faulted.s), ("PTW", Faulted.ptw)] ++
        [("FST", Text.answered FaultStatus.label (Faulted.status v))])

end Value

def Translated.inspect : Translated → String
  | .mapped view => view.inspect
  | .faulted view => view.inspect

/-- The printed form of what a system register holds. -/
def SystemRegister.inspect (r : SystemRegister) (w : Word) : String :=
  match r with
  | cnthctlEl2 => (⟨w⟩ : Value .cnthctlEl2).inspect
  | cntvoffEl2 => toString w.toNat
  | currentEl => (⟨w⟩ : Value .currentEl).inspect
  | daif => (⟨w⟩ : Value .daif).inspect
  | hcrEl2 => (⟨w⟩ : Value .hcrEl2).inspect
  | idAa64Mmfr0El1 => (⟨w⟩ : Value .idAa64Mmfr0El1).inspect
  | mairEl1 => (⟨w⟩ : Value .mairEl1).inspect
  | mpidrEl1 => (⟨w⟩ : Value .mpidrEl1).inspect
  | parEl1 => (Translated.ofWord w).inspect
  | scrEl3 => (⟨w⟩ : Value .scrEl3).inspect
  | sctlrEl1 => (⟨w⟩ : Value .sctlrEl1).inspect
  | sctlrEl2 => (⟨w⟩ : Value .sctlrEl2).inspect
  | spsrEl1 | spsrEl2 | spsrEl3 => (⟨w⟩ : Value .spsr).inspect
  | tcrEl1 => (⟨w⟩ : Value .tcrEl1).inspect
  | ttbr0El1 | ttbr1El1 => (⟨w⟩ : Value .ttbr).inspect

end ColdStart
