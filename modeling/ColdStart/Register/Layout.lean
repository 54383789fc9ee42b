import ColdStart.Halt
import ColdStart.Register.Field

/-! The layouts of registers and descriptors: which bits each field has, and
under which name it is printed. A `Value` is a word together with the layout by
which it is read; bits outside all fields are kept by every write. That the
fields of one layout are apart from one another is decided here for each of
them, once. -/
namespace ColdStart

inductive Layout
  | cnthctlEl2
  | currentEl
  | daif
  | hcrEl2
  | idAa64Mmfr0El1
  | mairEl1
  | mpidrEl1
  | scrEl3
  | sctlrEl1
  | sctlrEl2
  | spsr
  | tcrEl1
  | ttbr
  | leaf
  | link
  | mapped
  | faulted
deriving DecidableEq

/-! Access of EL0 and EL1 to the physical timer and counter. -/
namespace CnthctlEl2

def el1pcen : Field := ⟨"el1pcen", 1, 1⟩
def el1pcten : Field := ⟨"el1pcten", 0, 1⟩

end CnthctlEl2

/-! The level the core runs at. -/
namespace CurrentEl

def elRaw : Field := ⟨"el_raw", 2, 2⟩

end CurrentEl

/-! The interrupt masks: debug, SError, IRQ and FIQ. -/
namespace Daif

def d : Field := ⟨"d", 9, 1⟩
def a : Field := ⟨"a", 8, 1⟩
def i : Field := ⟨"i", 7, 1⟩
def f : Field := ⟨"f", 6, 1⟩

end Daif

/-! Hypervisor configuration. -/
namespace HcrEl2

def rw : Field := ⟨"rw", 31, 1⟩
def tge : Field := ⟨"tge", 27, 1⟩
def amo : Field := ⟨"amo", 5, 1⟩
def imo : Field := ⟨"imo", 4, 1⟩
def fmo : Field := ⟨"fmo", 3, 1⟩
def swio : Field := ⟨"swio", 1, 1⟩
def vm : Field := ⟨"vm", 0, 1⟩

end HcrEl2

/-! Memory model features: granules and physical address size. -/
namespace IdAa64Mmfr0El1

def tgran4 : Field := ⟨"tgran4", 28, 4⟩
def tgran64 : Field := ⟨"tgran64", 24, 4⟩
def tgran16 : Field := ⟨"tgran16", 20, 4⟩
def parange : Field := ⟨"parange", 0, 4⟩

end IdAa64Mmfr0El1

/-! Eight attribute bytes, one to a slot. -/
namespace MairEl1

def attr7 : Field := ⟨"attr7", 56, 8⟩
def attr6 : Field := ⟨"attr6", 48, 8⟩
def attr5 : Field := ⟨"attr5", 40, 8⟩
def attr4 : Field := ⟨"attr4", 32, 8⟩
def attr3 : Field := ⟨"attr3", 24, 8⟩
def attr2 : Field := ⟨"attr2", 16, 8⟩
def attr1 : Field := ⟨"attr1", 8, 8⟩
def attr0 : Field := ⟨"attr0", 0, 8⟩

end MairEl1

/-! Multiprocessor affinity. -/
namespace MpidrEl1

def aff3 : Field := ⟨"aff3", 32, 8⟩
def u : Field := ⟨"u", 30, 1⟩
def mt : Field := ⟨"mt", 24, 1⟩
def aff2 : Field := ⟨"aff2", 16, 8⟩
def aff1 : Field := ⟨"aff1", 8, 8⟩
def aff0 : Field := ⟨"aff0", 0, 8⟩

end MpidrEl1

/-! Secure configuration. -/
namespace ScrEl3

def rw : Field := ⟨"rw", 10, 1⟩
def sif : Field := ⟨"sif", 9, 1⟩
def hce : Field := ⟨"hce", 8, 1⟩
def smd : Field := ⟨"smd", 7, 1⟩
def res5 : Field := ⟨"res1_5", 5, 1⟩
def res4 : Field := ⟨"res1_4", 4, 1⟩
def ea : Field := ⟨"ea", 3, 1⟩
def fiq : Field := ⟨"fiq", 2, 1⟩
def irq : Field := ⟨"irq", 1, 1⟩
def ns : Field := ⟨"ns", 0, 1⟩

end ScrEl3

/-! System control of EL1 and EL0. -/
namespace SctlrEl1

def ee : Field := ⟨"ee", 25, 1⟩
def e0e : Field := ⟨"e0e", 24, 1⟩
def span : Field := ⟨"span", 23, 1⟩
def res22 : Field := ⟨"res1_22", 22, 1⟩
def wxn : Field := ⟨"wxn", 19, 1⟩
def ntwe : Field := ⟨"ntwe", 18, 1⟩
def ntwi : Field := ⟨"ntwi", 16, 1⟩
def i : Field := ⟨"i", 12, 1⟩
def res11 : Field := ⟨"res1_11", 11, 1⟩
def cp15ben : Field := ⟨"cp15ben", 5, 1⟩
def sa0 : Field := ⟨"sa0", 4, 1⟩
def sa : Field := ⟨"sa", 3, 1⟩
def c : Field := ⟨"c", 2, 1⟩
def a : Field := ⟨"a", 1, 1⟩
def m : Field := ⟨"m", 0, 1⟩

end SctlrEl1

/-! System control of EL2. -/
namespace SctlrEl2

def ee : Field := ⟨"ee", 25, 1⟩
def wxn : Field := ⟨"wxn", 19, 1⟩
def i : Field := ⟨"i", 12, 1⟩
def sa : Field := ⟨"sa", 3, 1⟩
def c : Field := ⟨"c", 2, 1⟩
def a : Field := ⟨"a", 1, 1⟩
def m : Field := ⟨"m", 0, 1⟩

end SctlrEl2

/-! Saved program status, one layout for all three levels that have one. -/
namespace Spsr

def d : Field := ⟨"d", 9, 1⟩
def a : Field := ⟨"a", 8, 1⟩
def i : Field := ⟨"i", 7, 1⟩
def f : Field := ⟨"f", 6, 1⟩
def nrw : Field := ⟨"nrw", 4, 1⟩
def modeRaw : Field := ⟨"mode_raw", 0, 4⟩

end Spsr

/-! Translation control, one set of fields for each region. -/
namespace TcrEl1

def ips : Field := ⟨"ips", 32, 3⟩
def tg1 : Field := ⟨"tg1", 30, 2⟩
def sh1 : Field := ⟨"sh1", 28, 2⟩
def orgn1 : Field := ⟨"orgn1", 26, 2⟩
def irgn1 : Field := ⟨"irgn1", 24, 2⟩
def epd1 : Field := ⟨"epd1", 23, 1⟩
def a1 : Field := ⟨"a1", 22, 1⟩
def t1sz : Field := ⟨"t1sz", 16, 6⟩
def tg0 : Field := ⟨"tg0", 14, 2⟩
def sh0 : Field := ⟨"sh0", 12, 2⟩
def orgn0 : Field := ⟨"orgn0", 10, 2⟩
def irgn0 : Field := ⟨"irgn0", 8, 2⟩
def epd0 : Field := ⟨"epd0", 7, 1⟩
def t0sz : Field := ⟨"t0sz", 0, 6⟩

end TcrEl1

/-! Translation table base, one layout for both regions. -/
namespace Ttbr

def asid : Field := ⟨"asid", 48, 16⟩
def baddr : Field := ⟨"baddr", 1, 47⟩
def cnp : Field := ⟨"cnp", 0, 1⟩

end Ttbr

/-! A descriptor that maps memory: a block, or a page of the last level. -/
namespace Leaf

def uxn : Field := ⟨"uxn", 54, 1⟩
def pxn : Field := ⟨"pxn", 53, 1⟩
def contiguous : Field := ⟨"contiguous", 52, 1⟩
def output : Field := ⟨"output", 12, 36⟩
def ng : Field := ⟨"ng", 11, 1⟩
def af : Field := ⟨"af", 10, 1⟩
def sh : Field := ⟨"sh", 8, 2⟩
def ap : Field := ⟨"ap", 6, 2⟩
def ns : Field := ⟨"ns", 5, 1⟩
def attrIndex : Field := ⟨"attr_index", 2, 3⟩
def page : Field := ⟨"page", 1, 1⟩
def valid : Field := ⟨"valid", 0, 1⟩

end Leaf

/-! A descriptor that points at the table of the next level. -/
namespace Link

def nsTable : Field := ⟨"ns_table", 63, 1⟩
def apTable : Field := ⟨"ap_table", 61, 2⟩
def uxnTable : Field := ⟨"uxn_table", 60, 1⟩
def pxnTable : Field := ⟨"pxn_table", 59, 1⟩
def next : Field := ⟨"next", 12, 36⟩
def table : Field := ⟨"table", 1, 1⟩
def valid : Field := ⟨"valid", 0, 1⟩

end Link

/-! The physical address register after a translation that succeeded. -/
namespace Mapped

def attr : Field := ⟨"attr", 56, 8⟩
def pa : Field := ⟨"pa", 12, 36⟩
def ns : Field := ⟨"ns", 9, 1⟩
def sh : Field := ⟨"sh", 7, 2⟩

end Mapped

/-! The physical address register after a translation that failed. -/
namespace Faulted

def s : Field := ⟨"s", 9, 1⟩
def ptw : Field := ⟨"ptw", 8, 1⟩
def fstRaw : Field := ⟨"fst_raw", 1, 6⟩

end Faulted

namespace Layout

def fields : Layout → List Field
  | cnthctlEl2 => [
      CnthctlEl2.el1pcen, CnthctlEl2.el1pcten]
  | currentEl => [
      CurrentEl.elRaw]
  | daif => [
      Daif.d, Daif.a, Daif.i, Daif.f]
  | hcrEl2 => [
      HcrEl2.rw, HcrEl2.tge, HcrEl2.amo, HcrEl2.imo, HcrEl2.fmo, HcrEl2.swio, HcrEl2.vm]
  | idAa64Mmfr0El1 => [
      IdAa64Mmfr0El1.tgran4, IdAa64Mmfr0El1.tgran64, IdAa64Mmfr0El1.tgran16,
      IdAa64Mmfr0El1.parange]
  | mairEl1 => [
      MairEl1.attr7, MairEl1.attr6, MairEl1.attr5, MairEl1.attr4, MairEl1.attr3, MairEl1.attr2,
      MairEl1.attr1, MairEl1.attr0]
  | mpidrEl1 => [
      MpidrEl1.aff3, MpidrEl1.u, MpidrEl1.mt, MpidrEl1.aff2, MpidrEl1.aff1, MpidrEl1.aff0]
  | scrEl3 => [
      ScrEl3.rw, ScrEl3.sif, ScrEl3.hce, ScrEl3.smd, ScrEl3.res5, ScrEl3.res4, ScrEl3.ea,
      ScrEl3.fiq, ScrEl3.irq, ScrEl3.ns]
  | sctlrEl1 => [
      SctlrEl1.ee, SctlrEl1.e0e, SctlrEl1.span, SctlrEl1.res22, SctlrEl1.wxn, SctlrEl1.ntwe,
      SctlrEl1.ntwi, SctlrEl1.i, SctlrEl1.res11, SctlrEl1.cp15ben, SctlrEl1.sa0, SctlrEl1.sa,
      SctlrEl1.c, SctlrEl1.a, SctlrEl1.m]
  | sctlrEl2 => [
      SctlrEl2.ee, SctlrEl2.wxn, SctlrEl2.i, SctlrEl2.sa, SctlrEl2.c, SctlrEl2.a, SctlrEl2.m]
  | spsr => [
      Spsr.d, Spsr.a, Spsr.i, Spsr.f, Spsr.nrw, Spsr.modeRaw]
  | tcrEl1 => [
      TcrEl1.ips, TcrEl1.tg1, TcrEl1.sh1, TcrEl1.orgn1, TcrEl1.irgn1, TcrEl1.epd1, TcrEl1.a1,
      TcrEl1.t1sz, TcrEl1.tg0, TcrEl1.sh0, TcrEl1.orgn0, TcrEl1.irgn0, TcrEl1.epd0, TcrEl1.t0sz]
  | ttbr => [
      Ttbr.asid, Ttbr.baddr, Ttbr.cnp]
  | leaf => [
      Leaf.uxn, Leaf.pxn, Leaf.contiguous, Leaf.output, Leaf.ng, Leaf.af, Leaf.sh, Leaf.ap,
      Leaf.ns, Leaf.attrIndex, Leaf.page, Leaf.valid]
  | link => [
      Link.nsTable, Link.apTable, Link.uxnTable, Link.pxnTable, Link.next, Link.table, Link.valid]
  | mapped => [
      Mapped.attr, Mapped.pa, Mapped.ns, Mapped.sh]
  | faulted => [
      Faulted.s, Faulted.ptw, Faulted.fstRaw]

/-- The fields can be set; the other layouts only report. -/
def isWritable : Layout → Bool
  | currentEl | idAa64Mmfr0El1 | mpidrEl1 | mapped | faulted => false
  | _ => true

def field? (l : Layout) (name : String) : Option Field :=
  l.fields.find? fun f => f.name == name

/-- Every field lies within the word and is apart from the fields after it. -/
theorem fields_apart (l : Layout) :
    (∀ f ∈ l.fields, f.low + f.width ≤ 64) ∧ l.fields.Pairwise Field.Apart := by
  cases l <;> decide

end Layout

/-- A word read by a layout. -/
structure Value (l : Layout) where
  word : Word
deriving DecidableEq

namespace Value
variable {l : Layout}

def read (v : Value l) (f : Field) : Word :=
  f.read v.word

def test (v : Value l) (f : Field) : Bool :=
  f.test v.word

def write (v : Value l) (f : Field) (w : Word) : Value l :=
  ⟨f.write v.word w⟩

def put (v : Value l) (f : Field) (b : Bool) : Value l :=
  ⟨f.put v.word b⟩

/-- Writes a number. One that the field has no room for halts. -/
def enter? (v : Value l) (f : Field) (n : Nat) : Except Halt (Value l) := do
  require (f.Admits n) .fieldOverflow
  return v.write f (BitVec.ofNat 64 n)

/-- A bit that no field of the layout has. -/
def Undeclared (l : Layout) (bit : Nat) : Prop :=
  ∀ f ∈ l.fields, ¬ f.Holds bit

variable {v : Value l} {f : Field} {bit : Nat}

theorem enter?_ok {n : Nat} (room : f.Admits n) :
    v.enter? f n = .ok (v.write f (BitVec.ofNat 64 n)) := by
  rw [enter?, decide_eq_true room]
  rfl

/-- A word that is cut down to the field first always goes in. -/
theorem enter?_and_greatest (v : Value l) (f : Field) (w : Word) :
    v.enter? f (w &&& f.greatest).toNat = .ok (v.write f w) := by
  rw [enter?_ok (f.admits_and_greatest w), BitVec.ofNat_toNat, BitVec.setWidth_eq, write,
    Field.write_and_greatest, write]

/-- A number that is entered guards all that follows. -/
theorem enter?_bind_eq_ok_iff {α : Type} {n : Nat} {next : Value l → Except Halt α} {a : α} :
    (v.enter? f n >>= next) = .ok a ↔
      f.Admits n ∧ next (v.write f (BitVec.ofNat 64 n)) = .ok a := by
  by_cases room : f.Admits n
  · rw [enter?_ok room]
    exact (and_iff_right room).symm
  · rw [enter?, decide_eq_false room]
    exact iff_of_false (fun answer => nomatch answer) fun both => room both.1

theorem getLsbD_write_undeclared (listed : f ∈ l.fields) (undeclared : Undeclared l bit)
    (inside : bit < 64) (w : Word) : (v.write f w).word.getLsbD bit = v.word.getLsbD bit := by
  rw [write, Field.getLsbD_write f _ _ inside, if_neg (undeclared f listed)]

theorem getLsbD_put_undeclared (listed : f ∈ l.fields) (undeclared : Undeclared l bit)
    (inside : bit < 64) (b : Bool) : (v.put f b).word.getLsbD bit = v.word.getLsbD bit :=
  getLsbD_write_undeclared listed undeclared inside _

end Value
end ColdStart
