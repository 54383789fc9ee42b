/-! The machine word and the sizes of the translation scheme: a 4 KiB granule, 512
entries to a table, so that one entry of the third table level maps a 2 MiB section.
The low window, two sections from physical address zero, is all that is ever mapped. -/
namespace ColdStart

/-- Sixty-four bits, as registers and memory hold them. -/
abbrev Word := BitVec 64

/-- How many words there are. -/
def Word.count : Nat := 0x10000000000000000

/-- Binary logarithm of the page size. -/
def pageShift : Nat := 12

/-- Binary logarithm of the number of entries in a table. -/
def tableShift : Nat := 9

def sectionShift : Nat := pageShift + tableShift

def pageSize : Word := 0x1000

def sectionSize : Word := 0x200000

def entriesPerTable : Nat := 512

/-- Size of the identity-mapped window that starts at address zero. -/
def windowSize : Word := 0x400000

/-- Sections in the window. -/
def sectionCount : Nat := 2

/-- Width of an address within one of the two regions. -/
def addressBits : Nat := 48

/-- Start of the upper region. -/
def upperStart : Word := 0xffff000000000000

/-- The most regions a partition may have. -/
def maxRegions : Nat := 8

theorem toNat_pageSize : pageSize.toNat = 0x1000 := rfl

theorem toNat_sectionSize : sectionSize.toNat = 0x200000 := rfl

theorem toNat_windowSize : windowSize.toNat = 0x400000 := rfl

end ColdStart
