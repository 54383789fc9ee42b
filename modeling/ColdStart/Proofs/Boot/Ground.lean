import ColdStart.Proofs.Boot.Outcome
import ColdStart.Proofs.Translation.Identity

/-! The ground under the running code. When a boot has gone through, the core
fetches and stores through the tables that were built, so it goes on only if these
map what it stands on. What admission found out about image, stack and tables is
what the partition says at each of their bytes, and this is what a walk from the
base registers finds there. -/
namespace ColdStart

namespace ModelCore

/-- The table at which the walker begins for an address: each region has its own base
register. -/
def root (m : ModelCore) (va : VirtAddr) : PhysAddr :=
  if va.isUpper then Ttbr.table ⟨m.registers.read .ttbr1El1⟩
  else Ttbr.table ⟨m.registers.read .ttbr0El1⟩

/-- What the core's own registers and tables make of an address. -/
def translate (m : ModelCore) (va : VirtAddr) : Except Halt Walk :=
  m.tables.walk (m.root va) va

end ModelCore

/-- The lower or the upper alias of a byte. -/
def Aliases (a : Word) (va : VirtAddr) : Prop :=
  va = (PhysAddr.mk a).lowerAlias ∨ va = (PhysAddr.mk a).upperAlias

/-- Code can go on running on the core where the placement put it. -/
structure Ground (p : Placement) (m : ModelCore) : Prop where
  translating : (⟨m.registers.read .sctlrEl1⟩ : Value .sctlrEl1).test SctlrEl1.m = true
  lowerRoot : Ttbr.table ⟨m.registers.read .ttbr0El1⟩ = p.tables
  upperRoot : Ttbr.table ⟨m.registers.read .ttbr1El1⟩ = p.tables
  widths : TcrEl1.lowerWidth ⟨m.registers.read .tcrEl1⟩ = 48 ∧
    TcrEl1.upperWidth ⟨m.registers.read .tcrEl1⟩ = 48
  granules : TcrEl1.lowerGranule ⟨m.registers.read .tcrEl1⟩ = some .kb4 ∧
    TcrEl1.upperGranule ⟨m.registers.read .tcrEl1⟩ = some .kb4
  /-- Image, stack and the tables themselves are where they were. -/
  mapped : ∀ a, p.image.Holds a ∨ p.stack.Holds a ∨ Partition.InSpan p.tables.word areaSize a →
    ∀ va, Aliases a va → ∃ leaf level, m.translate va = .ok (.mapped ⟨a⟩ leaf level)
  /-- Image and stack are normal memory of EL1, read and written without a fault. -/
  usable : ∀ a, p.image.Holds a ∨ p.stack.Holds a → ∀ va, Aliases a va → ∀ pa leaf level,
    m.translate va = .ok (.mapped pa leaf level) →
      leaf.read Leaf.ap = 0 ∧ leaf.test Leaf.af = true ∧
      MairEl1.attributeAt ⟨m.registers.read .mairEl1⟩ (leaf.read Leaf.attrIndex).toNat = .ok 0x44
  executable : ∀ a, p.image.Holds a → ∀ va, Aliases a va → ∀ pa leaf level,
    m.translate va = .ok (.mapped pa leaf level) → leaf.test Leaf.pxn = false
  nothingElse : ∀ va : VirtAddr, va.Canonical → windowSize ≤ va.regionOffset →
    ∃ level, m.translate va = .ok (.fault level)

theorem Aliases.regionOffset {a : Word} {va : VirtAddr} (named : Aliases a va)
    (inside : a < windowSize) : va.regionOffset = a := by
  have below : a.toNat < 0x1000000000000 := Nat.lt_trans (BitVec.lt_def.mp inside) (by decide)
  rcases named with rfl | rfl
  · exact VirtAddr.regionOffset_lowerAlias below
  · exact VirtAddr.regionOffset_upperAlias below

section
variable {p : Placement} {m m' : ModelCore} {booted : Booted}

theorem admissible_of_booted (ran : (boot p).on m = (.ok (.ok booted), m')) :
    Activation.Admissible m.features p ∧ ∃ d, m' = m.after (bootEvents d p) := by
  rcases boot_on p m with ⟨e, refused⟩ | ⟨d, tally, _, ok, through⟩
  · rw [refused] at ran
    nomatch ran
  · rw [through] at ran
    exact ⟨ok, d, (Prod.ext_iff.mp ran).2.symm⟩

variable {features : Value .idAa64Mmfr0El1} (ok : Activation.Admissible features p) (m : ModelCore)
  (d : Descent)
include ok

theorem pointed_booted : Ttbr.table (Ttbr.pointing p.tables) = p.tables := by
  have room := ok.room
  have area := toNat_areaSize
  exact Ttbr.table_pointing ok.aligned (by omega)

theorem lowerRoot_booted :
    Ttbr.table ⟨(m.after (bootEvents d p)).registers.read .ttbr0El1⟩ = p.tables := by
  have written : (m.after (bootEvents d p)).registers.read .ttbr0El1 =
      (Ttbr.pointing p.tables).word := read_booted rfl
  rw [written]
  exact pointed_booted ok

theorem upperRoot_booted :
    Ttbr.table ⟨(m.after (bootEvents d p)).registers.read .ttbr1El1⟩ = p.tables := by
  have written : (m.after (bootEvents d p)).registers.read .ttbr1El1 =
      (Ttbr.pointing p.tables).word := read_booted rfl
  rw [written]
  exact pointed_booted ok

theorem root_booted (va : VirtAddr) : (m.after (bootEvents d p)).root va = p.tables := by
  rw [ModelCore.root, lowerRoot_booted ok, upperRoot_booted ok, ite_id]

theorem holds_booted : Build.Holds p.partition p.tables (m.after (bootEvents d p)).tables := by
  rw [tables_booted]
  exact Build.get_build ok.aligned (Nat.le_trans ok.room (by decide)) _

/-- An address of the window is found through both aliases, with the kind it has in
the partition. -/
theorem translate_inside {a : Word} (inside : a < windowSize) {va : VirtAddr}
    (named : Aliases a va) : ∃ leaf start level,
      Leaf.Describes leaf start (p.partition.kindAt a) ∧
      (m.after (bootEvents d p)).translate va = .ok (.mapped ⟨a⟩ leaf level) := by
  have offset := named.regionOffset inside
  have below : va.regionOffset < windowSize := by rwa [offset]
  obtain ⟨leaf, start, described, mapped⟩ :=
    Build.walk_inside ok.aligned ok.room (holds_booted ok m d) va below
  rw [offset] at described mapped
  exact ⟨leaf, start, _, described, by rw [ModelCore.translate, root_booted ok, mapped]⟩

theorem translate_outside {va : VirtAddr} (outside : windowSize ≤ va.regionOffset) :
    ∃ level, (m.after (bootEvents d p)).translate va = .ok (.fault level) := by
  rw [ModelCore.translate, root_booted ok]
  exact ⟨_, Build.walk_above ok.aligned ok.room (holds_booted ok m d) va outside⟩

/-- What is met at a byte of normal memory is a leaf of normal memory. -/
theorem translate_normal {s : Span} (normal : p.partition.Normal s) {a : Word} (held : s.Holds a)
    {va : VirtAddr} (named : Aliases a va) :
    ∃ leaf start level, Leaf.Describes leaf start .normalNonCacheable ∧
      (m.after (bootEvents d p)).translate va = .ok (.mapped ⟨a⟩ leaf level) := by
  have kind := normal.2 a held
  have inside : a < windowSize := Partition.lt_of_kindAt_ne (by rw [kind]; decide)
  obtain ⟨leaf, start, level, described, mapped⟩ := translate_inside ok m d inside named
  rw [kind] at described
  exact ⟨leaf, start, level, described, mapped⟩

end

/-- A boot that goes through leaves the ground under image, stack and tables. -/
theorem boot_ground (p : Placement) (m after : ModelCore) (booted : Booted)
    (ran : (boot p).on m = (.ok (.ok booted), after)) : Ground p after := by
  obtain ⟨ok, d, rfl⟩ := admissible_of_booted ran
  have control : (m.after (bootEvents d p)).registers.read .sctlrEl1 =
      (Activation.enabled Profile.sctlrOff).word := read_booted rfl
  have regions : (m.after (bootEvents d p)).registers.read .tcrEl1 = Profile.tcr.word :=
    read_booted rfl
  have attributes : (m.after (bootEvents d p)).registers.read .mairEl1 = Profile.mair.word :=
    read_booted rfl
  -- Whatever is met at a byte of image or stack is the leaf that was found there.
  have met (a : Word) (held : p.image.Holds a ∨ p.stack.Holds a) (va : VirtAddr)
      (named : Aliases a va) : ∃ leaf start level,
        Leaf.Describes leaf start .normalNonCacheable ∧
        (m.after (bootEvents d p)).translate va = .ok (.mapped ⟨a⟩ leaf level) := by
    rcases held with image | stack
    · exact translate_normal ok m d ok.image image named
    · exact translate_normal ok m d ok.stack stack named
  constructor
  case translating =>
    rw [control]
    rfl
  case lowerRoot => exact lowerRoot_booted ok m d
  case upperRoot => exact upperRoot_booted ok m d
  case widths =>
    rw [regions]
    decide
  case granules =>
    rw [regions]
    decide
  case mapped =>
    intro a held va named
    rcases held with image | stack | table
    · obtain ⟨leaf, _, level, _, mapped⟩ := met a (Or.inl image) va named
      exact ⟨leaf, level, mapped⟩
    · obtain ⟨leaf, _, level, _, mapped⟩ := met a (Or.inr stack) va named
      exact ⟨leaf, level, mapped⟩
    · have inside : a < windowSize := BitVec.lt_def.mpr (Nat.lt_of_lt_of_le table.2 ok.inside)
      obtain ⟨leaf, _, level, _, mapped⟩ := translate_inside ok m d inside named
      exact ⟨leaf, level, mapped⟩
  case usable =>
    intro a held va named pa leaf level walked
    obtain ⟨found, _, _, described, mapped⟩ := met a held va named
    rw [mapped] at walked
    cases walked
    rw [attributes, described.slot]
    exact ⟨described.access, described.accessed, rfl⟩
  case executable =>
    intro a held va named pa leaf level walked
    obtain ⟨found, _, _, described, mapped⟩ := met a (Or.inl held) va named
    rw [mapped] at walked
    cases walked
    exact described.privileged
  case nothingElse =>
    intro va _ outside
    exact translate_outside ok m d outside

/-- The boot map with the tables above the image and the stack below it. -/
theorem boot_ground_standard : ∃ booted after,
    (boot ⟨.standard, ⟨0x100000⟩, ⟨0x80000, 0x90000⟩, ⟨0x70000, 0x80000⟩⟩).on
      (ModelCore.initial .el2 ⟨0⟩ ⟨0⟩) = (.ok (.ok booted), after) ∧
    Ground ⟨.standard, ⟨0x100000⟩, ⟨0x80000, 0x90000⟩, ⟨0x70000, 0x80000⟩⟩ after := by
  obtain ⟨verdict, ended, admits⟩ := Activation.forPlacement?_spec ⟨0⟩
    ⟨.standard, ⟨0x100000⟩, ⟨0x80000, 0x90000⟩, ⟨0x70000, 0x80000⟩⟩
  have admitted : verdict = .ok (Activation.rooted ⟨0x100000⟩) := Except.ok.inj (ended.symm.trans rfl)
  obtain ⟨ok, _⟩ := (admits _).mp admitted
  obtain ⟨d, tally, _, _, ran⟩ := boot_of_admissible (m := ModelCore.initial .el2 ⟨0⟩ ⟨0⟩) (by decide) ok
  exact ⟨_, _, ran, boot_ground _ _ _ _ ran⟩

/-- A boot that goes through has written no byte of the image. That holds of the image
alone: any stack of normal memory, in the table area or out of it, gives the same boot. -/
theorem boot_clear_of_image (p : Placement) (m after : ModelCore) (booted : Booted)
    (ran : (boot p).on m = (.ok (.ok booted), after)) :
    (∀ a, Partition.InSpan p.tables.word areaSize a → ¬ p.image.Holds a) ∧
    ∀ stack, p.partition.Normal stack →
      (boot { p with stack := stack }).on m = (.ok (.ok booted), after) := by
  obtain ⟨ok, _⟩ := admissible_of_booted ran
  constructor
  · rintro a ⟨low, high⟩ ⟨start, stop⟩
    have start := BitVec.le_def.mp start
    have stop := BitVec.lt_def.mp stop
    rcases ok.clear with before | behind <;> omega
  · intro stack normal
    have above : m.level ≠ .el0 := by
      intro level
      rw [boot_of_el0 level] at ran
      nomatch ran
    have moved : Activation.Admissible m.features { p with stack := stack } :=
      { ok with stack := normal }
    obtain ⟨d, tally, planned, built, through⟩ := boot_of_admissible above ok
    obtain ⟨d', tally', planned', built', through'⟩ := boot_of_admissible above moved
    -- Descent and build are planned without a look at the stack.
    cases planned.symm.trans planned'
    cases built.symm.trans built'
    rw [through', ← ran, through]
    rfl

theorem boot_clear_of_image_standard : ∃ booted after,
    (boot ⟨.standard, ⟨0x100000⟩, ⟨0x80000, 0x90000⟩, ⟨0x70000, 0x80000⟩⟩).on
      (ModelCore.initial .el3 ⟨0⟩ ⟨0⟩) = (.ok (.ok booted), after) ∧
    ∀ a, Partition.InSpan 0x100000 areaSize a → ¬ (Span.mk 0x80000 0x90000).Holds a := by
  obtain ⟨d, tally, _, _, ran⟩ := boot_of_admissible (m := ModelCore.initial .el3 ⟨0⟩ ⟨0⟩)
    (by decide) Activation.admissible_standard
  exact ⟨_, _, ran, (boot_clear_of_image _ _ _ _ ran).1⟩

/-- With the stack in the last table of the area the boot goes through all the same. -/
theorem boot_over_stack : ∃ booted after,
    (boot ⟨.standard, ⟨0x100000⟩, ⟨0x80000, 0xa0000⟩, ⟨0x104000, 0x105000⟩⟩).on
      (ModelCore.initial .el1 ⟨0x1122⟩ ⟨0x30d01806⟩) = (.ok (.ok booted), after) ∧
    ∃ a, Partition.InSpan 0x100000 areaSize a ∧ (Span.mk 0x104000 0x105000).Holds a := by
  have ok : Activation.Admissible ⟨0x1122⟩
      ⟨.standard, ⟨0x100000⟩, ⟨0x80000, 0xa0000⟩, ⟨0x104000, 0x105000⟩⟩ :=
    Activation.admissible_of_accepted (a := Activation.rooted ⟨0x100000⟩) rfl
  obtain ⟨d, tally, _, _, ran⟩ := boot_of_admissible
    (m := ModelCore.initial .el1 ⟨0x1122⟩ ⟨0x30d01806⟩) (by decide) ok
  refine ⟨_, _, ran, 0x104000, ?_, ?_⟩
  · unfold Partition.InSpan
    decide
  · unfold Span.Holds
    decide

end ColdStart
