import ColdStart.Proofs.Boot.Ground

/-! What a booted core owes to the core it was. Firmware leaves a level, registers and
tables behind, and activation reads the system control back from the core. Yet the
descent has overwritten the system control before that, the build gives every entry of
the area its word, and activation writes whatever the walker goes by. So two runs of
one placement are compared here: they are refused alike, or end alike, and booting once
more on what a boot has left changes nothing. -/
namespace ColdStart

namespace Activation

/-- What an activation writes: all that the walker goes by, and the system control. -/
def registers : List SystemRegister :=
  [.sctlrEl1, .mairEl1, .tcrEl1, .ttbr0El1, .ttbr1El1]

theorem lastWritten?_eq_none_iff (a : Activation) (before : Value .sctlrEl1) (r : SystemRegister) :
    Event.lastWritten? r (a.events before) = none ↔ r ∉ registers := by
  cases r <;> simp [events, registers, Event.lastWritten?, Event.wrote?]

/-- Of the core's features the verdict on a placement takes only the granule. -/
theorem forPlacement?_of_granule {features others : Value .idAa64Mmfr0El1}
    (granule : IdAa64Mmfr0El1.has4k features = IdAa64Mmfr0El1.has4k others) (p : Placement) :
    forPlacement? features p = forPlacement? others p := by
  simp only [forPlacement?, admitted, granule]

end Activation

/-- From the kernel's level there is nothing to leave. -/
theorem Descent.events_at_kernel {d : Descent}
    (planned : between? Profile.kernelLevel Profile.kernelLevel = .ok d) :
    d.events = [.write .sctlrEl1 Profile.sctlrOff.word] := by
  cases planned
  rfl

section
variable {p : Placement} {m n : ModelCore} {d : Descent} {features : Value .idAa64Mmfr0El1}

/-- A register that activation writes holds, after a boot, what activation wrote. -/
theorem exists_get?_booted (p : Placement) {r : SystemRegister} (listed : r ∈ Activation.registers) :
    ∃ w, ∀ (m : ModelCore) (d : Descent), (m.after (bootEvents d p)).registers.get? r = some w := by
  cases last : Event.lastWritten? r ((Activation.rooted p.tables).events Profile.sctlrOff) with
  | none => exact absurd listed ((Activation.lastWritten?_eq_none_iff _ _ r).mp last)
  | some w =>
    refine ⟨w, fun m d => ?_⟩
    rw [ModelCore.get?_after, bootEvents, Event.lastWritten?_append, Event.lastWritten?_append, last]
    rfl

/-- A boot from the kernel's level touches no register but those of activation. -/
theorem get?_booted_at_kernel (planned : Descent.between? .el1 Profile.kernelLevel = .ok d)
    {r : SystemRegister} (unlisted : r ∉ Activation.registers) :
    (m.after (bootEvents d p)).registers.get? r = m.registers.get? r := by
  have other : SystemRegister.sctlrEl1 ≠ r := by
    rintro rfl
    exact unlisted (by decide)
  have descent : Event.lastWritten? r d.events = none := by
    rw [Descent.events_at_kernel planned]
    simp [Event.lastWritten?, Event.wrote?, other]
  rw [ModelCore.get?_after, bootEvents, Event.lastWritten?_append, Event.lastWritten?_append,
    (Activation.lastWritten?_eq_none_iff _ _ r).mpr unlisted, Event.lastWritten?_stores, descent]
  rfl

theorem tables_booted_eq (ok : Activation.Admissible features p) (m n : ModelCore) (d e : Descent) :
    (m.after (bootEvents d p)).tables = (n.after (bootEvents e p)).tables := by
  apply TableArea.eq_of_get
  intro t i
  exact (holds_booted ok m d (t, i)).trans (holds_booted ok n e (t, i)).symm

/-- A boot on what a boot of the same placement has left goes through again, and leaves
everything as it found it. -/
theorem boot_again (ok : Activation.Admissible m.features p) {tally : BuildTally}
    (built : (build p.partition p.tables).outcome = .ok tally)
    (planned : Descent.between? m.level Profile.kernelLevel = .ok d) :
    ∃ again, (boot p).on (m.after (bootEvents d p)) =
        (.ok (.ok ⟨.el1, tally, Activation.enabled Profile.sctlrOff⟩), again) ∧
      again.level = (m.after (bootEvents d p)).level ∧
      again.tables = (m.after (bootEvents d p)).tables ∧
      ∀ r, again.registers.get? r = (m.after (bootEvents d p)).registers.get? r := by
  have arrived : (m.after (bootEvents d p)).level = .el1 := level_booted planned
  have above : (m.after (bootEvents d p)).level ≠ .el0 := by
    rw [arrived]
    decide
  have still : Activation.Admissible (m.after (bootEvents d p)).features p := by
    rwa [ModelCore.features_after]
  obtain ⟨d', tally', planned', built', ran⟩ := boot_of_admissible above still
  cases built.symm.trans built'
  refine ⟨_, ran, ?_, tables_booted_eq ok _ _ _ _, fun r => ?_⟩
  · rw [arrived]
    exact level_booted planned'
  · rw [arrived] at planned'
    by_cases listed : r ∈ Activation.registers
    · obtain ⟨w, holds⟩ := exists_get?_booted p listed
      rw [holds, holds]
    · exact get?_booted_at_kernel planned' listed

end

/-- Two cores may have come from any levels, with any registers and tables: if both have
the granule or both lack it, a placement is refused on both for the same reason, or is
booted on both with the same result, the same tables and the same translation. Booted
again, it ends as it began. -/
theorem boot_by_placement_alone (p : Placement) (m n : ModelCore) (mAbove : m.level ≠ .el0)
    (nAbove : n.level ≠ .el0)
    (granule : IdAa64Mmfr0El1.has4k m.features = IdAa64Mmfr0El1.has4k n.features) :
    ∃ result m' n', (boot p).on m = (.ok result, m') ∧ (boot p).on n = (.ok result, n') ∧
      ∀ booted, result = .ok booted →
        m'.tables = n'.tables ∧
        (∀ r ∈ [.sctlrEl1, .mairEl1, .tcrEl1, .ttbr0El1, .ttbr1El1],
          m'.registers.get? r = n'.registers.get? r) ∧
        ∃ again, (boot p).on m' = (.ok (.ok booted), again) ∧ again.level = m'.level ∧
          again.tables = m'.tables ∧ ∀ r, again.registers.get? r = m'.registers.get? r := by
  obtain ⟨verdict, ended, admits⟩ := Activation.forPlacement?_spec m.features p
  have same := Activation.forPlacement?_of_granule granule p
  cases verdict with
  | error refusal =>
    refine ⟨_, m, n, boot_of_refused mAbove ended, boot_of_refused nAbove (same ▸ ended), ?_⟩
    intro booted through
    nomatch through
  | ok a =>
    have mOk := ((admits a).mp rfl).1
    have nOk := Activation.admissible_of_accepted (same ▸ ended)
    obtain ⟨d, tally, planned, built, mRan⟩ := boot_of_admissible mAbove mOk
    obtain ⟨e, tally', _, built', nRan⟩ := boot_of_admissible nAbove nOk
    cases built.symm.trans built'
    refine ⟨_, _, _, mRan, nRan, ?_⟩
    rintro booted ⟨⟩
    refine ⟨tables_booted_eq mOk m n d e, fun r listed => ?_, boot_again mOk built planned⟩
    obtain ⟨w, holds⟩ := exists_get?_booted p listed
    rw [holds, holds]

/-- From EL3 with every bit of the system control set, and from EL1 on another core with
none. -/
theorem boot_by_placement_alone_from_el3_and_el1 : ∃ booted m' n',
    (boot ⟨.standard, ⟨0x100000⟩, ⟨0x80000, 0x90000⟩, ⟨0x70000, 0x80000⟩⟩).on
      (ModelCore.initial .el3 ⟨0⟩ ⟨0xffffffffffffffff⟩) = (.ok (.ok booted), m') ∧
    (boot ⟨.standard, ⟨0x100000⟩, ⟨0x80000, 0x90000⟩, ⟨0x70000, 0x80000⟩⟩).on
      (ModelCore.initial .el1 ⟨0x1122⟩ ⟨0⟩) = (.ok (.ok booted), n') ∧
    m'.tables = n'.tables ∧ m'.registers.get? .sctlrEl1 = n'.registers.get? .sctlrEl1 := by
  obtain ⟨result, m', n', mRan, nRan, alike⟩ := boot_by_placement_alone
    ⟨.standard, ⟨0x100000⟩, ⟨0x80000, 0x90000⟩, ⟨0x70000, 0x80000⟩⟩
    (ModelCore.initial .el3 ⟨0⟩ ⟨0xffffffffffffffff⟩) (ModelCore.initial .el1 ⟨0x1122⟩ ⟨0⟩)
    (by decide) (by decide) (by decide)
  obtain ⟨d, tally, _, _, through⟩ := boot_of_admissible
    (m := ModelCore.initial .el3 ⟨0⟩ ⟨0xffffffffffffffff⟩) (by decide) Activation.admissible_standard
  obtain ⟨rfl, rfl⟩ : result = .ok _ ∧ m' = _ := by
    have same := mRan.symm.trans through
    exact ⟨Except.ok.inj (Prod.ext_iff.mp same).1, (Prod.ext_iff.mp same).2⟩
  obtain ⟨tables, registers, _⟩ := alike _ rfl
  exact ⟨_, _, n', mRan, nRan, tables, registers _ List.mem_cons_self⟩

end ColdStart
