import ColdStart.Proofs.Boot.Admission
import ColdStart.Proofs.Boot.Replay
import ColdStart.Proofs.Translation.Contents

/-! How a boot ends. A boot is decided by the level of the core and the verdict on
the placement, both of which are known before the first write, so a boot that is
refused adds no event at all. An admitted one goes through: what admission says of
the placement is all that the descent, the build and the activation require. -/
namespace ColdStart

namespace Activation
variable {features : Value .idAa64Mmfr0El1} {p : Placement}

/-- The tables of an admissible placement can be built. -/
theorem Admissible.build_ok (ok : Admissible features p) :
    ∃ tally, (build p.partition p.tables).outcome = .ok tally := by
  have room : p.tables.word.toNat + areaSize.toNat ≤ Word.count := Nat.le_trans ok.room (by decide)
  exact ⟨_, congrArg Emission.outcome (Build.build_eq ok.aligned room)⟩

theorem Admissible.build_clears (ok : Admissible features p) :
    .clear ∈ (build p.partition p.tables).emitted := by
  have room : p.tables.word.toNat + areaSize.toNat ≤ Word.count := Nat.le_trans ok.room (by decide)
  rw [Build.build_eq ok.aligned room]
  exact List.mem_cons_self

end Activation

/-- What an admitted boot does, after a planned descent. -/
def bootEvents (d : Descent) (p : Placement) : List Event :=
  d.events ++ ((build p.partition p.tables).emitted.map .store ++
    (Activation.rooted p.tables).events Profile.sctlrOff)

variable {p : Placement} {m : ModelCore}

theorem Descent.exists_plan (above : m.level ≠ .el0) :
    ∃ d, between? m.level Profile.kernelLevel = .ok d ∧ d.sctlr = some Profile.sctlrOff := by
  have reached : ¬ m.level < Profile.kernelLevel := by
    cases level : m.level
    case el0 => exact absurd level above
    all_goals decide
  rw [between?, if_neg reached]
  exact ⟨_, rfl, if_neg above⟩

/-- Every core that can descend to the kernel's level first turns translation off. -/
theorem Descent.sctlr_of_planned {current : Level} {d : Descent}
    (planned : between? current Profile.kernelLevel = .ok d) : d.sctlr = some Profile.sctlrOff := by
  obtain ⟨reached, rfl⟩ := between?_eq_ok_iff.mp planned
  refine if_neg fun bottom => ?_
  rw [bottom] at reached
  nomatch reached

/-- A descent leaves the system control as it was set at its start. -/
theorem Descent.lastWritten?_sctlr {d : Descent} {v : Value .sctlrEl1} (control : d.sctlr = some v) :
    Event.lastWritten? .sctlrEl1 d.events = some v.word := by
  have exits : ∀ e : Exit, Event.lastWritten? .sctlrEl1 e.events = none := by
    intro e
    cases e <;> rfl
  have rest (es : List Exit) : Event.lastWritten? .sctlrEl1 (es.flatMap Exit.events) = none := by
    induction es with
    | nil => rfl
    | cons e es ih => rw [List.flatMap_cons, Event.lastWritten?_append, ih, exits]; rfl
  rw [events, control, Event.lastWritten?_append, rest]
  rfl

theorem boot_of_el0 (level : m.level = .el0) :
    (boot p).on m = (.ok (.error (.descent (.belowTarget .el0 .el1))), m) := by
  have refused : Descent.between? m.level Profile.kernelLevel = .error (.belowTarget .el0 .el1) := by
    rw [level]
    rfl
  refine (Run.on_bind_of_ok m.level_on _).trans ?_
  refine (Run.on_bind_of_ok (Descent.plan?_on m.level Profile.kernelLevel m) _).trans ?_
  rw [refused]
  rfl

theorem boot_of_refused (above : m.level ≠ .el0) {e : Refusal}
    (refused : Activation.forPlacement? m.features p = .ok (.error e)) :
    (boot p).on m = (.ok (.error (.activation e)), m) := by
  obtain ⟨d, planned, _⟩ := Descent.exists_plan above
  refine (Run.on_bind_of_ok m.level_on _).trans ?_
  refine (Run.on_bind_of_ok (Descent.plan?_on m.level Profile.kernelLevel m) _).trans ?_
  simp only [planned]
  refine (Run.on_bind_of_ok m.features_on _).trans ?_
  rw [refused]
  exact Run.on_bind_of_ok (Run.on_ofExcept _ m) _

/-- Once a placement is admitted nothing can go wrong any more. -/
theorem boot_of_admissible (above : m.level ≠ .el0) (ok : Activation.Admissible m.features p) :
    ∃ d tally, Descent.between? m.level Profile.kernelLevel = .ok d ∧
      (build p.partition p.tables).outcome = .ok tally ∧
      (boot p).on m = (.ok (.ok ⟨.el1, tally, Activation.enabled Profile.sctlrOff⟩),
        m.after (bootEvents d p)) := by
  obtain ⟨d, planned, control⟩ := Descent.exists_plan above
  obtain ⟨verdict, ended, admits⟩ := Activation.forPlacement?_spec m.features p
  rw [(admits _).mpr ⟨ok, rfl⟩] at ended
  obtain ⟨tally, built⟩ := ok.build_ok
  refine ⟨d, tally, planned, built, ?_⟩
  refine (Run.on_bind_of_ok m.level_on _).trans ?_
  refine (Run.on_bind_of_ok (Descent.plan?_on m.level Profile.kernelLevel m) _).trans ?_
  simp only [planned]
  refine (Run.on_bind_of_ok m.features_on _).trans ?_
  rw [ended]
  refine (Run.on_bind_of_ok (Run.on_ofExcept _ m) _).trans ?_
  refine (Run.on_bind_of_ok (Descent.take_on planned) _).trans ?_
  have performed := Core.perform_on (build p.partition p.tables) (m.after d.events)
  rw [built] at performed
  refine (Run.on_bind_of_ok performed _).trans ?_
  have before : ((m.after d.events).after
      ((build p.partition p.tables).emitted.map .store)).registers.read .sctlrEl1 =
      Profile.sctlrOff.word := by
    rw [← ModelCore.after_append, ModelCore.read_after, Event.lastWritten?_append,
      Event.lastWritten?_stores, Descent.lastWritten?_sctlr control]
    rfl
  have enabled := Activation.enable_on (Activation.rooted p.tables)
    ((m.after d.events).after ((build p.partition p.tables).emitted.map .store))
  rw [before] at enabled
  have last : (liftM ((Activation.rooted p.tables).enable : StateM ModelCore (Value .sctlrEl1)) :
      Run ModelCore (Value .sctlrEl1)).on
        ((m.after d.events).after ((build p.partition p.tables).emitted.map .store)) =
      (.ok (Activation.enabled Profile.sctlrOff), m.after (bootEvents d p)) := by
    rw [Run.on_lift, enabled, bootEvents, ModelCore.after_append, ModelCore.after_append]
  exact (Run.on_bind_of_ok last _).trans rfl

theorem level_booted {d : Descent} (planned : Descent.between? m.level Profile.kernelLevel = .ok d) :
    (m.after (bootEvents d p)).level = Profile.kernelLevel := by
  rw [bootEvents, ModelCore.after_append, ModelCore.after_append, Activation.level_after,
    ModelCore.after_stores]
  exact Descent.level_after planned rfl

theorem tables_booted (d : Descent) : (m.after (bootEvents d p)).tables =
    (m.after d.events).tables.applyAll (build p.partition p.tables).emitted := by
  rw [bootEvents, ModelCore.after_append, ModelCore.after_append, Activation.tables_after,
    ModelCore.after_stores]

/-- Activation writes last, so what it wrote is there. -/
theorem read_booted {d : Descent} {r : SystemRegister} {word : Word}
    (written : Event.lastWritten? r ((Activation.rooted p.tables).events Profile.sctlrOff) =
      some word) : (m.after (bootEvents d p)).registers.read r = word := by
  rw [ModelCore.read_after, bootEvents, Event.lastWritten?_append, Event.lastWritten?_append, written]
  rfl

/-- A boot is refused, or goes through with a placement that is admissible. -/
theorem boot_on (p : Placement) (m : ModelCore) :
    (∃ e, (boot p).on m = (.ok (.error e), m)) ∨
    ∃ d tally, Descent.between? m.level Profile.kernelLevel = .ok d ∧
      Activation.Admissible m.features p ∧
      (boot p).on m = (.ok (.ok ⟨.el1, tally, Activation.enabled Profile.sctlrOff⟩),
        m.after (bootEvents d p)) := by
  by_cases level : m.level = .el0
  · exact Or.inl ⟨_, boot_of_el0 level⟩
  obtain ⟨verdict, ended, admits⟩ := Activation.forPlacement?_spec m.features p
  cases verdict with
  | error refusal => exact Or.inl ⟨_, boot_of_refused level ended⟩
  | ok a =>
    have ok := ((admits a).mp rfl).1
    obtain ⟨d, tally, planned, _, ran⟩ := boot_of_admissible level ok
    exact Or.inr ⟨d, tally, planned, ok, ran⟩

/-- A boot always ends, on every core and for every placement. It is refused exactly
where the core is at EL0 or the placement is, with that refusal, and then the core
and its tables are as they were; otherwise it ends at EL1. -/
theorem boot_all_or_nothing (p : Placement) (m : ModelCore) :
    ∃ result after, (boot p).on m = (.ok result, after) ∧
      (∀ e, result = .error (.descent e) ↔ m.level = .el0 ∧ e = .belowTarget .el0 .el1) ∧
      (∀ e, result = .error (.activation e) ↔
        m.level ≠ .el0 ∧ Activation.forPlacement? m.features p = .ok (.error e)) ∧
      ((∃ booted, result = .ok booted) ↔
        m.level ≠ .el0 ∧ ∃ a, Activation.forPlacement? m.features p = .ok (.ok a)) ∧
      (∀ booted, result = .ok booted → booted.level = .el1 ∧ after.level = .el1) ∧
      (∀ e, result = .error e → after = m) := by
  by_cases level : m.level = .el0
  · refine ⟨_, _, boot_of_el0 level, ?_, ?_, ?_, fun _ same => (nomatch same),
      fun _ _ => rfl⟩
    · intro e
      rw [and_iff_right level, Except.error.injEq, BootError.descent.injEq]
      exact eq_comm
    · exact fun e => iff_of_false (fun same => nomatch same) fun above => above.1 level
    · exact iff_of_false (fun ⟨_, same⟩ => nomatch same) fun above => above.1 level
  obtain ⟨verdict, ended, admits⟩ := Activation.forPlacement?_spec m.features p
  cases verdict with
  | error refusal =>
    refine ⟨_, _, boot_of_refused level ended, ?_, ?_, ?_, fun _ same => (nomatch same),
      fun _ _ => rfl⟩
    · exact fun e => iff_of_false (fun same => nomatch same) fun below => level below.1
    · intro e
      rw [and_iff_right level, ended, Except.error.injEq, BootError.activation.injEq, Except.ok.injEq,
        Except.error.injEq]
    · refine iff_of_false (fun ⟨_, same⟩ => nomatch same) ?_
      rintro ⟨_, a, same⟩
      rw [ended] at same
      nomatch same
  | ok a =>
    obtain ⟨ok, _⟩ := (admits a).mp rfl
    obtain ⟨d, tally, planned, _, ran⟩ := boot_of_admissible level ok
    refine ⟨_, _, ran, ?_, ?_, iff_of_true ⟨_, rfl⟩ ⟨level, a, ended⟩, ?_, fun e same => nomatch same⟩
    · exact fun e => iff_of_false (fun same => nomatch same) fun below => level below.1
    · refine fun e => iff_of_false (fun same => nomatch same) ?_
      rintro ⟨_, same⟩
      rw [ended] at same
      nomatch same
    · rintro booted ⟨⟩
      exact ⟨rfl, level_booted planned⟩

end ColdStart
