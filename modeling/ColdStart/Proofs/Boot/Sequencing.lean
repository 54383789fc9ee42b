import ColdStart.Proofs.Boot.Session

/-! The order of a boot. Descent, build and activation know nothing of each other,
and the core may come with translation and caches on from an earlier boot. What
keeps the order is that the descent writes the system control before anything else
and only the end of the activation writes it again, so all that lies between is done
with translation off: the run of these events is followed from the one write to the
other. -/
namespace ColdStart

namespace Event

/-- What the walker goes by. -/
def translationRegisters : List SystemRegister :=
  [.mairEl1, .ttbr0El1, .ttbr1El1, .tcrEl1]

def setsTranslation : Event → Bool
  | write r _ => translationRegisters.contains r
  | _ => false

end Event

/-- Going by what was last written, translation and both caches are off. -/
def Quiet (events : List Event) : Prop :=
  ∃ v : Value .sctlrEl1, Event.lastWritten? .sctlrEl1 events = some v.word ∧
    v.test SctlrEl1.m = false ∧ v.test SctlrEl1.c = false ∧ v.test SctlrEl1.i = false

/-- The events of a boot, on a core that has others behind it, are in order. -/
structure Sequenced (earlier events : List Event) : Prop where
  /-- Nothing is changed that a translation or a cache might be using. -/
  quiet : Throughout (fun early e => e.isStore ∨ e.setsTranslation → Quiet (earlier ++ early)) events
  /-- No store is made before the last exception return. -/
  descended : Throughout (fun early e => e.isReturn → ∀ x ∈ early, x.isStore = false) events
  /-- The tables have reached memory before the walker is pointed at them. -/
  published : ∃ front back, events = front ++ .barrier .dataSync :: back ∧
    (∃ s, .store s ∈ front) ∧ (∀ e ∈ front, e.setsTranslation = false) ∧
    (∀ e ∈ back, e.isStore = false) ∧ ∀ r ∈ Event.translationRegisters, ∃ w, .write r w ∈ back
  /-- Translation is turned on once, at the end, with what it goes by in effect. -/
  enabled : ∃ body, ∃ v : Value .sctlrEl1,
    events = body ++ [.barrier .dropTranslations, .barrier .dataSync, .barrier .instructionSync,
      .write .sctlrEl1 v.word, .barrier .instructionSync] ∧
    v.test SctlrEl1.m = true ∧ v.test SctlrEl1.c = false ∧ v.test SctlrEl1.i = false ∧
    ∀ w, .write .sctlrEl1 w ∈ body → (⟨w⟩ : Value .sctlrEl1).test SctlrEl1.m = false

section
variable {events xs : List Event} {e : Event}

theorem Quiet.snoc (quiet : Quiet events) (silent : e.wrote? .sctlrEl1 = none) :
    Quiet (events ++ [e]) := by
  obtain ⟨v, last, off⟩ := quiet
  refine ⟨v, ?_, off⟩
  rw [Event.lastWritten?_append, Event.lastWritten?, silent, last]
  rfl

/-- It stays quiet for as long as nobody writes the system control. -/
theorem Quiet.throughout (quiet : Quiet events) (silent : ∀ e ∈ xs, e.wrote? .sctlrEl1 = none) :
    Throughout (fun early _ => Quiet (events ++ early)) xs := by
  induction xs generalizing events with
  | nil => exact throughout_nil
  | cons x xs ih =>
    have next := quiet.snoc (silent x List.mem_cons_self)
    have later := ih next fun e member => silent e (List.mem_cons_of_mem x member)
    rw [throughout_cons]
    constructor
    · rwa [List.append_nil]
    · simpa only [List.append_assoc, List.singleton_append] using later

/-- What is asked of changes is asked of nothing where there are none. -/
theorem throughout_of_unchanging {P : List Event → Prop}
    (unchanging : ∀ e ∈ xs, e.isStore = false ∧ e.setsTranslation = false) :
    Throughout (fun early e => e.isStore ∨ e.setsTranslation → P early) xs := by
  refine throughout_of_mem fun e member early changing => ?_
  obtain ⟨noStore, noSetting⟩ := unchanging e member
  rw [noStore, noSetting] at changing
  rcases changing with store | setting <;> contradiction

end

/-- An exit has to do with neither the tables, the walker nor the system control of EL1. -/
theorem Exit.apart (exit : Exit) : ∀ e ∈ exit.events,
    e.isStore = false ∧ e.setsTranslation = false ∧ e.wrote? .sctlrEl1 = none := by
  cases exit <;> simp [events, Event.isStore, Event.setsTranslation, Event.translationRegisters,
    Event.wrote?]

namespace Activation

/-- The first part of an activation, in which the walker is set up. -/
def pointing (a : Activation) : List Event :=
  [.write .mairEl1 a.mair.word, .write .ttbr0El1 a.lowerRoot.word,
    .write .ttbr1El1 a.upperRoot.word, .write .tcrEl1 a.tcr.word]

/-- The second part, in which translation is turned on. -/
def switching (before : Value .sctlrEl1) : List Event :=
  [.barrier .dropTranslations, .barrier .dataSync, .barrier .instructionSync,
    .write .sctlrEl1 (enabled before).word, .barrier .instructionSync]

end Activation

/-- What a boot does between its two writes of the system control. -/
def bootBody (p : Placement) : List Event :=
  (build p.partition p.tables).emitted.map .store ++
    .barrier .dataSync :: (Activation.rooted p.tables).pointing

variable {d : Descent} {p : Placement} {e : Event}

theorem bootEvents_eq (d : Descent) (p : Placement) :
    bootEvents d p = d.events ++ (bootBody p ++ Activation.switching Profile.sctlrOff) := by
  rw [bootEvents, bootBody, List.append_assoc]
  rfl

theorem Descent.apart (member : e ∈ d.events) : e.isStore = false ∧ e.setsTranslation = false := by
  rcases mem_events_iff.mp member with ⟨v, _, rfl⟩ | ⟨exit, _, left⟩
  · exact ⟨rfl, rfl⟩
  · obtain ⟨noStore, noSetting, _⟩ := exit.apart e left
    exact ⟨noStore, noSetting⟩

/-- A descent writes the system control of EL1 only to turn translation off. -/
theorem Descent.control_written {v : Value .sctlrEl1} {w : Word} (control : d.sctlr = some v)
    (member : .write .sctlrEl1 w ∈ d.events) : w = v.word := by
  rcases mem_events_iff.mp member with ⟨_, written, same⟩ | ⟨exit, _, left⟩
  · cases written.symm.trans control
    exact (Event.write.inj same).2
  · nomatch (exit.apart _ left).2.2

theorem bootBody_apart (member : e ∈ bootBody p) :
    e.isReturn = false ∧ e.wrote? .sctlrEl1 = none := by
  rcases List.mem_append.mp member with stores | closing
  · obtain ⟨s, _, rfl⟩ := List.mem_map.mp stores
    exact ⟨rfl, rfl⟩
  · simp only [Activation.pointing, List.mem_cons, List.not_mem_nil, or_false] at closing
    rcases closing with rfl | rfl | rfl | rfl | rfl <;> exact ⟨rfl, rfl⟩

theorem Activation.switching_apart {before : Value .sctlrEl1} (member : e ∈ switching before) :
    e.isStore = false ∧ e.setsTranslation = false ∧ e.isReturn = false := by
  simp only [switching, List.mem_cons, List.not_mem_nil, or_false] at member
  rcases member with rfl | rfl | rfl | rfl | rfl <;> exact ⟨rfl, rfl, rfl⟩

theorem Activation.pointing_apart {a : Activation} (member : e ∈ a.pointing) :
    e.isStore = false := by
  simp only [pointing, List.mem_cons, List.not_mem_nil, or_false] at member
  rcases member with rfl | rfl | rfl | rfl <;> rfl

theorem Activation.pointing_complete (a : Activation) :
    ∀ r ∈ Event.translationRegisters, ∃ w, .write r w ∈ a.pointing := by
  simp [Event.translationRegisters, pointing]

/-- Whatever was on before, what a boot does after a descent that turned translation
off is in order. -/
theorem bootEvents_sequenced (earlier : List Event) (control : d.sctlr = some Profile.sctlrOff)
    (stored : ∃ s, s ∈ (build p.partition p.tables).emitted) :
    Sequenced earlier (bootEvents d p) := by
  have off : Quiet (earlier ++ d.events) := by
    refine ⟨Profile.sctlrOff, ?_, by decide, by decide, by decide⟩
    rw [Event.lastWritten?_append, Descent.lastWritten?_sctlr control]
    rfl
  constructor
  case quiet =>
    rw [bootEvents_eq, throughout_append, throughout_append]
    refine ⟨?_, ?_, ?_⟩
    · exact throughout_of_unchanging fun e member => Descent.apart member
    · refine (off.throughout fun e member => (bootBody_apart member).2).imp ?_
      intro early e quiet _
      rwa [← List.append_assoc]
    · refine throughout_of_unchanging fun e member => ?_
      obtain ⟨noStore, noSetting, _⟩ := Activation.switching_apart member
      exact ⟨noStore, noSetting⟩
  case descended =>
    rw [bootEvents_eq, throughout_append]
    constructor
    · intro early e late split _ x member
      refine (Descent.apart (d := d) ?_).1
      rw [split]
      exact List.mem_append_left _ member
    · refine throughout_of_mem fun e member early returns => ?_
      rcases List.mem_append.mp member with body | closing
      · rw [(bootBody_apart body).1] at returns
        contradiction
      · rw [(Activation.switching_apart closing).2.2] at returns
        contradiction
  case published =>
    refine ⟨d.events ++ (build p.partition p.tables).emitted.map .store,
      (Activation.rooted p.tables).pointing ++ Activation.switching Profile.sctlrOff, ?_, ?_, ?_, ?_, ?_⟩
    · rw [bootEvents_eq, bootBody]
      simp only [List.append_assoc, List.cons_append]
    · obtain ⟨s, emitted⟩ := stored
      exact ⟨s, List.mem_append_right _ (List.mem_map_of_mem emitted)⟩
    · intro e member
      rcases List.mem_append.mp member with descent | stores
      · exact (Descent.apart descent).2
      · obtain ⟨s, _, rfl⟩ := List.mem_map.mp stores
        rfl
    · intro e member
      rcases List.mem_append.mp member with pointing | closing
      · exact Activation.pointing_apart pointing
      · exact (Activation.switching_apart closing).1
    · intro r listed
      obtain ⟨w, written⟩ := (Activation.rooted p.tables).pointing_complete r listed
      exact ⟨w, List.mem_append_left _ written⟩
  case enabled =>
    refine ⟨d.events ++ bootBody p, Activation.enabled Profile.sctlrOff, ?_, by decide, by decide,
      by decide, ?_⟩
    · rw [bootEvents_eq, List.append_assoc]
      rfl
    · intro w member
      rcases List.mem_append.mp member with descent | body
      · rw [Descent.control_written control descent]
        decide
      · nomatch (bootBody_apart body).2

/-- Whatever is asked of a core, one call after another, and whatever state it is in
at first: each boot that goes through is in order, and its events are all that it
does. -/
theorem session_sequenced (m : ModelCore) (session : Session) (a : Attempt)
    (member : a ∈ session.attempts m) (p : Placement) (asked : a.call = .boot p) (level : Level)
    (ended : a.result = .ok (.ok level)) :
    ∃ events, a.after = a.before.after events ∧ a.after.trace = a.before.trace ++ events ∧
      Sequenced a.before.trace events := by
  rcases Session.ended_of_mem member with ⟨e, refused, _⟩ | ⟨d, planned, admissible, _, left⟩
  · nomatch ended.symm.trans refused
  · rw [asked] at planned left
    have ok := admissible p asked
    have control := Descent.sctlr_of_planned planned
    refine ⟨bootEvents d p, left, ?_, bootEvents_sequenced _ control ⟨.clear, ok.build_clears⟩⟩
    rw [left]
    exact ModelCore.trace_after _ _

/-- The second of two boots, on a core that was left with everything turned on. -/
theorem session_sequenced_twice : ∃ a ∈ Session.attempts
    (ModelCore.initial .el3 ⟨0⟩ ⟨0xffffffffffffffff⟩)
    (List.replicate 2 (.boot ⟨.standard, ⟨0x100000⟩, ⟨0x80000, 0x90000⟩, ⟨0x70000, 0x80000⟩⟩)),
    a.before.level = .el1 ∧ a.result = .ok (.ok .el1) ∧
      ∃ events, a.after.trace = a.before.trace ++ events ∧ Sequenced a.before.trace events := by
  have boots := Session.boots_of_admissible (m := ModelCore.initial .el3 ⟨0⟩ ⟨0xffffffffffffffff⟩)
    (by decide) Activation.admissible_standard 2
  obtain ⟨_, _, arrived⟩ := boots _ List.mem_cons_self
  obtain ⟨asked, ended, _⟩ := boots _ (List.mem_cons_of_mem _ List.mem_cons_self)
  refine ⟨_, List.mem_cons_of_mem _ List.mem_cons_self, arrived, ended, ?_⟩
  obtain ⟨events, _, added, ordered⟩ := session_sequenced
    (ModelCore.initial .el3 ⟨0⟩ ⟨0xffffffffffffffff⟩) (List.replicate 2 (.boot _)) _
    (List.mem_cons_of_mem _ List.mem_cons_self) _ asked _ ended
  exact ⟨events, added, ordered⟩

end ColdStart
