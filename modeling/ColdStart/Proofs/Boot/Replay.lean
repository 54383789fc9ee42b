import ColdStart.Boot
import ColdStart.Machine.Model
import ColdStart.Proofs.Privilege.Planning

/-! Runs on the model core as the events they add to its trace. An event carries
all that it does, so a run is known once its events are: the state afterwards is
the state before with the events replayed, and level, registers and tables are each
replayed without regard to the others. A descent that was planned for the level of
the core always ends at its target. -/
namespace ColdStart

namespace Event

def isStore : Event → Bool
  | store _ => true
  | _ => false

def isReturn : Event → Bool
  | exceptionReturn _ _ => true
  | _ => false

def wrote? (r : SystemRegister) : Event → Option Word
  | write s w => if s = r then some w else none
  | _ => none

/-- The word that was last written to a register. -/
def lastWritten? (r : SystemRegister) : List Event → Option Word
  | [] => none
  | e :: rest => (lastWritten? r rest).or (e.wrote? r)

theorem lastWritten?_append (r : SystemRegister) (events rest : List Event) :
    lastWritten? r (events ++ rest) = (lastWritten? r rest).or (lastWritten? r events) := by
  induction events with
  | nil => simp [lastWritten?]
  | cons e events ih => rw [List.cons_append, lastWritten?, ih, lastWritten?, Option.or_assoc]

theorem lastWritten?_stores (r : SystemRegister) (stores : List Store) :
    lastWritten? r (stores.map store) = none := by
  induction stores with
  | nil => rfl
  | cons s rest ih => rw [List.map_cons, lastWritten?, ih]; rfl

end Event

namespace ModelCore

/-- What an event does. -/
def happen (m : ModelCore) (e : Event) : ModelCore :=
  match e with
  | .write r w => { m with registers := m.registers.set r w, trace := m.trace ++ [e] }
  | .barrier _ => { m with trace := m.trace ++ [e] }
  | .exceptionReturn _ target => { m with level := target, trace := m.trace ++ [e] }
  | .store s => { m with tables := m.tables.apply s, trace := m.trace ++ [e] }

/-- The core after events, in order. -/
def after (m : ModelCore) (events : List Event) : ModelCore :=
  events.foldl happen m

variable (m : ModelCore) (events rest : List Event)

theorem after_append : m.after (events ++ rest) = (m.after events).after rest :=
  List.foldl_append

theorem after_cons (e : Event) : m.after (e :: rest) = (m.happen e).after rest :=
  rfl

theorem trace_after : (m.after events).trace = m.trace ++ events := by
  induction events generalizing m with
  | nil => exact (List.append_nil _).symm
  | cons e rest ih =>
    have first : (m.happen e).trace = m.trace ++ [e] := by cases e <;> rfl
    rw [after_cons, ih, first, List.append_assoc, List.singleton_append]

theorem features_after : (m.after events).features = m.features := by
  induction events generalizing m with
  | nil => rfl
  | cons e rest ih =>
    rw [after_cons, ih]
    cases e <;> rfl

/-- A register holds what was last written to it. -/
theorem get?_after (r : SystemRegister) : (m.after events).registers.get? r =
    (Event.lastWritten? r events).or (m.registers.get? r) := by
  induction events generalizing m with
  | nil => rfl
  | cons e rest ih =>
    have first : (m.happen e).registers.get? r = (e.wrote? r).or (m.registers.get? r) := by
      cases e with
      | write s w =>
        rw [happen, RegisterFile.get?_set, Event.wrote?]
        split <;> rfl
      | _ => rfl
    rw [after_cons, ih, first, Event.lastWritten?, Option.or_assoc]

theorem read_after (r : SystemRegister) : (m.after events).registers.read r =
    (Event.lastWritten? r events).getD (m.registers.read r) := by
  rw [RegisterFile.read, get?_after, Option.getD_or]
  rfl

/-- Stores touch nothing but the tables. -/
theorem after_stores (stores : List Store) : m.after (stores.map .store) =
    { m with tables := m.tables.applyAll stores, trace := m.trace ++ stores.map .store } := by
  induction stores generalizing m with
  | nil => simp [after, TableArea.applyAll]
  | cons s rest ih =>
    rw [List.map_cons, after_cons, ih]
    simp [happen, TableArea.applyAll]

theorem level_on : (liftM (Core.level : StateM ModelCore Level) : Run ModelCore Level).on m =
    (.ok m.level, m) := rfl

theorem features_on : (liftM (Core.features : StateM ModelCore (Value .idAa64Mmfr0El1)) :
    Run ModelCore (Value .idAa64Mmfr0El1)).on m = (.ok m.features, m) := rfl

/-- An exception return goes to the level of the saved status written before it. -/
theorem return_on {source : Level} {r : SystemRegister} {status : Value .spsr} {mode : Mode}
    (saved : SystemRegister.savedStatus source = some r) (named : Spsr.mode status = .ok mode) :
    (do Core.writeStatus source status; Core.exceptionReturn source : StateM ModelCore Unit) m =
      ((), m.after [.write r status.word, .exceptionReturn source mode.level]) := by
  have lands : (m.happen (.write r status.word)).landing source = mode.level := by
    simp only [landing, saved, happen, RegisterFile.read_set, if_true, named]
  have written : (Core.writeStatus source status : StateM ModelCore Unit) m =
      ((), m.happen (.write r status.word)) := by
    rw [Core.writeStatus, saved]
    rfl
  change (let ran := (Core.writeStatus source status : StateM ModelCore Unit) m;
    (Core.exceptionReturn source : StateM ModelCore Unit) ran.2) = _
  rw [written]
  change ((), (m.happen (.write r status.word)).happen (.exceptionReturn source _)) = _
  rw [lands]
  rfl

end ModelCore

namespace Exit

def events : Exit → List Event
  | el3 scr sctlr status =>
    [.write .scrEl3 scr.word, .write .sctlrEl2 sctlr.word, .write .spsrEl3 status.word,
      .exceptionReturn .el3 .el2]
  | el2 hcr timer offset status =>
    [.write .hcrEl2 hcr.word, .write .cnthctlEl2 timer.word, .write .cntvoffEl2 offset,
      .write .spsrEl2 status.word, .exceptionReturn .el2 .el1]
  | el1 status => [.write .spsrEl1 status.word, .exceptionReturn .el1 .el0]

theorem mode_entering (level : Level) : Spsr.mode (entering level) = .ok (.entering level) := by
  cases level <;> rfl

/-- A planned exit returns to the level below the one it leaves. -/
theorem take_on {level : Level} {e : Exit} (planned : leaving? level = some e) (m : ModelCore) :
    (e.take : StateM ModelCore Unit) m = ((), m.after e.events) := by
  cases level with
  | el3 =>
    cases planned
    have saved : SystemRegister.savedStatus .el3 = some .spsrEl3 := rfl
    let configured := m.after [.write .scrEl3 Profile.scr.word, .write .sctlrEl2 Profile.sctlrEl2.word]
    exact configured.return_on saved (mode_entering .el2)
  | el2 =>
    cases planned
    have saved : SystemRegister.savedStatus .el2 = some .spsrEl2 := rfl
    let configured := m.after [.write .hcrEl2 Profile.hcr.word,
      .write .cnthctlEl2 CnthctlEl2.untrapped.word, .write .cntvoffEl2 0]
    exact configured.return_on saved (mode_entering .el1)
  | el1 =>
    cases planned
    have saved : SystemRegister.savedStatus .el1 = some .spsrEl1 := rfl
    exact m.return_on saved (mode_entering .el0)
  | el0 => nomatch planned

end Exit

namespace Descent

def events (d : Descent) : List Event :=
  (d.sctlr.map fun v => Event.write .sctlrEl1 v.word).toList ++ d.exits.flatMap Exit.events

variable {current target : Level} {d : Descent}

theorem mem_events_iff {e : Event} : e ∈ d.events ↔
    (∃ v, d.sctlr = some v ∧ e = .write .sctlrEl1 v.word) ∨
      ∃ exit ∈ d.exits, e ∈ exit.events := by
  rw [events, List.mem_append, List.mem_flatMap]
  cases d.sctlr <;> simp

theorem between?_eq_ok_iff : between? current target = .ok d ↔
    target ≤ current ∧ d = ⟨current, target, if current = .el0 then none else some Profile.sctlrOff,
      (levelsLeft current target).filterMap Exit.leaving?⟩ := by
  have order : ¬ current < target ↔ target ≤ current := Nat.not_lt
  unfold between?
  split
  · rename_i below
    exact iff_of_false (fun planned => nomatch planned) fun planned => order.mpr planned.1 below
  · rename_i above
    constructor
    · rintro ⟨⟩
      exact ⟨order.mp above, rfl⟩
    · rintro ⟨_, rfl⟩
      rfl

theorem exits_on {exits : List Exit} (planned : ∀ e ∈ exits, ∃ level, Exit.leaving? level = some e)
    (m : ModelCore) : (exits.forM Exit.take : StateM ModelCore Unit) m =
      ((), m.after (exits.flatMap Exit.events)) := by
  induction exits generalizing m with
  | nil => rfl
  | cons e rest ih =>
    obtain ⟨level, leaving⟩ := planned e List.mem_cons_self
    have tail := ih (fun next member => planned next (List.mem_cons_of_mem _ member))
      (m.after e.events)
    change (let ran := (e.take : StateM ModelCore Unit) m;
      (rest.forM Exit.take : StateM ModelCore Unit) ran.2) = _
    rw [Exit.take_on leaving, List.flatMap_cons, ModelCore.after_append]
    exact tail

/-- The exits of a plan lead from its start to its target. -/
theorem level_after (planned : between? current target = .ok d) {m : ModelCore}
    (here : m.level = current) : (m.after d.events).level = target := by
  obtain ⟨above, rfl⟩ := between?_eq_ok_iff.mp planned
  subst here
  cases start : m.level <;> cases target
  all_goals first
    | exact absurd above (by rw [start]; decide)
    | exact start
    | rfl

/-- A descent planned for the level the core is at never halts. -/
theorem take_on {m : ModelCore} (planned : between? m.level target = .ok d) :
    d.take.on m = (.ok target, m.after d.events) := by
  have exits : ∀ e ∈ d.exits, ∃ level, Exit.leaving? level = some e := by
    obtain ⟨_, rfl⟩ := between?_eq_ok_iff.mp planned
    intro e member
    obtain ⟨level, _, leaving⟩ := List.mem_filterMap.mp member
    exact ⟨level, leaving⟩
  have here : d.start = m.level := by
    obtain ⟨_, rfl⟩ := between?_eq_ok_iff.mp planned
    rfl
  have arrived := level_after planned rfl
  have checked : require (m.level == d.start) (.levelMismatch m.level d.start) = .ok () :=
    require_eq_ok_iff.mpr (beq_iff_eq.mpr here.symm)
  unfold take
  refine (Run.on_bind_of_ok m.level_on _).trans ?_
  refine (Run.on_bind_of_ok (by rw [checked]; exact Run.on_ofExcept _ m) _).trans ?_
  have first : m.after d.events =
      (m.after (d.sctlr.map fun v => Event.write .sctlrEl1 v.word).toList).after
        (d.exits.flatMap Exit.events) := ModelCore.after_append _ _ _
  have left := exits_on exits (m.after (d.sctlr.map fun v => Event.write .sctlrEl1 v.word).toList)
  rw [← first] at left
  have exited : (liftM (d.exits.forM Exit.take : StateM ModelCore Unit) : Run ModelCore Unit).on
      (m.after (d.sctlr.map fun v => Event.write .sctlrEl1 v.word).toList) =
      (.ok (), m.after d.events) := by rw [Run.on_lift, left]
  have last := (m.after d.events).level_on
  rw [arrived] at last
  cases control : d.sctlr with
  | none =>
    rw [control] at exited
    exact (Run.on_bind_of_ok exited _).trans last
  | some v =>
    rw [control] at exited
    refine (Run.on_bind_of_ok (a := ()) (t := m.after [.write .sctlrEl1 v.word]) rfl _).trans ?_
    exact (Run.on_bind_of_ok exited _).trans last

theorem plan?_on (current target : Level) (m : ModelCore) :
    (Run.ofExcept (plan? current target) : Run ModelCore _).on m = (.ok (between? current target), m) := by
  rw [plan?_eq, Run.on_ofExcept]

/-- A descent goes through exactly if its target is not above the core. -/
theorem downTo_on (target : Level) (m : ModelCore) :
    (m.level < target ∧ (downTo target).on m = (.ok (.error (.belowTarget m.level target)), m)) ∨
    ∃ d, between? m.level target = .ok d ∧
      (downTo target).on m = (.ok (.ok target), m.after d.events) := by
  by_cases above : m.level < target
  · have refused : between? m.level target = .error (.belowTarget m.level target) := if_pos above
    refine Or.inl ⟨above, ?_⟩
    refine (Run.on_bind_of_ok m.level_on _).trans ?_
    refine (Run.on_bind_of_ok (plan?_on m.level target m) _).trans ?_
    rw [refused]
    rfl
  · obtain ⟨d, planned⟩ : ∃ d, between? m.level target = .ok d := ⟨_, if_neg above⟩
    refine Or.inr ⟨d, planned, ?_⟩
    refine (Run.on_bind_of_ok m.level_on _).trans ?_
    refine (Run.on_bind_of_ok (plan?_on m.level target m) _).trans ?_
    simp only [planned]
    exact (Run.on_bind_of_ok (take_on planned) _).trans rfl

end Descent

namespace Activation

def events (a : Activation) (before : Value .sctlrEl1) : List Event :=
  [.barrier .dataSync, .write .mairEl1 a.mair.word, .write .ttbr0El1 a.lowerRoot.word,
    .write .ttbr1El1 a.upperRoot.word, .write .tcrEl1 a.tcr.word, .barrier .dropTranslations,
    .barrier .dataSync, .barrier .instructionSync, .write .sctlrEl1 (enabled before).word,
    .barrier .instructionSync]

theorem level_after (a : Activation) (before : Value .sctlrEl1) (m : ModelCore) :
    (m.after (a.events before)).level = m.level := by
  simp only [events, ModelCore.after, List.foldl_cons, List.foldl_nil, ModelCore.happen]

theorem tables_after (a : Activation) (before : Value .sctlrEl1) (m : ModelCore) :
    (m.after (a.events before)).tables = m.tables := by
  simp only [events, ModelCore.after, List.foldl_cons, List.foldl_nil, ModelCore.happen]

theorem enable_on (a : Activation) (m : ModelCore) :
    (a.enable : StateM ModelCore (Value .sctlrEl1)) m =
      (enabled ⟨m.registers.read .sctlrEl1⟩, m.after (a.events ⟨m.registers.read .sctlrEl1⟩)) := by
  -- None of the writes that come first is of the system control.
  have kept : (((((m.registers.set .mairEl1 a.mair.word).set .ttbr0El1 a.lowerRoot.word).set
      .ttbr1El1 a.upperRoot.word).set .tcrEl1 a.tcr.word).read .sctlrEl1) =
      m.registers.read .sctlrEl1 := by
    simp only [RegisterFile.read_set, reduceCtorEq, if_false]
  rw [← kept]
  rfl

end Activation

theorem Core.perform_on {α : Type} (x : Emission Store α) (m : ModelCore) :
    (Core.perform x).on m = (x.outcome, m.after (x.emitted.map .store)) := by
  rw [ModelCore.after_stores]
  rfl

end ColdStart
