import ColdStart.Proofs.Boot.Replay
import ColdStart.Proofs.Machine.Architecture

/-! One program on two cores: on the core of the architecture, as instructions, and on
the model core, as operations. The cores mirror one another in all that a program can
learn and in all registers that it programs. Two runs agree when they answer alike, end
in cores that mirror one another, and what was executed accounts for the events of the
trace, in order, and for every register that changed. Agreement goes through sequencing,
so that a program agrees once its operations do. -/
namespace ColdStart

/-- The registers that a boot writes. -/
def SystemRegister.programmed : List SystemRegister :=
  [scrEl3, hcrEl2, sctlrEl2, cnthctlEl2, cntvoffEl2, spsrEl1, spsrEl2, spsrEl3, sctlrEl1, mairEl1,
    tcrEl1, ttbr0El1, ttbr1El1]

namespace Act

/-- The event that an act amounts to. -/
def event? : Act → Option Event
  | executed (.writeRegister target w) _ _ =>
    match ArchRegister.ofEncoding target with
    | .system r => some (.write r w)
    | _ => none
  | executed (.barrier b) _ _ => some (.barrier b)
  | executed .exceptionReturn before after => some (.exceptionReturn before.level after.level)
  | executed _ _ _ => none
  | stored s => some (.store s)

/-- The register that an act writes. -/
def writes? : Act → Option ArchRegister
  | executed (.writeRegister target _) _ _ => some (.ofEncoding target)
  | executed .maskInterrupts _ _ | executed .unmaskInterrupts _ _ => some (.system .daif)
  | executed (.translate _) _ _ => some (.system .parEl1)
  | executed (.writeStack level _) _ _ => some (.stackOf level)
  | executed (.writeLink level _) _ _ => some (.linkOf level)
  | _ => none

/-- An exception return goes on at the instruction after it, on the same stack. -/
def Resumes : Act → Prop
  | executed .exceptionReturn before after =>
    after.counter = before.counter + 4 ∧ after.stack = before.stack
  | _ => True

end Act

/-- Events account for a register that they write, for the stack pointer of a level that
they enter and for the link of a level that they leave. -/
def ArchRegister.CoveredBy (events : List Event) : ArchRegister → Prop
  | system r => ∃ w, .write r w ∈ events
  | stackOf level => ∃ source, .exceptionReturn source level ∈ events
  | linkOf level => ∃ target, .exceptionReturn level target ∈ events
  | other _ => False

theorem ArchRegister.CoveredBy.mono {events more : List Event} {r : ArchRegister}
    (covered : r.CoveredBy events) (part : events ⊆ more) : r.CoveredBy more := by
  cases r with
  | system r => exact covered.imp fun _ among => part among
  | stackOf level => exact covered.imp fun _ among => part among
  | linkOf level => exact covered.imp fun _ among => part among
  | other e => exact covered

/-- The acts between two states of the core, and what they account for. -/
structure Carried (c c' : A64Core) (acts : List Act) : Prop where
  log : c'.log = c.log ++ acts
  resumes : ∀ act ∈ acts, act.Resumes
  covered : ∀ act ∈ acts, ∀ r, act.writes? = some r → r.CoveredBy (acts.filterMap Act.event?)
  kept : ∀ r : ArchRegister, ¬ r.CoveredBy (acts.filterMap Act.event?) →
    c'.registers.read r = c.registers.read r

namespace Carried
variable {c c' c'' : A64Core} {acts more : List Act}

theorem refl (c : A64Core) : Carried c c [] where
  log := (List.append_nil _).symm
  resumes := fun _ none => nomatch none
  covered := fun _ none => nomatch none
  kept := fun _ _ => rfl

theorem trans (first : Carried c c' acts) (second : Carried c' c'' more) :
    Carried c c'' (acts ++ more) where
  log := by rw [second.log, first.log, List.append_assoc]
  resumes act among := (List.mem_append.mp among).elim (first.resumes act) (second.resumes act)
  covered act among r written := by
    rw [List.filterMap_append]
    rcases List.mem_append.mp among with early | late
    · exact (first.covered act early r written).mono (List.subset_append_left _ _)
    · exact (second.covered act late r written).mono (List.subset_append_right _ _)
  kept r free := by
    rw [List.filterMap_append] at free
    rw [second.kept r fun covered => free (covered.mono (List.subset_append_right _ _)),
      first.kept r fun covered => free (covered.mono (List.subset_append_left _ _))]

end Carried

/-- The two cores are alike in all that a boot reads and writes. The core of the
architecture is on its level's own stack pointer wherever the level has one. -/
structure Mirrors (c : A64Core) (m : ModelCore) : Prop where
  level : c.level = m.level
  ownStack : c.ownStack = decide (c.level ≠ .el0)
  features : c.get (.system .idAa64Mmfr0El1) = m.features.word
  registers : ∀ r ∈ SystemRegister.programmed, c.get (.system r) = m.registers.read r
  tables : c.tables = m.tables

/-- Two runs of one program, on each core from a state on. -/
structure Agree {α : Type} (c : A64Core) (m : ModelCore) (ran : α × A64Core)
    (spec : α × ModelCore) : Prop where
  answer : ran.1 = spec.1
  mirrors : Mirrors ran.2 spec.2
  carried : ∃ acts, Carried c ran.2 acts ∧ spec.2.trace = m.trace ++ acts.filterMap Act.event?

namespace Agree
variable {α β : Type} {c : A64Core} {m : ModelCore}

theorem answering (mirrors : Mirrors c m) (a : α) : Agree c m (a, c) (a, m) where
  answer := rfl
  mirrors := mirrors
  carried := ⟨[], Carried.refl c, (List.append_nil _).symm⟩

theorem trans {ran : α × A64Core} {spec : α × ModelCore} {ran' : β × A64Core}
    {spec' : β × ModelCore} (first : Agree c m ran spec) (second : Agree ran.2 spec.2 ran' spec') :
    Agree c m ran' spec' where
  answer := second.answer
  mirrors := second.mirrors
  carried := by
    obtain ⟨acts, carried, trace⟩ := first.carried
    obtain ⟨more, carried', trace'⟩ := second.carried
    refine ⟨acts ++ more, carried.trans carried', ?_⟩
    rw [trace', trace, List.append_assoc, List.filterMap_append]

/-- Programs in sequence agree when the first parts do and the rest does from where they end. -/
theorem bind {x : StateM A64Core α} {y : StateM ModelCore α} {f : α → StateM A64Core β}
    {g : α → StateM ModelCore β} (first : Agree c m (x c) (y m))
    (rest : Agree (x c).2 (y m).2 (f (y m).1 (x c).2) (g (y m).1 (y m).2)) :
    Agree c m ((x >>= f) c) ((y >>= g) m) := by
  have run : (x >>= f) c = f (x c).1 (x c).2 := rfl
  rw [run, first.answer]
  exact first.trans rest

theorem lift {x : StateM A64Core α} {y : StateM ModelCore α} (agree : Agree c m (x c) (y m)) :
    Agree c m ((liftM x : Run A64Core α).on c) ((liftM y : Run ModelCore α).on m) where
  answer := congrArg Except.ok agree.answer
  mirrors := agree.mirrors
  carried := agree.carried

/-- What is computed without the cores is computed alike. -/
theorem computed (mirrors : Mirrors c m) (x : Except Halt α) :
    Agree c m ((Run.ofExcept x).on c) ((Run.ofExcept x).on m) :=
  answering mirrors x

theorem bind_on {x : Run A64Core α} {y : Run ModelCore α} {f : α → Run A64Core β}
    {g : α → Run ModelCore β} (first : Agree c m (x.on c) (y.on m))
    (rest : ∀ a, (y.on m).1 = .ok a →
      Agree (x.on c).2 (y.on m).2 ((f a).on (x.on c).2) ((g a).on (y.on m).2)) :
    Agree c m ((x >>= f).on c) ((y >>= g).on m) := by
  rw [Run.on_bind, Run.on_bind, first.answer]
  cases ended : (y.on m).1 with
  | ok a => exact first.trans (rest a ended)
  | error e => exact ⟨rfl, first.mirrors, first.carried⟩

end Agree

theorem ArchRegister.ofEncoding_encoding (r : SystemRegister) :
    ofEncoding r.encoding = system r := by
  cases r <;> rfl

namespace A64Core
variable (c : A64Core) {r : SystemRegister}

theorem get_programmed (programmed : r ∈ SystemRegister.programmed) :
    c.get (.system r) = c.registers.read (.system r) := by
  cases r <;> first | rfl | exact absurd programmed (by decide)

theorem set_programmed (programmed : r ∈ SystemRegister.programmed) (w : Word) :
    c.set (.system r) w = { c with registers := c.registers.set (.system r) w } := by
  cases r <;> first | rfl | exact absurd programmed (by decide)

/-- A write of a register that a boot programs. -/
theorem run_write (programmed : r ∈ SystemRegister.programmed) (w : Word) :
    c.run (.writeRegister r.encoding w) = { c with
      registers := c.registers.set (.system r) w
      counter := c.sites 0 + 4
      sites := fun n => c.sites (n + 1)
      log := c.log ++ [c.act (.writeRegister r.encoding w)] } := by
  simp only [run, next, effect, ArchRegister.ofEncoding_encoding, set_programmed _ programmed]
  rfl

end A64Core

namespace Mirrors
variable {c c' : A64Core} {m : ModelCore} {trace : List Event}

/-- The counter, the sites to come, the masks and the log have no mirror image, nor have the
stack pointers and links, nor the trace. -/
theorem congr (mirrors : Mirrors c m) (level : c'.level = c.level)
    (ownStack : c'.ownStack = c.ownStack)
    (registers : ∀ r, c'.registers.read (.system r) = c.registers.read (.system r))
    (tables : c'.tables = c.tables) : Mirrors c' { m with trace := trace } where
  level := level.trans mirrors.level
  ownStack := by rw [ownStack, level, mirrors.ownStack]
  features := (registers .idAa64Mmfr0El1).trans mirrors.features
  registers r programmed := by
    rw [← mirrors.registers r programmed, c'.get_programmed programmed,
      c.get_programmed programmed, registers]
  tables := tables.trans mirrors.tables

theorem set (mirrors : Mirrors c m) {r : SystemRegister} (programmed : r ∈ SystemRegister.programmed)
    (w : Word) : Mirrors { c with registers := c.registers.set (.system r) w }
      { m with registers := m.registers.set r w } where
  level := mirrors.level
  ownStack := mirrors.ownStack
  features := by
    have apart : ArchRegister.system r ≠ .system .idAa64Mmfr0El1 := by
      rintro ⟨⟩
      exact absurd programmed (by decide)
    exact ((RegisterFile.read_set ..).trans (if_neg apart)).trans mirrors.features
  registers s among := by
    rw [A64Core.get_programmed _ among, RegisterFile.read_set, RegisterFile.read_set,
      ← mirrors.registers s among, c.get_programmed among]
    simp only [ArchRegister.system.injEq]
  tables := mirrors.tables

end Mirrors

/-- An act that writes no register leaves nothing to account for. -/
theorem Carried.still {c c' : A64Core} {act : Act} (log : c'.log = c.log ++ [act])
    (registers : c'.registers = c.registers) (silent : act.writes? = none)
    (resumes : act.Resumes) : Carried c c' [act] where
  log := log
  resumes := List.forall_mem_singleton.mpr resumes
  covered := List.forall_mem_singleton.mpr fun r written => nomatch silent.symm.trans written
  kept _ _ := by rw [registers]

section
variable {c : A64Core} {m : ModelCore} (mirrors : Mirrors c m)
include mirrors

theorem agree_level : Agree c m ((Core.level : StateM A64Core Level) c)
    ((Core.level : StateM ModelCore Level) m) where
  answer := by
    have read : CurrentEl.level ⟨BitVec.ofNat 64 (4 * c.level.rank)⟩ = c.level := by
      cases c.level <;> decide
    exact read.trans mirrors.level
  mirrors := mirrors.congr rfl rfl (fun _ => rfl) rfl
  carried := ⟨_, Carried.still rfl rfl rfl trivial, (List.append_nil _).symm⟩

theorem agree_features : Agree c m
    ((Core.features : StateM A64Core (Value .idAa64Mmfr0El1)) c)
    ((Core.features : StateM ModelCore (Value .idAa64Mmfr0El1)) m) where
  answer := congrArg Value.mk mirrors.features
  mirrors := mirrors.congr rfl rfl (fun _ => rfl) rfl
  carried := ⟨_, Carried.still rfl rfl rfl trivial, (List.append_nil _).symm⟩

theorem agree_sctlr : Agree c m ((Core.sctlr : StateM A64Core (Value .sctlrEl1)) c)
    ((Core.sctlr : StateM ModelCore (Value .sctlrEl1)) m) where
  answer := congrArg Value.mk (mirrors.registers .sctlrEl1 (by decide))
  mirrors := mirrors.congr rfl rfl (fun _ => rfl) rfl
  carried := ⟨_, Carried.still rfl rfl rfl trivial, (List.append_nil _).symm⟩

theorem agree_barrier (b : Barrier) : Agree c m ((Core.barrier b : StateM A64Core Unit) c)
    ((Core.barrier b : StateM ModelCore Unit) m) where
  answer := rfl
  mirrors := mirrors.congr rfl rfl (fun _ => rfl) rfl
  carried := ⟨_, Carried.still rfl rfl rfl trivial, rfl⟩

theorem agree_store (stores : List Store) : Agree c m ((Core.store stores : StateM A64Core Unit) c)
    ((Core.store stores : StateM ModelCore Unit) m) where
  answer := rfl
  mirrors := ⟨mirrors.level, mirrors.ownStack, mirrors.features, mirrors.registers,
    congrArg (fun area => area.applyAll stores) mirrors.tables⟩
  carried := by
    have events : (stores.map Act.stored).filterMap Act.event? = stores.map Event.store := by
      rw [List.filterMap_map]
      exact congrFun List.filterMap_eq_map stores
    refine ⟨stores.map .stored, ⟨rfl, ?_, ?_, fun _ _ => rfl⟩, by rw [events]; rfl⟩
    · exact List.forall_mem_map.mpr fun _ _ => trivial
    · exact List.forall_mem_map.mpr fun _ _ _ written => nomatch written

theorem agree_write {r : SystemRegister} (programmed : r ∈ SystemRegister.programmed) (w : Word) :
    Agree c m ((Core.write r w : StateM A64Core Unit) c)
      ((Core.write r w : StateM ModelCore Unit) m) := by
  have run : ((Core.write r w : StateM A64Core Unit) c).2 = _ := c.run_write programmed w
  have event : (c.act (.writeRegister r.encoding w)).event? = some (.write r w) := by
    rw [A64Core.act, Act.event?, ArchRegister.ofEncoding_encoding]
  have writes : (c.act (.writeRegister r.encoding w)).writes? = some (.system r) :=
    congrArg some (ArchRegister.ofEncoding_encoding r)
  have events : [c.act (.writeRegister r.encoding w)].filterMap Act.event? = [.write r w] := by
    rw [List.filterMap_cons, event]
    rfl
  have other {s : ArchRegister} (free : ¬ s.CoveredBy [.write r w]) : .system r ≠ s := by
    rintro rfl
    exact free ⟨w, List.mem_singleton_self _⟩
  refine ⟨rfl, ?_, [c.act (.writeRegister r.encoding w)], ?_, ?_⟩
  · rw [run]
    exact (mirrors.set programmed w).congr rfl rfl (fun _ => rfl) rfl
  · rw [run]
    refine ⟨rfl, List.forall_mem_singleton.mpr trivial, List.forall_mem_singleton.mpr ?_, ?_⟩
    · intro s written
      rw [writes] at written
      rw [events, ← Option.some.inj written]
      exact ⟨w, List.mem_singleton_self _⟩
    · intro s free
      rw [events] at free
      exact (RegisterFile.read_set ..).trans (if_neg (other free))
  · rw [events]
    rfl

end

namespace Exit

theorem level_entering (lower : Level) :
    Level.ofBits ((entering lower).word.extractLsb' 2 2) = lower := by
  cases lower <;> decide

theorem ownStack_entering (lower : Level) :
    (entering lower).word.getLsbD 0 = decide (lower ≠ .el0) := by
  cases lower <;> decide

end Exit

/-- The architecture and the library name the same saved status. -/
theorem ArchRegister.statusOf?_of_savedStatus {level : Level} {r : SystemRegister}
    (saved : SystemRegister.savedStatus level = some r) :
    statusOf? level = some (.system r) ∧ r ∈ SystemRegister.programmed := by
  cases level <;> cases saved <;> exact ⟨rfl, by decide⟩

namespace A64Core
variable (c : A64Core)

/-- The core before the exception return that ends a sequence. -/
def departing (source lower : Level) : A64Core :=
  (((c.run .readStack).run (.writeStack lower c.stack)).run .readResume).run
    (.writeLink source (c.sites 0 + 4 + 4 + 12))

theorem leave_eq {source lower : Level} (below : source.below = some lower) :
    (Core.exceptionReturn source : StateM A64Core Unit) c =
      ((), (c.departing source lower).run .exceptionReturn) := by
  cases source <;> cases below <;> rfl

/-- What leads up to the return is no event and writes two registers. -/
theorem log_departing (source lower : Level) : ∃ acts,
    (c.departing source lower).log = c.log ++ acts ∧ acts.filterMap Act.event? = [] ∧
      ∀ act ∈ acts, act.Resumes ∧
        ∀ r, act.writes? = some r → r = .stackOf lower ∨ r = .linkOf source := by
  let first := c.run .readStack
  let second := first.run (.writeStack lower c.stack)
  let third := second.run .readResume
  refine ⟨[c.act .readStack, first.act (.writeStack lower c.stack), second.act .readResume,
    third.act (.writeLink source (c.sites 0 + 4 + 4 + 12))], ?_, rfl, ?_⟩
  · change (((c.log ++ _) ++ _) ++ _) ++ _ = _
    simp only [List.append_assoc, List.cons_append, List.nil_append]
    rfl
  · simp [A64Core.act, Act.Resumes, Act.writes?]

theorem departing_eq (source lower : Level) : (c.departing source lower).level = c.level ∧
    (c.departing source lower).ownStack = c.ownStack ∧
    (c.departing source lower).counter = c.sites 0 + 4 + 4 + 4 + 4 ∧
    (c.departing source lower).tables = c.tables := by
  simp only [departing, run, reach, continues, next, effect, if_true, if_false, Bool.false_eq_true,
    and_self]

theorem read_departing (source lower : Level) (r : ArchRegister) :
    (c.departing source lower).registers.read r =
      if .linkOf source = r then c.sites 0 + 4 + 4 + 12
      else if .stackOf lower = r then c.stack else c.registers.read r := by
  have file : (c.departing source lower).registers =
    (c.registers.set (.stackOf lower) c.stack).set (.linkOf source) (c.sites 0 + 4 + 4 + 12) := rfl
  rw [file, RegisterFile.read_set, RegisterFile.read_set]

/-- What the return will go by: the link is the address after it, and the stack pointer of
the level below is the one in use. -/
theorem departing_ready {source lower : Level} (below : source.below = some lower)
    (here : c.level = source) (own : c.ownStack = true) :
    (c.departing source lower).registers.read (.linkOf source) =
        (c.departing source lower).counter + 4 ∧
      (c.departing source lower).registers.read (.stackOf lower) =
        (c.departing source lower).stack := by
  obtain ⟨level, ownStack, counter, _⟩ := c.departing_eq source lower
  have read := c.read_departing source lower
  have inUse : c.stack = c.registers.read (.stackOf source) := by
    rw [stack, own, if_pos rfl, here]
  have apart : lower ≠ source := by
    cases source <;> cases below <;> decide
  constructor
  · rw [read, if_pos rfl, counter]
    bv_omega
  · have given : (c.departing source lower).registers.read (.stackOf lower) = c.stack := by
      simp only [read, reduceCtorEq, if_false, if_true]
    have kept : (c.departing source lower).registers.read (.stackOf source) = c.stack := by
      simp only [read, reduceCtorEq, if_false, ArchRegister.stackOf.injEq, apart, inUse]
    have same : (c.departing source lower).stack = c.stack := by
      rw [stack, ownStack, own, if_pos rfl, level, here, kept]
    rw [given, same]

/-- An exception return by a saved status that enters a level. -/
theorem run_return {lower : Level} {r : ArchRegister}
    (saved : ArchRegister.statusOf? c.level = some r)
    (written : c.registers.read r = (Exit.entering lower).word) : c.run .exceptionReturn = { c with
      level := lower
      ownStack := decide (lower ≠ .el0)
      masks := .ofWord (Exit.entering lower).word
      counter := c.registers.read (.linkOf c.level)
      log := c.log ++ [.executed .exceptionReturn c.point
        ⟨lower, c.registers.read (.stackOf lower), c.registers.read (.linkOf c.level)⟩] } := by
  have returned : c.returned = { c with
      level := lower
      ownStack := decide (lower ≠ .el0)
      masks := .ofWord (Exit.entering lower).word
      counter := c.registers.read (.linkOf c.level) } := by
    simp only [returned, saved, written, Exit.level_entering, Exit.ownStack_entering]
  have stack : c.returned.stack = c.registers.read (.stackOf lower) := by
    rw [returned]
    cases lower <;> rfl
  have point : c.returned.point =
      ⟨lower, c.registers.read (.stackOf lower), c.registers.read (.linkOf c.level)⟩ := by
    rw [point, stack, returned]
  change { c.returned with
    log := c.returned.log ++ [Act.executed .exceptionReturn c.point c.returned.point] } = _
  rw [point, returned]

/-- A whole sequence, from a level to the one below: it leaves everything but one stack
pointer and one link as it was, and the return is its only event. -/
theorem leave_carried {source lower : Level} {r : SystemRegister}
    (below : source.below = some lower) (here : c.level = source) (own : c.ownStack = true)
    (saved : ArchRegister.statusOf? source = some (.system r))
    (written : c.registers.read (.system r) = (Exit.entering lower).word) :
    ∃ c' acts, (Core.exceptionReturn source : StateM A64Core Unit) c = ((), c') ∧
      c'.level = lower ∧ c'.ownStack = decide (lower ≠ .el0) ∧ c'.tables = c.tables ∧
      (∀ s, c'.registers.read (.system s) = c.registers.read (.system s)) ∧
      Carried c c' acts ∧ acts.filterMap Act.event? = [.exceptionReturn source lower] := by
  obtain ⟨level, _, _, tables⟩ := c.departing_eq source lower
  obtain ⟨acts, log, silent, around⟩ := c.log_departing source lower
  obtain ⟨link, stack⟩ := c.departing_ready below here own
  have read := c.read_departing source lower
  rw [c.leave_eq below]
  -- The four instructions before the return are known well enough by now; unfolded again,
  -- they would be compared with the core field by field.
  generalize c.departing source lower = d at *
  rw [here] at level
  have system (s : SystemRegister) : d.registers.read (.system s) = c.registers.read (.system s) :=
    read (.system s)
  have ran := d.run_return (level.symm ▸ saved) ((system r).trans written)
  rw [level] at ran
  let last := Act.executed .exceptionReturn d.point
    ⟨lower, d.registers.read (.stackOf lower), d.registers.read (.linkOf source)⟩
  have events : (acts ++ [last]).filterMap Act.event? = [.exceptionReturn source lower] := by
    rw [List.filterMap_append, silent, ← level]
    rfl
  refine ⟨_, acts ++ [last], rfl, ?_⟩
  rw [ran]
  refine ⟨rfl, rfl, tables, system, ⟨?_, ?_, ?_, ?_⟩, events⟩
  · rw [log, List.append_assoc]
  · refine List.forall_mem_append.mpr ⟨fun act among => (around act among).1, ?_⟩
    exact List.forall_mem_singleton.mpr ⟨link, stack⟩
  · rw [events]
    refine List.forall_mem_append.mpr ⟨fun act among s wrote => ?_, ?_⟩
    · rcases (around act among).2 s wrote with rfl | rfl
      · exact ⟨source, List.mem_singleton_self _⟩
      · exact ⟨lower, List.mem_singleton_self _⟩
    · exact List.forall_mem_singleton.mpr fun _ wrote => absurd wrote (by simp [last, Act.writes?])
  · rw [events]
    intro s free
    have stays : .linkOf source ≠ s ∧ .stackOf lower ≠ s := by
      constructor
      · rintro rfl
        exact free ⟨lower, List.mem_singleton_self _⟩
      · rintro rfl
        exact free ⟨source, List.mem_singleton_self _⟩
    rw [read, if_neg stays.1, if_neg stays.2]

end A64Core

section
variable {c : A64Core} {m : ModelCore} (mirrors : Mirrors c m)
include mirrors

/-- An exception return agrees where the saved status enters the level below. -/
theorem agree_return {source lower : Level} {r : SystemRegister} (here : m.level = source)
    (below : source.below = some lower) (saved : SystemRegister.savedStatus source = some r)
    (written : m.registers.read r = (Exit.entering lower).word) :
    Agree c m ((Core.exceptionReturn source : StateM A64Core Unit) c)
      ((Core.exceptionReturn source : StateM ModelCore Unit) m) := by
  have lands : m.landing source = lower := by
    have mode : Spsr.mode ⟨m.registers.read r⟩ = .ok (.entering lower) := by
      rw [written]
      exact Exit.mode_entering lower
    simp only [ModelCore.landing, saved, mode, Mode.level_entering]
  obtain ⟨status, programmed⟩ := ArchRegister.statusOf?_of_savedStatus saved
  have own : c.ownStack = true := by
    rw [mirrors.ownStack, mirrors.level, here]
    cases source <;> cases below <;> rfl
  have word : c.registers.read (.system r) = (Exit.entering lower).word := by
    rw [← c.get_programmed programmed, mirrors.registers r programmed, written]
  obtain ⟨c', acts, ran, level, ownStack, tables, system, carried, events⟩ :=
    c.leave_carried below (mirrors.level.trans here) own status word
  rw [ran]
  refine ⟨rfl, ⟨level.trans lands.symm, level.symm ▸ ownStack, ?_, ?_, ?_⟩, acts, carried, ?_⟩
  · exact (system _).trans mirrors.features
  · intro s among
    rw [A64Core.get_programmed _ among, system, ← c.get_programmed among]
    exact mirrors.registers s among
  · exact tables.trans mirrors.tables
  · rw [events]
    change m.trace ++ [.exceptionReturn source (m.landing source)] = _
    rw [lands]

end

end ColdStart
