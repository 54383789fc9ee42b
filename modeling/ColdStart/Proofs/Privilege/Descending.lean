import ColdStart.Proofs.Boot.Session

/-! No session climbs. An event is judged by the level in force when it happens and
by the events of its own call before it, so that nothing an earlier call left in a
saved status can count as preparation. What a call does is put together from parts
that each begin at the level where the one before ends: the exits of a descent, one
after another, and for a boot the stores and the activation, which stay at one level.
A session is put together from its calls in the same way. -/
namespace ColdStart

namespace Event

/-- The level in force after an event. -/
def levelThen (level : Level) : Event → Level
  | exceptionReturn _ target => target
  | _ => level

/-- The level in force after events that began at `start`. -/
def levelAfter (start : Level) (events : List Event) : Level :=
  events.foldl levelThen start

theorem levelAfter_append (start : Level) (front back : List Event) :
    levelAfter start (front ++ back) = levelAfter (levelAfter start front) back :=
  List.foldl_append

theorem lastWritten?_later {r : SystemRegister} {early : List Event} {w : Word}
    (written : lastWritten? r early = some w) (front : List Event) :
    lastWritten? r (front ++ early) = some w := by
  rw [lastWritten?_append, written, Option.some_or]

end Event

theorem ModelCore.level_eq_levelAfter (m : ModelCore) (events : List Event) :
    (m.after events).level = Event.levelAfter m.level events := by
  induction events generalizing m with
  | nil => rfl
  | cons e rest ih =>
    have first : (m.happen e).level = e.levelThen m.level := by cases e <;> rfl
    rw [after_cons, ih, first]
    rfl

namespace SystemRegister

/-- The least privileged level that can write a register. -/
def leastLevel : SystemRegister → Level
  | scrEl3 | spsrEl3 => .el3
  | cnthctlEl2 | cntvoffEl2 | hcrEl2 | sctlrEl2 | spsrEl2 => .el2
  | _ => .el1

def savedStatuses : List SystemRegister :=
  [.spsrEl1, .spsrEl2, .spsrEl3]

theorem mem_savedStatuses {level : Level} {r : SystemRegister} (saved : savedStatus level = some r) :
    r ∈ savedStatuses := by
  cases level <;> cases saved <;> decide

theorem leastLevel_savedStatus {level : Level} {r : SystemRegister}
    (saved : savedStatus level = some r) : r.leastLevel = level := by
  cases level <;> cases saved <;> rfl

end SystemRegister

/-- The call has made ready for a return from `source` to `target`. -/
structure Prepared (early : List Event) (source target : Level) : Prop where
  next : source.below = some target
  saved : ∃ r, ∃ status : Value .spsr, SystemRegister.savedStatus source = some r ∧
    Event.lastWritten? r early = some status.word ∧
    (∃ mode, Spsr.mode status = .ok mode ∧ mode.level = target) ∧
    status.test Spsr.nrw = false ∧ Spsr.asynchronousMasked status = true
  nonSecure : source = .el3 → ∃ scr : Value .scrEl3,
    Event.lastWritten? .scrEl3 early = some scr.word ∧
    scr.test ScrEl3.ns = true ∧ scr.test ScrEl3.rw = true
  wide : source = .el2 → ∃ hcr : Value .hcrEl2,
    Event.lastWritten? .hcrEl2 early = some hcr.word ∧ hcr.test HcrEl2.rw = true

/-- A call that began at `start` may do this after `early`. -/
def Permitted (start : Level) (early : List Event) : Event → Prop
  | .write r _ => r.leastLevel ≤ Event.levelAfter start early ∧
      ∀ level, SystemRegister.savedStatus level = some r → level = Event.levelAfter start early
  | .exceptionReturn source target =>
      source = Event.levelAfter start early ∧ Prepared early source target
  | .barrier _ | .store _ => True

/-- The level in force never rises. -/
def Falls (start : Level) (events : List Event) : Prop :=
  Throughout (fun early e => Event.levelAfter start (early ++ [e]) ≤ Event.levelAfter start early)
    events

/-- A call takes its core from one level to another as it may, one return a level. -/
structure Descends (start : Level) (events : List Event) (target : Level) : Prop where
  permitted : Throughout (Permitted start) events
  ends : Event.levelAfter start events = target
  returns : events.countP Event.isReturn + target.rank = start.rank

section
variable {start between target : Level} {front back early events : List Event} {e : Event}

theorem Prepared.later (ready : Prepared early start target) (front : List Event) :
    Prepared (front ++ early) start target where
  next := ready.next
  saved := by
    obtain ⟨r, status, register, written, names⟩ := ready.saved
    exact ⟨r, status, register, Event.lastWritten?_later written front, names⟩
  nonSecure := by
    intro top
    obtain ⟨scr, written, set⟩ := ready.nonSecure top
    exact ⟨scr, Event.lastWritten?_later written front, set⟩
  wide := by
    intro middle
    obtain ⟨hcr, written, set⟩ := ready.wide middle
    exact ⟨hcr, Event.lastWritten?_later written front, set⟩

/-- What may be done at the start of a part may be done when others went before it. -/
theorem Permitted.later (may : Permitted (Event.levelAfter start front) early e) :
    Permitted start (front ++ early) e := by
  cases e with
  | write r w => rwa [Permitted, Event.levelAfter_append]
  | exceptionReturn source lower =>
    rw [Permitted, Event.levelAfter_append]
    exact ⟨may.1, may.2.later front⟩
  | barrier b => trivial
  | store s => trivial

/-- Whatever is permitted, the level does not rise by it. -/
theorem Permitted.falls (may : Permitted start early e) :
    Event.levelAfter start (early ++ [e]) ≤ Event.levelAfter start early := by
  rw [Event.levelAfter_append]
  cases e with
  | exceptionReturn source lower =>
    obtain ⟨here, ready⟩ := may
    have step := Level.rank_below ready.next
    rw [← here, Level.le_iff]
    change lower.rank ≤ source.rank
    omega
  | write r w => exact Nat.le_refl _
  | barrier b => exact Nat.le_refl _
  | store s => exact Nat.le_refl _

theorem Falls.append (first : Falls start front) (second : Falls (Event.levelAfter start front) back) :
    Falls start (front ++ back) := by
  refine throughout_append.mpr ⟨first, second.imp ?_⟩
  intro early e lower
  rwa [List.append_assoc, Event.levelAfter_append start front, Event.levelAfter_append start front]

namespace Descends

theorem nil : Descends start [] start where
  permitted := throughout_nil
  ends := rfl
  returns := Nat.zero_add _

theorem append (first : Descends start front between) (second : Descends between back target) :
    Descends start (front ++ back) target := by
  have later := second.permitted
  rw [← first.ends] at later
  have := first.returns
  have := second.returns
  constructor
  case permitted => exact throughout_append.mpr ⟨first.permitted, later.imp fun _ _ => Permitted.later⟩
  case ends => rw [Event.levelAfter_append, first.ends, second.ends]
  case returns =>
    rw [List.countP_append]
    omega

theorem falls (down : Descends start events target) : Falls start events :=
  down.permitted.imp fun _ _ => Permitted.falls

end Descends

/-- An event that is no return and that may happen wherever `level` is in force. -/
def Event.StaysAt (level : Level) : Event → Prop
  | write r _ => r.leastLevel ≤ level ∧ r ∉ SystemRegister.savedStatuses
  | exceptionReturn _ _ => False
  | barrier _ | store _ => True

theorem Event.StaysAt.descends (stays : e.StaysAt start) : Descends start [e] start := by
  have may : Permitted start [] e := by
    cases e with
    | write r w =>
      obtain ⟨allowed, plain⟩ := stays
      exact ⟨allowed, fun level saved => absurd (SystemRegister.mem_savedStatuses saved) plain⟩
    | exceptionReturn source lower => exact stays.elim
    | barrier b => trivial
    | store s => trivial
  constructor
  case permitted => exact throughout_cons.mpr ⟨may, throughout_nil⟩
  case ends => cases e <;> first | rfl | exact stays.elim
  case returns => cases e <;> first | exact Nat.zero_add _ | exact stays.elim

theorem Descends.of_staysAt (stays : ∀ e ∈ events, e.StaysAt start) :
    Descends start events start := by
  induction events with
  | nil => exact .nil
  | cons e rest ih =>
    have head := stays e List.mem_cons_self
    have tail := ih fun e member => stays e (List.mem_cons_of_mem _ member)
    exact head.descends.append tail

/-- A return with what goes before it, all at the level that is left. -/
theorem Descends.of_return (configured : List Event) {r : SystemRegister} {w : Word}
    (stays : ∀ e ∈ configured, e.StaysAt start) (saved : SystemRegister.savedStatus start = some r)
    (ready : Prepared (configured ++ [.write r w]) start target) :
    Descends start (configured ++ [.write r w, .exceptionReturn start target]) target := by
  have still := Descends.of_staysAt stays
  have here : Event.levelAfter start (configured ++ [.write r w]) = start := by
    rw [Event.levelAfter_append, still.ends]
    rfl
  have status : Permitted start configured (.write r w) := by
    refine ⟨?_, fun level same => ?_⟩
    · rw [still.ends, SystemRegister.leastLevel_savedStatus saved]
      exact Nat.le_refl _
    · rw [still.ends, ← SystemRegister.leastLevel_savedStatus same,
        SystemRegister.leastLevel_savedStatus saved]
  have returns := still.returns
  have step := Level.rank_below ready.next
  constructor
  case permitted =>
    refine throughout_append.mpr ⟨still.permitted, throughout_cons.mpr ⟨?_, throughout_cons.mpr ⟨?_,
      throughout_nil⟩⟩⟩
    · rwa [List.append_nil]
    · exact ⟨here.symm, ready⟩
  case ends => rw [Event.levelAfter_append]; rfl
  case returns =>
    have last : [Event.write r w, .exceptionReturn start target].countP Event.isReturn = 1 := rfl
    rw [List.countP_append, last]
    omega

/-- Every planned exit leads to the next level. -/
theorem Exit.descends {exit : Exit} (planned : leaving? start = some exit)
    (next : start.below = some target) : Descends start exit.events target := by
  cases start with
  | el0 => nomatch next
  | el1 =>
    cases planned
    cases next
    refine Descends.of_return [] (List.forall_mem_nil _) rfl ?_
    constructor
    case next => rfl
    case saved => exact ⟨_, entering .el0, rfl, rfl, ⟨.el0t, rfl, rfl⟩, by decide, by decide⟩
    case nonSecure => intro top; contradiction
    case wide => intro middle; contradiction
  | el2 =>
    cases planned
    cases next
    refine Descends.of_return [.write .hcrEl2 _, .write .cnthctlEl2 _, .write .cntvoffEl2 _] ?_ rfl ?_
    · simp [Event.StaysAt, SystemRegister.leastLevel, SystemRegister.savedStatuses, Level.le_iff]
    constructor
    case next => rfl
    case saved => exact ⟨_, entering .el1, rfl, rfl, ⟨.el1h, rfl, rfl⟩, by decide, by decide⟩
    case nonSecure => intro top; contradiction
    case wide => exact fun _ => ⟨Profile.hcr, rfl, by decide⟩
  | el3 =>
    cases planned
    cases next
    refine Descends.of_return [.write .scrEl3 _, .write .sctlrEl2 _] ?_ rfl ?_
    · simp [Event.StaysAt, SystemRegister.leastLevel, SystemRegister.savedStatuses, Level.le_iff,
        Level.rank]
    constructor
    case next => rfl
    case saved => exact ⟨_, entering .el2, rfl, rfl, ⟨.el2h, rfl, rfl⟩, by decide, by decide⟩
    case nonSecure => exact fun _ => ⟨Profile.scr, rfl, by decide, by decide⟩
    case wide => intro middle; contradiction

/-- Exits that lead from one level to another, each by one level. -/
inductive Leads : Level → List Exit → Level → Prop
  | here (level : Level) : Leads level [] level
  | exit {level lower target : Level} {exit : Exit} {rest : List Exit}
      (planned : Exit.leaving? level = some exit) (next : level.below = some lower)
      (onwards : Leads lower rest target) : Leads level (exit :: rest) target

theorem leads_of_planned {d : Descent} (planned : Descent.between? start target = .ok d) :
    Leads start d.exits target := by
  obtain ⟨above, rfl⟩ := Descent.between?_eq_ok_iff.mp planned
  cases start <;> cases target
  all_goals first
    | exact absurd above (by decide)
    | exact .here _
    | exact .exit rfl rfl (.here _)
    | exact .exit rfl rfl (.exit rfl rfl (.here _))
    | exact .exit rfl rfl (.exit rfl rfl (.exit rfl rfl (.here _)))

theorem Leads.descends {exits : List Exit} (leads : Leads start exits target) :
    Descends start (exits.flatMap Exit.events) target := by
  induction leads with
  | here level => exact .nil
  | exit planned next _ ih =>
    rw [List.flatMap_cons]
    exact (Exit.descends planned next).append ih

theorem Descent.descends {d : Descent} (planned : between? start target = .ok d) :
    Descends start d.events target := by
  refine (Descends.of_staysAt ?_).append (leads_of_planned planned).descends
  obtain ⟨_, rfl⟩ := between?_eq_ok_iff.mp planned
  -- EL0 may not write the system control, and a descent from there does not.
  cases start <;> simp [Event.StaysAt, SystemRegister.leastLevel, SystemRegister.savedStatuses,
    Level.le_iff, Level.rank]

theorem Activation.stays (a : Activation) (before : Value .sctlrEl1) :
    ∀ e ∈ a.events before, e.StaysAt .el1 := by
  simp [events, Event.StaysAt, SystemRegister.leastLevel, SystemRegister.savedStatuses, Level.le_iff]

/-- After its descent a boot stays at the kernel's level. -/
theorem Descends.boot {d : Descent} (down : Descends start d.events .el1) (p : Placement) :
    Descends start (bootEvents d p) .el1 := by
  refine down.append ((Descends.of_staysAt ?_).append
    (Descends.of_staysAt (Activation.stays _ _)))
  intro e member
  obtain ⟨s, _, rfl⟩ := List.mem_map.mp member
  trivial

theorem Call.descends {call : Call} {d : Descent}
    (planned : Descent.between? start call.target = .ok d) :
    Descends start (call.events d) call.target := by
  cases call with
  | descend target => exact Descent.descends planned
  | boot p => exact (Descent.descends planned).boot p

end

/-- What a session does is what its calls do, one after another. -/
theorem Session.falls (m : ModelCore) (session : Session) :
    ∃ events, session.final m = m.after events ∧ Falls m.level events := by
  induction session generalizing m with
  | nil => exact ⟨[], rfl, throughout_nil⟩
  | cons call rest ih =>
    rw [final]
    rcases call.run_on m with ⟨e, refused, _⟩ | ⟨d, planned, _, through⟩
    · rw [refused]
      exact ih m
    · rw [through]
      have down := Call.descends planned
      obtain ⟨events, left, lower⟩ := ih (m.after (call.events d))
      rw [ModelCore.level_eq_levelAfter] at lower
      refine ⟨call.events d ++ events, ?_, down.falls.append lower⟩
      rw [left, ModelCore.after_append]

/-- On a core in whatever state, whatever is asked of it: its level never rises, and
each call is refused and leaves the core alone, or takes the core to its target, does
there what that level may do, and makes one prepared return for each level it leaves. -/
theorem session_descends (m : ModelCore) (session : Session) :
    (∃ events, (session.final m).trace = m.trace ++ events ∧
      (session.final m).level = Event.levelAfter m.level events ∧ Falls m.level events) ∧
    ∀ a ∈ session.attempts m,
      (∃ e, a.result = .ok (.error e) ∧ a.after = a.before ∧
        ∀ target, a.call = .descend target → a.before.level < target) ∨
      ∃ events, a.result = .ok (.ok a.call.target) ∧ a.after = a.before.after events ∧
        a.after.trace = a.before.trace ++ events ∧ a.after.level = a.call.target ∧
        Descends a.before.level events a.call.target := by
  constructor
  · obtain ⟨events, left, lower⟩ := session.falls m
    refine ⟨events, ?_, ?_, lower⟩
    · rw [left, ModelCore.trace_after]
    · rw [left, ModelCore.level_eq_levelAfter]
  · intro a member
    rcases Session.ended_of_mem member with refused | ⟨d, planned, _, result, left⟩
    · exact Or.inl refused
    · have down := Call.descends planned
      refine Or.inr ⟨a.call.events d, result, left, ?_, ?_, down⟩
      · rw [left, ModelCore.trace_after]
      · rw [left, ModelCore.level_eq_levelAfter, down.ends]

/-- All the way down from EL3 in one call, and no way up again. -/
theorem session_descends_for_good : ∃ down up,
    Session.attempts (ModelCore.initial .el3 ⟨0⟩ ⟨0x30d01806⟩) [.descend .el0, .descend .el1] =
      [down, up] ∧ down.after.trace.countP Event.isReturn = 3 ∧ down.after.level = .el0 ∧
      (∃ e, up.result = .ok (.error e)) ∧ up.after = down.after := by
  obtain ⟨_, each⟩ := session_descends (ModelCore.initial .el3 ⟨0⟩ ⟨0x30d01806⟩)
    [.descend .el0, .descend .el1]
  refine ⟨_, _, rfl, ?_⟩
  rcases each _ List.mem_cons_self with ⟨_, _, _, climbs⟩ | ⟨events, _, _, added, level, down⟩
  · exact absurd (climbs .el0 rfl) (by decide)
  · refine ⟨?_, level, ?_⟩
    · rw [added]
      exact down.returns
    rcases each _ (List.mem_cons_of_mem _ List.mem_cons_self) with
      ⟨e, refused, same, _⟩ | ⟨events, _, _, _, _, climbed⟩
    · exact ⟨⟨e, refused⟩, same⟩
    · have returns : events.countP Event.isReturn + 1 = Level.rank _ := climbed.returns
      rw [level] at returns
      exact absurd returns (Nat.succ_ne_zero _)

end ColdStart
