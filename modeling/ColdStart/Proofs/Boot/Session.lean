import ColdStart.Proofs.Boot.Outcome

/-! Sessions: descents and boots asked of one core, one after another and in any
order. A call that is refused leaves the core alone; any other goes through, and
its events are those of a planned descent with, for a boot, the stores and the
activation behind them. So whatever is claimed of a session is claimed of the
events of single calls, each on a core about which nothing is known. -/
namespace ColdStart

/-- Every element of a list is as `P` demands, seen with those before it. -/
def Throughout {α : Type} (P : List α → α → Prop) (xs : List α) : Prop :=
  ∀ early x late, xs = early ++ x :: late → P early x

section
variable {α : Type} {P Q : List α → α → Prop} {x : α} {xs front back : List α}

theorem throughout_nil : Throughout P [] := by
  intro early x late split
  cases early <;> contradiction

theorem throughout_cons : Throughout P (x :: xs) ↔
    P [] x ∧ Throughout (fun early => P (x :: early)) xs := by
  constructor
  · intro all
    refine ⟨all [] x xs rfl, ?_⟩
    intro early y late split
    exact all (x :: early) y late (congrArg (x :: ·) split)
  · rintro ⟨first, later⟩ early y late split
    cases early with
    | nil =>
      cases split
      exact first
    | cons z early =>
      cases split
      exact later early y late rfl

theorem throughout_append : Throughout P (front ++ back) ↔
    Throughout P front ∧ Throughout (fun early => P (front ++ early)) back := by
  induction front generalizing P with
  | nil => exact ⟨fun all => ⟨throughout_nil, all⟩, And.right⟩
  | cons x front ih =>
    rw [List.cons_append, throughout_cons, throughout_cons, ih, and_assoc]
    rfl

theorem Throughout.imp (all : Throughout P xs) (weaker : ∀ early x, P early x → Q early x) :
    Throughout Q xs :=
  fun early x late split => weaker early x (all early x late split)

/-- A demand that does not look back is one on the elements. -/
theorem throughout_of_mem (each : ∀ x ∈ xs, ∀ early, P early x) : Throughout P xs := by
  intro early x late split
  refine each x ?_ early
  rw [split]
  exact List.mem_append_right early List.mem_cons_self

end

/-- What can be asked of a core. -/
inductive Call
  | descend (target : Level)
  | boot (p : Placement)

namespace Call

/-- The level at which a call that goes through ends. -/
def target : Call → Level
  | descend target => target
  | boot _ => Profile.kernelLevel

/-- Carries a call out; gives the level reached. -/
def run {σ : Type} [Core σ] : Call → Run σ (Except BootError Level)
  | descend target => do return (← Descent.downTo target).mapError .descent
  | boot p => do return (← ColdStart.boot p).map Booted.level

/-- What a call that goes through does, after a planned descent. -/
def events (d : Descent) : Call → List Event
  | descend _ => d.events
  | boot p => bootEvents d p

end Call

/-- A call of a session with the core before and after it. -/
structure Attempt where
  call : Call
  before : ModelCore
  result : Except Halt (Except BootError Level)
  after : ModelCore

abbrev Session := List Call

namespace Session

/-- The calls of a session, each on the core that the one before has left. -/
def attempts (m : ModelCore) : Session → List Attempt
  | [] => []
  | call :: rest =>
    let ran := call.run.on m
    ⟨call, m, ran.1, ran.2⟩ :: attempts ran.2 rest

/-- The core that the last call leaves. -/
def final (m : ModelCore) : Session → ModelCore
  | [] => m
  | call :: rest => final (call.run.on m).2 rest

theorem ran_of_mem {m : ModelCore} {calls : Session} {a : Attempt}
    (member : a ∈ attempts m calls) : a.call.run.on a.before = (a.result, a.after) := by
  induction calls generalizing m with
  | nil => contradiction
  | cons call rest ih =>
    rcases List.mem_cons.mp member with rfl | later
    · rfl
    · exact ih later

end Session

/-- A call is refused and leaves the core alone, or goes through and ends at its
target. A descent is refused only where it would have to climb, and a boot goes
through only with an admissible placement. -/
theorem Call.run_on (call : Call) (m : ModelCore) :
    (∃ e, call.run.on m = (.ok (.error e), m) ∧
      ∀ target, call = .descend target → m.level < target) ∨
    ∃ d, Descent.between? m.level call.target = .ok d ∧
      (∀ p, call = .boot p → Activation.Admissible m.features p) ∧
      call.run.on m = (.ok (.ok call.target), m.after (call.events d)) := by
  cases call with
  | descend target =>
    rcases Descent.downTo_on target m with ⟨above, ran⟩ | ⟨d, planned, ran⟩
    · refine Or.inl ⟨_, (Run.on_bind_of_ok ran _).trans rfl, ?_⟩
      rintro _ ⟨⟩
      exact above
    · refine Or.inr ⟨d, planned, ?_, (Run.on_bind_of_ok ran _).trans rfl⟩
      intro p same
      nomatch same
  | boot p =>
    rcases boot_on p m with ⟨e, ran⟩ | ⟨d, tally, planned, ok, ran⟩
    · refine Or.inl ⟨e, (Run.on_bind_of_ok ran _).trans rfl, ?_⟩
      intro target same
      nomatch same
    · refine Or.inr ⟨d, planned, ?_, (Run.on_bind_of_ok ran _).trans rfl⟩
      rintro _ ⟨⟩
      exact ok

/-- The two ends of a call, for each call of a session. -/
theorem Session.ended_of_mem {m : ModelCore} {session : Session} {a : Attempt}
    (member : a ∈ attempts m session) :
    (∃ e, a.result = .ok (.error e) ∧ a.after = a.before ∧
      ∀ target, a.call = .descend target → a.before.level < target) ∨
    ∃ d, Descent.between? a.before.level a.call.target = .ok d ∧
      (∀ p, a.call = .boot p → Activation.Admissible a.before.features p) ∧
      a.result = .ok (.ok a.call.target) ∧ a.after = a.before.after (a.call.events d) := by
  have ran := ran_of_mem member
  rcases a.call.run_on a.before with ⟨e, refused, climbs⟩ | ⟨d, planned, admissible, through⟩
  · obtain ⟨result, left⟩ := Prod.mk.inj (ran.symm.trans refused)
    exact Or.inl ⟨e, result, left, climbs⟩
  · obtain ⟨result, left⟩ := Prod.mk.inj (ran.symm.trans through)
    exact Or.inr ⟨d, planned, admissible, result, left⟩

/-- A placement that is admissible can be booted over and over. -/
theorem Session.boots_of_admissible {p : Placement} {m : ModelCore} (above : m.level ≠ .el0)
    (ok : Activation.Admissible m.features p) (n : Nat) :
    ∀ a ∈ attempts m (List.replicate n (.boot p)),
      a.call = .boot p ∧ a.result = .ok (.ok .el1) ∧ a.after.level = .el1 := by
  induction n generalizing m with
  | zero =>
    intro a member
    contradiction
  | succ n ih =>
    obtain ⟨d, tally, planned, _, booted⟩ := boot_of_admissible above ok
    have arrived : (m.after (bootEvents d p)).level = .el1 := level_booted planned
    have ran : (Call.boot p).run.on m = (.ok (.ok .el1), m.after (bootEvents d p)) :=
      (Run.on_bind_of_ok booted _).trans rfl
    rw [← ModelCore.features_after m (bootEvents d p)] at ok
    intro a member
    rw [List.replicate_succ, attempts, ran] at member
    rcases List.mem_cons.mp member with rfl | later
    · exact ⟨rfl, rfl, arrived⟩
    · refine ih ?_ ok a later
      rw [arrived]
      decide

end ColdStart
