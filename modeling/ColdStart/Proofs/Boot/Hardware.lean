import ColdStart.Proofs.Machine.Mirroring
import ColdStart.Proofs.Privilege.Descending

/-! A boot on the core of the architecture. The parts of a boot agree with their runs on
the model core, the operations one by one and the exits one level at a time, because an
exit counts on being at the level that it leaves. The whole boot then agrees from any
state on: whatever the registers, the stack pointers, the tables and the addresses of the
code are. -/
namespace ColdStart

variable {α β : Type} {c : A64Core} {m : ModelCore}

/-- The two programs agree from all states that mirror one another. -/
def Alike (x : StateM A64Core α) (y : StateM ModelCore α) : Prop :=
  ∀ c m, Mirrors c m → Agree c m (x c) (y m)

namespace Alike

theorem pure (a : α) : Alike (pure a) (pure a) :=
  fun _ _ mirrors => Agree.answering mirrors a

theorem bind {x : StateM A64Core α} {y : StateM ModelCore α} {f : α → StateM A64Core β}
    {g : α → StateM ModelCore β} (first : Alike x y) (rest : ∀ a, Alike (f a) (g a)) :
    Alike (x >>= f) (y >>= g) :=
  fun c m mirrors => (first c m mirrors).bind (rest _ _ _ (first c m mirrors).mirrors)

theorem write {r : SystemRegister} (programmed : r ∈ SystemRegister.programmed) (w : Word) :
    Alike (Core.write r w) (Core.write r w) :=
  fun _ _ mirrors => agree_write mirrors programmed w

theorem barrier (b : Barrier) : Alike (Core.barrier b) (Core.barrier b) :=
  fun _ _ mirrors => agree_barrier mirrors b

theorem configure (e : Exit) : Alike e.configure e.configure := by
  cases e with
  | el3 scr sctlr status =>
    exact bind (write (by decide) _) fun _ => write (by decide) _
  | el2 hcr timer offset status =>
    exact bind (write (by decide) _) fun _ => bind (write (by decide) _) fun _ =>
      write (by decide) _
  | el1 status => exact pure ()

theorem enable (a : Activation) : Alike a.enable a.enable := by
  unfold Activation.enable
  refine bind (barrier _) fun _ => ?_
  refine bind (write (by decide) _) fun _ => bind (write (by decide) _) fun _ => ?_
  refine bind (write (by decide) _) fun _ => bind (write (by decide) _) fun _ => ?_
  refine bind (barrier _) fun _ => bind (barrier _) fun _ => bind (barrier _) fun _ => ?_
  refine bind (fun _ _ mirrors => agree_sctlr mirrors) fun before => ?_
  exact bind (write (by decide) _) fun _ => bind (barrier _) fun _ => pure _

end Alike

namespace Exit

/-- What is planned for a level leaves it for the one below. -/
theorem exists_of_leaving {level : Level} {e : Exit} (planned : leaving? level = some e) :
    ∃ lower r, level.below = some lower ∧ SystemRegister.savedStatus level = some r ∧
      e.source = level ∧ e.status = entering lower := by
  cases level <;> cases planned <;> exact ⟨_, _, rfl, rfl, rfl, rfl⟩

theorem level_configure (e : Exit) (m : ModelCore) :
    ((e.configure : StateM ModelCore Unit) m).2.level = m.level := by
  cases e <;> rfl

end Exit

/-- Leaving a level agrees on a core that is at it. -/
theorem agree_exit {level : Level} {e : Exit} (planned : Exit.leaving? level = some e)
    (mirrors : Mirrors c m) (here : m.level = level) : Agree c m (e.take c) (e.take m) := by
  obtain ⟨lower, r, below, saved, source, status⟩ := Exit.exists_of_leaving planned
  obtain ⟨_, programmed⟩ := ArchRegister.statusOf?_of_savedStatus saved
  have first := Alike.configure e c m mirrors
  have second := agree_write first.mirrors programmed (Exit.entering lower).word
  have third := agree_return second.mirrors ((Exit.level_configure e m).trans here) below saved
    ((RegisterFile.read_set ..).trans (if_pos rfl))
  have written {σ : Type} [Core σ] : (Core.writeStatus level (Exit.entering lower) : StateM σ Unit) =
      Core.write r (Exit.entering lower).word := by
    rw [Core.writeStatus, saved]
  unfold Exit.take
  rw [source, status, written, written]
  exact first.bind (second.bind third)

theorem agree_exits {start target : Level} {exits : List Exit} (leads : Leads start exits target)
    (mirrors : Mirrors c m) (here : m.level = start) :
    Agree c m ((exits.forM Exit.take : StateM A64Core Unit) c)
      ((exits.forM Exit.take : StateM ModelCore Unit) m) := by
  induction leads generalizing c m with
  | here level => exact Agree.answering mirrors ()
  | @exit level lower target exit rest planned next onwards ih =>
    have first := agree_exit planned mirrors here
    have below : ((exit.take : StateM ModelCore Unit) m).2.level = lower := by
      rw [Exit.take_on planned]
      cases level <;> cases planned <;> cases next <;> rfl
    exact first.bind (ih first.mirrors below)

theorem agree_descent {target : Level} {d : Descent}
    (planned : Descent.between? m.level target = .ok d) (mirrors : Mirrors c m) :
    Agree c m (d.take.on c) (d.take.on m) := by
  have leads := leads_of_planned planned
  have found := (agree_level mirrors).lift
  refine found.bind_on fun level _ => ?_
  have checked := Agree.computed found.mirrors
    (require (level == d.start) (.levelMismatch level d.start))
  refine checked.bind_on fun _ _ => ?_
  -- Neither looking nor a write moves the core, so the exits begin where the plan does.
  cases d.sctlr with
  | none =>
    have left := agree_exits leads checked.mirrors rfl
    exact left.lift.bind_on fun _ _ => (agree_level left.mirrors).lift
  | some v =>
    have off := agree_write checked.mirrors (r := .sctlrEl1) (by decide) v.word
    refine off.lift.bind_on fun _ _ => ?_
    have left := agree_exits leads off.mirrors rfl
    exact left.lift.bind_on fun _ _ => (agree_level left.mirrors).lift

theorem agree_perform (mirrors : Mirrors c m) (x : Emission Store α) :
    Agree c m ((Core.perform x).on c) ((Core.perform x).on m) := by
  have stored := (agree_store mirrors x.emitted).lift
  exact stored.bind_on fun _ _ => Agree.computed stored.mirrors x.outcome

namespace A64Core

/-- The model core at the same level with the same contents. -/
def image (c : A64Core) : ModelCore where
  level := c.level
  features := ⟨c.get (.system .idAa64Mmfr0El1)⟩
  registers := ⟨SystemRegister.programmed.map fun r => (r, c.get (.system r))⟩
  tables := c.tables
  trace := []

/-- Every core that is on its own stack pointer has an image. -/
theorem mirrors_image (ownStack : c.ownStack = decide (c.level ≠ .el0)) : Mirrors c c.image where
  level := rfl
  ownStack := ownStack
  features := rfl
  registers := by
    have found (rs : List SystemRegister) : ∀ r ∈ rs,
        RegisterFile.find r (rs.map fun r => (r, c.get (.system r))) = some (c.get (.system r)) := by
      induction rs with
      | nil => exact fun _ none => nomatch none
      | cons s rest ih =>
        intro r among
        by_cases first : s = r
        · rw [List.map_cons, RegisterFile.find, if_pos first, first]
        · rw [List.map_cons, RegisterFile.find, if_neg first]
          exact ih r (List.mem_of_ne_of_mem (Ne.symm first) among)
    intro r programmed
    rw [RegisterFile.read, RegisterFile.get?, image, found _ r programmed]
    rfl
  tables := rfl

end A64Core

/-- A boot on the core of the architecture, from any state and its image: the two answer
alike and end alike, what was executed are the model's writes, barriers and returns in
order, every return resumes after itself on the same stack, and nothing is written but
what these account for. -/
theorem agree_boot (p : Placement) (mirrors : Mirrors c m) :
    Agree c m ((boot p).on c) ((boot p).on m) := by
  have found := (agree_level mirrors).lift
  refine found.bind_on fun current here => ?_
  cases Except.ok.inj here
  have drawn := Agree.computed found.mirrors (Descent.plan? m.level Profile.kernelLevel)
  refine drawn.bind_on fun plan ended => ?_
  rw [Descent.plan?_on] at ended
  cases Except.ok.inj ended
  cases planned : Descent.between? m.level Profile.kernelLevel with
  | error e => exact Agree.answering drawn.mirrors _
  | ok d =>
    have features := (agree_features drawn.mirrors).lift
    refine features.bind_on fun described _ => ?_
    have judged := Agree.computed features.mirrors (Activation.forPlacement? described p)
    refine judged.bind_on fun verdict _ => ?_
    cases verdict with
    | error refusal => exact Agree.answering judged.mirrors _
    | ok activation =>
      have descended := agree_descent planned judged.mirrors
      refine descended.bind_on fun level _ => ?_
      have performed := agree_perform descended.mirrors (build p.partition p.tables)
      refine performed.bind_on fun tally _ => ?_
      have enabled := Alike.enable activation _ _ performed.mirrors
      exact enabled.lift.bind_on fun _ _ => Agree.answering enabled.mirrors _

/-- A core at a level on a stack of its own, with a sequence in every 256 bytes of its code
and zero in every other register. -/
def A64Core.initial (level : Level) (stack code : Word) : A64Core where
  level := level
  ownStack := decide (level ≠ .el0)
  masks := ⟨true, true, true, true⟩
  registers := RegisterFile.empty.set (.stackOf level) stack
  counter := code
  sites := fun n => code + BitVec.ofNat 64 (0x100 * n)
  translations := fun _ => 0
  tables := .empty
  log := []

theorem agree_boot_from_el3 : ∃ booted c',
    (boot ⟨.standard, ⟨0x100000⟩, ⟨0x80000, 0x90000⟩, ⟨0x70000, 0x80000⟩⟩).on
      (A64Core.initial .el3 0x80000 0x84000) = (.ok (.ok booted), c') ∧
    c'.level = .el1 ∧ ∀ act ∈ c'.log, act.Resumes := by
  obtain ⟨answer, mirrors, acts, carried, _⟩ := agree_boot
    ⟨.standard, ⟨0x100000⟩, ⟨0x80000, 0x90000⟩, ⟨0x70000, 0x80000⟩⟩
    (A64Core.mirrors_image (c := A64Core.initial .el3 0x80000 0x84000) rfl)
  obtain ⟨d, tally, planned, _, ran⟩ := boot_of_admissible
    (m := (A64Core.initial .el3 0x80000 0x84000).image) (by decide) Activation.admissible_standard
  rw [ran] at answer mirrors
  refine ⟨_, _, Prod.ext answer rfl, mirrors.level.trans (level_booted planned), ?_⟩
  rw [carried.log]
  exact carried.resumes

end ColdStart
