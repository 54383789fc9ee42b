import ColdStart.Proofs.Boot.Independence
import Mathlib.Logic.Function.Iterate

/-! Turning translation on again and again. An activation reads the system control back
from the core and changes three of its bits, so what it writes depends on what the core
holds, and after it the core holds something else. Yet the three bits are set to constants:
the system control that the first time has left gives the same one the second time, and
every later time repeats the writes of the first, each of a word that is there already. -/
namespace ColdStart

namespace RegisterFile
variable {κ : Type} [DecidableEq κ] {k : κ} {w : Word}

theorem put_eq_self {entries : List (κ × Word)} (held : find k entries = some w) :
    put k w entries = entries := by
  induction entries with
  | nil => nomatch held
  | cons e rest ih =>
    rw [find] at held
    rw [put]
    split at held
    · rename_i here
      cases held
      rw [if_pos here, ← here]
    · rename_i elsewhere
      rw [if_neg elsewhere, ih held]

/-- A store of the word that is there already changes nothing. -/
theorem set_eq_self {file : RegisterFile κ} (held : file.get? k = some w) : file.set k w = file :=
  congrArg mk (put_eq_self held)

end RegisterFile

/-- A write of the word that is there already, or a barrier. -/
def Event.Repeats (registers : RegisterFile SystemRegister) : Event → Prop
  | .write r w => registers.get? r = some w
  | .barrier _ => True
  | .exceptionReturn _ _ | .store _ => False

namespace ModelCore
variable {m : ModelCore} {e : Event} {events : List Event}

theorem happen_of_repeats (repeats : e.Repeats m.registers) :
    m.happen e = { m with trace := m.trace ++ [e] } := by
  cases e with
  | write r w => rw [happen, RegisterFile.set_eq_self repeats]
  | barrier => rfl
  | exceptionReturn | store => contradiction

/-- Events that repeat what is there leave no mark but in the trace. -/
theorem after_of_repeats (repeats : ∀ e ∈ events, e.Repeats m.registers) :
    m.after events = { m with trace := m.trace ++ events } := by
  induction events generalizing m with
  | nil =>
    rw [List.append_nil]
    rfl
  | cons e rest ih =>
    obtain ⟨first, later⟩ := List.forall_mem_cons.mp repeats
    have onward := @ih { m with trace := m.trace ++ [e] } later
    rw [after_cons, happen_of_repeats first, onward, List.append_assoc, List.singleton_append]

end ModelCore

namespace Activation
variable (a : Activation) (before : Value .sctlrEl1) (m : ModelCore)

/-- Of the system control three bits are set to constants, and the others are kept. -/
theorem getLsbD_enabled {bit : Nat} (inside : bit < 64) : (enabled before).word.getLsbD bit =
    if SctlrEl1.i.Holds bit then false else if SctlrEl1.c.Holds bit then false
      else if SctlrEl1.m.Holds bit then true else before.word.getLsbD bit := by
  rw [enabled, Value.put, Value.put, Value.put, Field.getLsbD_put _ _ _ rfl inside,
    Field.getLsbD_put _ _ _ rfl inside, Field.getLsbD_put _ _ _ rfl inside]

theorem enabled_enabled : enabled (enabled before) = enabled before := by
  have words : (enabled (enabled before)).word = (enabled before).word := by
    apply BitVec.eq_of_getLsbD_eq
    intro bit inside
    rw [getLsbD_enabled _ inside, getLsbD_enabled _ inside]
    split
    · rfl
    · split
      · rfl
      · split <;> rfl
  exact congrArg Value.mk words

/-- What is written goes by the system control that the activation leaves. -/
theorem events_enabled : a.events (enabled before) = a.events before := by
  rw [events, enabled_enabled, events]

/-- No register is written twice, so each holds afterwards the word of its write. -/
theorem repeats_after {e : Event} (member : e ∈ a.events before) :
    e.Repeats (m.after (a.events before)).registers := by
  have last (r : SystemRegister) (w : Word) (listed : .write r w ∈ a.events before) :
      Event.lastWritten? r (a.events before) = some w := by
    simp only [events, List.mem_cons, List.not_mem_nil, or_false, false_or, reduceCtorEq,
      Event.write.injEq] at listed
    rcases listed with ⟨rfl, rfl⟩ | ⟨rfl, rfl⟩ | ⟨rfl, rfl⟩ | ⟨rfl, rfl⟩ | ⟨rfl, rfl⟩ <;> rfl
  cases e with
  | write r w =>
    rw [Event.Repeats, ModelCore.get?_after, last r w member]
    rfl
  | barrier => trivial
  | exceptionReturn | store => simp [events] at member

theorem get?_sctlr_after : (m.after (a.events before)).registers.get? .sctlrEl1 =
    some (enabled before).word := by
  rw [ModelCore.get?_after]
  rfl

/-- Of the rest of the core an activation changes nothing. -/
theorem after_events : m.after (a.events before) =
    { m with
      registers := (m.after (a.events before)).registers
      trace := m.trace ++ a.events before } := by
  simp only [events, ModelCore.after, List.foldl_cons, List.foldl_nil, ModelCore.happen,
    List.append_assoc, List.cons_append, List.nil_append]

/-- The core after `n` activations, one after another. -/
def enabledTimes (n : Nat) : ModelCore :=
  (fun c => ((a.enable : StateM ModelCore (Value .sctlrEl1)) c).2)^[n] m

/-- One activation more, whatever their number: the registers are those that the first has
left, and the trace has grown by the events of the first. -/
theorem enable_enabledTimes (n : Nat) :
    (a.enable : StateM ModelCore (Value .sctlrEl1)) (a.enabledTimes m n) =
      (enabled ⟨m.registers.read .sctlrEl1⟩,
        { m with
          registers := (m.after (a.events ⟨m.registers.read .sctlrEl1⟩)).registers
          trace := m.trace ++
            (List.replicate (n + 1) (a.events ⟨m.registers.read .sctlrEl1⟩)).flatten }) := by
  generalize control : (⟨m.registers.read .sctlrEl1⟩ : Value .sctlrEl1) = before
  induction n with
  | zero =>
    rw [List.replicate_one, List.flatten_singleton, ← after_events, ← control]
    exact a.enable_on m
  | succ n ih =>
    have reached : a.enabledTimes m (n + 1) = _ :=
      (Function.iterate_succ_apply' _ n m).trans (congrArg Prod.snd ih)
    have left : (⟨(m.after (a.events before)).registers.read .sctlrEl1⟩ : Value .sctlrEl1) =
        enabled before := by
      rw [RegisterFile.read, get?_sctlr_after]
      rfl
    rw [reached, enable_on]
    dsimp only
    rw [left, enabled_enabled, events_enabled, ModelCore.after_of_repeats, List.append_assoc,
      List.replicate_succ' (n := n + 1), List.flatten_append, List.flatten_singleton]
    exact fun e member => a.repeats_after before m member

/-- Turning translation on changes the registers that the walker goes by and the system
control, and nothing else of the core but its trace. The system control it gives is the one
it leaves: translation is on, both caches are off, and the other bits are those of before.
Done over and over, it gives the same again, by the events of the first time, and leaves the
registers as the first time has left them. -/
theorem enable_repeatable (a : Activation) (m : ModelCore) :
    ∃ (after : Value .sctlrEl1) (registers : RegisterFile SystemRegister),
      (∀ n, (a.enable : StateM ModelCore (Value .sctlrEl1)) (a.enabledTimes m n) =
        (after, { m with
          registers := registers
          trace := m.trace ++
            (List.replicate (n + 1) (a.events ⟨m.registers.read .sctlrEl1⟩)).flatten })) ∧
      (∀ r, r ∉ [.mairEl1, .ttbr0El1, .ttbr1El1, .tcrEl1, .sctlrEl1] →
        registers.get? r = m.registers.get? r) ∧
      registers.get? .sctlrEl1 = some after.word ∧
      after.test SctlrEl1.m = true ∧ after.test SctlrEl1.c = false ∧
      after.test SctlrEl1.i = false ∧
      ∀ bit < 64, ¬ SctlrEl1.m.Holds bit → ¬ SctlrEl1.c.Holds bit → ¬ SctlrEl1.i.Holds bit →
        after.word.getLsbD bit = (m.registers.read .sctlrEl1).getLsbD bit := by
  refine ⟨_, _, a.enable_enabledTimes m, fun r unlisted => ?_, get?_sctlr_after _ _ _, ?_, ?_, ?_,
    fun bit inside translation data instruction => ?_⟩
  · have unwritten : r ∉ Activation.registers := by
      simp only [Activation.registers, List.mem_cons, List.not_mem_nil, or_false] at unlisted ⊢
      tauto
    rw [ModelCore.get?_after, (a.lastWritten?_eq_none_iff _ r).mpr unwritten]
    rfl
  · exact (getLsbD_enabled _ (by decide)).trans rfl
  · exact (getLsbD_enabled _ (by decide)).trans rfl
  · exact (getLsbD_enabled _ (by decide)).trans rfl
  · rw [getLsbD_enabled _ inside, if_neg instruction, if_neg data, if_neg translation]

end Activation
end ColdStart
