import ColdStart.Interrupts
import ColdStart.Proofs.Machine.Architecture

/-! Sections in which interrupts are masked, on the core of the architecture. A program is
a tree of sections of both kinds around bodies that may do anything to the core, the masks
included. It is run by the code of the sections, once as it is and once with a report of
the core at the edges of every section. The reports say that sections lose nothing: each
body begins with IRQ and FIQ masked, and each section ends with these two as they were
before it and with the other two as its body left them. -/
namespace ColdStart

/-- The masks that are put into the mask register are two of its four. -/
theorem Masks.ofWord_put (w : Word) (irq fiq : Bool) :
    ofWord (Daif.f.put (Daif.i.put w irq) fiq) = { ofWord w with irq := irq, fiq := fiq } := by
  have parts (w : Word) :
      ofWord w = ⟨Daif.d.test w, Daif.a.test w, Daif.i.test w, Daif.f.test w⟩ := rfl
  rw [parts, parts]
  simp (disch := decide) only [Field.put, Field.test_write_of_apart, Field.test_write]
  cases irq <;> cases fiq <;> rfl

namespace Interrupts

/-- A way to run a body in a section. -/
abbrev Around := ∀ β : Type, StateM A64Core β → StateM A64Core β

/-- A section masks IRQ and FIQ, runs the body once and gives its value, and puts these
two masks back as they were. -/
def Guarded (around : Around) : Prop :=
  ∀ c : A64Core, ∃ (opened : A64Core) (close : A64Core → A64Core),
    opened.masks = { c.masks with irq := true, fiq := true } ∧
    (∀ d, (close d).masks = { d.masks with irq := c.masks.irq, fiq := c.masks.fiq }) ∧
    ∀ (β : Type) (body : StateM A64Core β),
      around β body c = ((body opened).1, close (body opened).2)

/-- Restoring merges the saved masks of IRQ and FIQ with the others as they are now. -/
theorem restore_on (saved : Value .daif) (d : A64Core) :
    ((restore saved : StateM A64Core Unit) d).2.masks =
      { d.masks with irq := saved.test Daif.i, fiq := saved.test Daif.f } := by
  change Masks.ofWord (Daif.f.put (Daif.i.put d.masks.word (saved.test Daif.i))
    (saved.test Daif.f)) = _
  rw [Masks.ofWord_put, Masks.ofWord_word]

theorem test_word (m : Masks) : (⟨m.word⟩ : Value .daif).test Daif.i = m.irq ∧
    (⟨m.word⟩ : Value .daif).test Daif.f = m.fiq :=
  ⟨congrArg Masks.irq m.ofWord_word, congrArg Masks.fiq m.ofWord_word⟩

/-- The token has room for the two masks that are restored. -/
theorem Token.test_toMasks (saved : Value .daif) :
    (Token.ofMasks saved).toMasks.test Daif.i = saved.test Daif.i ∧
      (Token.ofMasks saved).toMasks.test Daif.f = saved.test Daif.f := by
  rw [Token.ofMasks]
  cases saved.test Daif.i <;> cases saved.test Daif.f <;> decide

theorem guarded_without : Guarded fun _ => without := by
  intro c
  refine ⟨((save : StateM A64Core (Value .daif)) c).2,
    fun d => ((restore ⟨c.masks.word⟩ : StateM A64Core Unit) d).2, rfl, ?_, fun _ _ => rfl⟩
  intro d
  obtain ⟨irq, fiq⟩ := test_word c.masks
  rw [restore_on, irq, fiq]

theorem guarded_within : Guarded fun _ => within := by
  intro c
  refine ⟨((enter : StateM A64Core Token) c).2,
    fun d => ((leave (Token.ofMasks ⟨c.masks.word⟩) : StateM A64Core Unit) d).2, rfl, ?_,
    fun _ _ => rfl⟩
  intro d
  obtain ⟨irq, fiq⟩ := test_word c.masks
  obtain ⟨irqKept, fiqKept⟩ := Token.test_toMasks ⟨c.masks.word⟩
  rw [leave, restore_on, irqKept, fiqKept, irq, fiq]

/-- The core at the four edges of a section. -/
structure Section where
  before : A64Core
  opened : A64Core
  closing : A64Core
  after : A64Core

/-- Opening masks two masks and closing puts these two back; the other two are the body's. -/
structure Section.Lossless (s : Section) : Prop where
  opened : s.opened.masks = { s.before.masks with irq := true, fiq := true }
  after : s.after.masks =
    { s.closing.masks with irq := s.before.masks.irq, fiq := s.before.masks.fiq }

/-- Programs with sections: around a body by one call, or opened and closed by hand. -/
inductive Nesting : Type → Type 1
  | act {α : Type} (x : StateM A64Core α) : Nesting α
  | bind {α β : Type} (x : Nesting α) (next : α → Nesting β) : Nesting β
  | free {α : Type} (body : Nesting α) : Nesting α
  | held {α : Type} (body : Nesting α) : Nesting α

/-- A section with a report of it before the reports of its body. -/
def watched {α : Type} (around : Around) (body : StateM A64Core (α × List Section)) :
    StateM A64Core (α × List Section) := do
  let before ← get
  let (opened, (value, inner), closing) ← around _ do
    let opened ← get
    let result ← body
    let closing ← get
    return (opened, result, closing)
  let after ← get
  return (value, ⟨before, opened, closing, after⟩ :: inner)

namespace Nesting
variable {α : Type}

def run {α : Type} : Nesting α → StateM A64Core α
  | act x => x
  | bind x next => do
    let a ← x.run
    (next a).run
  | free body => without body.run
  | held body => within body.run

/-- Runs a program with a report of every section, outer ones first. -/
def observe {α : Type} : Nesting α → StateM A64Core (α × List Section)
  | act x => do
    let a ← x
    return (a, [])
  | bind x next => do
    let (a, first) ← x.observe
    let (b, rest) ← (next a).observe
    return (b, first ++ rest)
  | free body => watched (fun _ => without) body.observe
  | held body => watched (fun _ => within) body.observe

end Nesting

/-- A watched program does what the plain one does, and its reports lose nothing. -/
structure Reports {α : Type} (watching : StateM A64Core (α × List Section))
    (plain : StateM A64Core α) : Prop where
  same : ∀ c, ((watching c).1.1, (watching c).2) = plain c
  lossless : ∀ c, ∀ s ∈ (watching c).1.2, s.Lossless

section
variable {α : Type} {around : Around}

/-- A guarded section is reported first, as it went on the plain body. -/
theorem Guarded.watched (guarded : Guarded around)
    {watching : StateM A64Core (α × List Section)} {plain : StateM A64Core α}
    (inner : Reports watching plain) (c : A64Core) :
    ∃ s : Section, s.Lossless ∧ s.before = c ∧ around α plain c = ((plain s.opened).1, s.after) ∧
      (plain s.opened).2 = s.closing ∧ Interrupts.watched around watching c =
        (((plain s.opened).1, s :: (watching s.opened).1.2), s.after) := by
  obtain ⟨opened, close, masked, restored, runs⟩ := guarded c
  have same := inner.same opened
  refine ⟨⟨c, opened, (plain opened).2, close (plain opened).2⟩, ⟨masked, restored _⟩, rfl,
    runs α plain, rfl, ?_⟩
  -- To the section the report is a part of the body's value, so what is known of the
  -- section for any body applies to the watched one.
  change (let ran := around _ (do
      let opened ← get
      let result ← watching
      let closing ← get
      return (opened, result, closing)) c
    ((ran.1.2.1.1, (⟨c, ran.1.1, ran.1.2.2, ran.2⟩ : Section) :: ran.1.2.1.2), ran.2)) = _
  rw [runs, ← same]
  rfl

theorem Guarded.reports (guarded : Guarded around)
    {watching : StateM A64Core (α × List Section)} {plain : StateM A64Core α}
    (inner : Reports watching plain) :
    Reports (Interrupts.watched around watching) (around α plain) where
  same c := by
    obtain ⟨s, _, _, ran, _, watched⟩ := guarded.watched inner c
    rw [watched, ran]
  lossless c := by
    obtain ⟨s, lossless, _, _, _, watched⟩ := guarded.watched inner c
    rw [watched]
    exact List.forall_mem_cons.mpr ⟨lossless, inner.lossless s.opened⟩

end

namespace Nesting
variable {α : Type}

theorem reports (program : Nesting α) : Reports program.observe program.run := by
  induction program with
  | act x => exact ⟨fun _ => rfl, fun _ _ none => nomatch none⟩
  | bind x next first rest =>
    constructor
    · intro c
      change (((((next (x.observe c).1.1).observe (x.observe c).2).1.1),
        ((next (x.observe c).1.1).observe (x.observe c).2).2)) =
          (next (x.run c).1).run (x.run c).2
      rw [(rest _).same, ← first.same]
    · intro c
      exact List.forall_mem_append.mpr ⟨first.lossless c, (rest _).lossless _⟩
  | free body inner => exact guarded_without.reports inner
  | held body inner => exact guarded_within.reports inner

/-- Every section of every program, from any core, begins with IRQ and FIQ masked and ends
with these two as they were before it and the others as its body left them; and the body
of a section gives the value of the section. -/
theorem sections_lossless (program : Nesting α) (c : A64Core) :
    ((program.observe c).1.1, (program.observe c).2) = program.run c ∧
      (∀ s ∈ (program.observe c).1.2, s.Lossless) ∧
      ∃ s inner, ((free program).observe c).1.2 = s :: inner ∧ s.before = c ∧
        program.run s.opened = (((free program).run c).1, s.closing) ∧
        s.after = ((free program).run c).2 := by
  refine ⟨program.reports.same c, program.reports.lossless c, ?_⟩
  obtain ⟨s, _, before, ran, closing, watched⟩ := guarded_without.watched program.reports c
  have whole : (free program).run c = _ := ran
  refine ⟨s, (program.observe s.opened).1.2, ?_, before, ?_, ?_⟩
  · exact congrArg (fun ran => ran.1.2) watched
  · rw [whole, ← closing]
    rfl
  · rw [whole]

end Nesting

end Interrupts

end ColdStart
