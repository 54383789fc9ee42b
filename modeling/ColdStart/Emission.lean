import ColdStart.Halt

/-! Computations that emit. An emission is a list of things done, in order, and
how the computation that did them ended. Where one halts, what it emitted before
stays emitted. The two projections of a sequence are given as equations, so that
a proof about what is done never unfolds the sequencing. -/
namespace ColdStart

structure Emission (ε α : Type) where
  emitted : List ε
  outcome : Except Halt α

namespace Emission
variable {ε α β : Type}

def emit (e : ε) : Emission ε Unit :=
  ⟨[e], .ok ()⟩

/-- A result computed without emitting anything. -/
def ofExcept (x : Except Halt α) : Emission ε α :=
  ⟨[], x⟩

instance : Monad (Emission ε) where
  pure a := ⟨[], .ok a⟩
  bind x f :=
    match x.outcome with
    | .ok a => ⟨x.emitted ++ (f a).emitted, (f a).outcome⟩
    | .error halt => ⟨x.emitted, .error halt⟩

instance : MonadLift (Except Halt) (Emission ε) where
  monadLift := ofExcept

@[simp] theorem emitted_pure (a : α) : (pure a : Emission ε α).emitted = [] := rfl

@[simp] theorem outcome_pure (a : α) : (pure a : Emission ε α).outcome = .ok a := rfl

theorem bind_of_ok {x : Emission ε α} {a : α} (ended : x.outcome = .ok a) (f : α → Emission ε β) :
    (x >>= f) = ⟨x.emitted ++ (f a).emitted, (f a).outcome⟩ := by
  simp only [bind, ended]

theorem bind_of_error {x : Emission ε α} {halt : Halt} (ended : x.outcome = .error halt)
    (f : α → Emission ε β) : (x >>= f) = ⟨x.emitted, .error halt⟩ := by
  simp only [bind, ended]

theorem lift_ok_bind (a : α) (f : α → Emission ε β) :
    ((liftM (Except.ok a : Except Halt α) : Emission ε α) >>= f) = f a := rfl

theorem mk_ok_bind (emitted : List ε) (a : α) (f : α → Emission ε β) :
    ((⟨emitted, .ok a⟩ : Emission ε α) >>= f) = ⟨emitted ++ (f a).emitted, (f a).outcome⟩ := rfl

/-- Steps that all end well emit one after another. -/
theorem foldlM_of_ok {xs : List α} {f : β → α → Emission ε β} {next : β → α → β} {g : α → List ε}
    (steps : ∀ b, ∀ x ∈ xs, f b x = ⟨g x, .ok (next b x)⟩) (b : β) :
    xs.foldlM f b = ⟨xs.flatMap g, .ok (xs.foldl next b)⟩ := by
  induction xs generalizing b with
  | nil => rfl
  | cons x xs ih =>
    have tail := ih (fun b y member => steps b y (List.mem_cons_of_mem _ member)) (next b x)
    rw [List.foldlM_cons, steps b x List.mem_cons_self, bind_of_ok rfl, tail]
    rfl

/-- Steps that end well or halt in one way halt the sequence if one of them always halts. -/
theorem foldlM_of_error {xs : List α} {f : β → α → Emission ε β} {next : β → α → β} {halt : Halt}
    (steps : ∀ b, ∀ x ∈ xs, (f b x).outcome = .ok (next b x) ∨ (f b x).outcome = .error halt)
    (halts : ∃ x ∈ xs, ∀ b, (f b x).outcome = .error halt) (b : β) :
    (xs.foldlM f b).outcome = .error halt := by
  induction xs generalizing b with
  | nil =>
    obtain ⟨x, member, _⟩ := halts
    nomatch member
  | cons x xs ih =>
    rw [List.foldlM_cons]
    rcases steps b x List.mem_cons_self with ended | halted
    · rw [bind_of_ok ended]
      refine ih (fun b y member => steps b y (List.mem_cons_of_mem _ member)) ?_ _
      obtain ⟨y, member, always⟩ := halts
      rcases List.mem_cons.mp member with rfl | later
      · rw [always b] at ended
        nomatch ended
      · exact ⟨y, later, always⟩
    · rw [bind_of_error halted]

theorem forM_of_ok {xs : List α} {f : α → Emission ε Unit} {g : α → List ε}
    (steps : ∀ x ∈ xs, f x = ⟨g x, .ok ()⟩) : xs.forM f = ⟨xs.flatMap g, .ok ()⟩ := by
  induction xs with
  | nil => rfl
  | cons x xs ih =>
    have tail := ih fun y member => steps y (List.mem_cons_of_mem _ member)
    change (f x >>= fun _ => xs.forM f) = _
    rw [steps x List.mem_cons_self, bind_of_ok rfl, tail]
    rfl

instance : LawfulMonad (Emission ε) :=
  LawfulMonad.mk' _
    (by
      rintro α ⟨emitted, _ | _⟩
      · rfl
      · simp [Functor.map])
    (fun _ _ => rfl)
    (by
      rintro α β γ ⟨emitted, _ | a⟩ f g
      · rfl
      · cases next : (f a).outcome <;> simp [bind, next])

end Emission
end ColdStart
