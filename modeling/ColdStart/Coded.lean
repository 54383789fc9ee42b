/-! Types whose values are encodings of a register field. Each value has a code
and a name; a code that no value has is refused with the type's own name. What is
relied on of such a type is that its values are all listed and that no two of them
have one code; a conversion from numbers is then known by what it has to do. -/
namespace ColdStart

/-- A finite type of encodings. -/
class Coded (α : Type) where
  kind : String
  all : List α
  code : α → Nat
  label : α → String

/-- The list of values is complete, and a code is the code of one value only. -/
class LawfulCoded (α : Type) [Coded α] : Prop where
  mem_all : ∀ a : α, a ∈ (Coded.all : List α)
  code_injective : ∀ {a b : α}, Coded.code a = Coded.code b → a = b

/-- A number that encodes no value of the type called `kind`. -/
structure UnknownCode where
  kind : String
  value : Nat
deriving DecidableEq

def UnknownCode.message (e : UnknownCode) : String :=
  "No discriminant in enum `" ++ e.kind ++ "` matches the value `" ++ toString e.value ++ "`"

namespace Coded
variable {α : Type} [Coded α]

def ofCode? (α : Type) [Coded α] (n : Nat) : Except UnknownCode α :=
  match (all : List α).find? fun a => code a == n with
  | some a => .ok a
  | none => .error ⟨kind α, n⟩

/-- The value whose label is `name`. -/
def ofLabel? (α : Type) [Coded α] (name : String) : Option α :=
  (all : List α).find? fun a => label a == name

/-- What a conversion of numbers into encodings has to do. -/
structure Converts (α : Type) [Coded α] (convert : Nat → Except UnknownCode α) : Prop where
  accepts : ∀ a : α, convert (code a) = .ok a
  refuses : ∀ n, (∀ a : α, code a ≠ n) → convert n = .error ⟨kind α, n⟩

theorem converts_ofCode? [LawfulCoded α] : Converts α (ofCode? α) where
  accepts a := by
    unfold ofCode?
    split
    · rename_i b hit
      have same := List.find?_some hit
      rw [LawfulCoded.code_injective (beq_iff_eq.mp same)]
    · rename_i missed
      have other := List.find?_eq_none.mp missed a (LawfulCoded.mem_all a)
      exact absurd (beq_self_eq_true (code a)) other
  refuses n none := by
    unfold ofCode?
    split
    · rename_i b hit
      have same := List.find?_some hit
      exact absurd (beq_iff_eq.mp same) (none b)
    · rfl

/-- What it has to do leaves a conversion no choice. -/
theorem Converts.eq_ofCode? [LawfulCoded α] {convert : Nat → Except UnknownCode α}
    (converts : Converts α convert) : convert = ofCode? α := by
  funext n
  by_cases known : ∃ a : α, code a = n
  · obtain ⟨a, rfl⟩ := known
    rw [converts.accepts, converts_ofCode?.accepts]
  · have none (a : α) : code a ≠ n := fun same => known ⟨a, same⟩
    rw [converts.refuses n none, converts_ofCode?.refuses n none]

@[simp] theorem ofCode?_code [LawfulCoded α] (a : α) : ofCode? α (code a) = .ok a :=
  converts_ofCode?.accepts a

end Coded
end ColdStart
