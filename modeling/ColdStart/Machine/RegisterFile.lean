import ColdStart.Address.Geometry

/-! Register files: the words stored so far under the names of registers, in the
order of their first store. What a file says is its view `get?`; a store changes
the view at its own name only. -/
namespace ColdStart

structure RegisterFile (κ : Type) where
  entries : List (κ × Word)

namespace RegisterFile
variable {κ : Type} [DecidableEq κ]

def empty : RegisterFile κ :=
  ⟨[]⟩

/-- The word stored under a name, in a list of entries. -/
def find (k : κ) : List (κ × Word) → Option Word
  | [] => none
  | e :: rest => if e.1 = k then some e.2 else find k rest

/-- The entries with one replaced, or added at the end. -/
def put (k : κ) (w : Word) : List (κ × Word) → List (κ × Word)
  | [] => [(k, w)]
  | e :: rest => if e.1 = k then (k, w) :: rest else e :: put k w rest

def get? (file : RegisterFile κ) (k : κ) : Option Word :=
  find k file.entries

def set (file : RegisterFile κ) (k : κ) (w : Word) : RegisterFile κ :=
  ⟨put k w file.entries⟩

/-- A register that was never stored reads as zero. -/
def read (file : RegisterFile κ) (k : κ) : Word :=
  (file.get? k).getD 0

def ofList (entries : List (κ × Word)) : RegisterFile κ :=
  entries.foldl (fun file e => file.set e.1 e.2) empty

theorem find_put (k l : κ) (w : Word) (entries : List (κ × Word)) :
    find l (put k w entries) = if k = l then some w else find l entries := by
  induction entries with
  | nil => simp [put, find]
  | cons e rest ih =>
    by_cases here : e.1 = k
    · subst here
      by_cases asked : e.1 = l <;> simp [put, find, asked]
    · by_cases asked : e.1 = l
      · subst asked
        simp [put, find, here, Ne.symm here]
      · simp [put, find, here, asked, ih]

theorem get?_set (file : RegisterFile κ) (k l : κ) (w : Word) :
    (file.set k w).get? l = if k = l then some w else file.get? l :=
  find_put k l w file.entries

theorem read_set (file : RegisterFile κ) (k l : κ) (w : Word) :
    (file.set k w).read l = if k = l then w else file.read l := by
  simp only [read, get?_set]
  split <;> rfl

end RegisterFile
end ColdStart
