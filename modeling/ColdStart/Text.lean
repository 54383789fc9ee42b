/-! Spellings shared by every printed value: numbers in a base, and the two
bracketed forms. A record names its members with a colon and separates them
with commas; a register names its fields with an equals sign and separates them
with blanks. Nothing here knows what is printed. -/
namespace ColdStart.Text

/-- Lower-case hexadecimal without leading zeros, marked `0x`. -/
def hex (n : Nat) : String :=
  "0x" ++ String.ofList (Nat.toDigits 16 n)

/-- Digits of `n` in `base`, filled up with zeros on the left to `width`. -/
def filled (base width n : Nat) : String :=
  let digits := Nat.toDigits base n
  String.ofList (List.replicate (width - digits.length) '0' ++ digits)

def hexFilled (width n : Nat) : String :=
  "0x" ++ filled 16 width n

def binFilled (width n : Nat) : String :=
  "0b" ++ filled 2 width n

def bit (b : Bool) : String :=
  if b then "1" else "0"

def braced (name : String) (inside : String) : String :=
  name ++ " \x7b " ++ inside ++ " \x7d"

/-- `Name { a: 1, b: 2 }`. -/
def record (name : String) (members : List (String × String)) : String :=
  braced name (", ".intercalate (members.map fun m => m.1 ++ ": " ++ m.2))

/-- `NAME { A=1 B=2 }`. -/
def register (name : String) (fields : List (String × String)) : String :=
  braced name (" ".intercalate (fields.map fun f => f.1 ++ "=" ++ f.2))

/-- `Name(a)`. -/
def applied (name inside : String) : String :=
  name ++ "(" ++ inside ++ ")"

def optional (text : α → String) : Option α → String
  | none => "None"
  | some a => applied "Some" (text a)

/-- An answer, or the number that has no answer. -/
def answered (text : α → String) : Except Nat α → String
  | .ok a => applied "Ok" (text a)
  | .error n => applied "Err" (toString n)

def listed (items : List String) : String :=
  "[" ++ ", ".intercalate items ++ "]"

end ColdStart.Text
