import ColdStart.Register.Paging
import ColdStart.Register.Status
import Mathlib.Data.List.Pairwise
import Mathlib.Tactic.NormNum

/-! Updates of words by their layouts. Whatever setter makes it, an update is one write to a
declared field of a value that the field has room for: also the saved mode, which is a write
to the mode bits, and an attribute byte, which is put into its slot by a shift and a mask of
its own. So one write is all that a list of updates repeats, and since declared fields share
no bit, each field ends with the last value given to it, or as it was, and the bits that no
field has are as they were. -/
namespace ColdStart

instance : Std.Symm Field.Apart :=
  ⟨fun _ _ => Or.symm⟩

theorem Layout.apart_of_ne {l : Layout} {f g : Field} (listed : f ∈ l.fields)
    (listed' : g ∈ l.fields) (other : f ≠ g) : f.Apart g :=
  l.fields_apart.2.forall listed listed' other

theorem Layout.within {l : Layout} {f : Field} (listed : f ∈ l.fields) : f.low + f.width ≤ 64 :=
  l.fields_apart.1 f listed

theorem Layout.narrow {l : Layout} {f : Field} (listed : f ∈ l.fields) : f.width ≤ 64 :=
  (Nat.le_add_left _ _).trans (l.within listed)

/-- Every field has a bit. -/
theorem Layout.width_pos {l : Layout} {f : Field} (listed : f ∈ l.fields) : 0 < f.width := by
  have all : ∀ f ∈ l.fields, 0 < f.width := by cases l <;> decide
  exact all f listed

theorem Field.fits_iff (f : Field) (v : Word) : f.Fits v ↔ v.toNat < 2 ^ f.width := by
  have shifted : (v >>> f.width).toNat = v.toNat / 2 ^ f.width := by
    rw [BitVec.toNat_ushiftRight, Nat.shiftRight_eq_div_pow]
  rw [Fits, ← BitVec.toNat_inj, shifted]
  exact Nat.div_eq_zero_iff_lt (Nat.two_pow_pos _)

theorem Field.fits_ofNat (f : Field) {n : Nat} (small : n < 2 ^ f.width) :
    f.Fits (BitVec.ofNat 64 n) :=
  (f.fits_iff _).mpr ((Nat.mod_le n (2 ^ 64)).trans_lt small)

theorem Field.admits_iff (f : Field) (narrow : f.width ≤ 64) {n : Nat} :
    f.Admits n ↔ n < 2 ^ f.width := by
  have greatest : f.greatest.toNat = 2 ^ f.width - 1 := by
    rw [Field.greatest, BitVec.toNat_setWidth_of_le narrow, BitVec.toNat_allOnes]
  rw [Admits, greatest, Nat.le_sub_one_iff_lt (Nat.two_pow_pos _)]

theorem Field.Admits.fits {f : Field} {w : Word} (room : f.Admits w.toNat)
    (narrow : f.width ≤ 64) : f.Fits w :=
  (f.fits_iff w).mpr ((f.admits_iff narrow).mp room)

theorem Field.Admits.fits_ofNat {f : Field} {n : Nat} (room : f.Admits n)
    (narrow : f.width ≤ 64) : f.Fits (BitVec.ofNat 64 n) :=
  f.fits_ofNat ((f.admits_iff narrow).mp room)

/-- The lowest bit of what is read. -/
theorem Field.test_eq_read (f : Field) (w : Word) (some : 0 < f.width) :
    f.test w = (f.read w).getLsbD 0 := by
  rw [getLsbD_read, decide_eq_true ⟨by decide, some⟩, Bool.true_and, Nat.add_zero, test]

namespace MairEl1

/-- The field that a slot is. -/
def slotField (slot : Nat) : Field :=
  ⟨"attr" ++ toString slot, 8 * slot, 8⟩

theorem slotField_mem {slot : Nat} (inside : slot < 8) :
    slotField slot ∈ Layout.mairEl1.fields := by
  have all : ∀ slot : Fin 8, slotField slot ∈ Layout.mairEl1.fields := by decide
  exact all ⟨slot, inside⟩

theorem toNat_byte (byte : BitVec 8) : (byte.setWidth 64).toNat = byte.toNat :=
  BitVec.toNat_setWidth_of_le (by decide)

theorem fits_byte (slot : Nat) (byte : BitVec 8) : (slotField slot).Fits (byte.setWidth 64) := by
  rw [Field.fits_iff, toNat_byte]
  exact byte.isLt

/-- The byte that is shifted into its slot is written to the field. -/
theorem replace_eq_write (v : Value .mairEl1) (slot : Nat) (byte : BitVec 8) :
    replace v slot byte = v.write (slotField slot) (byte.setWidth 64) := by
  have mask : (slotField slot).mask = (0xff : Word) <<< (8 * slot) := rfl
  have cut : byte.setWidth 64 &&& (0xff : Word) = byte.setWidth 64 := by
    apply BitVec.eq_of_toNat_eq
    rw [BitVec.toNat_and, toNat_byte]
    exact (Nat.and_two_pow_sub_one_eq_mod _ 8).trans (Nat.mod_eq_of_lt byte.isLt)
  unfold replace Value.write Field.write
  rw [mask, slotField, ← BitVec.shiftLeft_and_distrib, cut]

theorem withAttribute_eq_write (v : Value .mairEl1) {slot : Nat} (inside : slot < 8)
    (byte : BitVec 8) :
    withAttribute v slot byte = .ok (v.write (slotField slot) (byte.setWidth 64)) := by
  unfold withAttribute require
  rw [decide_eq_true inside, replace_eq_write]
  rfl

theorem attributeAt_eq_read (v : Value .mairEl1) {slot : Nat} (inside : slot < 8) :
    attributeAt v slot = .ok ((v.read (slotField slot)).setWidth 8) := by
  have same : (v.read (slotField slot)).setWidth 8 = (v.word >>> (8 * slot)).setWidth 8 :=
    BitVec.setWidth_setWidth_of_le _ (by decide)
  unfold attributeAt require
  rw [decide_eq_true inside, same]
  rfl

end MairEl1

namespace Spsr

theorem admits_mode (m : Mode) : modeRaw.Admits m.code :=
  (modeRaw.admits_iff (by decide)).mpr m.code_lt

/-- Every mode goes into the mode bits. -/
theorem enter?_mode (v : Value .spsr) (m : Mode) : v.enter? modeRaw m.code = .ok (withMode v m) :=
  Value.enter?_ok (admits_mode m)

/-- The mode that the mode bits name. -/
theorem mode_of_read {v : Value .spsr} {m : Mode} (bits : v.read modeRaw = BitVec.ofNat 64 m.code) :
    mode v = .ok m := by
  have code : (BitVec.ofNat 64 m.code).toNat = m.code :=
    Nat.mod_eq_of_lt (m.code_lt.trans (by decide))
  have decoded : Coded.ofCode? Mode m.code = .ok m := Coded.ofCode?_code m
  simp only [mode, bits, code, decoded]

end Spsr

/-- A call of a setter with an argument in its range. -/
inductive Update : Layout → Type
  | number {l : Layout} (f : Field) (listed : f ∈ l.fields) (w : Word) (fits : f.Fits w) : Update l
  | flag {l : Layout} (f : Field) (listed : f ∈ l.fields) (single : f.width = 1) (b : Bool) : Update l
  | mode (m : Mode) : Update .spsr
  | slot (n : Nat) (inside : n < 8) (byte : BitVec 8) : Update .mairEl1

namespace Update
variable {l : Layout}

/-- The update that enters a number. -/
def entered {f : Field} (listed : f ∈ l.fields) {n : Nat} (room : f.Admits n) : Update l :=
  number f listed (BitVec.ofNat 64 n) (room.fits_ofNat (Layout.narrow listed))

/-- What the setter does. -/
def perform (v : Value l) : Update l → Except Halt (Value l)
  | number f _ w _ => .ok (v.write f w)
  | flag f _ _ b => .ok (v.put f b)
  | mode m => .ok (Spsr.withMode v m)
  | slot n _ byte => MairEl1.withAttribute v n byte

def performAll (v : Value l) (us : List (Update l)) : Except Halt (Value l) :=
  us.foldlM perform v

/-- The field that the setter is for. -/
def field : Update l → Field
  | number f .. => f
  | flag f .. => f
  | mode _ => Spsr.modeRaw
  | slot n .. => MairEl1.slotField n

/-- The getter of the field gives the argument of the setter. -/
def ReadBack (v : Value l) : Update l → Prop
  | number f _ w _ => v.read f = w
  | flag f _ _ b => v.test f = b
  | mode m => Spsr.mode v = .ok m
  | slot n _ byte => MairEl1.attributeAt v n = .ok byte

/-- The argument as the bits of the field. -/
def value : Update l → Word
  | number _ _ w _ => w
  | flag _ _ _ b => if b then 1 else 0
  | mode m => BitVec.ofNat 64 m.code
  | slot _ _ byte => byte.setWidth 64

theorem listed : (u : Update l) → u.field ∈ l.fields
  | number _ listed .. => listed
  | flag _ listed .. => listed
  | mode _ => (by decide : Spsr.modeRaw ∈ Layout.spsr.fields)
  | slot _ inside _ => MairEl1.slotField_mem inside

theorem fits : (u : Update l) → u.field.Fits u.value
  | number _ _ _ fits => fits
  | flag f _ single b => by
    rw [Field.fits_iff, field, single, value]
    cases b <;> decide
  | mode m => (Spsr.admits_mode m).fits_ofNat (by decide)
  | slot n _ byte => MairEl1.fits_byte n byte

/-- Every setter writes its field. -/
theorem perform_eq (v : Value l) (u : Update l) :
    u.perform v = .ok (v.write u.field u.value) := by
  cases u with
  | number f listed w fits => rfl
  | flag f listed single b => rfl
  | mode m => rfl
  | slot n inside byte => exact MairEl1.withAttribute_eq_write v inside byte

/-- A field that holds the bits of the argument gives the argument back. -/
theorem readBack_of_read {v : Value l} (u : Update l) (held : v.read u.field = u.value) :
    u.ReadBack v := by
  cases u with
  | number f listed w fits => exact held
  | flag f listed single b =>
    have bit : v.test f = (v.read f).getLsbD 0 := f.test_eq_read v.word (by omega)
    rw [ReadBack, bit]
    rw [field, value] at held
    rw [held]
    cases b <;> rfl
  | mode m => exact Spsr.mode_of_read held
  | slot n inside byte =>
    rw [ReadBack, MairEl1.attributeAt_eq_read v inside]
    rw [field, value] at held
    rw [held, BitVec.setWidth_setWidth_of_le _ (by decide), BitVec.setWidth_eq]

/-- An update changes no other field. -/
theorem read_write_of_ne (v : Value l) (u : Update l) {f : Field} (listed : f ∈ l.fields)
    (other : u.field ≠ f) : (v.write u.field u.value).read f = v.read f :=
  f.read_write_of_apart u.field _ _ (Layout.within listed)
    (Layout.apart_of_ne listed u.listed other.symm)

theorem read_write_self (v : Value l) (u : Update l) :
    (v.write u.field u.value).read u.field = u.value :=
  u.field.read_write _ _ (Layout.within u.listed) u.fits

/-- The word after a list of updates. -/
def after (v : Value l) (us : List (Update l)) : Value l :=
  us.foldl (fun v u => v.write u.field u.value) v

theorem performAll_eq (v : Value l) (us : List (Update l)) :
    performAll v us = .ok (after v us) := by
  have steps : (fun v u => perform v u : Value l → Update l → Except Halt (Value l)) =
      fun v u => pure (v.write u.field u.value) :=
    funext fun v => funext fun u => perform_eq v u
  change us.foldlM (fun v u => perform v u) v = _
  rw [steps, List.foldlM_pure]
  rfl

theorem read_after_of_untouched {us : List (Update l)} {f : Field} (listed : f ∈ l.fields)
    (untouched : ∀ u ∈ us, u.field ≠ f) (v : Value l) : (after v us).read f = v.read f := by
  induction us generalizing v with
  | nil => rfl
  | cons u us ih =>
    have rest := ih (fun t member => untouched t (List.mem_cons_of_mem u member))
    exact (rest _).trans (u.read_write_of_ne v listed (untouched u List.mem_cons_self))

/-- The last update of a field decides what the field holds. -/
theorem read_after_of_last (before : List (Update l)) {later : List (Update l)} {u : Update l}
    (last : ∀ t ∈ later, t.field ≠ u.field) (v : Value l) :
    (after v (before ++ u :: later)).read u.field = u.value := by
  rw [after, List.foldl_append, List.foldl_cons]
  exact (read_after_of_untouched u.listed last _).trans (u.read_write_self _)

theorem getLsbD_after_of_undeclared {bit : Nat} (undeclared : Value.Undeclared l bit)
    (inside : bit < 64) (us : List (Update l)) (v : Value l) :
    (after v us).word.getLsbD bit = v.word.getLsbD bit := by
  induction us generalizing v with
  | nil => rfl
  | cons u us ih =>
    exact (ih _).trans (Value.getLsbD_write_undeclared u.listed undeclared inside _)

/-- What a list of updates is to make of a word. -/
structure Makes (v : Value l) (us : List (Update l)) (w : Value l) : Prop where
  last : ∀ before u later, us = before ++ u :: later → (∀ t ∈ later, t.field ≠ u.field) →
    w.read u.field = u.value ∧ u.ReadBack w
  untouched : ∀ f ∈ l.fields, (∀ u ∈ us, u.field ≠ f) → w.read f = v.read f ∧ w.test f = v.test f
  undeclared : ∀ bit < 64, Value.Undeclared l bit → w.word.getLsbD bit = v.word.getLsbD bit

theorem after_makes (v : Value l) (us : List (Update l)) : Makes v us (after v us) where
  last before u later parts others := by
    have held := read_after_of_last before others v
    rw [← parts] at held
    exact ⟨held, u.readBack_of_read held⟩
  untouched f listed others := by
    have kept := read_after_of_untouched listed others v
    have some := Layout.width_pos listed
    refine ⟨kept, ?_⟩
    rw [Value.test, Value.test, f.test_eq_read _ some, f.test_eq_read _ some]
    exact congrArg (BitVec.getLsbD · 0) kept
  undeclared _ inside undeclared := getLsbD_after_of_undeclared undeclared inside us v

/-- Where no two updates are of the same field, all of them are read back. -/
theorem Makes.readBack {v w : Value l} {us : List (Update l)} (made : Makes v us w)
    (distinct : (us.map field).Nodup) {u : Update l} (member : u ∈ us) : u.ReadBack w := by
  obtain ⟨before, later, rfl⟩ := List.append_of_mem member
  refine (made.last before u later rfl ?_).2
  intro t after same
  rw [List.map_append, List.map_cons] at distinct
  have fresh := (List.nodup_cons.mp (List.nodup_append.mp distinct).2.1).1
  exact fresh (same ▸ List.mem_map_of_mem after)

/-- Setters do not interfere. Any list of their calls goes through, on a word of any layout
that holds any bits, and leaves in each field what the last call for it gave, in the fields
that no call is for and in the bits that no field has what was there. The setter and the
getter of a slot of attributes are those of the field called so, and a saved mode that is
replaced is the new one, behind the same masks. -/
theorem setters_keep_apart :
    (∀ (l : Layout) (v : Value l) (us : List (Update l)),
      ∃ w, performAll v us = .ok w ∧ Makes v us w) ∧
    (∀ (v : Value .mairEl1) (n : Nat) (byte : BitVec 8), n < 8 →
      ∃ f ∈ Layout.mairEl1.fields, f.name = "attr" ++ toString n ∧
        MairEl1.withAttribute v n byte = .ok (v.write f (byte.setWidth 64)) ∧
        MairEl1.attributeAt v n = .ok ((v.read f).setWidth 8)) ∧
    (∀ (v : Value .spsr) (m : Mode), Spsr.mode (Spsr.withMode v m) = .ok m ∧
      ∀ f ∈ Layout.spsr.fields, f ≠ Spsr.modeRaw → (Spsr.withMode v m).test f = v.test f) := by
  refine ⟨?_, ?_, ?_⟩
  · intro l v us
    exact ⟨_, performAll_eq v us, after_makes v us⟩
  · intro v n byte inside
    exact ⟨MairEl1.slotField n, MairEl1.slotField_mem inside, rfl,
      MairEl1.withAttribute_eq_write v inside byte, MairEl1.attributeAt_eq_read v inside⟩
  · intro v m
    have made := after_makes v [mode m]
    refine ⟨(made.last [] (mode m) [] rfl (fun _ none => nomatch none)).2, ?_⟩
    intro f listed other
    exact (made.untouched f listed (by simpa [field] using other.symm)).2

/-- A mode that is set twice is the second, and what was masked in between stays masked. Bit 5,
which no field has, stays set. -/
theorem setters_keep_apart_in_status :
    ∃ w, performAll (⟨0x20⟩ : Value .spsr)
        [mode .el1h, flag Spsr.i (by decide) rfl true, mode .el2h] = .ok w ∧
      Spsr.mode w = .ok .el2h ∧ w.test Spsr.i = true ∧ w.test Spsr.d = false ∧
      w.word.getLsbD 5 = true := by
  obtain ⟨w, ran, made⟩ := setters_keep_apart.1 .spsr ⟨0x20⟩
    [mode .el1h, flag Spsr.i (by decide) rfl true, mode .el2h]
  have second := made.last [mode .el1h, flag Spsr.i (by decide) rfl true] (mode .el2h) [] rfl
    (fun _ none => nomatch none)
  have masked := made.last [mode .el1h] (flag Spsr.i (by decide) rfl true) [mode .el2h] rfl
    (by simp [field, Spsr.i, Spsr.modeRaw])
  have untouched := made.untouched Spsr.d (by decide)
    (by simp [field, Spsr.d, Spsr.i, Spsr.modeRaw])
  have undeclared : Value.Undeclared .spsr 5 := by
    unfold Value.Undeclared
    decide
  exact ⟨w, ran, second.2, masked.2, untouched.2, made.undeclared 5 (by decide) undeclared⟩

end Update
end ColdStart
