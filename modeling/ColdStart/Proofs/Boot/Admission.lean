import ColdStart.Activation
import ColdStart.Proofs.Address.Place
import ColdStart.Proofs.Partition.Span
import ColdStart.Proofs.Register.Update

/-! Which placements are admitted. The conditions are looked at one after another,
but none of them can halt, so the verdict always comes, and it is an activation
exactly if all six hold. They are given here as statements about addresses: the
ranges of image and stack are looked at byte by byte, and sums are those of the
integers. -/
namespace ColdStart

def Span.Holds (s : Span) (a : Word) : Prop :=
  s.start ≤ a ∧ a < s.stop

namespace Partition

/-- The span has bytes, and all of them are normal memory. -/
def Normal (p : Partition) (s : Span) : Prop :=
  s.start < s.stop ∧ ∀ a, s.Holds a → p.kindAt a = .normalNonCacheable

theorem kindOf_spec (p : Partition) (s : Span) :
    ∃ verdict, p.kindOf s = .ok verdict ∧
      ∀ k, verdict = some k ↔ s.start < s.stop ∧ ∀ a, s.Holds a → p.kindAt a = k := by
  unfold kindOf
  by_cases empty : s.stop ≤ s.start
  · refine ⟨none, if_pos empty, fun k => iff_of_false (Option.some_ne_none k).symm ?_⟩
    rintro ⟨proper, _⟩
    exact BitVec.not_le.mpr proper empty
  · have proper := BitVec.not_le.mp empty
    have order := BitVec.lt_def.mp proper
    have difference := Word.sub?_ok (BitVec.le_of_lt proper)
    have length := Word.toNat_of_sub? difference
    obtain ⟨verdict, ended, uniform⟩ :=
      @kindOver_spec p s.start (s.stop - s.start) (by omega)
    have same (a : Word) : InSpan s.start (s.stop - s.start) a ↔ s.Holds a := by
      unfold InSpan Span.Holds
      rw [BitVec.le_def, BitVec.lt_def]
      omega
    refine ⟨verdict, ?_, fun k => ?_⟩
    · rw [if_neg empty, difference]
      exact ended
    · rw [uniform, and_iff_right proper]
      simp only [same]

end Partition

namespace Ttbr

def pointing (table : PhysAddr) : Value .ttbr :=
  (⟨0⟩ : Value .ttbr)
    |>.write asid 0
    |>.write baddr (table.word >>> 1)
    |>.put cnp false

theorem forTable_ok {pa : PhysAddr} (aligned : pa.word.toNat % 0x1000 = 0)
    (small : pa.word.toNat < 0x1000000000000) : forTable pa = .ok (pointing pa) := by
  have high : (pa.word >>> 48 == 0) = true := by
    rw [beq_iff_eq]
    apply BitVec.eq_of_toNat_eq
    rw [BitVec.toNat_ushiftRight, Nat.shiftRight_eq_div_pow]
    exact Nat.div_eq_of_lt small
  have room : baddr.Admits (pa.word >>> 1).toNat := by
    have half : pa.word.toNat / 2 < 2 ^ 47 := by omega
    rwa [baddr.admits_iff (by decide), BitVec.toNat_ushiftRight, Nat.shiftRight_eq_div_pow]
  rw [forTable, PhysAddr.isMultiple_page, decide_eq_true aligned, high]
  simp only [Value.enter?_ok room, BitVec.ofNat_toNat, BitVec.setWidth_eq]
  rfl

/-- The table comes back from the value that points at it. -/
theorem table_pointing {pa : PhysAddr} (aligned : pa.word.toNat % 0x1000 = 0)
    (small : pa.word.toNat < 0x1000000000000) : table (pointing pa) = pa := by
  unfold table
  congr 1
  simp (disch := decide) only [pointing, Value.read, Value.write, Value.put, Field.put,
    Field.read_write_of_apart, Field.read_write_cut]
  apply BitVec.eq_of_toNat_eq
  simp only [baddr, BitVec.toNat_shiftLeft, BitVec.toNat_setWidth, BitVec.toNat_ushiftRight,
    Nat.shiftRight_eq_div_pow, Nat.shiftLeft_eq]
  omega

/-- The raw value is the table's address: neither an address space nor a shared table is
named beside it. -/
theorem pointing_word {pa : PhysAddr} (aligned : pa.word.toNat % 0x1000 = 0)
    (small : pa.word.toNat < 0x1000000000000) : (pointing pa).word = pa.word := by
  apply BitVec.eq_of_getLsbD_eq
  intro i inside
  simp only [pointing, Value.write, Value.put, Field.put, Field.getLsbD_write _ _ _ inside,
    Field.Holds, asid, baddr, cnp]
  obtain first | ⟨above, below⟩ | high : i = 0 ∨ (1 ≤ i ∧ i < 48) ∨ 48 ≤ i := by omega
  · have lowest : pa.word.getLsbD i = false := by
      rw [first, BitVec.getLsbD, Nat.testBit_zero, decide_eq_false_iff_not]
      omega
    rw [lowest, if_pos (by omega)]
    simp
  · rw [if_neg (by omega), if_pos (by omega), BitVec.getLsbD_ushiftRight, Nat.add_sub_cancel' above]
  · have highest : pa.word.getLsbD i = false :=
      Nat.testBit_lt_two_pow (Nat.lt_of_lt_of_le small (Nat.pow_le_pow_right Nat.two_pos high))
    rw [highest, if_neg (by omega), if_neg (by omega)]
    simp

end Ttbr

namespace Activation

/-- The activation for tables at an address that a base register can hold. -/
def rooted (tables : PhysAddr) : Activation where
  mair := Profile.mair
  lowerRoot := Ttbr.pointing tables
  upperRoot := Ttbr.pointing tables
  tcr := Profile.tcr

theorem rootedAt_ok {tables : PhysAddr} (aligned : tables.word.toNat % 0x1000 = 0)
    (small : tables.word.toNat < 0x1000000000000) : rootedAt tables = .ok (rooted tables) := by
  have sum : tables.advance 0 = .ok tables := by
    have room : tables.word.toNat + (0 : Word).toNat < Word.count := by
      rw [Word.count]
      exact Nat.lt_trans small (by decide)
    have zero : tables.word + 0 = tables.word := BitVec.add_zero _
    rw [PhysAddr.advance, Word.add?_ok room, zero]
    rfl
  have offset : TableId.level0.offset = .ok 0 := rfl
  simp only [rootedAt, offset, bind, Except.bind, sum, Ttbr.forTable_ok aligned small, pure,
    Except.pure, rooted]

/-- The six conditions, about addresses. -/
structure Admissible (features : Value .idAa64Mmfr0El1) (p : Placement) : Prop where
  granule : IdAa64Mmfr0El1.has4k features = true
  aligned : p.tables.word.toNat % pageSize.toNat = 0
  inside : p.tables.word.toNat + areaSize.toNat ≤ windowSize.toNat
  clear : p.image.stop.toNat ≤ p.tables.word.toNat ∨
    p.tables.word.toNat + areaSize.toNat ≤ p.image.start.toNat
  image : p.partition.Normal p.image
  stack : p.partition.Normal p.stack

/-- The tables of an admissible placement end within 48 bits. -/
theorem Admissible.room {features : Value .idAa64Mmfr0El1} {p : Placement}
    (ok : Admissible features p) : p.tables.word.toNat + areaSize.toNat ≤ 0x1000000000000 :=
  Nat.le_trans ok.inside (by decide)

theorem demand_bind (condition : Bool) (refusal : Refusal) {α : Type}
    (f : Unit → ExceptT Refusal (Except Halt) α) :
    (demand condition refusal >>= f).run =
      if condition then (f ()).run else .ok (.error refusal) := by
  cases condition <;> rfl

theorem liftM_bind {α β : Type} {x : Except Halt α} {a : α} (ended : x = .ok a)
    (f : α → ExceptT Refusal (Except Halt) β) :
    ((liftM x : ExceptT Refusal (Except Halt) α) >>= f).run = (f a).run := by
  rw [ended]
  rfl

/-- A condition on a placement, and the refusal of one that does not meet it. -/
structure Condition where
  holds : Prop
  refusal : Refusal

/-- The refusal is that of the first condition that is not met. -/
def FirstUnmet (conditions : List Condition) (e : Refusal) : Prop :=
  ∃ met c rest, conditions = met ++ c :: rest ∧ (∀ d ∈ met, d.holds) ∧ ¬ c.holds ∧ c.refusal = e

/-- The verdict goes by the conditions in their order, and grants `root` if all are met. -/
structure Decided (conditions : List Condition) (root : Activation)
    (verdict : Except Refusal Activation) : Prop where
  granted : ∀ a, verdict = .ok a ↔ (∀ c ∈ conditions, c.holds) ∧ a = root
  refused : ∀ e, verdict = .error e ↔ FirstUnmet conditions e

section
variable {c : Condition} {conditions : List Condition} {root : Activation} {e : Refusal}
  {verdict : Except Refusal Activation}

theorem firstUnmet_cons : FirstUnmet (c :: conditions) e ↔
    (c.holds ∧ FirstUnmet conditions e) ∨ (¬ c.holds ∧ c.refusal = e) := by
  constructor
  · rintro ⟨met, d, rest, split, before, unmet, same⟩
    cases met with
    | nil =>
      obtain ⟨rfl, -⟩ := List.cons.inj split
      exact Or.inr ⟨unmet, same⟩
    | cons first met =>
      obtain ⟨rfl, tail⟩ := List.cons.inj split
      obtain ⟨holds, before⟩ := List.forall_mem_cons.mp before
      exact Or.inl ⟨holds, met, d, rest, tail, before, unmet, same⟩
  · rintro (⟨holds, met, d, rest, rfl, before, unmet, same⟩ | ⟨unmet, same⟩)
    · exact ⟨c :: met, d, rest, rfl, List.forall_mem_cons.mpr ⟨holds, before⟩, unmet, same⟩
    · exact ⟨[], c, conditions, rfl, fun _ none => (nomatch none), unmet, same⟩

theorem Decided.nil (root : Activation) : Decided [] root (.ok root) where
  granted a := by simp [eq_comm]
  refused e := iff_of_false (fun same => nomatch same) (by simp [FirstUnmet])

theorem Decided.met (holds : c.holds) (decided : Decided conditions root verdict) :
    Decided (c :: conditions) root verdict where
  granted a := by rw [decided.granted, List.forall_mem_cons, and_iff_right holds]
  refused e := by
    rw [decided.refused, firstUnmet_cons, and_iff_right holds]
    exact (or_iff_left fun unmet => unmet.1 holds).symm

theorem Decided.unmet (fails : ¬ c.holds) : Decided (c :: conditions) root (.error c.refusal) where
  granted a := by
    refine iff_of_false (fun same => nomatch same) ?_
    rintro ⟨all, _⟩
    exact fails (all c List.mem_cons_self)
  refused e := by
    rw [firstUnmet_cons, and_iff_right fails, Except.error.injEq]
    exact (or_iff_right fun met => fails met.1).symm

/-- One demand decides its condition and leaves the others to what follows. -/
theorem decided_of_demand {looked : Prop} [Decidable looked]
    {x : Except Halt (Except Refusal Activation)} (c : Condition) (same : looked ↔ c.holds)
    (rest : c.holds → ∃ verdict, x = .ok verdict ∧ Decided conditions root verdict) :
    ∃ verdict, (if looked then x else .ok (.error c.refusal)) = .ok verdict ∧
      Decided (c :: conditions) root verdict := by
  by_cases holds : c.holds
  · obtain ⟨verdict, ended, decided⟩ := rest holds
    exact ⟨verdict, by rw [if_pos (same.mpr holds), ended], decided.met holds⟩
  · exact ⟨.error c.refusal, if_neg (mt same.mp holds), .unmet holds⟩

end

/-- The six conditions in the order in which they are looked at. The tables are compared
with the ends of the image only, so an image without bytes can overlap them. -/
def conditions (features : Value .idAa64Mmfr0El1) (p : Placement) : List Condition :=
  let tables := p.tables.word
  [⟨IdAa64Mmfr0El1.has4k features = true, .granuleUnsupported⟩,
    ⟨tables.toNat % pageSize.toNat = 0, .tablesMisaligned tables⟩,
    ⟨tables.toNat + areaSize.toNat ≤ windowSize.toNat, .tablesOutsideWindow tables⟩,
    ⟨¬ (tables.toNat < p.image.stop.toNat ∧
        p.image.start.toNat < tables.toNat + areaSize.toNat), .tablesOverlapImage tables⟩,
    ⟨p.partition.Normal p.image, .imageNotExecutable p.image⟩,
    ⟨p.partition.Normal p.stack, .stackNotNormal p.stack⟩]

theorem admissible_iff {features : Value .idAa64Mmfr0El1} {p : Placement} :
    Admissible features p ↔ ∀ c ∈ conditions features p, c.holds := by
  simp only [conditions, List.forall_mem_cons, List.not_mem_nil, false_implies, implies_true,
    and_true, Classical.not_and_iff_not_or_not, Nat.not_lt]
  constructor
  · rintro ⟨granule, aligned, inside, clear, image, stack⟩
    exact ⟨granule, aligned, inside, clear, image, stack⟩
  · rintro ⟨granule, aligned, inside, clear, image, stack⟩
    exact ⟨granule, aligned, inside, clear, image, stack⟩

/-- Every placement gets a verdict, by the first of the conditions that it does not meet. -/
theorem forPlacement?_decided (features : Value .idAa64Mmfr0El1) (p : Placement) :
    ∃ verdict, forPlacement? features p = .ok verdict ∧
      Decided (conditions features p) (rooted p.tables) verdict := by
  have area := toNat_areaSize
  have window := toNat_windowSize
  obtain ⟨image, imageEnded, imageKind⟩ := p.partition.kindOf_spec p.image
  obtain ⟨stack, stackEnded, stackKind⟩ := p.partition.kindOf_spec p.stack
  have executable : (image.map MemoryKind.executable).getD false = true ↔
      p.partition.Normal p.image := by
    rw [Partition.Normal, ← imageKind]
    rcases image with _ | _ | _ <;> simp [MemoryKind.executable]
  have stop (fits : p.tables.word.toNat + areaSize.toNat < Word.count) :
      (p.tables.word + areaSize).toNat = p.tables.word.toNat + areaSize.toNat :=
    Word.toNat_of_add? (Word.add?_ok fits)
  have small (inside : p.tables.word.toNat + areaSize.toNat ≤ windowSize.toNat) :
      p.tables.word.toNat + areaSize.toNat < Word.count :=
    Nat.lt_of_le_of_lt inside (by decide)
  rw [forPlacement?, admitted]
  simp only [demand_bind, liftM_bind (PhysAddr.isMultiple_page _), liftM_bind imageEnded,
    liftM_bind stackEnded, decide_eq_true_iff]
  refine decided_of_demand ⟨_, _⟩ Iff.rfl fun _ => ?_
  refine decided_of_demand ⟨_, _⟩ Iff.rfl fun aligned => ?_
  -- That the sum is a word and that it is in the window are one condition.
  rw [← ite_and]
  refine decided_of_demand ⟨_, _⟩ ?_ fun inside => ?_
  · rw [BitVec.le_def]
    constructor
    · rintro ⟨fits, within⟩
      rwa [stop fits] at within
    · intro inside
      have fits := small inside
      exact ⟨fits, by rwa [stop fits]⟩
  have stop := stop (small inside)
  refine decided_of_demand ⟨_, _⟩ ?_ fun _ => ?_
  · simp only [Bool.not_eq_true', Bool.and_eq_false_iff, decide_eq_false_iff_not, BitVec.lt_def, stop,
      Nat.not_lt, Classical.not_and_iff_not_or_not]
  refine decided_of_demand ⟨_, _⟩ executable fun _ => ?_
  refine decided_of_demand ⟨_, _⟩ (beq_iff_eq.trans (stackKind _)) fun _ => ?_
  have root := rootedAt_ok aligned (by omega)
  exact ⟨_, by rw [root]; rfl, .nil _⟩

/-- Every placement gets a verdict, and an activation exactly if it is admissible. -/
theorem forPlacement?_spec (features : Value .idAa64Mmfr0El1) (p : Placement) :
    ∃ verdict, forPlacement? features p = .ok verdict ∧
      ∀ a, verdict = .ok a ↔ Admissible features p ∧ a = rooted p.tables := by
  obtain ⟨verdict, ended, decided⟩ := forPlacement?_decided features p
  exact ⟨verdict, ended, fun a => by rw [decided.granted, admissible_iff]⟩

theorem admissible_of_accepted {features : Value .idAa64Mmfr0El1} {p : Placement} {a : Activation}
    (accepted : forPlacement? features p = .ok (.ok a)) : Admissible features p := by
  obtain ⟨verdict, ended, admits⟩ := forPlacement?_spec features p
  rw [accepted] at ended
  exact ((admits a).mp (Except.ok.inj ended).symm).1

/-- The boot map with the tables above the image and the stack below it. -/
theorem admissible_standard :
    Admissible ⟨0⟩ ⟨.standard, ⟨0x100000⟩, ⟨0x80000, 0x90000⟩, ⟨0x70000, 0x80000⟩⟩ :=
  admissible_of_accepted (a := rooted ⟨0x100000⟩) rfl

/-- Of an image that has bytes, none is in the table area exactly if its ends say so. -/
theorem clear_iff {p : Placement} (proper : p.image.start < p.image.stop) :
    (∀ a, Partition.InSpan p.tables.word areaSize a → ¬ p.image.Holds a) ↔
      p.image.stop.toNat ≤ p.tables.word.toNat ∨
        p.tables.word.toNat + areaSize.toNat ≤ p.image.start.toNat := by
  have area := toNat_areaSize
  have order := BitVec.lt_def.mp proper
  simp only [Partition.InSpan, Span.Holds, BitVec.le_def, BitVec.lt_def]
  constructor
  · intro disjoint
    by_contra meet
    rw [not_or, Nat.not_le, Nat.not_le] at meet
    -- The later start lies in both.
    rcases Nat.le_total p.tables.word.toNat p.image.start.toNat with first | second
    · exact disjoint p.image.start (by omega) (by omega)
    · exact disjoint p.tables.word (by omega) (by omega)
  · rintro apart a ⟨low, high⟩ ⟨start, stop⟩
    omega

/-- The verdict on a placement always comes. It is favourable exactly if the core has the
granule, the tables lie page aligned in the window, image and stack have bytes, none of
the image's is in the table area and all of both are normal memory; the activation then
names the tables by their address. Otherwise it is the refusal of the first condition that
is not met. -/
theorem placement_decided (features : Value .idAa64Mmfr0El1) (p : Placement) :
    ∃ verdict, forPlacement? features p = .ok verdict ∧
      ((∃ a, verdict = .ok a) ↔
        IdAa64Mmfr0El1.has4k features = true ∧ p.tables.word.toNat % pageSize.toNat = 0 ∧
        p.tables.word.toNat + areaSize.toNat ≤ windowSize.toNat ∧
        p.image.start < p.image.stop ∧ p.stack.start < p.stack.stop ∧
        (∀ a, Partition.InSpan p.tables.word areaSize a → ¬ p.image.Holds a) ∧
        ∀ a, p.image.Holds a ∨ p.stack.Holds a → p.partition.kindAt a = .normalNonCacheable) ∧
      (∀ a, verdict = .ok a → a.lowerRoot.word = p.tables.word ∧
        a.upperRoot.word = p.tables.word ∧ a.mair = Profile.mair ∧ a.tcr = Profile.tcr) ∧
      ∀ e, verdict = .error e ↔ FirstUnmet (conditions features p) e := by
  obtain ⟨verdict, ended, decided⟩ := forPlacement?_decided features p
  have granted (a : Activation) : verdict = .ok a ↔ Admissible features p ∧ a = rooted p.tables := by
    rw [decided.granted, admissible_iff]
  refine ⟨verdict, ended, ?_, fun a accepted => ?_, decided.refused⟩
  · simp only [granted, exists_eq_right]
    constructor
    · rintro ⟨granule, aligned, inside, clear, ⟨imageProper, image⟩, ⟨stackProper, stack⟩⟩
      exact ⟨granule, aligned, inside, imageProper, stackProper, (clear_iff imageProper).mpr clear,
        fun a held => held.elim (image a) (stack a)⟩
    · rintro ⟨granule, aligned, inside, imageProper, stackProper, clear, normal⟩
      exact ⟨granule, aligned, inside, (clear_iff imageProper).mp clear,
        ⟨imageProper, fun a held => normal a (Or.inl held)⟩,
        ⟨stackProper, fun a held => normal a (Or.inr held)⟩⟩
  · obtain ⟨ok, rfl⟩ := (granted a).mp accepted
    have room := ok.room
    have area : areaSize.toNat = 0x5000 := rfl
    have word := Ttbr.pointing_word ok.aligned (by omega)
    exact ⟨word, word, rfl, rfl⟩

end Activation
end ColdStart
