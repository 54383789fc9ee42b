import ColdStart.Memory.Partition
import Mathlib.Data.List.Pairwise
import Mathlib.Tactic.ByContra

/-! The lists of regions that are partitions of the low window, told address by
address, and that the checks accept exactly these. No check looks at addresses:
the first pass looks at every region by itself, the second at pairs, and the last
follows region ends. What the last pass knows is said by `Front`: below the
address reached everything is covered, and no region reaches across it. -/
namespace ColdStart

namespace Region

/-- The address after the last byte, which need not be a word. -/
def limit (r : Region) : Nat :=
  r.start.toNat + r.size.toNat

/-- Nothing is wrong with the region by itself. -/
structure Fit (r : Region) : Prop where
  sized : 0 < r.size.toNat
  startPaged : r.start.toNat % pageSize.toNat = 0
  sizePaged : r.size.toNat % pageSize.toNat = 0
  inside : r.limit ≤ windowSize.toNat

def Spans (r : Region) (a : Nat) : Prop :=
  r.start.toNat ≤ a ∧ a < r.limit

instance (r : Region) (a : Nat) : Decidable (r.Spans a) :=
  inferInstanceAs (Decidable (_ ∧ _))

/-- The regions follow one another, in whichever order. -/
def Apart (r s : Region) : Prop :=
  r.limit ≤ s.start.toNat ∨ s.limit ≤ r.start.toNat

instance (r s : Region) : Decidable (r.Apart s) :=
  inferInstanceAs (Decidable (_ ∨ _))

theorem spans_iff {r : Region} {a : Word} : r.holds a ↔ r.Spans a.toNat :=
  holds_iff

instance : Std.Symm Apart where
  symm _ _ := Or.symm

theorem Fit.start_lt {r : Region} (fit : r.Fit) : r.start.toNat < r.limit :=
  Nat.lt_add_of_pos_right fit.sized

theorem Fit.limit_lt {r : Region} (fit : r.Fit) : r.limit < Word.count :=
  Nat.lt_of_le_of_lt fit.inside (by decide)

theorem Fit.of_holds {r : Region} {a : Word} (fit : r.Fit) (held : r.holds a) : a < windowSize := by
  have bounds := holds_iff.mp held
  have inside := fit.inside
  rw [limit] at inside
  exact BitVec.lt_def.mpr (by omega)

theorem inside_iff {r : Region} :
    ¬ (windowSize ≤ r.start ∨ windowSize - r.start < r.size) ↔
      r.start.toNat < windowSize.toNat ∧ r.limit ≤ windowSize.toNat := by
  by_cases past : windowSize ≤ r.start
  · have start := BitVec.le_def.mp past
    simp only [past, true_or, not_true_eq_false, false_iff]
    omega
  · have below : r.start ≤ windowSize := BitVec.le_of_lt (BitVec.not_le.mp past)
    have start := BitVec.le_def.mp below
    have strict := BitVec.lt_def.mp (BitVec.not_le.mp past)
    simp only [past, false_or]
    rw [BitVec.lt_def, BitVec.toNat_sub_of_le below, limit]
    omega

theorem defect?_eq_none_iff {r : Region} {index : Nat} : r.defect? index = none ↔ r.Fit := by
  have sized : r.size ≠ 0 ↔ 0 < r.size.toNat :=
    (not_congr BitVec.toNat_inj.symm).trans Nat.pos_iff_ne_zero.symm
  have paged (w : Word) : w % pageSize = 0 ↔ w.toNat % pageSize.toNat = 0 :=
    BitVec.toNat_inj.symm.trans (by rw [BitVec.toNat_umod]; rfl)
  have passed : r.defect? index = none ↔ r.size ≠ 0 ∧
      (r.start % pageSize = 0 ∧ r.size % pageSize = 0) ∧
      ¬ (windowSize ≤ r.start ∨ windowSize - r.start < r.size) := by
    unfold defect?
    grind
  rw [passed, sized, paged, paged, inside_iff]
  constructor
  · rintro ⟨positive, ⟨start, size⟩, _, inside⟩
    exact ⟨positive, start, size, inside⟩
  · rintro ⟨positive, start, size, inside⟩
    refine ⟨positive, ⟨start, size⟩, ?_, inside⟩
    rw [limit] at inside
    omega

theorem Fit.stop_ok {r : Region} (fit : r.Fit) : r.stop = .ok (r.start + r.size) :=
  Word.add?_ok fit.limit_lt

theorem Fit.toNat_stop {r : Region} (fit : r.Fit) : (r.start + r.size).toNat = r.limit :=
  Word.toNat_of_add? fit.stop_ok

theorem overlaps_ok {r s : Region} (rFit : r.Fit) (sFit : s.Fit) :
    r.overlaps s = .ok (!decide (r.Apart s)) := by
  have meets : (!decide (r.Apart s)) =
      (decide (r.start.toNat < s.limit) && decide (s.start.toNat < r.limit)) := by
    rw [Bool.eq_iff_iff]
    simp only [Bool.not_eq_true', decide_eq_false_iff_not, Bool.and_eq_true, decide_eq_true_eq]
    unfold Apart
    omega
  unfold overlaps
  rw [rFit.stop_ok, sFit.stop_ok, meets]
  simp only [bind, Except.bind, pure, Except.pure, BitVec.lt_def, rFit.toNat_stop, sFit.toNat_stop]
  split
  · rename_i before
    simp only [before, decide_true, Bool.true_and]
  · rename_i after
    simp only [after, decide_false, Bool.false_and]

/-- Regions that are not empty are apart exactly if they have no address in common. -/
theorem apart_iff {r s : Region} (rFit : r.Fit) (sFit : s.Fit) :
    r.Apart s ↔ ∀ a, ¬ (r.holds a ∧ s.holds a) := by
  have rSized := rFit.sized
  have sSized := sFit.sized
  constructor
  · rintro apart a ⟨inR, inS⟩
    have first := holds_iff.mp inR
    have second := holds_iff.mp inS
    rcases apart with before | after
    · simp only [limit] at before
      omega
    · simp only [limit] at after
      omega
  · intro disjoint
    by_contra meet
    simp only [Apart, limit, not_or, Nat.not_le] at meet
    -- The later start lies in both.
    rcases Nat.le_total r.start.toNat s.start.toNat with first | second
    · exact disjoint s.start ⟨holds_iff.mpr (by omega), holds_iff.mpr (by omega)⟩
    · exact disjoint r.start ⟨holds_iff.mpr (by omega), holds_iff.mpr (by omega)⟩

end Region

namespace Partition
open Region

variable {regions : List Region}

theorem firstUnfit?_eq_none_iff :
    firstUnfit? regions.zipIdx = none ↔ ∀ r ∈ regions, r.Fit := by
  unfold firstUnfit?
  rw [List.findSome?_eq_none_iff]
  simp only [defect?_eq_none_iff]
  rw [← List.forall_mem_map (f := Prod.fst) (P := Fit), List.zipIdx_map_fst]

theorem firstMeeting?_ok {r : Region} {rest : List Placed} (rFit : r.Fit)
    (fit : ∀ s ∈ rest, s.1.Fit) :
    firstMeeting? r rest = .ok ((rest.find? fun s => !decide (r.Apart s.1)).map Prod.snd) := by
  induction rest with
  | nil => rfl
  | cons s rest ih =>
    have tail := ih fun t member => fit t (List.mem_cons_of_mem _ member)
    rw [firstMeeting?, overlaps_ok rFit (fit s List.mem_cons_self), List.find?_cons, tail]
    by_cases apart : r.Apart s.1
    · simp [apart, bind, Except.bind]
    · simp [apart, bind, Except.bind, pure, Except.pure]

theorem firstOverlap?_spec {placed : List Placed} (fit : ∀ p ∈ placed, p.1.Fit) :
    ∃ verdict, firstOverlap? placed = .ok verdict ∧
      (verdict = none ↔ placed.Pairwise fun p q => p.1.Apart q.1) := by
  induction placed with
  | nil => exact ⟨none, rfl, by simp⟩
  | cons p rest ih =>
    have restFit : ∀ q ∈ rest, q.1.Fit := fun q member => fit q (List.mem_cons_of_mem _ member)
    obtain ⟨verdict, ended, iff⟩ := ih restFit
    have meeting := firstMeeting?_ok (fit p List.mem_cons_self) restFit
    cases found : rest.find? fun s => !decide (p.1.Apart s.1) with
    | none =>
      refine ⟨verdict, ?_, ?_⟩
      · rw [firstOverlap?, meeting, found]
        exact ended
      · have clear : ∀ q ∈ rest, p.1.Apart q.1 := by simpa using found
        rw [List.pairwise_cons, iff]
        exact (and_iff_right clear).symm
    | some q =>
      refine ⟨some (.overlap p.2 q.2), ?_, ?_⟩
      · rw [firstOverlap?, meeting, found]
        rfl
      · have met : ¬ p.1.Apart q.1 := by simpa using List.find?_some found
        simp only [reduceCtorEq, false_iff]
        exact fun apart => met ((List.pairwise_cons.mp apart).1 q (List.mem_of_find?_eq_some found))

/-- What following region ends establishes up to the address reached. -/
structure Front (regions : List Region) (reached : Nat) : Prop where
  covered : ∀ a < reached, ∃ r ∈ regions, r.Spans a
  closed : ∀ r ∈ regions, r.start.toNat < reached → r.limit ≤ reached

theorem Front.zero : Front regions 0 where
  covered a below := absurd below (Nat.not_lt_zero a)
  closed _ _ below := absurd below (Nat.not_lt_zero _)

/-- The region that begins where the front is moves it to the region's end. -/
theorem Front.advance (apart : regions.Pairwise Apart) {r : Region} (member : r ∈ regions)
    (front : Front regions r.start.toNat) : Front regions r.limit where
  covered a below := by
    by_cases before : a < r.start.toNat
    · exact front.covered a before
    · exact ⟨r, member, Nat.le_of_not_lt before, below⟩
  closed s sMember below := by
    by_cases before : s.start.toNat < r.start.toNat
    · have := front.closed s sMember before
      exact Nat.le_trans this (Nat.le_add_right _ _)
    · by_cases same : r = s
      · exact Nat.le_of_eq (congrArg limit same.symm)
      · rcases apart.forall member sMember same with after | first
        · omega
        · rw [limit] at first ⊢
          omega

/-- Where no region begins, a front below the window's top is a gap. -/
theorem Front.gap {reached : Nat} (front : Front regions reached)
    (none : ∀ r ∈ regions, r.start.toNat ≠ reached) : ∀ r ∈ regions, ¬ r.Spans reached := by
  rintro r member ⟨low, high⟩
  have := front.closed r member (Nat.lt_of_le_of_ne low (none r member))
  omega

/-- Regions that begin at an address or after it. -/
def ahead (regions : List Region) (a : Nat) : Nat :=
  regions.countP fun r => a ≤ r.start.toNat

theorem ahead_lt {r : Region} (member : r ∈ regions) (fit : r.Fit) :
    ahead regions r.limit < ahead regions r.start.toNat := by
  have longer := fit.start_lt
  induction regions with
  | nil => contradiction
  | cons s rest ih =>
    have weaker : ahead rest r.limit ≤ ahead rest r.start.toNat := by
      apply List.countP_mono_left
      intro t _ later
      simp only [decide_eq_true_eq] at later ⊢
      omega
    simp only [ahead, List.countP_cons, decide_eq_true_eq] at weaker ih ⊢
    rcases List.mem_cons.mp member with rfl | inRest
    · rw [if_neg (Nat.not_le.mpr longer), if_pos (Nat.le_refl _)]
      omega
    · have less := ih inRest
      split <;> split <;> omega

/-- The last scan ends, with the first address that nothing covers if there is one. -/
theorem firstGap?_spec (fit : ∀ r ∈ regions, r.Fit) (apart : regions.Pairwise Apart)
    {left : Nat} {reached : Word} (front : Front regions reached.toNat)
    (room : ahead regions reached.toNat < left) :
    (firstGap? regions left reached = .ok none ∧
      ∀ a < windowSize.toNat, ∃ r ∈ regions, r.Spans a) ∨
    ∃ gap : Word, firstGap? regions left reached = .ok (some (.gap gap)) ∧ gap < windowSize ∧
      (∀ a < gap.toNat, ∃ r ∈ regions, r.Spans a) ∧ ∀ r ∈ regions, ¬ r.Spans gap.toNat := by
  induction left generalizing reached with
  | zero => exact absurd room (Nat.not_lt_zero _)
  | succ left ih =>
    by_cases below : reached < windowSize
    · cases next : regions.reverse.find? fun r => r.start == reached with
      | none =>
        have missing : ∀ r ∈ regions, r.start.toNat ≠ reached.toNat := by
          intro r member same
          have differs := List.find?_eq_none.mp next r (List.mem_reverse.mpr member)
          exact differs (beq_iff_eq.mpr (BitVec.toNat_inj.mp same))
        refine Or.inr ⟨reached, ?_, below, front.covered, front.gap missing⟩
        rw [firstGap?, if_pos below, next]
        rfl
      | some r =>
        have member : r ∈ regions := List.mem_reverse.mp (List.mem_of_find?_eq_some next)
        have start : r.start = reached := by simpa using List.find?_some next
        subst start
        have stop := (fit r member).toNat_stop
        have onward : Front regions (r.start + r.size).toNat := by
          rw [stop]
          exact front.advance apart member
        have less : ahead regions (r.start + r.size).toNat < left := by
          have := ahead_lt member (fit r member)
          rw [stop]
          omega
        have step : firstGap? regions (left + 1) r.start =
            firstGap? regions left (r.start + r.size) := by
          rw [firstGap?, if_pos below, next]
          simp only [(fit r member).stop_ok, bind, Except.bind]
        rw [step]
        exact ih onward less
    · refine Or.inl ⟨?_, ?_⟩
      · rw [firstGap?, if_neg below]
        rfl
      · intro a inside
        have := BitVec.le_def.mp (BitVec.not_lt.mp below)
        exact front.covered a (by omega)

/-- Counted at every address, regions that are apart never hold it twice. -/
theorem pairwise_apart_iff (fit : ∀ r ∈ regions, r.Fit) :
    regions.Pairwise Apart ↔ ∀ a : Word, (regions.countP fun r => r.holds a) ≤ 1 := by
  induction regions with
  | nil => simp
  | cons r rest ih =>
    have rFit := fit r List.mem_cons_self
    have restFit : ∀ s ∈ rest, s.Fit := fun s member => fit s (List.mem_cons_of_mem _ member)
    rw [List.pairwise_cons, ih restFit]
    simp only [List.countP_cons]
    constructor
    · rintro ⟨clear, once⟩ a
      by_cases held : r.holds a
      · have none : (rest.countP fun s => s.holds a) = 0 := by
          rw [List.countP_eq_zero]
          exact fun s member both =>
            (apart_iff rFit (restFit s member)).mp (clear s member) a ⟨held, both⟩
        exact Nat.le_of_eq (by rw [none, if_pos held])
      · rw [if_neg held]
        exact once a
    · intro once
      refine ⟨fun s member => (apart_iff rFit (restFit s member)).mpr ?_, fun a => ?_⟩
      · rintro a ⟨inR, inS⟩
        have twice := once a
        have some : 0 < rest.countP fun s => s.holds a := List.countP_pos_iff.mpr ⟨s, member, inS⟩
        rw [if_pos inR] at twice
        omega
      · exact Nat.le_trans (Nat.le_add_right _ _) (once a)

/-- Whole pages that cover the window and nothing else, every address once. -/
structure Tiling (regions : List Region) : Prop where
  count : 1 ≤ regions.length ∧ regions.length ≤ maxRegions
  paged : ∀ r ∈ regions, r.start.toNat % pageSize.toNat = 0 ∧ r.size.toNat % pageSize.toNat = 0
  sized : ∀ r ∈ regions, r.size ≠ 0
  once : ∀ a, a < windowSize → (regions.countP fun r => r.holds a) = 1
  inside : ∀ a, windowSize ≤ a → ∀ r ∈ regions, ¬ r.holds a

theorem Tiling.fit (tiling : Tiling regions) : ∀ r ∈ regions, r.Fit := by
  intro r member
  have sized : 0 < r.size.toNat :=
    Nat.pos_of_ne_zero fun zero => tiling.sized r member (BitVec.toNat_inj.mp zero)
  obtain ⟨startPaged, sizePaged⟩ := tiling.paged r member
  refine ⟨sized, startPaged, sizePaged, ?_⟩
  -- A region that ends above the window holds its own start or the window's top.
  by_contra past
  by_cases start : windowSize ≤ r.start
  · exact tiling.inside r.start start r member (spans_iff.mpr ⟨Nat.le_refl _, by rw [limit]; omega⟩)
  · have low := BitVec.lt_def.mp (BitVec.not_le.mp start)
    exact tiling.inside windowSize (BitVec.le_refl _) r member (spans_iff.mpr ⟨by omega, by omega⟩)

theorem Tiling.apart (tiling : Tiling regions) : regions.Pairwise Apart := by
  rw [pairwise_apart_iff tiling.fit]
  intro a
  by_cases below : a < windowSize
  · exact Nat.le_of_eq (tiling.once a below)
  · rw [List.countP_eq_zero.mpr (tiling.inside a (BitVec.not_lt.mp below))]
    exact Nat.zero_le 1

theorem Tiling.covered (tiling : Tiling regions) {a : Nat} (below : a < windowSize.toNat) :
    ∃ r ∈ regions, r.Spans a := by
  have word : (BitVec.ofNat 64 a).toNat = a := by
    have : windowSize.toNat < 2 ^ 64 := by decide
    exact Nat.mod_eq_of_lt (by omega)
  have some := tiling.once (BitVec.ofNat 64 a) (BitVec.lt_def.mpr (by omega))
  obtain ⟨r, member, held⟩ := List.countP_pos_iff.mp (by rw [some]; exact Nat.one_pos)
  exact ⟨r, member, word ▸ spans_iff.mp held⟩

theorem tiling_of_passes (count : 1 ≤ regions.length ∧ regions.length ≤ maxRegions)
    (fit : ∀ r ∈ regions, r.Fit) (apart : regions.Pairwise Apart)
    (covered : ∀ a < windowSize.toNat, ∃ r ∈ regions, r.Spans a) : Tiling regions where
  count := count
  paged r member := ⟨(fit r member).startPaged, (fit r member).sizePaged⟩
  sized r member zero := by
    have positive := (fit r member).sized
    rw [zero] at positive
    exact Nat.lt_irrefl 0 positive
  once a below := by
    have atMost := (pairwise_apart_iff fit).mp apart a
    obtain ⟨r, member, held⟩ := covered a.toNat (BitVec.lt_def.mp below)
    have atLeast : 0 < regions.countP fun r => r.holds a :=
      List.countP_pos_iff.mpr ⟨r, member, spans_iff.mpr held⟩
    exact Nat.le_antisymm atMost atLeast
  inside a outside r member held :=
    BitVec.not_le.mpr ((fit r member).of_holds held) outside

/-- The verdict always comes, and it is favourable exactly for tilings. -/
theorem defect?_spec (regions : List Region) :
    ∃ verdict, defect? regions = .ok verdict ∧ (verdict = none ↔ Tiling regions) := by
  unfold defect?
  by_cases empty : regions.isEmpty
  · refine ⟨some .empty, if_pos empty, iff_of_false (Option.some_ne_none _) ?_⟩
    rintro ⟨⟨nonempty, _⟩, _⟩
    rw [List.isEmpty_iff.mp empty] at nonempty
    exact Nat.not_succ_le_zero 0 nonempty
  rw [if_neg empty]
  by_cases many : maxRegions < regions.length
  · refine ⟨some .tooManyRegions, if_pos many, iff_of_false (Option.some_ne_none _) ?_⟩
    exact fun tiling => Nat.not_lt.mpr tiling.count.2 many
  rw [if_neg many, scanUnfit?_eq]
  cases unfit : firstUnfit? regions.zipIdx with
  | some d =>
    refine ⟨some d, rfl, iff_of_false (Option.some_ne_none _) ?_⟩
    intro tiling
    rw [firstUnfit?_eq_none_iff.mpr tiling.fit] at unfit
    contradiction
  | none =>
    have fit := firstUnfit?_eq_none_iff.mp unfit
    have placedFit : ∀ p ∈ regions.zipIdx, p.1.Fit := fun p member =>
      fit p.1 (List.fst_mem_of_mem_zipIdx member)
    have places : (regions.zipIdx.Pairwise fun p q => p.1.Apart q.1) ↔ regions.Pairwise Apart := by
      rw [← List.pairwise_map, List.zipIdx_map_fst]
    obtain ⟨verdict, scanned, iff⟩ := firstOverlap?_spec placedFit
    simp only [scanned]
    cases verdict with
    | some d =>
      refine ⟨some d, rfl, iff_of_false (Option.some_ne_none _) ?_⟩
      exact fun tiling => Option.some_ne_none d (iff.mpr (places.mpr tiling.apart))
    | none =>
      have apart := places.mp (iff.mp rfl)
      have room : ahead regions (0 : Word).toNat < regions.length + 1 :=
        Nat.lt_succ_of_le List.countP_le_length
      rcases firstGap?_spec fit apart Front.zero room with
        ⟨ended, covered⟩ | ⟨gap, ended, below, _, free⟩
      · have nonempty : 1 ≤ regions.length :=
          List.length_pos_iff.mpr fun nil => empty (List.isEmpty_iff.mpr nil)
        refine ⟨none, ended, iff_of_true rfl ?_⟩
        exact tiling_of_passes ⟨nonempty, Nat.not_lt.mp many⟩ fit apart covered
      · refine ⟨some (.gap gap), ended, iff_of_false (Option.some_ne_none _) ?_⟩
        intro tiling
        obtain ⟨r, member, held⟩ := tiling.covered (BitVec.lt_def.mp below)
        exact free r member held

theorem tiling (p : Partition) : Tiling p.regions := by
  obtain ⟨verdict, ended, iff⟩ := defect?_spec p.regions
  rw [p.sound] at ended
  exact iff.mp (Except.ok.inj ended).symm

theorem holder_unique {p : Partition} {r s : Region} {a : Nat} (rMem : r ∈ p.regions)
    (sMem : s ∈ p.regions) (inR : r.Spans a) (inS : s.Spans a) : r = s := by
  by_contra ne
  obtain ⟨rLow, rHigh⟩ := inR
  obtain ⟨sLow, sHigh⟩ := inS
  rcases p.tiling.apart.forall rMem sMem ne with before | after <;> omega

theorem kindAt_of_mem {p : Partition} {r : Region} {a : Word} (member : r ∈ p.regions)
    (held : r.Spans a.toNat) : p.kindAt a = r.memory := by
  unfold kindAt
  cases found : p.regions.find? fun r => r.holds a with
  | none => exact absurd (spans_iff.mpr held) (List.find?_eq_none.mp found r member)
  | some s =>
    have sHeld : s.holds a := by simpa using List.find?_some found
    rw [holder_unique (List.mem_of_find?_eq_some found) member (spans_iff.mp sHeld) held]

theorem kindAt_of_outside {p : Partition} {a : Word} (outside : windowSize ≤ a) :
    p.kindAt a = .strictest := by
  have none : (p.regions.find? fun r => r.holds a) = none :=
    List.find?_eq_none.mpr fun r member => p.tiling.inside a outside r member
  unfold kindAt
  rw [none]

/-- The kind is the same throughout a page. -/
theorem kindAt_eq_of_page {p : Partition} {a b : Word}
    (same : a.toNat / pageSize.toNat = b.toNat / pageSize.toNat) : p.kindAt a = p.kindAt b := by
  have window := toNat_windowSize
  rw [toNat_pageSize] at same
  by_cases outside : windowSize ≤ a
  · have beyond : windowSize ≤ b := by
      have := BitVec.le_def.mp outside
      exact BitVec.le_def.mpr (by omega)
    rw [kindAt_of_outside outside, kindAt_of_outside beyond]
  · have inside := BitVec.lt_def.mp (BitVec.not_le.mp outside)
    obtain ⟨r, member, low, high⟩ := p.tiling.covered inside
    obtain ⟨_, startPaged, sizePaged, _⟩ := p.tiling.fit r member
    rw [toNat_pageSize] at startPaged sizePaged
    have held : r.Spans b.toNat := by
      unfold Spans limit at *
      omega
    rw [kindAt_of_mem member ⟨low, high⟩, kindAt_of_mem member held]

/-- The regions may be cut in pieces and these put in any order. -/
theorem kindAt_eq_of_cut {p q : Partition} (cut : ∀ s ∈ q.regions, ∃ r ∈ p.regions,
    r.start.toNat ≤ s.start.toNat ∧ s.limit ≤ r.limit ∧ r.memory = s.memory) (a : Word) :
    p.kindAt a = q.kindAt a := by
  by_cases outside : windowSize ≤ a
  · rw [kindAt_of_outside outside, kindAt_of_outside outside]
  · obtain ⟨s, sMem, low, high⟩ := q.tiling.covered (BitVec.lt_def.mp (BitVec.not_le.mp outside))
    obtain ⟨r, rMem, start, limit, kind⟩ := cut s sMem
    have held : r.Spans a.toNat := ⟨Nat.le_trans start low, Nat.lt_of_lt_of_le high limit⟩
    rw [kindAt_of_mem rMem held, kindAt_of_mem sMem ⟨low, high⟩, kind]

theorem lt_of_kindAt_ne {p : Partition} {a : Word} (kind : p.kindAt a ≠ .strictest) :
    a < windowSize :=
  BitVec.not_le.mp fun outside => kind (kindAt_of_outside outside)

/-- Every list of regions gets a verdict. It is accepted exactly if it tiles the
window, and the partition then keeps the list and its order, has at every address
of the window the kind of the one region there, and is device memory elsewhere. -/
theorem ofRegions?_accepts_tilings (regions : List Region) :
    ∃ verdict, ofRegions? regions = .ok verdict ∧
      ((∃ p, verdict = .ok p) ↔ Tiling regions) ∧
      ∀ p, verdict = .ok p → p.regions = regions ∧
        (∀ a, a < windowSize → ∃ r ∈ regions, r.holds a ∧ p.kindAt a = r.memory) ∧
        ∀ a, windowSize ≤ a → p.kindAt a = .device := by
  obtain ⟨verdict, ended, iff⟩ := defect?_spec regions
  unfold ofRegions?
  split
  · rename_i halt halted
    rw [halted] at ended
    contradiction
  · rename_i d refused
    rw [refused] at ended
    refine ⟨.error d, rfl, ?_, fun p accepted => nomatch accepted⟩
    refine iff_of_false (fun ⟨p, accepted⟩ => nomatch accepted) fun tiling => ?_
    rw [iff.mpr tiling] at ended
    exact Option.some_ne_none d (Except.ok.inj ended)
  · rename_i sound
    rw [sound] at ended
    have tiled := iff.mp (Except.ok.inj ended).symm
    refine ⟨.ok ⟨regions, sound⟩, rfl, iff_of_true ⟨_, rfl⟩ tiled, ?_⟩
    rintro p accepted
    cases accepted
    refine ⟨rfl, fun a below => ?_, fun a outside => kindAt_of_outside outside⟩
    obtain ⟨r, member, held⟩ := tiled.covered (BitVec.lt_def.mp below)
    exact ⟨r, member, spans_iff.mpr held, kindAt_of_mem (p := ⟨regions, sound⟩) member held⟩

end Partition
end ColdStart
