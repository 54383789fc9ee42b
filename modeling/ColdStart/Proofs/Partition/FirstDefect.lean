import ColdStart.Proofs.Partition.Tiling

/-! Why a list of regions is refused. `FirstDefect` says it about addresses and about the
whole list at once: the first region at fault and the first of its faults, else the least
pair of places whose regions have an address in common, else the least address that none
of the regions holds. The passes over the list see none of this. They compare words that
could wrap, ends in the place of addresses, and at the last only the starts of regions, so
each pass is brought down to what it finds in a list that the passes before it let through. -/
namespace ColdStart

namespace Region
variable {r : Region} {index : Nat} {d : Defect}

def Paged (r : Region) : Prop :=
  r.start.toNat % pageSize.toNat = 0 ∧ r.size.toNat % pageSize.toNat = 0

/-- What is wrong with the region by itself, as the one at `index`. Of several faults it is
the first that counts. -/
inductive Faulty (r : Region) (index : Nat) : Defect → Prop
  | zeroSized (none : r.size = 0) : Faulty r index (.zeroSized index)
  | misaligned (some : r.size ≠ 0) (unpaged : ¬ r.Paged) : Faulty r index (.misaligned index)
  | outsideWindow (some : r.size ≠ 0) (paged : r.Paged) (past : windowSize.toNat < r.limit) :
      Faulty r index (.outsideWindow index)

theorem unpaged_iff : (r.start % pageSize ≠ 0 ∨ r.size % pageSize ≠ 0) ↔ ¬ r.Paged := by
  have paged (w : Word) : w % pageSize = 0 ↔ w.toNat % pageSize.toNat = 0 :=
    BitVec.toNat_inj.symm.trans (by rw [BitVec.toNat_umod]; rfl)
  rw [Paged, ← paged, ← paged, Classical.not_and_iff_not_or_not]

/-- For a region with bytes the test against the window goes by its end alone. -/
theorem past_iff (some : r.size ≠ 0) :
    (windowSize ≤ r.start ∨ windowSize - r.start < r.size) ↔ windowSize.toNat < r.limit := by
  have sized : 0 < r.size.toNat := Nat.pos_of_ne_zero fun zero => some (BitVec.toNat_inj.mp zero)
  rw [← not_iff_not, inside_iff, Nat.not_lt, limit]
  omega

theorem defect?_eq_some_iff : r.defect? index = some d ↔ r.Faulty index d := by
  constructor
  · intro found
    unfold defect? at found
    split at found
    case isTrue none =>
      cases found
      exact .zeroSized none
    case isFalse some =>
      split at found
      case isTrue unpaged =>
        cases found
        exact .misaligned some (unpaged_iff.mp unpaged)
      case isFalse paged =>
        have paged := Classical.not_not.mp (mt unpaged_iff.mpr paged)
        split at found
        case isTrue past =>
          cases found
          exact .outsideWindow some paged ((past_iff some).mp past)
        case isFalse => nomatch found
  · intro faulty
    unfold defect?
    cases faulty with
    | zeroSized none => rw [if_pos none]
    | misaligned some unpaged => rw [if_neg some, if_pos (unpaged_iff.mpr unpaged)]
    | outsideWindow some paged past =>
      rw [if_neg some, if_neg (mt unpaged_iff.mp (not_not_intro paged)),
        if_pos ((past_iff some).mpr past)]

theorem Fit.not_faulty (fit : r.Fit) : ¬ r.Faulty index d := by
  intro faulty
  rw [← defect?_eq_some_iff, defect?_eq_none_iff.mpr fit] at faulty
  nomatch faulty

end Region

namespace Partition
open Region

variable {regions rest : List Region} {r : Region} {d : Defect} {i j : Nat}

/-- The regions at two places, given in their order, have an address in common. -/
def Share (regions : List Region) (i j : Nat) : Prop :=
  i < j ∧ ∃ r s, regions[i]? = some r ∧ regions[j]? = some s ∧ ∃ a, r.holds a ∧ s.holds a

/-- Of the pairs of places that share an address the least, by the first place and then by
the second. -/
structure FirstShare (regions : List Region) (i j : Nat) : Prop where
  share : Share regions i j
  least : ∀ k l, Share regions k l → i < k ∨ i = k ∧ j ≤ l

/-- The least address of the window that no region holds. -/
structure FirstFree (regions : List Region) (a : Word) : Prop where
  inside : a < windowSize
  free : ∀ r ∈ regions, ¬ r.holds a
  covered : ∀ b, b < a → ∃ r ∈ regions, r.holds b

/-- What a defect says of a list of which it is the first. Regions at fault come before
pairs that share an address, and these before addresses that are left out. -/
inductive FirstDefect (regions : List Region) : Defect → Prop
  | empty (none : regions = []) : FirstDefect regions .empty
  | tooManyRegions (many : maxRegions < regions.length) : FirstDefect regions .tooManyRegions
  | faulty (count : 1 ≤ regions.length ∧ regions.length ≤ maxRegions) {index : Nat} {r : Region}
      {d : Defect} (found : regions[index]? = some r) (faulty : r.Faulty index d)
      (earlier : ∀ s ∈ regions.take index, s.Fit) : FirstDefect regions d
  | overlap (count : 1 ≤ regions.length ∧ regions.length ≤ maxRegions)
      (fit : ∀ r ∈ regions, r.Fit) {i j : Nat} (first : FirstShare regions i j) :
      FirstDefect regions (.overlap i j)
  | gap (count : 1 ≤ regions.length ∧ regions.length ≤ maxRegions)
      (fit : ∀ r ∈ regions, r.Fit) (apart : ∀ i j, ¬ Share regions i j) {a : Word}
      (first : FirstFree regions a) : FirstDefect regions (.gap a)

/-- The first pass finds the first region at fault, and names it by its place. -/
theorem firstUnfit?_eq_some_iff {start : Nat} : firstUnfit? (regions.zipIdx start) = some d ↔
    ∃ i r, regions[i]? = some r ∧ r.Faulty (start + i) d ∧ ∀ s ∈ regions.take i, s.Fit := by
  induction regions generalizing start with
  | nil => simp [firstUnfit?]
  | cons r rest ih =>
    rw [List.zipIdx_cons, firstUnfit?_cons]
    cases own : r.defect? start with
    | none =>
      have fit := defect?_eq_none_iff.mp own
      rw [Option.none_or, ih]
      constructor
      · rintro ⟨i, s, found, faulty, earlier⟩
        refine ⟨i + 1, s, found, ?_, List.forall_mem_cons.mpr ⟨fit, earlier⟩⟩
        rwa [Nat.add_right_comm] at faulty
      · rintro ⟨i, s, found, faulty, earlier⟩
        cases i with
        | zero =>
          cases found
          exact absurd faulty fit.not_faulty
        | succ i =>
          refine ⟨i, s, found, ?_, (List.forall_mem_cons.mp earlier).2⟩
          rwa [Nat.add_right_comm]
    | some e =>
      have faulty := defect?_eq_some_iff.mp own
      rw [Option.some_or, Option.some.injEq]
      constructor
      · rintro rfl
        exact ⟨0, r, rfl, faulty, fun _ none => absurd none List.not_mem_nil⟩
      · rintro ⟨i, s, found, named, earlier⟩
        cases i with
        | zero =>
          cases found
          exact Option.some.inj (own.symm.trans (defect?_eq_some_iff.mpr named))
        | succ i => exact absurd faulty (earlier r List.mem_cons_self).not_faulty

theorem share_succ : Share (r :: rest) (i + 1) (j + 1) ↔ Share rest i j := by
  rw [Share, Nat.add_lt_add_iff_right]
  rfl

/-- The first region shares an address exactly with those that it is not apart from. -/
theorem share_zero (rFit : r.Fit) (fit : ∀ s ∈ rest, s.Fit) :
    Share (r :: rest) 0 (j + 1) ↔ ∃ s, rest[j]? = some s ∧ ¬ r.Apart s := by
  have met {s : Region} (member : s ∈ rest) : ¬ r.Apart s ↔ ∃ a, r.holds a ∧ s.holds a := by
    rw [apart_iff rFit (fit s member), not_forall_not]
  constructor
  · rintro ⟨_, r', s, ⟨⟩, found, both⟩
    exact ⟨s, found, (met (List.mem_of_getElem? found)).mpr both⟩
  · rintro ⟨s, found, meets⟩
    exact ⟨Nat.succ_pos j, r, s, rfl, found, (met (List.mem_of_getElem? found)).mp meets⟩

/-- One region is compared with those after it up to the first that it meets. -/
theorem firstMeeting?_first (rFit : r.Fit) (fit : ∀ s ∈ rest, s.Fit) (start : Nat) :
    (firstMeeting? r (rest.zipIdx start) = .ok none ∧ ∀ j, ¬ Share (r :: rest) 0 (j + 1)) ∨
    ∃ j, firstMeeting? r (rest.zipIdx start) = .ok (some (start + j)) ∧
      Share (r :: rest) 0 (j + 1) ∧ ∀ l < j, ¬ Share (r :: rest) 0 (l + 1) := by
  rw [firstMeeting?_ok rFit fun p member => fit p.1 (List.fst_mem_of_mem_zipIdx member)]
  simp only [share_zero rFit fit]
  cases found : (rest.zipIdx start).find? fun s => !decide (r.Apart s.1) with
  | none =>
    refine Or.inl ⟨rfl, ?_⟩
    rintro j ⟨s, there, meets⟩
    have apart := List.find?_eq_none.mp found (s, start + j)
      (List.mk_add_mem_zipIdx_iff_getElem?.mpr there)
    exact apart (by simpa using meets)
  | some q =>
    obtain ⟨meets, j, inside, here, before⟩ := List.find?_eq_some_iff_getElem.mp found
    rw [List.getElem_zipIdx] at here
    subst here
    rw [List.length_zipIdx] at inside
    refine Or.inr ⟨j, rfl, ⟨_, List.getElem?_eq_getElem inside, by simpa using meets⟩, ?_⟩
    rintro l earlier ⟨s, there, meetsEarlier⟩
    have apart := before l earlier
    rw [List.getElem_zipIdx] at apart
    rw [List.getElem?_eq_getElem (Nat.lt_trans earlier inside)] at there
    cases there
    exact meetsEarlier (by simpa using apart)

/-- The second pass finds the first pair of regions that share an address, if there is one. -/
theorem firstOverlap?_first (fit : ∀ r ∈ regions, r.Fit) (start : Nat) :
    (firstOverlap? (regions.zipIdx start) = .ok none ∧ ∀ i j, ¬ Share regions i j) ∨
    ∃ i j, firstOverlap? (regions.zipIdx start) = .ok (some (.overlap (start + i) (start + j))) ∧
      FirstShare regions i j := by
  induction regions generalizing start with
  | nil =>
    refine Or.inl ⟨rfl, ?_⟩
    rintro i j ⟨_, r, s, found, _⟩
    nomatch found
  | cons r rest ih =>
    obtain ⟨rFit, restFit⟩ := List.forall_mem_cons.mp fit
    rcases firstMeeting?_first rFit restFit (start + 1) with
      ⟨meeting, clear⟩ | ⟨j, meeting, share, least⟩
    · have onward : firstOverlap? ((r :: rest).zipIdx start) =
          firstOverlap? (rest.zipIdx (start + 1)) := by
        rw [List.zipIdx_cons, firstOverlap?, meeting]
        rfl
      -- Without a pair at the first place, the pairs are those of the rest.
      have later {i j : Nat} (shared : Share (r :: rest) i j) :
          ∃ k l, i = k + 1 ∧ j = l + 1 ∧ Share rest k l := by
        cases j with
        | zero => exact absurd shared.1 (Nat.not_lt_zero i)
        | succ l =>
          cases i with
          | zero => exact absurd shared (clear l)
          | succ k => exact ⟨k, l, rfl, rfl, share_succ.mp shared⟩
      rw [onward]
      rcases ih restFit (start + 1) with ⟨scanned, apart⟩ | ⟨i, j, scanned, share, least⟩
      · refine Or.inl ⟨scanned, fun i j shared => ?_⟩
        obtain ⟨k, l, _, _, shared⟩ := later shared
        exact apart k l shared
      · rw [Nat.add_right_comm, Nat.add_right_comm start 1 j] at scanned
        refine Or.inr ⟨i + 1, j + 1, scanned, share_succ.mpr share, fun k l shared => ?_⟩
        obtain ⟨k, l, rfl, rfl, inner⟩ := later shared
        have := least k l inner
        omega
    · refine Or.inr ⟨0, j + 1, ?_, share, fun k l shared => ?_⟩
      · rw [List.zipIdx_cons, firstOverlap?, meeting, Nat.add_right_comm]
        rfl
      · cases k with
        | succ k => exact Or.inl (Nat.succ_pos k)
        | zero =>
          cases l with
          | zero => exact absurd shared.1 (Nat.lt_irrefl 0)
          | succ l =>
            have onward : j ≤ l := Nat.not_lt.mp fun earlier => least l earlier shared
            exact Or.inr ⟨rfl, Nat.succ_le_succ onward⟩

theorem FirstShare.unique {k l : Nat} (one : FirstShare regions i j)
    (other : FirstShare regions k l) : i = k ∧ j = l := by
  have := one.least k l other.share
  have := other.least i j one.share
  omega

theorem FirstFree.unique {a b : Word} (one : FirstFree regions a)
    (other : FirstFree regions b) : a = b := by
  have notBelow {a b : Word} (free : ∀ r ∈ regions, ¬ r.holds a) (later : FirstFree regions b) :
      b ≤ a := by
    refine BitVec.not_lt.mp fun below => ?_
    obtain ⟨r, member, held⟩ := later.covered a below
    exact free r member held
  exact BitVec.le_antisymm (notBelow other.free one) (notBelow one.free other)

/-- Regions that share no address are apart. -/
theorem pairwise_apart_of_not_share (fit : ∀ r ∈ regions, r.Fit)
    (apart : ∀ i j, ¬ Share regions i j) : regions.Pairwise Apart := by
  rw [List.pairwise_iff_getElem]
  intro i j iInside jInside order
  rw [apart_iff (fit _ (List.getElem_mem iInside)) (fit _ (List.getElem_mem jInside))]
  intro a both
  exact apart i j ⟨order, _, _, List.getElem?_eq_getElem iInside,
    List.getElem?_eq_getElem jInside, a, both⟩

/-- The last pass finds the first address that no region holds, if there is one. -/
theorem firstGap?_first (fit : ∀ r ∈ regions, r.Fit) (apart : regions.Pairwise Apart) :
    (firstGap? regions (regions.length + 1) 0 = .ok none ∧ ∀ a, ¬ FirstFree regions a) ∨
    ∃ a, firstGap? regions (regions.length + 1) 0 = .ok (some (.gap a)) ∧ FirstFree regions a := by
  have room : ahead regions (0 : Word).toNat < regions.length + 1 :=
    Nat.lt_succ_of_le List.countP_le_length
  rcases firstGap?_spec fit apart Front.zero room with
    ⟨ended, covered⟩ | ⟨gap, ended, below, covered, free⟩
  · refine Or.inl ⟨ended, fun a first => ?_⟩
    obtain ⟨r, member, held⟩ := covered a.toNat (BitVec.lt_def.mp first.inside)
    exact first.free r member (spans_iff.mpr held)
  · refine Or.inr ⟨gap, ended, below, fun r member held => free r member (spans_iff.mp held), ?_⟩
    intro b before
    obtain ⟨r, member, held⟩ := covered b.toNat (BitVec.lt_def.mp before)
    exact ⟨r, member, spans_iff.mpr held⟩

theorem firstDefect_nil : FirstDefect [] d ↔ .empty = d := by
  constructor
  · intro first
    cases first with
    | empty => rfl
    | tooManyRegions many => nomatch many
    | faulty count | overlap count | gap count => nomatch count.1
  · rintro rfl
    exact .empty rfl

theorem firstDefect_iff_of_many (many : maxRegions < regions.length) :
    FirstDefect regions d ↔ .tooManyRegions = d := by
  constructor
  · intro first
    cases first with
    | empty none => exact absurd many (by rw [none]; decide)
    | tooManyRegions => rfl
    | faulty count | overlap count | gap count => exact absurd many (Nat.not_lt.mpr count.2)
  · rintro rfl
    exact .tooManyRegions many

section
variable (count : 1 ≤ regions.length ∧ regions.length ≤ maxRegions)
include count

/-- With a region at fault, the first defect is that of the first such region. -/
theorem firstDefect_iff_of_unfit {e : Defect} (unfit : firstUnfit? regions.zipIdx = some e) :
    FirstDefect regions d ↔ e = d := by
  constructor
  · intro first
    cases first with
    | empty none => exact absurd count.1 (by rw [none]; decide)
    | tooManyRegions many => exact absurd many (Nat.not_lt.mpr count.2)
    | faulty _ found faulty earlier =>
      have named : firstUnfit? regions.zipIdx = some d :=
        firstUnfit?_eq_some_iff.mpr ⟨_, _, found, by rwa [Nat.zero_add], earlier⟩
      exact Option.some.inj (unfit.symm.trans named)
    | overlap _ fit | gap _ fit =>
      rw [firstUnfit?_eq_none_iff.mpr fit] at unfit
      nomatch unfit
  · rintro rfl
    obtain ⟨i, r, found, faulty, earlier⟩ := firstUnfit?_eq_some_iff.mp unfit
    rw [Nat.zero_add] at faulty
    exact .faulty count found faulty earlier

/-- With no region at fault, the first defect is an overlap, or else a gap. -/
theorem firstDefect_iff_of_fit (fit : ∀ r ∈ regions, r.Fit) : FirstDefect regions d ↔
    (∃ i j, d = .overlap i j ∧ FirstShare regions i j) ∨
      (∀ i j, ¬ Share regions i j) ∧ ∃ a, d = .gap a ∧ FirstFree regions a := by
  constructor
  · intro first
    cases first with
    | empty none => exact absurd count.1 (by rw [none]; decide)
    | tooManyRegions many => exact absurd many (Nat.not_lt.mpr count.2)
    | faulty _ found faulty => exact absurd faulty (fit _ (List.mem_of_getElem? found)).not_faulty
    | overlap _ _ first => exact Or.inl ⟨_, _, rfl, first⟩
    | gap _ _ apart first => exact Or.inr ⟨apart, _, rfl, first⟩
  · rintro (⟨i, j, rfl, first⟩ | ⟨apart, a, rfl, first⟩)
    · exact .overlap count fit first
    · exact .gap count fit apart first

end

/-- The verdict always comes, and names the first defect if there is one. -/
theorem defect?_first (regions : List Region) :
    ∃ verdict, defect? regions = .ok verdict ∧ ∀ d, verdict = some d ↔ FirstDefect regions d := by
  unfold defect?
  by_cases none : regions = []
  · refine ⟨some .empty, if_pos (List.isEmpty_iff.mpr none), fun d => ?_⟩
    rw [none, firstDefect_nil, Option.some.injEq]
  rw [if_neg (mt List.isEmpty_iff.mp none)]
  by_cases many : maxRegions < regions.length
  · refine ⟨some .tooManyRegions, if_pos many, fun d => ?_⟩
    rw [firstDefect_iff_of_many many, Option.some.injEq]
  have count : 1 ≤ regions.length ∧ regions.length ≤ maxRegions :=
    ⟨List.length_pos_iff.mpr none, Nat.not_lt.mp many⟩
  rw [if_neg many, scanUnfit?_eq]
  cases unfit : firstUnfit? regions.zipIdx with
  | some e =>
    refine ⟨some e, rfl, fun d => ?_⟩
    rw [firstDefect_iff_of_unfit count unfit, Option.some.injEq]
  | none =>
    have fit := firstUnfit?_eq_none_iff.mp unfit
    simp only [firstDefect_iff_of_fit count fit]
    rcases firstOverlap?_first fit 0 with ⟨scanned, apart⟩ | ⟨i, j, scanned, first⟩
    · rcases firstGap?_first fit (pairwise_apart_of_not_share fit apart) with
        ⟨ended, covered⟩ | ⟨a, ended, first⟩
      · refine ⟨Option.none, ?_, fun d => iff_of_false (Option.some_ne_none d).symm ?_⟩
        · simp only [scanned]
          exact ended
        · rintro (⟨i, j, _, shared⟩ | ⟨_, a, _, free⟩)
          · exact apart i j shared.share
          · exact covered a free
      · refine ⟨some (.gap a), ?_, fun d => ?_⟩
        · simp only [scanned]
          exact ended
        · constructor
          · rintro ⟨⟩
            exact Or.inr ⟨apart, a, rfl, first⟩
          · rintro (⟨i, j, _, shared⟩ | ⟨_, b, rfl, free⟩)
            · exact absurd shared.share (apart i j)
            · rw [first.unique free]
    · rw [Nat.zero_add, Nat.zero_add] at scanned
      refine ⟨some (.overlap i j), ?_, fun d => ?_⟩
      · simp only [scanned]
        rfl
      · constructor
        · rintro ⟨⟩
          exact Or.inl ⟨i, j, rfl, first⟩
        · rintro (⟨k, l, rfl, other⟩ | ⟨apart, _⟩)
          · obtain ⟨rfl, rfl⟩ := first.unique other
            rfl
          · exact absurd first.share (apart i j)

/-- Every list of regions gets a verdict, and it is refused with a defect exactly if that is
its first: none or too many regions, else the first region at fault with the first of its
faults, else the least pair of places whose regions have an address in common, else the
least address of the window that no region holds. -/
theorem ofRegions?_refuses_first_defect (regions : List Region) :
    ∃ verdict, ofRegions? regions = .ok verdict ∧
      ∀ d, verdict = .error d ↔ FirstDefect regions d := by
  obtain ⟨verdict, ended, first⟩ := defect?_first regions
  unfold ofRegions?
  split
  · rename_i halt halted
    nomatch halted.symm.trans ended
  · rename_i e refused
    cases refused.symm.trans ended
    refine ⟨.error e, rfl, fun d => ?_⟩
    rw [← first, Except.error.injEq, Option.some.injEq]
  · rename_i sound
    cases sound.symm.trans ended
    refine ⟨_, rfl, fun d => ?_⟩
    rw [← first]
    exact iff_of_false (fun same => nomatch same) fun same => nomatch same

end Partition
end ColdStart
