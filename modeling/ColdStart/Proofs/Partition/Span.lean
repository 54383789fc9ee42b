import ColdStart.Proofs.Partition.Tiling
import Mathlib.Algebra.GroupWithZero.Nat
import Mathlib.Order.Interval.Finset.Nat

/-! The kind of a span, which is decided from the lengths that regions have in
common with it and from nothing else. The lengths of regions that are apart add up
to the number of addresses covered, so on a partition the sum tells whether the
span goes on past the window. What the scan knows half way is `Scan`. -/
namespace ColdStart

theorem Word.toNat_addClamped (a b : Word) :
    (addClamped a b).toNat = min (a.toNat + b.toNat) (count - 1) := by
  have top : (BitVec.allOnes 64).toNat = count - 1 := by decide
  unfold addClamped
  split
  · rename_i fits
    rw [toNat_of_add? (add?_ok fits)]
    omega
  · rw [top]
    omega

namespace Region

/-- The bytes that a region has in common with `[low, high)`. -/
def clip (low high : Nat) (r : Region) : Nat :=
  min high r.limit - max low r.start.toNat

/-- The region has a byte in `[low, high)`. -/
def Meets (r : Region) (low high : Nat) : Prop :=
  max low r.start.toNat < min high r.limit

theorem Meets.of_spans {r : Region} {low high a : Nat} (held : r.Spans a) (above : low ≤ a)
    (below : a < high) : r.Meets low high := by
  obtain ⟨start, limit⟩ := held
  unfold Meets
  omega

/-- A region that meets a span does so at an address. -/
theorem Meets.witness {r : Region} {low high : Nat} (meets : r.Meets low high) (fit : r.Fit) :
    ∃ a : Word, r.Spans a.toNat ∧ low ≤ a.toNat ∧ a.toNat < high := by
  unfold Meets at meets
  have small := fit.limit_lt
  have word : (BitVec.ofNat 64 (max low r.start.toNat)).toNat = max low r.start.toNat :=
    Nat.mod_eq_of_lt (Nat.lt_of_lt_of_le (by omega) (Nat.le_of_lt small))
  exact ⟨BitVec.ofNat 64 (max low r.start.toNat), by rw [word]; constructor <;> omega, by omega, by omega⟩

theorem clip_eq_card (r : Region) (low high : Nat) :
    r.clip low high = ((Finset.Ico low high).filter fun a => r.Spans a).card := by
  have same : ((Finset.Ico low high).filter fun a => r.Spans a) =
      Finset.Ico (max low r.start.toNat) (min high r.limit) := by
    ext a
    simp only [Finset.mem_filter, Finset.mem_Ico]
    unfold Spans
    omega
  rw [same, Nat.card_Ico, clip]

end Region

namespace Partition
open Region

variable {regions : List Region}

/-- Regions that are apart cover as many addresses of a span as their lengths in it
add up to. -/
theorem sum_clip (apart : regions.Pairwise Apart) (low high : Nat) :
    (regions.map (clip low high)).sum =
      ((Finset.Ico low high).filter fun a => ∃ r ∈ regions, r.Spans a).card := by
  induction regions with
  | nil => simp
  | cons r rest ih =>
    obtain ⟨clear, restApart⟩ := List.pairwise_cons.mp apart
    have disjoint : Disjoint ((Finset.Ico low high).filter fun a => r.Spans a)
        ((Finset.Ico low high).filter fun a => ∃ s ∈ rest, s.Spans a) := by
      rw [Finset.disjoint_filter]
      rintro a _ ⟨rLow, rHigh⟩ ⟨s, member, sLow, sHigh⟩
      rcases clear s member with before | after <;> omega
    rw [List.map_cons, List.sum_cons, ih restApart, clip_eq_card,
      ← Finset.card_union_of_disjoint disjoint, ← Finset.filter_or]
    simp only [List.mem_cons, exists_eq_or_imp]

theorem Tiling.sum_clip (tiling : Tiling regions) (low high : Nat) :
    (regions.map (clip low high)).sum = min high windowSize.toNat - low := by
  have same : ((Finset.Ico low high).filter fun a => ∃ r ∈ regions, r.Spans a) =
      Finset.Ico low (min high windowSize.toNat) := by
    ext a
    simp only [Finset.mem_filter, Finset.mem_Ico]
    constructor
    · rintro ⟨within, r, member, _, below⟩
      have := (tiling.fit r member).inside
      omega
    · rintro ⟨above, below⟩
      exact ⟨by omega, tiling.covered (by omega)⟩
  rw [Partition.sum_clip tiling.apart, same, Nat.card_Ico]

/-- What the scan of a span has found out from the regions it has seen. -/
structure Scan (low high : Nat) (seen : List Region) (found : Cover) : Prop where
  bytes : found.bytes.toNat = (seen.map (clip low high)).sum
  kind : ∀ r ∈ seen, r.Meets low high → found.kind = some r.memory
  met : ∀ k, found.kind = some k → ∃ r ∈ seen, r.Meets low high ∧ r.memory = k

theorem Scan.nil (low high : Nat) : Scan low high [] ⟨none, 0⟩ where
  bytes := rfl
  kind _ member := nomatch member
  met _ some := nomatch some

variable {low high : Nat} {seen : List Region} {found : Cover} {r : Region}

theorem Scan.skip (scan : Scan low high seen found) (misses : ¬ r.Meets low high) :
    Scan low high (seen ++ [r]) found where
  bytes := by
    have zero : r.clip low high = 0 := by
      unfold Meets at misses
      unfold clip
      omega
    rw [List.map_append, List.sum_append, ← scan.bytes, List.map_singleton, List.sum_singleton, zero,
      Nat.add_zero]
  kind s member meets := by
    rcases List.mem_append.mp member with before | last
    · exact scan.kind s before meets
    · rw [List.mem_singleton.mp last] at meets
      exact absurd meets misses
  met k same := by
    obtain ⟨s, member, meets, kind⟩ := scan.met k same
    exact ⟨s, List.mem_append_left _ member, meets, kind⟩

theorem Scan.count (scan : Scan low high seen found) (meets : r.Meets low high) {bytes : Word}
    (sum : bytes.toNat = found.bytes.toNat + r.clip low high)
    (kind : found.kind = none ∨ found.kind = some r.memory) :
    Scan low high (seen ++ [r]) ⟨some r.memory, bytes⟩ where
  bytes := by
    rw [sum, scan.bytes, List.map_append, List.sum_append, List.map_singleton, List.sum_singleton]
  kind s member sMeets := by
    rcases List.mem_append.mp member with before | last
    · have known := scan.kind s before sMeets
      rcases kind with none | same
      · rw [none] at known
        contradiction
      · exact same.symm.trans known
    · rw [List.mem_singleton.mp last]
  met k same := ⟨r, List.mem_append_right _ (List.mem_singleton_self r), meets, Option.some.inj same⟩

section
variable {start stop : Word} {rest : List Region}

theorem toNat_later : (if r.start ≤ start then start else r.start).toNat =
    max start.toNat r.start.toNat := by
  simp only [BitVec.le_def]
  split <;> omega

theorem toNat_earlier (fit : r.Fit) :
    (if r.start + r.size ≤ stop then r.start + r.size else stop).toNat = min stop.toNat r.limit := by
  simp only [BitVec.le_def, fit.toNat_stop]
  split
  · rw [fit.toNat_stop]
    omega
  · omega

theorem cover?_skip (fit : r.Fit) (misses : ¬ r.Meets start.toNat stop.toNat) :
    cover? start stop found (r :: rest) = cover? start stop found rest := by
  rw [cover?, fit.stop_ok]
  simp only [bind, Except.bind]
  rw [if_pos]
  rw [BitVec.le_def, toNat_later, toNat_earlier fit]
  exact Nat.not_lt.mp misses

theorem cover?_count (fit : r.Fit) (meets : r.Meets start.toNat stop.toNat)
    (room : found.bytes.toNat + r.clip start.toNat stop.toNat < Word.count) :
    ∃ bytes : Word, bytes.toNat = found.bytes.toNat + r.clip start.toNat stop.toNat ∧
      cover? start stop found (r :: rest) =
        match found.kind with
        | none => cover? start stop ⟨some r.memory, bytes⟩ rest
        | some kind =>
          if kind = r.memory then cover? start stop ⟨some kind, bytes⟩ rest else .ok none := by
  have later : (if r.start ≤ start then start else r.start).toNat =
      max start.toNat r.start.toNat := toNat_later
  have earlier : (if r.start + r.size ≤ stop then r.start + r.size else stop).toNat =
      min stop.toNat r.limit := toNat_earlier fit
  rw [cover?, fit.stop_ok]
  simp only [bind, Except.bind]
  generalize (if r.start ≤ start then start else r.start) = low at later ⊢
  generalize (if r.start + r.size ≤ stop then r.start + r.size else stop) = high at earlier ⊢
  unfold Meets at meets
  have below : low < high := BitVec.lt_def.mpr (by omega)
  rw [if_neg (BitVec.not_le.mpr below)]
  have difference := Word.sub?_ok (BitVec.le_of_lt below)
  have clipped : (high - low).toNat = r.clip start.toNat stop.toNat := by
    have := Word.toNat_of_sub? difference
    unfold clip
    omega
  have sum := Word.add?_ok (a := found.bytes) (b := high - low) (by omega)
  refine ⟨found.bytes + (high - low), by rw [Word.toNat_of_add? sum, clipped], ?_⟩
  simp only [difference, sum]
  rfl

theorem cover?_spec (fit : ∀ r ∈ rest, r.Fit) (scan : Scan start.toNat stop.toNat seen found)
    (room : ((seen ++ rest).map (clip start.toNat stop.toNat)).sum < Word.count) :
    (∃ total, cover? start stop found rest = .ok (some total) ∧
      Scan start.toNat stop.toNat (seen ++ rest) total) ∨
    (cover? start stop found rest = .ok none ∧
      ∃ r ∈ seen ++ rest, ∃ s ∈ seen ++ rest, r.Meets start.toNat stop.toNat ∧
        s.Meets start.toNat stop.toNat ∧ r.memory ≠ s.memory) := by
  induction rest generalizing seen found with
  | nil => exact Or.inl ⟨found, rfl, (List.append_nil seen).symm ▸ scan⟩
  | cons r rest ih =>
    have rFit := fit r List.mem_cons_self
    have restFit : ∀ s ∈ rest, s.Fit := fun s member => fit s (List.mem_cons_of_mem _ member)
    have regroup : seen ++ r :: rest = seen ++ [r] ++ rest := by simp
    rw [regroup] at room ⊢
    by_cases meets : r.Meets start.toNat stop.toNat
    · have fits : found.bytes.toNat + r.clip start.toNat stop.toNat < Word.count := by
        simp only [List.map_append, List.sum_append, ← scan.bytes, List.map_singleton,
          List.sum_singleton] at room
        omega
      obtain ⟨bytes, sum, step⟩ := cover?_count rFit meets fits
      rw [step]
      cases kind : found.kind with
      | none => exact ih restFit (scan.count meets sum (Or.inl kind)) room
      | some k =>
        by_cases same : k = r.memory
        · subst same
          simp only [if_true]
          exact ih restFit (scan.count meets sum (Or.inr kind)) room
        · obtain ⟨s, member, sMeets, sKind⟩ := scan.met k kind
          refine Or.inr ⟨if_neg same, s, ?_, r, ?_, sMeets, meets, by rwa [sKind]⟩
          · exact List.mem_append_left _ (List.mem_append_left _ member)
          · exact List.mem_append_left _ (List.mem_append_right _ (List.mem_singleton_self r))
    · rw [cover?_skip rFit meets]
      exact ih restFit (scan.skip meets) room

end

/-- The span of a number of bytes, as far as there are addresses. -/
def InSpan (start size a : Word) : Prop :=
  start.toNat ≤ a.toNat ∧ a.toNat < start.toNat + size.toNat

/-- Within the window the scan of a whole partition has met every address. -/
theorem Scan.kindAt {p : Partition} (scan : Scan low high p.regions found) {a : Word}
    (above : low ≤ a.toNat) (below : a.toNat < high) (inside : a < windowSize) :
    found.kind = some (p.kindAt a) := by
  obtain ⟨r, member, held⟩ := p.tiling.covered (BitVec.lt_def.mp inside)
  rw [kindAt_of_mem member held]
  exact scan.kind r member (Meets.of_spans held above below)

theorem Scan.exists_kindAt {p : Partition} (scan : Scan low high p.regions found) {k : MemoryKind}
    (kind : found.kind = some k) :
    ∃ a : Word, low ≤ a.toNat ∧ a.toNat < high ∧ p.kindAt a = k := by
  obtain ⟨r, member, meets, rfl⟩ := scan.met k kind
  obtain ⟨a, held, above, below⟩ := meets.witness (p.tiling.fit r member)
  exact ⟨a, above, below, kindAt_of_mem member held⟩

/-- The sum of the lengths falls short of the span's exactly where the span goes on
past the window. -/
theorem Scan.bytes_lt_iff {p : Partition} {start size : Word} (positive : 0 < size.toNat)
    (scan : Scan start.toNat (Word.addClamped start size).toNat p.regions found) :
    found.bytes < size ↔ windowSize.toNat < start.toNat + size.toNat := by
  have small : windowSize.toNat < Word.count - 1 := by decide
  rw [BitVec.lt_def, scan.bytes, p.tiling.sum_clip, Word.toNat_addClamped]
  omega

/-- The scan of a partition never halts; it stops early only at a span that has two
kinds. -/
theorem cover?_regions (p : Partition) (start stop : Word) :
    (∃ total, cover? start stop ⟨none, 0⟩ p.regions = .ok (some total) ∧
      Scan start.toNat stop.toNat p.regions total) ∨
    (cover? start stop ⟨none, 0⟩ p.regions = .ok none ∧
      ∃ a b : Word, (start.toNat ≤ a.toNat ∧ a.toNat < stop.toNat) ∧
        (start.toNat ≤ b.toNat ∧ b.toNat < stop.toNat) ∧ p.kindAt a ≠ p.kindAt b) := by
  have fit := p.tiling.fit
  have room : (p.regions.map (clip start.toNat stop.toNat)).sum < Word.count := by
    have small : windowSize.toNat < Word.count := by decide
    rw [p.tiling.sum_clip]
    omega
  rcases cover?_spec fit (Scan.nil start.toNat stop.toNat) room with
    found | ⟨ended, r, rMem, s, sMem, rMeets, sMeets, differ⟩
  · exact Or.inl found
  · obtain ⟨a, aHeld, aBounds⟩ := rMeets.witness (fit r rMem)
    obtain ⟨b, bHeld, bBounds⟩ := sMeets.witness (fit s sMem)
    refine Or.inr ⟨ended, a, b, aBounds, bBounds, ?_⟩
    rwa [kindAt_of_mem rMem aHeld, kindAt_of_mem sMem bHeld]

/-- The kind of a span is that of each of its bytes, and there is none exactly where
they differ. -/
theorem kindOver_spec (p : Partition) {start size : Word} (positive : 0 < size.toNat) :
    ∃ verdict, p.kindOver start size = .ok verdict ∧
      ∀ k, verdict = some k ↔ ∀ a, InSpan start size a → p.kindAt a = k := by
  have stop := Word.toNat_addClamped start size
  have small : windowSize.toNat < Word.count - 1 := by decide
  unfold kindOver
  rcases cover?_regions p start (Word.addClamped start size) with
    ⟨total, ended, scan⟩ | ⟨ended, a, b, ⟨aLow, aHigh⟩, ⟨bLow, bHigh⟩, differ⟩
  · have short := scan.bytes_lt_iff positive
    have known : ∀ a, InSpan start size a → a < windowSize → total.kind = some (p.kindAt a) := by
      rintro a ⟨above, below⟩ inside
      have := BitVec.lt_def.mp inside
      exact scan.kindAt above (by omega) inside
    simp only [ended, bind, Except.bind]
    by_cases past : windowSize.toNat < start.toNat + size.toNat
    · -- The address where the span leaves the window, or its start if it begins beyond.
      have outside : ∃ b : Word, InSpan start size b ∧ p.kindAt b = .strictest := by
        by_cases beyond : windowSize ≤ start
        · exact ⟨start, ⟨Nat.le_refl _, by omega⟩, kindAt_of_outside beyond⟩
        · have := BitVec.lt_def.mp (BitVec.not_le.mp beyond)
          exact ⟨windowSize, ⟨by omega, past⟩, kindAt_of_outside (BitVec.le_refl _)⟩
      obtain ⟨b, bInside, bKind⟩ := outside
      refine ⟨_, if_pos (short.mpr past), fun k => ?_⟩
      by_cases strict : total.kind.getD .strictest = .strictest
      · rw [if_pos strict]
        constructor
        · rintro ⟨rfl⟩ a aInside
          by_cases inside : a < windowSize
          · rwa [known a aInside inside] at strict
          · exact kindAt_of_outside (BitVec.not_lt.mp inside)
        · intro uniform
          rw [← bKind, uniform b bInside]
      · rw [if_neg strict]
        refine iff_of_false (Option.some_ne_none k).symm fun uniform => strict ?_
        cases kind : total.kind with
        | none => rfl
        | some found =>
          obtain ⟨a, aLow, aHigh, aKind⟩ := scan.exists_kindAt kind
          rw [Option.getD_some, ← aKind, uniform a ⟨aLow, by omega⟩, ← uniform b bInside, bKind]
    · have first := known start ⟨Nat.le_refl _, by omega⟩ (BitVec.lt_def.mpr (by omega))
      refine ⟨total.kind, if_neg (mt short.mp past), fun k => ?_⟩
      constructor
      · rintro kind a ⟨above, below⟩
        have := known a ⟨above, below⟩ (BitVec.lt_def.mpr (by omega))
        exact Option.some.inj (this.symm.trans kind)
      · intro uniform
        rw [first, uniform start ⟨Nat.le_refl _, by omega⟩]
  · refine ⟨none, by simp only [ended]; rfl, fun k => iff_of_false (Option.some_ne_none k).symm ?_⟩
    intro uniform
    have aKind := uniform a ⟨aLow, by omega⟩
    have bKind := uniform b ⟨bLow, by omega⟩
    exact differ (aKind.trans bKind.symm)

/-- Counted from its start, a span ends with its size or with the last address. -/
theorem inSpan_iff {start size a : Word} :
    InSpan start size a ↔ start ≤ a ∧ a - start < size := by
  unfold InSpan
  rw [BitVec.lt_def, BitVec.le_def]
  constructor
  · rintro ⟨above, below⟩
    rw [BitVec.toNat_sub_of_le above]
    exact ⟨above, by omega⟩
  · rintro ⟨above, below⟩
    rw [BitVec.toNat_sub_of_le above] at below
    exact ⟨above, by omega⟩

/-- On a span that has bytes the answer always comes. It is a kind exactly if every
byte has that kind, and there is none exactly if two bytes differ. -/
theorem kindOver_bytewise (p : Partition) {start size : Word} (nonempty : 1 ≤ size) :
    ∃ verdict, p.kindOver start size = .ok verdict ∧
      (∀ k, verdict = some k ↔ ∀ a, start ≤ a → a - start < size → p.kindAt a = k) ∧
      (verdict = none ↔ ∃ a b, (start ≤ a ∧ a - start < size) ∧ (start ≤ b ∧ b - start < size) ∧
        p.kindAt a ≠ p.kindAt b) := by
  have positive : 0 < size.toNat := BitVec.le_def.mp nonempty
  obtain ⟨verdict, ended, uniform⟩ := @kindOver_spec p start size positive
  simp only [inSpan_iff, and_imp] at uniform
  have first : start ≤ start ∧ start - start < size :=
    inSpan_iff.mp ⟨Nat.le_refl _, Nat.lt_add_of_pos_right positive⟩
  refine ⟨verdict, ended, uniform, ?_⟩
  constructor
  · intro mixed
    -- The kind of the first byte is not that of all of them.
    have differ : ¬ ∀ a, start ≤ a → a - start < size → p.kindAt a = p.kindAt start := by
      rw [← uniform, mixed]
      exact (Option.some_ne_none _).symm
    push Not at differ
    obtain ⟨a, above, below, ne⟩ := differ
    exact ⟨a, start, ⟨above, below⟩, first, ne⟩
  · rintro ⟨a, b, ⟨aLow, aHigh⟩, ⟨bLow, bHigh⟩, ne⟩
    cases verdict with
    | none => rfl
    | some k =>
      have same := (uniform k).mp rfl
      exact absurd ((same a aLow aHigh).trans (same b bLow bHigh).symm) ne

/-- A span from the last page of the window that runs past the top of memory. -/
theorem kindOver_bytewise_past_top :
    1 ≤ BitVec.allOnes 64 ∧
      Partition.standard.kindOver 0x3ff000 (BitVec.allOnes 64) = .ok (some .device) ∧
      ∀ a : Word, 0x3ff000 ≤ a → a - 0x3ff000 < BitVec.allOnes 64 →
        Partition.standard.kindAt a = .device := by
  have answer : Partition.standard.kindOver 0x3ff000 (BitVec.allOnes 64) =
      .ok (some .device) := by decide
  obtain ⟨verdict, ended, uniform, _⟩ :=
    @kindOver_bytewise .standard 0x3ff000 (BitVec.allOnes 64) (by decide)
  have found : verdict = some .device := Except.ok.inj (ended.symm.trans answer)
  exact ⟨by decide, answer, (uniform .device).mp found⟩

end Partition
end ColdStart
