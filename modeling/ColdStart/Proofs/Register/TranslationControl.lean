import ColdStart.Profile
import ColdStart.Proofs.Register.Update

/-! Translation control, composed and decoded. A composition is one update of each field, so
every field is read back as it was given, and from the fields every member of the settings:
the two regions' granules each by the encoding that is its own. A number that
a field has no room for is refused. So nothing is lost, and settings that a word was composed
from are the only ones that it can be composed from. -/
namespace ColdStart.TcrEl1

/-- The numbers that the fields have room for and the architecture a meaning. -/
structure Settings.Fit (s : Settings) : Prop where
  lower : 25 ≤ s.lower.width ∧ s.lower.width ≤ 48
  upper : 25 ≤ s.upper.width ∧ s.upper.width ≤ 48
  lowerShareability : s.lower.shareability ≤ 3
  upperShareability : s.upper.shareability ≤ 3

theorem Region.hasWidth_iff (r : Region) : r.hasWidth = true ↔ 25 ≤ r.width ∧ r.width ≤ 48 := by
  rw [hasWidth, Bool.and_eq_true, decide_eq_true_iff, decide_eq_true_iff]

theorem Settings.fit_iff (s : Settings) :
    s.Fit ↔ s.lower.hasWidth = true ∧ s.upper.hasWidth = true ∧
      s.lower.shareability < 4 ∧ s.upper.shareability < 4 := by
  rw [Region.hasWidth_iff, Region.hasWidth_iff, Nat.lt_succ_iff, Nat.lt_succ_iff]
  constructor
  · rintro ⟨lower, upper, lowerShareability, upperShareability⟩
    exact ⟨lower, upper, lowerShareability, upperShareability⟩
  · rintro ⟨lower, upper, lowerShareability, upperShareability⟩
    exact ⟨lower, upper, lowerShareability, upperShareability⟩

instance (s : Settings) : Decidable s.Fit :=
  decidable_of_iff _ s.fit_iff.symm

theorem admits_cacheability (f : Field) (two : f.width = 2) (c : WalkCacheability) :
    f.Admits c.code := by
  rw [f.admits_iff (by omega), two]
  cases c <;> decide

theorem admits_size (s : PhysicalSize) : ips.Admits s.code := by
  cases s <;> decide

theorem admits_lowerCode (g : Granule) : tg0.Admits g.lowerCode.toNat := by
  cases g <;> decide

theorem admits_upperCode (g : Granule) : tg1.Admits g.upperCode.toNat := by
  cases g <;> decide

theorem admits_width (f : Field) (six : f.width = 6) {r : Region} (wide : 25 ≤ r.width) :
    f.Admits (64 - r.width) := by
  rw [f.admits_iff (by omega), six]
  omega

theorem admits_shareability_iff (f : Field) (two : f.width = 2) {r : Region} :
    f.Admits r.shareability ↔ r.shareability ≤ 3 := by
  rw [f.admits_iff (by omega), two]
  exact Nat.lt_succ_iff

/-- Just the settings that fit are composed. Of all numbers only a shareability can be too
large for its field, once the widths have passed. -/
theorem compose_eq_ok_iff {s : Settings} {v : Value .tcrEl1} :
    compose s = .ok v ↔ s.Fit ∧ v = pack s := by
  simp only [compose, require_bind_eq_ok_iff, Value.enter?_bind_eq_ok_iff, Region.hasWidth_iff,
    BitVec.ofNat_toNat, BitVec.setWidth_eq]
  constructor
  · rintro ⟨lower, upper, -, -, -, -, -, low, -, -, -, -, high, composed⟩
    exact ⟨⟨lower, upper, (admits_shareability_iff sh0 rfl).mp low,
      (admits_shareability_iff sh1 rfl).mp high⟩, (Except.ok.inj composed).symm⟩
  · rintro ⟨fit, rfl⟩
    exact ⟨fit.lower, fit.upper, admits_size _, admits_width t0sz rfl fit.lower.1,
      admits_lowerCode _, admits_cacheability irgn0 rfl _, admits_cacheability orgn0 rfl _,
      (admits_shareability_iff sh0 rfl).mpr fit.lowerShareability,
      admits_width t1sz rfl fit.upper.1, admits_upperCode _, admits_cacheability irgn1 rfl _,
      admits_cacheability orgn1 rfl _,
      (admits_shareability_iff sh1 rfl).mpr fit.upperShareability, rfl⟩

theorem compose_eq_error_iff {s : Settings} : (∃ halt, compose s = .error halt) ↔ ¬ s.Fit := by
  constructor
  · rintro ⟨halt, refused⟩ fit
    have composed := compose_eq_ok_iff.mpr ⟨fit, rfl⟩
    rw [refused] at composed
    cases composed
  · intro unfit
    cases result : compose s with
    | error halt => exact ⟨halt, rfl⟩
    | ok v => exact absurd (compose_eq_ok_iff.mp result).1 unfit

-- The translation control of this boot is composed without a halt.
example : compose Profile.translation = .ok Profile.tcr := rfl

/-- The updates that a composition consists of. -/
def Settings.updates (s : Settings) (fit : s.Fit) : List (Update .tcrEl1) := [
  .entered (by decide) (admits_size s.physicalSize),
  .flag a1 (by decide) rfl s.asidFromUpper,
  .entered (by decide) (admits_width t0sz rfl fit.lower.1),
  .number tg0 (by decide) _ ((admits_lowerCode s.lower.granule).fits (by decide)),
  .entered (by decide) (admits_cacheability irgn0 rfl s.lower.inner),
  .entered (by decide) (admits_cacheability orgn0 rfl s.lower.outer),
  .entered (by decide) ((admits_shareability_iff sh0 rfl).mpr fit.lowerShareability),
  .flag epd0 (by decide) rfl s.lower.walksDisabled,
  .entered (by decide) (admits_width t1sz rfl fit.upper.1),
  .number tg1 (by decide) _ ((admits_upperCode s.upper.granule).fits (by decide)),
  .entered (by decide) (admits_cacheability irgn1 rfl s.upper.inner),
  .entered (by decide) (admits_cacheability orgn1 rfl s.upper.outer),
  .entered (by decide) ((admits_shareability_iff sh1 rfl).mpr fit.upperShareability),
  .flag epd1 (by decide) rfl s.upper.walksDisabled]

theorem pack_eq_after (s : Settings) (fit : s.Fit) : pack s = Update.after ⟨0⟩ (s.updates fit) :=
  rfl

theorem updates_distinct (s : Settings) (fit : s.Fit) :
    ((s.updates fit).map Update.field).Nodup := by
  change [ips, a1, t0sz, tg0, irgn0, orgn0, sh0, epd0, t1sz, tg1, irgn1, orgn1, sh1, epd1].Nodup
  decide

/-- A number below 64 that a field was given is the number it holds. -/
theorem toNat_held {w : Word} {n : Nat} (held : w = BitVec.ofNat 64 n) (small : n < 64) :
    w.toNat = n := by
  rw [held]
  exact Nat.mod_eq_of_lt (small.trans (by decide))

def cacheability? (w : Word) : Option WalkCacheability :=
  (Coded.ofCode? WalkCacheability w.toNat).toOption

/-- The settings that a word spells out, unless one of its encodings is reserved. -/
def settings? (v : Value .tcrEl1) : Option Settings := do
  let lower : Region := {
    width := lowerWidth v
    granule := ← lowerGranule v
    inner := ← cacheability? (v.read irgn0)
    outer := ← cacheability? (v.read orgn0)
    shareability := (v.read sh0).toNat
    walksDisabled := v.test epd0 }
  let upper : Region := {
    width := upperWidth v
    granule := ← upperGranule v
    inner := ← cacheability? (v.read irgn1)
    outer := ← cacheability? (v.read orgn1)
    shareability := (v.read sh1).toNat
    walksDisabled := v.test epd1 }
  let physicalSize ← (Coded.ofCode? PhysicalSize (v.read ips).toNat).toOption
  return { lower, upper, asidFromUpper := v.test a1, physicalSize }

theorem cacheability?_held {w : Word} {c : WalkCacheability}
    (held : w = BitVec.ofNat 64 c.code) : cacheability? w = some c := by
  have decoded : Coded.ofCode? WalkCacheability c.code = .ok c := Coded.ofCode?_code c
  rw [cacheability?, toNat_held held (by cases c <;> decide), decoded]
  rfl

theorem width_held {w : Word} {r : Region} (held : w = BitVec.ofNat 64 (64 - r.width))
    (width : 25 ≤ r.width ∧ r.width ≤ 48) : 64 - w.toNat = r.width := by
  rw [toNat_held held (by omega)]
  omega

theorem settings?_pack {s : Settings} (fit : s.Fit) : settings? (pack s) = some s := by
  have made := Update.after_makes ⟨0⟩ (s.updates fit)
  have held : ∀ u ∈ s.updates fit, u.ReadBack (pack s) :=
    fun u member => made.readBack (updates_distinct s fit) member
  simp only [Settings.updates, Update.entered, List.forall_mem_cons, Update.ReadBack] at held
  obtain ⟨size, asid, width, granule, inner, outer, shareability, disabled,
    width', granule', inner', outer', shareability', disabled', -⟩ := held
  have lowerWidth : lowerWidth (pack s) = s.lower.width := width_held width fit.lower
  have upperWidth : upperWidth (pack s) = s.upper.width := width_held width' fit.upper
  have lowerGranule : lowerGranule (pack s) = some s.lower.granule := by
    rw [TcrEl1.lowerGranule, granule, Granule.ofLowerCode?_lowerCode]
  have upperGranule : upperGranule (pack s) = some s.upper.granule := by
    rw [TcrEl1.upperGranule, granule', Granule.ofUpperCode?_upperCode]
  have lowerShareability := toNat_held shareability (by have := fit.lowerShareability; omega)
  have upperShareability := toNat_held shareability' (by have := fit.upperShareability; omega)
  have code := toNat_held size (by cases s.physicalSize <;> decide)
  have decoded : Coded.ofCode? PhysicalSize s.physicalSize.code = .ok s.physicalSize :=
    Coded.ofCode?_code s.physicalSize
  rw [settings?, lowerWidth, upperWidth, lowerGranule, upperGranule, cacheability?_held inner,
    cacheability?_held outer, cacheability?_held inner', cacheability?_held outer',
    lowerShareability, upperShareability, disabled, disabled', asid, code, decoded]
  rfl

/-- A composition loses nothing. It halts exactly for a width that no region has or a
shareability that no field holds. All other settings are decoded from the word again, which
has no bit outside its fields, and they are the only ones that compose to it. -/
theorem compose_lossless (s : Settings) :
    (¬ s.Fit → ∃ halt, compose s = .error halt) ∧
    (s.Fit → ∃ v, compose s = .ok v ∧ settings? v = some s ∧
      (∀ bit < 64, Value.Undeclared .tcrEl1 bit → v.word.getLsbD bit = false) ∧
      ∀ t, compose t = .ok v → t = s) := by
  refine ⟨compose_eq_error_iff.mpr, ?_⟩
  intro fit
  refine ⟨pack s, compose_eq_ok_iff.mpr ⟨fit, rfl⟩, settings?_pack fit, ?_, ?_⟩
  · intro bit inside undeclared
    rw [pack_eq_after s fit, Update.getLsbD_after_of_undeclared undeclared inside]
    exact BitVec.getLsbD_zero
  · intro t composed
    obtain ⟨fit', same⟩ := compose_eq_ok_iff.mp composed
    have decoded := settings?_pack fit'
    rw [← same, settings?_pack fit] at decoded
    exact (Option.some.inj decoded).symm

/-- Two regions that differ in every member, at the ends of their ranges. -/
theorem compose_lossless_of_unlike_regions :
    ∃ s : Settings, s.lower = ⟨48, .kb4, .nonCacheable, .writeThrough, 3, false⟩ ∧
      s.upper = ⟨25, .kb16, .writeThrough, .nonCacheable, 0, true⟩ ∧ s.Fit ∧
      ∃ v, compose s = .ok v ∧ settings? v = some s := by
  have fit : (Settings.mk ⟨48, .kb4, .nonCacheable, .writeThrough, 3, false⟩
      ⟨25, .kb16, .writeThrough, .nonCacheable, 0, true⟩ true .bits52).Fit := by
    decide
  obtain ⟨v, composed, decoded, -⟩ := (compose_lossless _).2 fit
  exact ⟨_, rfl, rfl, fit, v, composed, decoded⟩

end ColdStart.TcrEl1
