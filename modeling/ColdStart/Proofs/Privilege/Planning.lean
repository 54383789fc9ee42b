import ColdStart.Privilege.Descent

/-! Planning a descent. The places are filled from the first one on, so at any time they hold
the exits planned so far and nothing behind them. Every exit leads to the level one rank
below, and there are as many places as ranks: planning never runs out of places, and ends
with the exits of the levels left, in order. -/
namespace ColdStart.Descent

theorem levelsLeft_of_reached {level target : Level} (reached : ¬ target < level) :
    levelsLeft level target = [] := by
  cases level <;> cases target <;> first | rfl | exact absurd (by decide) reached

theorem levelsLeft_of_lt {level lower target : Level} (above : target < level)
    (next : level.below = some lower) :
    levelsLeft level target = level :: levelsLeft lower target := by
  cases level <;> cases next <;> cases target <;> first | rfl | exact absurd above (by decide)

theorem exists_below {level target : Level} (above : target < level) :
    ∃ lower, level.below = some lower := by
  cases level with
  | el0 => exact absurd above (Nat.not_lt_zero _)
  | _ => exact ⟨_, rfl⟩

theorem exists_leaving {level lower : Level} (next : level.below = some lower) :
    ∃ e, Exit.leaving? level = some e := by
  cases level <;> cases next <;> exact ⟨_, rfl⟩

/-- The places hold these exits, one after another, and nothing behind them. -/
def Hold (places : Places) (exits : List Exit) : Prop :=
  places.toList = exits.map some ++ List.replicate (maxExits - exits.length) none

theorem Hold.nil : Hold (Vector.replicate maxExits none) [] :=
  Vector.toList_replicate

variable {places : Places} {exits : List Exit}

theorem Hold.set (hold : Hold places exits) (room : exits.length < maxExits) (e : Exit) :
    Hold (places.set exits.length (some e)) (exits ++ [e]) := by
  have behind : maxExits - exits.length = maxExits - (exits ++ [e]).length + 1 := by
    rw [List.length_append, List.length_singleton]
    omega
  rw [Hold, behind, List.replicate_succ] at hold
  have after : (exits.map some).length ≤ exits.length := Nat.le_of_eq (List.length_map _)
  rw [Hold, Vector.toList_set, hold, List.set_append_right _ _ after]
  simp

theorem Hold.filterMap (hold : Hold places exits) : places.toList.filterMap id = exits := by
  rw [hold, List.filterMap_append]
  simp

/-- Filling goes through where there is a place for every rank that is left. -/
theorem fill?_ok {target level : Level} {place : Nat} (hold : Hold places exits)
    (here : exits.length = place) (room : place + level.rank ≤ maxExits) :
    ∃ filled, fill? target level place places = .ok filled ∧
      Hold filled (exits ++ (levelsLeft level target).filterMap Exit.leaving?) := by
  fun_induction fill? target level place places generalizing exits with
  | case1 level place places above within lower next ih =>
    subst here
    obtain ⟨e, leaving⟩ := exists_leaving next
    have rank := Level.rank_below next
    rw [leaving] at ih
    have more := ih (hold.set within e) List.length_append (by omega)
    rw [List.append_assoc, List.singleton_append] at more
    rwa [levelsLeft_of_lt above next, List.filterMap_cons_some leaving, leaving]
  | case2 level place places above within last =>
    obtain ⟨lower, next⟩ := exists_below above
    nomatch last.symm.trans next
  | case3 level place places above outside =>
    have rank := Nat.lt_of_le_of_lt (Nat.zero_le _) (Level.lt_iff.mp above)
    omega
  | case4 level place places reached =>
    rw [levelsLeft_of_reached reached, List.filterMap_nil, List.append_nil]
    exact ⟨places, rfl, hold⟩

/-- A plan is the descent there is. -/
theorem plan?_eq (current target : Level) :
    plan? current target = .ok (between? current target) := by
  unfold plan? between?
  split
  · rfl
  · have room : 0 + current.rank ≤ maxExits := by cases current <;> decide
    obtain ⟨filled, ended, hold⟩ :
        ∃ filled, fill? target current 0 (Vector.replicate maxExits none) = .ok filled ∧
          Hold filled ([] ++ (levelsLeft current target).filterMap Exit.leaving?) :=
      fill?_ok Hold.nil rfl room
    rw [ended]
    simp only [bind, Except.bind, hold.filterMap, List.nil_append]
    rfl

end ColdStart.Descent
