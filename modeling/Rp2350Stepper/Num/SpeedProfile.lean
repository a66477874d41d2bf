import Mathlib.Algebra.Order.Field.Basic
import Mathlib.Tactic.Linarith
import Mathlib.Tactic.Ring

/-!
# Speed profiles in the squared speed

A move of a given number of steps, in units of the squared speed above the lowest one:
each step raises this excess by at most `rise` up to `top`, until braking is due, and from
then on lowers it by at most `fall`. Braking is due when the excess takes all but one of
the remaining steps, or more, to brake away.

The excess after the last step is below `rise`, and it is zero exactly when the excess
some number of steps can reach is braked away in just the steps then left.
-/

namespace Rp2350Stepper.Num

/-- The limits of a move. -/
structure Profile (K : Type) [Field K] [LinearOrder K] [IsStrictOrderedRing K] where
  rise : K
  fall : K
  top : K
  rise_pos : 0 < rise
  fall_pos : 0 < fall
  top_nonneg : 0 ≤ top

namespace Profile

variable {K : Type} [Field K] [LinearOrder K] [IsStrictOrderedRing K] (profile : Profile K)

/-- Whether braking is due with so many steps remaining. -/
def BrakingDue (remaining : Int) (excess : K) : Prop :=
  (remaining - 1) * profile.fall ≤ excess

instance (remaining : Int) (excess : K) : Decidable (profile.BrakingDue remaining excess) :=
  inferInstanceAs (Decidable (_ ≤ _))

/-- The excess of the next step. -/
def next (remaining : Int) (excess : K) : K :=
  if profile.BrakingDue remaining excess then max (excess - profile.fall) 0
  else if excess < profile.top then min (excess + profile.rise) profile.top
  else profile.top

/-! ### One step -/

section Step

variable {profile} {remaining : Int} {excess : K}

/-- The excess never becomes negative. -/
theorem next_nonneg (nonneg : 0 ≤ excess) : 0 ≤ profile.next remaining excess := by
  have risen := add_nonneg nonneg profile.rise_pos.le
  unfold next
  split
  · exact le_max_right _ _
  · split
    · exact le_min risen profile.top_nonneg
    · exact profile.top_nonneg

/-- It stays below the larger of what it is and the top. -/
theorem next_le_max : profile.next remaining excess ≤ max excess profile.top := by
  have fall := profile.fall_pos
  unfold next
  split
  · exact max_le_max (by linarith) profile.top_nonneg
  · split
    · exact (min_le_right _ _).trans (le_max_right _ _)
    · exact le_max_right _ _

/-- Below the top it stays there. -/
theorem next_le_top (below : excess ≤ profile.top) :
    profile.next remaining excess ≤ profile.top :=
  next_le_max.trans (max_le below le_rfl)

/-- It rises by one rise at most. -/
theorem next_le_add (nonneg : 0 ≤ excess) :
    profile.next remaining excess ≤ excess + profile.rise := by
  have rise := profile.rise_pos
  have fall := profile.fall_pos
  unfold next
  split
  · exact max_le (by linarith) (by linarith)
  · split
    · exact min_le_left _ _
    · rename_i above
      linarith [not_lt.mp above]

/-- The excess falls too fast exactly when it is cut to the top before braking is due. -/
theorem sub_le_next_iff :
    excess - profile.fall ≤ profile.next remaining excess ↔
      profile.BrakingDue remaining excess ∨ excess - profile.fall ≤ profile.top := by
  have rise := profile.rise_pos
  have fall := profile.fall_pos
  unfold next
  split
  · rename_i due
    exact ⟨fun _ => .inl due, fun _ => le_max_left _ _⟩
  · rename_i early
    split
    · rename_i below
      exact ⟨fun _ => .inr (by linarith), fun _ => le_min (by linarith) (by linarith)⟩
    · exact ⟨.inr, fun either => either.resolve_left early⟩

/-- It falls by one fall at most. -/
theorem sub_le_next (below : excess ≤ profile.top) :
    excess - profile.fall ≤ profile.next remaining excess :=
  sub_le_next_iff.mpr (.inr (by linarith [profile.fall_pos]))

/-- The excess stays less than one rise above what the remaining steps can brake away. -/
theorem next_lt_distance (positive : 1 ≤ remaining)
    (near : excess < remaining * profile.fall + profile.rise) :
    profile.next remaining excess < (remaining - 1 : Int) * profile.fall + profile.rise := by
  have rise := profile.rise_pos
  have left : (0 : K) ≤ (remaining - 1 : Int) := by exact_mod_cast Int.sub_nonneg_of_le positive
  have braked := mul_nonneg left profile.fall_pos.le
  have shorter : ((remaining - 1 : Int) : K) * profile.fall = remaining * profile.fall - profile.fall := by
    push_cast
    ring
  unfold next
  split
  · exact max_lt (by linarith) (by linarith)
  · rename_i early
    have distance : excess < (remaining - 1 : Int) * profile.fall := by
      push_cast
      exact not_le.mp early
    split
    · exact lt_of_le_of_lt (min_le_left _ _) (by linarith)
    · rename_i above
      linarith [not_lt.mp above]

end Step

/-! ### A whole move -/

/-- The excess after some steps of a move. -/
def after (steps : Nat) : Nat → K
  | 0 => 0
  | taken + 1 => profile.next (steps - taken) (after steps taken)

variable {profile} {steps taken : Nat}

/-- After any steps it is not negative. -/
theorem after_nonneg : 0 ≤ profile.after steps taken := by
  induction taken with
  | zero => exact le_rfl
  | succ taken inductionHypothesis => exact next_nonneg inductionHypothesis

theorem after_le_top : profile.after steps taken ≤ profile.top := by
  induction taken with
  | zero => exact profile.top_nonneg
  | succ taken inductionHypothesis => exact next_le_top inductionHypothesis

/-- One more step is one rise at most. -/
theorem after_succ_le : profile.after steps (taken + 1) ≤ profile.after steps taken + profile.rise :=
  next_le_add after_nonneg

/-- And one fall at most. -/
theorem sub_le_after_succ :
    profile.after steps taken - profile.fall ≤ profile.after steps (taken + 1) :=
  sub_le_next after_le_top

/-- There is always room to come to a stop. -/
theorem after_lt_distance (within : taken ≤ steps) :
    profile.after steps taken < (steps - taken : Int) * profile.fall + profile.rise := by
  have rise := profile.rise_pos
  induction taken with
  | zero =>
      have distance := mul_nonneg (Nat.cast_nonneg steps : (0 : K) ≤ steps) profile.fall_pos.le
      simp only [after, Nat.cast_zero, sub_zero, Int.cast_natCast]
      linarith
  | succ taken inductionHypothesis =>
      have next := next_lt_distance (by omega : (1 : Int) ≤ steps - taken)
        (inductionHypothesis (by omega))
      have one : ((steps : Int) - (taken + 1 : Nat)) = (steps : Int) - taken - 1 := by omega
      rw [one]
      exact next

/-- The excess so many steps can reach. -/
def reached (profile : Profile K) (taken : Nat) : K := min (taken * profile.rise) profile.top

/-- More steps reach more. -/
theorem reached_mono {less more : Nat} (le : less ≤ more) :
    profile.reached less ≤ profile.reached more :=
  min_le_min (mul_le_mul_of_nonneg_right (Nat.cast_le.mpr le) profile.rise_pos.le) le_rfl

/-- Before braking, it is reached. -/
theorem after_eq_reached
    (early : ∀ before < taken, ¬profile.BrakingDue (steps - before) (profile.reached before)) :
    profile.after steps taken = profile.reached taken := by
  have rise := profile.rise_pos
  induction taken with
  | zero => simp [after, reached, profile.top_nonneg]
  | succ taken inductionHypothesis =>
      have here := inductionHypothesis fun before less => early before (by omega)
      rw [after, here, next, if_neg (early taken (by omega))]
      have longer : ((taken + 1 : Nat) : K) * profile.rise = taken * profile.rise + profile.rise := by
        push_cast
        ring
      rcases lt_or_ge ((taken : K) * profile.rise) profile.top with below | above
      · have climbed : profile.reached taken = taken * profile.rise := min_eq_left below.le
        rw [climbed, if_pos below, reached, longer]
      · have cruising : profile.reached taken = profile.top := min_eq_right above
        rw [cruising, if_neg (lt_irrefl _), reached, longer, min_eq_right (by linarith)]

/-- Once braking is due, every further step brakes. -/
theorem after_braking (due : profile.BrakingDue (steps - taken) (profile.after steps taken))
    {more : Nat} (within : taken + more ≤ steps) :
    profile.after steps (taken + more) = max (profile.after steps taken - more * profile.fall) 0 := by
  induction more with
  | zero => simp [after_nonneg]
  | succ more inductionHypothesis =>
      have fall := profile.fall_pos
      have braked := inductionHypothesis (by omega)
      have still : profile.BrakingDue ((steps : Int) - (taken + more : Nat))
          (profile.after steps (taken + more)) := by
        rw [braked]
        refine le_trans ?_ (le_max_left _ _)
        have due' : ((steps : K) - taken - 1) * profile.fall ≤ profile.after steps taken := by
          simpa [BrakingDue] using due
        push_cast
        linarith
      have further : ((more + 1 : Nat) : K) * profile.fall = more * profile.fall + profile.fall := by
        push_cast
        ring
      rw [← Nat.add_assoc, after, next, if_pos still, braked, further, ← sub_sub]
      rcases le_total (profile.after steps taken - more * profile.fall) 0 with low | high
      · rw [max_eq_right low, max_eq_right (by linarith), max_eq_right (by linarith)]
      · rw [max_eq_left high]

/-! ### The phases of a move -/

/-- What a step does to the excess. -/
inductive Phase where
  | accelerate
  | cruise
  | brake
deriving DecidableEq, Repr

/-- The order in which a move takes them. -/
def Phase.rank : Phase → Nat
  | .accelerate => 0
  | .cruise => 1
  | .brake => 2

/-- Phases which never go back are three stretches. -/
theorem Phase.stretches {phases : List Phase} (ordered : phases.Pairwise (·.rank ≤ ·.rank)) :
    ∃ up level down, phases = List.replicate up .accelerate ++ List.replicate level .cruise ++
      List.replicate down .brake := by
  induction phases with
  | nil => exact ⟨0, 0, 0, rfl⟩
  | cons phase rest inductionHypothesis =>
      obtain ⟨first, later⟩ := List.pairwise_cons.mp ordered
      obtain ⟨up, level, down, rfl⟩ := inductionHypothesis later
      cases phase with
      | accelerate => exact ⟨up + 1, level, down, rfl⟩
      | cruise =>
          have none_up : up = 0 := by
            by_contra positive
            have back := first .accelerate (by simp [positive])
            simp [rank] at back
          subst none_up
          exact ⟨0, level + 1, down, rfl⟩
      | brake =>
          have none_up : up = 0 := by
            by_contra positive
            have back := first .accelerate (by simp [positive])
            simp [rank] at back
          have none_level : level = 0 := by
            by_contra positive
            have back := first .cruise (by simp [positive])
            simp [rank] at back
          subst none_up none_level
          exact ⟨0, 0, down + 1, rfl⟩

/-- The phase of the next step. -/
def phase (profile : Profile K) (remaining : Int) (excess : K) : Phase :=
  if profile.BrakingDue remaining excess then .brake
  else if excess < profile.top then .accelerate
  else .cruise

/-- Braking stays due. -/
theorem brakingDue_succ (due : profile.BrakingDue (steps - taken) (profile.after steps taken)) :
    profile.BrakingDue (steps - (taken + 1 : Nat)) (profile.after steps (taken + 1)) := by
  have braked : profile.after steps taken - profile.fall ≤ profile.after steps (taken + 1) := by
    rw [after, next, if_pos due]
    exact le_max_left _ _
  have due' : ((steps : K) - taken - 1) * profile.fall ≤ profile.after steps taken := by
    simpa [BrakingDue] using due
  rw [BrakingDue]
  push_cast
  linarith

/-- At the top, a move stays there until it brakes. -/
theorem phase_succ_of_cruise
    (cruising : profile.phase (steps - taken) (profile.after steps taken) = .cruise) :
    profile.phase (steps - (taken + 1 : Nat)) (profile.after steps (taken + 1)) ≠ .accelerate := by
  have top : profile.after steps (taken + 1) = profile.top := by
    unfold phase at cruising
    split at cruising
    · cases cruising
    · rename_i early
      split at cruising
      · cases cruising
      · rename_i above
        rw [after, next, if_neg early, if_neg above]
  rw [phase, top, if_neg (lt_irrefl _)]
  split <;> simp

/-- The phases of a move never go back. -/
theorem phase_mono : Monotone fun taken : Nat =>
    (profile.phase (steps - taken) (profile.after steps taken)).rank := by
  apply monotone_nat_of_le_succ
  intro taken
  cases here : profile.phase (steps - taken) (profile.after steps taken) with
  | accelerate => exact Nat.zero_le _
  | cruise =>
      have further := phase_succ_of_cruise here
      cases next : profile.phase (steps - (taken + 1 : Nat)) (profile.after steps (taken + 1)) with
      | accelerate => exact absurd next further
      | cruise => exact le_rfl
      | brake => exact Nat.le_succ 1
  | brake =>
      have due : profile.BrakingDue (steps - taken) (profile.after steps taken) := by
        unfold phase at here
        split at here
        · assumption
        · split at here <;> cases here
      rw [phase, if_pos (brakingDue_succ due)]

/-! ### The end of a move -/

/-- The excess reached after so many steps is braked away in just the steps then left. -/
def Matched (profile : Profile K) (steps taken : Nat) : Prop :=
  profile.BrakingDue (steps - taken) (profile.reached taken) ∧
    profile.reached taken ≤ (steps - taken : Int) * profile.fall

/-- A move ends at the lowest speed exactly when some number of steps matches the rest. -/
theorem after_last_eq_zero_iff (positive : 1 ≤ steps) :
    profile.after steps steps = 0 ↔ ∃ taken < steps, profile.Matched steps taken := by
  have fall := profile.fall_pos
  -- Braking begins at the first step for which it is due, at the latest at the last one.
  have latest : profile.BrakingDue ((steps : Int) - (steps - 1 : Nat)) (profile.reached (steps - 1)) := by
    have one : (steps : Int) - (steps - 1 : Nat) = 1 := by omega
    have nonneg : 0 ≤ profile.reached (steps - 1) :=
      le_min (mul_nonneg (Nat.cast_nonneg _) profile.rise_pos.le) profile.top_nonneg
    rw [one]
    simpa [BrakingDue] using nonneg
  have exists_due : ∃ taken : Nat, profile.BrakingDue (steps - taken) (profile.reached taken) :=
    ⟨steps - 1, latest⟩
  obtain ⟨first, within, due, early⟩ : ∃ first < steps,
      profile.BrakingDue (steps - first) (profile.reached first) ∧
      ∀ before < first, ¬profile.BrakingDue (steps - before) (profile.reached before) := by
    classical
    refine ⟨Nat.find exists_due, ?_, Nat.find_spec exists_due, fun _ => Nat.find_min exists_due⟩
    have le := Nat.find_min' exists_due latest
    omega
  have climbed := after_eq_reached early
  have braked := after_braking (climbed ▸ due) (by omega : first + (steps - first) ≤ steps)
  rw [Nat.add_sub_cancel' within.le, climbed] at braked
  have rest : ((steps - first : Nat) : K) * profile.fall = (steps - first : Int) * profile.fall := by
    rw [Nat.cast_sub within.le]
    push_cast
    rfl
  have zero_iff : profile.after steps steps = 0 ↔
      profile.reached first ≤ (steps - first : Int) * profile.fall := by
    rw [braked, max_eq_right_iff, rest, sub_nonpos]
  rw [zero_iff]
  constructor
  · exact fun braked => ⟨first, within, due, braked⟩
  · rintro ⟨taken, _, due', braked⟩
    have le : first ≤ taken := by
      by_contra later
      exact early taken (by omega) due'
    have shorter : ((steps - taken : Int) : K) ≤ (steps - first : Int) := by
      exact_mod_cast (by omega : (steps : Int) - taken ≤ steps - first)
    calc profile.reached first ≤ profile.reached taken := reached_mono le
      _ ≤ (steps - taken : Int) * profile.fall := braked
      _ ≤ (steps - first : Int) * profile.fall := mul_le_mul_of_nonneg_right shorter fall.le

end Profile
end Rp2350Stepper.Num
