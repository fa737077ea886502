import Mathlib.Algebra.Order.Field.Basic

/-! # The mean of what can be compared

Each signal has a weight, and a value unless it cannot be compared.  The mean is taken over the
signals that have a value, with their weights scaled up; it is zero where none has.

Its bounds are `mean_bounds`.  A signal that matches never lowers the mean (`mean_le_matched`), one
that does not never raises it (`mismatched_le_mean`), and over different values of one signal the
means differ (`mean_inj`).
-/
namespace WeightedMean
variable {K : Type} [Field K]

/-- A signal with its weight. -/
structure Signal (K : Type) where
  weight : K
  value : Option K

/-- The weight of the signals that have a value. -/
def weights : List (Signal K) → K
  | [] => 0
  | ⟨w, some _⟩ :: rest => w + weights rest
  | ⟨_, none⟩ :: rest => weights rest

/-- Their values, weighed. -/
def points : List (Signal K) → K
  | [] => 0
  | ⟨w, some v⟩ :: rest => w * v + points rest
  | ⟨_, none⟩ :: rest => points rest

variable {signals before after : List (Signal K)}

theorem weights_append : weights (before ++ after) = weights before + weights after := by
  induction before with
  | nil => rw [List.nil_append, weights, zero_add]
  | cons s before ih =>
    obtain ⟨w, v⟩ := s
    cases v with
    | none => rw [List.cons_append, weights, weights, ih]
    | some v => rw [List.cons_append, weights, weights, ih, add_assoc]

theorem points_append : points (before ++ after) = points before + points after := by
  induction before with
  | nil => rw [List.nil_append, points, zero_add]
  | cons s before ih =>
    obtain ⟨w, v⟩ := s
    cases v with
    | none => rw [List.cons_append, points, points, ih]
    | some v => rw [List.cons_append, points, points, ih, add_assoc]

variable [LinearOrder K]

/-- The mean of the values. -/
def mean (signals : List (Signal K)) : K :=
  if weights signals = 0 then 0 else points signals / weights signals

/-- A signal that cannot be compared adds nothing. -/
theorem mean_none {w : K} : mean (before ++ ⟨w, none⟩ :: after) = mean (before ++ after) := by
  unfold mean
  rw [weights_append, weights, points_append, points, ← weights_append, ← points_append]

variable [IsStrictOrderedRing K]

/-- A positive weight, and a value between nought and one. -/
structure Signal.Sound (s : Signal K) : Prop where
  weight : 0 < s.weight
  value : ∀ v, s.value = some v → 0 ≤ v ∧ v ≤ 1

/-- The values weigh no more than their weights. -/
theorem points_bounds (h : ∀ s ∈ signals, s.Sound) :
    0 ≤ points signals ∧ points signals ≤ weights signals := by
  induction signals with
  | nil => exact ⟨le_refl _, le_refl _⟩
  | cons s signals ih =>
    rw [List.forall_mem_cons] at h
    obtain ⟨hs, hrest⟩ := h
    obtain ⟨hlow, hhigh⟩ := ih hrest
    obtain ⟨w, v⟩ := s
    cases v with
    | none => exact ⟨hlow, hhigh⟩
    | some v =>
      obtain ⟨hv0, hv1⟩ := hs.value v rfl
      have hw : 0 < w := hs.weight
      have hwv : 0 ≤ w * v := mul_nonneg hw.le hv0
      have hwv' : w * v ≤ w := mul_le_of_le_one_right hw.le hv1
      exact ⟨add_nonneg hwv hlow, add_le_add hwv' hhigh⟩

theorem weights_nonneg (h : ∀ s ∈ signals, s.Sound) : 0 ≤ weights signals :=
  (points_bounds h).1.trans (points_bounds h).2

/-- **The mean lies between nought and one.** -/
theorem mean_bounds (h : ∀ s ∈ signals, s.Sound) : 0 ≤ mean signals ∧ mean signals ≤ 1 := by
  obtain ⟨hlow, hhigh⟩ := points_bounds h
  have hweights := weights_nonneg h
  unfold mean
  by_cases hzero : weights signals = 0
  · rw [if_pos hzero]
    exact ⟨le_refl _, zero_le_one⟩
  · rw [if_neg hzero]
    exact ⟨div_nonneg hlow hweights, div_le_one_of_le₀ hhigh hweights⟩

/-- A signal that can be compared adds its weight, and its value by its weight. -/
theorem mean_some (hb : ∀ s ∈ before, s.Sound) (ha : ∀ s ∈ after, s.Sound) {w : K} (hw : 0 < w) (v : K) :
    0 < w + weights (before ++ after) ∧
      mean (before ++ ⟨w, some v⟩ :: after) =
        (w * v + points (before ++ after)) / (w + weights (before ++ after)) := by
  have hrest : 0 ≤ weights (before ++ after) := by
    rw [weights_append]
    exact add_nonneg (weights_nonneg hb) (weights_nonneg ha)
  have hpos : 0 < w + weights (before ++ after) := add_pos_of_pos_of_nonneg hw hrest
  have hweights : weights (before ++ ⟨w, some v⟩ :: after) = w + weights (before ++ after) := by
    rw [weights_append, weights, weights_append, add_left_comm]
  have hpoints : points (before ++ ⟨w, some v⟩ :: after) = w * v + points (before ++ after) := by
    rw [points_append, points, points_append, add_left_comm]
  refine ⟨hpos, ?_⟩
  rw [mean, hweights, hpoints, if_neg hpos.ne']

/-- **A signal that matches never lowers the mean.** -/
theorem mean_le_matched (hb : ∀ s ∈ before, s.Sound) (ha : ∀ s ∈ after, s.Sound) {w : K}
    (hw : 0 < w) : mean (before ++ ⟨w, none⟩ :: after) ≤ mean (before ++ ⟨w, some 1⟩ :: after) := by
  have hall : ∀ s ∈ before ++ after, s.Sound := fun s hs =>
    (List.mem_append.mp hs).elim (hb s) (ha s)
  obtain ⟨hlow, hhigh⟩ := points_bounds hall
  obtain ⟨hpos, hmean⟩ := mean_some hb ha hw 1
  rw [mean_none, hmean, mul_one, le_div_iff₀ hpos]
  by_cases hzero : weights (before ++ after) = 0
  · rw [mean, if_pos hzero, zero_mul]
    exact add_nonneg hw.le hlow
  · have hmul : mean (before ++ after) * weights (before ++ after) = points (before ++ after) := by
      rw [mean, if_neg hzero, div_mul_cancel₀ _ hzero]
    have hle : mean (before ++ after) * w ≤ w :=
      mul_le_of_le_one_left hw.le (mean_bounds hall).2
    rw [mul_add, hmul]
    exact add_le_add_left hle _

/-- **A signal that does not match never raises it.** -/
theorem mismatched_le_mean (hb : ∀ s ∈ before, s.Sound) (ha : ∀ s ∈ after, s.Sound) {w : K}
    (hw : 0 < w) : mean (before ++ ⟨w, some 0⟩ :: after) ≤ mean (before ++ ⟨w, none⟩ :: after) := by
  have hall : ∀ s ∈ before ++ after, s.Sound := fun s hs =>
    (List.mem_append.mp hs).elim (hb s) (ha s)
  obtain ⟨hlow, hhigh⟩ := points_bounds hall
  obtain ⟨hpos, hmean⟩ := mean_some hb ha hw 0
  rw [mean_none, hmean, mul_zero, zero_add, div_le_iff₀ hpos]
  by_cases hzero : weights (before ++ after) = 0
  · rw [mean, if_pos hzero, zero_mul, ← hzero]
    exact hhigh
  · have hmul : mean (before ++ after) * weights (before ++ after) = points (before ++ after) := by
      rw [mean, if_neg hzero, div_mul_cancel₀ _ hzero]
    have hle : 0 ≤ mean (before ++ after) * w := mul_nonneg (mean_bounds hall).1 hw.le
    rw [mul_add, hmul]
    exact le_add_of_nonneg_left hle

/-- **The mean tells apart the values of a signal.** -/
theorem mean_inj (hb : ∀ s ∈ before, s.Sound) (ha : ∀ s ∈ after, s.Sound) {w v v' : K}
    (hw : 0 < w) :
    mean (before ++ ⟨w, some v⟩ :: after) = mean (before ++ ⟨w, some v'⟩ :: after) ↔ v = v' := by
  obtain ⟨hpos, hv⟩ := mean_some hb ha hw v
  obtain ⟨-, hv'⟩ := mean_some hb ha hw v'
  rw [hv, hv', div_left_inj' hpos.ne', add_left_inj, mul_right_inj' hw.ne']

end WeightedMean
