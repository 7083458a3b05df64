/-
This file models how search results are composed for a job: the patterns and warnings among
them and the others are cut down by the weights of the job's complexity band, and the two
selections are merged by these weights. It proves that each selection is a prefix in rank order,
that a category that is present stays present, that the patterns and warnings kept grow with the
complexity, and that the merge is fair. Weights and balances are exact rationals here, where the
source has floats.
-/

import FleetMemory.FairMerge
import FleetMemory.SearchTools
import Mathlib.Algebra.Order.Floor.Ring
import Mathlib.Data.Int.ConditionallyCompleteOrder
import Mathlib.Data.Rat.Floor
import Mathlib.Tactic.NormNum

namespace FleetMemory

/-! ### The source -/

/-- Job complexity bands for context composition. -/
inductive ComplexityBand where
  | simple
  | standard
  | complex
deriving Repr, DecidableEq

/-- The names of the bands. -/
def ComplexityBand.value : ComplexityBand → String
  | .simple => "simple"
  | .standard => "standard"
  | .complex => "complex"

/-- `ComplexityBand(complexity_band)`. -/
def ComplexityBand.ofValue (runtime : Runtime) (complexityBand : String) :
    Except PyError ComplexityBand :=
  match [ComplexityBand.simple, .standard, .complex].find? (fun band =>
    band.value = complexityBand) with
  | some band => .ok band
  | none => .error (.valueError (runtime.repr complexityBand ++ " is not a valid ComplexityBand"))

/-- Type mix ratios for each complexity band. -/
def typeMixWeights : ComplexityBand → List (String × ℚ)
  | .simple => [("pattern_warning", 3 / 10), ("other", 1)]
  | .standard => [("pattern_warning", 1), ("other", 1)]
  | .complex => [("pattern_warning", 2), ("other", 3 / 5)]

/-- Check if item is a pattern or warning type. -/
def isPatternOrWarning (item : Item) : Bool :=
  let payloadType := extractPayloadType (item.value.naturalKey.getD "")
  payloadType = some "pattern" || payloadType = some "warning"

/-- `int(number)`. -/
def truncate (number : ℚ) : Int :=
  if 0 ≤ number then ⌊number⌋ else ⌈number⌉

/-- The slots of a category with `available` items: its target, rounded, but at least one. -/
def slots (target : ℚ) (available : Nat) : Int :=
  max 1 (min (truncate (target + 1 / 2)) available)

/-- The items taken from each category. -/
def selectByWeight (items : List Item) (pwWeight otherWeight : ℚ) : List Item × List Item :=
  let patternWarningItems := items.filter isPatternOrWarning
  let otherItems := items.filter fun item => !isPatternOrWarning item
  let totalWeight := pwWeight + otherWeight
  if 0 < totalWeight then
    if patternWarningItems = [] then ([], otherItems)
    else if otherItems = [] then (patternWarningItems, [])
    else
      let pwTarget := items.length * (pwWeight / totalWeight)
      let otherTarget := items.length * (otherWeight / totalWeight)
      (patternWarningItems.take (slots pwTarget patternWarningItems.length).toNat,
        otherItems.take (slots otherTarget otherItems.length).toNat)
  else ([], [])

/-- The loop that interleaves what is left of the two selections. Each round takes from the
category with the highest balance, or from the other if that one is exhausted. -/
def interleave (pwRatio otherRatio : ℚ) (pwBalance otherBalance : ℚ)
    (selectedPw selectedOther : List Item) : List Item :=
  if pwBalance + pwRatio ≥ otherBalance + otherRatio then
    match selectedPw, selectedOther with
    | item :: patterns, others =>
      item :: interleave pwRatio otherRatio (pwBalance + pwRatio - 1)
        (otherBalance + otherRatio) patterns others
    | [], item :: others =>
      item :: interleave pwRatio otherRatio (pwBalance + pwRatio)
        (otherBalance + otherRatio - 1) [] others
    | [], [] => []
  else
    match selectedPw, selectedOther with
    | patterns, item :: others =>
      item :: interleave pwRatio otherRatio (pwBalance + pwRatio)
        (otherBalance + otherRatio - 1) patterns others
    | item :: patterns, [] =>
      item :: interleave pwRatio otherRatio (pwBalance + pwRatio - 1)
        (otherBalance + otherRatio) patterns []
    | [], [] => []
termination_by selectedPw.length + selectedOther.length

/-- Compose items based on type category weights, adjusting both selection and order. -/
def applyWeightedComposition (items : List Item) (weights : List (String × ℚ)) : List Item :=
  let pwWeight := (weights.lookup "pattern_warning").getD 1
  let otherWeight := (weights.lookup "other").getD 1
  let totalWeight := pwWeight + otherWeight
  let selected := selectByWeight items pwWeight otherWeight
  let pwRatio := if 0 < totalWeight then pwWeight / totalWeight else 1 / 2
  let otherRatio := if 0 < totalWeight then otherWeight / totalWeight else 1 / 2
  interleave pwRatio otherRatio 0 0 selected.1 selected.2

/-- Compose search results by complexity band, adjusting type mix. A band is named by its value,
which is what a member of the enumeration is as a string. -/
def composeByComplexity (runtime : Runtime) (rankedResults : List Item)
    (complexityBand : String) : Except PyError (List Item) :=
  if rankedResults = [] then .ok []
  else do
    let band ← ComplexityBand.ofValue runtime complexityBand
    .ok (applyWeightedComposition rankedResults (typeMixWeights band))

/-! ### Selections -/

theorem truncate_mono : Monotone truncate := by
  intro lower higher le
  unfold truncate
  split_ifs with low high high
  · exact Int.floor_le_floor le
  · exact absurd (low.trans le) high
  · calc ⌈lower⌉ ≤ 0 := Int.ceil_nonpos.mpr (not_le.mp low).le
      _ ≤ ⌊higher⌋ := Int.floor_nonneg.mpr high
  · exact Int.ceil_mono le

theorem slots_mono {lower higher : ℚ} (le : lower ≤ higher) (available : Nat) :
    slots lower available ≤ slots higher available :=
  max_le_max le_rfl (min_le_min (truncate_mono (by linarith)) le_rfl)

/-- A category with items keeps one at least. -/
theorem take_slots_ne_nil {available : List Item} (present : available ≠ []) (target : ℚ) :
    available.take (slots target available.length).toNat ≠ [] := by
  have one : 1 ≤ slots target available.length := le_max_left _ _
  rw [ne_eq, List.take_eq_nil_iff, not_or]
  exact ⟨by omega, present⟩

/-- Each selection is a prefix of its category. -/
theorem selectByWeight_prefix (items : List Item) (pwWeight otherWeight : ℚ) :
    (selectByWeight items pwWeight otherWeight).1 <+: items.filter isPatternOrWarning ∧
      (selectByWeight items pwWeight otherWeight).2 <+:
        items.filter fun item => !isPatternOrWarning item := by
  simp only [selectByWeight]
  split_ifs
  · exact ⟨List.nil_prefix, List.prefix_rfl⟩
  · exact ⟨List.prefix_rfl, List.nil_prefix⟩
  · exact ⟨List.take_prefix _ _, List.take_prefix _ _⟩
  · exact ⟨List.nil_prefix, List.nil_prefix⟩

/-- Each selection is of its category. -/
theorem selectByWeight_kinds (items : List Item) (pwWeight otherWeight : ℚ) :
    (∀ item ∈ (selectByWeight items pwWeight otherWeight).1, isPatternOrWarning item = true) ∧
      ∀ item ∈ (selectByWeight items pwWeight otherWeight).2,
        isPatternOrWarning item = false := by
  obtain ⟨patterns, others⟩ := selectByWeight_prefix items pwWeight otherWeight
  refine ⟨fun item member => (List.mem_filter.mp (patterns.subset member)).2, fun item member => ?_⟩
  simpa using (List.mem_filter.mp (others.subset member)).2

section

variable (items : List Item) {pwWeight otherWeight : ℚ}

/-- A category that is present is selected from. -/
theorem selectByWeight_ne_nil (positive : 0 < pwWeight + otherWeight) :
    (items.filter isPatternOrWarning ≠ [] →
      (selectByWeight items pwWeight otherWeight).1 ≠ []) ∧
    ((items.filter fun item => !isPatternOrWarning item) ≠ [] →
      (selectByWeight items pwWeight otherWeight).2 ≠ []) := by
  simp only [selectByWeight, if_pos positive]
  split_ifs with noPatterns noOthers
  · exact ⟨fun present => absurd noPatterns present, id⟩
  · exact ⟨id, fun present => absurd noOthers present⟩
  · exact ⟨fun present => take_slots_ne_nil present _, fun present => take_slots_ne_nil present _⟩

/-- With a higher share, no fewer patterns and warnings are selected. -/
theorem length_selectByWeight_le {pwWeight' otherWeight' : ℚ}
    (positive : 0 < pwWeight + otherWeight) (positive' : 0 < pwWeight' + otherWeight')
    (higher : pwWeight / (pwWeight + otherWeight) ≤ pwWeight' / (pwWeight' + otherWeight')) :
    (selectByWeight items pwWeight otherWeight).1.length ≤
      (selectByWeight items pwWeight' otherWeight').1.length := by
  simp only [selectByWeight, if_pos positive, if_pos positive']
  split_ifs
  · exact le_rfl
  · exact le_rfl
  · rw [List.length_take, List.length_take]
    have more := slots_mono (mul_le_mul_of_nonneg_left higher (Nat.cast_nonneg items.length))
      (items.filter isPatternOrWarning).length
    exact min_le_min_right _ (Int.toNat_le_toNat more)

end

/-! ### The interleaving -/

/-- The two balances cancel, so the interleaving is a merge by the first of them. -/
theorem interleave_eq_merge {pwRatio otherRatio pwBalance otherBalance : ℚ}
    {patterns others : List Item} (shares : pwRatio + otherRatio = 1)
    (balanced : pwBalance + otherBalance = 0) :
    interleave pwRatio otherRatio pwBalance otherBalance patterns others =
      FairMerge.merge pwRatio pwBalance patterns others := by
  fun_induction interleave pwRatio otherRatio pwBalance otherBalance patterns others with
  | case1 pwBalance otherBalance due item patterns others inductionHypothesis =>
    rw [inductionHypothesis (by linarith)]
    cases others with
    | nil => simp
    | cons other others => rw [FairMerge.merge, if_pos (by linarith)]
  | case2 pwBalance otherBalance due item others inductionHypothesis =>
    rw [inductionHypothesis (by linarith)]
    simp
  | case3 => simp
  | case4 pwBalance otherBalance due patterns item others inductionHypothesis =>
    rw [inductionHypothesis (by linarith)]
    cases patterns with
    | nil => simp
    | cons pattern patterns => rw [FairMerge.merge, if_neg (by linarith)]
  | case5 pwBalance otherBalance due item patterns inductionHypothesis =>
    rw [inductionHypothesis (by linarith)]
    simp
  | case6 => simp

/-! ### Compositions -/

/-- What a composition of ranked items is, for a share of patterns and warnings. -/
structure Composes (items : List Item) (share : ℚ) (result : List Item) : Prop where
  patterns : result.filter isPatternOrWarning <+: items.filter isPatternOrWarning
  others : (result.filter fun item => !isPatternOrWarning item) <+:
    items.filter fun item => !isPatternOrWarning item
  drawn : result.Subperm items
  patternsPresent : (∃ item ∈ items, isPatternOrWarning item = true) →
    ∃ item ∈ result, isPatternOrWarning item = true
  othersPresent : (∃ item ∈ items, isPatternOrWarning item = false) →
    ∃ item ∈ result, isPatternOrWarning item = false
  fair : FairMerge.Fair isPatternOrWarning share result

section

variable {items : List Item} {weights : List (String × ℚ)} {pwWeight otherWeight : ℚ}

theorem filter_ne_nil_iff {kind : Item → Bool} :
    items.filter kind ≠ [] ↔ ∃ item ∈ items, kind item = true := by
  rw [ne_eq, List.filter_eq_nil_iff]
  simp

/-- Lists whose two categories are prefixes of those of the items are drawn from the items. -/
theorem subperm_of_prefixes {result : List Item}
    (patterns : result.filter isPatternOrWarning <+: items.filter isPatternOrWarning)
    (others : (result.filter fun item => !isPatternOrWarning item) <+:
      items.filter fun item => !isPatternOrWarning item) : result.Subperm items := by
  have parted := List.filter_append_perm isPatternOrWarning result
  have whole := List.filter_append_perm isPatternOrWarning items
  have drawn := (patterns.sublist.append others.sublist).subperm
  exact (parted.symm.subperm.trans drawn).trans whole.subperm

variable (items)

/-- The composition is a fair merge of the two selections. -/
theorem applyWeightedComposition_eq (pw : weights.lookup "pattern_warning" = some pwWeight)
    (other : weights.lookup "other" = some otherWeight) (positive : 0 < pwWeight + otherWeight) :
    applyWeightedComposition items weights =
      FairMerge.merge (pwWeight / (pwWeight + otherWeight)) 0
        (selectByWeight items pwWeight otherWeight).1
        (selectByWeight items pwWeight otherWeight).2 := by
  simp only [applyWeightedComposition, pw, other, Option.getD_some, if_pos positive]
  refine interleave_eq_merge ?_ (add_zero 0)
  rw [← add_div, div_self positive.ne']

/-- The selections are what the composition has of each category. -/
theorem filter_applyWeightedComposition (pw : weights.lookup "pattern_warning" = some pwWeight)
    (other : weights.lookup "other" = some otherWeight) (positive : 0 < pwWeight + otherWeight) :
    (applyWeightedComposition items weights).filter isPatternOrWarning =
        (selectByWeight items pwWeight otherWeight).1 ∧
      ((applyWeightedComposition items weights).filter fun item => !isPatternOrWarning item) =
        (selectByWeight items pwWeight otherWeight).2 := by
  obtain ⟨first, second⟩ := selectByWeight_kinds items pwWeight otherWeight
  rw [applyWeightedComposition_eq items pw other positive]
  exact ⟨FairMerge.filter_merge first second, FairMerge.filter_not_merge first second⟩

theorem composes_applyWeightedComposition
    (pw : weights.lookup "pattern_warning" = some pwWeight)
    (other : weights.lookup "other" = some otherWeight) (pwWeighs : 0 < pwWeight)
    (otherWeighs : 0 < otherWeight) :
    Composes items (pwWeight / (pwWeight + otherWeight))
      (applyWeightedComposition items weights) := by
  have positive : 0 < pwWeight + otherWeight := add_pos pwWeighs otherWeighs
  obtain ⟨ofPatterns, ofOthers⟩ := filter_applyWeightedComposition items pw other positive
  obtain ⟨patterns, others⟩ := selectByWeight_prefix items pwWeight otherWeight
  obtain ⟨patternsPresent, othersPresent⟩ := selectByWeight_ne_nil items positive
  rw [← ofPatterns] at patterns patternsPresent
  rw [← ofOthers] at others othersPresent
  simp only [filter_ne_nil_iff, Bool.not_eq_true'] at patternsPresent othersPresent
  refine ⟨patterns, others, subperm_of_prefixes patterns others, patternsPresent, othersPresent, ?_⟩
  obtain ⟨first, second⟩ := selectByWeight_kinds items pwWeight otherWeight
  rw [applyWeightedComposition_eq items pw other positive]
  refine FairMerge.fair_merge first second (div_pos pwWeighs positive).le ?_
  rw [div_le_one positive]
  linarith

end

/-! ### Bands -/

/-- The share of patterns and warnings a band asks for. -/
def ComplexityBand.ratio (band : ComplexityBand) : ℚ :=
  let pwWeight := ((typeMixWeights band).lookup "pattern_warning").getD 1
  let otherWeight := ((typeMixWeights band).lookup "other").getD 1
  pwWeight / (pwWeight + otherWeight)

/-- The table weighs both categories of every band. -/
theorem ComplexityBand.weights (band : ComplexityBand) : ∃ pwWeight otherWeight : ℚ,
    (typeMixWeights band).lookup "pattern_warning" = some pwWeight ∧
      (typeMixWeights band).lookup "other" = some otherWeight ∧
      0 < pwWeight ∧ 0 < otherWeight ∧ band.ratio = pwWeight / (pwWeight + otherWeight) := by
  cases band with
  | simple => exact ⟨3 / 10, 1, rfl, rfl, by norm_num, by norm_num, rfl⟩
  | standard => exact ⟨1, 1, rfl, rfl, by norm_num, by norm_num, rfl⟩
  | complex => exact ⟨2, 3 / 5, rfl, rfl, by norm_num, by norm_num, rfl⟩

theorem ComplexityBand.ofValue_value (runtime : Runtime) (band : ComplexityBand) :
    ofValue runtime band.value = .ok band := by
  cases band <;> rfl

theorem ComplexityBand.ratio_simple_le : ratio .simple ≤ ratio .standard :=
  calc ratio .simple = 3 / 10 / (3 / 10 + 1) := rfl
    _ ≤ 1 / (1 + 1) := by norm_num
    _ = ratio .standard := rfl

theorem ComplexityBand.ratio_standard_le : ratio .standard ≤ ratio .complex :=
  calc ratio .standard = 1 / (1 + 1) := rfl
    _ ≤ 2 / (2 + 3 / 5) := by norm_num
    _ = ratio .complex := rfl

/-- A band that asks for a higher share keeps no fewer patterns and warnings. -/
theorem countP_applyWeightedComposition_le {lower higher : ComplexityBand} (items : List Item)
    (le : lower.ratio ≤ higher.ratio) :
    (applyWeightedComposition items (typeMixWeights lower)).countP isPatternOrWarning ≤
      (applyWeightedComposition items (typeMixWeights higher)).countP isPatternOrWarning := by
  obtain ⟨pwWeight, otherWeight, pw, other, pwWeighs, otherWeighs, ratio⟩ := lower.weights
  obtain ⟨pwWeight', otherWeight', pw', other', pwWeighs', otherWeighs', ratio'⟩ := higher.weights
  have positive := add_pos pwWeighs otherWeighs
  have positive' := add_pos pwWeighs' otherWeighs'
  rw [List.countP_eq_length_filter, List.countP_eq_length_filter,
    (filter_applyWeightedComposition items pw other positive).1,
    (filter_applyWeightedComposition items pw' other' positive').1]
  refine length_selectByWeight_le items positive positive' ?_
  rw [← ratio, ← ratio']
  exact le

/-- Empty results come to the same composition, of nothing. -/
theorem composeByComplexity_value (runtime : Runtime) (items : List Item) (band : ComplexityBand) :
    composeByComplexity runtime items band.value =
      .ok (applyWeightedComposition items (typeMixWeights band)) := by
  unfold composeByComplexity
  split_ifs with empty
  · obtain ⟨pwWeight, otherWeight, pw, other, pwWeighs, otherWeighs, -⟩ := band.weights
    rw [applyWeightedComposition_eq items pw other (add_pos pwWeighs otherWeighs), empty]
    simp [selectByWeight]
  · rw [ComplexityBand.ofValue_value]
    rfl

/-- The composition of ranked results by a band keeps rank, has every category that is present,
and is fair; and with the complexity of the band grow the patterns and warnings kept. -/
theorem composeByComplexity_composes (runtime : Runtime) (items : List Item) :
    ∃ result : ComplexityBand → List Item,
      (∀ band, composeByComplexity runtime items band.value = .ok (result band) ∧
        Composes items band.ratio (result band)) ∧
      (result .simple).countP isPatternOrWarning ≤ (result .standard).countP isPatternOrWarning ∧
      (result .standard).countP isPatternOrWarning ≤
        (result .complex).countP isPatternOrWarning := by
  refine ⟨fun band => applyWeightedComposition items (typeMixWeights band), fun band => ?_,
    countP_applyWeightedComposition_le items ComplexityBand.ratio_simple_le,
    countP_applyWeightedComposition_le items ComplexityBand.ratio_standard_le⟩
  obtain ⟨pwWeight, otherWeight, pw, other, pwWeighs, otherWeighs, ratio⟩ := band.weights
  rw [ratio]
  exact ⟨composeByComplexity_value runtime items band,
    composes_applyWeightedComposition items pw other pwWeighs otherWeighs⟩

end FleetMemory
