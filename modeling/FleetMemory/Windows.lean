/-
This file is a small library of overlapping windows over a sequence. The windows start
a fixed stride apart and take a fixed number of items, up to the first that reaches the
end. Items that stand in order and lie each in some window are a subsequence of the
windows' items, one window after the other.
-/

import Mathlib.Data.List.Flatten

namespace Windows

/-! ### Spans -/

/-- The windows over a sequence of the given length from `start` on, each as where it starts and
where it stops. The first window that reaches the end is the last. -/
def spans (length size stride : Nat) : Nat → Nat → List (Nat × Nat)
  | 0, _ => []
  | turns + 1, start =>
    if length ≤ start + size then [(start, length)]
    else (start, start + size) :: spans length size stride turns (start + stride)

variable {length size stride : Nat}

/-- A window starts behind the given start, within the sequence, and takes its size as far as the
sequence goes. -/
theorem bounds_of_mem_spans {turns start : Nat} (inside : start ≤ length)
    (narrow : stride ≤ size) {span : Nat × Nat}
    (member : span ∈ spans length size stride turns start) :
    start ≤ span.1 ∧ span.1 ≤ length ∧ span.2 = min (span.1 + size) length := by
  induction turns generalizing start with
  | zero => cases member
  | succ turns inductionHypothesis =>
    rw [spans] at member
    split at member
    · obtain rfl := List.mem_singleton.mp member
      dsimp only
      omega
    · rcases List.mem_cons.mp member with rfl | later
      · dsimp only
        omega
      · have following := inductionHypothesis (by omega) later
        omega

/-- The windows stand in order. -/
theorem pairwise_spans {turns start : Nat} (inside : start ≤ length) (narrow : stride ≤ size) :
    (spans length size stride turns start).Pairwise fun first second =>
      first.1 ≤ second.1 ∧ first.2 ≤ second.2 := by
  induction turns generalizing start with
  | zero => exact List.Pairwise.nil
  | succ turns inductionHypothesis =>
    rw [spans]
    split
    · exact List.pairwise_singleton _ _
    · refine List.pairwise_cons.mpr ⟨?_, inductionHypothesis (by omega)⟩
      intro later member
      have following := bounds_of_mem_spans (by omega) narrow member
      dsimp only
      omega

/-- Every start a whole number of strides on is covered as far as its own window goes. -/
theorem exists_span {turns start : Nat} (enough : length < start + turns) (inside : start ≤ length)
    (narrow : stride ≤ size) (moves : 0 < stride) (steps : Nat) :
    ∃ span ∈ spans length size stride turns start, span.1 ≤ start + steps * stride ∧
      min (start + steps * stride + size) length ≤ span.2 := by
  induction turns generalizing start steps with
  | zero => omega
  | succ turns inductionHypothesis =>
    rw [spans]
    split
    · refine ⟨(start, length), List.mem_singleton_self _, ?_, ?_⟩
      · exact Nat.le_add_right _ _
      · exact Nat.min_le_right _ _
    · cases steps with
      | zero =>
        refine ⟨(start, start + size), List.mem_cons_self, ?_, ?_⟩
        · exact Nat.le_add_right _ _
        · rw [Nat.zero_mul]
          exact Nat.min_le_left _ _
      | succ steps =>
        obtain ⟨span, member, begins, reaches⟩ :=
          @inductionHypothesis (start + stride) (by omega) (by omega) steps
        refine ⟨span, List.mem_cons_of_mem _ member, ?_, ?_⟩
        · rw [Nat.succ_mul]
          omega
        · rw [Nat.succ_mul]
          omega

/-! ### Items in windows -/

variable {Item : Type} {before : Item → Item → Prop}

/-- A list splits at a test that no item passes behind one that fails it. -/
theorem filter_append_filter {items : List Item} {passes : Item → Bool}
    (ordered : items.Pairwise fun first second => passes second = true → passes first = true) :
    items.filter passes ++ items.filter (fun item => !passes item) = items := by
  induction items with
  | nil => rfl
  | cons item rest inductionHypothesis =>
    obtain ⟨first, following⟩ := List.pairwise_cons.mp ordered
    cases here : passes item with
    | true =>
      rw [List.filter_cons_of_pos here, List.filter_cons_of_neg (by simp [here]),
        List.cons_append, inductionHypothesis following]
    | false =>
      have none : rest.filter passes = [] := by
        refine List.filter_eq_nil_iff.mpr fun other member holds => ?_
        rw [first other member holds] at here
        cases here
      have all : rest.filter (fun other => !passes other) = rest := by
        refine List.filter_eq_self.mpr fun other member => ?_
        cases holds : passes other with
        | false => rfl
        | true =>
          rw [first other member holds] at here
          cases here
      rw [List.filter_cons_of_neg (by simp [here]), List.filter_cons_of_pos (by simp [here]),
        none, all, List.nil_append]

/-- Items that lie each in some window are a subsequence of the windows' items, when an item of a
later window that stands before one of an earlier window lies in the earlier as well. -/
theorem sublist_flatMap_filter {items : List Item} {windows : List (Item → Bool)}
    (ordered : items.Pairwise before)
    (covered : ∀ item ∈ items, ∃ window ∈ windows, window item = true)
    (monotone : windows.Pairwise fun earlier later => ∀ first second, before first second →
      later first = true → earlier second = true → earlier first = true) :
    items.Sublist (windows.flatMap fun window => items.filter window) := by
  induction windows generalizing items with
  | nil =>
    cases items with
    | nil => exact List.Sublist.slnil
    | cons item rest =>
      obtain ⟨window, none, _⟩ := covered item List.mem_cons_self
      cases none
  | cons window others inductionHypothesis =>
    obtain ⟨here, following⟩ := List.pairwise_cons.mp monotone
    have splits : items.filter window ++ items.filter (fun item => !window item) = items := by
      refine filter_append_filter (ordered.imp_of_mem ?_)
      intro first second member _ stands holds
      obtain ⟨other, inside, covers⟩ := covered first member
      rcases List.mem_cons.mp inside with rfl | later
      · exact covers
      · exact here other later first second stands covers holds
    have rest := @inductionHypothesis (items.filter fun item => !window item)
      (ordered.filter _) (by
        intro item member
        obtain ⟨inside, outside⟩ := List.mem_filter.mp member
        obtain ⟨other, among, covers⟩ := covered item inside
        rcases List.mem_cons.mp among with rfl | later
        · simp [covers] at outside
        · exact ⟨other, later, covers⟩) following
    have within : (others.flatMap fun other =>
        (items.filter fun item => !window item).filter other).Sublist
          (others.flatMap fun other => items.filter other) :=
      List.Sublist.flatMap_right others fun other _ => List.filter_sublist.filter other
    have whole := List.Sublist.append (List.Sublist.refl (items.filter window)) (rest.trans within)
    rwa [splits] at whole

end Windows
