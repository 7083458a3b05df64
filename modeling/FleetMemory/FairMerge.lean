/-
This file is a small library on fair merging. Two lists are merged by a balance: each step
adds the first list's share of one item to it, and the first list is next when the balance is
at half an item or more, which its item is then taken off. As long as neither list has run out,
the items of the first list among the items merged so far stay within half an item of its share
of them.
-/

import Mathlib.Algebra.Order.Field.Basic
import Mathlib.Data.List.Basic
import Mathlib.Tactic.Linarith
import Mathlib.Tactic.Ring

namespace FairMerge

variable {Item Amount : Type} [Field Amount] [LinearOrder Amount]

/-! ### The merge -/

/-- Merge two lists by the balance the first of them has. -/
def merge (share : Amount) : Amount → List Item → List Item → List Item
  | _, [], seconds => seconds
  | _, firsts, [] => firsts
  | balance, first :: firsts, second :: seconds =>
    if 1 / 2 ≤ balance + share then
      first :: merge share (balance + share - 1) firsts (second :: seconds)
    else second :: merge share (balance + share) (first :: firsts) seconds
termination_by _ firsts seconds => firsts.length + seconds.length

/-- Items of both kinds are left. -/
def BothLeft (kind : Item → Bool) (left : List Item) : Prop :=
  (∃ item ∈ left, kind item = true) ∧ ∃ item ∈ left, kind item = false

/-- While items of both kinds are left, those of the kind have come within half an item of their
share of the items, when they begin at a balance. -/
def FairFrom (kind : Item → Bool) (share balance : Amount) (items : List Item) : Prop :=
  ∀ count : Nat, (∀ earlier < count, BothLeft kind (items.drop earlier)) →
    |((items.take count).countP kind : Amount) - (balance + count * share)| ≤ 1 / 2

/-- While items of both kinds are left, those of the kind have come within half an item of their
share of the items. -/
def Fair (kind : Item → Bool) (share : Amount) (items : List Item) : Prop :=
  ∀ count : Nat, (∀ earlier < count, BothLeft kind (items.drop earlier)) →
    |((items.take count).countP kind : Amount) - count * share| ≤ 1 / 2

section

variable {kind : Item → Bool} {share balance : Amount} {firsts seconds : List Item}

@[simp] theorem merge_nil_left : merge share balance [] seconds = seconds := by
  cases seconds <;> simp [merge]

@[simp] theorem merge_nil_right : merge share balance firsts [] = firsts := by
  cases firsts <;> simp [merge]

/-- The items of the one list come in its order. -/
theorem filter_merge (first : ∀ item ∈ firsts, kind item = true)
    (second : ∀ item ∈ seconds, kind item = false) :
    (merge share balance firsts seconds).filter kind = firsts := by
  fun_induction merge share balance firsts seconds with
  | case1 balance seconds =>
    exact List.filter_eq_nil_iff.mpr fun item member => by simp [second item member]
  | case2 balance firsts => exact List.filter_eq_self.mpr first
  | case3 balance head firsts other seconds due inductionHypothesis =>
    rw [List.filter_cons_of_pos (first head List.mem_cons_self),
      inductionHypothesis (fun item member => first item (List.mem_cons_of_mem _ member)) second]
  | case4 balance head firsts other seconds due inductionHypothesis =>
    rw [List.filter_cons_of_neg (by simp [second other List.mem_cons_self]),
      inductionHypothesis first fun item member => second item (List.mem_cons_of_mem _ member)]

/-- The items of the other list come in its order. -/
theorem filter_not_merge (first : ∀ item ∈ firsts, kind item = true)
    (second : ∀ item ∈ seconds, kind item = false) :
    (merge share balance firsts seconds).filter (fun item => !kind item) = seconds := by
  fun_induction merge share balance firsts seconds with
  | case1 balance seconds =>
    exact List.filter_eq_self.mpr fun item member => by simp [second item member]
  | case2 balance firsts =>
    exact List.filter_eq_nil_iff.mpr fun item member => by simp [first item member]
  | case3 balance head firsts other seconds due inductionHypothesis =>
    rw [List.filter_cons_of_neg (by simp [first head List.mem_cons_self]),
      inductionHypothesis (fun item member => first item (List.mem_cons_of_mem _ member)) second]
  | case4 balance head firsts other seconds due inductionHypothesis =>
    rw [List.filter_cons_of_pos (by simp [second other List.mem_cons_self]),
      inductionHypothesis first fun item member => second item (List.mem_cons_of_mem _ member)]

end

/-! ### Fairness -/

section

variable {kind : Item → Bool} {share balance : Amount} {item : Item}
  {items firsts seconds : List Item}

theorem fairFrom_of_not_bothLeft (within : |balance| ≤ 1 / 2) (alone : ¬BothLeft kind items) :
    FairFrom kind share balance items := by
  intro count left
  cases count with
  | zero => simpa using within
  | succ count => exact absurd (left 0 (Nat.succ_pos count)) alone

/-- One step of a fair merge: the balance it leaves is the one before it with the share of the
step, less the item that came. -/
theorem FairFrom.cons (within : |balance| ≤ 1 / 2)
    (rest : FairFrom kind share (balance + share - if kind item then 1 else 0) items) :
    FairFrom kind share balance (item :: items) := by
  intro count left
  cases count with
  | zero => simpa using within
  | succ count =>
    have tail := rest count fun earlier before => left (earlier + 1) (Nat.succ_lt_succ before)
    have counted : (((item :: items).take (count + 1)).countP kind : Amount) =
        ((items.take count).countP kind : Amount) + if kind item then 1 else 0 := by
      rw [List.take_succ_cons, List.countP_cons]
      split <;> simp
    rw [counted]
    push_cast
    refine le_of_eq_of_le (congrArg abs ?_) tail
    ring

variable [IsStrictOrderedRing Amount]

/-- The first list is never more than half an item ahead of its share, or behind it. -/
theorem fairFrom_merge (first : ∀ item ∈ firsts, kind item = true)
    (second : ∀ item ∈ seconds, kind item = false) (least : 0 ≤ share) (most : share ≤ 1)
    (within : |balance| ≤ 1 / 2) :
    FairFrom kind share balance (merge share balance firsts seconds) := by
  fun_induction merge share balance firsts seconds with
  | case1 balance seconds =>
    refine fairFrom_of_not_bothLeft within ?_
    rintro ⟨⟨item, member, ofKind⟩, -⟩
    rw [second item member] at ofKind
    cases ofKind
  | case2 balance firsts =>
    refine fairFrom_of_not_bothLeft within ?_
    rintro ⟨-, item, member, ofKind⟩
    rw [first item member] at ofKind
    cases ofKind
  | case3 balance head firsts other seconds due inductionHypothesis =>
    refine FairFrom.cons within ?_
    rw [if_pos (first head List.mem_cons_self)]
    refine inductionHypothesis (fun item member => first item (List.mem_cons_of_mem _ member))
      second ?_
    obtain ⟨-, high⟩ := abs_le.mp within
    exact abs_le.mpr ⟨by linarith, by linarith⟩
  | case4 balance head firsts other seconds due inductionHypothesis =>
    refine FairFrom.cons within ?_
    rw [if_neg (by simp [second other List.mem_cons_self]), sub_zero]
    refine inductionHypothesis first
      (fun item member => second item (List.mem_cons_of_mem _ member)) ?_
    obtain ⟨low, -⟩ := abs_le.mp within
    exact abs_le.mpr ⟨by linarith, by linarith⟩

/-- A merge that begins with an even balance is fair. -/
theorem fair_merge (first : ∀ item ∈ firsts, kind item = true)
    (second : ∀ item ∈ seconds, kind item = false) (least : 0 ≤ share) (most : share ≤ 1) :
    Fair kind share (merge share 0 firsts seconds) := by
  intro count left
  have fair := fairFrom_merge first second least most (by rw [abs_zero]; linarith) count left
  rwa [zero_add] at fair

end

end FairMerge
