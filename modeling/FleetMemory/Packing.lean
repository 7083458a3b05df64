/-
This file is a small library on packing loops. A loop that closes its batch when the next item
does not fit cuts its items into batches of a bounded load, each begun by an item the batch
before it had no room for. A loop that takes every item that still fits leaves out just the
items that did not fit behind those taken before them. Of two such loops, the one with the larger capacity
may leave out items the other takes, but never ends lighter.
-/

import Mathlib.Algebra.GroupWithZero.Nat
import Mathlib.Algebra.Order.Group.Nat
import Mathlib.Data.List.Chain

namespace Packing

variable {Item : Type}

/-! ### Batches -/

section

variable (size : Item → Nat) (capacity : Nat)

/-- What the items of a batch come to. -/
def load (batch : List Item) : Nat :=
  (batch.map size).sum

/-- The later batch begins with an item the earlier one had no room for. -/
def Overflows (earlier later : List Item) : Prop :=
  ∀ first ∈ later.head?, capacity < load size earlier + size first

/-- The items cut into batches of a bounded load, none of them closed too early. -/
structure Packed (items : List Item) (batches : List (List Item)) : Prop where
  nonempty : ∀ batch ∈ batches, batch ≠ []
  whole : batches.flatten = items
  within : ∀ batch ∈ batches, load size batch ≤ capacity
  greedy : batches.IsChain (Overflows size capacity)

/-- The closed batches and the one that is being filled, if it holds anything. -/
def close (batches : List (List Item)) (current : List Item) : List (List Item) :=
  if current = [] then batches else batches ++ [current]

/-- Where a loop over items stands: those it has taken are packed, and the batch it fills is empty
before the first only. -/
structure Filling (items : List Item) (batches : List (List Item)) (current : List Item) :
    Prop where
  packed : Packed size capacity items (close batches current)
  started : current = [] → batches = []

end

section

variable {size : Item → Nat} {capacity : Nat} {items current : List Item}
  {batches : List (List Item)} {item : Item}

theorem load_concat : load size (current ++ [item]) = load size current + size item := by
  simp [load]

theorem close_of_ne_nil (filled : current ≠ []) : close batches current = batches ++ [current] :=
  if_neg filled

theorem filling_nil : Filling size capacity [] [] [] :=
  ⟨⟨by simp [close], rfl, by simp [close], List.isChain_nil⟩, fun _ => rfl⟩

/-- What a chain of batches is behind: a batch that extends the last one is behind it as well. -/
theorem isChain_concat_congr {last other : List Item} (same : last.head? = other.head?)
    (chain : (batches ++ [last]).IsChain (Overflows size capacity)) :
    (batches ++ [other]).IsChain (Overflows size capacity) := by
  rw [List.isChain_append] at chain ⊢
  refine ⟨chain.1, List.isChain_singleton other, fun earlier ends later begins => ?_⟩
  obtain rfl : other = later := by simpa using begins
  intro first head
  exact chain.2.2 earlier ends last (by simp) first (same ▸ head)

/-- An item that fits goes into the batch. -/
theorem Filling.add (filling : Filling size capacity items batches current)
    (fits : load size current + size item ≤ capacity) :
    Filling size capacity (items ++ [item]) batches (current ++ [item]) := by
  have extended : close batches (current ++ [item]) = batches ++ [current ++ [item]] :=
    close_of_ne_nil (by simp)
  refine ⟨?_, fun empty => absurd empty (by simp)⟩
  rw [extended]
  by_cases empty : current = []
  · have whole := filling.packed.whole
    obtain rfl := filling.started empty
    subst empty
    obtain rfl : [] = items := whole
    refine ⟨by simp, rfl, ?_, List.isChain_singleton _⟩
    intro batch member
    obtain rfl := List.mem_singleton.mp member
    rw [load_concat]
    exact fits
  · have packed := filling.packed
    rw [close_of_ne_nil empty] at packed
    refine ⟨?_, ?_, ?_, ?_⟩
    · intro batch member
      rcases List.mem_append.mp member with closed | here
      · exact packed.nonempty batch (List.mem_append_left _ closed)
      · rw [List.mem_singleton.mp here]
        simp
    · rw [← packed.whole]
      simp
    · intro batch member
      rcases List.mem_append.mp member with closed | here
      · exact packed.within batch (List.mem_append_left _ closed)
      · rw [List.mem_singleton.mp here, load_concat]
        exact fits
    · refine isChain_concat_congr ?_ packed.greedy
      rw [List.head?_append_of_ne_nil _ empty]

/-- An item that does not fit closes the batch and begins the next one. -/
theorem Filling.flush (filling : Filling size capacity items batches current)
    (filled : current ≠ []) (overflows : capacity < load size current + size item)
    (small : size item ≤ capacity) :
    Filling size capacity (items ++ [item]) (batches ++ [current]) [item] := by
  have packed := filling.packed
  rw [close_of_ne_nil filled] at packed
  refine ⟨?_, fun empty => absurd empty (by simp)⟩
  rw [close_of_ne_nil (by simp)]
  refine ⟨?_, ?_, ?_, ?_⟩
  · intro batch member
    rcases List.mem_append.mp member with closed | here
    · exact packed.nonempty batch closed
    · rw [List.mem_singleton.mp here]
      simp
  · rw [List.flatten_append, packed.whole]
    rfl
  · intro batch member
    rcases List.mem_append.mp member with closed | here
    · exact packed.within batch closed
    · rw [List.mem_singleton.mp here]
      simpa [load] using small
  · rw [List.isChain_append]
    refine ⟨packed.greedy, List.isChain_singleton _, fun earlier ends later begins => ?_⟩
    obtain rfl : current = earlier := by simpa using ends
    obtain rfl : [item] = later := by simpa using begins
    intro first head
    obtain rfl : item = first := by simpa using head
    exact overflows

end

/-! ### Choices -/

section

variable (fits : List Item → Item → Prop)

/-- The items that were taken. -/
def chosen (choices : List (Item × Bool)) : List Item :=
  (choices.filter Prod.snd).map Prod.fst

/-- Each item in turn is taken exactly when it fits behind those taken before it. -/
structure Greedy (items : List Item) (choices : List (Item × Bool)) : Prop where
  whole : choices.map Prod.fst = items
  decided : ∀ before item taken after, choices = before ++ (item, taken) :: after →
    (taken = true ↔ fits (chosen before) item)

variable {fits} {items : List Item} {choices : List (Item × Bool)}

theorem chosen_concat (choices : List (Item × Bool)) (item : Item) (taken : Bool) :
    chosen (choices ++ [(item, taken)]) =
      if taken = true then chosen choices ++ [item] else chosen choices := by
  cases taken <;> simp [chosen]

theorem chosen_sublist (choices : List (Item × Bool)) :
    List.Sublist (chosen choices) (choices.map Prod.fst) :=
  (List.filter_sublist).map Prod.fst

theorem greedy_nil : Greedy fits [] [] :=
  ⟨rfl, fun before _ _ _ split => absurd split.symm (by simp)⟩

/-- The next item is decided by those taken so far. -/
theorem Greedy.concat (greedy : Greedy fits items choices) {item : Item} {taken : Bool}
    (decided : taken = true ↔ fits (chosen choices) item) :
    Greedy fits (items ++ [item]) (choices ++ [(item, taken)]) := by
  refine ⟨by rw [List.map_append, greedy.whole]; rfl, fun before other verdict after split => ?_⟩
  rcases List.eq_nil_or_concat after with rfl | ⟨middle, last, rfl⟩
  · obtain ⟨rfl, same⟩ := List.append_inj' split rfl
    obtain ⟨rfl, rfl⟩ := Prod.mk.inj (List.cons.inj same).1
    exact decided
  · rw [List.concat_eq_append, ← List.cons_append, ← List.append_assoc] at split
    exact greedy.decided before other verdict middle (List.append_inj' split rfl).1

/-- The choices on items with a last one. -/
theorem Greedy.of_concat {item : Item} (greedy : Greedy fits (items ++ [item]) choices) :
    ∃ before taken, choices = before ++ [(item, taken)] ∧ Greedy fits items before ∧
      (taken = true ↔ fits (chosen before) item) := by
  rcases List.eq_nil_or_concat choices with rfl | ⟨before, ⟨last, taken⟩, rfl⟩
  · exact absurd greedy.whole.symm (by simp)
  · rw [List.concat_eq_append] at greedy ⊢
    have whole := greedy.whole
    rw [List.map_append, List.map_singleton] at whole
    obtain ⟨earlier, same⟩ := List.append_inj' whole rfl
    obtain rfl : last = item := (List.cons.inj same).1
    refine ⟨before, taken, rfl, ⟨earlier, fun front other verdict after split => ?_⟩, ?_⟩
    · refine greedy.decided front other verdict (after ++ [(last, taken)]) ?_
      rw [split, List.append_assoc]
      rfl
    · exact greedy.decided before last taken [] rfl

end

/-! ### Two capacities -/

section

/-- The item is admitted, and with it those taken are within the capacity. -/
def Affords (admits : Item → Prop) (weight : List Item → Int) (capacity : Int)
    (taken : List Item) (item : Item) : Prop :=
  admits item ∧ weight (taken ++ [item]) ≤ capacity

variable {admits : Item → Prop} {weight : List Item → Int} {small large : Int}
  {items : List Item} {choices others : List (Item × Bool)}

/-- Two loops that part do so at an item only the larger capacity has room for, and from there on
the one with it holds more than the smaller capacity ever could. -/
theorem Greedy.leads (le : small ≤ large)
    (grows : ∀ taken item, weight taken ≤ weight (taken ++ [item]))
    (smaller : Greedy (Affords admits weight small) items choices)
    (larger : Greedy (Affords admits weight large) items others) :
    chosen choices = chosen others ∨ small < weight (chosen others) := by
  induction items using List.reverseRecOn generalizing choices others with
  | nil =>
    obtain rfl := List.map_eq_nil_iff.mp smaller.whole
    obtain rfl := List.map_eq_nil_iff.mp larger.whole
    exact Or.inl rfl
  | append_singleton items item inductionHypothesis =>
    obtain ⟨choices, taken, rfl, smaller, fits⟩ := smaller.of_concat
    obtain ⟨others, also, rfl, larger, fitsLarge⟩ := larger.of_concat
    rw [chosen_concat, chosen_concat]
    rcases inductionHypothesis smaller larger with same | ahead
    · rw [same] at fits ⊢
      by_cases small_fits : Affords admits weight small (chosen others) item
      · rw [if_pos (fits.mpr small_fits),
          if_pos (fitsLarge.mpr ⟨small_fits.1, le_trans small_fits.2 le⟩)]
        exact Or.inl rfl
      · rw [if_neg fun took => small_fits (fits.mp took)]
        by_cases large_fits : Affords admits weight large (chosen others) item
        · rw [if_pos (fitsLarge.mpr large_fits)]
          exact Or.inr (not_le.mp fun within => small_fits ⟨large_fits.1, within⟩)
        · rw [if_neg fun took => large_fits (fitsLarge.mp took)]
          exact Or.inl rfl
    · refine Or.inr ?_
      cases also with
      | true => exact lt_of_lt_of_le ahead (grows (chosen others) item)
      | false => exact ahead

end

end Packing
