/-
This file is a small library of keyed updates behind a duplicate window. The content a list
of updates leaves at a key is that of the last update of the key. A stream with a duplicate
window takes an update unless it took one of the same id less than a window ago. So what
the stream took decides what stands at a key, and updates of one id that keep their
distance are all taken.
-/

import Mathlib.Data.List.Induction

namespace KeyedUpdates

variable {Item Key Content Id : Type}

/-! ### The last update of a key -/

section

variable [DecidableEq Key] (key : Item → Key)

/-- The last item of a key. -/
def lastOf (items : List Item) (wanted : Key) : Option Item :=
  items.foldl (fun found item => if key item = wanted then some item else found) none

@[simp] theorem lastOf_nil (wanted : Key) : lastOf key [] wanted = none := rfl

theorem lastOf_concat (items : List Item) (item : Item) (wanted : Key) :
    lastOf key (items ++ [item]) wanted =
      if key item = wanted then some item else lastOf key items wanted := by
  rw [lastOf, List.foldl_append]
  rfl

/-- The last item of a key is an item of the key. -/
theorem lastOf_eq_some {items : List Item} {wanted : Key} {item : Item}
    (last : lastOf key items wanted = some item) : item ∈ items ∧ key item = wanted := by
  induction items using List.reverseRecOn with
  | nil => cases last
  | append_singleton rest final inductionHypothesis =>
    rw [lastOf_concat] at last
    split at last
    · rename_i same
      obtain rfl := Option.some.inj last
      exact ⟨List.mem_append_right rest (List.mem_singleton_self final), same⟩
    · obtain ⟨member, same⟩ := inductionHypothesis last
      exact ⟨List.mem_append_left _ member, same⟩

/-- A key without a last item is the key of no item. -/
theorem ne_of_lastOf_eq_none {items : List Item} {wanted : Key}
    (absent : lastOf key items wanted = none) : ∀ item ∈ items, key item ≠ wanted := by
  induction items using List.reverseRecOn with
  | nil => simp
  | append_singleton rest final inductionHypothesis =>
    rw [lastOf_concat] at absent
    split at absent
    · cases absent
    · rename_i other
      intro item member
      rcases List.mem_append.mp member with earlier | single
      · exact inductionHypothesis absent item earlier
      · rw [List.mem_singleton.mp single]
        exact other

theorem lastOf_eq_none {items : List Item} {wanted : Key}
    (apart : ∀ item ∈ items, key item ≠ wanted) : lastOf key items wanted = none := by
  cases last : lastOf key items wanted with
  | none => rfl
  | some item =>
    obtain ⟨member, same⟩ := lastOf_eq_some key last
    exact absurd same (apart item member)

/-- Keys that are told apart alike have the same last items. -/
theorem lastOf_congr {Other : Type} [DecidableEq Other] (otherKey : Item → Other)
    {items : List Item} {wanted : Key} {otherWanted : Other}
    (alike : ∀ item ∈ items, key item = wanted ↔ otherKey item = otherWanted) :
    lastOf key items wanted = lastOf otherKey items otherWanted := by
  induction items using List.reverseRecOn with
  | nil => rfl
  | append_singleton rest final inductionHypothesis =>
    rw [lastOf_concat, lastOf_concat,
      inductionHypothesis fun item member => alike item (List.mem_append_left _ member)]
    exact if_congr (alike final (by simp)) rfl rfl

/-- What stands at a key after the items, over what stood there before. -/
def current (content : Item → Content) (before : Key → Option Content) (items : List Item)
    (wanted : Key) : Option Content :=
  match lastOf key items wanted with
  | some item => some (content item)
  | none => before wanted

theorem current_concat (content : Item → Content) (before : Key → Option Content)
    (items : List Item) (item : Item) (wanted : Key) :
    current key content before (items ++ [item]) wanted =
      if key item = wanted then some (content item)
      else current key content before items wanted := by
  rw [current, lastOf_concat]
  by_cases same : key item = wanted
  · rw [if_pos same, if_pos same]
  · rw [if_neg same, if_neg same]
    rfl

end

/-! ### The duplicate window -/

section

variable [DecidableEq Id] (window : Nat) (stamp : Item → Id × Nat)

/-- The stream took this id less than a window ago. -/
def Duplicate (taken : List (Id × Nat)) (arriving : Id × Nat) : Prop :=
  ∃ earlier ∈ taken, earlier.1 = arriving.1 ∧ arriving.2 < earlier.2 + window

instance (taken : List (Id × Nat)) (arriving : Id × Nat) :
    Decidable (Duplicate window taken arriving) :=
  inferInstanceAs (Decidable (∃ earlier ∈ taken, _))

/-- The items a stream takes, after what it took before. -/
def accepted (before : List (Id × Nat)) (items : List Item) : List Item :=
  items.foldl (fun taken item =>
    if Duplicate window (before ++ taken.map stamp) (stamp item) then taken
    else taken ++ [item]) []

theorem accepted_concat (before : List (Id × Nat)) (items : List Item) (item : Item) :
    accepted window stamp before (items ++ [item]) =
      if Duplicate window (before ++ (accepted window stamp before items).map stamp) (stamp item)
      then accepted window stamp before items
      else accepted window stamp before items ++ [item] := by
  rw [accepted, List.foldl_append]
  rfl

/-- Items of one id that keep a window's distance are all taken. -/
theorem accepted_eq_self {items : List Item}
    (distant : items.Pairwise fun earlier later => (stamp earlier).1 = (stamp later).1 →
      (stamp earlier).2 + window ≤ (stamp later).2) :
    accepted window stamp [] items = items := by
  induction items using List.reverseRecOn with
  | nil => rfl
  | append_singleton rest last inductionHypothesis =>
    obtain ⟨earlier, _, across⟩ := List.pairwise_append.mp distant
    rw [accepted_concat, inductionHypothesis earlier, if_neg]
    rintro ⟨old, member, same, near⟩
    obtain ⟨item, inside, rfl⟩ := List.mem_map.mp member
    have far := across item inside last (List.mem_singleton_self last) same
    omega

end

end KeyedUpdates
