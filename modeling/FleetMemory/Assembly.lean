/-
This file proves what the assembly of a context block comes to. Each ranked item in turn is
taken exactly when it has a content and the block with it stays within the budget. The block
is the taken contents joined, and its measured size is the one reported. A budget of nothing
is answered before the items are looked at, so it leaves out even a content that measures
nothing. A larger budget may take other items, yet its block never measures less.
-/

import FleetMemory.Packing
import FleetMemory.SearchTools

namespace FleetMemory

/-! ### Blocks -/

/-- The contents of items, joined to one block. -/
def joined (items : List Item) : String :=
  String.intercalate "\n\n" (items.map fun item => item.value.content)

/-- The items all have a content. -/
def Filled (items : List Item) : Prop :=
  ∀ item ∈ items, item.value.content ≠ ""

section

variable {items : List Item} {item : Item}

theorem Filled.concat (filled : Filled items) (content : item.value.content ≠ "") :
    Filled (items ++ [item]) :=
  List.forall_mem_append.mpr ⟨filled, by simpa using content⟩

/-- Items with a content leave an empty block only if there are none. -/
theorem joined_eq_empty (filled : Filled items) : joined items = "" ↔ items = [] := by
  constructor
  · intro empty
    cases items with
    | nil => rfl
    | cons first rest =>
      refine absurd ?_ (filled first List.mem_cons_self)
      cases rest with
      | nil => exact empty
      | cons second others =>
        rw [joined, List.map_cons, List.map_cons, String.intercalate_cons_cons] at empty
        simpa using congrArg String.toList empty
  · rintro rfl
    rfl

/-- A block with a content is not empty. -/
theorem joined_concat_ne_empty (filled : Filled items) (content : item.value.content ≠ "") :
    joined (items ++ [item]) ≠ "" :=
  fun empty => absurd ((joined_eq_empty (filled.concat content)).mp empty) (by simp)

/-- The block with one more content. -/
theorem joined_concat (filled : Filled items) :
    joined (items ++ [item]) =
      if joined items = "" then item.value.content
      else joined items ++ "\n\n" ++ item.value.content := by
  rw [joined, List.map_append, List.map_singleton]
  split
  · rename_i empty
    rw [(joined_eq_empty filled).mp empty]
    exact String.intercalate_singleton
  · rename_i block
    rw [String.intercalate_append_of_ne_nil _ (by simp), String.intercalate_singleton]
    · rfl
    · exact fun none_taken => block ((joined_eq_empty filled).mpr (by simpa using none_taken))

end

/-! ### The loop -/

section

variable (measure : String → Nat) (tokenBudget : Int)

/-- The item has a content that fits the budget behind the items taken before it. -/
def Fits (taken : List Item) (item : Item) : Prop :=
  item.value.content ≠ "" ∧ (measure (joined (taken ++ [item])) : Int) ≤ tokenBudget

/-- Where the loop stands after some items: each was decided as it fits, and the block of those
taken is within the budget. -/
structure Assembling (items : List Item) (choices : List (Item × Bool)) : Prop where
  greedy : Packing.Greedy (Fits measure tokenBudget) items choices
  filled : Filled (Packing.chosen choices)
  within : (measure (joined (Packing.chosen choices)) : Int) ≤ tokenBudget

variable {runtime : Runtime} {measure tokenBudget} {items : List Item}
  {choices : List (Item × Bool)} {item : Item}

/-- An item that fits is taken. -/
theorem Assembling.take (assembling : Assembling measure tokenBudget items choices)
    (fits : Fits measure tokenBudget (Packing.chosen choices) item) :
    Assembling measure tokenBudget (items ++ [item]) (choices ++ [(item, true)]) := by
  refine ⟨assembling.greedy.concat (iff_of_true rfl fits), ?_, ?_⟩
  · rw [Packing.chosen_concat]
    exact assembling.filled.concat fits.1
  · rw [Packing.chosen_concat]
    exact fits.2

/-- An item that does not fit is left out. -/
theorem Assembling.skip (assembling : Assembling measure tokenBudget items choices)
    (unfit : ¬Fits measure tokenBudget (Packing.chosen choices) item) :
    Assembling measure tokenBudget (items ++ [item]) (choices ++ [(item, false)]) := by
  refine ⟨assembling.greedy.concat (iff_of_false (by simp) unfit), ?_, ?_⟩
  · rw [Packing.chosen_concat]
    exact assembling.filled
  · rw [Packing.chosen_concat]
    exact assembling.within

/-- The loop takes the items that fit. -/
theorem packItems_assembling
    (measures : ∀ text, text ≠ "" → measureTokens runtime text = .ok (measure text))
    (assembling : Assembling measure tokenBudget items choices) (rest : List Item) :
    ∃ final, Assembling measure tokenBudget (items ++ rest) final ∧
      packItems runtime tokenBudget (Packing.chosen choices) (joined (Packing.chosen choices)) rest =
        .ok (Packing.chosen final, joined (Packing.chosen final)) := by
  induction rest generalizing items choices with
  | nil => exact ⟨choices, by rwa [List.append_nil], rfl⟩
  | cons item rest inductionHypothesis =>
    rw [List.append_cons, packItems]
    by_cases fits : Fits measure tokenBudget (Packing.chosen choices) item
    · obtain ⟨final, ended, loop⟩ := inductionHypothesis (assembling.take fits)
      refine ⟨final, ended, ?_⟩
      rw [Packing.chosen_concat, if_pos rfl, joined_concat assembling.filled] at loop
      have measured := measures _ (joined_concat_ne_empty assembling.filled fits.1)
      have within := fits.2
      rw [joined_concat assembling.filled] at measured within
      simp only [if_neg fits.1, measured, except_ok_bind, if_pos within]
      exact loop
    · obtain ⟨final, ended, loop⟩ := inductionHypothesis (assembling.skip fits)
      refine ⟨final, ended, ?_⟩
      rw [Packing.chosen_concat, if_neg (by simp)] at loop
      by_cases content : item.value.content = ""
      · simp only [if_pos content]
        exact loop
      · have exceeds : ¬(measure (joined (Packing.chosen choices ++ [item])) : Int) ≤ tokenBudget :=
          fun within => fits ⟨content, within⟩
        have measured := measures _ (joined_concat_ne_empty assembling.filled content)
        rw [joined_concat assembling.filled] at measured exceeds
        simp only [if_neg content, measured, except_ok_bind, if_neg exceeds]
        exact loop

end

/-! ### The result -/

/-- The result is the block of a subsequence of the items: it is within the budget and as long as
it says, and its types are those of the items in it. -/
structure Assembles (measure : String → Nat) (tokenBudget : Int) (items : List Item)
    (choices : List (Item × Bool)) (result : AssemblyResult) : Prop where
  decided : choices.map Prod.fst = items
  filled : Filled (Packing.chosen choices)
  block : result.contextBlock = joined (Packing.chosen choices)
  measured : result.tokensUsed = measure result.contextBlock
  within : (result.tokensUsed : Int) ≤ tokenBudget
  types : ∀ name, name ∈ result.contributingTypes ↔ name ≠ "" ∧
    ∃ item ∈ Packing.chosen choices,
      extractPayloadType (item.value.naturalKey.getD "") = some name

/-- The items taken are among the ranked ones, in their order. -/
theorem Assembles.sublist {measure : String → Nat} {tokenBudget : Int} {items : List Item}
    {choices : List (Item × Bool)} {result : AssemblyResult}
    (assembles : Assembles measure tokenBudget items choices result) :
    List.Sublist (Packing.chosen choices) items :=
  assembles.decided ▸ Packing.chosen_sublist choices

/-- Every item left out would have exceeded the budget behind the items taken before it. -/
def Maximal (measure : String → Nat) (tokenBudget : Int) (choices : List (Item × Bool)) : Prop :=
  ∀ before item after, choices = before ++ (item, false) :: after → item.value.content ≠ "" →
    tokenBudget < measure (joined (Packing.chosen before ++ [item]))

theorem mem_contributingTypes {items : List Item} {name : String} :
    name ∈ contributingTypes items ↔ name ≠ "" ∧
      ∃ item ∈ items, extractPayloadType (item.value.naturalKey.getD "") = some name := by
  rw [contributingTypes, List.mem_toFinset, List.mem_filterMap]
  constructor
  · rintro ⟨item, member, found⟩
    obtain ⟨extracted, kept⟩ := Option.filter_eq_some_iff.mp found
    exact ⟨by simpa using kept, item, member, extracted⟩
  · rintro ⟨named, item, member, extracted⟩
    exact ⟨item, member, Option.filter_eq_some_iff.mpr ⟨extracted, by simpa using named⟩⟩

/-- Items that are all left out. -/
theorem chosen_none (items : List Item) :
    Packing.chosen (items.map fun item => (item, false)) = [] := by
  simp [Packing.chosen]

/-- What a loop over the items comes to. -/
theorem assembleContext_of_loop {runtime : Runtime} {measure : String → Nat} {items : List Item}
    {tokenBudget : Int}
    (measures : ∀ text, text ≠ "" → measureTokens runtime text = .ok (measure text))
    (empty : measure "" = 0) (looped : ¬(tokenBudget = 0 ∨ items = []))
    {includedItems : List Item} {currentBlock : String}
    (loop : packItems runtime tokenBudget [] "" items = .ok (includedItems, currentBlock)) :
    assembleContext runtime items tokenBudget = .ok ⟨currentBlock,
      if tokenBudget > 0 then measure currentBlock / tokenBudget else 0,
      contributingTypes includedItems, measure currentBlock⟩ := by
  rw [assembleContext, if_neg looped, loop, except_ok_bind]
  by_cases none_taken : currentBlock = ""
  · simp only [none_taken, empty]
    rfl
  · simp only [if_neg none_taken, measures _ none_taken]
    rfl

/-- The loop over the items, at a budget that holds the empty block. -/
theorem packItems_starting {runtime : Runtime} {measure : String → Nat} {tokenBudget : Int}
    (measures : ∀ text, text ≠ "" → measureTokens runtime text = .ok (measure text))
    (within : (measure "" : Int) ≤ tokenBudget) (items : List Item) :
    ∃ choices, Assembling measure tokenBudget items choices ∧
      packItems runtime tokenBudget [] "" items =
        .ok (Packing.chosen choices, joined (Packing.chosen choices)) := by
  have nothing : joined (Packing.chosen []) = "" := String.intercalate_nil
  have start : Assembling measure tokenBudget [] [] :=
    ⟨Packing.greedy_nil, by simp [Packing.chosen, Filled], by rwa [nothing]⟩
  have assembled := packItems_assembling measures start items
  rwa [nothing] at assembled

/-- For any measure of texts that gives the empty text nothing and any budget, the block is the
greedy packing of the ranked contents. A budget of nothing leaves every item out. -/
theorem assembleContext_assembles (runtime : Runtime) (measure : String → Nat)
    (measures : ∀ text, measureTokens runtime text = .ok (measure text))
    (empty : measure "" = 0) (items : List Item) (tokenBudget : Int) (budget : 0 ≤ tokenBudget) :
    ∃ result choices, assembleContext runtime items tokenBudget = .ok result ∧
      Assembles measure tokenBudget items choices result ∧
      (0 < tokenBudget → Maximal measure tokenBudget choices) ∧
      (tokenBudget = 0 → Packing.chosen choices = []) := by
  have nothing : Assembles measure tokenBudget items (items.map fun item => (item, false))
      ⟨"", 0, ∅, 0⟩ := by
    refine ⟨by simp [Function.comp_def], ?_, ?_, empty.symm, budget, ?_⟩
    · rw [chosen_none]
      exact fun _ member => absurd member (by simp)
    · rw [chosen_none]
      exact String.intercalate_nil.symm
    · simp [chosen_none]
  by_cases looped : tokenBudget = 0 ∨ items = []
  · refine ⟨_, _, if_pos looped, nothing, fun positive => ?_, fun _ => chosen_none items⟩
    obtain rfl := looped.resolve_left (by omega)
    intro before item after split
    simp at split
  · have counts : ∀ text, text ≠ "" → measureTokens runtime text = .ok (measure text) :=
      fun text _ => measures text
    have within : (measure "" : Int) ≤ tokenBudget := by rwa [empty]
    obtain ⟨choices, ended, loop⟩ := packItems_starting counts within items
    refine ⟨_, choices, assembleContext_of_loop counts empty looped loop, ?_, ?_, ?_⟩
    · exact ⟨ended.greedy.whole, ended.filled, rfl, rfl, ended.within,
        fun _ => mem_contributingTypes⟩
    · intro _ before item after split content
      by_contra within
      have taken := (ended.greedy.decided before item false after split).mpr
        ⟨content, not_lt.mp within⟩
      cases taken
    · exact fun zero => absurd (Or.inl zero) looped

/-! ### Two measures -/

/-- An item of a content alone. -/
def contentItem (content : String) : Item where
  place := ⟨[], ""⟩
  value := { content }
  score := none

/-- Of three contents, measured in characters, the second does not fit four of them. -/
theorem assembleContext_assembles_four :
    ∃ result choices,
      assembleContext (.ofTables [] [] []) [contentItem "a", contentItem "bb", contentItem "c"] 4 =
        .ok result ∧
      Assembles String.length 4 [contentItem "a", contentItem "bb", contentItem "c"] choices
        result ∧
      Maximal String.length 4 choices := by
  obtain ⟨result, choices, returned, assembles, maximal, _⟩ :=
    assembleContext_assembles (.ofTables [] [] []) String.length
      (fun text => congrArg Except.ok ((List.length_map _).trans String.length_toList)) rfl
      [contentItem "a", contentItem "bb", contentItem "c"] 4 (by decide)
  exact ⟨result, choices, returned, assembles, maximal (by decide)⟩

/-- The functions of a measure that gives every text nothing. -/
def weightless : Runtime :=
  { Runtime.ofTables [] [] [] with encode := fun _ => .ok [] }

/-- A budget of nothing leaves out a content that measures nothing. -/
theorem weightless_content_left_out :
    (∀ text, measureTokens weightless text = .ok 0) ∧
      ¬∃ result choices, assembleContext weightless [contentItem "a"] 0 = .ok result ∧
        Assembles (fun _ => 0) 0 [contentItem "a"] choices result ∧
        Maximal (fun _ => 0) 0 choices := by
  refine ⟨fun _ => rfl, ?_⟩
  rintro ⟨result, choices, returned, assembles, maximal⟩
  obtain rfl := Except.ok.inj returned
  obtain ⟨⟨item, taken⟩, rfl, rfl⟩ : ∃ choice : Item × Bool, choices = [choice] ∧
      choice.1 = contentItem "a" := by
    simpa using assembles.decided
  cases taken with
  | true => exact absurd assembles.block (by decide)
  | false => exact absurd (maximal [] _ [] rfl (by decide)) (by decide)

/-! ### Two budgets -/

/-- What a block counts for: an empty one is not measured. -/
def blockTokens (measure : String → Nat) (block : String) : Nat :=
  if block = "" then 0 else measure block

section

variable {measure : String → Nat}

theorem blockTokens_append (grows : ∀ text more, measure text ≤ measure (text ++ more))
    (text more : String) : blockTokens measure text ≤ blockTokens measure (text ++ more) := by
  by_cases empty : text = ""
  · rw [blockTokens, if_pos empty]
    exact Nat.zero_le _
  · have appended : text ++ more ≠ "" := fun none_left =>
      empty (String.append_eq_empty_iff.mp none_left).1
    rw [blockTokens, blockTokens, if_neg empty, if_neg appended]
    exact grows text more

/-- One more item lengthens the block. -/
theorem exists_joined_concat (items : List Item) (item : Item) :
    ∃ more, joined (items ++ [item]) = joined items ++ more := by
  cases items with
  | nil => exact ⟨item.value.content, String.intercalate_singleton.trans String.empty_append.symm⟩
  | cons first rest =>
    refine ⟨"\n\n" ++ item.value.content, ?_⟩
    rw [joined, List.map_append, String.intercalate_append_of_ne_nil (by simp) (by simp),
      List.map_singleton, String.intercalate_singleton, String.append_assoc]
    rfl

/-- The block of a larger budget counts for as many tokens at least. -/
theorem Assembling.tokens_le {small large : Int} {items : List Item}
    {choices others : List (Item × Bool)}
    (grows : ∀ text more, measure text ≤ measure (text ++ more)) (le : small ≤ large)
    (smaller : Assembling (blockTokens measure) small items choices)
    (larger : Assembling (blockTokens measure) large items others) :
    blockTokens measure (joined (Packing.chosen choices)) ≤
      blockTokens measure (joined (Packing.chosen others)) := by
  have grown : ∀ taken item, (blockTokens measure (joined taken) : Int) ≤
      blockTokens measure (joined (taken ++ [item])) := by
    intro taken item
    obtain ⟨more, extended⟩ := exists_joined_concat taken item
    rw [extended]
    exact Int.ofNat_le.mpr (blockTokens_append grows _ _)
  rcases Packing.Greedy.leads le grown smaller.greedy larger.greedy with same | ahead
  · rw [same]
  · exact Int.ofNat_le.mp (le_of_lt (lt_of_le_of_lt smaller.within ahead))

end

/-- A larger budget never gives fewer tokens, though the two runs may take different items. -/
theorem assembleContext_tokens_mono (runtime : Runtime) (measure : String → Nat)
    (measures : ∀ text, measureTokens runtime text = .ok (measure text))
    (grows : ∀ text more, measure text ≤ measure (text ++ more)) (items : List Item)
    (small large : Int) (budget : 0 ≤ small) (le : small ≤ large) :
    ∃ lesser greater, assembleContext runtime items small = .ok lesser ∧
      assembleContext runtime items large = .ok greater ∧
      lesser.tokensUsed ≤ greater.tokensUsed := by
  have counts : ∀ text, text ≠ "" →
      measureTokens runtime text = .ok (blockTokens measure text) := by
    intro text filled
    rw [blockTokens, if_neg filled]
    exact measures text
  obtain ⟨choices, smaller, loop⟩ := packItems_starting counts budget items
  obtain ⟨others, larger, largeLoop⟩ := packItems_starting counts (le_trans budget le) items
  by_cases small_looped : small = 0 ∨ items = []
  · have nothing : assembleContext runtime items small = .ok ⟨"", 0, ∅, 0⟩ :=
      if_pos small_looped
    by_cases large_looped : large = 0 ∨ items = []
    · exact ⟨_, _, nothing, if_pos large_looped, le_refl 0⟩
    · exact ⟨_, _, nothing, assembleContext_of_loop counts rfl large_looped largeLoop,
        Nat.zero_le _⟩
  · have large_looped : ¬(large = 0 ∨ items = []) := by
      rintro (zero | none_ranked)
      · exact small_looped (Or.inl (by omega))
      · exact small_looped (Or.inr none_ranked)
    exact ⟨_, _, assembleContext_of_loop counts rfl small_looped loop,
      assembleContext_of_loop counts rfl large_looped largeLoop,
      Assembling.tokens_le grows le smaller larger⟩

/-- Measured in characters, four hold the first and the last content, five the first and the
second. -/
theorem assembleContext_tokens_mono_five :
    ∃ lesser greater,
      assembleContext (.ofTables [] [] []) [contentItem "a", contentItem "bb", contentItem "c"] 4 =
        .ok lesser ∧
      assembleContext (.ofTables [] [] []) [contentItem "a", contentItem "bb", contentItem "c"] 5 =
        .ok greater ∧
      lesser.tokensUsed ≤ greater.tokensUsed :=
  assembleContext_tokens_mono (.ofTables [] [] []) String.length
    (fun _ => congrArg Except.ok ((List.length_map _).trans String.length_toList))
    (fun text more => by rw [String.length_append]; exact Nat.le_add_right _ _)
    [contentItem "a", contentItem "bb", contentItem "c"] 4 5 (by decide) (by decide)

end FleetMemory
