/-
This file proves that the text of a special token is not data for the tokenizer: a body is
chunked, and ranked items are assembled, exactly when no such text stands in what is
measured. One stored memory with such a text fails every assembly that comes to it.
-/

import FleetMemory.ChunkTexts
import FleetMemory.SearchTools

namespace FleetMemory

open StoreProgram

variable {runtime : Runtime} {tokenBytes : Nat → List UInt8} {specials : List String}

/-! ### Assembly -/

theorem measureTokens_returns_iff (tokenizes : Tokenizes tokenBytes specials runtime)
    (text : String) :
    (∃ count, measureTokens runtime text = .ok count) ↔ ¬HoldsSpecial specials text := by
  rw [← tokenizes.accepts text]
  constructor
  · rintro ⟨count, measured⟩
    obtain ⟨tokens, encoded, _⟩ := except_map_eq_ok.mp measured
    exact ⟨tokens, encoded⟩
  · rintro ⟨tokens, encoded⟩
    exact ⟨tokens.length, except_map_eq_ok.mpr ⟨tokens, encoded, rfl⟩⟩

/-- The break between two memories keeps their texts apart. -/
theorem holdsSpecial_break (tokenizes : Tokenizes tokenBytes specials runtime)
    {block : String} (free : ¬HoldsSpecial specials block) (content : String) :
    HoldsSpecial specials (block ++ "\n\n" ++ content) ↔ HoldsSpecial specials content := by
  have closed : Closed (block ++ "\n\n") := by
    intro character ends
    rw [String.toList_append, List.getLast?_append_of_ne_nil _ (by simp)] at ends
    obtain rfl := Option.mem_some_iff.mp ends
    decide
  have before : ¬HoldsSpecial specials (block ++ "\n\n") := fun holds =>
    free (holdsSpecial_of_append_spaces tokenizes (List.all_eq_true.mp rfl) holds)
  rw [holdsSpecial_append tokenizes closed]
  exact or_iff_right before

variable {tokenBudget : Int}

theorem holdsSpecial_candidate (tokenizes : Tokenizes tokenBytes specials runtime)
    {currentBlock : String} (free : ¬HoldsSpecial specials currentBlock) (content : String) :
    HoldsSpecial specials
        (if currentBlock = "" then content else currentBlock ++ "\n\n" ++ content) ↔
      HoldsSpecial specials content := by
  split
  · exact Iff.rfl
  · exact holdsSpecial_break tokenizes free content

/-- Items that were packed hold no special token, and neither does their block. -/
theorem free_of_packItems (tokenizes : Tokenizes tokenBytes specials runtime)
    {currentBlock : String} (free : ¬HoldsSpecial specials currentBlock)
    {items included : List Item} {packed : List Item × String}
    (returned : packItems runtime tokenBudget included currentBlock items = .ok packed) :
    (∀ item ∈ items, ¬HoldsSpecial specials item.value.content) ∧
      ¬HoldsSpecial specials packed.2 := by
  induction items generalizing currentBlock included with
  | nil =>
    rw [← Except.ok.inj returned]
    exact ⟨by simp, free⟩
  | cons item rest inductionHypothesis =>
    rw [packItems] at returned
    dsimp only at returned
    rw [List.forall_mem_cons, and_assoc]
    split at returned
    · rename_i empty
      rw [empty]
      exact ⟨not_holdsSpecial_empty tokenizes, inductionHypothesis free returned⟩
    · obtain ⟨count, measured, returned⟩ := except_bind_eq_ok.mp returned
      have plain := (measureTokens_returns_iff tokenizes _).mp ⟨count, measured⟩
      refine ⟨mt (holdsSpecial_candidate tokenizes free _).mpr plain, ?_⟩
      split at returned
      · exact inductionHypothesis plain returned
      · exact inductionHypothesis free returned

/-- Items without special tokens are packed. -/
theorem packItems_returns (tokenizes : Tokenizes tokenBytes specials runtime)
    {currentBlock : String} (free : ¬HoldsSpecial specials currentBlock) {items : List Item}
    (plain : ∀ item ∈ items, ¬HoldsSpecial specials item.value.content) (included : List Item) :
    ∃ packed, packItems runtime tokenBudget included currentBlock items = .ok packed := by
  induction items generalizing currentBlock included with
  | nil => exact ⟨_, rfl⟩
  | cons item rest inductionHypothesis =>
    obtain ⟨here, later⟩ := List.forall_mem_cons.mp plain
    rw [packItems]
    dsimp only
    split
    · exact inductionHypothesis free later included
    · have candidate := mt (holdsSpecial_candidate tokenizes free _).mp here
      obtain ⟨count, measured⟩ := (measureTokens_returns_iff tokenizes _).mpr candidate
      rw [measured, except_ok_bind]
      split
      · exact inductionHypothesis candidate later _
      · exact inductionHypothesis free later included

/-- Ranked items are assembled exactly when the budget is zero or no special token stands in one of
them. -/
theorem assembleContext_returns_iff (tokenizes : Tokenizes tokenBytes specials runtime)
    (items : List Item) :
    (∃ assembled, assembleContext runtime items tokenBudget = .ok assembled) ↔
      tokenBudget = 0 ∨ ∀ item ∈ items, ¬HoldsSpecial specials item.value.content := by
  have nothing := not_holdsSpecial_empty tokenizes
  rw [assembleContext]
  split
  · rename_i trivial
    refine iff_of_true ⟨_, rfl⟩ (trivial.imp_right fun empty => ?_)
    simp [empty]
  · rename_i measured
    rw [or_iff_right (not_or.mp measured).1]
    constructor
    · rintro ⟨assembled, returned⟩
      obtain ⟨packed, packing, _⟩ := except_bind_eq_ok.mp returned
      exact (free_of_packItems tokenizes nothing packing).1
    · intro plain
      obtain ⟨packed, packing⟩ := packItems_returns tokenizes nothing plain []
      obtain ⟨count, counted⟩ := (measureTokens_returns_iff tokenizes _).mpr
        (free_of_packItems tokenizes nothing packing).2
      rw [packing, except_ok_bind]
      dsimp only
      split
      · exact ⟨_, rfl⟩
      · rw [counted]
        exact ⟨_, rfl⟩

/-! ### Content is data exactly without special tokens -/

variable {overlapTokens : Int} {settings : ChunkSettings}

/-- A body is chunked, and stored items are assembled, exactly when no special token stands in the
body, or in one of the items under a budget that is not zero. -/
theorem content_is_data_iff (tokenizes : Tokenizes tokenBytes specials runtime)
    (positive : 1 ≤ settings.chunkTargetTokens)
    (product : runtime.truncatedProduct settings.chunkTargetTokens
      settings.chunkOverlapRatio = .ok overlapTokens)
    (less : overlapTokens < settings.chunkTargetTokens)
    (body : String) (sourceRef : Option String) (project : String) (items : List Item)
    (tokenBudget : Int) :
    ((∃ chunks, chunkProse runtime settings body sourceRef project = .returned chunks) ↔
      ¬HoldsSpecial specials body) ∧
    ((∃ assembled, assembleContext runtime items tokenBudget = .ok assembled) ↔
      tokenBudget = 0 ∨ ∀ item ∈ items, ¬HoldsSpecial specials item.value.content) :=
  ⟨chunkProse_returns_iff tokenizes body product positive less,
    assembleContext_returns_iff tokenizes items⟩

/-- A stored chunk of the given text. -/
def storedItem (content : String) : Item where
  place := ⟨["fleet_memory", "p", "chunk"], "k"⟩
  value := { content := content }
  score := none

/-- Text that only resembles a special token is chunked and assembled. -/
theorem content_is_data_iff_plain :
    (∃ chunks, chunkProse (Runtime.bytewise ["<|endoftext|>"] simpleProduct) ⟨4, ⟨"0.5"⟩⟩
        "<|endof|>" none "p" = .returned chunks) ∧
      ∃ assembled, assembleContext (Runtime.bytewise ["<|endoftext|>"] simpleProduct)
        [storedItem "<|endof|>"] 100 = .ok assembled :=
  have data := @content_is_data_iff _ _ _ 2 ⟨4, ⟨"0.5"⟩⟩
    (tokenizes_bytewise printing_endoftext simpleProduct) (by decide) rfl (by decide) "<|endof|>"
    none "p" [storedItem "<|endof|>"] 100
  have plain : ¬HoldsSpecial ["<|endoftext|>"] "<|endof|>" :=
    not_holdsSpecial_of_short (by decide)
  ⟨data.1.mpr plain, data.2.mpr (Or.inr (List.forall_mem_singleton.mpr plain))⟩

/-- The text of a special token is neither chunked nor assembled. -/
theorem not_content_is_data :
    (¬∃ chunks, chunkProse (Runtime.bytewise ["<|endoftext|>"] simpleProduct) ⟨4, ⟨"0.5"⟩⟩
        "<|endoftext|>" none "p" = .returned chunks) ∧
      ¬∃ assembled, assembleContext (Runtime.bytewise ["<|endoftext|>"] simpleProduct)
        [storedItem "<|endoftext|>"] 100 = .ok assembled := by
  have tokenizes := tokenizes_bytewise printing_endoftext simpleProduct
  have holds : HoldsSpecial ["<|endoftext|>"] "<|endoftext|>" :=
    ⟨_, List.mem_singleton_self _, List.infix_refl _⟩
  constructor
  · intro returned
    exact (chunkProse_returns_iff tokenizes _ rfl (by decide) (by decide)).mp returned holds
  · intro assembled
    rcases (assembleContext_returns_iff tokenizes _).mp assembled with zero | free
    · cases zero
    · exact free _ (List.mem_singleton_self _) holds

end FleetMemory
