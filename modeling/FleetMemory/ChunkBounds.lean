/-
This file proves how large the chunks get and when the chunker ends. A text that is
appended takes at most the target, the overlap carried into it and the space behind that.
The window of a large section moves on exactly when the overlap is less than the target,
so a ratio of one never ends on a body with a section larger than the target.
-/

import FleetMemory.ChunkTexts

namespace FleetMemory

open StoreProgram

variable {runtime : Runtime} {targetTokens overlapTokens : Int} {sourceRef : Option String}
  {project : String}

/-! ### Sizes -/

/-- A count of tokens: it agrees with the tokenizer, a joined text takes no more than its parts, a
space takes one, and decoded tokens take no more than there were. -/
structure CountsTokens (count : String → Nat) (runtime : Runtime) : Prop where
  counts {text : String} {tokens : List Nat} (encoded : runtime.encode text = .ok tokens) :
    tokens.length = count text
  joined (first second : String) : count (first ++ second) ≤ count first + count second
  space : count " " = 1
  decoded (tokens : List Nat) : count (runtime.decode tokens) ≤ tokens.length

section

variable {count : String → Nat}

theorem count_carried_le (counts : CountsTokens count runtime) (positive : 0 < overlapTokens)
    {text : String} {tokens : List Nat} (encoded : runtime.encode text = .ok tokens) :
    (count (carried runtime overlapTokens text) : Int) ≤ overlapTokens + 1 := by
  rw [carried, if_pos positive, tokensOf_eq encoded]
  split
  · rename_i short
    rw [counts.counts encoded] at short
    omega
  · have tail := counts.decoded (tokens.drop (tokens.length - overlapTokens.toNat))
    have whole := counts.joined
      (runtime.decode (tokens.drop (tokens.length - overlapTokens.toNat))) " "
    rw [counts.space] at whole
    rw [List.length_drop] at tail
    omega

/-- A text carried over adds at most the overlap and a space. -/
theorem count_carried_append_le (counts : CountsTokens count runtime) (nonnegative : 0 ≤ overlapTokens)
    {currentChunkText overlap : String}
    (carries : overlapText runtime overlapTokens currentChunkText = .returned overlap)
    (text : String) : (count (overlap ++ text) : Int) ≤ overlapTokens + 1 + count text := by
  rw [overlapText_eq_returned carries]
  by_cases overlaps : 0 < overlapTokens
  · rw [overlapText, if_pos overlaps, extractTailTokens, Outcome.bind_eq_returned] at carries
    obtain ⟨tokens, encoded, _⟩ := carries
    have tail := count_carried_le counts overlaps (encodeText_eq_returned.mp encoded)
    have joined := counts.joined (carried runtime overlapTokens currentChunkText) text
    omega
  · rw [carried, if_neg overlaps, String.empty_append]
    omega

/-- A section appended fits behind the accumulated text, if there is any. -/
theorem count_append_le (counts : CountsTokens count runtime) {currentChunkText text : String}
    (decided : exceedsTarget runtime targetTokens currentChunkText text = .returned false)
    (fits : (count text : Int) ≤ targetTokens) :
    (count (currentChunkText ++ text) : Int) ≤ targetTokens := by
  unfold exceedsTarget at decided
  split at decided
  · rename_i empty
    rw [empty, String.empty_append]
    exact fits
  · obtain ⟨size, counted, decided⟩ := Outcome.bind_eq_returned.mp decided
    obtain ⟨tokens, encoded, rfl⟩ := tokenCount_eq_returned.mp counted
    have within := of_decide_eq_false (Outcome.returned.inj decided)
    rw [counts.counts encoded] at within
    omega

/-- The pieces of a large section take no more than the target. -/
theorem count_pieces_le (counts : CountsTokens count runtime) (positive : 1 ≤ targetTokens)
    {text piece : String} (member : piece ∈ pieces runtime targetTokens overlapTokens text) :
    (count piece : Int) ≤ targetTokens := by
  obtain ⟨span, inside, rfl⟩ := List.mem_map.mp member
  have bounds := Windows.bounds_of_mem_spans (Nat.zero_le _) (Nat.sub_le _ _) inside
  have decoded := counts.decoded (((tokensOf runtime text).take span.2).drop span.1)
  rw [List.length_drop, List.length_take] at decoded
  rw [windowText]
  omega

/-- What a chunk may take before it is stripped. -/
def WithinBound (count : String → Nat) (targetTokens overlapTokens : Int) (text : String) : Prop :=
  (count text : Int) ≤ targetTokens + overlapTokens + 1

theorem count_chunkTexts_le (counts : CountsTokens count runtime) (positive : 1 ≤ targetTokens)
    (nonnegative : 0 ≤ overlapTokens) {sections : List String} {currentChunkText : String}
    {chunks result : List Chunk}
    (returned : chunkSections runtime targetTokens overlapTokens sourceRef project chunks
      currentChunkText sections = .returned result)
    (bounded : currentChunkText ≠ "" →
      WithinBound count targetTokens overlapTokens currentChunkText) :
    ∀ text ∈ chunkTexts runtime targetTokens overlapTokens currentChunkText sections,
      WithinBound count targetTokens overlapTokens text := by
  have unblanked {current : String} (within : current ≠ "" →
      WithinBound count targetTokens overlapTokens current) :
      ∀ text ∈ unlessBlank current, WithinBound count targetTokens overlapTokens text := by
    intro text member
    rw [unlessBlank] at member
    split at member
    · cases member
    · rename_i solid
      rw [List.mem_singleton.mp member]
      refine within ?_
      rintro rfl
      exact solid rfl
  induction sections generalizing chunks currentChunkText with
  | nil => exact unblanked bounded
  | cons text rest inductionHypothesis =>
    obtain ⟨size, counted, passes⟩ := chunkSections_cons_eq_returned returned
    obtain ⟨tokens, encoded, rfl⟩ := tokenCount_eq_returned.mp counted
    have large : IsLarge runtime targetTokens text ↔ targetTokens < tokens.length := by
      rw [IsLarge, tokensOf_eq encoded]
    have textCount := counts.counts encoded
    rw [chunkTexts]
    obtain ⟨exceeds, parts, _, later⟩ | ⟨fits, decided, overlap, carries, later⟩ |
      ⟨fits, decided, later⟩ := passes
    · rw [if_pos (large.mpr exceeds)]
      intro other member
      rcases List.mem_append.mp member with earlier | beyond
      · rcases List.mem_append.mp earlier with current | piece
        · exact unblanked bounded other current
        · have taken := count_pieces_le counts positive piece
          rw [WithinBound]
          omega
      · refine inductionHypothesis later ?_ other beyond
        split
        · exact bounded
        · exact fun nonempty => absurd rfl nonempty
    · have overflows := (exceedsTarget_eq_returned decided).mp rfl
      rw [if_neg fun isLarge => fits (large.mp isLarge), if_pos overflows]
      refine List.forall_mem_cons.mpr ⟨bounded overflows.1, ?_⟩
      have joined := count_carried_append_le counts nonnegative carries text
      rw [overlapText_eq_returned carries] at later joined
      refine inductionHypothesis later fun _ => ?_
      rw [WithinBound]
      omega
    · have overflows := exceedsTarget_eq_returned decided
      rw [if_neg fun isLarge => fits (large.mp isLarge),
        if_neg fun full => Bool.false_ne_true (overflows.mpr full)]
      refine inductionHypothesis later fun _ => ?_
      have joined := count_append_le counts decided (by omega)
      rw [WithinBound]
      omega

variable {settings : ChunkSettings} {body : String} {chunks : List Chunk}

/-- The chunks of a body are texts of at most the target, the overlap and one more token, stripped,
and the pieces of a section larger than the target take at most the target. -/
theorem chunkProse_sizes (counts : CountsTokens count runtime)
    (product : runtime.truncatedProduct settings.chunkTargetTokens
      settings.chunkOverlapRatio = .ok overlapTokens)
    (positive : 1 ≤ settings.chunkTargetTokens) (nonnegative : 0 ≤ overlapTokens)
    (less : overlapTokens < settings.chunkTargetTokens)
    (returned : chunkProse runtime settings body sourceRef project = .returned chunks) :
    (chunks.map Chunk.text =
        (textsOf runtime settings.chunkTargetTokens overlapTokens body).map Text.strip ∧
      ∀ text ∈ textsOf runtime settings.chunkTargetTokens overlapTokens body,
        (count text : Int) ≤ settings.chunkTargetTokens + overlapTokens + 1) ∧
    ∀ (text : String) (parts : List String), settings.chunkTargetTokens < count text →
      splitLargeSection runtime text settings.chunkTargetTokens overlapTokens = .returned parts →
        ∀ part ∈ parts, (count part : Int) ≤ settings.chunkTargetTokens := by
  refine ⟨⟨text_of_chunkProse product positive less returned, ?_⟩, ?_⟩
  · rw [textsOf]
    split
    · simp
    · rename_i solid
      rw [chunkProse, if_neg solid, product] at returned
      exact count_chunkTexts_le counts positive nonnegative returned
        fun nonempty => absurd rfl nonempty
  · intro text parts exceeds split part member
    have encodes : ∃ tokens, runtime.encode text = .ok tokens := by
      rw [splitLargeSection, Outcome.bind_eq_returned] at split
      obtain ⟨tokens, encoded, _⟩ := split
      exact ⟨tokens, encodeText_eq_returned.mp encoded⟩
    obtain ⟨tokens, encoded⟩ := encodes
    have large : IsLarge runtime settings.chunkTargetTokens text := by
      rw [IsLarge, tokensOf_eq encoded, counts.counts encoded]
      exact exceeds
    rw [splitLargeSection_eq encoded positive less large] at split
    rw [← Outcome.returned.inj split] at member
    exact count_pieces_le counts positive member

end

/-- The functions with a tokenizer whose tokens are single characters. -/
def Runtime.charwise : Runtime where
  __ := Runtime.ofTables [] [] []
  encode text := .ok (text.toList.map Char.toNat)
  decode tokens := String.ofList (tokens.map Char.ofNat)
  truncatedProduct := simpleProduct

theorem counts_charwise : CountsTokens String.length Runtime.charwise where
  counts encoded := by
    rw [← Except.ok.inj encoded, List.length_map, String.length_toList]
  joined first second := (String.length_append first second).le
  space := by decide
  decoded tokens := by
    show (String.ofList (tokens.map Char.ofNat)).length ≤ tokens.length
    rw [String.length_ofList, List.length_map]

/-- Three sections of the target's size: the second and the third follow half of the one before. -/
theorem chunkProse_sizes_half :
    chunkProse Runtime.charwise ⟨4, ⟨"0.5"⟩⟩ "# a\n# b\n# cd" none "p" =
        .returned [⟨0, "# a", none, "p"⟩, ⟨1, "a\n # b", none, "p"⟩, ⟨2, "b\n # cd", none, "p"⟩] ∧
      ∀ text ∈ textsOf Runtime.charwise 4 2 "# a\n# b\n# cd", (text.length : Int) ≤ 4 + 2 + 1 :=
  have returned : chunkProse Runtime.charwise ⟨4, ⟨"0.5"⟩⟩ "# a\n# b\n# cd" none "p" =
      .returned [⟨0, "# a", none, "p"⟩, ⟨1, "a\n # b", none, "p"⟩, ⟨2, "b\n # cd", none, "p"⟩] :=
    rfl
  ⟨returned, (chunkProse_sizes counts_charwise rfl (by decide) (by decide) (by decide)
    returned).1.2⟩

/-! ### Termination -/

/-- Where the window after the one at `start` starts, `none` when the loop ends. -/
def nextStart (length targetTokens overlapTokens start : Int) : Option Int :=
  if start < length then
    let stop := min (start + targetTokens) length
    if length ≤ stop then none
    else some (if 0 < overlapTokens then stop - overlapTokens else stop)
  else none

/-- The starts the loop of `_split_large_section` comes to. -/
inductive ComesTo (length targetTokens overlapTokens : Int) : Int → Prop where
  | first : ComesTo length targetTokens overlapTokens 0
  | next {start next : Int} (here : ComesTo length targetTokens overlapTokens start)
      (moves : nextStart length targetTokens overlapTokens start = some next) :
      ComesTo length targetTokens overlapTokens next

/-- The loop over a text's tokens moves its window on in every turn that does not end it. -/
def MovesOn (runtime : Runtime) (targetTokens overlapTokens : Int) (text : String) : Prop :=
  ∀ start next, ComesTo (tokensOf runtime text).length targetTokens overlapTokens start →
    nextStart (tokensOf runtime text).length targetTokens overlapTokens start = some next →
      start < next

/-- A turn of the loop ends it, or goes on at the next start. -/
theorem splitLoop_succ {tokens : List Nat} (turns : Nat) {start : Int}
    (inside : start < tokens.length) :
    splitLoop runtime tokens targetTokens overlapTokens (turns + 1) start =
      match nextStart tokens.length targetTokens overlapTokens start with
      | none => .returned [runtime.decode
          (slice tokens start (min (start + targetTokens) tokens.length))]
      | some next => do
        let rest ← splitLoop runtime tokens targetTokens overlapTokens turns next
        return runtime.decode (slice tokens start (min (start + targetTokens) tokens.length)) ::
          rest := by
  rw [splitLoop, if_pos inside, nextStart, if_pos inside]
  dsimp only
  split <;> rfl

/-- A window that starts no further on than the last one never reaches the end. -/
theorem splitLoop_hung {tokens : List Nat} (large : targetTokens < tokens.length)
    (positive : 1 ≤ targetTokens) (overlaps : targetTokens ≤ overlapTokens) (turns : Nat)
    {start : Int} (before : start ≤ 0) :
    splitLoop runtime tokens targetTokens overlapTokens turns start = .hung := by
  induction turns generalizing start with
  | zero => rfl
  | succ turns inductionHypothesis =>
    have stops : min (start + targetTokens) tokens.length = start + targetTokens := by omega
    have next : nextStart tokens.length targetTokens overlapTokens start =
        some (start + targetTokens - overlapTokens) := by
      rw [nextStart, if_pos (by omega), stops]
      dsimp only
      rw [if_neg (by omega), if_pos (by omega)]
    rw [splitLoop_succ turns (by omega), next]
    dsimp only
    rw [inductionHypothesis (by omega), Outcome.hung_bind]

/-- A window moves on exactly when it shares less than its size with the next. -/
theorem movesOn_iff {text : String} (positive : 1 ≤ targetTokens)
    (large : IsLarge runtime targetTokens text) :
    MovesOn runtime targetTokens overlapTokens text ↔ overlapTokens < targetTokens := by
  rw [IsLarge] at large
  constructor
  · intro moves
    have stops : min (0 + targetTokens) (tokensOf runtime text).length = targetTokens := by omega
    have next : nextStart (tokensOf runtime text).length targetTokens overlapTokens 0 =
        some (if 0 < overlapTokens then targetTokens - overlapTokens else targetTokens) := by
      rw [nextStart, if_pos (by omega), stops]
      dsimp only
      rw [if_neg (by omega)]
    have further := moves 0 _ .first next
    split at further <;> omega
  · intro less start next _ moves
    unfold nextStart at moves
    split at moves
    · dsimp only at moves
      split at moves
      · cases moves
      · have same := Option.some.inj moves
        split at same <;> omega
    · cases moves

/-- The chunker comes to the section: no section up to it holds a special token. -/
def Reached (specials : List String) (sections : List String) (text : String) : Prop :=
  ∃ before after, sections = before ++ text :: after ∧
    ∀ other ∈ before ++ [text], ¬HoldsSpecial specials other

section

variable {tokenBytes : Nat → List UInt8} {specials : List String}

theorem reached_cons {first text : String} {rest : List String} :
    Reached specials (first :: rest) text ↔
      ¬HoldsSpecial specials first ∧ (text = first ∨ Reached specials rest text) := by
  constructor
  · rintro ⟨before, after, whole, free⟩
    cases before with
    | nil =>
      obtain ⟨rfl, rfl⟩ := List.cons.inj whole
      exact ⟨free first (by simp), Or.inl rfl⟩
    | cons head before =>
      obtain ⟨rfl, rfl⟩ := List.cons.inj whole
      refine ⟨free first (by simp), Or.inr ⟨before, after, rfl, fun other member => ?_⟩⟩
      exact free other (List.mem_cons_of_mem _ member)
  · rintro ⟨free, rfl | ⟨before, after, rfl, rest⟩⟩
    · refine ⟨[], rest, rfl, ?_⟩
      simpa using free
    · exact ⟨first :: before, after, rfl, List.forall_mem_cons.mpr ⟨free, rest⟩⟩

/-- The loop over the sections hangs when it comes to one its windows never get through. -/
theorem chunkSections_hung (tokenizes : Tokenizes tokenBytes specials runtime)
    (positive : 1 ≤ targetTokens) (overlaps : targetTokens ≤ overlapTokens)
    {sections : List String} (ends : ∀ text ∈ sections.dropLast, Closed text)
    {currentChunkText : String} (closed : Closed currentChunkText)
    (plain : ¬HoldsSpecial specials currentChunkText)
    (stuck : ∃ text, Reached specials sections text ∧ IsLarge runtime targetTokens text)
    (chunks : List Chunk) :
    chunkSections runtime targetTokens overlapTokens sourceRef project chunks currentChunkText
      sections = .hung := by
  induction sections generalizing chunks currentChunkText with
  | nil =>
    obtain ⟨text, ⟨before, after, none, _⟩, _⟩ := stuck
    simp at none
  | cons first rest inductionHypothesis =>
    obtain ⟨text, reached, large⟩ := stuck
    obtain ⟨free, here⟩ := reached_cons.mp reached
    rw [chunkSections_cons tokenizes closed plain free]
    by_cases firstLarge : IsLarge runtime targetTokens first
    · obtain ⟨tokens, encoded⟩ := (tokenizes.accepts first).mpr free
      rw [IsLarge, tokensOf_eq encoded] at firstLarge
      have hangs : splitLargeSection runtime first targetTokens overlapTokens = .hung := by
        rw [splitLargeSection, encodeText_eq_returned.mpr encoded, Outcome.returned_bind,
          if_neg (by omega), splitLoop_hung firstLarge positive overlaps _ (Int.le_refl 0)]
      rw [if_pos (by rwa [IsLarge, tokensOf_eq encoded]), hangs, Outcome.hung_bind]
    · have later : Reached specials rest text := by
        rcases here with rfl | later
        · exact absurd large firstLarge
        · exact later
      have some_section : rest ≠ [] := by
        obtain ⟨before, after, rfl, _⟩ := later
        simp
      have firstCloses := (closes_of_cons ends).1 some_section
      obtain ⟨carriedCloses, carriedPlain⟩ :=
        carried_free tokenizes overlapTokens closed plain
      rw [if_neg firstLarge]
      split
      · exact inductionHypothesis (closes_of_cons ends).2 (closed_append carriedCloses firstCloses)
          (not_holdsSpecial_append tokenizes carriedCloses carriedPlain free) ⟨text, later, large⟩ _
      · exact inductionHypothesis (closes_of_cons ends).2 (closed_append closed firstCloses)
          (not_holdsSpecial_append tokenizes closed plain free) ⟨text, later, large⟩ _

theorem tokenCount_ne_hung (text : String) : tokenCount runtime text ≠ .hung :=
  Outcome.bind_ne_hung (Outcome.ofExcept_ne_hung _) fun _ _ => nofun

theorem exceedsTarget_ne_hung (currentChunkText text : String) :
    exceedsTarget runtime targetTokens currentChunkText text ≠ .hung := by
  unfold exceedsTarget
  split
  · nofun
  · exact Outcome.bind_ne_hung (tokenCount_ne_hung _) fun _ _ => nofun

theorem overlapText_ne_hung (currentChunkText : String) :
    overlapText runtime overlapTokens currentChunkText ≠ .hung := by
  unfold overlapText extractTailTokens
  split
  · refine Outcome.bind_ne_hung (Outcome.ofExcept_ne_hung _) fun tokens _ => ?_
    split <;> nofun
  · nofun

/-- The loop over the sections ends when its windows move on, or when it comes to no section larger
than the target. -/
theorem chunkSections_ne_hung (tokenizes : Tokenizes tokenBytes specials runtime)
    (positive : 1 ≤ targetTokens) {sections : List String}
    (ends : overlapTokens < targetTokens ∨
      ∀ text, Reached specials sections text → ¬IsLarge runtime targetTokens text)
    (currentChunkText : String) (chunks : List Chunk) :
    chunkSections runtime targetTokens overlapTokens sourceRef project chunks currentChunkText
      sections ≠ .hung := by
  induction sections generalizing chunks currentChunkText with
  | nil => nofun
  | cons first rest inductionHypothesis =>
    rw [chunkSections]
    refine Outcome.bind_ne_hung (tokenCount_ne_hung _) fun count counted => ?_
    obtain ⟨tokens, encoded, rfl⟩ := tokenCount_eq_returned.mp counted
    have free := (tokenizes.accepts first).mp ⟨tokens, encoded⟩
    have goesOn := inductionHypothesis (ends.imp_right fun small text reached =>
      small text (reached_cons.mpr ⟨free, Or.inr reached⟩))
    split
    · rename_i exceeds
      have large : IsLarge runtime targetTokens first := by
        rwa [IsLarge, tokensOf_eq encoded]
      have less := ends.resolve_right fun small =>
        small first (reached_cons.mpr ⟨free, Or.inl rfl⟩) large
      rw [splitLargeSection_eq encoded positive less large]
      exact goesOn _ _
    · refine Outcome.bind_ne_hung (exceedsTarget_ne_hung _ _) fun exceeds _ => ?_
      split
      · exact Outcome.bind_ne_hung (overlapText_ne_hung _) fun overlap _ => goesOn _ _
      · exact goesOn _ _

variable {settings : ChunkSettings} {body : String}

/-- The chunker splits the section: it comes to it and finds it larger than the target. -/
def Splits (runtime : Runtime) (specials : List String) (targetTokens : Int) (body text : String) :
    Prop :=
  Text.blank body = false ∧ Reached specials (splitIntoSections body) text ∧
    IsLarge runtime targetTokens text

/-- The chunker ends, and its window moves on in every turn, exactly when the overlap is less than
the target or the chunker comes to no section larger than the target. -/
theorem chunkProse_ends_iff (tokenizes : Tokenizes tokenBytes specials runtime)
    (positive : 1 ≤ settings.chunkTargetTokens)
    (product : runtime.truncatedProduct settings.chunkTargetTokens
      settings.chunkOverlapRatio = .ok overlapTokens) :
    (chunkProse runtime settings body sourceRef project ≠ .hung ↔
      overlapTokens < settings.chunkTargetTokens ∨
        ∀ text, ¬Splits runtime specials settings.chunkTargetTokens body text) ∧
    ((∀ text, Splits runtime specials settings.chunkTargetTokens body text →
        MovesOn runtime settings.chunkTargetTokens overlapTokens text) ↔
      overlapTokens < settings.chunkTargetTokens ∨
        ∀ text, ¬Splits runtime specials settings.chunkTargetTokens body text) := by
  refine ⟨⟨fun ends => ?_, fun ends => ?_⟩, ⟨fun moves => ?_, fun ends text splits => ?_⟩⟩
  · by_contra stuck
    rw [not_or, not_forall] at stuck
    obtain ⟨overlaps, text, splits⟩ := stuck
    obtain ⟨solid, reached, large⟩ := not_not.mp splits
    refine ends ?_
    rw [chunkProse, solid, product]
    exact chunkSections_hung tokenizes positive (Int.not_lt.mp overlaps) (closes_of_mem_dropLast body)
      closed_empty (not_holdsSpecial_empty tokenizes) ⟨text, reached, large⟩ []
  · rw [chunkProse]
    split
    · intro hung
      cases hung
    · rename_i solid
      rw [Bool.not_eq_true] at solid
      rw [product]
      refine chunkSections_ne_hung tokenizes positive ?_ _ _
      exact ends.imp_right fun none text reached large => none text ⟨solid, reached, large⟩
  · by_cases splits : ∃ text, Splits runtime specials settings.chunkTargetTokens body text
    · obtain ⟨text, splits⟩ := splits
      exact Or.inl ((movesOn_iff positive splits.2.2).mp (moves text splits))
    · exact Or.inr (not_exists.mp splits)
  · refine (movesOn_iff positive splits.2.2).mpr (ends.resolve_right fun none => ?_)
    exact none text splits

/-- A body of four bytes in windows of two that share one. -/
theorem chunkProse_ends_iff_half :
    (1 : Int) ≤ 2 ∧ simpleProduct 2 ⟨"0.5"⟩ = .ok 1 ∧
    ((chunkProse (Runtime.bytewise [] simpleProduct) ⟨2, ⟨"0.5"⟩⟩ "abcd" none "p" ≠ .hung ↔
        (1 : Int) < 2 ∨ ∀ text, ¬Splits (Runtime.bytewise [] simpleProduct) [] 2 "abcd" text) ∧
      ((∀ text, Splits (Runtime.bytewise [] simpleProduct) [] 2 "abcd" text →
          MovesOn (Runtime.bytewise [] simpleProduct) 2 1 text) ↔
        (1 : Int) < 2 ∨ ∀ text, ¬Splits (Runtime.bytewise [] simpleProduct) [] 2 "abcd" text)) :=
  ⟨by decide, rfl, @chunkProse_ends_iff (Runtime.bytewise [] simpleProduct) 1 none "p"
    (fun token => [UInt8.ofNat token]) [] ⟨2, ⟨"0.5"⟩⟩ "abcd"
    (tokenizes_bytewise (by simp) simpleProduct) (by decide) rfl⟩

/-- A ratio of one shares the whole window with the next, which then starts where it started. -/
theorem chunkProse_hangs :
    simpleProduct 2 ⟨"1.0"⟩ = .ok 2 ∧
    chunkProse (Runtime.bytewise [] simpleProduct) ⟨2, ⟨"1.0"⟩⟩ "abc" none "p" = .hung ∧
    nextStart 3 2 2 0 = some 0 :=
  ⟨rfl, rfl, by decide⟩

end

end FleetMemory
