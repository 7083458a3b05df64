/-
This file gives the chunker without its bookkeeping: the texts it appends, as they are
before white space is stripped from their ends, as a function of the sections. It proves
that the chunker returns exactly these, stripped and numbered, and that a body free of the
tokenizer's special tokens is chunked, while any other makes it raise.
-/

import FleetMemory.Sections
import FleetMemory.Utf8
import FleetMemory.Windows
import Mathlib.Data.List.Infix

namespace FleetMemory

open StoreProgram

/-! ### The tokenizer -/

/-- The literal text of a special token stands in a text. -/
def HoldsSpecial (specials : List String) (text : String) : Prop :=
  ∃ special ∈ specials, special.toList <:+: text.toList

instance (specials : List String) (text : String) : Decidable (HoldsSpecial specials text) := by
  unfold HoldsSpecial
  infer_instance

/-- What the code relies on of `tiktoken`: a token is a byte string, the tokens of a text are its
UTF-8 cut in pieces, tokens are decoded with replacement, and a text is refused exactly when the
literal text of a special token stands in it. -/
structure Tokenizes (tokenBytes : Nat → List UInt8) (specials : List String) (runtime : Runtime) :
    Prop where
  nonempty (token : Nat) : tokenBytes token ≠ []
  encodes {text : String} {tokens : List Nat} (encoded : runtime.encode text = .ok tokens) :
    tokens.flatMap tokenBytes = Utf8.bytes text.toList
  decodes (tokens : List Nat) :
    runtime.decode tokens = String.ofList (Utf8.decode (tokens.flatMap tokenBytes))
  refuses (text : String) :
    (∃ message, runtime.encode text = .error (.valueError message)) ↔ HoldsSpecial specials text
  accepts (text : String) :
    (∃ tokens, runtime.encode text = .ok tokens) ↔ ¬HoldsSpecial specials text
  /-- A special token is spelled with printing characters. -/
  printing {special : String} (member : special ∈ specials) :
    special ≠ "" ∧ ∀ character ∈ special.toList,
      Text.isSpace character = false ∧ character ≠ Utf8.replacement

/-- The functions with a tokenizer whose tokens are single bytes, and a given product. -/
def Runtime.bytewise (specials : List String) (product : Int → PyFloat → Except PyError Int) :
    Runtime where
  __ := Runtime.ofTables [] [] []
  encode text :=
    if HoldsSpecial specials text then
      .error (.valueError "Encountered text corresponding to disallowed special token.")
    else .ok ((Utf8.bytes text.toList).map UInt8.toNat)
  decode tokens := String.ofList (Utf8.decode (tokens.map UInt8.ofNat))
  truncatedProduct := product

/-- `int(number * ratio)` for the ratios 0.0, 0.5 and 1.0. -/
def simpleProduct (number : Int) (ratio : PyFloat) : Except PyError Int :=
  if ratio = ⟨"1.0"⟩ then .ok number
  else if ratio = ⟨"0.5"⟩ then .ok (number / 2)
  else .ok 0

/-- Single bytes are tokens. -/
theorem tokenizes_bytewise {specials : List String}
    (printing : ∀ special ∈ specials, special ≠ "" ∧ ∀ character ∈ special.toList,
      Text.isSpace character = false ∧ character ≠ Utf8.replacement)
    (product : Int → PyFloat → Except PyError Int) :
    Tokenizes (fun token => [UInt8.ofNat token]) specials (Runtime.bytewise specials product) where
  nonempty _ := List.cons_ne_nil _ _
  encodes := by
    intro text tokens encoded
    have whole (encoded : List UInt8) :
        (encoded.map UInt8.toNat).flatMap (fun token => [UInt8.ofNat token]) = encoded := by
      rw [List.flatMap_map]
      simp
    simp only [Runtime.bytewise] at encoded
    split at encoded
    · cases encoded
    · rw [← Except.ok.inj encoded, whole]
  decodes tokens := by
    have each : tokens.flatMap (fun token => [UInt8.ofNat token]) = tokens.map UInt8.ofNat := by
      rw [← List.flatMap_singleton' (tokens.map UInt8.ofNat), List.flatMap_map]
    rw [each]
    rfl
  refuses text := by
    by_cases holds : HoldsSpecial specials text <;> simp [Runtime.bytewise, holds]
  accepts text := by
    by_cases holds : HoldsSpecial specials text <;> simp [Runtime.bytewise, holds]
  printing member := printing _ member

theorem printing_endoftext : ∀ special ∈ ["<|endoftext|>"], special ≠ "" ∧
    ∀ character ∈ special.toList, Text.isSpace character = false ∧ character ≠ Utf8.replacement := by
  intro special member
  have prints : ("<|endoftext|>".toList.all fun character =>
      !Text.isSpace character && character != Utf8.replacement) = true := by decide
  rw [List.mem_singleton.mp member]
  refine ⟨by decide, fun character inside => ?_⟩
  simpa using List.all_eq_true.mp prints character inside

theorem not_holdsSpecial_of_short {text : String} (short : text.toList.length < 13) :
    ¬HoldsSpecial ["<|endoftext|>"] text := by
  rintro ⟨special, member, inside⟩
  rw [List.mem_singleton.mp member] at inside
  exact absurd inside.length_le (Nat.not_le.mpr short)

/-! ### The texts of the chunks -/

section

variable (runtime : Runtime) (targetTokens overlapTokens : Int)

/-- The tokens of a text the tokenizer accepts. -/
def tokensOf (text : String) : List Nat :=
  match runtime.encode text with
  | .ok tokens => tokens
  | .error _ => []

/-- The windows over the tokens of a large section. -/
def spansOf (text : String) : List (Nat × Nat) :=
  Windows.spans (tokensOf runtime text).length targetTokens.toNat
    (targetTokens.toNat - overlapTokens.toNat) ((tokensOf runtime text).length + 1) 0

/-- The text of the tokens between two bounds. -/
def windowText (text : String) (span : Nat × Nat) : String :=
  runtime.decode (((tokensOf runtime text).take span.2).drop span.1)

/-- The pieces of a large section. -/
def pieces (text : String) : List String :=
  (spansOf runtime targetTokens overlapTokens text).map (windowText runtime text)

/-- The text the next chunk starts with. -/
def carried (currentChunkText : String) : String :=
  if 0 < overlapTokens then
    if (tokensOf runtime currentChunkText).length ≤ overlapTokens then currentChunkText
    else runtime.decode ((tokensOf runtime currentChunkText).drop
      ((tokensOf runtime currentChunkText).length - overlapTokens.toNat)) ++ " "
  else ""

/-- The section is split on its tokens. -/
def IsLarge (text : String) : Prop :=
  targetTokens < (tokensOf runtime text).length

/-- The section no longer fits behind the accumulated text. -/
def Overflows (currentChunkText text : String) : Prop :=
  currentChunkText ≠ "" ∧ IsLarge runtime targetTokens (currentChunkText ++ text)

instance (text : String) : Decidable (IsLarge runtime targetTokens text) :=
  inferInstanceAs (Decidable (targetTokens < _))

instance (currentChunkText text : String) :
    Decidable (Overflows runtime targetTokens currentChunkText text) :=
  inferInstanceAs (Decidable (_ ∧ _))

/-- The accumulated text, unless it is blank. -/
def unlessBlank (currentChunkText : String) : List String :=
  if Text.blank currentChunkText then [] else [currentChunkText]

/-- The texts that become chunks, from an accumulated text and the sections to come. -/
def chunkTexts (currentChunkText : String) : List String → List String
  | [] => unlessBlank currentChunkText
  | text :: rest =>
    if IsLarge runtime targetTokens text then
      unlessBlank currentChunkText ++ pieces runtime targetTokens overlapTokens text ++
        chunkTexts (if Text.blank currentChunkText then currentChunkText else "") rest
    else if Overflows runtime targetTokens currentChunkText text then
      currentChunkText :: chunkTexts (carried runtime overlapTokens currentChunkText ++ text) rest
    else chunkTexts (currentChunkText ++ text) rest

end

/-! ### What the chunker returns -/

variable {runtime : Runtime} {targetTokens overlapTokens : Int} {sourceRef : Option String}
  {project : String}

theorem tokensOf_eq {text : String} {tokens : List Nat} (encoded : runtime.encode text = .ok tokens) :
    tokensOf runtime text = tokens := by
  rw [tokensOf, encoded]

theorem encodeText_eq_returned {text : String} {tokens : List Nat} :
    encodeText runtime text = .returned tokens ↔ runtime.encode text = .ok tokens := by
  unfold encodeText
  cases runtime.encode text with
  | ok value => simp [Outcome.ofExcept]
  | error error => simp [Outcome.ofExcept]

theorem tokenCount_eq_returned {text : String} {count : Int} :
    tokenCount runtime text = .returned count ↔
      ∃ tokens, runtime.encode text = .ok tokens ∧ (tokens.length : Int) = count := by
  rw [tokenCount, Outcome.bind_eq_returned]
  simp only [encodeText_eq_returned, Outcome.pure_eq, Outcome.returned.injEq]

theorem slice_eq {tokens : List Nat} {start stop : Nat} (below : stop ≤ tokens.length)
    (ordered : start ≤ stop) : slice tokens start stop = (tokens.take stop).drop start := by
  have stops : sliceBound tokens.length stop = stop := by
    rw [sliceBound, if_neg (by omega)]
    omega
  have starts : sliceBound tokens.length start = start := by
    rw [sliceBound, if_neg (by omega)]
    omega
  rw [slice, stops, starts]

/-- The split of a large section returns the texts of its windows. -/
theorem splitLoop_eq {tokens : List Nat} (positive : 1 ≤ targetTokens)
    (less : overlapTokens < targetTokens) {turns start : Nat} (inside : start < tokens.length)
    (enough : tokens.length < start + turns) :
    splitLoop runtime tokens targetTokens overlapTokens turns start =
      .returned ((Windows.spans tokens.length targetTokens.toNat
        (targetTokens.toNat - overlapTokens.toNat) turns start).map fun span =>
          runtime.decode ((tokens.take span.2).drop span.1)) := by
  induction turns generalizing start with
  | zero => omega
  | succ turns inductionHypothesis =>
    rw [splitLoop, if_pos (by omega), Windows.spans]
    rcases Nat.lt_or_ge (start + targetTokens.toNat) tokens.length with more | last
    · have stops : min ((start : Int) + targetTokens) tokens.length =
          ((start + targetTokens.toNat : Nat) : Int) := by omega
      have moves : (if 0 < overlapTokens then
          ((start + targetTokens.toNat : Nat) : Int) - overlapTokens
            else ((start + targetTokens.toNat : Nat) : Int)) =
          ((start + (targetTokens.toNat - overlapTokens.toNat) : Nat) : Int) := by
        split <;> omega
      have unfinished : ¬(tokens.length : Int) ≤ ((start + targetTokens.toNat : Nat) : Int) := by
        omega
      rw [if_neg (Nat.not_le.mpr more), stops, if_neg unfinished, moves, inductionHypothesis (by omega) (by omega),
        slice_eq more.le (by omega)]
      rfl
    · have stops : min ((start : Int) + targetTokens) tokens.length = tokens.length := by omega
      rw [if_pos last, stops, if_pos (Int.le_refl _), slice_eq le_rfl inside.le]
      rfl

theorem splitLargeSection_eq {text : String} {tokens : List Nat}
    (encoded : runtime.encode text = .ok tokens) (positive : 1 ≤ targetTokens)
    (less : overlapTokens < targetTokens) (large : IsLarge runtime targetTokens text) :
    splitLargeSection runtime text targetTokens overlapTokens =
      .returned (pieces runtime targetTokens overlapTokens text) := by
  have same := tokensOf_eq encoded
  rw [IsLarge, same] at large
  have starts := @splitLoop_eq runtime targetTokens overlapTokens tokens positive less
    (tokens.length + 1) 0 (by omega) (by omega)
  rw [splitLargeSection, encodeText_eq_returned.mpr encoded, Outcome.returned_bind,
    if_neg (by omega), pieces, spansOf, same]
  unfold windowText
  rw [same]
  exact starts

theorem overlapText_eq_returned {currentChunkText overlap : String}
    (returned : overlapText runtime overlapTokens currentChunkText = .returned overlap) :
    overlap = carried runtime overlapTokens currentChunkText := by
  unfold overlapText at returned
  rw [carried]
  split at returned
  · rename_i overlaps
    rw [if_pos overlaps]
    rw [extractTailTokens, Outcome.bind_eq_returned] at returned
    obtain ⟨tokens, encoded, returned⟩ := returned
    rw [tokensOf_eq (encodeText_eq_returned.mp encoded)]
    split at returned
    · rename_i short
      rw [if_pos short]
      exact (Outcome.returned.inj returned).symm
    · rename_i long
      have starts : sliceBound tokens.length (-overlapTokens) =
          tokens.length - overlapTokens.toNat := by
        rw [sliceBound, if_pos (by omega)]
        omega
      have stops : sliceBound tokens.length tokens.length = tokens.length := by
        rw [sliceBound, if_neg (by omega)]
        omega
      rw [if_neg long, ← Outcome.returned.inj returned, slice, starts, stops, List.take_length]
  · rename_i none
    rw [if_neg none]
    exact (Outcome.returned.inj returned).symm

theorem exceedsTarget_eq_returned {currentChunkText text : String} {exceeds : Bool}
    (returned : exceedsTarget runtime targetTokens currentChunkText text = .returned exceeds) :
    exceeds = true ↔ Overflows runtime targetTokens currentChunkText text := by
  unfold exceedsTarget at returned
  rw [Overflows]
  split at returned
  · rename_i empty
    rw [← Outcome.returned.inj returned]
    simp [empty]
  · rename_i some_text
    obtain ⟨count, counted, returned⟩ := Outcome.bind_eq_returned.mp returned
    obtain ⟨tokens, encoded, rfl⟩ := tokenCount_eq_returned.mp counted
    rw [← Outcome.returned.inj returned, IsLarge, tokensOf_eq encoded]
    simp [some_text]

variable (sourceRef project) in
/-- Append texts as chunks. -/
def appendTexts (chunks : List Chunk) (texts : List String) : List Chunk :=
  texts.foldl (appendChunk sourceRef project) chunks

theorem finalizeChunk_eq (chunks : List Chunk) (currentChunkText : String) :
    finalizeChunk sourceRef project chunks currentChunkText =
      appendTexts sourceRef project chunks (unlessBlank currentChunkText) := by
  unfold finalizeChunk unlessBlank
  split <;> rfl

/-- What the loop over the sections returns is the texts of the chunks, appended. -/
theorem chunkSections_eq_returned {chunks result : List Chunk} {currentChunkText : String}
    {sections : List String} (positive : 1 ≤ targetTokens) (less : overlapTokens < targetTokens)
    (returned : chunkSections runtime targetTokens overlapTokens sourceRef project chunks
      currentChunkText sections = .returned result) :
    result = appendTexts sourceRef project chunks
      (chunkTexts runtime targetTokens overlapTokens currentChunkText sections) := by
  induction sections generalizing chunks currentChunkText with
  | nil =>
    rw [← Outcome.returned.inj returned, chunkTexts, finalizeChunk_eq]
  | cons text rest inductionHypothesis =>
    obtain ⟨count, counted, passes⟩ := chunkSections_cons_eq_returned returned
    obtain ⟨tokens, encoded, rfl⟩ := tokenCount_eq_returned.mp counted
    have large : IsLarge runtime targetTokens text ↔ targetTokens < tokens.length := by
      rw [IsLarge, tokensOf_eq encoded]
    rw [chunkTexts]
    obtain ⟨exceeds, parts, split, later⟩ | ⟨fits, decided, overlap, carries, later⟩ |
      ⟨fits, decided, later⟩ := passes
    · rw [splitLargeSection_eq encoded positive less (large.mpr exceeds)] at split
      obtain rfl := Outcome.returned.inj split
      rw [if_pos (large.mpr exceeds), inductionHypothesis later, finalizeChunk_eq, appendTexts,
        appendTexts, appendTexts, List.foldl_append, List.foldl_append]
    · have overflows := exceedsTarget_eq_returned decided
      rw [if_neg fun isLarge => fits (large.mp isLarge), if_pos (overflows.mp rfl),
        inductionHypothesis later, overlapText_eq_returned carries]
      rfl
    · have overflows := exceedsTarget_eq_returned decided
      rw [if_neg fun isLarge => fits (large.mp isLarge),
        if_neg fun full => Bool.false_ne_true (overflows.mpr full), inductionHypothesis later]

theorem text_of_appendTexts (chunks : List Chunk) (texts : List String) :
    (appendTexts sourceRef project chunks texts).map Chunk.text =
      chunks.map Chunk.text ++ texts.map Text.strip := by
  induction texts generalizing chunks with
  | nil => simp [appendTexts]
  | cons text rest inductionHypothesis =>
    have following := inductionHypothesis (appendChunk sourceRef project chunks text)
    rw [appendTexts, List.foldl_cons]
    rw [appendTexts] at following
    rw [following, appendChunk]
    simp

variable {settings : ChunkSettings} {body : String} {chunks : List Chunk}

variable (runtime targetTokens overlapTokens body) in
/-- The texts the chunker appends for a body, before white space is stripped from their ends. -/
def textsOf : List String :=
  if Text.blank body then []
  else chunkTexts runtime targetTokens overlapTokens "" (splitIntoSections body)

/-- The chunks of a body are its texts, stripped. -/
theorem text_of_chunkProse (product : runtime.truncatedProduct settings.chunkTargetTokens
      settings.chunkOverlapRatio = .ok overlapTokens)
    (positive : 1 ≤ settings.chunkTargetTokens) (less : overlapTokens < settings.chunkTargetTokens)
    (returned : chunkProse runtime settings body sourceRef project = .returned chunks) :
    chunks.map Chunk.text =
      (textsOf runtime settings.chunkTargetTokens overlapTokens body).map Text.strip := by
  rw [chunkProse] at returned
  rw [textsOf]
  split at returned
  · rename_i blank
    rw [← Outcome.returned.inj returned, if_pos blank]
    rfl
  · rename_i solid
    rw [product] at returned
    rw [if_neg solid, chunkSections_eq_returned positive less returned, text_of_appendTexts]
    rfl

/-! ### Special tokens -/

section

variable {tokenBytes : Nat → List UInt8} {specials : List String}

/-- A text that may be continued without starting a special token anew: it is empty or ends in
white space. -/
def Closed (text : String) : Prop :=
  ∀ character ∈ text.toList.getLast?, Text.isSpace character = true

theorem holdsSpecial_append (tokenizes : Tokenizes tokenBytes specials runtime)
    {first second : String} (closed : Closed first) :
    HoldsSpecial specials (first ++ second) ↔
      HoldsSpecial specials first ∨ HoldsSpecial specials second := by
  constructor
  · rintro ⟨special, member, inside⟩
    rw [String.toList_append] at inside
    have barrier : ∀ character ∈ first.toList.getLast?, character ∉ special.toList := by
      intro character ends within
      have solid := ((tokenizes.printing member).2 character within).1
      rw [closed character ends] at solid
      cases solid
    rcases Text.infix_append_of_barrier barrier inside with left | right
    · exact Or.inl ⟨special, member, left⟩
    · exact Or.inr ⟨special, member, right⟩
  · unfold HoldsSpecial
    rw [String.toList_append]
    rintro (⟨special, member, inside⟩ | ⟨special, member, inside⟩)
    · exact ⟨special, member, List.infix_append_of_infix_left inside⟩
    · exact ⟨special, member, List.infix_append_of_infix_right inside⟩

theorem flatMap_cut (tokens : List Nat) (count : Nat) :
    (tokens.take count).flatMap tokenBytes ++ (tokens.drop count).flatMap tokenBytes =
      tokens.flatMap tokenBytes := by
  rw [← List.flatMap_append, List.take_append_drop]

theorem flatMap_drop (tokens : List Nat) (count : Nat) :
    (tokens.drop count).flatMap tokenBytes =
      (tokens.flatMap tokenBytes).drop ((tokens.take count).flatMap tokenBytes).length := by
  rw [← flatMap_cut tokens count, List.drop_left]

/-- The last tokens of a text are decoded to a rest of it, behind replacements of a cut
character. -/
theorem decode_drop (tokenizes : Tokenizes tokenBytes specials runtime) {text : String}
    {tokens : List Nat} (encoded : runtime.encode text = .ok tokens) (count : Nat) :
    ∃ cut rest, runtime.decode (tokens.drop count) =
        String.ofList (List.replicate cut Utf8.replacement ++ rest) ∧ rest <:+ text.toList := by
  obtain ⟨cut, rest, same, suffix, continues⟩ :=
    Utf8.drop_bytes text.toList ((tokens.take count).flatMap tokenBytes).length
  refine ⟨cut.length, rest, ?_, suffix⟩
  rw [tokenizes.decodes, flatMap_drop, tokenizes.encodes encoded, same,
    Utf8.decode_continuations continues, Utf8.decode_bytes]

/-- Replacements before a rest of a text spell no special token. -/
theorem not_holdsSpecial_of_suffix (tokenizes : Tokenizes tokenBytes specials runtime)
    {text : String} {rest : List Char} (suffix : rest <:+ text.toList)
    (free : ¬HoldsSpecial specials text) (cut : Nat) :
    ¬HoldsSpecial specials (String.ofList (List.replicate cut Utf8.replacement ++ rest)) := by
  rintro ⟨special, member, inside⟩
  obtain ⟨nonempty, printing⟩ := tokenizes.printing member
  rw [String.toList_ofList] at inside
  have barrier : ∀ character ∈ (List.replicate cut Utf8.replacement).getLast?,
      character ∉ special.toList := by
    intro character ends within
    exact (printing character within).2 (List.eq_of_mem_replicate (List.mem_of_getLast? ends))
  rcases Text.infix_append_of_barrier barrier inside with left | right
  · obtain ⟨character, within⟩ := List.exists_mem_of_ne_nil special.toList
      (by simpa using nonempty)
    exact (printing character within).2 (List.eq_of_mem_replicate (left.subset within))
  · exact free ⟨special, member, right.trans suffix.isInfix⟩

/-- White space at the end of a text completes no special token. -/
theorem holdsSpecial_of_append_spaces (tokenizes : Tokenizes tokenBytes specials runtime)
    {text spaces : String} (white : ∀ character ∈ spaces.toList, Text.isSpace character = true)
    (holds : HoldsSpecial specials (text ++ spaces)) : HoldsSpecial specials text := by
  obtain ⟨special, member, inside⟩ := holds
  obtain ⟨nonempty, printing⟩ := tokenizes.printing member
  have apart {character : Char} (within : character ∈ special.toList)
      (space : character ∈ spaces.toList) : False := by
    have solid := (printing character within).1
    rw [white character space] at solid
    cases solid
  rw [String.toList_append] at inside
  rcases List.infix_append_iff_ne_nil.mp inside with left | right | crossing
  · exact ⟨special, member, left⟩
  · obtain ⟨character, within⟩ := List.exists_mem_of_ne_nil special.toList
      (by simpa using nonempty)
    exact (apart within (right.subset within)).elim
  · obtain ⟨ending, opening, -, some_opening, parts, -, prefixed⟩ := crossing
    obtain ⟨character, within⟩ := List.exists_mem_of_ne_nil opening some_opening
    have inSpecial : character ∈ special.toList := by
      rw [parts]
      exact List.mem_append_right ending within
    exact (apart inSpecial (prefixed.subset within)).elim

theorem not_holdsSpecial_empty (tokenizes : Tokenizes tokenBytes specials runtime) :
    ¬HoldsSpecial specials "" := by
  rintro ⟨special, member, inside⟩
  exact (tokenizes.printing member).1 (String.toList_inj.mp (List.infix_nil.mp inside))

theorem closed_empty : Closed "" := by
  intro character ends
  cases ends

theorem closed_append {first second : String} (firstCloses : Closed first)
    (secondCloses : Closed second) : Closed (first ++ second) := by
  intro character ends
  rw [String.toList_append] at ends
  by_cases empty : second.toList = []
  · rw [empty, List.append_nil] at ends
    exact firstCloses character ends
  · rw [List.getLast?_append_of_ne_nil _ empty] at ends
    exact secondCloses character ends

/-- What is carried over to the next chunk is free of special tokens as well. -/
theorem carried_free (tokenizes : Tokenizes tokenBytes specials runtime) (overlapTokens : Int)
    {text : String} (closed : Closed text) (free : ¬HoldsSpecial specials text) :
    Closed (carried runtime overlapTokens text) ∧
      ¬HoldsSpecial specials (carried runtime overlapTokens text) := by
  rw [carried]
  split
  · split
    · exact ⟨closed, free⟩
    · obtain ⟨tokens, encoded⟩ := (tokenizes.accepts text).mpr free
      rw [tokensOf_eq encoded]
      obtain ⟨cut, rest, decoded, suffix⟩ := decode_drop tokenizes encoded
        (tokens.length - overlapTokens.toNat)
      rw [decoded]
      refine ⟨?_, ?_⟩
      · intro character ends
        rw [String.toList_append, List.getLast?_append_of_ne_nil _ (by simp)] at ends
        obtain rfl := Option.mem_some_iff.mp ends
        decide
      · exact fun holds => not_holdsSpecial_of_suffix tokenizes suffix free cut
          (holdsSpecial_of_append_spaces tokenizes (List.all_eq_true.mp rfl) holds)
  · exact ⟨closed_empty, not_holdsSpecial_empty tokenizes⟩

theorem overlapText_returns {text : String} {tokens : List Nat}
    (encoded : runtime.encode text = .ok tokens) :
    overlapText runtime overlapTokens text = .returned (carried runtime overlapTokens text) := by
  have returns : ∃ overlap, overlapText runtime overlapTokens text = .returned overlap := by
    unfold overlapText
    split
    · rw [extractTailTokens, encodeText_eq_returned.mpr encoded, Outcome.returned_bind]
      split
      · exact ⟨_, rfl⟩
      · exact ⟨_, rfl⟩
    · exact ⟨_, rfl⟩
  obtain ⟨overlap, returned⟩ := returns
  rw [returned, overlapText_eq_returned returned]

theorem exceedsTarget_returns {currentChunkText text : String} {tokens : List Nat}
    (encoded : runtime.encode (currentChunkText ++ text) = .ok tokens) :
    exceedsTarget runtime targetTokens currentChunkText text =
      .returned (Overflows runtime targetTokens currentChunkText text) := by
  have returns : ∃ exceeds,
      exceedsTarget runtime targetTokens currentChunkText text = .returned exceeds := by
    unfold exceedsTarget
    split
    · exact ⟨_, rfl⟩
    · rw [tokenCount_eq_returned.mpr ⟨tokens, encoded, rfl⟩]
      exact ⟨_, rfl⟩
  obtain ⟨exceeds, returned⟩ := returns
  have overflows := exceedsTarget_eq_returned returned
  rw [returned]
  congr 1
  cases exceeds with
  | true => exact (decide_eq_true (overflows.mp rfl)).symm
  | false =>
    refine (decide_eq_false fun full => ?_).symm
    have holds := overflows.mpr full
    cases holds

/-- What is kept before a large section is free of special tokens as well. -/
theorem kept_free (tokenizes : Tokenizes tokenBytes specials runtime) {text : String}
    (closed : Closed text) (free : ¬HoldsSpecial specials text) :
    Closed (if Text.blank text then text else "") ∧
      ¬HoldsSpecial specials (if Text.blank text then text else "") := by
  split
  · exact ⟨closed, free⟩
  · exact ⟨closed_empty, not_holdsSpecial_empty tokenizes⟩

theorem not_holdsSpecial_append (tokenizes : Tokenizes tokenBytes specials runtime)
    {first second : String} (closed : Closed first) (firstFree : ¬HoldsSpecial specials first)
    (secondFree : ¬HoldsSpecial specials second) : ¬HoldsSpecial specials (first ++ second) :=
  fun holds => ((holdsSpecial_append tokenizes closed).mp holds).elim firstFree secondFree

theorem closes_of_cons {text : String} {rest : List String}
    (ends : ∀ other ∈ (text :: rest).dropLast, Closed other) :
    (rest ≠ [] → Closed text) ∧ ∀ other ∈ rest.dropLast, Closed other := by
  cases rest with
  | nil => simp
  | cons next others =>
    rw [List.dropLast_cons_of_ne_nil (List.cons_ne_nil _ _)] at ends
    obtain ⟨here, later⟩ := List.forall_mem_cons.mp ends
    exact ⟨fun _ => here, later⟩

theorem closes_of_mem_dropLast (body : String) :
    ∀ text ∈ (splitIntoSections body).dropLast, Closed text := by
  rw [splitIntoSections_eq]
  intro text member character last
  rw [ends_of_mem_dropLast member] at last
  obtain rfl := Option.mem_some_iff.mp last
  decide

/-- One turn of the loop over the sections, on texts the tokenizer accepts. -/
theorem chunkSections_cons (tokenizes : Tokenizes tokenBytes specials runtime)
    {currentChunkText text : String} (closed : Closed currentChunkText)
    (plain : ¬HoldsSpecial specials currentChunkText) (free : ¬HoldsSpecial specials text)
    (chunks : List Chunk) (rest : List String) :
    chunkSections runtime targetTokens overlapTokens sourceRef project chunks currentChunkText
        (text :: rest) =
      if IsLarge runtime targetTokens text then do
        let parts ← splitLargeSection runtime text targetTokens overlapTokens
        chunkSections runtime targetTokens overlapTokens sourceRef project
          (parts.foldl (appendChunk sourceRef project)
            (finalizeChunk sourceRef project chunks currentChunkText))
          (if Text.blank currentChunkText then currentChunkText else "") rest
      else if Overflows runtime targetTokens currentChunkText text then
        chunkSections runtime targetTokens overlapTokens sourceRef project
          (appendChunk sourceRef project chunks currentChunkText)
          (carried runtime overlapTokens currentChunkText ++ text) rest
      else
        chunkSections runtime targetTokens overlapTokens sourceRef project chunks
          (currentChunkText ++ text) rest := by
  obtain ⟨tokens, encoded⟩ := (tokenizes.accepts text).mpr free
  obtain ⟨before, encodes⟩ := (tokenizes.accepts currentChunkText).mpr plain
  obtain ⟨joined, joins⟩ := (tokenizes.accepts (currentChunkText ++ text)).mpr
    (not_holdsSpecial_append tokenizes closed plain free)
  have large : IsLarge runtime targetTokens text ↔ targetTokens < tokens.length := by
    rw [IsLarge, tokensOf_eq encoded]
  rw [chunkSections, tokenCount_eq_returned.mpr ⟨tokens, encoded, rfl⟩, Outcome.returned_bind,
    exceedsTarget_returns joins, overlapText_returns encodes]
  simp only [large, Outcome.returned_bind, decide_eq_true_eq]

/-- Sections free of special tokens are chunked. -/
theorem chunkSections_returns (tokenizes : Tokenizes tokenBytes specials runtime)
    (positive : 1 ≤ targetTokens) (less : overlapTokens < targetTokens)
    {sections : List String} (ends : ∀ text ∈ sections.dropLast, Closed text)
    (free : ∀ text ∈ sections, ¬HoldsSpecial specials text)
    {currentChunkText : String} (closed : sections ≠ [] → Closed currentChunkText)
    (plain : ¬HoldsSpecial specials currentChunkText) (chunks : List Chunk) :
    ∃ result, chunkSections runtime targetTokens overlapTokens sourceRef project chunks
      currentChunkText sections = .returned result := by
  induction sections generalizing chunks currentChunkText with
  | nil => exact ⟨_, rfl⟩
  | cons text rest inductionHypothesis =>
    have closedHere := closed (List.cons_ne_nil _ _)
    have textFree := free text List.mem_cons_self
    have restFree : ∀ other ∈ rest, ¬HoldsSpecial specials other :=
      fun other member => free other (List.mem_cons_of_mem _ member)
    have endsLater := (closes_of_cons ends).2
    obtain ⟨carriedCloses, carriedPlain⟩ :=
      carried_free tokenizes overlapTokens closedHere plain
    rw [chunkSections_cons tokenizes closedHere plain textFree]
    split
    · rename_i large
      obtain ⟨tokens, encoded⟩ := (tokenizes.accepts text).mpr textFree
      rw [splitLargeSection_eq encoded positive less large, Outcome.returned_bind]
      obtain ⟨keptCloses, keptPlain⟩ := kept_free tokenizes closedHere plain
      exact inductionHypothesis endsLater restFree (fun _ => keptCloses) keptPlain _
    split
    · exact inductionHypothesis endsLater restFree
        (fun some_section => closed_append carriedCloses ((closes_of_cons ends).1 some_section))
        (not_holdsSpecial_append tokenizes carriedCloses carriedPlain textFree) _
    · exact inductionHypothesis endsLater restFree
        (fun some_section => closed_append closedHere ((closes_of_cons ends).1 some_section))
        (not_holdsSpecial_append tokenizes closedHere plain textFree) _

/-- A section that holds a special token is not chunked. -/
theorem not_holdsSpecial_of_returned (tokenizes : Tokenizes tokenBytes specials runtime)
    {sections : List String} {currentChunkText : String} {chunks result : List Chunk}
    (returned : chunkSections runtime targetTokens overlapTokens sourceRef project chunks
      currentChunkText sections = .returned result) :
    ∀ text ∈ sections, ¬HoldsSpecial specials text := by
  induction sections generalizing chunks currentChunkText with
  | nil => simp
  | cons text rest inductionHypothesis =>
    obtain ⟨count, counted, passes⟩ := chunkSections_cons_eq_returned returned
    obtain ⟨tokens, encoded, rfl⟩ := tokenCount_eq_returned.mp counted
    refine List.forall_mem_cons.mpr ⟨(tokenizes.accepts text).mp ⟨tokens, encoded⟩, ?_⟩
    obtain ⟨_, parts, _, later⟩ | ⟨_, _, overlap, _, later⟩ | ⟨_, _, later⟩ := passes
    · exact inductionHypothesis later
    · exact inductionHypothesis later
    · exact inductionHypothesis later

/-- A special token in a body stands in one of its sections. -/
theorem holdsSpecial_join (tokenizes : Tokenizes tokenBytes specials runtime)
    {sections : List String} (ends : ∀ text ∈ sections.dropLast, Closed text) :
    HoldsSpecial specials (String.join sections) ↔
      ∃ text ∈ sections, HoldsSpecial specials text := by
  induction sections with
  | nil =>
    constructor
    · intro holds
      exact absurd holds (not_holdsSpecial_empty tokenizes)
    · simp
  | cons text rest inductionHypothesis =>
    rw [String.join_cons, List.exists_mem_cons_iff]
    cases rest with
    | nil => simp
    | cons next others =>
      rw [holdsSpecial_append tokenizes (ends text (by simp)), inductionHypothesis]
      intro other member
      exact ends other (List.mem_cons_of_mem _ member)

/-- A body is chunked exactly when no special token stands in it. -/
theorem chunkProse_returns_iff (tokenizes : Tokenizes tokenBytes specials runtime)
    {settings : ChunkSettings} (body : String)
    (product : runtime.truncatedProduct settings.chunkTargetTokens
      settings.chunkOverlapRatio = .ok overlapTokens)
    (positive : 1 ≤ settings.chunkTargetTokens)
    (less : overlapTokens < settings.chunkTargetTokens) :
    (∃ chunks, chunkProse runtime settings body sourceRef project = .returned chunks) ↔
      ¬HoldsSpecial specials body := by
  have ends := closes_of_mem_dropLast body
  have sections : HoldsSpecial specials body ↔
      ∃ text ∈ splitIntoSections body, HoldsSpecial specials text := by
    rw [← holdsSpecial_join tokenizes ends, join_splitIntoSections]
  rw [chunkProse]
  split
  · rename_i blank
    refine iff_of_true ⟨_, rfl⟩ fun holds => not_holdsSpecial_empty tokenizes ?_
    refine holdsSpecial_of_append_spaces tokenizes (Text.isSpace_of_blank blank) ?_
    rwa [String.empty_append]
  · rw [product, sections]
    constructor
    · rintro ⟨chunks, returned⟩ ⟨text, member, holds⟩
      exact not_holdsSpecial_of_returned tokenizes returned text member holds
    · intro free
      exact chunkSections_returns tokenizes positive less ends
        (fun text member holds => free ⟨text, member, holds⟩) (fun _ => closed_empty)
        (not_holdsSpecial_empty tokenizes) []

end

end FleetMemory
