/-
This file models the prose chunker: a body is cut into sections at its headings, the
sections are gathered up to the target size in tokens, and a section that is larger is
split on its token stream. It proves that the chunks are numbered from zero in order and
all carry the episode's project.
-/

import FleetMemory.Errors
import FleetMemory.Program

namespace FleetMemory

open StoreProgram

/-- `Chunk`. -/
structure Chunk where
  index : Nat
  text : String
  sourceRef : Option String
  project : String
deriving DecidableEq, Repr

/-! ### Sections -/

/-- `re.match(r"^#{1,6}\s", line)`. -/
def isHeading (line : String) : Bool :=
  let hashes := line.toList.takeWhile (· == '#')
  1 ≤ hashes.length && hashes.length ≤ 6 &&
    (line.toList.drop hashes.length).head?.any Text.isSpace

/-- The lines grouped into sections, the lines of the current section being given. -/
def gatherSections (current : List String) : List String → List String
  | [] => if current = [] then [] else [Text.join '\n' current]
  | line :: rest =>
    if isHeading line then
      if current = [] then gatherSections [line] rest
      else (Text.join '\n' current ++ "\n") :: gatherSections [line] rest
    else gatherSections (current ++ [line]) rest

/-- `_split_into_sections`. -/
def splitIntoSections (text : String) : List String :=
  match gatherSections [] (Text.split '\n' text) with
  | [] => [text]
  | sections => sections

/-! ### Token streams -/

/-- Where a slice bound falls in a sequence. -/
def sliceBound (length : Nat) (bound : Int) : Nat :=
  if bound < 0 then (bound + length).toNat else min bound.toNat length

/-- `tokens[start:stop]`. -/
def slice (tokens : List Nat) (start stop : Int) : List Nat :=
  (tokens.take (sliceBound tokens.length stop)).drop (sliceBound tokens.length start)

variable (runtime : Runtime)

/-- `_ENCODING.encode(text)`. -/
def encodeText (text : String) : Outcome PyError (List Nat) :=
  .ofExcept (runtime.encode text)

/-- `_token_count`. -/
def tokenCount (text : String) : Outcome PyError Int := do
  return (← encodeText runtime text).length

/-- The loop of `_split_large_section`. Every turn moves the start by the same distance, so a loop
that takes more turns than there are tokens takes them forever. -/
def splitLoop (tokens : List Nat) (targetTokens overlapTokens : Int) :
    Nat → Int → Outcome PyError (List String)
  | 0, _ => .hung
  | turns + 1, start =>
    if start < tokens.length then
      let stop := min (start + targetTokens) tokens.length
      let text := runtime.decode (slice tokens start stop)
      if tokens.length ≤ stop then return [text]
      else do
        let rest ← splitLoop tokens targetTokens overlapTokens turns
          (if 0 < overlapTokens then stop - overlapTokens else stop)
        return text :: rest
    else return []

/-- `_split_large_section`. -/
def splitLargeSection (text : String) (targetTokens overlapTokens : Int) :
    Outcome PyError (List String) := do
  let tokens ← encodeText runtime text
  if tokens.length ≤ targetTokens then return [text]
  else splitLoop runtime tokens targetTokens overlapTokens (tokens.length + 1) 0

/-- `_extract_tail_tokens`. -/
def extractTailTokens (text : String) (numTokens : Int) : Outcome PyError String := do
  let tokens ← encodeText runtime text
  if tokens.length ≤ numTokens then return text
  else return runtime.decode (slice tokens (-numTokens) tokens.length) ++ " "

/-! ### Chunks -/

/-- The settings of the chunker. -/
structure ChunkSettings where
  chunkTargetTokens : Int
  chunkOverlapRatio : PyFloat

section

variable (targetTokens overlapTokens : Int) (sourceRef : Option String) (project : String)

/-- `chunks.append(Chunk(index=len(chunks), text=text.strip(), …))`. -/
def appendChunk (chunks : List Chunk) (text : String) : List Chunk :=
  chunks ++ [⟨chunks.length, Text.strip text, sourceRef, project⟩]

/-- Append the accumulated text, unless it is blank. -/
def finalizeChunk (chunks : List Chunk) (currentChunkText : String) : List Chunk :=
  if Text.blank currentChunkText then chunks
  else appendChunk sourceRef project chunks currentChunkText

/-- `current_chunk_text and _token_count(current_chunk_text + section) > target_tokens`. -/
def exceedsTarget (currentChunkText text : String) : Outcome PyError Bool := do
  if currentChunkText = "" then return false
  else return targetTokens < (← tokenCount runtime (currentChunkText ++ text))

/-- The text the next chunk starts with. -/
def overlapText (currentChunkText : String) : Outcome PyError String :=
  if 0 < overlapTokens then extractTailTokens runtime currentChunkText overlapTokens
  else return ""

/-- The loop of `chunk_prose` over the sections. -/
def chunkSections (chunks : List Chunk) (currentChunkText : String) :
    List String → Outcome PyError (List Chunk)
  | [] => return finalizeChunk sourceRef project chunks currentChunkText
  | text :: rest => do
    let sectionTokens ← tokenCount runtime text
    if targetTokens < sectionTokens then
      let parts ← splitLargeSection runtime text targetTokens overlapTokens
      -- accumulated white space is neither stored nor dropped
      chunkSections
        (parts.foldl (appendChunk sourceRef project)
          (finalizeChunk sourceRef project chunks currentChunkText))
        (if Text.blank currentChunkText then currentChunkText else "") rest
    else if ← exceedsTarget runtime targetTokens currentChunkText text then
      let overlap ← overlapText runtime overlapTokens currentChunkText
      chunkSections (appendChunk sourceRef project chunks currentChunkText) (overlap ++ text) rest
    else chunkSections chunks (currentChunkText ++ text) rest

end

/-- `chunk_prose`. -/
def chunkProse (settings : ChunkSettings) (body : String) (sourceRef : Option String)
    (project : String) : Outcome PyError (List Chunk) :=
  if Text.blank body then return []
  else do
    let overlapTokens ← .ofExcept
      (runtime.truncatedProduct settings.chunkTargetTokens settings.chunkOverlapRatio)
    chunkSections runtime settings.chunkTargetTokens overlapTokens sourceRef project [] ""
      (splitIntoSections body)

/-! ### One pass of the loop -/

section

variable {runtime} {targetTokens overlapTokens : Int} {sourceRef : Option String}
  {project : String}

/-- What a pass comes to when the loop returns: the section is split, or it starts the next chunk,
or it joins the accumulated text. -/
theorem chunkSections_cons_eq_returned {chunks result : List Chunk} {currentChunkText text : String}
    {rest : List String}
    (returned : chunkSections runtime targetTokens overlapTokens sourceRef project chunks
      currentChunkText (text :: rest) = .returned result) :
    ∃ sectionTokens, tokenCount runtime text = .returned sectionTokens ∧
      ((targetTokens < sectionTokens ∧ ∃ parts,
          splitLargeSection runtime text targetTokens overlapTokens = .returned parts ∧
          chunkSections runtime targetTokens overlapTokens sourceRef project
            (parts.foldl (appendChunk sourceRef project)
              (finalizeChunk sourceRef project chunks currentChunkText))
            (if Text.blank currentChunkText then currentChunkText else "") rest =
              .returned result) ∨
        (¬targetTokens < sectionTokens ∧
          exceedsTarget runtime targetTokens currentChunkText text = .returned true ∧ ∃ overlap,
          overlapText runtime overlapTokens currentChunkText = .returned overlap ∧
          chunkSections runtime targetTokens overlapTokens sourceRef project
            (appendChunk sourceRef project chunks currentChunkText) (overlap ++ text) rest =
              .returned result) ∨
        (¬targetTokens < sectionTokens ∧
          exceedsTarget runtime targetTokens currentChunkText text = .returned false ∧
          chunkSections runtime targetTokens overlapTokens sourceRef project chunks
            (currentChunkText ++ text) rest = .returned result)) := by
  rw [chunkSections] at returned
  obtain ⟨sectionTokens, counted, returned⟩ := Outcome.bind_eq_returned.mp returned
  refine ⟨sectionTokens, counted, ?_⟩
  by_cases large : targetTokens < sectionTokens
  · rw [if_pos large] at returned
    obtain ⟨parts, split, returned⟩ := Outcome.bind_eq_returned.mp returned
    exact Or.inl ⟨large, parts, split, returned⟩
  · rw [if_neg large] at returned
    obtain ⟨exceeds, decided, returned⟩ := Outcome.bind_eq_returned.mp returned
    cases exceeds with
    | true =>
      obtain ⟨overlap, carries, returned⟩ := Outcome.bind_eq_returned.mp returned
      exact Or.inr (Or.inl ⟨large, decided, overlap, carries, returned⟩)
    | false => exact Or.inr (Or.inr ⟨large, decided, returned⟩)

end

/-! ### The chunks are numbered -/

/-- The chunks are numbered from zero and carry the source and the project. -/
def Numbered (sourceRef : Option String) (project : String) (chunks : List Chunk) : Prop :=
  ∀ (index : Nat) (chunk : Chunk), chunks[index]? = some chunk →
    chunk.index = index ∧ chunk.sourceRef = sourceRef ∧ chunk.project = project

variable {runtime} {sourceRef : Option String} {project : String} {chunks : List Chunk}

theorem numbered_nil : Numbered sourceRef project [] := by
  intro index chunk found
  simp at found

theorem numbered_appendChunk (numbered : Numbered sourceRef project chunks) (text : String) :
    Numbered sourceRef project (appendChunk sourceRef project chunks text) := by
  intro index chunk found
  rw [appendChunk, List.getElem?_append] at found
  split at found
  · exact numbered index chunk found
  · rename_i past
    obtain ⟨here, rfl⟩ := List.getElem?_eq_some_iff.mp found
    simp only [List.length_singleton, Nat.lt_one_iff] at here
    have last : index = chunks.length := by omega
    simp [last]

theorem numbered_finalizeChunk (numbered : Numbered sourceRef project chunks) (text : String) :
    Numbered sourceRef project (finalizeChunk sourceRef project chunks text) := by
  unfold finalizeChunk
  split
  · exact numbered
  · exact numbered_appendChunk numbered text

theorem numbered_foldl (numbered : Numbered sourceRef project chunks) (parts : List String) :
    Numbered sourceRef project (parts.foldl (appendChunk sourceRef project) chunks) := by
  induction parts generalizing chunks with
  | nil => exact numbered
  | cons part rest inductionHypothesis =>
    exact inductionHypothesis (numbered_appendChunk numbered part)

theorem numbered_chunkSections {targetTokens overlapTokens : Int} {current : String}
    {sections : List String} {result : List Chunk} (numbered : Numbered sourceRef project chunks)
    (returned : chunkSections runtime targetTokens overlapTokens sourceRef project chunks current
      sections = .returned result) : Numbered sourceRef project result := by
  induction sections generalizing chunks current with
  | nil =>
    obtain rfl := Outcome.returned.inj returned
    exact numbered_finalizeChunk numbered current
  | cons text rest inductionHypothesis =>
    obtain ⟨_, _, ⟨_, parts, _, later⟩ | ⟨_, _, overlap, _, later⟩ | ⟨_, _, later⟩⟩ :=
      chunkSections_cons_eq_returned returned
    · exact inductionHypothesis (numbered_foldl (numbered_finalizeChunk numbered current) parts)
        later
    · exact inductionHypothesis (numbered_appendChunk numbered current) later
    · exact inductionHypothesis numbered later

/-- The chunks of a body are numbered from zero and carry the project they were cut for. -/
theorem numbered_chunkProse {settings : ChunkSettings} {body : String}
    (returned : chunkProse runtime settings body sourceRef project = .returned chunks) :
    Numbered sourceRef project chunks := by
  unfold chunkProse at returned
  split at returned
  · obtain rfl := Outcome.returned.inj returned
    exact numbered_nil
  · obtain ⟨overlapTokens, _, returned⟩ := Outcome.bind_eq_returned.mp returned
    exact numbered_chunkSections numbered_nil returned

end FleetMemory
