/-
This file proves what the chunks keep of the sections. A section no larger than the target
stands whole in one chunk, with its heading. A chunk is blank in two cases only: a window
of a large section holds white space only, or the text before the first heading does and
the first section that is not large does not fit behind it.
-/

import FleetMemory.ChunkTexts
import FleetMemory.Stripping

namespace FleetMemory

open StoreProgram Text

variable {runtime : Runtime} {targetTokens overlapTokens : Int} {sourceRef : Option String}
  {project : String} {tokenBytes : Nat → List UInt8} {specials : List String}

/-! ### Sections that stand whole in a chunk -/

theorem unlessBlank_of_solid {text : String} (solid : Solid text.toList) :
    unlessBlank text = [text] := by
  rw [unlessBlank, (solid_iff text).mp solid]
  rfl

/-- What stands in the accumulated text stands in a text that becomes a chunk. -/
theorem exists_text_of_current {part : String} (solid : Solid part.toList)
    {sections : List String} {currentChunkText : String}
    (inside : part.toList <:+: currentChunkText.toList) :
    ∃ text ∈ chunkTexts runtime targetTokens overlapTokens currentChunkText sections,
      part.toList <:+: text.toList := by
  have current := unlessBlank_of_solid (solid.mono inside.subset)
  induction sections generalizing currentChunkText with
  | nil =>
    rw [chunkTexts, current]
    exact ⟨currentChunkText, List.mem_singleton_self _, inside⟩
  | cons first rest inductionHypothesis =>
    rw [chunkTexts]
    split
    · rw [current]
      exact ⟨currentChunkText, by simp, inside⟩
    split
    · exact ⟨currentChunkText, List.mem_cons_self, inside⟩
    · have within : part.toList <:+: (currentChunkText ++ first).toList := by
        rw [String.toList_append]
        exact List.infix_append_of_infix_left inside
      exact inductionHypothesis within (unlessBlank_of_solid (solid.mono within.subset))

/-- A section that is not split stands whole in a text that becomes a chunk. -/
theorem exists_text_of_section {part : String} (solid : Solid part.toList)
    (small : ¬IsLarge runtime targetTokens part) {sections : List String}
    (member : part ∈ sections) (currentChunkText : String) :
    ∃ text ∈ chunkTexts runtime targetTokens overlapTokens currentChunkText sections,
      part.toList <:+: text.toList := by
  induction sections generalizing currentChunkText with
  | nil => cases member
  | cons first rest inductionHypothesis =>
    have ends (before : String) : first.toList <:+: (before ++ first).toList := by
      rw [String.toList_append]
      exact List.infix_append_right
    rw [chunkTexts]
    rcases List.mem_cons.mp member with rfl | later
    · rw [if_neg small]
      split
      · obtain ⟨text, among, within⟩ := @exists_text_of_current runtime targetTokens overlapTokens
          part solid rest _ (ends (carried runtime overlapTokens currentChunkText))
        exact ⟨text, List.mem_cons_of_mem _ among, within⟩
      · exact exists_text_of_current solid (ends currentChunkText)
    · split
      · obtain ⟨text, among, within⟩ := inductionHypothesis later
          (if Text.blank currentChunkText then currentChunkText else "")
        exact ⟨text, List.mem_append_right _ among, within⟩
      split
      · obtain ⟨text, among, within⟩ := inductionHypothesis later
          (carried runtime overlapTokens currentChunkText ++ first)
        exact ⟨text, List.mem_cons_of_mem _ among, within⟩
      · exact inductionHypothesis later (currentChunkText ++ first)

theorem pieces_ne_nil (text : String) : pieces runtime targetTokens overlapTokens text ≠ [] := by
  rw [pieces, spansOf, Windows.spans]
  split <;> simp

/-- A body that is not blank leaves a text. -/
theorem chunkTexts_ne_nil {sections : List String} (solid : ∃ text ∈ sections, Solid text.toList)
    (currentChunkText : String) :
    chunkTexts runtime targetTokens overlapTokens currentChunkText sections ≠ [] := by
  obtain ⟨part, member, holds⟩ := solid
  induction sections generalizing currentChunkText with
  | nil => cases member
  | cons first rest inductionHypothesis =>
    rw [chunkTexts]
    split
    · simp [pieces_ne_nil]
    split
    · exact List.cons_ne_nil _ _
    · rcases List.mem_cons.mp member with rfl | later
      · obtain ⟨text, among, _⟩ := @exists_text_of_current runtime targetTokens overlapTokens part
          holds rest (currentChunkText ++ part)
          (by rw [String.toList_append]; exact List.infix_append_right)
        exact List.ne_nil_of_mem among
      · exact inductionHypothesis (currentChunkText ++ first) later

theorem exists_solid_section {body : String} (solid : blank body = false) :
    ∃ text ∈ splitIntoSections body, Solid text.toList := by
  obtain ⟨character, member, holds⟩ := (solid_iff body).mpr solid
  rw [← join_splitIntoSections body, String.toList_join] at member
  obtain ⟨text, among, within⟩ := List.mem_flatMap.mp member
  exact ⟨text, among, character, within, holds⟩

section

variable {settings : ChunkSettings} {body : String} {chunks : List Chunk}

theorem chunks_eq_nil_iff (product : runtime.truncatedProduct settings.chunkTargetTokens
      settings.chunkOverlapRatio = .ok overlapTokens)
    (positive : 1 ≤ settings.chunkTargetTokens) (less : overlapTokens < settings.chunkTargetTokens)
    (returned : chunkProse runtime settings body sourceRef project = .returned chunks) :
    chunks = [] ↔ blank body = true := by
  have texts := text_of_chunkProse product positive less returned
  rw [textsOf] at texts
  constructor
  · intro none
    by_contra solid
    rw [none, if_neg solid] at texts
    rw [Bool.not_eq_true] at solid
    exact chunkTexts_ne_nil (exists_solid_section solid) "" (List.map_eq_nil_iff.mp texts.symm)
  · intro blanks
    rw [if_pos blanks] at texts
    exact List.map_eq_nil_iff.mp texts

/-- What stands in a text that becomes a chunk stands in the chunk, but for white space at its
ends. -/
theorem exists_chunk_of_text (texts : chunks.map Chunk.text =
      (chunkTexts runtime targetTokens overlapTokens "" (splitIntoSections body)).map strip)
    {part : String} (solid : Solid part.toList)
    (inside : ∃ text ∈ chunkTexts runtime targetTokens overlapTokens "" (splitIntoSections body),
      part.toList <:+: text.toList) :
    ∃ chunk ∈ chunks, (strip part).toList <:+: chunk.text.toList := by
  obtain ⟨text, among, within⟩ := inside
  have stripped : strip text ∈ chunks.map Chunk.text := by
    rw [texts]
    exact List.mem_map_of_mem among
  obtain ⟨chunk, stored, same⟩ := List.mem_map.mp stripped
  refine ⟨chunk, stored, ?_⟩
  rw [same]
  exact strip_infix solid within

/-- The tokenizer takes the text for at most the target's tokens. -/
def FitsTarget (runtime : Runtime) (targetTokens : Int) (text : String) : Prop :=
  ∃ tokens, runtime.encode text = .ok tokens ∧ (tokens.length : Int) ≤ targetTokens

theorem not_isLarge_of_fitsTarget {text : String} (fits : FitsTarget runtime targetTokens text) :
    ¬IsLarge runtime targetTokens text := by
  obtain ⟨tokens, encoded, few⟩ := fits
  rw [IsLarge, tokensOf_eq encoded]
  exact Int.not_lt.mpr few

/-- A section that is not large stands whole, but for white space at its ends, in a chunk. -/
theorem exists_chunk_of_section (product : runtime.truncatedProduct settings.chunkTargetTokens
      settings.chunkOverlapRatio = .ok overlapTokens)
    (positive : 1 ≤ settings.chunkTargetTokens) (less : overlapTokens < settings.chunkTargetTokens)
    (solid : blank body = false)
    (returned : chunkProse runtime settings body sourceRef project = .returned chunks)
    {text : String} (member : text ∈ splitIntoSections body)
    (small : ¬IsLarge runtime settings.chunkTargetTokens text) :
    ∃ chunk ∈ chunks, (strip text).toList <:+: chunk.text.toList := by
  have texts := text_of_chunkProse product positive less returned
  rw [textsOf, if_neg (by simp [solid])] at texts
  by_cases holds : Solid text.toList
  · exact exists_chunk_of_text texts holds (exists_text_of_section holds small member "")
  · -- a blank section is stripped to nothing, which stands in any chunk
    obtain ⟨chunk, rest, some_chunk⟩ := List.exists_cons_of_ne_nil fun none =>
      absurd ((chunks_eq_nil_iff product positive less returned).mp none) (by simp [solid])
    have blanks : blank text = true := by
      rw [solid_iff, Bool.not_eq_false] at holds
      exact holds
    have empty : strip text = "" := eq_of_beq blanks
    refine ⟨chunk, by simp [some_chunk], ?_⟩
    rw [empty]
    exact List.nil_infix

/-- The sections are the body, each behind the first with its heading and no other, and every
section of at most the target's tokens stands whole, but for white space at its ends, in one chunk,
exactly when no special token stands in the body or it has no such section. -/
theorem sections_stand_whole_iff (tokenizes : Tokenizes tokenBytes specials runtime)
    (product : runtime.truncatedProduct settings.chunkTargetTokens
      settings.chunkOverlapRatio = .ok overlapTokens)
    (positive : 1 ≤ settings.chunkTargetTokens) (less : overlapTokens < settings.chunkTargetTokens)
    (solid : blank body = false) (sourceRef : Option String) (project : String) :
    String.join (splitIntoSections body) = body ∧
    (∀ text ∈ (splitIntoSections body).tail, Headed text) ∧
    ((∀ text ∈ splitIntoSections body, FitsTarget runtime settings.chunkTargetTokens text →
        ∃ chunks, chunkProse runtime settings body sourceRef project = .returned chunks ∧
          ∃ chunk ∈ chunks, (strip text).toList <:+: chunk.text.toList) ↔
      ¬HoldsSpecial specials body ∨
        ∀ text ∈ splitIntoSections body, ¬FitsTarget runtime settings.chunkTargetTokens text) := by
  have returns := @chunkProse_returns_iff _ _ sourceRef project _ _ tokenizes _ body product positive
    less
  refine ⟨join_splitIntoSections body, fun text => headed_of_mem_splitIntoSections,
    fun whole => ?_, ?_⟩
  · by_contra neither
    obtain ⟨special, some_fits⟩ := not_or.mp neither
    refine some_fits fun text member fits => ?_
    obtain ⟨chunks, returned, _⟩ := whole text member fits
    exact special (returns.mp ⟨chunks, returned⟩)
  · rintro (free | none) text member fits
    · obtain ⟨chunks, returned⟩ := returns.mpr free
      exact ⟨chunks, returned, exists_chunk_of_section product positive less solid returned member
        (not_isLarge_of_fitsTarget fits)⟩
    · exact absurd fits (none text member)

/-- A section of the target's size that follows another of it, and text carried into it. -/
theorem sections_stand_whole_half :
    String.join (splitIntoSections "# a\n# b\n# cd") = "# a\n# b\n# cd" ∧
    (∀ text ∈ (splitIntoSections "# a\n# b\n# cd").tail, Headed text) ∧
    ∀ text ∈ splitIntoSections "# a\n# b\n# cd",
      FitsTarget (Runtime.bytewise [] simpleProduct) 4 text →
        ∃ chunks, chunkProse (Runtime.bytewise [] simpleProduct) ⟨4, ⟨"0.5"⟩⟩ "# a\n# b\n# cd" none
            "p" = .returned chunks ∧
          ∃ chunk ∈ chunks, (strip text).toList <:+: chunk.text.toList :=
  have whole := @sections_stand_whole_iff (Runtime.bytewise [] simpleProduct) 2
    (fun token => [UInt8.ofNat token]) [] ⟨4, ⟨"0.5"⟩⟩ "# a\n# b\n# cd"
    (tokenizes_bytewise (by simp) simpleProduct) rfl (by decide) (by decide) rfl none "p"
  ⟨whole.1, whole.2.1, whole.2.2.mpr (Or.inl (by simp [HoldsSpecial]))⟩

/-- A special token in one section keeps every other from its chunk. -/
theorem not_sections_stand_whole :
    ¬∀ text ∈ splitIntoSections "a\n# <|endoftext|>",
      FitsTarget (Runtime.bytewise ["<|endoftext|>"] simpleProduct) 4 text →
        ∃ chunks, chunkProse (Runtime.bytewise ["<|endoftext|>"] simpleProduct) ⟨4, ⟨"0.5"⟩⟩
            "a\n# <|endoftext|>" none "p" = .returned chunks ∧
          ∃ chunk ∈ chunks, (strip text).toList <:+: chunk.text.toList := by
  have tokenizes := tokenizes_bytewise printing_endoftext simpleProduct
  intro whole
  have member : "a\n" ∈ splitIntoSections "a\n# <|endoftext|>" := by decide +kernel
  have plain : ¬HoldsSpecial ["<|endoftext|>"] "a\n" := not_holdsSpecial_of_short (by decide)
  have fits : FitsTarget (Runtime.bytewise ["<|endoftext|>"] simpleProduct) 4 "a\n" :=
    ⟨[97, 10], by simp only [Runtime.bytewise, if_neg plain]; rfl, by decide⟩
  obtain ⟨chunks, returned, _⟩ := whole "a\n" member fits
  exact (chunkProse_returns_iff tokenizes _ rfl (by decide) (by decide)).mp ⟨chunks, returned⟩
    ⟨_, List.mem_singleton_self _, "a\n# ".toList, [], by decide⟩

/-! ### Blank chunks -/

/-- Every window of the text shows a character other than white space. -/
def WindowsSolid (runtime : Runtime) (targetTokens overlapTokens : Int) (text : String) : Prop :=
  ∀ span ∈ spansOf runtime targetTokens overlapTokens text,
    Solid (windowText runtime text span).toList

/-- The texts that become chunks hold each a character other than white space. -/
def AllSolid (texts : List String) : Prop :=
  ∀ text ∈ texts, Solid text.toList

theorem allSolid_append {first second : List String} :
    AllSolid (first ++ second) ↔ AllSolid first ∧ AllSolid second :=
  List.forall_mem_append

theorem allSolid_cons {text : String} {rest : List String} :
    AllSolid (text :: rest) ↔ Solid text.toList ∧ AllSolid rest :=
  List.forall_mem_cons

theorem allSolid_unlessBlank (text : String) : AllSolid (unlessBlank text) := by
  intro other member
  rw [unlessBlank] at member
  split at member
  · cases member
  · rename_i solid
    rw [List.mem_singleton.mp member, solid_iff, ← Bool.not_eq_true]
    exact solid

theorem allSolid_pieces (text : String) :
    AllSolid (pieces runtime targetTokens overlapTokens text) ↔
      WindowsSolid runtime targetTokens overlapTokens text :=
  List.forall_mem_map

/-- Every large section among them has solid windows only. -/
def LargeSolid (runtime : Runtime) (targetTokens overlapTokens : Int) (sections : List String) :
    Prop :=
  ∀ text ∈ sections, IsLarge runtime targetTokens text →
    WindowsSolid runtime targetTokens overlapTokens text

theorem solid_append_right {first second : String} (solid : Solid second.toList) :
    Solid (first ++ second).toList := by
  rw [String.toList_append]
  exact solid.mono (List.subset_append_right _ _)

/-- Behind an accumulated text that is empty or not blank, only windows can be blank. -/
theorem allSolid_chunkTexts_iff {sections : List String} (solid : AllSolid sections)
    {currentChunkText : String} (current : currentChunkText = "" ∨ Solid currentChunkText.toList) :
    AllSolid (chunkTexts runtime targetTokens overlapTokens currentChunkText sections) ↔
      LargeSolid runtime targetTokens overlapTokens sections := by
  induction sections generalizing currentChunkText with
  | nil => simp [chunkTexts, allSolid_unlessBlank, LargeSolid]
  | cons text rest inductionHypothesis =>
    obtain ⟨here, later⟩ := allSolid_cons.mp solid
    rw [chunkTexts, LargeSolid, List.forall_mem_cons]
    split
    · rename_i large
      have kept : (if blank currentChunkText then currentChunkText else "") = "" ∨
          Solid (if blank currentChunkText then currentChunkText else "").toList := by
        split
        · exact current
        · exact Or.inl rfl
      rw [allSolid_append, allSolid_append, allSolid_pieces, inductionHypothesis later kept,
        and_iff_right (allSolid_unlessBlank _)]
      exact and_congr_left fun _ => (imp_iff_right large).symm
    · rename_i small
      rw [and_iff_right fun large => absurd large small]
      split
      · rename_i overflows
        rw [allSolid_cons, inductionHypothesis later (Or.inr (solid_append_right here))]
        exact and_iff_right (current.resolve_left overflows.1)
      · exact inductionHypothesis later (Or.inr (solid_append_right here))

/-- The first section that is not split, if there is one, fits behind the text. -/
def FirstFits (runtime : Runtime) (targetTokens : Int) (lead : String) (sections : List String) :
    Prop :=
  ∀ large text rest, sections = large ++ text :: rest →
    (∀ other ∈ large, IsLarge runtime targetTokens other) → ¬IsLarge runtime targetTokens text →
      ¬Overflows runtime targetTokens lead text

theorem firstFits_cons_of_large {lead text : String} {rest : List String}
    (large : IsLarge runtime targetTokens text) :
    FirstFits runtime targetTokens lead (text :: rest) ↔
      FirstFits runtime targetTokens lead rest := by
  constructor
  · rintro fits skipped first others rfl allLarge
    exact fits (text :: skipped) first others rfl (List.forall_mem_cons.mpr ⟨large, allLarge⟩)
  · rintro fits (_ | ⟨head, skipped⟩) first others whole allLarge small
    · obtain ⟨rfl, rfl⟩ := List.cons.inj whole
      exact absurd large small
    · exact fits skipped first others (List.cons.inj whole).2
        (List.forall_mem_cons.mp allLarge).2 small

theorem firstFits_cons_of_small {lead text : String} {rest : List String}
    (small : ¬IsLarge runtime targetTokens text) :
    FirstFits runtime targetTokens lead (text :: rest) ↔
      ¬Overflows runtime targetTokens lead text := by
  constructor
  · intro fits
    exact fits [] text rest rfl (by simp) small
  · rintro fits (_ | ⟨head, skipped⟩) first others whole allLarge -
    · rwa [← (List.cons.inj whole).1]
    · rw [(List.cons.inj whole).1] at small
      exact absurd (allLarge head List.mem_cons_self) small

/-- Behind a blank text, the first section that is not split has to fit as well. -/
theorem allSolid_chunkTexts_of_blank_iff {sections : List String} (solid : AllSolid sections)
    {lead : String} (blanks : blank lead = true) :
    AllSolid (chunkTexts runtime targetTokens overlapTokens lead sections) ↔
      LargeSolid runtime targetTokens overlapTokens sections ∧
        FirstFits runtime targetTokens lead sections := by
  induction sections with
  | nil => simp [chunkTexts, allSolid_unlessBlank, LargeSolid, FirstFits]
  | cons text rest inductionHypothesis =>
    obtain ⟨here, later⟩ := allSolid_cons.mp solid
    by_cases large : IsLarge runtime targetTokens text
    · rw [chunkTexts, if_pos large, if_pos blanks, allSolid_append, allSolid_append,
        allSolid_pieces, inductionHypothesis later, and_iff_right (allSolid_unlessBlank _),
        firstFits_cons_of_large large, LargeSolid, LargeSolid, List.forall_mem_cons, imp_iff_right large, and_assoc]
    · rw [chunkTexts, if_neg large, firstFits_cons_of_small large]
      split
      · rename_i overflows
        refine iff_of_false ?_ fun both => both.2 overflows
        intro all
        rw [(solid_iff lead).mp (allSolid_cons.mp all).1] at blanks
        cases blanks
      · rename_i fitting
        rw [allSolid_chunkTexts_iff later (Or.inr (solid_append_right here)), LargeSolid,
          LargeSolid, List.forall_mem_cons, and_iff_left fitting]
        exact (and_iff_right fun isLarge => absurd isLarge large).symm

/-- White space before the first heading fits before the first section that is not split. -/
def LeadFits (runtime : Runtime) (targetTokens : Int) (sections : List String) : Prop :=
  ∀ lead rest, sections = lead :: rest → blank lead = true →
    ¬IsLarge runtime targetTokens lead → FirstFits runtime targetTokens lead rest

theorem solid_of_headed {text : String} (headed : Headed text) : Solid text.toList := by
  obtain ⟨heading, rest, lines, starts, _⟩ := headed
  have hash : '#' ∈ heading.toList := by
    rw [isHeading] at starts
    simp only [Bool.and_eq_true, decide_eq_true_eq] at starts
    obtain ⟨character, taken⟩ := List.exists_mem_of_length_pos (Nat.lt_of_lt_of_le Nat.one_pos
      starts.1.1)
    have same : (character == '#') = true :=
      @List.mem_takeWhile_imp _ (fun letter => letter == '#') heading.toList character taken
    rw [← eq_of_beq same]
    exact (List.takeWhile_subset _) taken
  have member : heading ∈ Text.split '\n' text := by
    rw [lines]
    exact List.mem_cons_self
  exact ⟨'#', Text.mem_of_mem_split member hash, by decide⟩

theorem allSolid_texts_iff {sections : List String} (headed : ∀ text ∈ sections.tail, Headed text) :
    AllSolid (chunkTexts runtime targetTokens overlapTokens "" sections) ↔
      LargeSolid runtime targetTokens overlapTokens sections ∧
        LeadFits runtime targetTokens sections := by
  cases sections with
  | nil => simp [chunkTexts, allSolid_unlessBlank, LargeSolid, LeadFits]
  | cons lead rest =>
    have later : AllSolid rest := fun text member => solid_of_headed (headed text member)
    have leadFits : LeadFits runtime targetTokens (lead :: rest) ↔
        (blank lead = true → ¬IsLarge runtime targetTokens lead →
          FirstFits runtime targetTokens lead rest) := by
      constructor
      · exact fun fits => fits lead rest rfl
      · rintro fits first others whole
        obtain ⟨rfl, rfl⟩ := List.cons.inj whole
        exact fits
    rw [leadFits, LargeSolid, List.forall_mem_cons]
    by_cases large : IsLarge runtime targetTokens lead
    · rw [chunkTexts, if_pos large, allSolid_append, allSolid_append, allSolid_pieces,
        allSolid_chunkTexts_iff later (by simp), and_iff_right (allSolid_unlessBlank _),
        imp_iff_right large]
      exact (and_iff_left fun _ small => absurd large small).symm
    · have fits : ¬Overflows runtime targetTokens "" lead := fun overflows => overflows.1 rfl
      rw [chunkTexts, if_neg large, if_neg fits, String.empty_append,
        and_iff_right fun isLarge => absurd isLarge large]
      cases blanks : blank lead with
      | true => rw [allSolid_chunkTexts_of_blank_iff later blanks, imp_iff_right rfl,
          imp_iff_right large, LargeSolid]
      | false =>
        rw [allSolid_chunkTexts_iff later (Or.inr ((solid_iff lead).mpr blanks)), LargeSolid]
        simp

/-- A body is refused for a special token, or it is chunked, and then every chunk holds a character
other than white space, the indices count from zero, and there is none exactly for a blank body,
exactly when no window of a large section shows white space only and white space before the first
heading fits before the first section that is not large. -/
theorem chunks_solid_iff (tokenizes : Tokenizes tokenBytes specials runtime)
    (product : runtime.truncatedProduct settings.chunkTargetTokens
      settings.chunkOverlapRatio = .ok overlapTokens)
    (positive : 1 ≤ settings.chunkTargetTokens) (less : overlapTokens < settings.chunkTargetTokens)
    (body : String) (sourceRef : Option String) (project : String) :
    HoldsSpecial specials body ∨ ∃ chunks,
      chunkProse runtime settings body sourceRef project = .returned chunks ∧
      (((∀ chunk ∈ chunks, ∃ character ∈ chunk.text.toList, isSpace character = false) ∧
          (∀ (index : Nat) (chunk : Chunk), chunks[index]? = some chunk → chunk.index = index) ∧
          (chunks = [] ↔ blank body = true)) ↔
        blank body = true ∨
          LargeSolid runtime settings.chunkTargetTokens overlapTokens (splitIntoSections body) ∧
            LeadFits runtime settings.chunkTargetTokens (splitIntoSections body)) := by
  by_cases special : HoldsSpecial specials body
  · exact Or.inl special
  obtain ⟨chunks, returned⟩ := (@chunkProse_returns_iff _ _ sourceRef project _ _ tokenizes _ body
    product positive less).mpr special
  refine Or.inr ⟨chunks, returned, ?_⟩
  have numbered := numbered_chunkProse returned
  have texts := text_of_chunkProse product positive less returned
  have empty := chunks_eq_nil_iff product positive less returned
  rw [and_iff_left ⟨fun index chunk found => (numbered index chunk found).1, empty⟩]
  by_cases blanks : blank body = true
  · refine iff_of_true ?_ (Or.inl blanks)
    simp [empty.mpr blanks]
  · rw [textsOf, if_neg blanks] at texts
    rw [or_iff_right blanks, ← allSolid_texts_iff fun text => headed_of_mem_splitIntoSections]
    have stripped : (∀ text ∈ chunks.map Chunk.text, Solid text.toList) ↔
        AllSolid (chunkTexts runtime settings.chunkTargetTokens overlapTokens ""
          (splitIntoSections body)) := by
      rw [texts, List.forall_mem_map]
      exact forall₂_congr fun text _ => solid_strip_iff text
    rw [← stripped, List.forall_mem_map]
    rfl

/-- A body in windows that all show a character. -/
theorem chunks_solid_iff_plain :
    HoldsSpecial [] "a b c" ∨ ∃ chunks,
      chunkProse (Runtime.bytewise [] simpleProduct) ⟨2, ⟨"0.0"⟩⟩ "a b c" none "p" =
        .returned chunks ∧
      (((∀ chunk ∈ chunks, ∃ character ∈ chunk.text.toList, isSpace character = false) ∧
          (∀ (index : Nat) (chunk : Chunk), chunks[index]? = some chunk → chunk.index = index) ∧
          (chunks = [] ↔ blank "a b c" = true)) ↔
        blank "a b c" = true ∨
          LargeSolid (Runtime.bytewise [] simpleProduct) 2 0 (splitIntoSections "a b c") ∧
            LeadFits (Runtime.bytewise [] simpleProduct) 2 (splitIntoSections "a b c")) :=
  @chunks_solid_iff (Runtime.bytewise [] simpleProduct) 0 (fun token => [UInt8.ofNat token]) []
    ⟨2, ⟨"0.0"⟩⟩ (tokenizes_bytewise (by simp) simpleProduct) rfl (by decide) (by decide) "a b c"
    none "p"

/-- The second window of the body shows white space only, and its chunk is kept. -/
theorem chunkProse_blank_chunk :
    chunkProse (Runtime.bytewise [] simpleProduct) ⟨2, ⟨"0.0"⟩⟩ "a   b" none "p" =
        .returned [⟨0, "a", none, "p"⟩, ⟨1, "", none, "p"⟩, ⟨2, "b", none, "p"⟩] ∧
      ¬∃ character ∈ "".toList, isSpace character = false :=
  ⟨rfl, by simp⟩

end

end FleetMemory
