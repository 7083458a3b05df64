/-
This file proves what the chunks keep of a body's characters, and what adjacent chunks
share. The windows of a large section are cut between tokens, which need not be between
characters: a character that lies whole in no window is lost. Text is carried from one
chunk to the next where the accumulated text is closed, but not into a large section and
not out of one.
-/

import FleetMemory.ChunkSections
import Mathlib.Data.List.Chain

namespace FleetMemory

open StoreProgram Text

variable {runtime : Runtime} {targetTokens overlapTokens : Int} {sourceRef : Option String}
  {project : String} {tokenBytes : Nat → List UInt8} {specials : List String}

/-! ### Characters in windows -/

/-- A character other than white space. -/
def isSolid (character : Char) : Bool :=
  !isSpace character

/-- The number of bytes of the first tokens. -/
def byteAt (tokenBytes : Nat → List UInt8) (tokens : List Nat) (count : Nat) : Nat :=
  ((tokens.take count).flatMap tokenBytes).length

theorem byteAt_mono (tokens : List Nat) {first second : Nat} (ordered : first ≤ second) :
    byteAt tokenBytes tokens first ≤ byteAt tokenBytes tokens second := by
  have parts := List.take_append_drop first (tokens.take second)
  rw [List.take_take, Nat.min_eq_left ordered] at parts
  rw [byteAt, byteAt, ← parts, List.flatMap_append, List.length_append]
  exact Nat.le_add_right _ _

theorem byteAt_min (tokens : List Nat) (count : Nat) :
    byteAt tokenBytes tokens (min count tokens.length) = byteAt tokenBytes tokens count := by
  rcases Nat.le_total count tokens.length with inside | past
  · rw [Nat.min_eq_left inside]
  · rw [Nat.min_eq_right past, byteAt, byteAt, List.take_length, List.take_of_length_le past]

theorem flatMap_take (tokens : List Nat) (count : Nat) :
    (tokens.take count).flatMap tokenBytes =
      (tokens.flatMap tokenBytes).take (byteAt tokenBytes tokens count) := by
  rw [← flatMap_cut tokens count, byteAt, List.take_left]

/-- A window over the tokens of a text is one over its bytes. -/
theorem windowText_eq (tokenizes : Tokenizes tokenBytes specials runtime) {text : String}
    {tokens : List Nat} (encoded : runtime.encode text = .ok tokens) {span : Nat × Nat}
    (ordered : span.1 ≤ span.2) :
    (windowText runtime text span).toList = Utf8.decode
      (((Utf8.bytes text.toList).take (byteAt tokenBytes tokens span.2)).drop
        (byteAt tokenBytes tokens span.1)) := by
  have starts : byteAt tokenBytes (tokens.take span.2) span.1 = byteAt tokenBytes tokens span.1 := by
    rw [byteAt, byteAt, List.take_take, Nat.min_eq_left ordered]
  rw [windowText, tokensOf_eq encoded, tokenizes.decodes, String.toList_ofList, flatMap_drop,
    ← byteAt, starts, flatMap_take, tokenizes.encodes encoded]

/-- Every character of the text other than white space lies whole in one of its windows. -/
def KeepsCharacters (runtime : Runtime) (tokenBytes : Nat → List UInt8)
    (targetTokens overlapTokens : Int) (text : String) : Prop :=
  ∀ item ∈ Utf8.located 0 text.toList, isSolid item.2 = true → ∃ steps : Nat,
    byteAt tokenBytes (tokensOf runtime text)
        (steps * (targetTokens.toNat - overlapTokens.toNat)) ≤ item.1 ∧
      item.1 + Utf8.size item.2 ≤ byteAt tokenBytes (tokensOf runtime text)
        (steps * (targetTokens.toNat - overlapTokens.toNat) + targetTokens.toNat)

/-- The characters of a text other than white space, each with the byte it starts at. -/
def solidItems (text : String) : List (Nat × Char) :=
  (Utf8.located 0 text.toList).filter fun item => isSolid item.2

theorem map_snd_solidItems (text : String) :
    (solidItems text).map Prod.snd = text.toList.filter isSolid := by
  have mapped := @List.filter_map _ _ Prod.snd isSolid (Utf8.located 0 text.toList)
  rw [Utf8.map_snd_located] at mapped
  exact mapped.symm

/-- The characters that lie whole between two tokens. -/
def wholeBetween (tokenBytes : Nat → List UInt8) (tokens : List Nat) (span : Nat × Nat) :
    Nat × Char → Bool :=
  Utf8.wholeIn (byteAt tokenBytes tokens span.1) (byteAt tokenBytes tokens span.2)

section

variable {text : String} {tokens : List Nat}

theorem spansOf_eq (encoded : runtime.encode text = .ok tokens) :
    spansOf runtime targetTokens overlapTokens text =
      Windows.spans tokens.length targetTokens.toNat (targetTokens.toNat - overlapTokens.toNat)
        (tokens.length + 1) 0 := by
  rw [spansOf, tokensOf_eq encoded]

/-- What lies whole in a window of the tokens is shown by it. -/
theorem whole_sublist_windowText (tokenizes : Tokenizes tokenBytes specials runtime)
    (encoded : runtime.encode text = .ok tokens) {span : Nat × Nat}
    (member : span ∈ spansOf runtime targetTokens overlapTokens text) :
    (((solidItems text).filter (wholeBetween tokenBytes tokens span)).map Prod.snd).Sublist
      (windowText runtime text span).toList := by
  rw [spansOf_eq encoded] at member
  have bounds := Windows.bounds_of_mem_spans (Nat.zero_le _) (Nat.sub_le _ _) member
  have shown := Utf8.whole_sublist_decode text.toList 0 (byteAt tokenBytes tokens span.1)
    (byteAt tokenBytes tokens span.2)
  rw [← windowText_eq tokenizes encoded (by omega), Nat.zero_add, Nat.zero_add] at shown
  exact ((List.filter_sublist.filter (wholeBetween tokenBytes tokens span)).map Prod.snd).trans
    shown

/-- Characters that lie each whole in a window come one after the other in the windows. -/
theorem solidItems_sublist (encoded : runtime.encode text = .ok tokens)
    (positive : 1 ≤ targetTokens) (less : overlapTokens < targetTokens)
    (keeps : KeepsCharacters runtime tokenBytes targetTokens overlapTokens text) :
    (solidItems text).Sublist (((spansOf runtime targetTokens overlapTokens text).map
      (wholeBetween tokenBytes tokens)).flatMap fun whole => (solidItems text).filter whole) := by
  rw [KeepsCharacters, tokensOf_eq encoded] at keeps
  rw [spansOf_eq encoded]
  refine Windows.sublist_flatMap_filter ((Utf8.pairwise_located 0 text.toList).filter _) ?_ ?_
  · intro item member
    obtain ⟨inside, solid⟩ := List.mem_filter.mp member
    obtain ⟨steps, starts, stops⟩ := keeps item inside solid
    obtain ⟨span, among, begins, reaches⟩ := @Windows.exists_span tokens.length targetTokens.toNat
      (targetTokens.toNat - overlapTokens.toNat) (tokens.length + 1) 0 (by omega) (Nat.zero_le _)
      (Nat.sub_le _ _) (by omega) steps
    rw [Nat.zero_add] at begins reaches
    refine ⟨_, List.mem_map_of_mem among, decide_eq_true ⟨?_, ?_⟩⟩
    · exact (byteAt_mono tokens begins).trans starts
    · rw [← byteAt_min] at stops
      exact stops.trans (byteAt_mono tokens reaches)
  · rw [List.pairwise_map]
    refine (Windows.pairwise_spans (Nat.zero_le _) (Nat.sub_le _ _)).imp ?_
    rintro earlier later ⟨starts, stops⟩ first second stands showsFirst showsSecond
    have firstIn := of_decide_eq_true showsFirst
    have secondIn := of_decide_eq_true showsSecond
    have begins := @byteAt_mono tokenBytes tokens _ _ starts
    exact decide_eq_true ⟨by omega, by omega⟩

/-- The pieces of a section show its characters when each lies whole in a window. -/
theorem sublist_pieces (tokenizes : Tokenizes tokenBytes specials runtime)
    (encoded : runtime.encode text = .ok tokens) (positive : 1 ≤ targetTokens)
    (less : overlapTokens < targetTokens)
    (keeps : KeepsCharacters runtime tokenBytes targetTokens overlapTokens text) :
    (text.toList.filter isSolid).Sublist
      ((pieces runtime targetTokens overlapTokens text).flatMap String.toList) := by
  have shown := (solidItems_sublist encoded positive less keeps).map Prod.snd
  rw [map_snd_solidItems, List.map_flatMap, List.flatMap_map] at shown
  rw [pieces, List.flatMap_map]
  exact shown.trans (List.Sublist.flatMap_right _ fun span member =>
    whole_sublist_windowText tokenizes encoded member)

end

/-! ### Characters in chunks -/

/-- The characters of texts other than white space. -/
def solidOf (texts : List String) : List Char :=
  texts.flatMap fun text => text.toList.filter isSolid

theorem solidOf_append (first second : List String) :
    solidOf (first ++ second) = solidOf first ++ solidOf second :=
  List.flatMap_append

theorem solidOf_eq (texts : List String) :
    solidOf texts = (texts.flatMap String.toList).filter isSolid :=
  (List.filter_flatMap ..).symm

theorem solidOf_cons (text : String) (rest : List String) :
    solidOf (text :: rest) = text.toList.filter isSolid ++ solidOf rest :=
  List.flatMap_cons

theorem filter_isSolid_append (first second : String) :
    (first ++ second).toList.filter isSolid =
      first.toList.filter isSolid ++ second.toList.filter isSolid := by
  rw [String.toList_append, List.filter_append]

theorem solidOf_unlessBlank (text : String) :
    solidOf (unlessBlank text) = text.toList.filter isSolid := by
  rw [unlessBlank]
  split
  · rename_i blanks
    refine (List.filter_eq_nil_iff.mpr fun character member => ?_).symm
    simp [isSolid, isSpace_of_blank blanks character member]
  · rw [solidOf_cons]
    exact List.append_nil _

/-- What is accumulated and what is still to come is shown by the texts. -/
theorem sublist_chunkTexts (tokenizes : Tokenizes tokenBytes specials runtime)
    (positive : 1 ≤ targetTokens) (less : overlapTokens < targetTokens) {sections : List String}
    (free : ∀ text ∈ sections, ¬HoldsSpecial specials text)
    (keeps : ∀ text ∈ sections, IsLarge runtime targetTokens text →
      KeepsCharacters runtime tokenBytes targetTokens overlapTokens text)
    (currentChunkText : String) :
    (currentChunkText.toList.filter isSolid ++ solidOf sections).Sublist
      (solidOf (chunkTexts runtime targetTokens overlapTokens currentChunkText sections)) := by
  induction sections generalizing currentChunkText with
  | nil =>
    rw [chunkTexts, solidOf_unlessBlank]
    exact (List.append_nil _).symm ▸ List.Sublist.refl _
  | cons text rest inductionHypothesis =>
    obtain ⟨textFree, restFree⟩ := List.forall_mem_cons.mp free
    obtain ⟨textKeeps, restKeeps⟩ := List.forall_mem_cons.mp keeps
    have following := inductionHypothesis restFree restKeeps
    rw [chunkTexts, solidOf_cons]
    split
    · rename_i large
      obtain ⟨tokens, encoded⟩ := (tokenizes.accepts text).mpr textFree
      have pieced := (sublist_pieces tokenizes encoded positive less (textKeeps large)).filter
        isSolid
      rw [List.filter_filter, ← solidOf_eq] at pieced
      simp only [Bool.and_self] at pieced
      have later := (List.sublist_append_right _ (solidOf rest)).trans
        (following (if blank currentChunkText then currentChunkText else ""))
      rw [solidOf_append, solidOf_append, solidOf_unlessBlank, List.append_assoc]
      exact List.Sublist.append (List.Sublist.refl _) (pieced.append later)
    split
    · have later := following (carried runtime overlapTokens currentChunkText ++ text)
      rw [filter_isSolid_append, List.append_assoc] at later
      rw [solidOf_cons]
      exact List.Sublist.append (List.Sublist.refl _)
        ((List.sublist_append_right _ _).trans later)
    · have later := following (currentChunkText ++ text)
      rwa [filter_isSolid_append, List.append_assoc] at later

variable {settings : ChunkSettings} {body : String}

/-- The characters of a body without special tokens, white space apart, come in order in the texts
of its chunks, when each character of a large section lies whole in one of its windows. -/
theorem characters_kept (tokenizes : Tokenizes tokenBytes specials runtime)
    (product : runtime.truncatedProduct settings.chunkTargetTokens
      settings.chunkOverlapRatio = .ok overlapTokens)
    (positive : 1 ≤ settings.chunkTargetTokens) (less : overlapTokens < settings.chunkTargetTokens)
    (solid : blank body = false) (free : ¬HoldsSpecial specials body)
    (keeps : ∀ text ∈ splitIntoSections body,
      IsLarge runtime settings.chunkTargetTokens text →
        KeepsCharacters runtime tokenBytes settings.chunkTargetTokens overlapTokens text)
    (sourceRef : Option String) (project : String) :
    ∃ chunks, chunkProse runtime settings body sourceRef project = .returned chunks ∧
      (body.toList.filter isSolid).Sublist (chunks.flatMap fun chunk => chunk.text.toList) := by
  obtain ⟨chunks, returned⟩ := (@chunkProse_returns_iff _ _ sourceRef project _ _ tokenizes _ body
    product positive less).mpr free
  refine ⟨chunks, returned, ?_⟩
  have texts := text_of_chunkProse product positive less returned
  rw [textsOf, if_neg (by simp [solid])] at texts
  have sectionsFree : ∀ text ∈ splitIntoSections body, ¬HoldsSpecial specials text := by
    intro text member holds
    refine free ?_
    rw [← join_splitIntoSections body]
    exact (holdsSpecial_join tokenizes (closes_of_mem_dropLast body)).mpr ⟨text, member, holds⟩
  have shown := sublist_chunkTexts tokenizes positive less sectionsFree keeps ""
  rw [solidOf_eq, ← String.toList_join, join_splitIntoSections] at shown
  have stripped : solidOf (chunks.map Chunk.text) =
      solidOf (chunkTexts runtime settings.chunkTargetTokens overlapTokens ""
        (splitIntoSections body)) := by
    rw [texts, solidOf, solidOf, List.flatMap_map]
    exact List.flatMap_congr fun text _ => filter_strip text
  rw [← stripped, solidOf_eq, List.flatMap_map] at shown
  exact shown.trans List.filter_sublist

/-- A character of two bytes is lost with the first window and stands in the second. -/
theorem characters_kept_overlapping :
    ∃ chunks, chunkProse (Runtime.bytewise [] simpleProduct) ⟨2, ⟨"0.5"⟩⟩ "aé" none "p" =
        .returned chunks ∧
      ("aé".toList.filter isSolid).Sublist (chunks.flatMap fun chunk => chunk.text.toList) := by
  refine characters_kept (tokenizes_bytewise (by simp) simpleProduct) rfl (by decide) (by decide)
    rfl (by simp [HoldsSpecial]) ?_ none "p"
  intro text member _ item inside _
  obtain rfl : text = "aé" := List.mem_singleton.mp member
  have items : item ∈ [(0, 'a'), (1, 'é')] := inside
  rcases List.mem_cons.mp items with rfl | last
  · exact ⟨0, by decide, by decide⟩
  · rw [List.mem_singleton.mp last]
    exact ⟨1, by decide, by decide⟩

/-- Windows of one byte show no character of two. -/
theorem characters_lost :
    chunkProse (Runtime.bytewise [] simpleProduct) ⟨1, ⟨"0.0"⟩⟩ "é" none "p" =
        .returned [⟨0, "\uFFFD", none, "p"⟩, ⟨1, "\uFFFD", none, "p"⟩] ∧
      ¬("é".toList.filter isSolid).Sublist ("\uFFFD".toList ++ "\uFFFD".toList) :=
  ⟨rfl, by decide⟩

/-! ### Shared text -/

/-- The second text begins with text the first ends in. -/
def Overlaps (previous next : String) : Prop :=
  ∃ core : List Char, core ≠ [] ∧ core <:+ previous.toList ∧ core <+: next.toList

/-- Texts that share more than white space overlap when they are stripped. -/
theorem overlaps_strip {shared previous next : String} (solid : Solid shared.toList)
    (ends : shared.toList <:+ previous.toList) (begins : shared.toList <+: next.toList) :
    Overlaps (strip previous) (strip next) := by
  refine ⟨(strip shared).toList, ?_, strip_suffix solid ends, strip_prefix solid begins⟩
  obtain ⟨character, member, _⟩ := (solid_strip_iff shared).mpr solid
  exact List.ne_nil_of_mem member

/-- The first tokens of the text end between two characters. -/
def CutsBetween (runtime : Runtime) (tokenBytes : Nat → List UInt8) (text : String) (count : Nat) :
    Prop :=
  ∃ before after, text.toList = before ++ after ∧
    byteAt tokenBytes (tokensOf runtime text) count = (Utf8.bytes before).length

/-- The tokens between two bounds are whole characters, and not white space only. -/
def SharesText (runtime : Runtime) (tokenBytes : Nat → List UInt8) (text : String)
    (span : Nat × Nat) : Prop :=
  CutsBetween runtime tokenBytes text span.1 ∧ CutsBetween runtime tokenBytes text span.2 ∧
    Solid (windowText runtime text span).toList

section

variable {text : String} {tokens : List Nat}

theorem bytes_eq_nil {characters : List Char} (none : (Utf8.bytes characters).length = 0) :
    characters = [] := by
  cases characters with
  | nil => rfl
  | cons character rest =>
    have positive := Utf8.size_pos character
    rw [Utf8.size] at positive
    rw [Utf8.bytes_cons, List.length_append] at none
    omega

/-- Between two cuts stand whole characters. -/
theorem exists_between {first second : Nat} (ordered : first ≤ second)
    (cutsFirst : CutsBetween runtime tokenBytes text first)
    (cutsSecond : CutsBetween runtime tokenBytes text second) :
    ∃ before between after, text.toList = before ++ between ++ after ∧
      byteAt tokenBytes (tokensOf runtime text) first = (Utf8.bytes before).length ∧
      byteAt tokenBytes (tokensOf runtime text) second =
        (Utf8.bytes (before ++ between)).length := by
  obtain ⟨before, behind, whole, starts⟩ := cutsFirst
  obtain ⟨longer, after, same, stops⟩ := cutsSecond
  have bytes := @byteAt_mono tokenBytes (tokensOf runtime text) _ _ ordered
  rw [starts, stops] at bytes
  rcases List.append_eq_append_iff.mp (whole.symm.trans same) with
    ⟨between, rfl, rfl⟩ | ⟨between, rfl, rfl⟩
  · exact ⟨before, between, after, by rw [whole, List.append_assoc], starts, stops⟩
  · rw [Utf8.bytes_append, List.length_append] at bytes
    obtain rfl := bytes_eq_nil (show (Utf8.bytes between).length = 0 by omega)
    rw [List.append_nil] at whole starts
    exact ⟨longer, [], behind, by simpa using whole, starts, by simpa using stops⟩

theorem windowText_between (tokenizes : Tokenizes tokenBytes specials runtime)
    (encoded : runtime.encode text = .ok tokens) {span : Nat × Nat} (ordered : span.1 ≤ span.2)
    {before between after : List Char} (whole : text.toList = before ++ between ++ after)
    (starts : byteAt tokenBytes tokens span.1 = (Utf8.bytes before).length)
    (stops : byteAt tokenBytes tokens span.2 = (Utf8.bytes (before ++ between)).length) :
    (windowText runtime text span).toList = between := by
  rw [windowText_eq tokenizes encoded ordered, starts, stops, whole,
    Utf8.bytes_append (before ++ between) after, List.take_left, Utf8.bytes_append, List.drop_left,
    Utf8.decode_bytes]

/-- A window that ends at a cut ends in what stands behind any cut in it. -/
theorem windowText_suffix (tokenizes : Tokenizes tokenBytes specials runtime)
    (encoded : runtime.encode text = .ok tokens) {start middle stop : Nat}
    (starts : start ≤ middle) (stops : middle ≤ stop)
    (cutsMiddle : CutsBetween runtime tokenBytes text middle)
    (cutsStop : CutsBetween runtime tokenBytes text stop) :
    (windowText runtime text (middle, stop)).toList <:+
      (windowText runtime text (start, stop)).toList := by
  obtain ⟨before, between, after, whole, atMiddle, atStop⟩ :=
    exists_between stops cutsMiddle cutsStop
  rw [tokensOf_eq encoded] at atMiddle atStop
  have bytes := @byteAt_mono tokenBytes tokens _ _ starts
  rw [atMiddle] at bytes
  obtain ⟨cut, rest, parts, _, continues⟩ := Utf8.drop_bytes before (byteAt tokenBytes tokens start)
  rw [windowText_between tokenizes encoded stops whole atMiddle atStop,
    windowText_eq tokenizes encoded (starts.trans stops), atStop, whole,
    Utf8.bytes_append (before ++ between) after, List.take_left, Utf8.bytes_append,
    List.drop_append_of_le_length bytes, parts,
    List.append_assoc, Utf8.decode_continuations continues, ← Utf8.bytes_append, Utf8.decode_bytes,
    ← List.append_assoc]
  exact List.suffix_append _ _

/-- A window that starts at a cut begins with what stands before any cut in it. -/
theorem windowText_begins (tokenizes : Tokenizes tokenBytes specials runtime)
    (encoded : runtime.encode text = .ok tokens) {start middle stop : Nat}
    (starts : start ≤ middle) (stops : middle ≤ stop)
    (cutsStart : CutsBetween runtime tokenBytes text start)
    (cutsMiddle : CutsBetween runtime tokenBytes text middle) :
    (windowText runtime text (start, middle)).toList <+:
      (windowText runtime text (start, stop)).toList := by
  obtain ⟨before, between, after, whole, atStart, atMiddle⟩ :=
    exists_between starts cutsStart cutsMiddle
  rw [tokensOf_eq encoded] at atStart atMiddle
  have bytes := @byteAt_mono tokenBytes tokens _ _ stops
  rw [atMiddle] at bytes
  rw [windowText_between tokenizes encoded starts whole atStart atMiddle,
    windowText_eq tokenizes encoded (starts.trans stops), atStart, whole,
    Utf8.bytes_append (before ++ between) after, List.take_append, List.take_of_length_le bytes,
    Utf8.bytes_append, List.append_assoc,
    List.drop_left, Utf8.decode_bytes_append]
  exact List.prefix_append _ _

/-- A text that shows something has tokens. -/
theorem exists_encoded (tokenizes : Tokenizes tokenBytes specials runtime) {span : Nat × Nat}
    (solid : Solid (windowText runtime text span).toList) :
    span.1 ≤ span.2 ∧ ∃ tokens, runtime.encode text = .ok tokens := by
  have nothing : (runtime.decode []).toList = [] := by
    rw [tokenizes.decodes]
    rfl
  obtain ⟨character, member, _⟩ := solid
  rw [windowText] at member
  refine ⟨?_, ?_⟩
  · by_contra beyond
    rw [List.drop_eq_nil_of_le (by rw [List.length_take]; omega), nothing] at member
    cases member
  · cases encoded : runtime.encode text with
    | ok tokens => exact ⟨tokens, rfl⟩
    | error error =>
      rw [tokensOf, encoded] at member
      simp only [List.take_nil, List.drop_nil, nothing] at member
      cases member

end

/-! ### Adjacent chunks -/

/-- Where the text carried over stands among the tokens of the accumulated text. -/
def tailSpan (runtime : Runtime) (overlapTokens : Int) (text : String) : Nat × Nat :=
  ((tokensOf runtime text).length - overlapTokens.toNat, (tokensOf runtime text).length)

/-- Every chunk that is closed shares text with the next: no chunk stands next to a large section's,
and what is shared is whole characters and not white space only. -/
def ClosesShared (runtime : Runtime) (tokenBytes : Nat → List UInt8)
    (targetTokens overlapTokens : Int) : Bool → String → List String → Prop
  | _, _, [] => True
  | closed, currentChunkText, text :: rest =>
    if IsLarge runtime targetTokens text then
      closed = false ∧ blank currentChunkText = true ∧ rest = [] ∧
        (spansOf runtime targetTokens overlapTokens text).IsChain fun first second =>
          SharesText runtime tokenBytes text (second.1, first.2)
    else if Overflows runtime targetTokens currentChunkText text then
      SharesText runtime tokenBytes currentChunkText
          (tailSpan runtime overlapTokens currentChunkText) ∧
        ClosesShared runtime tokenBytes targetTokens overlapTokens true
          (carried runtime overlapTokens currentChunkText ++ text) rest
    else ClosesShared runtime tokenBytes targetTokens overlapTokens closed
      (currentChunkText ++ text) rest

/-- The windows of a large section overlap when what they share is text. -/
theorem overlaps_pieces (tokenizes : Tokenizes tokenBytes specials runtime) {text : String}
    (shares : (spansOf runtime targetTokens overlapTokens text).IsChain fun first second =>
      SharesText runtime tokenBytes text (second.1, first.2)) :
    ((pieces runtime targetTokens overlapTokens text).map strip).IsChain Overlaps := by
  rw [pieces, List.isChain_map, List.isChain_map]
  rw [List.isChain_iff_forall_rel_of_append_cons_cons] at shares ⊢
  intro first second before after whole
  obtain ⟨cutsStart, cutsStop, solid⟩ := shares whole
  obtain ⟨inside, tokens, encoded⟩ := exists_encoded tokenizes solid
  have ordered := @Windows.pairwise_spans (tokensOf runtime text).length targetTokens.toNat
    (targetTokens.toNat - overlapTokens.toNat) ((tokensOf runtime text).length + 1) 0
    (Nat.zero_le _) (Nat.sub_le _ _)
  rw [← spansOf, whole] at ordered
  obtain ⟨starts, stops⟩ := (List.pairwise_cons.mp (List.pairwise_append.mp ordered).2.1).1 second
    List.mem_cons_self
  exact overlaps_strip solid (windowText_suffix tokenizes encoded starts inside cutsStart cutsStop)
    (windowText_begins tokenizes encoded inside stops cutsStart cutsStop)

/-- All the tokens of a text show it. -/
theorem windowText_whole (tokenizes : Tokenizes tokenBytes specials runtime) {text : String}
    {tokens : List Nat} (encoded : runtime.encode text = .ok tokens) :
    (windowText runtime text (0, tokens.length)).toList = text.toList ∧
      CutsBetween runtime tokenBytes text 0 ∧ CutsBetween runtime tokenBytes text tokens.length := by
  have all : byteAt tokenBytes tokens tokens.length = (Utf8.bytes text.toList).length := by
    rw [byteAt, List.take_length, tokenizes.encodes encoded]
  have shown := @windowText_between _ _ _ _ _ tokenizes encoded (0, tokens.length) (Nat.zero_le _)
    [] text.toList [] (by simp) (by simp [byteAt]) all
  refine ⟨shown, ?_, ?_⟩
  · exact ⟨[], text.toList, rfl, by simp [byteAt]⟩
  · exact ⟨text.toList, [], by simp, by rw [tokensOf_eq encoded, all]⟩

/-- What is carried over begins with text the accumulated text ends in. -/
theorem carried_shares (tokenizes : Tokenizes tokenBytes specials runtime)
    (positive : 1 ≤ overlapTokens) {text : String}
    (shares : SharesText runtime tokenBytes text (tailSpan runtime overlapTokens text)) :
    (windowText runtime text (tailSpan runtime overlapTokens text)).toList <:+ text.toList ∧
      (windowText runtime text (tailSpan runtime overlapTokens text)).toList <+:
        (carried runtime overlapTokens text).toList := by
  obtain ⟨cutsStart, cutsStop, solid⟩ := shares
  obtain ⟨inside, tokens, encoded⟩ := exists_encoded tokenizes solid
  obtain ⟨whole, -, -⟩ := windowText_whole tokenizes encoded
  rw [tailSpan, tokensOf_eq encoded] at *
  constructor
  · rw [← whole]
    exact windowText_suffix tokenizes encoded (Nat.zero_le _) inside cutsStart cutsStop
  · rw [carried, if_pos (by omega), tokensOf_eq encoded]
    split
    · rename_i short
      have start : tokens.length - overlapTokens.toNat = 0 := by omega
      exact ⟨[], by rw [start, whole, List.append_nil]⟩
    · rw [windowText, tokensOf_eq encoded, List.take_length, String.toList_append]
      exact List.prefix_append _ _

/-- The texts overlap from one to the next, and the first of them begins with what is accumulated
once a chunk was closed. -/
theorem overlaps_chunkTexts (tokenizes : Tokenizes tokenBytes specials runtime)
    (positive : 1 ≤ overlapTokens) {sections : List String} {closed : Bool}
    {currentChunkText : String}
    (shares : ClosesShared runtime tokenBytes targetTokens overlapTokens closed currentChunkText
      sections) :
    ((chunkTexts runtime targetTokens overlapTokens currentChunkText sections).map
        strip).IsChain Overlaps ∧
      (closed = true → ∀ text ∈ (chunkTexts runtime targetTokens overlapTokens currentChunkText
        sections).head?, currentChunkText.toList <+: text.toList) := by
  induction sections generalizing closed currentChunkText with
  | nil =>
    rw [chunkTexts, unlessBlank]
    split
    · exact ⟨List.isChain_nil, fun _ text none => by cases none⟩
    · refine ⟨List.isChain_singleton _, fun _ text first => ?_⟩
      obtain rfl := Option.mem_some_iff.mp first
      exact List.prefix_refl _
  | cons text rest inductionHypothesis =>
    rw [ClosesShared] at shares
    rw [chunkTexts]
    split at shares
    · rename_i large
      obtain ⟨first, blanks, rfl, windows⟩ := shares
      rw [if_pos large, if_pos blanks, chunkTexts, unlessBlank, if_pos blanks, List.nil_append,
        List.append_nil]
      refine ⟨overlaps_pieces tokenizes windows, fun last => ?_⟩
      rw [first] at last
      cases last
    rename_i small
    rw [if_neg small]
    split at shares
    · rename_i overflows
      obtain ⟨shared, later⟩ := shares
      obtain ⟨chain, begins⟩ := inductionHypothesis later
      obtain ⟨ends, carries⟩ := carried_shares tokenizes positive shared
      rw [if_pos overflows]
      refine ⟨?_, fun _ other first => ?_⟩
      · refine List.IsChain.cons chain ?_
        intro next member
        rw [List.head?_map] at member
        obtain ⟨whole, first, rfl⟩ := Option.map_eq_some_iff.mp member
        refine overlaps_strip shared.2.2 ends ?_
        refine carries.trans ((List.prefix_append _ text.toList).trans ?_)
        rw [← String.toList_append]
        exact begins rfl whole first
      · obtain rfl := Option.mem_some_iff.mp first
        exact List.prefix_refl _
    · rename_i fits
      obtain ⟨chain, begins⟩ := inductionHypothesis shares
      rw [if_neg fits]
      refine ⟨chain, fun last other first => ?_⟩
      refine List.IsPrefix.trans ?_ (begins last other first)
      rw [String.toList_append]
      exact List.prefix_append _ _

/-- Adjacent chunks of a body without special tokens overlap, when no chunk stands next to those of
a large section and what is shared is whole characters and not white space only. -/
theorem chunks_overlap (tokenizes : Tokenizes tokenBytes specials runtime)
    (product : runtime.truncatedProduct settings.chunkTargetTokens
      settings.chunkOverlapRatio = .ok overlapTokens)
    (positive : 1 ≤ overlapTokens) (less : overlapTokens < settings.chunkTargetTokens)
    (free : ¬HoldsSpecial specials body)
    (shares : ClosesShared runtime tokenBytes settings.chunkTargetTokens overlapTokens false ""
      (splitIntoSections body)) (sourceRef : Option String) (project : String) :
    ∃ chunks, chunkProse runtime settings body sourceRef project = .returned chunks ∧
      chunks.IsChain fun previous next => Overlaps previous.text next.text := by
  have target : 1 ≤ settings.chunkTargetTokens := by omega
  obtain ⟨chunks, returned⟩ := (@chunkProse_returns_iff _ _ sourceRef project _ _ tokenizes _ body
    product target less).mpr free
  refine ⟨chunks, returned, ?_⟩
  have texts := text_of_chunkProse product target less returned
  have chain : (chunks.map Chunk.text).IsChain Overlaps := by
    rw [texts, textsOf]
    split
    · exact List.isChain_nil
    · exact (overlaps_chunkTexts tokenizes positive shares).1
  rwa [List.isChain_map] at chain

/-- Two sections of a body that do not fit in one chunk share half of the first. -/
theorem chunks_overlap_half :
    ∃ chunks, chunkProse (Runtime.bytewise [] simpleProduct) ⟨4, ⟨"0.5"⟩⟩ "# a\n# b" none "p" =
        .returned chunks ∧
      chunks.IsChain fun previous next => Overlaps previous.text next.text := by
  have shares : ClosesShared (Runtime.bytewise [] simpleProduct) (fun token => [UInt8.ofNat token])
      4 2 false "" ["# a\n", "# b"] := by
    rw [ClosesShared, if_neg (by decide), if_neg (by decide), ClosesShared, if_neg (by decide),
      if_pos (by decide)]
    refine ⟨⟨⟨['#', ' '], ['a', '\n'], by decide, by decide⟩,
      ⟨['#', ' ', 'a', '\n'], [], by decide, by decide⟩, 'a', by decide, by decide⟩, ?_⟩
    trivial
  exact chunks_overlap (tokenizes_bytewise (by simp) simpleProduct) rfl (by decide) (by decide)
    (by simp [HoldsSpecial]) shares none "p"

/-- Nothing is carried into a large section: its first chunk shares no text with the one before. -/
theorem chunks_apart :
    chunkProse (Runtime.bytewise [] simpleProduct) ⟨4, ⟨"0.5"⟩⟩ "ab\n# cdefg" none "p" =
        .returned [⟨0, "ab", none, "p"⟩, ⟨1, "# cd", none, "p"⟩, ⟨2, "cdef", none, "p"⟩,
          ⟨3, "efg", none, "p"⟩] ∧
      ¬Overlaps "ab" "# cd" := by
  refine ⟨rfl, ?_⟩
  rintro ⟨core, nonempty, ends, begins⟩
  obtain ⟨character, rest, rfl⟩ := List.exists_cons_of_ne_nil nonempty
  have heads : character = '#' := by
    obtain ⟨after, parts⟩ := begins
    exact (List.cons.inj parts).1
  have inside : character ∈ ['a', 'b'] := ends.subset List.mem_cons_self
  rw [heads] at inside
  revert inside
  decide

end FleetMemory
