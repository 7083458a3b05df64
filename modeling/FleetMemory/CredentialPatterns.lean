/-
This file models the four patterns by which a tool error is cleaned of credentials, as `re` matches
them: database URLs, web URLs, a host with its port, and the path of a key file. A match never goes
beyond a space, and one of the last two never beyond a letter that is in none of their classes.
-/

import FleetMemory.Redaction
import FleetMemory.Text

namespace FleetMemory

open Redaction

/-! ### Classes of letters -/

/-- The letters that `\w` and `\d` stand for, of which only the ASCII ones are fixed here. -/
structure CharClasses where
  word : Char → Bool
  digit : Char → Bool
  word_ascii : ∀ letter : Char, letter.toNat < 128 → word letter = Text.word letter
  digit_ascii : ∀ letter : Char, letter.toNat < 128 → digit letter = letter.isDigit
  word_of_digit : ∀ letter, digit letter = true → word letter = true
  solid_of_word : ∀ letter, word letter = true → Text.isSpace letter = false

/-- The ASCII letters of the classes. -/
def asciiClasses : CharClasses where
  word := Text.word
  digit := Char.isDigit
  word_ascii := fun _ _ => rfl
  digit_ascii := fun _ _ => rfl
  word_of_digit := by
    intro letter digit
    rw [Text.word, digit, Bool.or_true, Bool.true_or]
  solid_of_word := fun _ inWord =>
    Text.isSpace_eq_false_of_code (Text.code_of_word inWord).1 (Text.code_of_word inWord).2

/-- `[^\s]`. -/
def solid (letter : Char) : Bool :=
  !Text.isSpace letter

/-- The letters that `\s` stands for. -/
def Space (letter : Char) : Prop :=
  Text.isSpace letter = true

instance : DecidablePred Space :=
  fun _ => inferInstanceAs (Decidable (_ = _))

theorem takeWhile_block {inClass : Char → Bool} {letter : Char} (outside : inClass letter = false)
    (text rest : List Char) :
    (text ++ letter :: rest).takeWhile inClass = text.takeWhile inClass := by
  induction text with
  | nil => rw [List.nil_append, List.takeWhile_cons_of_neg (by simp [outside])]; rfl
  | cons head text inductionHypothesis =>
    rw [List.cons_append, List.takeWhile_cons, List.takeWhile_cons, inductionHypothesis]

theorem dropWhile_block {inClass : Char → Bool} {letter : Char} (outside : inClass letter = false)
    (text rest : List Char) :
    (text ++ letter :: rest).dropWhile inClass = text.dropWhile inClass ++ letter :: rest := by
  induction text with
  | nil => rw [List.nil_append, List.dropWhile_cons_of_neg (by simp [outside])]; rfl
  | cons head text inductionHypothesis =>
    rw [List.cons_append, List.dropWhile_cons, List.dropWhile_cons, inductionHypothesis]
    split
    · rfl
    · rw [List.cons_append]

/-- What does not hold a letter begins a text with it if it begins what stands before. -/
theorem prefix_block_iff {letter : Char} {opening text rest : List Char}
    (outside : letter ∉ opening) : opening <+: text ++ letter :: rest ↔ opening <+: text := by
  refine ⟨fun inside => ?_, fun inside => inside.trans (List.prefix_append _ _)⟩
  rcases List.prefix_or_prefix_of_prefix inside (List.prefix_append text (letter :: rest)) with
    short | ⟨more, rfl⟩
  · exact short
  · cases more with
    | nil => rw [List.append_nil]
    | cons head more =>
      have heads : head = letter :=
        (List.cons_prefix_cons.mp ((List.prefix_append_right_inj text).mp inside)).1
      exact absurd (by simp [heads]) outside

/-! ### URLs -/

/-- How many letters a scheme and the solid letters behind it match. -/
def schemeMatch (text : List Char) (scheme : String) : Option Nat :=
  let run := (text.drop scheme.toList.length).takeWhile solid
  if scheme.toList <+: text ∧ run ≠ [] then some (scheme.toList.length + run.length) else none

/-- `scheme[^\s]+` of one of some schemes. -/
def urlPattern (schemes : List String) : Pattern Char :=
  fun _ text => schemes.findSome? (schemeMatch text)

/-- `postgresql://[^\s]+`. -/
def databasePattern : Pattern Char :=
  urlPattern ["postgresql://"]

/-- `https?://[^\s]+`. -/
def webPattern : Pattern Char :=
  urlPattern ["https://", "http://"]

theorem schemeMatch_eq_some {text : List Char} {scheme : String} {count : Nat} :
    schemeMatch text scheme = some count ↔
      scheme.toList <+: text ∧ (text.drop scheme.toList.length).takeWhile solid ≠ [] ∧
        count = scheme.toList.length +
          ((text.drop scheme.toList.length).takeWhile solid).length := by
  unfold schemeMatch
  dsimp only
  split
  · rename_i both
    rw [Option.some.injEq, eq_comm]
    simp [both]
  · rename_i neither
    simp only [reduceCtorEq, false_iff]
    exact fun both => neither ⟨both.1, both.2.1⟩

theorem sound_urlPattern (schemes : List String) : SoundPattern (urlPattern schemes) where
  pos := by
    intro previous text count matched
    obtain ⟨scheme, -, found⟩ := List.exists_of_findSome?_eq_some matched
    obtain ⟨-, some_run, rfl⟩ := schemeMatch_eq_some.mp found
    have := List.length_pos_iff.mpr some_run
    omega
  le := by
    intro previous text count matched
    obtain ⟨scheme, -, found⟩ := List.exists_of_findSome?_eq_some matched
    obtain ⟨opens, -, rfl⟩ := schemeMatch_eq_some.mp found
    have bound := (List.takeWhile_sublist (l := text.drop scheme.toList.length) solid).length_le
    have enough := opens.length_le
    rw [List.length_drop] at bound
    omega

theorem ahead_urlPattern (schemes : List String) : LooksAhead (urlPattern schemes) :=
  fun _ _ => rfl

theorem stops_urlPattern {schemes : List String}
    (spaceless : ∀ scheme ∈ schemes, ∀ letter ∈ scheme.toList, Text.isSpace letter = false) :
    StopsAt (urlPattern schemes) Space where
  ends := by
    intro letter space previous text rest
    have outside : solid letter = false := by
      rw [solid, space, Bool.not_true]
    have same : ∀ scheme ∈ schemes,
        schemeMatch (text ++ letter :: rest) scheme = schemeMatch text scheme := by
      intro scheme member
      have absent : letter ∉ scheme.toList := fun inside => by
        have solidLetter := spaceless scheme member letter inside
        rw [space] at solidLetter
        cases solidLetter
      refine Option.ext fun count => ?_
      rw [schemeMatch_eq_some, schemeMatch_eq_some, prefix_block_iff absent]
      refine and_congr_right fun opens => ?_
      rw [List.drop_append_of_le_length opens.length_le, takeWhile_block outside]
    unfold urlPattern
    induction schemes with
    | nil => rfl
    | cons scheme others inductionHypothesis =>
      rw [List.findSome?_cons, List.findSome?_cons, same scheme List.mem_cons_self,
        inductionHypothesis (fun other member => spaceless other (List.mem_cons_of_mem _ member))
          fun other member => same other (List.mem_cons_of_mem _ member)]
  forgets := fun _ _ => rfl

/-- In a text without spaces a URL matches where a scheme stands with something behind it. -/
theorem urlPattern_isSome_iff {schemes : List String} {text : List Char}
    (spaceless : ∀ letter ∈ text, Text.isSpace letter = false) :
    (urlPattern schemes none text).isSome = true ↔
      ∃ scheme ∈ schemes, ∃ rest, rest ≠ [] ∧ text = scheme.toList ++ rest := by
  rw [urlPattern, List.findSome?_isSome_iff]
  refine exists_congr fun scheme => and_congr_right fun _ => ?_
  rw [Option.isSome_iff_exists]
  simp only [schemeMatch_eq_some]
  constructor
  · rintro ⟨_, ⟨rest, rfl⟩, some_run, -⟩
    refine ⟨rest, ?_, rfl⟩
    rintro rfl
    exact some_run (by simp)
  · rintro ⟨rest, some_rest, rfl⟩
    refine ⟨_, List.prefix_append _ _, ?_, rfl⟩
    obtain ⟨letter, others, rfl⟩ := List.exists_cons_of_ne_nil some_rest
    have solidLetter : solid letter = true := by
      rw [solid, spaceless letter (by simp), Bool.not_false]
    rw [List.drop_left, List.takeWhile_cons_of_pos solidLetter]
    exact List.cons_ne_nil _ _

/-- In a text without spaces a URL takes all that is left. -/
theorem urlPattern_swallows {schemes : List String} {text : List Char} {count : Nat}
    (spaceless : ∀ letter ∈ text, Text.isSpace letter = false)
    (matched : urlPattern schemes none text = some count) : count = text.length := by
  obtain ⟨scheme, -, found⟩ := List.exists_of_findSome?_eq_some matched
  obtain ⟨⟨rest, rfl⟩, -, rfl⟩ := schemeMatch_eq_some.mp found
  have all : rest.takeWhile solid = rest := by
    rw [List.takeWhile_eq_self_iff]
    intro letter member
    rw [solid, spaceless letter (List.mem_append_right _ member), Bool.not_false]
  rw [List.drop_left, all, List.length_append]

/-! ### Hosts with their ports -/

section

variable (classes : CharClasses)

/-- `[\w.-]`. -/
def nameChar (letter : Char) : Bool :=
  classes.word letter || letter == '.' || letter == '-'

/-- `\b` between two letters, or at an end of the text. -/
def boundary (before after : Option Char) : Bool :=
  before.any classes.word != after.any classes.word

/-- `\b[\w.-]+:\d{2,5}\b`. No shorter name and no fewer digits match where the longest do not. -/
def hostPortPattern : Pattern Char := fun previous text =>
  let name := text.takeWhile (nameChar classes)
  match text.dropWhile (nameChar classes) with
  | ':' :: rest =>
    let port := rest.takeWhile classes.digit
    if boundary classes previous text.head? = true ∧ name ≠ [] ∧ 2 ≤ port.length ∧ port.length ≤ 5 ∧
        (rest.dropWhile classes.digit).head?.any classes.word = false then
      some (name.length + 1 + port.length)
    else none
  | _ => none

/-- The letters that are no part of a host with its port. -/
def PortBlock (letter : Char) : Prop :=
  nameChar classes letter = false ∧ letter ≠ ':'

variable {classes}

theorem hostPortPattern_eq_some {previous : Option Char} {text : List Char} {count : Nat}
    (matched : hostPortPattern classes previous text = some count) :
    ∃ name port rest, text = name ++ ':' :: (port ++ rest) ∧ name ≠ [] ∧ port ≠ [] ∧
      count = name.length + 1 + port.length := by
  unfold hostPortPattern at matched
  dsimp only at matched
  split at matched
  · rename_i rest dropped
    split at matched
    · rename_i conditions
      obtain ⟨-, some_name, two, -, -⟩ := conditions
      refine ⟨_, rest.takeWhile classes.digit, rest.dropWhile classes.digit, ?_, some_name, ?_,
        (Option.some.inj matched).symm⟩
      · rw [List.takeWhile_append_dropWhile, ← dropped, List.takeWhile_append_dropWhile]
      · rintro none_port
        rw [none_port] at two
        cases two
    · cases matched
  · cases matched

theorem sound_hostPortPattern : SoundPattern (hostPortPattern classes) where
  pos := by
    intro previous text count matched
    obtain ⟨name, port, rest, -, -, -, rfl⟩ := hostPortPattern_eq_some matched
    omega
  le := by
    intro previous text count matched
    obtain ⟨name, port, rest, rfl, -, -, rfl⟩ := hostPortPattern_eq_some matched
    simp only [List.length_append, List.length_cons]
    omega

theorem stops_hostPortPattern : StopsAt (hostPortPattern classes) (PortBlock classes) where
  ends := by
    rintro letter ⟨outside, noColon⟩ previous text rest
    have noWord : classes.word letter = false := by
      simp only [nameChar, Bool.or_eq_false_iff] at outside
      exact outside.1.1
    have noDigit : classes.digit letter = false := by
      cases digit : classes.digit letter with
      | false => rfl
      | true => rw [classes.word_of_digit letter digit] at noWord; cases noWord
    unfold hostPortPattern
    rw [takeWhile_block outside, dropWhile_block outside]
    cases dropped : text.dropWhile (nameChar classes) with
    | nil =>
      rw [List.nil_append]
      dsimp only
      split
      · rename_i same
        exact absurd (List.cons.inj same).1 noColon
      · rfl
    | cons head tail =>
      have some_text : text ≠ [] := by
        rintro rfl
        cases dropped
      have heads : (text ++ letter :: rest).head? = text.head? :=
        List.head?_append_of_ne_nil _ some_text
      have follows : ((tail ++ letter :: rest).dropWhile classes.digit).head?.any classes.word =
          (tail.dropWhile classes.digit).head?.any classes.word := by
        rw [dropWhile_block noDigit]
        cases tail.dropWhile classes.digit with
        | nil => simp [noWord]
        | cons next others => rfl
      rw [List.cons_append, heads]
      split
      · rename_i same
        obtain ⟨rfl, rfl⟩ := List.cons.inj same
        simp only [takeWhile_block noDigit, follows]
      · rename_i other
        split
        · rename_i same
          obtain ⟨rfl, rfl⟩ := List.cons.inj same
          exact absurd rfl (other _)
        · rfl
  forgets := by
    rintro letter ⟨outside, -⟩ text
    have noWord : classes.word letter = false := by
      simp only [nameChar, Bool.or_eq_false_iff] at outside
      exact outside.1.1
    have same : boundary classes (some letter) = boundary classes none := by
      funext after
      rw [boundary, boundary, Option.any_some, noWord, Option.any_none]
    unfold hostPortPattern
    rw [same]

/-! ### Paths of key files -/

variable (classes)

/-- `\.(key|pem|crt|token)`. -/
def keyExtensions : List String :=
  [".key", ".pem", ".crt", ".token"]

/-- Where the longest match of `[\w.-]+\.(key|pem|crt|token)` in a path's segment ends. -/
def extensionEnd (segment : List Char) : Option Nat :=
  (List.range (segment.length + 1)).reverse.find? fun count =>
    keyExtensions.any fun extension =>
      extension.toList.isSuffixOf (segment.take count) && extension.toList.length < count

/-- Where the match of `([\w.-]+/)*[\w.-]+\.(key|pem|crt|token)` in a path's segments ends: as many
segments are taken as can be. -/
def pathEnd : List (List Char) → Option Nat
  | [] => none
  | segment :: others =>
    if segment = [] then none
    else
      match pathEnd others with
      | some count => some (segment.length + 1 + count)
      | none => extensionEnd segment

/-- The letters of a path: those of a name, and slashes. -/
def pathChar (letter : Char) : Bool :=
  nameChar classes letter || letter == '/'

/-- `/([\w.-]+/)*[\w.-]+\.(key|pem|crt|token)`. -/
def keyFilePattern : Pattern Char := fun _ text =>
  match text with
  | '/' :: rest => (pathEnd ((rest.takeWhile (pathChar classes)).splitOn '/')).map (· + 1)
  | _ => none

/-- The letters that are no part of a path. -/
def PathBlock (letter : Char) : Prop :=
  pathChar classes letter = false

variable {classes}

theorem extensionEnd_le {segment : List Char} {count : Nat}
    (found : extensionEnd segment = some count) : count ≤ segment.length := by
  have member := List.mem_of_find?_eq_some found
  rw [List.mem_reverse, List.mem_range] at member
  omega

theorem pathEnd_le {segments : List (List Char)} {count : Nat}
    (found : pathEnd segments = some count) :
    count ≤ (['/'].intercalate segments).length := by
  induction segments generalizing count with
  | nil => cases found
  | cons segment others inductionHypothesis =>
    have front : segment.length ≤ (['/'].intercalate (segment :: others)).length := by
      cases others with
      | nil => simp [List.intercalate]
      | cons next others => simp [List.intercalate_cons_cons]
    rw [pathEnd] at found
    split at found
    · cases found
    split at found
    · rename_i later laterFound
      obtain rfl := Option.some.inj found
      have bound := inductionHypothesis laterFound
      cases others with
      | nil => cases laterFound
      | cons next others =>
        simp only [List.intercalate_cons_cons, List.length_append, List.length_singleton]
        omega
    · exact (extensionEnd_le found).trans front

theorem keyFilePattern_eq_some {previous : Option Char} {text : List Char} {count : Nat}
    (matched : keyFilePattern classes previous text = some count) :
    0 < count ∧ ∃ rest, text = '/' :: rest ∧ count ≤ text.length := by
  unfold keyFilePattern at matched
  split at matched
  · rename_i rest
    obtain ⟨less, found, rfl⟩ := Option.map_eq_some_iff.mp matched
    have bound := pathEnd_le found
    rw [List.intercalate_splitOn] at bound
    have within := (List.takeWhile_sublist (l := rest) (pathChar classes)).length_le
    refine ⟨Nat.succ_pos _, rest, rfl, ?_⟩
    rw [List.length_cons]
    omega
  · cases matched

theorem sound_keyFilePattern : SoundPattern (keyFilePattern classes) where
  pos := fun matched => (keyFilePattern_eq_some matched).1
  le := fun matched => by
    obtain ⟨-, rest, -, bound⟩ := keyFilePattern_eq_some matched
    exact bound

theorem ahead_keyFilePattern : LooksAhead (keyFilePattern classes) :=
  fun _ _ => rfl

theorem stops_keyFilePattern : StopsAt (keyFilePattern classes) (PathBlock classes) where
  ends := by
    intro letter outside previous text rest
    cases text with
    | nil =>
      have noSlash : letter ≠ '/' := by
        rintro rfl
        simp [PathBlock, pathChar] at outside
      unfold keyFilePattern
      rw [List.nil_append]
      split
      · rename_i same
        exact absurd (List.cons.inj same).1 noSlash
      · rfl
    | cons head tail =>
      unfold keyFilePattern
      rw [List.cons_append]
      split
      · rename_i same
        obtain ⟨rfl, rfl⟩ := List.cons.inj same
        rw [takeWhile_block outside]
        rfl
      · rename_i other
        split
        · rename_i same
          obtain ⟨rfl, rfl⟩ := List.cons.inj same
          exact absurd rfl (other _)
        · rfl
  forgets := fun _ _ => rfl

end

end FleetMemory
