/-
This file models the four passes that clean a tool error and follows one secret through them: each
pass either reaches the secret, which is then gone, or leaves it once in its place with the same
letters around it, so that what reaches it is told from its own word.
-/

import FleetMemory.CredentialPatterns
import FleetMemory.Tools
import Mathlib.Data.Bool.AllAny

namespace FleetMemory

open Redaction

/-! ### The four passes -/

/-- What a database URL is replaced by. -/
def databaseMarker : String := "[DATABASE_DSN_REDACTED]"

/-- What a web URL is replaced by. -/
def urlMarker : String := "[URL_REDACTED]"

/-- What a host with its port is replaced by. -/
def hostPortMarker : String := "[HOST_PORT_REDACTED]"

/-- What the path of a key file is replaced by. -/
def filePathMarker : String := "[FILE_PATH_REDACTED]"

section

variable (classes : CharClasses)

/-- The four passes of `_sanitize_message`. -/
def cleanedText (text : List Char) : List Char :=
  let text := substitute databasePattern databaseMarker.toList text
  let text := substitute webPattern urlMarker.toList text
  let text := substitute (hostPortPattern classes) hostPortMarker.toList text
  substitute (keyFilePattern classes) filePathMarker.toList text

/-- `re.sub` replaces what the four patterns match. -/
structure Redacts (runtime : Runtime) : Prop where
  database : ∀ text, runtime.sub "postgresql://[^\\s]+" databaseMarker text =
    String.ofList (substitute databasePattern databaseMarker.toList text.toList)
  web : ∀ text, runtime.sub "https?://[^\\s]+" urlMarker text =
    String.ofList (substitute webPattern urlMarker.toList text.toList)
  hostPort : ∀ text, runtime.sub "\\b[\\w.-]+:\\d\x7b2,5\x7d\\b" hostPortMarker text =
    String.ofList (substitute (hostPortPattern classes) hostPortMarker.toList text.toList)
  keyFile : ∀ text,
    runtime.sub "/([\\w.-]+/)*[\\w.-]+\\.(key|pem|crt|token)" filePathMarker text =
      String.ofList (substitute (keyFilePattern classes) filePathMarker.toList text.toList)

variable {classes}

theorem Redacts.toList_sanitizeMessage {runtime : Runtime} (redacts : Redacts classes runtime)
    (message : String) :
    (sanitizeMessage runtime message).toList = cleanedText classes message.toList := by
  have database := redacts.database
  have web := redacts.web
  have hostPort := redacts.hostPort
  have keyFile := redacts.keyFile
  simp only [databaseMarker, urlMarker, hostPortMarker, filePathMarker]
    at database web hostPort keyFile
  rw [sanitizeMessage]
  simp only [database, web, hostPort, keyFile, String.toList_ofList, cleanedText, databaseMarker,
    urlMarker, hostPortMarker, filePathMarker]

/-! ### A password in its word -/

variable (classes) in
/-- A letter that ends what the last two patterns match. -/
def Delimiter (letter : Char) : Prop :=
  PortBlock classes letter ∧ PathBlock classes letter

variable (classes) in
/-- A secret in a text: what stands in the words before its own, in its word before it (the last
part of which may be the name of a host), in its word behind it, and in the words behind. -/
structure SecretPlace (secret : List Char) where
  far : List Char
  near : List Char
  host : List Char
  after : List Char
  beyond : List Char
  farClosed : ClosedBy Space far
  spaceless : ∀ letter ∈ near ++ (host ++ (secret ++ after)), Text.isSpace letter = false
  colonless : ':' ∉ host.dropLast
  portClosed : ClosedBy (PortBlock classes) (far ++ near)
  pathClosed : ClosedBy (PathBlock classes) (far ++ (near ++ host))
  afterOpened : OpenedBy (Delimiter classes) (after ++ beyond)
  beyondOpened : OpenedBy Space beyond

namespace SecretPlace

variable {secret : List Char}

/-- What stands before the secret. -/
def lead (placed : SecretPlace classes secret) : List Char :=
  placed.far ++ (placed.near ++ placed.host)

/-- What stands behind the secret. -/
def trail (placed : SecretPlace classes secret) : List Char :=
  placed.after ++ placed.beyond

/-- The word of the secret, up to one letter behind it. -/
def word (placed : SecretPlace classes secret) : List Char :=
  placed.near ++ (placed.host ++ (secret ++ placed.after.take 1))

/-! ### The passes that take the rest of a word -/

/-- The schemes of a pattern are made of letters that are no delimiters. -/
structure Schemes (schemes : List String) : Prop where
  nonempty : ∀ scheme ∈ schemes, scheme.toList ≠ []
  letters : ∀ scheme ∈ schemes, ∀ letter ∈ scheme.toList,
    letter.isLower = true ∨ letter = ':' ∨ letter = '/'

theorem word_of_isLower {letter : Char} (lower : letter.isLower = true) :
    Text.word letter = true := by
  rw [Text.word, lower]
  rfl

theorem Schemes.spaceless {schemes : List String} (plain : Schemes schemes) :
    ∀ scheme ∈ schemes, ∀ letter ∈ scheme.toList, Text.isSpace letter = false := by
  intro scheme member letter inside
  rcases plain.letters scheme member letter inside with lower | rfl | rfl
  · have code := Text.code_of_word (word_of_isLower lower)
    exact Text.isSpace_eq_false_of_code code.1 code.2
  · decide
  · decide

theorem Schemes.not_delimiter {schemes : List String} (plain : Schemes schemes) :
    ∀ scheme ∈ schemes, ∀ letter ∈ scheme.toList, ¬Delimiter classes letter := by
  rintro scheme member letter inside ⟨⟨noName, noColon⟩, noPath⟩
  rcases plain.letters scheme member letter inside with lower | rfl | rfl
  · have wordLetter : classes.word letter = true := by
      have code := Text.code_of_word (word_of_isLower lower)
      rw [classes.word_ascii letter (by omega), word_of_isLower lower]
    rw [nameChar, wordLetter] at noName
    cases noName
  · exact noColon rfl
  · rw [PathBlock, pathChar, Bool.or_eq_false_iff] at noPath
    exact absurd noPath.2 (by decide)

section

variable {schemes : List String} {marker : List Char}

/-- Before the letter behind the secret no URL starts, if none is found up to there. -/
theorem url_unmatched (placed : SecretPlace classes secret) (plain : Schemes schemes)
    (missing : occurs (urlPattern schemes) placed.word = false) {before rest : List Char}
    (split : placed.near ++ (placed.host ++ secret) = before ++ rest) :
    urlPattern schemes none (rest ++ placed.after) = none := by
  by_contra matched
  have solidRest : ∀ letter ∈ rest ++ placed.after, Text.isSpace letter = false := by
    intro letter member
    refine placed.spaceless letter ?_
    rw [← List.append_assoc placed.host, ← List.append_assoc, split, List.append_assoc]
    exact List.mem_append_right _ member
  obtain ⟨scheme, member, tail, some_tail, same⟩ :=
    (urlPattern_isSome_iff solidRest).mp (Option.isSome_iff_ne_none.mpr matched)
  have opens : scheme.toList <+: rest := by
    have whole : scheme.toList <+: rest ++ placed.after := ⟨tail, same.symm⟩
    cases behind : placed.after with
    | nil => rwa [behind, List.append_nil] at whole
    | cons letter others =>
      rw [behind] at whole
      refine (prefix_block_iff fun inside => ?_).mp whole
      refine plain.not_delimiter scheme member letter inside (placed.afterOpened letter ?_)
      rw [behind]
      rfl
  obtain ⟨more, rfl⟩ := opens
  rw [List.append_assoc] at same
  obtain rfl := List.append_cancel_left same
  have found : occurs (urlPattern schemes) placed.word = true := by
    rw [occurs_iff (sound_urlPattern schemes) (ahead_urlPattern schemes)]
    refine ⟨before, scheme.toList ++ (more ++ placed.after.take 1), ?_, ?_⟩
    · rw [word, ← List.append_assoc placed.host, ← List.append_assoc, split]
      simp only [List.append_assoc]
    · refine (urlPattern_isSome_iff fun letter inside => solidRest letter ?_).mpr
        ⟨scheme, member, _, ?_, rfl⟩
      · rw [← List.append_assoc] at inside
        exact (List.Sublist.append_left (List.take_sublist 1 placed.after) _).subset inside
      · intro empty
        obtain ⟨rfl, short⟩ := List.append_eq_nil_iff.mp empty
        rw [List.take_eq_nil_iff] at short
        exact some_tail (short.resolve_left one_ne_zero)
  rw [missing] at found
  cases found

/-- No URL starts with the letter behind the secret. -/
theorem reading_after (placed : SecretPlace classes secret) (plain : Schemes schemes) :
    reading (urlPattern schemes) placed.after = (placed.after.take 1).map Piece.kept ++
      reading (urlPattern schemes) (placed.after.drop 1) := by
  cases behind : placed.after with
  | nil => rfl
  | cons letter others =>
    refine @reading_front Char _ (ahead_urlPattern schemes) [letter] others
      fun before rest split some_rest => ?_
    obtain ⟨rfl, rfl⟩ : before = [] ∧ rest = [letter] := by
      rcases List.append_eq_singleton_iff.mp split.symm with both | ⟨-, rfl⟩
      · exact both
      · exact absurd rfl some_rest
    cases matched : urlPattern schemes none ([letter] ++ others) with
    | none => rfl
    | some count =>
      obtain ⟨scheme, member, found⟩ := List.exists_of_findSome?_eq_some matched
      obtain ⟨head, tail, spelled⟩ := List.exists_cons_of_ne_nil (plain.nonempty scheme member)
      have opens := (schemeMatch_eq_some.mp found).1
      rw [spelled, List.singleton_append, List.cons_prefix_cons] at opens
      have delimiter : Delimiter classes letter :=
        placed.afterOpened letter (by rw [behind]; rfl)
      exact absurd delimiter
          (plain.not_delimiter scheme member letter (by rw [spelled, opens.1]; simp))

/-- A pass in which no URL reaches the secret leaves it in its place. -/
theorem url_keeps (placed : SecretPlace classes secret) (plain : Schemes schemes)
    (solidMarker : ∀ letter ∈ marker, Text.isSpace letter = false)
    (missing : occurs (urlPattern schemes) placed.word = false) :
    ∃ next : SecretPlace classes secret, next.near = placed.near ∧ next.host = placed.host ∧
      next.after.take 1 = placed.after.take 1 ∧
      KeepsSecret (urlPattern schemes) marker secret placed.lead placed.trail next.lead
        next.trail := by
  have sound := sound_urlPattern schemes
  have stops := stops_urlPattern plain.spaceless
  have behind : substitute (urlPattern schemes) marker placed.after = placed.after.take 1 ++
      substitute (urlPattern schemes) marker (placed.after.drop 1) := by
    rw [substitute, placed.reading_after plain, displayed_append, displayed_map_kept]
    rfl
  have firstLetter : (substitute (urlPattern schemes) marker placed.after).take 1 =
      placed.after.take 1 := by
    rw [behind]
    cases placed.after with
    | nil => rfl
    | cons letter others => rfl
  have farLast := getLast?_substitute sound stops marker placed.farClosed
  have beyondHead := head?_substitute sound stops marker placed.beyondOpened
  refine ⟨{ placed with
    far := substitute (urlPattern schemes) marker placed.far
    after := substitute (urlPattern schemes) marker placed.after
    beyond := substitute (urlPattern schemes) marker placed.beyond
    farClosed := fun letter last => placed.farClosed letter (farLast ▸ last)
    beyondOpened := fun letter first => placed.beyondOpened letter (beyondHead ▸ first)
    spaceless := ?_
    portClosed := ?_
    pathClosed := ?_
    afterOpened := ?_ }, rfl, rfl, firstLetter, ⟨?_⟩⟩
  · intro letter member
    rw [← List.append_assoc placed.host, ← List.append_assoc, List.mem_append] at member
    rcases member with front | shownLetter
    · refine placed.spaceless letter ?_
      rw [← List.append_assoc placed.host, ← List.append_assoc]
      exact List.mem_append_left _ front
    · rcases mem_substitute sound shownLetter with inside | inMarker
      · refine placed.spaceless letter ?_
        exact List.mem_append_right _ (List.mem_append_right _ (List.mem_append_right _ inside))
      · exact solidMarker letter inMarker
  · intro letter last
    rw [List.getLast?_append, farLast, ← List.getLast?_append] at last
    exact placed.portClosed letter last
  · intro letter last
    rw [List.getLast?_append, farLast, ← List.getLast?_append] at last
    exact placed.pathClosed letter last
  · intro letter first
    refine placed.afterOpened letter ?_
    rw [List.head?_append, beyondHead, behind] at first
    rw [List.head?_append]
    cases stands : placed.after with
    | nil => simpa [stands, substitute, reading, readFrom, displayed] using first
    | cons other others => simpa [stands] using first
  · refine ⟨reading (urlPattern schemes) placed.far ++ (placed.near ++ placed.host).map Piece.kept,
      reading (urlPattern schemes) placed.after ++ reading (urlPattern schemes) placed.beyond,
      ?_, ?_, ?_, ?_, ?_⟩
    · have front : reading (urlPattern schemes)
          ((placed.near ++ (placed.host ++ secret)) ++ placed.after) =
          (placed.near ++ (placed.host ++ secret)).map Piece.kept ++
            reading (urlPattern schemes) placed.after :=
        reading_front (ahead_urlPattern schemes) fun before rest split _ =>
          placed.url_unmatched plain missing split
      have whole := reading_between sound stops placed.farClosed
        ((placed.near ++ (placed.host ++ secret)) ++ placed.after) placed.beyondOpened
      rw [front] at whole
      simp only [lead, trail, List.append_assoc, List.map_append] at whole ⊢
      exact whole
    · rw [original_append, original_reading sound, original_map_kept]
      rfl
    · rw [original_append, original_reading sound, original_reading sound]
      rfl
    · rw [displayed_append, displayed_map_kept]
      rfl
    · rw [displayed_append]
      rfl

/-- A URL found in the word of the secret, up to one letter behind it, reaches it. -/
theorem url_reached (placed : SecretPlace classes secret) (some_secret : secret ≠ [])
    (plain : Schemes schemes) (found : occurs (urlPattern schemes) placed.word = true) :
    Overlapped (reading (urlPattern schemes) (placed.lead ++ (secret ++ placed.trail)))
      placed.lead secret := by
  have sound := sound_urlPattern schemes
  have ahead := ahead_urlPattern schemes
  have wordSolid : ∀ letter ∈ placed.word, Text.isSpace letter = false := by
    intro letter member
    refine placed.spaceless letter ?_
    have part : placed.word.Sublist (placed.near ++ (placed.host ++ (secret ++ placed.after))) :=
      ((((List.take_sublist 1 placed.after).append_left secret).append_left placed.host).append_left
        placed.near)
    exact part.subset member
  obtain ⟨before, rest, split, matched⟩ := (occurs_iff sound ahead).mp found
  have restSolid : ∀ letter ∈ rest, Text.isSpace letter = false := fun letter member =>
    wordSolid letter (split ▸ List.mem_append_right _ member)
  obtain ⟨scheme, member, tail, some_tail, rfl⟩ := (urlPattern_isSome_iff restSolid).mp matched
  -- the same URL starts in the whole word, and goes to its end
  have whole : placed.near ++ (placed.host ++ (secret ++ placed.after)) =
      before ++ (scheme.toList ++ (tail ++ placed.after.drop 1)) := by
    have parts : placed.near ++ (placed.host ++ (secret ++ placed.after)) =
        placed.word ++ placed.after.drop 1 := by
      simp only [word, List.append_assoc, List.take_append_drop]
    rw [parts, split]
    simp only [List.append_assoc]
  have solidWhole := placed.spaceless
  rw [whole] at solidWhole
  have swallows : ∀ front back count,
      before ++ (scheme.toList ++ (tail ++ placed.after.drop 1)) = front ++ back →
      urlPattern schemes none back = some count → count = back.length :=
    fun front back count same => urlPattern_swallows fun letter inside =>
      solidWhole letter (same ▸ List.mem_append_right _ inside)
  have matchedThere : (urlPattern schemes none
      (scheme.toList ++ (tail ++ placed.after.drop 1))).isSome = true :=
    (urlPattern_isSome_iff fun letter inside =>
      solidWhole letter (List.mem_append_right _ inside)).mpr
      ⟨scheme, member, _, fun empty => some_tail (List.append_eq_nil_iff.mp empty).1, rfl⟩
  obtain ⟨front, back, same, bound, some_back, read_word⟩ := reading_swallowed ahead swallows
    (fun empty => plain.nonempty scheme member (List.append_eq_nil_iff.mp empty).1) matchedThere
  have lengths := congrArg List.length split
  have wholeLengths := congrArg List.length (whole.trans same)
  have schemeSome := List.length_pos_iff.mpr (plain.nonempty scheme member)
  have tailSome := List.length_pos_iff.mpr some_tail
  have secretSome := List.length_pos_iff.mpr some_secret
  have taken := List.length_take_le 1 placed.after
  simp only [word, List.length_append] at lengths wholeLengths
  refine ⟨reading (urlPattern schemes) placed.far ++ front.map Piece.kept, back,
    reading (urlPattern schemes) placed.beyond, ?_, ?_, ?_⟩
  · have text := reading_between sound (stops_urlPattern plain.spaceless) placed.farClosed
      (placed.near ++ (placed.host ++ (secret ++ placed.after))) placed.beyondOpened
    rw [whole, read_word, ← whole] at text
    simp only [lead, trail, List.append_assoc] at text ⊢
    exact text
  · rw [original_append, original_reading sound, original_map_kept]
    simp only [lead, List.length_append]
    omega
  · rw [original_append, original_reading sound, original_map_kept]
    simp only [lead, List.length_append]
    omega

end

/-! ### The passes that end at a delimiter -/

/-- A host with its port goes beyond the colon that the name of a host ends with. -/
theorem beyond_host {host : List Char} (colonless : ':' ∉ host.dropLast)
    (before : List (Piece Char)) (stretch : List Char) (after : List (Piece Char))
    (split : reading (hostPortPattern classes) (host ++ secret) =
      before ++ Piece.hit stretch :: after) :
    host.length < (original before).length + stretch.length := by
  by_contra short
  have member : Piece.hit stretch ∈ reading (hostPortPattern classes) (host ++ secret) := by
    rw [split]
    exact List.mem_append_right _ List.mem_cons_self
  obtain ⟨previous, rest, count, matched, rfl⟩ := exists_match_of_hit member
  obtain ⟨name, port, others, rfl, -, some_port, rfl⟩ := hostPortPattern_eq_some matched
  have stretched : (name ++ ':' :: (port ++ others)).take (name.length + 1 + port.length) =
      name ++ ':' :: port := by
    have parts : name ++ ':' :: (port ++ others) = (name ++ ':' :: port) ++ others := by simp
    rw [parts]
    exact List.take_left' (by simp only [List.length_append, List.length_cons]; omega)
  rw [stretched] at split short
  have parts := original_reading (@sound_hostPortPattern classes) (host ++ secret)
  rw [split, original_append] at parts
  have portSome := List.length_pos_iff.mpr some_port
  simp only [List.length_append, List.length_cons] at short
  have named : original before ++ (name ++ [':']) <+: host ++ secret := by
    refine ⟨port ++ original after, ?_⟩
    rw [← parts, original_cons, Piece.read]
    simp
  have cut : host.dropLast <+: host ++ secret :=
    (List.dropLast_prefix host).trans (List.prefix_append _ _)
  have colon : original before ++ (name ++ [':']) <+: host.dropLast := by
    refine List.prefix_of_prefix_length_le named cut ?_
    rw [List.length_dropLast]
    simp only [List.length_append, List.length_singleton]
    omega
  exact colonless (colon.subset (by simp))

theorem hostPort_keeps (placed : SecretPlace classes secret) (marker : List Char)
    (missing : occurs (hostPortPattern classes) (placed.host ++ secret) = false) :
    ∃ shownLead shownTrail, ClosedBy (PathBlock classes) shownLead ∧
      OpenedBy (PathBlock classes) shownTrail ∧
      KeepsSecret (hostPortPattern classes) marker secret placed.lead placed.trail shownLead
        shownTrail := by
  have opened : OpenedBy (PortBlock classes) placed.trail := fun letter first =>
    (placed.afterOpened letter first).1
  have keeps := keeps_between marker sound_hostPortPattern stops_hostPortPattern
    placed.portClosed placed.host opened missing
  rw [List.append_assoc] at keeps
  refine ⟨_, _, ?_, ?_, keeps⟩
  · intro letter last
    rw [List.getLast?_append, getLast?_substitute sound_hostPortPattern stops_hostPortPattern _
      placed.portClosed, ← List.getLast?_append, List.append_assoc] at last
    exact placed.pathClosed letter last
  · intro letter first
    rw [head?_substitute sound_hostPortPattern stops_hostPortPattern _ opened] at first
    exact (placed.afterOpened letter first).2

theorem hostPort_reached (placed : SecretPlace classes secret)
    (found : occurs (hostPortPattern classes) (placed.host ++ secret) = true) :
    Overlapped (reading (hostPortPattern classes) (placed.lead ++ (secret ++ placed.trail)))
      placed.lead secret := by
  have opened : OpenedBy (PortBlock classes) placed.trail := fun letter first =>
    (placed.afterOpened letter first).1
  have whole : placed.lead = (placed.far ++ placed.near) ++ placed.host :=
    (List.append_assoc _ _ _).symm
  rw [whole]
  exact reached_between sound_hostPortPattern stops_hostPortPattern placed.portClosed placed.host
    opened (beyond_host placed.colonless) found

section

variable {lead trail : List Char}

theorem keyFile_keeps (marker : List Char) (closed : ClosedBy (PathBlock classes) lead)
    (opened : OpenedBy (PathBlock classes) trail)
    (missing : occurs (keyFilePattern classes) secret = false) :
    secret <:+: substitute (keyFilePattern classes) marker (lead ++ (secret ++ trail)) := by
  have keeps := keeps_between marker sound_keyFilePattern stops_keyFilePattern closed [] opened
    missing
  rw [List.append_nil] at keeps
  rw [keeps.substitute_eq]
  exact ⟨_, _, List.append_assoc _ _ _⟩

theorem keyFile_reached (closed : ClosedBy (PathBlock classes) lead)
    (opened : OpenedBy (PathBlock classes) trail)
    (found : occurs (keyFilePattern classes) secret = true) :
    Overlapped (reading (keyFilePattern classes) (lead ++ (secret ++ trail))) lead secret := by
  have reached := reached_between sound_keyFilePattern stops_keyFilePattern closed [] opened
    (fun before stretch after split => ?_) found
  · rwa [List.append_nil] at reached
  · have member : Piece.hit stretch ∈ reading (keyFilePattern classes) ([] ++ secret) := by
      rw [split]
      exact List.mem_append_right _ List.mem_cons_self
    have some_stretch := List.length_pos_iff.mpr (stretch_ne_nil sound_keyFilePattern member)
    rw [List.length_nil]
    omega

end

/-! ### What reaches the secret -/

/-- A pattern reaches the secret: a URL that starts in its word, a host with its port in the name of
the host and the secret, or the path of a key file in the secret. -/
def Reaches (placed : SecretPlace classes secret) : Prop :=
  occurs databasePattern placed.word = true ∨ occurs webPattern placed.word = true ∨
    occurs (hostPortPattern classes) (placed.host ++ secret) = true ∨
    occurs (keyFilePattern classes) secret = true

theorem schemes_database : Schemes ["postgresql://"] where
  nonempty := by decide
  letters := List.forall_mem_singleton.mpr (List.all_iff_forall_prop.mp (by decide))

theorem schemes_web : Schemes ["https://", "http://"] where
  nonempty := by decide
  letters := List.forall_mem_cons.mpr ⟨List.all_iff_forall_prop.mp (by decide),
    List.forall_mem_singleton.mpr (List.all_iff_forall_prop.mp (by decide))⟩

/-- The markers of the four passes. -/
def markers : List String :=
  [databaseMarker, urlMarker, hostPortMarker, filePathMarker]

theorem spaceless_markers :
    ∀ marker ∈ markers, ∀ letter ∈ marker.toList, Text.isSpace letter = false := by
  have checked : ∀ marker ∈ markers,
      marker.toList.all (fun letter => !Text.isSpace letter) = true := by
    decide +kernel
  intro marker member letter inside
  simpa using List.all_eq_true.mp (checked marker member) letter inside

/-- A secret that no pattern reaches is in the message. -/
theorem exposed (placed : SecretPlace classes secret) (unreached : ¬placed.Reaches) :
    secret <:+: cleanedText classes (placed.lead ++ (secret ++ placed.trail)) := by
  simp only [Reaches, not_or, Bool.not_eq_true] at unreached
  obtain ⟨noDatabase, noWeb, noPort, noFile⟩ := unreached
  obtain ⟨second, near, host, after, database⟩ := @url_keeps _ _ _ databaseMarker.toList placed
    schemes_database (spaceless_markers _ (by simp [markers])) noDatabase
  have sameWord : second.word = placed.word := by
    rw [word, near, host, after, word]
  obtain ⟨third, -, sameHost, -, web⟩ := @url_keeps _ _ _ urlMarker.toList second schemes_web
    (spaceless_markers _ (by simp [markers])) (sameWord ▸ noWeb)
  obtain ⟨lead, trail, closed, opened, hostPort⟩ := third.hostPort_keeps hostPortMarker.toList
    (by rw [sameHost, host]; exact noPort)
  have database := database.substitute_eq
  have web := web.substitute_eq
  rw [cleanedText, databasePattern, webPattern]
  simp only [database, web, hostPort.substitute_eq]
  exact keyFile_keeps filePathMarker.toList closed opened noFile

/-- A secret that stands once in a text, that cannot be spliced with a marker and that a pattern
reaches is not in the message. -/
theorem concealed (placed : SecretPlace classes secret) (some_secret : secret ≠ [])
    (once : OccursOnce placed.lead secret placed.trail)
    (unspliced : ∀ marker ∈ markers, Unspliced marker.toList secret) (reaches : placed.Reaches) :
    ¬secret <:+: cleanedText classes (placed.lead ++ (secret ++ placed.trail)) := by
  have unDatabase := unspliced databaseMarker (by simp [markers])
  have unUrl := unspliced urlMarker (by simp [markers])
  have unPort := unspliced hostPortMarker (by simp [markers])
  have unFile := unspliced filePathMarker (by simp [markers])
  have lastTwo {text : List Char} (missing : ¬secret <:+: text) :
      ¬secret <:+: substitute (keyFilePattern classes) filePathMarker.toList
        (substitute (hostPortPattern classes) hostPortMarker.toList text) :=
    not_infix_substitute sound_keyFilePattern unFile
      (not_infix_substitute sound_hostPortPattern unPort missing)
  rw [cleanedText]
  -- the pass before which the secret still stands, and in which it is reached
  cases noDatabase : occurs databasePattern placed.word with
  | true =>
    refine lastTwo (not_infix_substitute (sound_urlPattern _) unUrl ?_)
    exact (placed.url_reached some_secret schemes_database noDatabase).gone
      (sound_urlPattern _) once unDatabase
  | false =>
    obtain ⟨second, near, host, after, database⟩ := @url_keeps _ _ _ databaseMarker.toList placed
      schemes_database (spaceless_markers _ (by simp [markers])) noDatabase
    have sameWord : second.word = placed.word := by
      rw [word, near, host, after, word]
    have secondOnce := database.once unDatabase once
    rw [show substitute databasePattern databaseMarker.toList (placed.lead ++ (secret ++ placed.trail)) =
      second.lead ++ (secret ++ second.trail) from database.substitute_eq]
    cases noWeb : occurs webPattern second.word with
    | true =>
      refine lastTwo ?_
      exact (second.url_reached some_secret schemes_web noWeb).gone (sound_urlPattern _)
        secondOnce unUrl
    | false =>
      obtain ⟨third, -, sameHost, -, web⟩ := @url_keeps _ _ _ urlMarker.toList second schemes_web
        (spaceless_markers _ (by simp [markers])) noWeb
      have thirdOnce := web.once unUrl secondOnce
      rw [show substitute webPattern urlMarker.toList (second.lead ++ (secret ++ second.trail)) =
        third.lead ++ (secret ++ third.trail) from web.substitute_eq]
      cases noPort : occurs (hostPortPattern classes) (third.host ++ secret) with
      | true =>
        refine not_infix_substitute sound_keyFilePattern unFile ?_
        exact (third.hostPort_reached noPort).gone sound_hostPortPattern thirdOnce unPort
      | false =>
        obtain ⟨lead, trail, closed, opened, hostPort⟩ :=
          third.hostPort_keeps hostPortMarker.toList noPort
        have lastOnce := hostPort.once unPort thirdOnce
        rw [hostPort.substitute_eq]
        have found : occurs (keyFilePattern classes) secret = true := by
          rw [sameHost, host] at noPort
          rw [sameWord] at noWeb
          simpa [Reaches, noDatabase, noWeb, noPort] using reaches
        exact (keyFile_reached closed opened found).gone sound_keyFilePattern lastOnce unFile

-- the secret `x[` is reached, but a marker behind another `x` spells it again
example : "x[".toList <:+:
    cleanedText asciiClasses "postgresql://u:x[@h xpostgresql://h".toList := by decide

end SecretPlace

end

end FleetMemory
