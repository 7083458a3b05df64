/-
This file proves what the cleaning of tool errors conceals. A password that a connection string
carries into an exception's text is gone from the message exactly when one of the four patterns
reaches it: a `postgresql://` URL without spaces is always cleaned, a `postgres://` URL and
`key=value` pairs only where the password itself looks like something else that is cleaned.
-/

import FleetMemory.CredentialPasses
import FleetMemory.PrefixEngine
import Mathlib.Data.List.DropRight

namespace FleetMemory

open Redaction StoreProgram

/-! ### Connection strings -/

/-- The schemes of a database URL. -/
inductive Scheme where
  | postgresql
  | postgres
deriving DecidableEq, Repr

/-- What a URL of a scheme begins with. -/
def Scheme.opening : Scheme → String
  | postgresql => "postgresql://"
  | postgres => "postgres://"

/-- What a connection string holds besides its password: a URL with the password behind the user or
among its parameters, or `key=value` pairs. -/
inductive Conninfo where
  | url (scheme : Scheme) (user rest : String)
  | parameter (scheme : Scheme) (address rest : String)
  | pairs (before left right : String) (quoted : Bool) (after : String)

namespace Conninfo

/-- The quotes of a value. -/
def quote (quoted : Bool) : String :=
  if quoted then "'" else ""

/-- What stands before the password. -/
def lead : Conninfo → String
  | url scheme user _ => scheme.opening ++ user ++ ":"
  | parameter scheme address _ => scheme.opening ++ address ++ "password="
  | pairs before left right quoted _ => before ++ "password" ++ left ++ "=" ++ right ++ quote quoted

/-- What stands behind the password. -/
def trail : Conninfo → String
  | url _ _ rest => "@" ++ rest
  | parameter _ _ rest => rest
  | pairs _ _ _ quoted after => quote quoted ++ after

/-- The connection string. -/
def text (conninfo : Conninfo) (password : String) : String :=
  conninfo.lead ++ password ++ conninfo.trail

/-- The parts are what libpq takes them for. -/
def WellFormed (conninfo : Conninfo) (password : String) : Prop :=
  match conninfo with
  | url _ user _ => ':' ∉ user.toList ∧ '@' ∉ user.toList ∧ '/' ∉ user.toList ∧
      '@' ∉ password.toList ∧ '/' ∉ password.toList
  | parameter _ address rest =>
    (address.toList.getLast? = some '?' ∨ address.toList.getLast? = some '&') ∧
      ∀ letter ∈ rest.toList.head?, letter = '&'
  | pairs before left right _ after => ClosedBy Space before.toList ∧
      (∀ letter ∈ left.toList, Space letter) ∧ (∀ letter ∈ right.toList, Space letter) ∧
      OpenedBy Space after.toList

/-- `validate_not_empty` accepts every connection string with a password. -/
theorem not_blank (conninfo : Conninfo) {password : String} (some_password : password ≠ "")
    (spaceless : ∀ letter ∈ password.toList, Text.isSpace letter = false) :
    Text.blank (conninfo.text password) = false := by
  have letters : password.toList ≠ [] :=
    fun empty => some_password (String.toList_eq_nil_iff.mp empty)
  obtain ⟨letter, others, spelled⟩ := List.exists_cons_of_ne_nil letters
  refine Text.blank_eq_false ?_ (spaceless letter (by rw [spelled]; simp))
  rw [text, String.toList_append, String.toList_append, spelled]
  simp

section

variable (classes : CharClasses)

/-- The condition under which a pattern reaches the password: a `postgresql://` URL has no space
before it, or it ends a host with its port, alone or with the user; or a URL starts in its word, or
it holds the path of a key file. -/
def Reaches (conninfo : Conninfo) (password : String) : Prop :=
  match conninfo with
  | url scheme user _ =>
    (scheme = .postgresql ∧ ∀ letter ∈ user.toList, Text.isSpace letter = false) ∨
      occurs (hostPortPattern classes)
        (user.toList.rtakeWhile solid ++ ':' :: password.toList) = true
  | conninfo =>
    let word := conninfo.lead.toList.rtakeWhile solid ++
      (password.toList ++ (conninfo.trail.toList.takeWhile solid).take 1)
    occurs databasePattern word = true ∨ occurs webPattern word = true ∨
      occurs (hostPortPattern classes) password.toList = true ∨
      occurs (keyFilePattern classes) password.toList = true

end

end Conninfo

/-! ### A connection string in a text -/

section

variable {classes : CharClasses}

theorem delimiter_of_space {letter : Char} (space : Space letter) : Delimiter classes letter := by
  have noWord : classes.word letter = false := by
    cases word : classes.word letter with
    | false => rfl
    | true =>
      rw [Space, classes.solid_of_word letter word] at space
      cases space
  have apart {other : Char} (solidOther : Text.isSpace other = false) : letter ≠ other := by
    rintro rfl
    rw [Space, solidOther] at space
    cases space
  have noName : nameChar classes letter = false := by
    rw [nameChar, noWord, Bool.false_or, beq_eq_false_iff_ne.mpr (apart (by decide)),
      beq_eq_false_iff_ne.mpr (apart (by decide))]
    rfl
  refine ⟨⟨noName, apart (by decide)⟩, ?_⟩
  rw [PathBlock, pathChar, noName, Bool.false_or]
  exact beq_eq_false_iff_ne.mpr (apart (by decide))

/-- The letters around a password that are neither spaces nor parts of a host or a path. -/
theorem delimiter_of_mem {letter : Char} (member : letter ∈ ['@', '=', '&', '?', '\'']) :
    Delimiter classes letter := by
  have checked : ∀ letter ∈ ['@', '=', '&', '?', '\''], letter.toNat < 128 ∧
      Text.word letter = false ∧ letter ≠ '.' ∧ letter ≠ '-' ∧ letter ≠ ':' ∧ letter ≠ '/' :=
    List.all_iff_forall_prop.mp (by decide)
  obtain ⟨small, noWord, noDot, noDash, noColon, noSlash⟩ := checked letter member
  have noName : nameChar classes letter = false := by
    rw [nameChar, classes.word_ascii letter small, noWord, Bool.false_or,
      beq_eq_false_iff_ne.mpr noDot, beq_eq_false_iff_ne.mpr noDash]
    rfl
  refine ⟨⟨noName, noColon⟩, ?_⟩
  rw [PathBlock, pathChar, noName, Bool.false_or]
  exact beq_eq_false_iff_ne.mpr noSlash

theorem closed_rdropWhile (text : List Char) : ClosedBy Space (text.rdropWhile solid) := by
  intro letter last
  have some_text : text.rdropWhile solid ≠ [] := by
    intro empty
    rw [empty] at last
    cases last
  have final := List.rdropWhile_last_not solid text some_text
  rw [List.getLast?_eq_some_getLast some_text, Option.mem_def, Option.some.injEq] at last
  rw [last, solid, Bool.not_eq_true', Bool.not_eq_false] at final
  exact final

theorem opened_dropWhile (text : List Char) : OpenedBy Space (text.dropWhile solid) := by
  intro letter first
  have outside := List.head?_dropWhile_not solid text
  rw [Option.mem_def] at first
  rw [first] at outside
  simpa [solid, Space] using outside

variable {secret before after : List Char}
  (spaceless : ∀ letter ∈ secret, Text.isSpace letter = false)
  (beforeClosed : ClosedBy Space before) (afterOpened : OpenedBy Space after)

/-- A secret between delimiters, in the word they leave it. -/
def placedInWord (lead trail : List Char) (leadClosed : ClosedBy (Delimiter classes) lead)
    (trailOpened : OpenedBy (Delimiter classes) trail) : SecretPlace classes secret where
  far := before ++ lead.rdropWhile solid
  near := lead.rtakeWhile solid
  host := []
  after := trail.takeWhile solid
  beyond := trail.dropWhile solid ++ after
  farClosed := beforeClosed.append (closed_rdropWhile lead)
  spaceless := by
    intro letter member
    rw [List.nil_append, List.mem_append, List.mem_append] at member
    rcases member with near | inSecret | behind
    · simpa [solid] using List.mem_rtakeWhile_imp near
    · exact spaceless letter inSecret
    · simpa [solid] using List.mem_takeWhile_imp behind
  colonless := List.not_mem_nil
  portClosed := by
    rw [List.append_assoc, List.rdropWhile_append_rtakeWhile]
    exact fun letter last => ((beforeClosed.imp delimiter_of_space).append leadClosed letter last).1
  pathClosed := by
    rw [List.append_nil, List.append_assoc, List.rdropWhile_append_rtakeWhile]
    exact fun letter last => ((beforeClosed.imp delimiter_of_space).append leadClosed letter last).2
  afterOpened := by
    rw [← List.append_assoc, List.takeWhile_append_dropWhile]
    exact trailOpened.append (afterOpened.imp delimiter_of_space)
  beyondOpened := (opened_dropWhile trail).append afterOpened

/-- A secret behind the name of a host that a letter of no name ends the words before. -/
def placedBehindHost (far near host rest : List Char) (farClosed : ClosedBy Space far)
    (nearSolid : ∀ letter ∈ near ++ host, Text.isSpace letter = false) (colonless : ':' ∉ host)
    (portClosed : ClosedBy (PortBlock classes) (far ++ near)) : SecretPlace classes secret where
  far := far
  near := near
  host := host ++ [':']
  after := ('@' :: rest).takeWhile solid
  beyond := ('@' :: rest).dropWhile solid ++ after
  farClosed := farClosed
  spaceless := by
    intro letter member
    simp only [List.mem_append, List.mem_singleton] at member
    rcases member with ofNear | (ofHost | rfl) | ofSecret | behind
    · exact nearSolid letter (List.mem_append_left _ ofNear)
    · exact nearSolid letter (List.mem_append_right _ ofHost)
    · decide
    · exact spaceless letter ofSecret
    · simpa [solid] using List.mem_takeWhile_imp behind
  colonless := by rwa [List.dropLast_concat]
  portClosed := portClosed
  pathClosed := by
    intro letter last
    rw [← List.append_assoc, ← List.append_assoc, List.getLast?_concat] at last
    obtain rfl := Option.some.inj last
    rw [PathBlock, pathChar, nameChar, classes.word_ascii ':' (by decide)]
    decide
  afterOpened := by
    rw [← List.append_assoc, List.takeWhile_append_dropWhile]
    intro letter first
    obtain rfl := Option.some.inj first
    exact delimiter_of_mem (by decide)
  beyondOpened := (opened_dropWhile ('@' :: rest)).append afterOpened

/-! ### What reaches the password of a URL -/

/-- A scheme that ends with a slash stands before what holds none. -/
theorem infix_of_slash {scheme near tail first rest : List Char}
    (slash : scheme.getLast? = some '/') (free : '/' ∉ tail)
    (same : near ++ tail = first ++ (scheme ++ rest)) : scheme <:+: near := by
  have opens : first ++ scheme <+: near ++ tail := ⟨rest, by rw [same, List.append_assoc]⟩
  rcases List.prefix_or_prefix_of_prefix opens (List.prefix_append near tail) with
    short | ⟨more, long⟩
  · exact (List.suffix_append first scheme).isInfix.trans short.isInfix
  · cases ends : more.getLast? with
    | none =>
      rw [List.getLast?_eq_none_iff.mp ends, List.append_nil] at long
      rw [long]
      exact (List.suffix_append first scheme).isInfix
    | some letter =>
      have lasts := congrArg List.getLast? long
      rw [List.getLast?_append, List.getLast?_append, ends, slash] at lasts
      obtain rfl := Option.some.inj lasts
      rw [← long, List.prefix_append_right_inj] at opens
      exact absurd (opens.subset (List.mem_of_getLast? ends)) free

theorem infix_of_occurs {schemes : List String} {near tail : List Char}
    (slashes : ∀ scheme ∈ schemes, scheme.toList.getLast? = some '/') (free : '/' ∉ tail)
    (solidWord : ∀ letter ∈ near ++ tail, Text.isSpace letter = false)
    (found : occurs (urlPattern schemes) (near ++ tail) = true) :
    ∃ scheme ∈ schemes, scheme.toList <:+: near := by
  obtain ⟨first, rest, split, matched⟩ :=
    (occurs_iff (sound_urlPattern schemes) (ahead_urlPattern schemes)).mp found
  obtain ⟨scheme, member, others, -, rfl⟩ := (urlPattern_isSome_iff fun letter inside =>
    solidWord letter (split ▸ List.mem_append_right _ inside)).mp matched
  exact ⟨scheme, member, infix_of_slash (slashes scheme member) free split⟩

theorem occurs_keyFile_eq_false {password : List Char} (free : '/' ∉ password) :
    occurs (keyFilePattern classes) password = false := by
  rw [← Bool.not_eq_true, occurs_iff sound_keyFilePattern ahead_keyFilePattern]
  rintro ⟨first, rest, rfl, matched⟩
  obtain ⟨count, found⟩ := Option.isSome_iff_exists.mp matched
  obtain ⟨-, others, rfl, -⟩ := keyFilePattern_eq_some found
  exact free (by simp)

section

variable {far near host rest : List Char} (farClosed : ClosedBy Space far)
  (nearSolid : ∀ letter ∈ near ++ host, Text.isSpace letter = false) (colonless : ':' ∉ host)
  (portClosed : ClosedBy (PortBlock classes) (far ++ near))

/-- Only what stands before the host makes a URL of its word. -/
theorem placedBehindHost_reaches (slashless : '/' ∉ host ++ secret) (database : Prop)
    (databaseFound : database → near = "postgresql://".toList)
    (foundDatabase : "postgresql://".toList <:+: near → database)
    (noWeb : ¬"https://".toList <:+: near ∧ ¬"http://".toList <:+: near) :
    (@placedBehindHost classes secret after spaceless afterOpened far near host rest farClosed
        nearSolid colonless portClosed).Reaches ↔
      database ∨ occurs (hostPortPattern classes) (host ++ ':' :: secret) = true := by
  have free : '/' ∉ (host ++ [':']) ++ (secret ++ ['@']) := by
    simp only [List.mem_append, List.mem_singleton, not_or] at slashless ⊢
    exact ⟨⟨slashless.1, by decide⟩, slashless.2, by decide⟩
  have solidWord : ∀ letter ∈ near ++ ((host ++ [':']) ++ (secret ++ ['@'])),
      Text.isSpace letter = false := by
    intro letter member
    simp only [List.mem_append, List.mem_singleton] at member
    rcases member with ofNear | (ofHost | rfl) | ofSecret | rfl
    · exact nearSolid letter (List.mem_append_left _ ofNear)
    · exact nearSolid letter (List.mem_append_right _ ofHost)
    · decide
    · exact spaceless letter ofSecret
    · decide
  have web : occurs webPattern (near ++ ((host ++ [':']) ++ (secret ++ ['@']))) = false := by
    rw [← Bool.not_eq_true]
    intro found
    obtain ⟨scheme, member, inside⟩ := infix_of_occurs (by decide) free solidWord found
    rcases List.mem_pair.mp member with rfl | rfl
    · exact noWeb.1 inside
    · exact noWeb.2 inside
  have databaseIff : occurs databasePattern (near ++ ((host ++ [':']) ++ (secret ++ ['@']))) =
      true ↔ database := by
    constructor
    · intro found
      obtain ⟨scheme, member, inside⟩ := infix_of_occurs (by decide) free solidWord found
      obtain rfl := List.mem_singleton.mp member
      exact foundDatabase inside
    · intro holds
      refine (occurs_iff (sound_urlPattern _) (ahead_urlPattern _)).mpr ⟨[], _, rfl, ?_⟩
      refine (urlPattern_isSome_iff solidWord).mpr ⟨_, List.mem_singleton.mpr rfl, _, ?_,
        by rw [databaseFound holds]⟩
      simp
  have word : (@placedBehindHost classes secret after spaceless afterOpened far near host rest
      farClosed nearSolid colonless portClosed).word =
        near ++ ((host ++ [':']) ++ (secret ++ ['@'])) := rfl
  rw [SecretPlace.Reaches, word, databaseIff, web, occurs_keyFile_eq_false fun inside =>
    slashless (List.mem_append_right _ inside)]
  simp [placedBehindHost]

end

/-! ### The place of a password in a text -/

/-- A password in its connection string in a text has a place, and is reached there as its
connection string says. -/
def HasPlace (classes : CharClasses) (conninfo : Conninfo) (password : String)
    (before after : List Char) : Prop :=
  ∃ placed : SecretPlace classes password.toList, placed.lead = before ++ conninfo.lead.toList ∧
    placed.trail = conninfo.trail.toList ++ after ∧
    (placed.Reaches ↔ conninfo.Reaches classes password)

theorem hasPlace_of_delimited {conninfo : Conninfo} {password : String}
    (spaceless : ∀ letter ∈ password.toList, Text.isSpace letter = false)
    (beforeClosed : ClosedBy Space before) (afterOpened : OpenedBy Space after)
    (leadClosed : ClosedBy (Delimiter classes) conninfo.lead.toList)
    (trailOpened : OpenedBy (Delimiter classes) conninfo.trail.toList)
    (noUser : ∀ scheme user rest, conninfo ≠ .url scheme user rest) :
    HasPlace classes conninfo password before after := by
  refine ⟨placedInWord spaceless beforeClosed afterOpened _ _ leadClosed trailOpened, ?_, ?_, ?_⟩
  · simp [SecretPlace.lead, placedInWord, List.rdropWhile_append_rtakeWhile]
  · rw [SecretPlace.trail, placedInWord, ← List.append_assoc, List.takeWhile_append_dropWhile]
  · cases conninfo with
    | url scheme user rest => exact absurd rfl (noUser scheme user rest)
    | parameter scheme address rest => rfl
    | pairs first left right quoted last => rfl

theorem closed_opening (scheme : Scheme) : ClosedBy (PortBlock classes) scheme.opening.toList := by
  intro letter last
  obtain rfl : letter = '/' := by
    cases scheme with
    | postgresql => exact (Option.some.inj last).symm
    | postgres => exact (Option.some.inj last).symm
  refine ⟨?_, by decide⟩
  rw [nameChar, classes.word_ascii '/' (by decide)]
  decide

theorem solid_opening (scheme : Scheme) :
    ∀ letter ∈ scheme.opening.toList, Text.isSpace letter = false := by
  cases scheme <;> exact List.all_iff_forall_prop.mp (by decide)

theorem hasPlace_of_url {scheme : Scheme} {user rest password : String}
    (spaceless : ∀ letter ∈ password.toList, Text.isSpace letter = false)
    (beforeClosed : ClosedBy Space before) (afterOpened : OpenedBy Space after)
    (wellFormed : (Conninfo.url scheme user rest).WellFormed password) :
    HasPlace classes (.url scheme user rest) password before after := by
  obtain ⟨noColon, -, noSlash, -, slashless⟩ := wellFormed
  by_cases solidUser : ∀ letter ∈ user.toList, Text.isSpace letter = false
  · have whole : user.toList.rtakeWhile solid = user.toList := by
      rw [List.rtakeWhile_eq_self_iff]
      intro letter member
      rw [solid, solidUser letter member, Bool.not_false]
    have nearSolid : ∀ letter ∈ scheme.opening.toList ++ user.toList,
        Text.isSpace letter = false := by
      intro letter member
      rcases List.mem_append.mp member with ofScheme | ofUser
      · exact solid_opening scheme letter ofScheme
      · exact solidUser letter ofUser
    refine ⟨placedBehindHost spaceless afterOpened before scheme.opening.toList user.toList
      rest.toList beforeClosed nearSolid noColon
      ((beforeClosed.imp fun space => (delimiter_of_space space).1).append (closed_opening scheme)),
      ?_, ?_, ?_⟩
    · simp [SecretPlace.lead, placedBehindHost, Conninfo.lead]
    · rw [SecretPlace.trail, placedBehindHost, ← List.append_assoc, List.takeWhile_append_dropWhile]
      simp [Conninfo.trail]
    · rw [Conninfo.Reaches, whole]
      refine placedBehindHost_reaches spaceless afterOpened beforeClosed nearSolid noColon _ ?_
        (scheme = .postgresql ∧ ∀ letter ∈ user.toList, Text.isSpace letter = false) ?_ ?_ ?_
      · exact fun inside => (List.mem_append.mp inside).elim noSlash slashless
      · rintro ⟨rfl, -⟩
        rfl
      · intro inside
        refine ⟨?_, solidUser⟩
        cases scheme with
        | postgresql => rfl
        | postgres => exact absurd inside (by decide)
      · cases scheme <;> decide
  · have farClosed : ClosedBy Space
        (before ++ (scheme.opening.toList ++ user.toList.rdropWhile solid)) := by
      refine beforeClosed.append fun letter last => ?_
      rw [List.getLast?_append_of_ne_nil _ fun empty => ?_] at last
      · exact closed_rdropWhile user.toList letter last
      · refine solidUser fun letter member => ?_
        simpa [solid] using List.rdropWhile_eq_nil_iff.mp empty letter member
    have hostPart : (user.toList.rtakeWhile solid).Sublist user.toList :=
      (List.rtakeWhile_suffix solid user.toList).sublist
    have hostSolid : ∀ letter ∈ [] ++ user.toList.rtakeWhile solid,
        Text.isSpace letter = false := by
      intro letter member
      simpa [solid] using List.mem_rtakeWhile_imp member
    refine ⟨placedBehindHost spaceless afterOpened _ [] (user.toList.rtakeWhile solid) rest.toList
      farClosed hostSolid (fun inside => noColon (hostPart.subset inside)) ?_, ?_, ?_, ?_⟩
    · rw [List.append_nil]
      exact farClosed.imp fun space => (delimiter_of_space space).1
    · simp only [SecretPlace.lead, placedBehindHost, Conninfo.lead, List.append_assoc,
        List.nil_append, String.toList_append]
      rw [← List.append_assoc (user.toList.rdropWhile solid), List.rdropWhile_append_rtakeWhile]
      rfl
    · rw [SecretPlace.trail, placedBehindHost, ← List.append_assoc, List.takeWhile_append_dropWhile]
      simp [Conninfo.trail]
    · rw [Conninfo.Reaches]
      refine placedBehindHost_reaches spaceless afterOpened farClosed hostSolid _ _ ?_
        (scheme = .postgresql ∧ ∀ letter ∈ user.toList, Text.isSpace letter = false) ?_ ?_ ?_
      · exact fun inside => (List.mem_append.mp inside).elim
          (fun inHost => noSlash (hostPart.subset inHost)) slashless
      · exact fun both => absurd both.2 solidUser
      · exact fun inside => absurd inside (by decide)
      · decide

theorem hasPlace {conninfo : Conninfo} {password : String}
    (spaceless : ∀ letter ∈ password.toList, Text.isSpace letter = false)
    (beforeClosed : ClosedBy Space before) (afterOpened : OpenedBy Space after)
    (wellFormed : conninfo.WellFormed password) :
    HasPlace classes conninfo password before after := by
  have closedBy {front : String} {last : String} {letter : Char}
      (delimiter : Delimiter classes letter) (spelled : last.toList.getLast? = some letter) :
      ClosedBy (Delimiter classes) (front ++ last).toList := by
    intro other ends
    rw [String.toList_append, List.getLast?_append, spelled] at ends
    obtain rfl := Option.some.inj ends
    exact delimiter
  cases conninfo with
  | url scheme user rest => exact hasPlace_of_url spaceless beforeClosed afterOpened wellFormed
  | parameter scheme address rest =>
    refine hasPlace_of_delimited spaceless beforeClosed afterOpened
      (@closedBy _ _ '=' (delimiter_of_mem (by decide)) rfl) (fun letter first => ?_) nofun
    rw [wellFormed.2 letter first]
    exact delimiter_of_mem (by decide)
  | pairs first left right quoted last =>
    obtain ⟨-, -, rightBlank, lastOpened⟩ := wellFormed
    cases quoted with
    | true =>
      refine hasPlace_of_delimited spaceless beforeClosed afterOpened
        (@closedBy _ _ '\'' (delimiter_of_mem (by decide)) rfl) (fun letter head => ?_) nofun
      obtain rfl : letter = '\'' := by
        simpa [Conninfo.trail, Conninfo.quote, eq_comm] using head
      exact delimiter_of_mem (by decide)
    | false =>
      refine hasPlace_of_delimited spaceless beforeClosed afterOpened (fun letter ends => ?_)
        (fun letter head => ?_) nofun
      · simp only [Conninfo.lead, Conninfo.quote, String.toList_append] at ends
        have signed : ClosedBy (Delimiter classes)
            (first.toList ++ "password".toList ++ left.toList ++ "=".toList ++ right.toList) := by
          refine ClosedBy.append ?_ fun other last =>
            delimiter_of_space (rightBlank other (List.mem_of_getLast? last))
          intro other last
          rw [List.getLast?_append] at last
          obtain rfl := Option.some.inj last
          exact delimiter_of_mem (by decide)
        refine signed letter ?_
        simpa using ends
      · refine delimiter_of_space (lastOpened letter ?_)
        simpa [Conninfo.trail, Conninfo.quote] using head

end

/-! ### The message of a tool error -/

/-- The errors whose message does not depend on their text. -/
def PyError.hasFixedMessage (error : PyError) : Bool :=
  error.isTimeoutError || error.isEmbedServiceError

/-- The texts a message is made of besides what is left of an exception's text. -/
def fixedMessages : List String :=
  ["The memory store is unavailable", "The operation is temporarily unavailable",
    "An unexpected error occurred: "]

/-- An exception whose text embeds a connection string, between spaces or at the ends, whose
password occurs nowhere else in it nor in a fixed message. -/
structure Exposure (runtime : Runtime) where
  conninfo : Conninfo
  password : String
  before : String
  after : String
  error : PyError
  some_password : password ≠ ""
  spaceless : ∀ letter ∈ password.toList, Text.isSpace letter = false
  wellFormed : conninfo.WellFormed password
  beforeClosed : ClosedBy Space before.toList
  afterOpened : OpenedBy Space after.toList
  embeds : error.text runtime = before ++ conninfo.text password ++ after
  once : OccursOnce (before ++ conninfo.lead).toList password.toList (conninfo.trail ++ after).toList
  unstated : ∀ message ∈ fixedMessages ++ SecretPlace.markers, ¬password.toList <:+: message.toList

namespace Exposure

variable {classes : CharClasses} {runtime : Runtime} (exposure : Exposure runtime)

/-- The message tells the password. -/
def Tells (message : String) : Prop :=
  exposure.password.toList <:+: message.toList

/-- The password cannot be spliced with a marker. -/
def Unspliceable : Prop :=
  ∀ marker ∈ SecretPlace.markers, Unspliced marker.toList exposure.password.toList

/-- What is left of an exception's text tells the password unless a pattern reaches it, and does not
if one does and the password cannot be spliced with a marker. -/
theorem tells_sanitizeMessage (redacts : Redacts classes runtime) :
    (¬exposure.conninfo.Reaches classes exposure.password →
      exposure.Tells (sanitizeMessage runtime (exposure.error.text runtime))) ∧
    (exposure.Unspliceable → exposure.conninfo.Reaches classes exposure.password →
      ¬exposure.Tells (sanitizeMessage runtime (exposure.error.text runtime))) := by
  obtain ⟨placed, lead, trail, reaches⟩ : HasPlace classes exposure.conninfo exposure.password
      exposure.before.toList exposure.after.toList :=
    hasPlace exposure.spaceless exposure.beforeClosed exposure.afterOpened exposure.wellFormed
  have text : (exposure.error.text runtime).toList =
      placed.lead ++ (exposure.password.toList ++ placed.trail) := by
    rw [exposure.embeds, lead, trail]
    simp [Conninfo.text]
  have once : OccursOnce placed.lead exposure.password.toList placed.trail := by
    rw [lead, trail, ← String.toList_append, ← String.toList_append]
    exact exposure.once
  rw [Tells, redacts.toList_sanitizeMessage, text]
  refine ⟨fun unreached => placed.exposed (mt reaches.mp unreached), fun unspliceable reached => ?_⟩
  have letters : exposure.password.toList ≠ [] := fun empty =>
    exposure.some_password (String.toList_eq_nil_iff.mp empty)
  exact placed.concealed letters once unspliceable (reaches.mpr reached)

/-- A message of a fixed beginning tells the password when the rest of it does. -/
theorem tells_unexpected {message : String} :
    exposure.Tells ("An unexpected error occurred: " ++ message) ↔ exposure.Tells message := by
  rw [Tells, Tells, String.toList_append]
  constructor
  · intro inside
    have barrier : ∀ letter ∈ "An unexpected error occurred: ".toList.getLast?,
        letter ∉ exposure.password.toList := by
      intro letter last member
      obtain rfl := Option.some.inj last
      exact absurd (exposure.spaceless _ member) (by decide)
    rcases Text.infix_append_of_barrier barrier inside with stated | left
    · exact absurd stated (exposure.unstated _ (by simp [fixedMessages]))
    · exact left
  · exact fun inside => inside.trans (List.suffix_append _ _).isInfix

/-- The message of an error that has no fixed one tells what is left of its text. -/
theorem tells_message {Value : Type} (free : exposure.error.hasFixedMessage = false) :
    exposure.Tells (mapExceptionToResult runtime exposure.error : ToolResult Value).message ↔
      exposure.Tells (sanitizeMessage runtime (exposure.error.text runtime)) := by
  rw [PyError.hasFixedMessage, Bool.or_eq_false_iff] at free
  unfold mapExceptionToResult
  dsimp only
  split
  · rename_i text timeout
    rw [timeout] at free
    cases free.1
  · rw [if_neg (by rw [free.1]; decide), if_neg (by rw [free.2]; decide)]
    split
    · rfl
    · exact exposure.tells_unexpected

/-- A fixed message does not tell the password. -/
theorem not_tells_fixed {Value : Type} (fixed : exposure.error.hasFixedMessage = true) :
    ¬exposure.Tells (mapExceptionToResult runtime exposure.error : ToolResult Value).message := by
  have unavailable : ¬exposure.Tells "The memory store is unavailable" :=
    exposure.unstated _ (by simp [fixedMessages])
  have temporarily : ¬exposure.Tells "The operation is temporarily unavailable" :=
    exposure.unstated _ (by simp [fixedMessages])
  rw [PyError.hasFixedMessage, Bool.or_eq_true] at fixed
  unfold mapExceptionToResult
  dsimp only
  split
  · exact temporarily
  · split
    · exact unavailable
    · rename_i noTimeout
      rw [if_pos (fixed.resolve_left noTimeout)]
      exact temporarily

end Exposure

/-- Whatever a tool does and whichever store calls fail, when it raises an exception whose text
embeds a connection string, the message it is answered with tells the password unless the message is
fixed or a pattern reaches the password; and it does not tell it if the message is fixed, or if a
pattern reaches the password and it cannot be spliced with a marker. -/
theorem toolSafe_conceals_iff {classes : CharClasses} {runtime : Runtime}
    (redacts : Redacts classes runtime) (exposure : Exposure runtime) {Value : Type}
    (tool : StoreM Value) (engine : SearchEngine) (faults : List (Option PyError))
    (store : Store)
    (raised : (tool.runFaulty (storeWorld engine) faults store).1 = .raised exposure.error) :
    ∃ result : ToolResult Value,
      ((toolSafe runtime tool).runFaulty (storeWorld engine) faults store).1 = .returned result ∧
      (¬exposure.Tells result.message → exposure.error.hasFixedMessage = true ∨
        exposure.conninfo.Reaches classes exposure.password) ∧
      (exposure.error.hasFixedMessage = true ∨
        (exposure.Unspliceable ∧ exposure.conninfo.Reaches classes exposure.password) →
        ¬exposure.Tells result.message) := by
  refine ⟨mapExceptionToResult runtime exposure.error, ?_, fun concealed => ?_, fun condition => ?_⟩
  · rw [runFaulty_toolSafe, raised]
    rfl
  · cases fixed : exposure.error.hasFixedMessage with
    | true => exact Or.inl rfl
    | false =>
      refine Or.inr (by_contra fun unreached => concealed ?_)
      exact (exposure.tells_message fixed).mpr
          ((exposure.tells_sanitizeMessage redacts).1 unreached)
  · cases fixed : exposure.error.hasFixedMessage with
    | true => exact exposure.not_tells_fixed fixed
    | false =>
      rw [fixed, or_iff_right Bool.false_ne_true] at condition
      rw [exposure.tells_message fixed]
      exact (exposure.tells_sanitizeMessage redacts).2 condition.1 condition.2

/-! ### Two URLs of one database -/

/-- `re.sub` of the four patterns on ASCII texts. -/
def asciiSub (pattern marker text : String) : String :=
  let patterns : List (String × Pattern Char) :=
    [("postgresql://[^\\s]+", databasePattern), ("https?://[^\\s]+", webPattern),
      ("\\b[\\w.-]+:\\d\x7b2,5\x7d\\b", hostPortPattern asciiClasses),
      ("/([\\w.-]+/)*[\\w.-]+\\.(key|pem|crt|token)", keyFilePattern asciiClasses)]
  match patterns.lookup pattern with
  | some compiled => String.ofList (substitute compiled marker.toList text.toList)
  | none => text

/-- A runtime with that `re.sub`. -/
def redactingRuntime : Runtime :=
  { Runtime.ofTables [] [] [] with sub := asciiSub }

theorem redacts_redactingRuntime : Redacts asciiClasses redactingRuntime where
  database := fun _ => rfl
  web := fun _ => rfl
  hostPort := fun _ => rfl
  keyFile := fun _ => rfl

/-- A connection that is refused, with a URL of either scheme. -/
def refused (scheme : Scheme) : Exposure redactingRuntime where
  conninfo := .url scheme "fleet" "db/memory"
  password := "s3cret"
  before := "cannot connect to "
  after := ""
  error := .valueError ("cannot connect to " ++ scheme.opening ++ "fleet:s3cret@db/memory")
  some_password := by decide
  spaceless := List.all_iff_forall_prop.mp (by decide)
  wellFormed := ⟨by decide, by decide, by decide, by decide, by decide⟩
  beforeClosed := by decide
  afterOpened := by decide
  embeds := by cases scheme <;> rfl
  once := by cases scheme <;> decide
  unstated := by decide

/-- A tool that raises for a connection that is refused. -/
def refusedTool (scheme : Scheme) : StoreM Unit :=
  throw (refused scheme).error

theorem toolSafe_conceals_postgresql :
    ∃ result : ToolResult Unit,
      ((toolSafe redactingRuntime (refusedTool .postgresql)).runFaulty
        (storeWorld (prefixEngine fun _ _ _ => none)) [] ∅).1 = .returned result ∧
      ¬(refused .postgresql).Tells result.message := by
  obtain ⟨result, returned, -, concealed⟩ := toolSafe_conceals_iff redacts_redactingRuntime
    (refused .postgresql) (refusedTool .postgresql) (prefixEngine fun _ _ _ => none) [] ∅ rfl
  refine ⟨result, returned, concealed (Or.inr ⟨?_, Or.inl ⟨rfl, ?_⟩⟩)⟩
  · unfold Exposure.Unspliceable
    decide
  · exact List.all_iff_forall_prop.mp (by decide)

/-- The password of a `postgres://` URL is told to the client. -/
theorem tells_postgres :
    ∃ result : ToolResult Unit,
      ((toolSafe redactingRuntime (refusedTool .postgres)).runFaulty
        (storeWorld (prefixEngine fun _ _ _ => none)) [] ∅).1 = .returned result ∧
      (refused .postgres).Tells result.message := by
  refine ⟨mapExceptionToResult redactingRuntime (refused .postgres).error, ?_, ?_⟩
  · rw [runFaulty_toolSafe]
    rfl
  · refine ((refused .postgres).tells_message rfl).mpr
      (((refused .postgres).tells_sanitizeMessage redacts_redactingRuntime).1 ?_)
    rintro (⟨same, -⟩ | found)
    · cases same
    · exact absurd found (by decide)

end FleetMemory
