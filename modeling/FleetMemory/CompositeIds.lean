/-
This file models the identifiers that are composed of several raw ids: the first id in the
identifier charset, and twelve digits of a hash of all the ids joined with a separator. Raw
ids that do not hold the separator are told apart by what is hashed, and whatever is composed
passes the check of a payload's identifier. A raw id is a Python string, which may hold half a
surrogate pair: of such an id nothing is composed.
-/

import FleetMemory.Chronicler
import FleetMemory.Envelopes
import FleetMemory.Utf8
import FleetMemory.WriteFrames
import Mathlib.Data.Bool.AllAny

namespace FleetMemory

open Transitions DeterministicWriter

/-! ### Python strings -/

/-- A code point of a Python string: a character, or half a surrogate pair, counted from U+D800. -/
inductive CodePoint where
  | character (character : Char)
  | surrogate (offset : Fin 0x800)
deriving DecidableEq, Repr

/-- `str`. -/
abbrev PyStr := List CodePoint

/-- A `UnicodeEncodeError`: where what has no UTF-8 starts and ends. -/
structure UnicodeEncodeError where
  start : Nat
  stop : Nat
deriving DecidableEq, Repr

namespace PyStr

/-- The Python string of a text. -/
def ofString (text : String) : PyStr :=
  text.toList.map .character

/-- The bytes of what stands behind a position. Halves of surrogate pairs are refused together. -/
def encodeFrom (position : Nat) : PyStr → Except UnicodeEncodeError (List UInt8)
  | [] => .ok []
  | .character character :: rest => do
    let encoded ← encodeFrom (position + 1) rest
    return String.utf8EncodeChar character ++ encoded
  | .surrogate _ :: rest =>
    .error ⟨position, position + 1 + (rest.takeWhile fun
      | .surrogate _ => true
      | .character _ => false).length⟩

/-- `text.encode("utf-8")`. -/
def encode (text : PyStr) : Except UnicodeEncodeError (List UInt8) :=
  encodeFrom 0 text

/-- Every code point is a character. -/
def Encodable (text : PyStr) : Prop :=
  ∀ offset, .surrogate offset ∉ text

theorem encodeFrom_eq_ok {text : PyStr} {position : Nat} {encoded : List UInt8} :
    encodeFrom position text = .ok encoded ↔
      ∃ characters : List Char,
        text = characters.map .character ∧ Utf8.bytes characters = encoded := by
  induction text generalizing position encoded with
  | nil =>
    constructor
    · rintro ⟨⟩
      exact ⟨[], rfl, rfl⟩
    · rintro ⟨characters, empty, rfl⟩
      rw [List.map_eq_nil_iff.mp empty.symm]
      rfl
  | cons point rest inductionHypothesis =>
    cases point with
    | character character =>
      rw [encodeFrom, except_bind_eq_ok]
      constructor
      · rintro ⟨behind, later, returned⟩
        obtain ⟨characters, rfl, rfl⟩ := inductionHypothesis.mp later
        exact ⟨character :: characters, rfl, Except.ok.inj returned⟩
      · rintro ⟨characters, spelled, rfl⟩
        obtain ⟨first, others, rfl, same, behind⟩ := List.map_eq_cons_iff.mp spelled.symm
        obtain rfl := CodePoint.character.inj same
        exact ⟨_, inductionHypothesis.mpr ⟨others, behind.symm, rfl⟩, rfl⟩
    | surrogate offset =>
      refine iff_of_false (by rw [encodeFrom]; exact nofun) ?_
      rintro ⟨characters, spelled, -⟩
      obtain ⟨first, others, -, same, -⟩ := List.map_eq_cons_iff.mp spelled.symm
      cases same

theorem encodable_iff {text : PyStr} :
    Encodable text ↔ ∃ characters : List Char, text = characters.map .character := by
  constructor
  · intro encodable
    induction text with
    | nil => exact ⟨[], rfl⟩
    | cons point rest inductionHypothesis =>
      obtain ⟨characters, rfl⟩ := inductionHypothesis fun offset inside =>
        encodable offset (List.mem_cons_of_mem _ inside)
      cases point with
      | character character => exact ⟨character :: characters, rfl⟩
      | surrogate offset => exact absurd List.mem_cons_self (encodable offset)
  · rintro ⟨characters, rfl⟩ offset inside
    obtain ⟨character, -, same⟩ := List.mem_map.mp inside
    cases same

/-- A string is encoded exactly when it holds no half of a surrogate pair. -/
theorem encode_returns_iff {text : PyStr} :
    (∃ encoded, encode text = .ok encoded) ↔ Encodable text := by
  rw [encodable_iff]
  constructor
  · rintro ⟨encoded, returned⟩
    obtain ⟨characters, spelled, -⟩ := encodeFrom_eq_ok.mp returned
    exact ⟨characters, spelled⟩
  · rintro ⟨characters, spelled⟩
    exact ⟨_, encodeFrom_eq_ok.mpr ⟨characters, spelled, rfl⟩⟩

theorem encode_injective {first second : PyStr} {encoded : List UInt8}
    (firstEncoded : encode first = .ok encoded) (secondEncoded : encode second = .ok encoded) :
    first = second := by
  obtain ⟨characters, rfl, rfl⟩ := encodeFrom_eq_ok.mp firstEncoded
  obtain ⟨others, rfl, same⟩ := encodeFrom_eq_ok.mp secondEncoded
  rw [Utf8.bytes_injective same]

theorem encodable_ofString (text : String) : Encodable (ofString text) :=
  encodable_iff.mpr ⟨text.toList, rfl⟩

theorem encode_ofString (text : String) :
    encode (ofString text) = .ok (Utf8.bytes text.toList) :=
  encodeFrom_eq_ok.mpr ⟨text.toList, rfl, rfl⟩

end PyStr

/-! ### The composition -/

/-- What SHA-256 gives: 32 bytes. -/
abbrev Digest := Vector UInt8 32

/-- The two digits of a byte. -/
def hexByte (byte : UInt8) : List Char :=
  [Nat.digitChar (byte.toNat / 16), Nat.digitChar (byte.toNat % 16)]

/-- `hexdigest()`. -/
def Digest.hexdigest (digest : Digest) : String :=
  String.ofList (digest.toList.flatMap hexByte)

/-- `hexdigest()[:12]`. -/
def Digest.hex12 (digest : Digest) : String :=
  String.ofList (digest.hexdigest.toList.take 12)

/-- `_UNIT_SEPARATOR`. -/
def unitSeparator : CodePoint := .character '\x1f'

/-- `_UNIT_SEPARATOR.join(raw_parts)`. -/
def joinedParts (rawParts : List PyStr) : PyStr :=
  List.intercalate [unitSeparator] rawParts

/-- What the hash is taken of. -/
def hashInput (rawParts : List PyStr) : Except UnicodeEncodeError (List UInt8) :=
  (joinedParts rawParts).encode

/-- Replace every code point outside the identifier charset with an underscore. -/
def PyStr.norm (sourceId : PyStr) : String :=
  String.ofList (sourceId.map fun
    | .character character => if Text.word character then character else '_'
    | .surrogate _ => '_')

/-- The project segment of a raw project id. -/
def PyStr.normProject (projectId : PyStr) : String :=
  projectId.norm.toLower

section

variable (sha256 : List UInt8 → Digest)

/-- The hash that tells apart identifiers with the same first part. -/
def compositeHash (rawParts : List PyStr) : Except UnicodeEncodeError String := do
  let raw ← hashInput rawParts
  return (sha256 raw).hex12

/-- The identifier of a first raw id and the others. -/
def compositeIdentifier (primaryId : PyStr) (rawParts : List PyStr) :
    Except UnicodeEncodeError String := do
  let hash ← compositeHash sha256 (primaryId :: rawParts)
  return primaryId.norm ++ "_" ++ hash

end

/-! ### What is hashed -/

namespace PyStr

theorem encodable_append {first second : PyStr} :
    Encodable (first ++ second) ↔ Encodable first ∧ Encodable second := by
  simp only [Encodable, List.mem_append, not_or, forall_and]

theorem encodable_joinedParts {rawParts : List PyStr} :
    Encodable (joinedParts rawParts) ↔ ∀ part ∈ rawParts, Encodable part := by
  induction rawParts with
  | nil => exact ⟨fun _ _ => nofun, fun _ _ => nofun⟩
  | cons part rest inductionHypothesis =>
    cases rest with
    | nil =>
      rw [joinedParts, List.intercalate_singleton]
      exact List.forall_mem_singleton.symm
    | cons next others =>
      have separator : Encodable [unitSeparator] := by
        intro offset inside
        cases List.mem_singleton.mp inside
      rw [joinedParts] at inductionHypothesis
      rw [joinedParts, List.intercalate_cons_cons, encodable_append, encodable_append,
        inductionHypothesis, @List.forall_mem_cons _ _ part]
      exact ⟨fun parts => ⟨parts.1.1, parts.2⟩, fun parts => ⟨⟨parts.1, separator⟩, parts.2⟩⟩

end PyStr

/-- Raw ids without the separator, one of them at least, are told from what they are joined to. -/
theorem joinedParts_injOn :
    Set.InjOn joinedParts {rawParts | rawParts ≠ [] ∧ ∀ part ∈ rawParts, unitSeparator ∉ part} := by
  rintro first ⟨firstSome, firstFree⟩ second ⟨secondSome, secondFree⟩ same
  calc first = (joinedParts first).splitOn unitSeparator :=
        (List.splitOn_intercalate unitSeparator firstFree firstSome).symm
    _ = (joinedParts second).splitOn unitSeparator := congrArg _ same
    _ = second := List.splitOn_intercalate unitSeparator secondFree secondSome

theorem hashInput_returns_iff {rawParts : List PyStr} :
    (∃ raw, hashInput rawParts = .ok raw) ↔ ∀ part ∈ rawParts, part.Encodable :=
  PyStr.encode_returns_iff.trans PyStr.encodable_joinedParts

/-- Ids that are hashed alike are the same ids. -/
theorem hashInput_injective {first second : List PyStr} (firstSome : first ≠ [])
    (secondSome : second ≠ []) (firstFree : ∀ part ∈ first, unitSeparator ∉ part)
    (secondFree : ∀ part ∈ second, unitSeparator ∉ part) {raw : List UInt8}
    (firstFed : hashInput first = .ok raw) (secondFed : hashInput second = .ok raw) :
    first = second :=
  joinedParts_injOn ⟨firstSome, firstFree⟩ ⟨secondSome, secondFree⟩
    (PyStr.encode_injective firstFed secondFed)

-- no ids at all are hashed like one empty id
example : hashInput [] = hashInput [[]] := rfl

/-! ### The digits of the hash -/

theorem digitChar_mem {number : Nat} (small : number < 16) :
    Nat.digitChar number ∈ "0123456789abcdef".toList := by
  revert number
  decide

theorem hexByte_digits (byte : UInt8) :
    ∀ letter ∈ hexByte byte, letter ∈ "0123456789abcdef".toList := by
  have bound : byte.toNat < 256 := byte.toNat_lt
  intro letter member
  rcases List.mem_pair.mp member with rfl | rfl
  · exact digitChar_mem (by omega)
  · exact digitChar_mem (by omega)

namespace Digest

variable (digest : Digest)

theorem length_hexdigest : digest.hexdigest.toList.length = 64 := by
  have pairs : ∀ bytes : List UInt8, (bytes.flatMap hexByte).length = 2 * bytes.length := by
    intro bytes
    induction bytes with
    | nil => rfl
    | cons byte rest inductionHypothesis =>
      rw [List.flatMap_cons, List.length_append, inductionHypothesis, List.length_cons]
      simp only [hexByte, List.length_cons, List.length_nil]
      omega
  rw [hexdigest, String.toList_ofList, pairs, Vector.length_toList]

theorem length_hex12 : digest.hex12.toList.length = 12 := by
  rw [hex12, String.toList_ofList, List.length_take, length_hexdigest]
  rfl

theorem hex12_digits : ∀ letter ∈ digest.hex12.toList, letter ∈ "0123456789abcdef".toList := by
  intro letter member
  rw [hex12, String.toList_ofList] at member
  have inside := List.mem_of_mem_take member
  rw [hexdigest, String.toList_ofList, List.mem_flatMap] at inside
  obtain ⟨byte, -, here⟩ := inside
  exact hexByte_digits byte letter here

theorem word_of_mem_hex12 {letter : Char} (member : letter ∈ digest.hex12.toList) :
    Text.word letter = true := by
  have digits : "0123456789abcdef".toList.all Text.word = true := by decide
  exact List.all_eq_true.mp digits letter (digest.hex12_digits letter member)

end Digest

/-! ### What is composed -/

theorem PyStr.word_of_mem_norm {sourceId : PyStr} {letter : Char}
    (member : letter ∈ sourceId.norm.toList) : Text.word letter = true := by
  rw [norm, String.toList_ofList, List.mem_map] at member
  obtain ⟨point, -, rfl⟩ := member
  cases point with
  | character character =>
    dsimp only
    split
    · assumption
    · rfl
  | surrogate offset => rfl

/-- On a text, the identifier charset is what it is for the slug of a story. -/
theorem PyStr.norm_ofString (text : String) :
    (PyStr.ofString text).norm = FleetMemory.norm text := by
  rw [PyStr.norm, ofString, List.map_map, FleetMemory.norm]
  rfl

/-- The segment of a project is a part of a namespace. -/
theorem PyStr.validPart_normProject {projectId : PyStr} (some_id : projectId ≠ []) :
    validPart projectId.normProject = true := by
  have letters : projectId.normProject.toList = projectId.norm.toList.map Char.toLower :=
    Text.toList_toLower _
  rw [validPart, Text.fullMatch, letters, Bool.and_eq_true, List.all_eq_true]
  constructor
  · simpa [norm] using some_id
  · intro letter member
    obtain ⟨source, inside, rfl⟩ := List.mem_map.mp member
    exact Text.lowerWord_toLower (word_of_mem_norm inside)

section

variable {sha256 : List UInt8 → Digest} {primaryId : PyStr} {rawParts : List PyStr}
  {hash identifier : String}

theorem compositeHash_eq_ok :
    compositeHash sha256 rawParts = .ok hash ↔
      ∃ raw, hashInput rawParts = .ok raw ∧ (sha256 raw).hex12 = hash := by
  rw [compositeHash, except_bind_eq_ok]
  simp only [pure, Except.pure, Except.ok.injEq]

theorem compositeIdentifier_eq_ok :
    compositeIdentifier sha256 primaryId rawParts = .ok identifier ↔
      ∃ raw, hashInput (primaryId :: rawParts) = .ok raw ∧
        primaryId.norm ++ "_" ++ (sha256 raw).hex12 = identifier := by
  rw [compositeIdentifier, except_bind_eq_ok]
  constructor
  · rintro ⟨hash, hashed, returned⟩
    obtain ⟨raw, fed, rfl⟩ := compositeHash_eq_ok.mp hashed
    exact ⟨raw, fed, Except.ok.inj returned⟩
  · rintro ⟨raw, fed, rfl⟩
    exact ⟨_, compositeHash_eq_ok.mpr ⟨raw, fed, rfl⟩, rfl⟩

/-- The composition returns exactly when no id holds half a surrogate pair. -/
theorem compositeIdentifier_returns_iff :
    (∃ identifier, compositeIdentifier sha256 primaryId rawParts = .ok identifier) ↔
      ∀ part ∈ primaryId :: rawParts, part.Encodable := by
  rw [← hashInput_returns_iff]
  constructor
  · rintro ⟨identifier, returned⟩
    obtain ⟨raw, fed, -⟩ := compositeIdentifier_eq_ok.mp returned
    exact ⟨raw, fed⟩
  · rintro ⟨raw, fed⟩
    exact ⟨_, compositeIdentifier_eq_ok.mpr ⟨raw, fed, rfl⟩⟩

theorem fullMatch_of_compositeIdentifier
    (returned : compositeIdentifier sha256 primaryId rawParts = .ok identifier) :
    Text.fullMatch Text.word identifier = true := by
  obtain ⟨raw, -, rfl⟩ := compositeIdentifier_eq_ok.mp returned
  have letters : (primaryId.norm ++ "_" ++ (sha256 raw).hex12).toList =
      primaryId.norm.toList ++ '_' :: (sha256 raw).hex12.toList := by
    rw [String.toList_append, String.toList_append, List.append_assoc]
    rfl
  rw [Text.fullMatch, letters, Bool.and_eq_true, List.all_eq_true]
  refine ⟨by simp, fun letter member => ?_⟩
  rcases List.mem_append.mp member with first | behind
  · exact PyStr.word_of_mem_norm first
  · rcases List.mem_cons.mp behind with rfl | digits
    · rfl
    · exact (sha256 raw).word_of_mem_hex12 digits

/-- The last twelve letters of an identifier are the digits of its hash. -/
theorem hex12_eq_of_composed {first second : String} {firstDigest secondDigest : Digest}
    (same : first ++ "_" ++ firstDigest.hex12 = second ++ "_" ++ secondDigest.hex12) :
    first = second ∧ firstDigest.hex12 = secondDigest.hex12 := by
  have lists := congrArg String.toList same
  rw [String.toList_append, @String.toList_append (second ++ "_")] at lists
  obtain ⟨front, digits⟩ := List.append_inj' lists
    (by rw [Digest.length_hex12, Digest.length_hex12])
  rw [String.toList_append, String.toList_append] at front
  exact ⟨String.toList_inj.mp (List.append_cancel_right front), String.toList_inj.mp digits⟩

end

/-! ### Different ids -/

/-- A first raw id and the others, none of which holds the separator. -/
def RawIds (ids : PyStr × List PyStr) : Prop :=
  ∀ part ∈ ids.1 :: ids.2, unitSeparator ∉ part

/-- What the hash is taken of for the given ids. -/
def hashInputs (tuples : Set (PyStr × List PyStr)) : Set (List UInt8) :=
  {raw | ∃ ids ∈ tuples, hashInput (ids.1 :: ids.2) = .ok raw}

/-- The twelve digits tell apart what is hashed for the given ids. -/
def CollisionFree (sha256 : List UInt8 → Digest) (tuples : Set (PyStr × List PyStr)) : Prop :=
  Set.InjOn (fun raw => (sha256 raw).hex12) (hashInputs tuples)

section

variable {sha256 : List UInt8 → Digest} {tuples : Set (PyStr × List PyStr)}

theorem eq_of_compositeIdentifier (rawIds : ∀ ids ∈ tuples, RawIds ids)
    (collisionFree : CollisionFree sha256 tuples) {first second : PyStr × List PyStr}
    (member : first ∈ tuples) (inside : second ∈ tuples) {identifier : String}
    (composed : compositeIdentifier sha256 first.1 first.2 = .ok identifier)
    (alike : compositeIdentifier sha256 second.1 second.2 = .ok identifier) : first = second := by
  obtain ⟨raw, fed, rfl⟩ := compositeIdentifier_eq_ok.mp composed
  obtain ⟨other, otherFed, same⟩ := compositeIdentifier_eq_ok.mp alike
  have digits : (sha256 raw).hex12 = (sha256 other).hex12 := (hex12_eq_of_composed same).2.symm
  obtain rfl := collisionFree ⟨first, member, fed⟩ ⟨second, inside, otherFed⟩ digits
  have parts := hashInput_injective (List.cons_ne_nil _ _) (List.cons_ne_nil _ _)
    (rawIds first member) (rawIds second inside) fed otherFed
  obtain ⟨primary, others⟩ := List.cons.inj parts
  exact Prod.ext primary others

end

/-- Raw ids without the separator are told apart by what they are joined to and by what is hashed,
so that with a hash free of collisions different ids have different identifiers; and identifiers
are composed of all ids without halves of surrogate pairs, and of these alone, and pass the check
of a payload. -/
theorem compositeIdentifier_identifies (sha256 : List UInt8 → Digest) :
    (Set.InjOn joinedParts {rawParts | rawParts ≠ [] ∧ ∀ part ∈ rawParts, unitSeparator ∉ part} ∧
      ∀ first second : List PyStr, first ≠ [] → second ≠ [] →
        (∀ part ∈ first, unitSeparator ∉ part) → (∀ part ∈ second, unitSeparator ∉ part) →
        ∀ raw, hashInput first = .ok raw → hashInput second = .ok raw → first = second) ∧
    (∀ tuples : Set (PyStr × List PyStr), (∀ ids ∈ tuples, RawIds ids) →
      CollisionFree sha256 tuples → ∀ first ∈ tuples, ∀ second ∈ tuples, ∀ identifier,
        compositeIdentifier sha256 first.1 first.2 = .ok identifier →
        compositeIdentifier sha256 second.1 second.2 = .ok identifier → first = second) ∧
    ∀ (primaryId : PyStr) (rawParts : List PyStr),
      ((∃ identifier, compositeIdentifier sha256 primaryId rawParts = .ok identifier) ↔
        ∀ part ∈ primaryId :: rawParts, part.Encodable) ∧
      ∀ identifier, compositeIdentifier sha256 primaryId rawParts = .ok identifier →
        Text.fullMatch Text.word identifier = true ∧
        validateIdentifier "identifier" (.str identifier) = .ok () := by
  refine ⟨⟨joinedParts_injOn, ?_⟩, ?_, fun primaryId rawParts => ⟨?_, ?_⟩⟩
  · intro first second firstSome secondSome firstFree secondFree raw
    exact hashInput_injective firstSome secondSome firstFree secondFree
  · intro tuples rawIds collisionFree first member second inside identifier
    exact eq_of_compositeIdentifier rawIds collisionFree member inside
  · exact compositeIdentifier_returns_iff
  · intro identifier composed
    have matched := fullMatch_of_compositeIdentifier composed
    exact ⟨matched, validateIdentifier_of_fullMatch matched⟩

/-- Two pairs of ids that are alike once their parts are normalized and joined. -/
def boundaryIds : Set (PyStr × List PyStr) :=
  {(.ofString "po-heldout", [.ofString "idea-x"]), (.ofString "po-heldout-idea", [.ofString "x"])}

/-- SHA-256 of what is hashed for the two pairs. -/
def boundaryDigest (raw : List UInt8) : Digest :=
  if raw = Utf8.bytes "po-heldout\x1fidea-x".toList then
    #v[0x44, 0xb8, 0x2e, 0xe9, 0x19, 0xb5, 0xd7, 0xa6, 0xf1, 0x84, 0x36, 0x6a, 0x0f, 0x13, 0x0e,
      0xec, 0xd2, 0x0f, 0x16, 0x26, 0x4c, 0xb2, 0x49, 0x0e, 0xc2, 0xa0, 0x58, 0xc2, 0x13, 0x29,
      0x45, 0x51]
  else
    #v[0xd4, 0xcc, 0x1d, 0x4d, 0x13, 0xc6, 0xd4, 0x2b, 0x09, 0x1e, 0x98, 0x96, 0x44, 0x1e, 0x29,
      0xec, 0x82, 0x52, 0xe6, 0xf4, 0xa6, 0x6a, 0x72, 0x85, 0x9b, 0x79, 0x4a, 0x98, 0x2f, 0x75,
      0x92, 0xa8]

example : compositeIdentifier boundaryDigest (.ofString "po-heldout") [.ofString "idea-x"] =
    .ok "po_heldout_44b82ee919b5" := by decide +kernel

theorem collisionFree_boundaryIds : CollisionFree boundaryDigest boundaryIds := by
  have fed : hashInputs boundaryIds ⊆ {Utf8.bytes "po-heldout\x1fidea-x".toList,
      Utf8.bytes "po-heldout-idea\x1fx".toList} := by
    rintro raw ⟨ids, rfl | rfl, returned⟩
    · exact Or.inl (Except.ok.inj returned).symm
    · exact Or.inr (Except.ok.inj returned).symm
  refine Set.InjOn.mono fed ?_
  rintro first (rfl | rfl) second (rfl | rfl) same
  · rfl
  · exact absurd same (by decide +kernel)
  · exact absurd same (by decide +kernel)
  · rfl

theorem rawIds_boundaryIds : ∀ ids ∈ boundaryIds, RawIds ids := by
  rintro ids (rfl | rfl)
  · exact List.all_iff_forall_prop.mp (by decide)
  · exact List.all_iff_forall_prop.mp (by decide)

/-- Ids that collide once normalized and joined have different identifiers. -/
theorem compositeIdentifier_boundary_ne :
    compositeIdentifier boundaryDigest (.ofString "po-heldout") [.ofString "idea-x"] ≠
      compositeIdentifier boundaryDigest (.ofString "po-heldout-idea") [.ofString "x"] := by
  intro same
  obtain ⟨-, apart, composes⟩ := compositeIdentifier_identifies boundaryDigest
  obtain ⟨identifier, composed⟩ := (composes (.ofString "po-heldout") [.ofString "idea-x"]).1.mpr
    (List.forall_mem_cons.mpr ⟨PyStr.encodable_ofString _,
      List.forall_mem_singleton.mpr (PyStr.encodable_ofString _)⟩)
  have alike := apart boundaryIds rawIds_boundaryIds collisionFree_boundaryIds _ (Or.inl rfl) _
    (Or.inr rfl) identifier composed (same ▸ composed)
  exact absurd alike (by decide)

/-- Of half a surrogate pair no identifier is composed. -/
theorem not_composed_of_surrogate :
    compositeIdentifier boundaryDigest [.surrogate 0] [] = .error ⟨0, 1⟩ ∧
      ¬∀ (primaryId : PyStr) (rawParts : List PyStr), ∃ identifier,
        compositeIdentifier boundaryDigest primaryId rawParts = .ok identifier ∧
          Text.fullMatch Text.word identifier = true ∧
          validateIdentifier "identifier" (.str identifier) = .ok () := by
  have raised : compositeIdentifier boundaryDigest [.surrogate 0] [] = .error ⟨0, 1⟩ := rfl
  refine ⟨raised, fun always => ?_⟩
  obtain ⟨identifier, composed, -⟩ := always [.surrogate 0] []
  rw [raised] at composed
  cases composed

/-! ### Texts -/

theorem joinedParts_ofString (texts : List String) :
    joinedParts (texts.map PyStr.ofString) = PyStr.ofString (Text.join '\x1f' texts) := by
  rw [Text.join, PyStr.ofString, String.toList_ofList, joinedParts]
  induction texts with
  | nil => rfl
  | cons text rest inductionHypothesis =>
    cases rest with
    | nil =>
      simp only [List.map_cons, List.map_nil, List.intercalate_singleton]
      rfl
    | cons next others =>
      rw [List.map_cons, List.map_cons, List.intercalate_cons_cons, ← List.map_cons,
        inductionHypothesis]
      simp only [List.map_cons, List.intercalate_cons_cons, List.map_append]
      rfl

/-- Ids that are texts always have an identifier. -/
theorem compositeIdentifier_ofString (sha256 : List UInt8 → Digest) (primaryId : String)
    (rawParts : List String) :
    compositeIdentifier sha256 (.ofString primaryId) (rawParts.map .ofString) =
      .ok (norm primaryId ++ "_" ++
        (sha256 (Utf8.bytes (Text.join '\x1f' (primaryId :: rawParts)).toList)).hex12) := by
  refine compositeIdentifier_eq_ok.mpr ⟨_, ?_, by rw [PyStr.norm_ofString]⟩
  rw [hashInput, ← List.map_cons, joinedParts_ofString, PyStr.encode_ofString]

/-! ### Records of different ids -/

section

variable {sha256 : List UInt8 → Digest} {tuples : Set (PyStr × List PyStr)}
  {ids : PyStr × List PyStr} {payload : Payload} {writer : DeterministicWriter}

/-- A call that writes other ids and does not list the record leaves it as it is. -/
theorem lookup_of_other_ids (rawIds : ∀ ids ∈ tuples, RawIds ids)
    (collisionFree : CollisionFree sha256 tuples) (member : ids ∈ tuples)
    (composed : compositeIdentifier sha256 ids.1 ids.2 = .ok payload.identifier)
    {before after : Store} {call : WriteCall}
    (other : ∃ others ∈ tuples, others ≠ ids ∧
      compositeIdentifier sha256 others.1 others.2 = .ok call.payload.identifier)
    (apart :
      writer.runtime.uuid5 call.payload.naturalKey = writer.runtime.uuid5 payload.naturalKey →
        call.payload.naturalKey = payload.naturalKey)
    (unlisted : ¬Lists writer call.payload (writer.recordPlace payload))
    (step : CallStep writer before call after) :
    after.lookup (writer.recordPlace payload) = before.lookup (writer.recordPlace payload) := by
  by_contra changed
  rcases lookup_of_callStep step _ changed with own | ⟨listed, -⟩
  · obtain ⟨others, inside, different, alike⟩ := other
    have keys := apart (Place.mk.inj own).2.symm
    rw [identifier_of_naturalKey keys] at alike
    exact different (eq_of_compositeIdentifier rawIds collisionFree inside member alike composed)
  · exact unlisted listed

/-- Calls that write other ids never overwrite a record: they leave it as it is unless one lists
it. -/
theorem record_kept_of_other_ids (rawIds : ∀ ids ∈ tuples, RawIds ids)
    (collisionFree : CollisionFree sha256 tuples) (member : ids ∈ tuples)
    (composed : compositeIdentifier sha256 ids.1 ids.2 = .ok payload.identifier)
    {start final : Store} {calls : List WriteCall}
    (others : ∀ call ∈ calls, ∃ others ∈ tuples, others ≠ ids ∧
      compositeIdentifier sha256 others.1 others.2 = .ok call.payload.identifier)
    (apart : ∀ call ∈ calls,
      writer.runtime.uuid5 call.payload.naturalKey = writer.runtime.uuid5 payload.naturalKey →
        call.payload.naturalKey = payload.naturalKey)
    (unlisted : ∀ call ∈ calls, ¬Lists writer call.payload (writer.recordPlace payload))
    (run : Run (CallStep writer) start calls final) :
    final.lookup (writer.recordPlace payload) = start.lookup (writer.recordPlace payload) := by
  induction run with
  | nil => rfl
  | snoc earlier last inductionHypothesis =>
    simp only [List.forall_mem_append, List.forall_mem_singleton] at others apart unlisted
    rw [lookup_of_other_ids rawIds collisionFree member composed others.2 apart.2 unlisted.2 last]
    exact inductionHypothesis others.1 apart.1 unlisted.1

end

end FleetMemory
