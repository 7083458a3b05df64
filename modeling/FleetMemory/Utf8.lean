/-
This file is a small library of UTF-8 as a program sees it that cuts encoded texts at
any byte. Bytes are decoded one at a time by a machine that knows which continuation
bytes a started character still needs; what cannot be continued is replaced by one
U+FFFD. A window of an encoded text decodes to the characters that lie whole in it,
with nothing but replacements around them.
-/

import FleetMemory.Text

namespace Utf8

/-! ### Encoding -/

/-- `text.encode("utf-8")`. -/
def bytes (text : List Char) : List UInt8 :=
  text.flatMap String.utf8EncodeChar

/-- The number of bytes of a character. -/
def size (character : Char) : Nat :=
  (String.utf8EncodeChar character).length

@[simp] theorem bytes_nil : bytes [] = [] := rfl

@[simp] theorem bytes_cons (character : Char) (rest : List Char) :
    bytes (character :: rest) = String.utf8EncodeChar character ++ bytes rest := rfl

@[simp] theorem bytes_append (first second : List Char) :
    bytes (first ++ second) = bytes first ++ bytes second :=
  List.flatMap_append

theorem size_pos (character : Char) : 0 < size character :=
  List.length_pos_iff.mpr String.utf8EncodeChar_ne_nil

/-! ### Decoding with replacement -/

/-- The character that stands for bytes that are no UTF-8. -/
def replacement : Char := '\uFFFD'

/-- A character that was begun: how many continuation bytes it still needs, the bounds of the
next of them, and the code so far. -/
structure Begun where
  needed : Nat
  low : Nat
  high : Nat
  code : Nat

/-- What a byte starts: a character of its own, a longer one, or nothing. -/
def start (byte : UInt8) : List Char × Option Begun :=
  let lead := byte.toNat
  if lead < 0x80 then ([Char.ofNat lead], none)
  else if lead < 0xC2 then ([replacement], none)
  else if lead < 0xE0 then ([], some ⟨1, 0x80, 0xBF, lead - 0xC0⟩)
  else if lead < 0xF0 then
    ([], some ⟨2, if lead = 0xE0 then 0xA0 else 0x80, if lead = 0xED then 0x9F else 0xBF,
      lead - 0xE0⟩)
  else if lead < 0xF5 then
    ([], some ⟨3, if lead = 0xF0 then 0x90 else 0x80, if lead = 0xF4 then 0x8F else 0xBF,
      lead - 0xF0⟩)
  else ([replacement], none)

/-- One byte: the characters it completes, and the character it leaves begun. -/
def step (begun : Option Begun) (byte : UInt8) : List Char × Option Begun :=
  match begun with
  | none => start byte
  | some begun =>
    if begun.low ≤ byte.toNat ∧ byte.toNat ≤ begun.high then
      let code := begun.code * 64 + (byte.toNat - 0x80)
      if begun.needed = 1 then ([Char.ofNat code], none)
      else ([], some ⟨begun.needed - 1, 0x80, 0xBF, code⟩)
    -- the byte that does not continue the character starts one of its own
    else (replacement :: (start byte).1, (start byte).2)

/-- The characters of the bytes that follow a begun character. -/
def decodeFrom (begun : Option Begun) : List UInt8 → List Char
  | [] => if begun.isSome then [replacement] else []
  | byte :: rest => (step begun byte).1 ++ decodeFrom (step begun byte).2 rest

/-- `bytes.decode("utf-8", errors="replace")`. -/
def decode (encoded : List UInt8) : List Char :=
  decodeFrom none encoded

example : decode (bytes "a€é".toList) = "a€é".toList := by decide

example : decode ((bytes "a€é".toList).take 3) = ['a', replacement] := by decide

/-! ### Whole characters -/

theorem toNat_lt (character : Char) : character.toNat < 0x110000 := by
  rcases character.valid with small | ⟨_, small⟩
  · exact Nat.lt_trans small (by decide)
  · exact small

/-- The codes between the surrogates are no characters. -/
theorem not_surrogate (character : Char) :
    character.toNat < 0xD800 ∨ 0xDFFF < character.toNat := by
  rcases character.valid with small | ⟨large, _⟩
  · exact Or.inl small
  · exact Or.inr large

theorem decodeFrom_continues {needed low high code : Nat} {byte : UInt8}
    (above : low ≤ byte.toNat) (below : byte.toNat ≤ high) (rest : List UInt8) :
    decodeFrom (some ⟨needed + 2, low, high, code⟩) (byte :: rest) =
      decodeFrom (some ⟨needed + 1, 0x80, 0xBF, code * 64 + (byte.toNat - 0x80)⟩) rest := by
  rw [decodeFrom, step, if_pos ⟨above, below⟩, if_neg (by simp)]
  rfl

theorem decodeFrom_completes {low high code : Nat} {byte : UInt8} (above : low ≤ byte.toNat)
    (below : byte.toNat ≤ high) (rest : List UInt8) :
    decodeFrom (some ⟨1, low, high, code⟩) (byte :: rest) =
      Char.ofNat (code * 64 + (byte.toNat - 0x80)) :: decode rest := by
  rw [decodeFrom, step, if_pos ⟨above, below⟩, if_pos rfl]
  rfl

theorem decode_ascii {byte : UInt8} (small : byte.toNat < 0x80) (rest : List UInt8) :
    decode (byte :: rest) = Char.ofNat byte.toNat :: decode rest := by
  rw [decode, decodeFrom, step, start,
    if_pos small]
  rfl

theorem decode_two {byte : UInt8} (low : 0xC2 ≤ byte.toNat) (high : byte.toNat < 0xE0)
    (rest : List UInt8) :
    decode (byte :: rest) = decodeFrom (some ⟨1, 0x80, 0xBF, byte.toNat - 0xC0⟩) rest := by
  rw [decode, decodeFrom, step, start,
    if_neg (by omega), if_neg (by omega), if_pos high]
  rfl

theorem decode_three {byte : UInt8} (low : 0xE0 ≤ byte.toNat) (high : byte.toNat < 0xF0)
    (rest : List UInt8) :
    decode (byte :: rest) = decodeFrom (some ⟨2, if byte.toNat = 0xE0 then 0xA0 else 0x80,
      if byte.toNat = 0xED then 0x9F else 0xBF, byte.toNat - 0xE0⟩) rest := by
  rw [decode, decodeFrom, step, start,
    if_neg (by omega), if_neg (by omega), if_neg (by omega), if_pos high]
  rfl

theorem decode_four {byte : UInt8} (low : 0xF0 ≤ byte.toNat) (high : byte.toNat < 0xF5)
    (rest : List UInt8) :
    decode (byte :: rest) = decodeFrom (some ⟨3, if byte.toNat = 0xF0 then 0x90 else 0x80,
      if byte.toNat = 0xF4 then 0x8F else 0xBF, byte.toNat - 0xF0⟩) rest := by
  rw [decode, decodeFrom, step, start,
    if_neg (by omega), if_neg (by omega), if_neg (by omega), if_neg (by omega), if_pos high]
  rfl

/-- A byte that only continues a character starts none. -/
theorem decode_continuation {byte : UInt8} (low : 0x80 ≤ byte.toNat) (high : byte.toNat < 0xC2)
    (rest : List UInt8) : decode (byte :: rest) = replacement :: decode rest := by
  rw [decode, decodeFrom, step, start,
    if_neg (by omega), if_pos high]
  rfl

theorem toNat_ofNat {number : Nat} (small : number < 256) :
    (UInt8.ofNat number).toNat = number := by
  rw [UInt8.toNat_ofNat']
  exact Nat.mod_eq_of_lt small

theorem utf8EncodeChar_eq (character : Char) :
    String.utf8EncodeChar character =
      if character.toNat ≤ 0x7F then [UInt8.ofNat character.toNat]
      else if character.toNat ≤ 0x7FF then
        [UInt8.ofNat (character.toNat / 64 % 0x20 + 0xC0),
          UInt8.ofNat (character.toNat % 0x40 + 0x80)]
      else if character.toNat ≤ 0xFFFF then
        [UInt8.ofNat (character.toNat / 4096 % 0x10 + 0xE0),
          UInt8.ofNat (character.toNat / 64 % 0x40 + 0x80),
          UInt8.ofNat (character.toNat % 0x40 + 0x80)]
      else
        [UInt8.ofNat (character.toNat / 262144 % 0x08 + 0xF0),
          UInt8.ofNat (character.toNat / 4096 % 0x40 + 0x80),
          UInt8.ofNat (character.toNat / 64 % 0x40 + 0x80),
          UInt8.ofNat (character.toNat % 0x40 + 0x80)] := rfl

/-- A whole character is decoded to itself. -/
theorem decode_character (character : Char) (rest : List UInt8) :
    decode (String.utf8EncodeChar character ++ rest) = character :: decode rest := by
  have bound := toNat_lt character
  have plain := not_surrogate character
  have same : Char.ofNat character.toNat = character := Char.ofNat_toNat character
  rw [utf8EncodeChar_eq]
  generalize character.toNat = code at *
  split
  · rw [List.singleton_append, decode_ascii (by rw [toNat_ofNat (by omega)]; omega),
      toNat_ofNat (by omega), same]
  split
  · have first : (UInt8.ofNat (code / 64 % 0x20 + 0xC0)).toNat = code / 64 + 0xC0 := by
      rw [toNat_ofNat (by omega)]; omega
    have second : (UInt8.ofNat (code % 0x40 + 0x80)).toNat = code % 64 + 0x80 :=
      toNat_ofNat (by omega)
    rw [List.cons_append, List.singleton_append, decode_two (by omega) (by omega),
      decodeFrom_completes (by omega) (by omega), first, second]
    rw [show (code / 64 + 0xC0 - 0xC0) * 64 + (code % 64 + 0x80 - 0x80) = code by omega, same]
  split
  · have first : (UInt8.ofNat (code / 4096 % 0x10 + 0xE0)).toNat = code / 4096 + 0xE0 := by
      rw [toNat_ofNat (by omega)]; omega
    have second : (UInt8.ofNat (code / 64 % 0x40 + 0x80)).toNat = code / 64 % 64 + 0x80 :=
      toNat_ofNat (by omega)
    have third : (UInt8.ofNat (code % 0x40 + 0x80)).toNat = code % 64 + 0x80 :=
      toNat_ofNat (by omega)
    rw [List.cons_append, List.cons_append, List.singleton_append,
      decode_three (by omega) (by omega),
      decodeFrom_continues (by split <;> omega) (by split <;> omega),
      decodeFrom_completes (by omega) (by omega), first, second, third]
    rw [show ((code / 4096 + 0xE0 - 0xE0) * 64 + (code / 64 % 64 + 0x80 - 0x80)) * 64 +
      (code % 64 + 0x80 - 0x80) = code by omega, same]
  · have first : (UInt8.ofNat (code / 262144 % 0x08 + 0xF0)).toNat = code / 262144 + 0xF0 := by
      rw [toNat_ofNat (by omega)]; omega
    have second : (UInt8.ofNat (code / 4096 % 0x40 + 0x80)).toNat = code / 4096 % 64 + 0x80 :=
      toNat_ofNat (by omega)
    have third : (UInt8.ofNat (code / 64 % 0x40 + 0x80)).toNat = code / 64 % 64 + 0x80 :=
      toNat_ofNat (by omega)
    have fourth : (UInt8.ofNat (code % 0x40 + 0x80)).toNat = code % 64 + 0x80 :=
      toNat_ofNat (by omega)
    rw [List.cons_append, List.cons_append, List.cons_append, List.singleton_append,
      decode_four (by omega) (by omega),
      decodeFrom_continues (by split <;> omega) (by split <;> omega),
      decodeFrom_continues (by omega) (by omega),
      decodeFrom_completes (by omega) (by omega),
      first, second, third, fourth]
    rw [show (((code / 262144 + 0xF0 - 0xF0) * 64 + (code / 4096 % 64 + 0x80 - 0x80)) * 64 +
      (code / 64 % 64 + 0x80 - 0x80)) * 64 + (code % 64 + 0x80 - 0x80) = code by omega, same]

/-- What stands before whole characters does not change them. -/
theorem decode_bytes_append (text : List Char) (rest : List UInt8) :
    decode (bytes text ++ rest) = text ++ decode rest := by
  induction text with
  | nil => rfl
  | cons character text inductionHypothesis =>
    rw [bytes_cons, List.append_assoc, decode_character, inductionHypothesis, List.cons_append]

/-- A text that is encoded and decoded is the same text. -/
theorem decode_bytes (text : List Char) : decode (bytes text) = text := by
  have whole := decode_bytes_append text []
  rwa [List.append_nil, show decode [] = [] from rfl, List.append_nil] at whole

/-- Only NUL is encoded with a zero byte. -/
theorem nul_mem_of_zero_mem_bytes {text : List Char} (member : (0 : UInt8) ∈ bytes text) :
    '\x00' ∈ text := by
  obtain ⟨character, inside, byte⟩ := List.mem_flatMap.mp member
  suffices character.toNat = 0 by
    rwa [← show character = '\x00' by rw [← Char.ofNat_toNat character, this]]
  have bound := toNat_lt character
  have zero (number : Nat) (small : number < 256) (same : (0 : UInt8) = UInt8.ofNat number) :
      number = 0 := by
    have numbers := congrArg UInt8.toNat same
    rwa [toNat_ofNat small, eq_comm] at numbers
  rw [utf8EncodeChar_eq] at byte
  -- every lead byte but that of the ASCII characters is above zero, and so is what continues
  split at byte
  · exact zero _ (by omega) (List.mem_singleton.mp byte)
  split at byte
  · simp only [List.mem_cons, List.not_mem_nil, or_false] at byte
    rcases byte with lead | tail
    · exact absurd (zero _ (by omega) lead) (by omega)
    · exact absurd (zero _ (by omega) tail) (by omega)
  split at byte
  · simp only [List.mem_cons, List.not_mem_nil, or_false] at byte
    rcases byte with lead | middle | tail
    · exact absurd (zero _ (by omega) lead) (by omega)
    · exact absurd (zero _ (by omega) middle) (by omega)
    · exact absurd (zero _ (by omega) tail) (by omega)
  · simp only [List.mem_cons, List.not_mem_nil, or_false] at byte
    rcases byte with lead | first | middle | tail
    · exact absurd (zero _ (by omega) lead) (by omega)
    · exact absurd (zero _ (by omega) first) (by omega)
    · exact absurd (zero _ (by omega) middle) (by omega)
    · exact absurd (zero _ (by omega) tail) (by omega)

/-- Two texts are never encoded alike. -/
theorem bytes_injective {first second : List Char} (same : bytes first = bytes second) :
    first = second := by
  rw [← decode_bytes first, same, decode_bytes]

/-! ### Windows of an encoded text -/

/-- The bytes of a character behind its first only continue one. -/
theorem continuation_of_mem_tail {character : Char} {byte : UInt8}
    (member : byte ∈ (String.utf8EncodeChar character).tail) :
    0x80 ≤ byte.toNat ∧ byte.toNat < 0xC2 := by
  have continues (number : Nat) : 0x80 ≤ (UInt8.ofNat (number % 0x40 + 0x80)).toNat ∧
      (UInt8.ofNat (number % 0x40 + 0x80)).toNat < 0xC2 := by
    rw [toNat_ofNat (by omega)]
    omega
  rw [utf8EncodeChar_eq] at member
  split at member
  · cases member
  split at member
  · simp only [List.tail_cons, List.mem_singleton] at member
    rw [member]
    exact continues _
  split at member
  · simp only [List.tail_cons, List.mem_cons, List.not_mem_nil, or_false] at member
    rcases member with rfl | rfl
    · exact continues _
    · exact continues _
  · simp only [List.tail_cons, List.mem_cons, List.not_mem_nil, or_false] at member
    rcases member with rfl | rfl | rfl
    · exact continues _
    · exact continues _
    · exact continues _

/-- The rest of a cut character is replaced byte by byte. -/
theorem decode_continuations {cut rest : List UInt8}
    (continues : ∀ byte ∈ cut, 0x80 ≤ byte.toNat ∧ byte.toNat < 0xC2) :
    decode (cut ++ rest) = List.replicate cut.length replacement ++ decode rest := by
  induction cut with
  | nil => rfl
  | cons byte cut inductionHypothesis =>
    obtain ⟨low, high⟩ := continues byte List.mem_cons_self
    rw [List.cons_append, decode_continuation low high,
      inductionHypothesis fun other member => continues other (List.mem_cons_of_mem _ member),
      List.length_cons, List.replicate_succ, List.cons_append]

theorem continuation_of_mem_drop {character : Char} {byte : UInt8} {count : Nat}
    (member : byte ∈ (String.utf8EncodeChar character).drop (count + 1)) :
    0x80 ≤ byte.toNat ∧ byte.toNat < 0xC2 := by
  rw [Nat.add_comm, ← List.drop_drop, List.drop_one] at member
  exact continuation_of_mem_tail (List.mem_of_mem_drop member)

/-- A text read from any byte on: the rest of a cut character, and a rest of the text. -/
theorem drop_bytes (text : List Char) (count : Nat) :
    ∃ cut rest, (bytes text).drop count = cut ++ bytes rest ∧ rest <:+ text ∧
      ∀ byte ∈ cut, 0x80 ≤ byte.toNat ∧ byte.toNat < 0xC2 := by
  induction text generalizing count with
  | nil => exact ⟨[], [], by simp, List.suffix_refl _, by simp⟩
  | cons character text inductionHypothesis =>
    cases count with
    | zero => exact ⟨[], character :: text, rfl, List.suffix_refl _, by simp⟩
    | succ count =>
      rw [bytes_cons, List.drop_append]
      rcases Nat.lt_or_ge (count + 1) (String.utf8EncodeChar character).length with inside | past
      · refine ⟨(String.utf8EncodeChar character).drop (count + 1), text, ?_,
          List.suffix_cons _ _, fun byte member => continuation_of_mem_drop member⟩
        rw [Nat.sub_eq_zero_of_le inside.le, List.drop_zero]
      · obtain ⟨cut, rest, whole, suffix, continues⟩ :=
          inductionHypothesis (count + 1 - (String.utf8EncodeChar character).length)
        refine ⟨cut, rest, ?_, suffix.trans (List.suffix_cons _ _), continues⟩
        rw [List.drop_eq_nil_of_le past, List.nil_append, whole]

/-- The characters of a text, each with the byte it starts at. -/
def located : Nat → List Char → List (Nat × Char)
  | _, [] => []
  | offset, character :: rest => (offset, character) :: located (offset + size character) rest

/-- The character lies whole between two bytes. -/
def wholeIn (low high : Nat) (item : Nat × Char) : Bool :=
  decide (low ≤ item.1 ∧ item.1 + size item.2 ≤ high)

theorem map_snd_located (offset : Nat) (text : List Char) :
    (located offset text).map Prod.snd = text := by
  induction text generalizing offset with
  | nil => rfl
  | cons character rest inductionHypothesis =>
    rw [located, List.map_cons, inductionHypothesis]

theorem le_of_mem_located {offset : Nat} {text : List Char} {item : Nat × Char}
    (member : item ∈ located offset text) : offset ≤ item.1 := by
  induction text generalizing offset with
  | nil => cases member
  | cons character rest inductionHypothesis =>
    rcases List.mem_cons.mp member with rfl | later
    · exact le_rfl
    · exact (Nat.le_add_right _ _).trans (inductionHypothesis later)

/-- The characters of a text stand one behind the other. -/
theorem pairwise_located (offset : Nat) (text : List Char) :
    (located offset text).Pairwise fun first second => first.1 + size first.2 ≤ second.1 := by
  induction text generalizing offset with
  | nil => exact List.Pairwise.nil
  | cons character rest inductionHypothesis =>
    exact List.pairwise_cons.mpr
      ⟨fun item member => le_of_mem_located member, inductionHypothesis _⟩

/-- No character lies whole in a window that ends inside the first. -/
theorem filter_located_of_short {text : List Char} {character : Char} {offset low high : Nat}
    (short : high < offset + size character) :
    (located offset (character :: text)).filter (wholeIn low high) = [] := by
  refine List.filter_eq_nil_iff.mpr fun item member whole => ?_
  have inside := (of_decide_eq_true whole).2
  rcases List.mem_cons.mp member with rfl | later
  · dsimp only at inside
    omega
  · have behind := le_of_mem_located later
    omega

/-- A window of an encoded text shows the characters that lie whole in it. -/
theorem whole_sublist_decode (text : List Char) (offset low high : Nat) :
    (((located offset text).filter (wholeIn (offset + low) (offset + high))).map Prod.snd).Sublist
      (decode (((bytes text).take high).drop low)) := by
  induction text generalizing offset low high with
  | nil => exact List.nil_sublist _
  | cons character rest inductionHypothesis =>
    rcases Nat.lt_or_ge high (size character) with short | long
    · rw [filter_located_of_short (by omega)]
      exact List.nil_sublist _
    -- what lies whole behind the character is counted from its end
    have shifted : (located (offset + size character) rest).filter
        (wholeIn (offset + low) (offset + high)) =
          (located (offset + size character) rest).filter
            (wholeIn (offset + size character + (low - size character))
              (offset + size character + (high - size character))) := by
      refine List.filter_congr fun item member => ?_
      have behind := le_of_mem_located member
      rw [wholeIn, wholeIn, decide_eq_decide]
      omega
    have following := inductionHypothesis (offset + size character) (low - size character)
      (high - size character)
    rw [← shifted] at following
    have taken : (bytes (character :: rest)).take high =
        String.utf8EncodeChar character ++ (bytes rest).take (high - size character) := by
      rw [bytes_cons, List.take_append, List.take_of_length_le long]
      rfl
    rw [located, taken]
    cases low with
    | zero =>
      have here : wholeIn (offset + 0) (offset + high) (offset, character) = true :=
        decide_eq_true ⟨le_rfl, Nat.add_le_add_left long offset⟩
      rw [List.filter_cons_of_pos here, List.map_cons, List.drop_zero, decode_character]
      rw [Nat.zero_sub, List.drop_zero] at following
      exact following.cons_cons character
    | succ low =>
      have cut : ¬wholeIn (offset + (low + 1)) (offset + high) (offset, character) = true := by
        intro whole
        have inside := (of_decide_eq_true whole).1
        dsimp only at inside
        omega
      rw [List.filter_cons_of_neg cut, List.drop_append,
        decode_continuations fun byte member => continuation_of_mem_drop member]
      exact following.trans (List.sublist_append_right _ _)

end Utf8
