/-
This file is a small library of redaction: a text is read from left to right, and every stretch that
a pattern matches is replaced by a marker. A reading is the list of its pieces, the letters kept and
the stretches hit. A secret that stands once in a text is gone when a hit reaches into it, and
nothing brings it back as long as it cannot be spliced with a marker; a secret whose letters are all
kept stays.
-/

import Mathlib.Data.List.Infix
import Mathlib.Data.List.Basic

namespace Redaction

variable {Letter : Type}

/-! ### Readings -/

/-- How many letters a pattern matches at a place, given the letter before it. -/
abbrev Pattern (Letter : Type) := Option Letter → List Letter → Option Nat

/-- A piece of a reading. -/
inductive Piece (Letter : Type) where
  | kept (letter : Letter)
  | hit (stretch : List Letter)

/-- What was read as a piece. -/
def Piece.read : Piece Letter → List Letter
  | kept letter => [letter]
  | hit stretch => stretch

/-- What is shown for a piece. -/
def Piece.shown (marker : List Letter) : Piece Letter → List Letter
  | kept letter => [letter]
  | hit _ => marker

/-- Whether a piece is a hit. -/
def Piece.isHit : Piece Letter → Bool
  | kept _ => false
  | hit _ => true

/-- The text that was read. -/
def original (pieces : List (Piece Letter)) : List Letter :=
  pieces.flatMap Piece.read

/-- The text that is shown for it. -/
def displayed (marker : List Letter) (pieces : List (Piece Letter)) : List Letter :=
  pieces.flatMap (Piece.shown marker)

/-- The pieces of a text, the letters of the stretch hit last being skipped. -/
def readFrom (pattern : Pattern Letter) : Nat → Option Letter → List Letter → List (Piece Letter)
  | _, _, [] => []
  | skipped + 1, _, letter :: rest => readFrom pattern skipped (some letter) rest
  | 0, previous, letter :: rest =>
    match pattern previous (letter :: rest) with
    | some count =>
      .hit ((letter :: rest).take count) :: readFrom pattern (count - 1) (some letter) rest
    | none => .kept letter :: readFrom pattern 0 (some letter) rest

/-- The pieces of a whole text. -/
def reading (pattern : Pattern Letter) (text : List Letter) : List (Piece Letter) :=
  readFrom pattern 0 none text

/-- `re.sub(pattern, marker, text)`. -/
def substitute (pattern : Pattern Letter) (marker text : List Letter) : List Letter :=
  displayed marker (reading pattern text)

/-- `re.search(pattern, text) is not None`. -/
def occurs (pattern : Pattern Letter) (text : List Letter) : Bool :=
  (reading pattern text).any Piece.isHit

theorem original_cons (piece : Piece Letter) (rest : List (Piece Letter)) :
    original (piece :: rest) = piece.read ++ original rest := rfl

@[simp] theorem original_append (first second : List (Piece Letter)) :
    original (first ++ second) = original first ++ original second :=
  List.flatMap_append

@[simp] theorem displayed_append (marker : List Letter) (first second : List (Piece Letter)) :
    displayed marker (first ++ second) = displayed marker first ++ displayed marker second :=
  List.flatMap_append

@[simp] theorem original_map_kept (text : List Letter) : original (text.map Piece.kept) = text := by
  rw [original, List.flatMap_map]
  exact List.flatMap_singleton' text

@[simp] theorem displayed_map_kept (marker text : List Letter) :
    displayed marker (text.map Piece.kept) = text := by
  rw [displayed, List.flatMap_map]
  exact List.flatMap_singleton' text

/-- A pattern matches one letter at least, and none beyond the text. -/
structure SoundPattern (pattern : Pattern Letter) : Prop where
  pos : ∀ {previous text count}, pattern previous text = some count → 0 < count
  le : ∀ {previous text count}, pattern previous text = some count → count ≤ text.length

theorem SoundPattern.nil {pattern : Pattern Letter} (sound : SoundPattern pattern)
    (previous : Option Letter) :
    pattern previous [] = none := by
  cases matched : pattern previous [] with
  | none => rfl
  | some count => exact absurd (sound.le matched) (Nat.not_le.mpr (sound.pos matched))

/-- The pieces make up the text. -/
theorem original_readFrom {pattern : Pattern Letter} (sound : SoundPattern pattern) (skipped : Nat)
    (previous : Option Letter) (text : List Letter) :
    original (readFrom pattern skipped previous text) = text.drop skipped := by
  induction text generalizing skipped previous with
  | nil => simp [readFrom, original]
  | cons letter rest inductionHypothesis =>
    cases skipped with
    | succ skipped => rw [readFrom, inductionHypothesis, List.drop_succ_cons]
    | zero =>
      rw [readFrom, List.drop_zero]
      split
      · rename_i count matched
        obtain ⟨less, rfl⟩ := Nat.exists_eq_succ_of_ne_zero (sound.pos matched).ne'
        rw [original, List.flatMap_cons, ← original, inductionHypothesis, Piece.read,
          List.take_succ_cons,
          List.cons_append, Nat.succ_sub_one, List.take_append_drop]
      · rw [original, List.flatMap_cons, ← original, inductionHypothesis, List.drop_zero]
        rfl

theorem original_reading {pattern : Pattern Letter} (sound : SoundPattern pattern)
    (text : List Letter) :
    original (reading pattern text) = text :=
  original_readFrom sound 0 none text

/-- Nothing is shown but letters of the text and of the marker. -/
theorem mem_substitute {pattern : Pattern Letter} (sound : SoundPattern pattern)
    {marker text : List Letter} {letter : Letter}
    (member : letter ∈ substitute pattern marker text) : letter ∈ text ∨ letter ∈ marker := by
  obtain ⟨piece, inside, shownIn⟩ := List.mem_flatMap.mp member
  cases piece with
  | hit stretch => exact Or.inr shownIn
  | kept other =>
    rw [← original_reading sound text]
    exact Or.inl (List.mem_flatMap.mpr ⟨_, inside, shownIn⟩)

/-- Without a hit every letter is kept. -/
theorem reading_of_not_occurs {pattern : Pattern Letter} (sound : SoundPattern pattern)
    {text : List Letter} (missing : occurs pattern text = false) :
    reading pattern text = text.map Piece.kept := by
  have kept (some_pieces : List (Piece Letter)) (none_hit : some_pieces.any Piece.isHit = false) :
      some_pieces = (original some_pieces).map Piece.kept := by
    induction some_pieces with
    | nil => rfl
    | cons piece rest inductionHypothesis =>
      rw [List.any_cons, Bool.or_eq_false_iff] at none_hit
      cases piece with
      | hit stretch => cases none_hit.1
      | kept letter => exact congrArg (Piece.kept letter :: ·) (inductionHypothesis none_hit.2)
  rw [kept _ missing, original_reading sound]

/-- A search that finds something tells where the reading has a hit. -/
theorem exists_hit_of_occurs {pattern : Pattern Letter} {text : List Letter}
    (found : occurs pattern text = true) :
    ∃ before stretch after, reading pattern text = before ++ Piece.hit stretch :: after := by
  obtain ⟨piece, member, isHit⟩ := List.any_eq_true.mp found
  obtain ⟨before, after, split⟩ := List.append_of_mem member
  cases piece with
  | kept letter => cases isHit
  | hit stretch => exact ⟨before, stretch, after, split⟩

/-- What was hit is what the pattern matched at some place. -/
theorem exists_match_of_hit {pattern : Pattern Letter} {skipped : Nat} {previous : Option Letter}
    {text stretch : List Letter}
    (member : Piece.hit stretch ∈ readFrom pattern skipped previous text) :
    ∃ before rest count, pattern before rest = some count ∧ stretch = rest.take count := by
  induction text generalizing skipped previous with
  | nil => cases member
  | cons letter rest inductionHypothesis =>
    cases skipped with
    | succ skipped => exact inductionHypothesis member
    | zero =>
      rw [readFrom] at member
      split at member
      · rename_i count matched
        rcases List.mem_cons.mp member with here | later
        · exact ⟨_, _, count, matched, Piece.hit.inj here⟩
        · exact inductionHypothesis later
      · rcases List.mem_cons.mp member with here | later
        · cases here
        · exact inductionHypothesis later

theorem stretch_ne_nil {pattern : Pattern Letter} (sound : SoundPattern pattern)
    {text stretch : List Letter} (member : Piece.hit stretch ∈ reading pattern text) :
    stretch ≠ [] := by
  obtain ⟨before, rest, count, matched, rfl⟩ := exists_match_of_hit member
  have some_letter := sound.pos matched
  have within := sound.le matched
  rw [← List.length_pos_iff, List.length_take]
  omega

/-! ### Letters that no match goes beyond -/

/-- Some letters end every match before them, and start a text as if nothing were before. -/
structure StopsAt (pattern : Pattern Letter) (blocks : Letter → Prop) : Prop where
  ends : ∀ {letter}, blocks letter → ∀ previous text rest,
    pattern previous (text ++ letter :: rest) = pattern previous text
  forgets : ∀ {letter}, blocks letter → ∀ text, pattern (some letter) text = pattern none text

/-- The text is empty or ends with such a letter. -/
def ClosedBy (blocks : Letter → Prop) (text : List Letter) : Prop :=
  ∀ letter ∈ text.getLast?, blocks letter

/-- The text is empty or begins with such a letter. -/
def OpenedBy (blocks : Letter → Prop) (text : List Letter) : Prop :=
  ∀ letter ∈ text.head?, blocks letter

instance (blocks : Letter → Prop) [DecidablePred blocks] (text : List Letter) :
    Decidable (ClosedBy blocks text) :=
  inferInstanceAs (Decidable (∀ letter ∈ text.getLast?, blocks letter))

instance (blocks : Letter → Prop) [DecidablePred blocks] (text : List Letter) :
    Decidable (OpenedBy blocks text) :=
  inferInstanceAs (Decidable (∀ letter ∈ text.head?, blocks letter))

theorem ClosedBy.imp {blocks others : Letter → Prop}
    (weaker : ∀ {letter}, blocks letter → others letter)
    {text : List Letter} (closed : ClosedBy blocks text) : ClosedBy others text :=
  fun letter last => weaker (closed letter last)

theorem OpenedBy.imp {blocks others : Letter → Prop}
    (weaker : ∀ {letter}, blocks letter → others letter)
    {text : List Letter} (opened : OpenedBy blocks text) : OpenedBy others text :=
  fun letter first => weaker (opened letter first)

theorem ClosedBy.append {blocks : Letter → Prop} {first second : List Letter}
    (firstClosed : ClosedBy blocks first) (secondClosed : ClosedBy blocks second) :
    ClosedBy blocks (first ++ second) := by
  intro letter last
  rw [List.getLast?_append, Option.mem_def, Option.or_eq_some_iff] at last
  rcases last with ofSecond | ⟨-, ofFirst⟩
  · exact secondClosed letter ofSecond
  · exact firstClosed letter ofFirst

theorem OpenedBy.append {blocks : Letter → Prop} {first second : List Letter}
    (firstOpened : OpenedBy blocks first) (secondOpened : OpenedBy blocks second) :
    OpenedBy blocks (first ++ second) := by
  intro letter head
  rw [List.head?_append, Option.mem_def, Option.or_eq_some_iff] at head
  rcases head with ofFirst | ⟨-, ofSecond⟩
  · exact firstOpened letter ofFirst
  · exact secondOpened letter ofSecond

section

variable {pattern : Pattern Letter} {blocks : Letter → Prop}

theorem readFrom_block (sound : SoundPattern pattern) (stops : StopsAt pattern blocks)
    {letter : Letter}
    (blocked : blocks letter) (skipped : Nat) (previous : Option Letter)
    (first second : List Letter) (within : skipped ≤ first.length) :
    readFrom pattern skipped previous (first ++ letter :: second) =
      readFrom pattern skipped previous first ++ Piece.kept letter :: reading pattern second := by
  induction first generalizing skipped previous with
  | nil =>
    obtain rfl := Nat.le_zero.mp within
    have unmatched : pattern previous (letter :: second) = none :=
      (stops.ends blocked previous [] second).trans (sound.nil previous)
    change readFrom pattern 0 previous (letter :: second) =
      Piece.kept letter :: reading pattern second
    rw [readFrom, unmatched]
    cases second with
    | nil => rfl
    | cons next rest => simp only [readFrom, reading, stops.forgets blocked]
  | cons other first inductionHypothesis =>
    cases skipped with
    | succ skipped =>
      exact inductionHypothesis skipped (some other) (Nat.le_of_succ_le_succ within)
    | zero =>
      have same := stops.ends blocked previous (other :: first) second
      rw [List.cons_append] at same ⊢
      rw [readFrom, readFrom, same]
      cases matched : pattern previous (other :: first) with
      | none => exact congrArg (_ :: ·) (inductionHypothesis 0 (some other) (Nat.zero_le _))
      | some count =>
        have bound := sound.le matched
        have short : count - 1 ≤ first.length := by
          rw [List.length_cons] at bound
          omega
        have taken : (other :: (first ++ letter :: second)).take count =
            (other :: first).take count := by
          rw [← List.cons_append, List.take_append_of_le_length bound]
        dsimp only
        rw [inductionHypothesis (count - 1) (some other) short, taken, List.cons_append]

theorem reading_closed (sound : SoundPattern pattern) (stops : StopsAt pattern blocks)
    {first : List Letter} (closed : ClosedBy blocks first) (second : List Letter) :
    reading pattern (first ++ second) = reading pattern first ++ reading pattern second := by
  rcases List.eq_nil_or_concat first with rfl | ⟨front, letter, rfl⟩
  · rfl
  · have blocked : blocks letter := closed letter (by simp)
    rw [List.concat_eq_append, List.append_assoc, List.singleton_append, reading, reading,
      readFrom_block sound stops blocked 0 none front second (Nat.zero_le _),
      readFrom_block sound stops blocked 0 none front [] (Nat.zero_le _), List.append_assoc]
    rfl

theorem reading_opened (sound : SoundPattern pattern) (stops : StopsAt pattern blocks)
    (first : List Letter) {second : List Letter} (opened : OpenedBy blocks second) :
    reading pattern (first ++ second) = reading pattern first ++ reading pattern second := by
  cases second with
  | nil => rw [List.append_nil, reading, reading, readFrom, List.append_nil]
  | cons letter rest =>
    have blocked : blocks letter := opened letter rfl
    have alone := readFrom_block sound stops blocked 0 none [] rest (Nat.zero_le _)
    rw [List.nil_append, readFrom, List.nil_append] at alone
    rw [reading, readFrom_block sound stops blocked 0 none first rest (Nat.zero_le _), ← alone]
    rfl

/-- What is shown of a text that a stopping letter ends still ends with it. -/
theorem getLast?_substitute (sound : SoundPattern pattern) (stops : StopsAt pattern blocks)
    (marker : List Letter) {text : List Letter} (closed : ClosedBy blocks text) :
    (substitute pattern marker text).getLast? = text.getLast? := by
  rcases List.eq_nil_or_concat text with rfl | ⟨front, letter, rfl⟩
  · rfl
  · have blocked : blocks letter := closed letter (by simp)
    rw [List.concat_eq_append, substitute, reading,
      readFrom_block sound stops blocked 0 none front [] (Nat.zero_le _), displayed_append]
    simp [reading, readFrom, displayed, Piece.shown]

/-- What is shown of a text that a stopping letter begins still begins with it. -/
theorem head?_substitute (sound : SoundPattern pattern) (stops : StopsAt pattern blocks)
    (marker : List Letter) {text : List Letter} (opened : OpenedBy blocks text) :
    (substitute pattern marker text).head? = text.head? := by
  cases text with
  | nil => rfl
  | cons letter rest =>
    have blocked : blocks letter := opened letter rfl
    have alone := readFrom_block sound stops blocked 0 none [] rest (Nat.zero_le _)
    rw [List.nil_append] at alone
    rw [substitute, reading, alone]
    rfl

end

/-! ### Secrets -/

/-- No end of the secret begins the marker and no beginning of it ends the marker, and neither
contains the other. -/
def Unspliced (marker secret : List Letter) : Prop :=
  (∀ part ∈ secret.tails, part ≠ [] → ¬part <+: marker) ∧
    (∀ part ∈ secret.inits, part ≠ [] → ¬part <:+ marker) ∧
    ¬marker <:+: secret ∧ ¬secret <:+: marker

instance [DecidableEq Letter] (marker secret : List Letter) :
    Decidable (Unspliced marker secret) :=
  inferInstanceAs (Decidable (_ ∧ _))

variable {marker secret : List Letter}

/-- A secret that stands in a text with a marker stands before it or behind it. -/
theorem Unspliced.split (unspliced : Unspliced marker secret) {before after : List Letter}
    (inside : secret <:+: before ++ (marker ++ after)) :
    secret <:+: before ∨ secret <:+: after := by
  obtain ⟨ending, opening, apart, absent⟩ := unspliced
  rcases List.infix_append_iff_ne_nil.mp inside with left | right | crossing
  · exact Or.inl left
  · rcases List.infix_append_iff_ne_nil.mp right with left | right | crossing
    · exact absurd left absent
    · exact Or.inr right
    · obtain ⟨first, second, firstSome, -, rfl, firstIn, -⟩ := crossing
      exact absurd firstIn (opening first ((List.mem_inits _ _).mpr (List.prefix_append _ _))
        firstSome)
  · obtain ⟨first, second, -, secondSome, rfl, -, secondIn⟩ := crossing
    rcases List.prefix_or_prefix_of_prefix secondIn (List.prefix_append marker after) with
      short | ⟨rest, rfl⟩
    · exact absurd short (ending second ((List.mem_tails _ _).mpr (List.suffix_append _ _))
        secondSome)
    · exact absurd ⟨first, rest, by rw [List.append_assoc]⟩ apart

/-- Nothing that is shown holds a secret that was not read. -/
theorem not_infix_displayed (unspliced : Unspliced marker secret)
    {some_pieces : List (Piece Letter)}
    (front : List Letter) (missing : ¬secret <:+: front ++ original some_pieces) :
    ¬secret <:+: front ++ displayed marker some_pieces := by
  induction some_pieces generalizing front with
  | nil => exact missing
  | cons piece rest inductionHypothesis =>
    cases piece with
    | kept letter =>
      have later : ¬secret <:+: (front ++ [letter]) ++ original rest := by
        rwa [List.append_assoc]
      have shownLater := inductionHypothesis _ later
      rwa [List.append_assoc] at shownLater
    | hit stretch =>
      intro inside
      rcases unspliced.split inside with left | right
      · exact missing (left.trans (List.prefix_append _ _).isInfix)
      · have later : ¬secret <:+: [] ++ original rest := fun found =>
          missing (found.trans (List.IsSuffix.isInfix ⟨front ++ stretch, by
            rw [List.append_assoc]; rfl⟩))
        exact inductionHypothesis [] later right

/-- A secret that is not in a text is not in what is shown of it. -/
theorem not_infix_substitute {pattern : Pattern Letter} (sound : SoundPattern pattern)
    (unspliced : Unspliced marker secret) {text : List Letter} (missing : ¬secret <:+: text) :
    ¬secret <:+: substitute pattern marker text := by
  have unread : ¬secret <:+: [] ++ original (reading pattern text) := by
    rwa [original_reading sound]
  exact not_infix_displayed unspliced [] unread

/-- The secret stands in a text at its place and nowhere else. -/
def OccursOnce (lead secret trail : List Letter) : Prop :=
  ¬secret <:+: lead ++ secret.dropLast ∧ ¬secret <:+: secret.tail ++ trail

instance [DecidableEq Letter] (lead secret trail : List Letter) :
    Decidable (OccursOnce lead secret trail) :=
  inferInstanceAs (Decidable (_ ∧ _))

/-- A hit that reaches into the secret: where it starts and where it ends. -/
def Overlapped (some_pieces : List (Piece Letter)) (lead secret : List Letter) : Prop :=
  ∃ before stretch after, some_pieces = before ++ Piece.hit stretch :: after ∧
    (original before).length < lead.length + secret.length ∧
    lead.length < (original before).length + stretch.length

/-- A secret that a hit reaches is gone. -/
theorem Overlapped.not_displayed {some_pieces : List (Piece Letter)} {lead trail : List Letter}
    (reached : Overlapped some_pieces lead secret)
    (whole : original some_pieces = lead ++ (secret ++ trail))
    (once : OccursOnce lead secret trail) (unspliced : Unspliced marker secret) :
    ¬secret <:+: displayed marker some_pieces := by
  obtain ⟨before, stretch, after, rfl, starts, ends⟩ := reached
  rw [original_append] at whole
  have parts : original before ++ (stretch ++ original after) = lead ++ (secret ++ trail) := whole
  have lengths := congrArg List.length parts
  simp only [List.length_append] at lengths
  intro inside
  rw [displayed_append] at inside
  rcases unspliced.split inside with left | right
  · refine not_infix_displayed unspliced [] (fun found => once.1 ?_) left
    have front : original before <+: lead ++ (secret ++ trail) := ⟨_, parts⟩
    have cut : lead ++ secret.dropLast <+: lead ++ (secret ++ trail) :=
      (List.prefix_append_right_inj lead).mpr
        ((List.dropLast_prefix secret).trans (List.prefix_append _ _))
    refine found.trans (List.prefix_of_prefix_length_le front cut ?_).isInfix
    rw [List.length_append, List.length_dropLast]
    omega
  · refine not_infix_displayed unspliced [] (fun found => once.2 ?_) right
    have back : original after <:+ lead ++ (secret ++ trail) := by
      rw [← parts, ← List.append_assoc]
      exact List.suffix_append _ _
    have cut : secret.tail ++ trail <:+ lead ++ (secret ++ trail) := by
      obtain ⟨head, same⟩ := List.tail_suffix secret
      refine ⟨lead ++ head, ?_⟩
      rw [List.append_assoc, ← List.append_assoc head, same]
    refine found.trans (List.suffix_of_suffix_length_le back cut ?_).isInfix
    rw [List.length_append, List.length_tail]
    omega

theorem Overlapped.gone {pattern : Pattern Letter} (sound : SoundPattern pattern)
    {lead trail : List Letter}
    (reached : Overlapped (reading pattern (lead ++ (secret ++ trail))) lead secret)
    (once : OccursOnce lead secret trail) (unspliced : Unspliced marker secret) :
    ¬secret <:+: substitute pattern marker (lead ++ (secret ++ trail)) :=
  reached.not_displayed (original_reading sound _) once unspliced

/-- A secret whose letters are kept still stands once in what is shown. -/
theorem OccursOnce.shown {before after : List (Piece Letter)} (unspliced : Unspliced marker secret)
    (once : OccursOnce (original before) secret (original after)) :
    OccursOnce (displayed marker before) secret (displayed marker after) := by
  constructor
  · have missing : ¬secret <:+: [] ++ original (before ++ secret.dropLast.map Piece.kept) := by
      rw [original_append, original_map_kept]
      exact once.1
    have later := not_infix_displayed unspliced [] missing
    rwa [displayed_append, displayed_map_kept] at later
  · have missing : ¬secret <:+: [] ++ original (secret.tail.map Piece.kept ++ after) := by
      rw [original_append, original_map_kept]
      exact once.2
    have later := not_infix_displayed unspliced [] missing
    rwa [displayed_append, displayed_map_kept] at later

/-- A reading that keeps the letters of the secret, and what it shows around them. -/
structure KeepsSecret (pattern : Pattern Letter)
    (marker secret lead trail shownLead shownTrail : List Letter) :
    Prop where
  split : ∃ before after,
    reading pattern (lead ++ (secret ++ trail)) = before ++ (secret.map Piece.kept ++ after) ∧
      original before = lead ∧ original after = trail ∧ displayed marker before = shownLead ∧
      displayed marker after = shownTrail

section

variable {pattern : Pattern Letter} {lead trail shownLead shownTrail : List Letter}

theorem KeepsSecret.substitute_eq
    (keeps : KeepsSecret pattern marker secret lead trail shownLead shownTrail) :
    substitute pattern marker (lead ++ (secret ++ trail)) =
      shownLead ++ (secret ++ shownTrail) := by
  obtain ⟨before, after, split, -, -, rfl, rfl⟩ := keeps.split
  rw [substitute, split, displayed_append, displayed_append, displayed_map_kept]

theorem KeepsSecret.once (keeps : KeepsSecret pattern marker secret lead trail shownLead shownTrail)
    (unspliced : Unspliced marker secret) (once : OccursOnce lead secret trail) :
    OccursOnce shownLead secret shownTrail := by
  obtain ⟨before, after, -, rfl, rfl, rfl, rfl⟩ := keeps.split
  exact once.shown unspliced

/-! ### A secret between letters that no match goes beyond -/

variable {blocks : Letter → Prop}

theorem reading_between (sound : SoundPattern pattern) (stops : StopsAt pattern blocks)
    (closed : ClosedBy blocks lead) (middle : List Letter) (opened : OpenedBy blocks trail) :
    reading pattern (lead ++ (middle ++ trail)) =
      reading pattern lead ++ (reading pattern middle ++ reading pattern trail) := by
  rw [reading_closed sound stops closed, reading_opened sound stops middle opened]

/-- Where nothing is found, in the secret and in what is looked at with it, the secret is kept. -/
theorem keeps_between (marker : List Letter) (sound : SoundPattern pattern)
    (stops : StopsAt pattern blocks) (closed : ClosedBy blocks lead) (host : List Letter)
    (opened : OpenedBy blocks trail)
    (missing : occurs pattern (host ++ secret) = false) :
    KeepsSecret pattern marker secret (lead ++ host) trail (substitute pattern marker lead ++ host)
      (substitute pattern marker trail) where
  split := by
    refine ⟨reading pattern lead ++ host.map Piece.kept, reading pattern trail, ?_, ?_,
      original_reading sound trail, ?_, rfl⟩
    · rw [List.append_assoc, ← List.append_assoc host, reading_between sound stops closed _ opened,
        reading_of_not_occurs sound missing, List.map_append]
      simp only [List.append_assoc]
    · rw [original_append, original_reading sound, original_map_kept]
    · rw [displayed_append, displayed_map_kept]
      rfl

/-- What is found there reaches the secret, if it goes beyond what is looked at with it. -/
theorem reached_between (sound : SoundPattern pattern) (stops : StopsAt pattern blocks)
    (closed : ClosedBy blocks lead) (host : List Letter) (opened : OpenedBy blocks trail)
    (beyond : ∀ before stretch after,
      reading pattern (host ++ secret) = before ++ Piece.hit stretch :: after →
        host.length < (original before).length + stretch.length)
    (found : occurs pattern (host ++ secret) = true) :
    Overlapped (reading pattern ((lead ++ host) ++ (secret ++ trail))) (lead ++ host) secret := by
  obtain ⟨before, stretch, after, split⟩ := exists_hit_of_occurs found
  have parts : original before ++ (stretch ++ original after) = host ++ secret := by
    rw [← original_reading sound (host ++ secret), split, original_append]
    rfl
  have member : Piece.hit stretch ∈ reading pattern (host ++ secret) := by
    rw [split]
    exact List.mem_append_right _ List.mem_cons_self
  have some_stretch := List.length_pos_iff.mpr (stretch_ne_nil sound member)
  have lengths := congrArg List.length parts
  simp only [List.length_append] at lengths
  refine ⟨reading pattern lead ++ before, stretch, after ++ reading pattern trail, ?_, ?_, ?_⟩
  · rw [List.append_assoc, ← List.append_assoc host, reading_between sound stops closed _ opened,
      split]
    simp only [List.append_assoc, List.cons_append]
  · rw [original_append, original_reading sound, List.length_append, List.length_append]
    omega
  · have later := beyond before stretch after split
    rw [original_append, original_reading sound, List.length_append, List.length_append]
    omega

end

/-! ### Patterns that only look ahead -/

/-- What a pattern matches does not depend on the letter before. -/
def LooksAhead (pattern : Pattern Letter) : Prop :=
  ∀ previous text, pattern previous text = pattern none text

section

variable {pattern : Pattern Letter}

theorem readFrom_ahead (ahead : LooksAhead pattern) (previous : Option Letter)
    (text : List Letter) :
    readFrom pattern 0 previous text = reading pattern text := by
  cases text with
  | nil => rfl
  | cons letter rest => rw [reading, readFrom, readFrom, ahead previous]

/-- A search finds something exactly when the pattern matches at some place. -/
theorem occurs_iff (sound : SoundPattern pattern) (ahead : LooksAhead pattern)
    {text : List Letter} :
    occurs pattern text = true ↔
      ∃ before rest, text = before ++ rest ∧ (pattern none rest).isSome = true := by
  induction text with
  | nil =>
    refine iff_of_false (fun found => by cases found) ?_
    rintro ⟨before, rest, empty, matched⟩
    obtain ⟨-, rfl⟩ := List.append_eq_nil_iff.mp empty.symm
    rw [sound.nil] at matched
    cases matched
  | cons letter rest inductionHypothesis =>
    rw [occurs, reading, readFrom]
    cases matched : pattern none (letter :: rest) with
    | some count =>
      refine iff_of_true rfl ⟨[], letter :: rest, rfl, ?_⟩
      rw [matched]
      rfl
    | none =>
      dsimp only
      rw [List.any_cons, readFrom_ahead ahead, Piece.isHit, Bool.false_or, ← occurs,
        inductionHypothesis]
      constructor
      · rintro ⟨before, after, rfl, found⟩
        exact ⟨letter :: before, after, rfl, found⟩
      · rintro ⟨before, after, same, found⟩
        rcases List.cons_eq_append_iff.mp same with ⟨rfl, rfl⟩ | ⟨front, rfl, rfl⟩
        · rw [matched] at found
          cases found
        · exact ⟨front, after, rfl, found⟩

/-- Letters before which nothing is matched are kept. -/
theorem reading_front (ahead : LooksAhead pattern) {front back : List Letter}
    (unmatched : ∀ before rest, front = before ++ rest → rest ≠ [] →
      pattern none (rest ++ back) = none) :
    reading pattern (front ++ back) = front.map Piece.kept ++ reading pattern back := by
  induction front with
  | nil => rfl
  | cons letter front inductionHypothesis =>
    have here : pattern none (letter :: (front ++ back)) = none :=
      unmatched [] (letter :: front) rfl (List.cons_ne_nil _ _)
    rw [reading, List.cons_append, readFrom, here, readFrom_ahead ahead, inductionHypothesis]
    · rfl
    · rintro before rest rfl some_rest
      exact unmatched (letter :: before) rest rfl some_rest

theorem readFrom_length (pattern : Pattern Letter) (previous : Option Letter) (text : List Letter) :
    readFrom pattern text.length previous text = [] := by
  induction text generalizing previous with
  | nil => rw [readFrom]
  | cons letter rest inductionHypothesis => exact inductionHypothesis (some letter)

/-- Where a match takes all that is left, the first one is the only hit. -/
theorem reading_swallowed (ahead : LooksAhead pattern) {before rest : List Letter}
    (swallows : ∀ front back count, before ++ rest = front ++ back →
      pattern none back = some count → count = back.length)
    (some_rest : rest ≠ []) (matched : (pattern none rest).isSome = true) :
    ∃ front back, before ++ rest = front ++ back ∧ front.length ≤ before.length ∧ back ≠ [] ∧
      reading pattern (before ++ rest) = front.map Piece.kept ++ [Piece.hit back] := by
  have hit_here (letter : Letter) (others : List Letter) (count : Nat)
      (here : pattern none (letter :: others) = some count)
      (all : count = (letter :: others).length) :
      reading pattern (letter :: others) = [Piece.hit (letter :: others)] := by
    rw [reading, readFrom, here, all]
    dsimp only
    rw [List.take_length, List.length_cons, Nat.add_sub_cancel, readFrom_length]
  induction before with
  | nil =>
    obtain ⟨letter, others, rfl⟩ := List.exists_cons_of_ne_nil some_rest
    obtain ⟨count, here⟩ := Option.isSome_iff_exists.mp matched
    exact ⟨[], _, rfl, le_rfl, some_rest,
      hit_here letter others count here (swallows [] _ count rfl here)⟩
  | cons letter before inductionHypothesis =>
    cases here : pattern none (letter :: (before ++ rest)) with
    | some count =>
      exact ⟨[], _, rfl, Nat.zero_le _, List.cons_ne_nil _ _,
        hit_here letter _ count here (swallows [] _ count rfl here)⟩
    | none =>
      obtain ⟨front, back, same, bound, some_back, original⟩ :=
        inductionHypothesis fun front back count same found =>
          swallows (letter :: front) back count (congrArg (letter :: ·) same) found
      refine ⟨letter :: front, back, congrArg (letter :: ·) same,
        Nat.succ_le_succ bound, some_back, ?_⟩
      rw [List.cons_append, reading, readFrom, here, readFrom_ahead ahead, original]
      rfl

end

end Redaction
