/-
This file is a small library of streams of framed entries: a key, a terminator that no key holds,
and a body that may hold anything, entry after entry, with nothing that says where a body ends. It
proves exactly which lists of entries their stream determines, and that the keys with the sizes of
the bodies always do.
-/

import Mathlib.Data.List.Basic

namespace Framing

section

variable {Key Byte : Type} (encode : Key → List Byte) (terminator : Byte)

/-! ### Streams -/

/-- One entry: its key, the terminator, and its body. -/
def frame (entry : Key × List Byte) : List Byte :=
  encode entry.1 ++ terminator :: entry.2

/-- The entries one behind the other. -/
def stream (entries : List (Key × List Byte)) : List Byte :=
  entries.flatMap (frame encode terminator)

@[simp] theorem stream_nil : stream encode terminator ([] : List (Key × List Byte)) = [] := rfl

theorem stream_cons (entry : Key × List Byte) (rest : List (Key × List Byte)) :
    stream encode terminator (entry :: rest) =
      encode entry.1 ++ terminator :: (entry.2 ++ stream encode terminator rest) := by
  rw [stream, List.flatMap_cons, frame, List.append_assoc, List.cons_append]
  rfl

theorem stream_singleton (entry : Key × List Byte) :
    stream encode terminator [entry] = frame encode terminator entry := by
  rw [stream, List.flatMap_singleton]

/-- The entries behind the first may as well be the end of its body. -/
theorem stream_merged (entry : Key × List Byte) (rest : List (Key × List Byte)) :
    stream encode terminator [(entry.1, entry.2 ++ stream encode terminator rest)] =
      stream encode terminator (entry :: rest) := by
  rw [stream_cons, stream_cons, stream_nil, List.append_nil]

theorem stream_eq_nil {entries : List (Key × List Byte)}
    (empty : stream encode terminator entries = []) : entries = [] := by
  cases entries with
  | nil => rfl
  | cons entry rest =>
    rw [stream_cons] at empty
    exact absurd empty (by simp)

variable {encode terminator}

/-- A list is cut at its first terminator in one way. -/
theorem terminator_inj {first second firstRest secondRest : List Byte}
    (firstFree : terminator ∉ first) (secondFree : terminator ∉ second)
    (same : first ++ terminator :: firstRest = second ++ terminator :: secondRest) :
    first = second ∧ firstRest = secondRest := by
  induction first generalizing second with
  | nil =>
    cases second with
    | nil => exact ⟨rfl, (List.cons.inj same).2⟩
    | cons byte second =>
      have head : terminator = byte := (List.cons.inj same).1
      exact absurd (head ▸ List.mem_cons_self) secondFree
  | cons byte first inductionHypothesis =>
    cases second with
    | nil =>
      have head : byte = terminator := (List.cons.inj same).1
      exact absurd (head ▸ List.mem_cons_self) firstFree
    | cons other second =>
      obtain ⟨head, tail⟩ := List.cons.inj same
      obtain ⟨bytes, rests⟩ := inductionHypothesis
        (fun member => firstFree (List.mem_cons_of_mem _ member))
        (fun member => secondFree (List.mem_cons_of_mem _ member)) tail
      exact ⟨by rw [head, bytes], rests⟩

/-! ### The sizes of the bodies -/

/-- Entries with the same keys and with bodies of the same sizes are read back from their stream. -/
theorem eq_of_sizes {first second : List (Key × List Byte)}
    (keys : first.map Prod.fst = second.map Prod.fst)
    (sizes : first.map (fun entry => entry.2.length) = second.map fun entry => entry.2.length)
    (same : stream encode terminator first = stream encode terminator second) :
    first = second := by
  induction first generalizing second with
  | nil => exact (List.map_eq_nil_iff.mp keys.symm).symm
  | cons entry rest inductionHypothesis =>
    cases second with
    | nil => cases keys
    | cons other others =>
      simp only [List.map_cons, List.cons.injEq] at keys sizes
      rw [stream_cons, stream_cons, keys.1] at same
      have behind := (List.cons.inj (List.append_cancel_left same)).2
      obtain ⟨body, following⟩ := List.append_inj behind sizes.1
      rw [Prod.ext keys.1 body, inductionHypothesis keys.2 sizes.2 following]

/-! ### The lists that a stream determines -/

/-- What may stand together as keys: every part of such a list does too, no key holds the
terminator, and two keys are never spelled alike. -/
structure Keys (encode : Key → List Byte) (terminator : Byte) (Legal : List Key → Prop) :
    Prop where
  sublist : ∀ {keys part}, part.Sublist keys → Legal keys → Legal part
  free : ∀ {key}, Legal [key] → terminator ∉ encode key
  injective : ∀ {first second}, Legal [first] → Legal [second] → encode first = encode second →
    first = second

/-- No other list with legal keys has the stream of these entries. -/
def Determined (encode : Key → List Byte) (terminator : Byte) (Legal : List Key → Prop)
    (entries : List (Key × List Byte)) : Prop :=
  ∀ others : List (Key × List Byte), Legal (others.map Prod.fst) →
    stream encode terminator others = stream encode terminator entries → others = entries

/-- A body that could as well be a shorter body with a second entry behind it. -/
def Splits (encode : Key → List Byte) (terminator : Byte) (Legal : List Key → Prop)
    (entry : Key × List Byte) : Prop :=
  ∃ before key after, entry.2 = before ++ frame encode terminator (key, after) ∧
    Legal [entry.1, key]

variable {Legal : List Key → Prop}

theorem Keys.legal_singleton (keys : Keys encode terminator Legal)
    {entry : Key × List Byte} {rest : List (Key × List Byte)}
    (legal : Legal ((entry :: rest).map Prod.fst)) : Legal [entry.1] :=
  keys.sublist (List.singleton_sublist.mpr List.mem_cons_self) legal

/-- Streams that agree start with the same key. -/
theorem Keys.stream_cons_inj (keys : Keys encode terminator Legal)
    {first second : Key × List Byte} {firstRest secondRest : List (Key × List Byte)}
    (firstLegal : Legal [first.1]) (secondLegal : Legal [second.1])
    (same : stream encode terminator (first :: firstRest) =
      stream encode terminator (second :: secondRest)) :
    first.1 = second.1 ∧ first.2 ++ stream encode terminator firstRest =
      second.2 ++ stream encode terminator secondRest := by
  rw [stream_cons, stream_cons] at same
  obtain ⟨spelled, behind⟩ :=
    terminator_inj (keys.free firstLegal) (keys.free secondLegal) same
  exact ⟨keys.injective firstLegal secondLegal spelled, behind⟩

/-- Two entries and more are never determined: the first may have swallowed the others. -/
theorem Keys.not_determined_of_two (keys : Keys encode terminator Legal)
    {first second : Key × List Byte} {rest : List (Key × List Byte)}
    (legal : Legal ((first :: second :: rest).map Prod.fst)) :
    ¬Determined encode terminator Legal (first :: second :: rest) := by
  intro determined
  have swallowed := determined [(first.1, first.2 ++ stream encode terminator (second :: rest))]
    (keys.legal_singleton legal) (stream_merged encode terminator first (second :: rest))
  exact absurd (congrArg List.length swallowed) (by simp)

/-- One entry is determined unless its body splits. -/
theorem Keys.determined_singleton_iff (keys : Keys encode terminator Legal)
    {entry : Key × List Byte} (legal : Legal [entry.1]) :
    Determined encode terminator Legal [entry] ↔ ¬Splits encode terminator Legal entry := by
  constructor
  · rintro determined ⟨before, key, after, body, both⟩
    have split : stream encode terminator [(entry.1, before), (key, after)] =
        stream encode terminator [entry] := by
      rw [← stream_merged, stream_singleton encode terminator (key, after), ← body]
    have one := determined [(entry.1, before), (key, after)] both split
    exact absurd (congrArg List.length one) (by simp)
  · intro whole others othersLegal same
    match others, othersLegal, same with
    | [], _, same => exact absurd (stream_eq_nil encode terminator same.symm) (by simp)
    | [other], othersLegal, same =>
      obtain ⟨key, body⟩ := keys.stream_cons_inj othersLegal legal same
      rw [stream_nil, List.append_nil, List.append_nil] at body
      rw [Prod.ext key body]
    | other :: second :: rest, othersLegal, same =>
      obtain ⟨key, body⟩ := keys.stream_cons_inj (keys.legal_singleton othersLegal) legal same
      rw [stream_nil, List.append_nil, ← stream_merged] at body
      refine absurd ⟨other.2, second.1, second.2 ++ stream encode terminator rest, ?_, ?_⟩ whole
      · rw [← body, stream_singleton]
      · rw [← key]
        exact keys.sublist (by simp) othersLegal

theorem Keys.determined_nil : Determined encode terminator Legal [] :=
  fun _ _ same => stream_eq_nil encode terminator same

/-- A stream determines its entries exactly when there is at most one and its body does not
split. -/
theorem Keys.determined_iff (keys : Keys encode terminator Legal)
    {entries : List (Key × List Byte)} (legal : Legal (entries.map Prod.fst)) :
    Determined encode terminator Legal entries ↔
      entries.length ≤ 1 ∧ ∀ entry ∈ entries, ¬Splits encode terminator Legal entry := by
  match entries, legal with
  | [], _ => simp [Keys.determined_nil]
  | [entry], legal => simpa using keys.determined_singleton_iff legal
  | first :: second :: rest, legal =>
    refine iff_of_false (keys.not_determined_of_two legal) fun few => ?_
    exact absurd few.1 (by simp)

end

end Framing
