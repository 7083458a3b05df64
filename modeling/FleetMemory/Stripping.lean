/-
This file is a small library about stripping white space from the ends of texts. Stripping
loses white space only, and what is stripped off a part of a text is no part of the
stripped text: the stripped part begins it, ends it or stands in it as the part did.
-/

import FleetMemory.Text
import Mathlib.Data.List.DropRight

namespace Text

/-- The text holds a character other than white space. -/
def Solid (characters : List Char) : Prop :=
  ∃ character ∈ characters, isSpace character = false

theorem strip_eq (text : String) :
    (strip text).toList = (text.toList.dropWhile isSpace).rdropWhile isSpace := by
  rw [strip, String.toList_ofList, List.rdropWhile]

theorem Solid.mono {part whole : List Char} (solid : Solid part) (within : part ⊆ whole) :
    Solid whole := by
  obtain ⟨character, member, holds⟩ := solid
  exact ⟨character, within member, holds⟩

theorem not_solid_iff {characters : List Char} :
    ¬Solid characters ↔ ∀ character ∈ characters, isSpace character = true := by
  simp [Solid]

/-- A text that is not blank is one that holds a character other than white space. -/
theorem solid_iff (text : String) : Solid text.toList ↔ blank text = false := by
  constructor
  · rintro ⟨character, member, solid⟩
    exact blank_eq_false member solid
  · intro solid
    by_contra spaces
    have nothing : (text.toList.dropWhile isSpace) = [] :=
      List.dropWhile_eq_nil_iff.mpr (not_solid_iff.mp spaces)
    have stripped : strip text = "" := by
      apply String.toList_inj.mp
      rw [strip_eq, nothing]
      rfl
    rw [blank, stripped] at solid
    cases solid

theorem dropWhile_append {first second : List Char} (solid : Solid first) :
    (first ++ second).dropWhile isSpace = first.dropWhile isSpace ++ second := by
  rw [List.dropWhile_append, if_neg]
  intro empty
  obtain ⟨character, member, holds⟩ := solid
  have space := List.dropWhile_eq_nil_iff.mp (List.isEmpty_iff.mp empty) character member
  rw [space] at holds
  cases holds

theorem rdropWhile_append {first second : List Char} (solid : Solid second) :
    (first ++ second).rdropWhile isSpace = first ++ second.rdropWhile isSpace := by
  have reversed : Solid second.reverse := solid.mono fun character member => by simpa using member
  rw [List.rdropWhile, List.rdropWhile, List.reverse_append, dropWhile_append reversed,
    List.reverse_append, List.reverse_reverse]

theorem rdropWhile_append_of_spaces {first second : List Char} (spaces : ¬Solid second) :
    (first ++ second).rdropWhile isSpace = first.rdropWhile isSpace := by
  have reversed : ∀ character ∈ second.reverse, isSpace character = true :=
    fun character member => not_solid_iff.mp spaces character (List.mem_reverse.mp member)
  rw [List.rdropWhile, List.rdropWhile, List.reverse_append,
    List.dropWhile_append_of_pos reversed]

theorem filter_dropWhile (characters : List Char) :
    (characters.dropWhile isSpace).filter (fun character => !isSpace character) =
      characters.filter fun character => !isSpace character := by
  nth_rewrite 2 [← List.takeWhile_append_dropWhile (p := isSpace) (l := characters)]
  have none : (characters.takeWhile isSpace).filter (fun character => !isSpace character) = [] := by
    refine List.filter_eq_nil_iff.mpr fun character member => ?_
    simp [List.mem_takeWhile_imp member]
  rw [List.filter_append, none, List.nil_append]

/-- Stripping loses no character other than white space. -/
theorem filter_strip (text : String) :
    (strip text).toList.filter (fun character => !isSpace character) =
      text.toList.filter fun character => !isSpace character := by
  rw [strip, String.toList_ofList, List.filter_reverse, filter_dropWhile, List.filter_reverse,
    List.reverse_reverse, filter_dropWhile]

theorem solid_strip_iff (text : String) : Solid (strip text).toList ↔ Solid text.toList := by
  have mem_iff (characters : List Char) : Solid characters ↔
      characters.filter (fun character => !isSpace character) ≠ [] := by
    simp [Solid, List.filter_eq_nil_iff]
  rw [mem_iff, mem_iff, filter_strip]

theorem solid_dropWhile {characters : List Char} (solid : Solid characters) :
    Solid (characters.dropWhile isSpace) := by
  obtain ⟨character, member, holds⟩ := solid
  rw [← List.takeWhile_append_dropWhile (p := isSpace) (l := characters)] at member
  rcases List.mem_append.mp member with taken | rest
  · rw [List.mem_takeWhile_imp taken] at holds
    cases holds
  · exact ⟨character, rest, holds⟩

/-- A text that begins another begins it stripped as well. -/
theorem strip_prefix {part whole : String} (solid : Solid part.toList)
    (prefixed : part.toList <+: whole.toList) : (strip part).toList <+: (strip whole).toList := by
  obtain ⟨rest, parts⟩ := prefixed
  rw [strip_eq, strip_eq, ← parts, dropWhile_append solid]
  by_cases more : Solid rest
  · rw [rdropWhile_append more]
    exact List.IsPrefix.trans (List.rdropWhile_prefix _ _) (List.prefix_append _ _)
  · exact ⟨[], by rw [List.append_nil, rdropWhile_append_of_spaces more]⟩

/-- A text that ends another ends it stripped as well. -/
theorem strip_suffix {part whole : String} (solid : Solid part.toList)
    (suffixed : part.toList <:+ whole.toList) : (strip part).toList <:+ (strip whole).toList := by
  obtain ⟨before, parts⟩ := suffixed
  rw [strip_eq, strip_eq, ← parts]
  by_cases more : Solid before
  · have parts : part.toList.rdropWhile isSpace = part.toList.takeWhile isSpace ++
        (part.toList.dropWhile isSpace).rdropWhile isSpace := by
      rw [← rdropWhile_append (solid_dropWhile solid), List.takeWhile_append_dropWhile]
    rw [dropWhile_append more, rdropWhile_append solid, parts, ← List.append_assoc]
    exact List.suffix_append _ _
  · exact ⟨[], by rw [List.nil_append, List.dropWhile_append_of_pos (not_solid_iff.mp more)]⟩

/-- A text that stands in another stands in it stripped as well. -/
theorem strip_infix {part whole : String} (solid : Solid part.toList)
    (inside : part.toList <:+: whole.toList) : (strip part).toList <:+: (strip whole).toList := by
  obtain ⟨before, after, parts⟩ := inside
  have ends : (strip part).toList <:+ (strip (String.ofList (before ++ part.toList))).toList :=
    strip_suffix solid (by simp)
  have begins : (strip (String.ofList (before ++ part.toList))).toList <+: (strip whole).toList :=
    strip_prefix (solid.mono (by simp)) (by simp [← parts])
  exact ends.isInfix.trans begins.isInfix

end Text
