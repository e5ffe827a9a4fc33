/-!
# Texts

## Lists of characters

Template sources, names, map keys and rendered values are all texts, and a text
is a list of characters.  This module holds what every other module needs of
them: the UTF-8 bytes of a text and the text that bytes spell, the number of
line breaks, and the cut of a text before the first occurrence of a mark.
-/

namespace Stencil

abbrev Text := List Char

namespace Text

def utf8 (s : Text) : List UInt8 :=
  s.flatMap String.utf8EncodeChar

def ofUtf8? (bytes : List UInt8) : Option Text :=
  (String.fromUTF8? bytes.toByteArray).map String.toList

def lineBreaks (s : Text) : Nat :=
  s.count '\n'

@[simp] theorem utf8_nil : utf8 [] = [] := rfl

theorem utf8_append (s t : Text) : utf8 (s ++ t) = utf8 s ++ utf8 t := by
  simp [utf8]

theorem ofUtf8?_utf8 (s : Text) : ofUtf8? (utf8 s) = some s := by
  have hvalid : (utf8 s).toByteArray.IsValidUTF8 := ⟨s, rfl⟩
  have hstring : String.fromUTF8 (utf8 s).toByteArray hvalid = String.ofList s := rfl
  rw [ofUtf8?, String.fromUTF8?, dif_pos hvalid, hstring, Option.map_some,
    String.toList_ofList]

theorem ofUtf8?_eq_some_iff {bytes : List UInt8} {s : Text} :
    ofUtf8? bytes = some s ↔ bytes = utf8 s := by
  constructor
  · intro h
    rcases Option.map_eq_some_iff.mp h with ⟨text, htext, rfl⟩
    have hbytes : text.toByteArray = bytes.toByteArray := by
      rw [String.fromUTF8?] at htext
      split at htext
      case isTrue hvalid =>
        cases htext
        rfl
      case isFalse => cases htext
    exact (List.toByteArray_inj.mp (String.utf8Encode_toList.trans hbytes)).symm
  · rintro rfl
    exact ofUtf8?_utf8 s

@[simp] theorem lineBreaks_nil : lineBreaks [] = 0 := rfl

theorem lineBreaks_append (s t : Text) :
    lineBreaks (s ++ t) = lineBreaks s + lineBreaks t := by
  simp [lineBreaks]

/-!
## Cutting at a mark

A text is cut before the first occurrence of a mark.  The first part is the
whole text when the mark does not occur.
-/

/-- The part of a text before the first occurrence of `mark`, and the rest,
which starts with the mark or is empty. -/
def cutBefore (mark : Text) : Text -> Text × Text
  | [] => ([], [])
  | c :: rest =>
      if mark.isPrefixOf (c :: rest) then ([], c :: rest)
      else
        match cutBefore mark rest with
        | (before, after) => (c :: before, after)

/-- The part of a text before the first occurrence of `mark` and the part after
that occurrence, if there is one. -/
def cutAround? (mark : Text) (s : Text) : Option (Text × Text) :=
  match cutBefore mark s with
  | (before, after) => (mark.isPrefixOf? after).map fun rest => (before, rest)

theorem cutBefore_append (mark s : Text) :
    (cutBefore mark s).1 ++ (cutBefore mark s).2 = s := by
  induction s with
  | nil => rfl
  | cons c rest ih =>
      unfold cutBefore
      split
      · rfl
      · simpa using ih

theorem length_cutBefore (mark s : Text) :
    (cutBefore mark s).2.length ≤ s.length := by
  have h := congrArg List.length (cutBefore_append mark s)
  simp at h
  omega

theorem isPrefixOf?_cons (c d : Char) (mark s : Text) :
    (c :: mark).isPrefixOf? (d :: s) =
      if c == d then mark.isPrefixOf? s else none := rfl

theorem isPrefixOf?_eq_some {mark s rest : Text}
    (h : mark.isPrefixOf? s = some rest) : s = mark ++ rest := by
  induction mark generalizing s with
  | nil =>
      exact Option.some.inj h
  | cons c mark ih =>
      cases s with
      | nil =>
          cases h
      | cons d s =>
          rw [isPrefixOf?_cons] at h
          split at h
          case isTrue hcd =>
            have hcd' : c = d := by simpa using hcd
            rw [hcd', List.cons_append, ih h]
          case isFalse =>
            exact absurd h (by simp)

theorem isPrefixOf?_eq_none {mark s : Text} (h : mark.isPrefixOf? s = none) :
    mark.isPrefixOf s = false := by
  induction mark generalizing s with
  | nil =>
      cases h
  | cons c mark ih =>
      cases s with
      | nil =>
          rfl
      | cons d s =>
          rw [isPrefixOf?_cons] at h
          split at h
          case isTrue hcd =>
            simp [List.isPrefixOf, hcd, ih h]
          case isFalse hcd =>
            simp [List.isPrefixOf, hcd]

theorem cutAround?_eq_some {mark s before rest : Text}
    (h : cutAround? mark s = some (before, rest)) :
    s = before ++ mark ++ rest := by
  unfold cutAround? at h
  rw [Option.map_eq_some_iff] at h
  rcases h with ⟨r, hr, heq⟩
  cases heq
  have hcut := cutBefore_append mark s
  rw [isPrefixOf?_eq_some hr] at hcut
  rw [List.append_assoc]
  exact hcut.symm

end Text

end Stencil
