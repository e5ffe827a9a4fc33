import Stencil.Template.Fault
import Stencil.Template.Segment

/-!
# Scanning a template source

## One segment at a time

A scanner holds the delimiters in force, the current line and what is left of the
source.  It cuts off one segment at a time: a tag if the left delimiter comes
next, and otherwise the text before the left delimiter.  Lines are counted by the
line breaks in texts and tag bodies.  A fault ends the scan.

Every cut shortens what is left, so that a source is cut into finitely many
segments.
-/

namespace Stencil

structure Scanner where
  delimiters : Delimiters
  line : Nat
  rest : Text

namespace Scanner

def start (source : Text) : Scanner :=
  ⟨Delimiters.initial, 1, source⟩

def advance (s : Scanner) (passed rest : Text) : Scanner :=
  { s with line := s.line + Text.lineBreaks passed, rest := rest }

def fail (s : Scanner) (cause : ParseCause) :
    Except Fault LocatedSegment × Scanner :=
  (Except.error ⟨s.line, cause⟩, { s with rest := [] })

/-- Finishes a tag: a change of delimiters takes effect, other tags do nothing to
the scanner. -/
def finishTag (s : Scanner) (line : Nat) (mark : Mark) (body : Text) :
    Except Fault LocatedSegment × Scanner :=
  match mark with
  | Mark.delimiters =>
      match Delimiters.ofBody? body with
      | none => s.fail ParseCause.malformedTag
      | some delimiters =>
          (Except.ok ⟨line, Segment.tag mark body⟩,
            { s with delimiters := delimiters })
  | _ => (Except.ok ⟨line, Segment.tag mark body⟩, s)

def cutTag (s : Scanner) : Text -> Except Fault LocatedSegment × Scanner
  | [] => s.fail ParseCause.incompleteTag
  | c :: rest =>
      match Mark.ofChar? c with
      | none => s.fail ParseCause.unrecognizedTag
      | some mark =>
          match Text.cutAround? s.delimiters.right rest with
          | none => s.fail ParseCause.incompleteTag
          | some (body, after) => (s.advance body after).finishTag s.line mark body

def cutRun (s : Scanner) : Except Fault LocatedSegment × Scanner :=
  match Text.cutBefore s.delimiters.left s.rest with
  | (run, after) => (Except.ok ⟨s.line, Segment.run run⟩, s.advance run after)

def cut (s : Scanner) : Except Fault LocatedSegment × Scanner :=
  match s.delimiters.left.isPrefixOf? s.rest with
  | some inside => s.cutTag inside
  | none => s.cutRun

/-!
## Progress
-/

theorem rest_finishTag {s after : Scanner} {line : Nat} {mark : Mark} {body : Text}
    {segment : LocatedSegment}
    (h : s.finishTag line mark body = (Except.ok segment, after)) :
    after.rest = s.rest := by
  unfold finishTag at h
  split at h
  · split at h
    · simp [fail] at h
    · cases h
      rfl
  · cases h
    rfl

theorem cutTag_shortens {s after : Scanner} {inside : Text}
    {segment : LocatedSegment}
    (h : s.cutTag inside = (Except.ok segment, after)) :
    after.rest.length < inside.length := by
  cases inside with
  | nil =>
      simp [cutTag, fail] at h
  | cons c rest =>
      unfold cutTag at h
      cases hmark : Mark.ofChar? c with
      | none =>
          simp [hmark, fail] at h
      | some mark =>
          cases hcut : Text.cutAround? s.delimiters.right rest with
          | none =>
              simp [hmark, hcut, fail] at h
          | some parts =>
              simp only [hmark, hcut] at h
              rw [rest_finishTag h, Text.cutAround?_eq_some hcut]
              simp [advance]
              omega

theorem cutRun_shortens {s after : Scanner} {segment : LocatedSegment}
    (hleft : s.delimiters.left.isPrefixOf? s.rest = none) (hne : s.rest ≠ [])
    (h : s.cutRun = (Except.ok segment, after)) :
    after.rest.length < s.rest.length := by
  cases hrest : s.rest with
  | nil =>
      exact absurd hrest hne
  | cons c rest =>
      unfold cutRun at h
      rw [hrest] at h hleft
      simp only [Text.cutBefore, Text.isPrefixOf?_eq_none hleft] at h
      cases h
      have hle := Text.length_cutBefore s.delimiters.left rest
      simp [advance]
      omega

theorem cut_shortens {s after : Scanner} {segment : LocatedSegment}
    (hne : s.rest ≠ []) (h : s.cut = (Except.ok segment, after)) :
    after.rest.length < s.rest.length := by
  unfold cut at h
  split at h
  · rename_i inside hleft
    have hshort := cutTag_shortens h
    rw [Text.isPrefixOf?_eq_some hleft]
    simp
    omega
  · rename_i hleft
    exact cutRun_shortens hleft hne h

/-!
## All segments
-/

/-- The segments of what is left, up to the first fault. -/
def segments (s : Scanner) : List LocatedSegment × Option Fault :=
  if _hne : s.rest = [] then ([], none)
  else
    match _hcut : s.cut with
    | (Except.error fault, _) => ([], some fault)
    | (Except.ok segment, after) =>
        match after.segments with
        | (more, fault) => (segment :: more, fault)
termination_by s.rest.length
decreasing_by exact cut_shortens _hne _hcut

end Scanner

end Stencil
