import Stencil.Template.Node

/-!
# Segments

## The pieces of a template source

A source is a row of segments: runs of literal text, and tags between delimiters.
The first character of a tag is its mark.  A tag may change the delimiters for
everything after it.
-/

namespace Stencil

structure Delimiters where
  left : Text
  right : Text
deriving DecidableEq

namespace Delimiters

def initial : Delimiters :=
  ⟨['\x7b', '\x7b'], ['\x7d', '\x7d']⟩

/-- The delimiters that a tag body names: two texts around a single space. -/
def ofBody? (body : Text) : Option Delimiters :=
  match body.splitOn ' ' with
  | [left, right] => if left ≠ [] ∧ right ≠ [] then some ⟨left, right⟩ else none
  | _ => none

end Delimiters

inductive Mark where
  | opening (kind : BlockKind)
  | closing
  | print
  | embed
  | comment
  | delimiters
deriving DecidableEq

namespace Mark

def ofChar? : Char -> Option Mark
  | '#' => some (opening BlockKind.each)
  | '+' => some (opening BlockKind.defined)
  | '-' => some (opening BlockKind.undefined)
  | '$' => some (opening BlockKind.within)
  | '/' => some closing
  | '*' => some print
  | '>' => some embed
  | '!' => some comment
  | '=' => some delimiters
  | _ => none

def toChar : Mark -> Char
  | opening BlockKind.each => '#'
  | opening BlockKind.defined => '+'
  | opening BlockKind.undefined => '-'
  | opening BlockKind.within => '$'
  | closing => '/'
  | print => '*'
  | embed => '>'
  | comment => '!'
  | delimiters => '='

theorem ofChar?_toChar (mark : Mark) : ofChar? mark.toChar = some mark := by
  cases mark with
  | opening kind => cases kind <;> rfl
  | closing => rfl
  | print => rfl
  | embed => rfl
  | comment => rfl
  | delimiters => rfl

end Mark

inductive Segment where
  | run (s : Text)
  | tag (mark : Mark) (body : Text)
deriving DecidableEq

structure LocatedSegment where
  line : Nat
  segment : Segment
deriving DecidableEq

end Stencil
