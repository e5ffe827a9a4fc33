import Stencil.Template.Node

/-!
# White space filters

## Three passes over literal text

Tags written on lines of their own leave blank lines and indentation behind.  A
filter is a choice of up to three passes that remove them: the first removes
spaces and tabs after a line break, the second spaces and tabs before one, and
the third repeated line breaks.  The chosen passes run in this order on each
literal text alone, so white space is never joined across a tag.
-/

namespace Stencil

structure Filter where
  trimLeft : Bool
  trimRight : Bool
  collapse : Bool
deriving DecidableEq

namespace Filter

/-- The filter written as the sum of 1 for `collapse`, 2 for `trimLeft` and 4 for
`trimRight`; other bits are ignored. -/
def ofBits (bits : Nat) : Filter :=
  { trimLeft := bits.testBit 1
    trimRight := bits.testBit 2
    collapse := bits.testBit 0 }

def flags : List (Text × Nat) :=
  [("NO_BLANK_LINES".toList, 1),
    ("TRIM_LEFT_SPACE".toList, 2),
    ("TRIM_RIGHT_SPACE".toList, 4)]

def isBlank (c : Char) : Bool :=
  c = ' ' || c = '\t'

/-- Removes blanks after line breaks; `afterBreak` tells whether a line break, and
nothing but blanks since, comes before the text. -/
def dropIndents (afterBreak : Bool) : Text -> Text
  | [] => []
  | c :: rest =>
      if afterBreak && isBlank c then dropIndents true rest
      else c :: dropIndents (c = '\n') rest

/-- Removes blanks before line breaks. -/
def dropTrails : Text -> Text
  | [] => []
  | c :: rest =>
      let kept := dropTrails rest
      if isBlank c && kept.head? = some '\n' then kept else c :: kept

/-- Keeps one of several line breaks in a row. -/
def dropBreaks : Text -> Text
  | [] => []
  | c :: rest =>
      let kept := dropBreaks rest
      if c = '\n' && kept.head? = some '\n' then kept else c :: kept

def onText (filter : Filter) (s : Text) : Text :=
  let s := if filter.trimLeft then dropIndents false s else s
  let s := if filter.trimRight then dropTrails s else s
  if filter.collapse then dropBreaks s else s

mutual

def onNode (filter : Filter) : Node -> Node
  | Node.text s => Node.text (filter.onText s)
  | Node.print name => Node.print name
  | Node.embed name => Node.embed name
  | Node.block kind name children => Node.block kind name (filter.onNodes children)

def onNodes (filter : Filter) : List Node -> List Node
  | [] => []
  | node :: rest => filter.onNode node :: filter.onNodes rest

end

end Filter

end Stencil
