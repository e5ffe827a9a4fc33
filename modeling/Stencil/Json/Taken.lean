import Stencil.Json.Fault

/-!
# Readings

## What a reader takes from a text

A reader takes something from the front of a text and leaves a shorter text, or
halts.  That the rest is shorter is part of the result, so that readers that call one
another come to an end.  Where a reader halts is told from the end of the document, by
the bytes that are left: a reader does not know what stands in front of its text.
-/

namespace Stencil

namespace Json

structure Halt where
  cause : JsonCause
  left : Nat

namespace Halt

/-- A reader halts in front of the rest of a text. -/
def before (cause : JsonCause) (rest : Text) : Halt :=
  ⟨cause, (Text.utf8 rest).length⟩

/-- A reader halts behind the first byte of the rest, or at the end if there is none. -/
def behindByte (cause : JsonCause) (rest : Text) : Halt :=
  ⟨cause, (Text.utf8 rest).length - 1⟩

def fault (h : Halt) (document : Text) : JsonFault :=
  let bytes := Text.utf8 document
  let passed := bytes.take (bytes.length - h.left)
  { cause := h.cause
    line := passed.count 0x0a + 1
    column := (passed.reverse.takeWhile (· ≠ 0x0a)).length }

end Halt

structure Taken (item : Type) (s : Text) where
  item : item
  rest : Text
  shorter : rest.length < s.length

abbrev Reading (item : Type) (s : Text) := Except Halt (Taken item s)

namespace Taken

variable {old new : Type} {s : Text}

def first (item : new) (c : Char) (rest : Text) : Taken new (c :: rest) :=
  ⟨item, rest, Nat.lt_succ_self _⟩

def withItem (t : Taken old s) (item : new) : Taken new s :=
  ⟨item, t.rest, t.shorter⟩

def within (t : Taken old s) (whole : Text) (h : s.length ≤ whole.length) :
    Taken old whole :=
  ⟨t.item, t.rest, Nat.lt_of_lt_of_le t.shorter h⟩

def behind (t : Taken old s) (c : Char) : Taken old (c :: s) :=
  t.within (c :: s) (Nat.le_succ _)

def next (t : Taken old s) (u : Taken new t.rest) : Taken new s :=
  u.within s (Nat.le_of_lt t.shorter)

end Taken

abbrev Rest (s : Text) := { rest : Text // rest.length ≤ s.length }

namespace Rest

def whole (s : Text) : Rest s :=
  ⟨s, Nat.le_refl _⟩

def ofTaken {item : Type} {s : Text} (t : Taken item s) (c : Char) : Rest (c :: s) :=
  ⟨t.rest, Nat.le_of_lt (t.behind c).shorter⟩

end Rest

def isSpace (c : Char) : Bool :=
  c = ' ' || c = '\n' || c = '\t' || c = '\r'

def skipSpace (s : Text) : Text :=
  s.dropWhile isSpace

theorem length_skipSpace (s : Text) : (skipSpace s).length ≤ s.length :=
  (List.dropWhile_sublist isSpace).length_le

theorem length_of_skipSpace {s rest : Text} {c : Char}
    (h : skipSpace s = c :: rest) : rest.length < s.length := by
  have hspace := length_skipSpace s
  rw [h] at hspace
  exact hspace

theorem Taken.length_after_space {item : Type} {s rest : Text} {c : Char}
    (t : Taken item s) (h : skipSpace t.rest = c :: rest) :
    rest.length < s.length :=
  Nat.lt_trans (length_of_skipSpace h) t.shorter

def isDigit (c : Char) : Bool :=
  '0' ≤ c && c ≤ '9'

def digitValue (c : Char) : Nat :=
  c.toNat - '0'.toNat

end Json

end Stencil
