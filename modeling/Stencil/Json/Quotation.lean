import Stencil.Json.Taken

/-!
# JSON strings

## Characters and escapes

A string holds characters and escapes up to a closing quote.  A character outside
the basic plane may be escaped by a pair of surrogates.
-/

namespace Stencil

namespace Json

def hexValue? (c : Char) : Option Nat :=
  if isDigit c then some (digitValue c)
  else if 'a' ≤ c && c ≤ 'f' then some (c.toNat - 'a'.toNat + 10)
  else if 'A' ≤ c && c ≤ 'F' then some (c.toNat - 'A'.toNat + 10)
  else none

/-- The four hexadecimal digits of an escape.  They are due within the next four
bytes of the text, which are passed also if they are no digits. -/
def fourHexDigits (s : Text) : Reading Nat s :=
  let bad : Halt := ⟨JsonCause.invalidEscape, (Text.utf8 s).length - 4⟩
  if (Text.utf8 (s.take 4)).length < 4 then
    Except.error (Halt.before JsonCause.endInString [])
  else
    match s with
    | a :: b :: c :: d :: rest =>
        match hexValue? a, hexValue? b, hexValue? c, hexValue? d with
        | some a, some b, some c, some d =>
            Except.ok ⟨((a * 16 + b) * 16 + c) * 16 + d, rest, by simp; omega⟩
        | _, _, _, _ => Except.error bad
    | _ => Except.error bad

def isLeading (code : Nat) : Bool :=
  0xd800 ≤ code && code < 0xdc00

def isTrailing (code : Nat) : Bool :=
  0xdc00 ≤ code && code < 0xe000

def ofSurrogates (leading trailing : Nat) : Char :=
  Char.ofNat (0x10000 + (leading - 0xd800) * 0x400 + (trailing - 0xdc00))

/-- The second half of a pair of surrogates, after the code of the first. -/
def trailingSurrogate (leading : Nat) (s : Text) : Reading Char s :=
  match s with
  | [] => Except.error (Halt.before JsonCause.endInString [])
  | ['\\'] => Except.error (Halt.before JsonCause.endInString [])
  | '\\' :: 'u' :: rest =>
      match fourHexDigits rest with
      | Except.error fault => Except.error fault
      | Except.ok code =>
          if isTrailing code.item then
            Except.ok (((code.withItem (ofSurrogates leading code.item)).behind _).behind _)
          else Except.error (Halt.before JsonCause.loneSurrogate code.rest)
  | '\\' :: rest =>
      Except.error (Halt.behindByte JsonCause.unfinishedSurrogatePair rest)
  | s => Except.error (Halt.behindByte JsonCause.unfinishedSurrogatePair s)

def codeEscape (s : Text) : Reading Char s :=
  match fourHexDigits s with
  | Except.error fault => Except.error fault
  | Except.ok code =>
      if isTrailing code.item then
        Except.error (Halt.before JsonCause.loneSurrogate code.rest)
      else if isLeading code.item then
        match trailingSurrogate code.item code.rest with
        | Except.error fault => Except.error fault
        | Except.ok c => Except.ok (code.next c)
      else Except.ok (code.withItem (Char.ofNat code.item))

def shortEscape? : Char -> Option Char
  | '"' => some '"'
  | '\\' => some '\\'
  | '/' => some '/'
  | 'b' => some '\x08'
  | 'f' => some '\x0c'
  | 'n' => some '\n'
  | 'r' => some '\r'
  | 't' => some '\t'
  | _ => none

def escape (s : Text) : Reading Char s :=
  match s with
  | [] => Except.error (Halt.before JsonCause.endInString [])
  | c :: rest =>
      match shortEscape? c with
      | some escaped => Except.ok (Taken.first escaped c rest)
      | none =>
          if c = 'u' then
            match codeEscape rest with
            | Except.error fault => Except.error fault
            | Except.ok code => Except.ok (code.behind _)
          else Except.error (Halt.behindByte JsonCause.invalidEscape (c :: rest))

/-- A character of a string or an escape.  None is taken for the closing quote. -/
def stringItem (s : Text) : Reading (Option Char) s :=
  match s with
  | [] => Except.error (Halt.before JsonCause.endInString [])
  | '"' :: rest => Except.ok (Taken.first none _ rest)
  | '\\' :: rest =>
      match escape rest with
      | Except.error fault => Except.error fault
      | Except.ok c => Except.ok ((c.withItem (some c.item)).behind _)
  | c :: rest =>
      if c < ' ' then
        Except.error (Halt.behindByte JsonCause.controlCharacter (c :: rest))
      else Except.ok (Taken.first (some c) c rest)

def string (s : Text) : Reading Text s :=
  match stringItem s with
  | Except.error fault => Except.error fault
  | Except.ok first =>
      match first.item with
      | none => Except.ok (first.withItem [])
      | some c =>
          match string first.rest with
          | Except.error fault => Except.error fault
          | Except.ok others =>
              Except.ok (first.next (others.withItem (c :: others.item)))
termination_by s.length
decreasing_by exact first.shorter

end Json

end Stencil
