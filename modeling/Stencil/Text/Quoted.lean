import Stencil.Text.Numeral
import Stencil.Text.Unprintable
import Stencil.Text.Combining

/-!
# Quoted texts

## How messages show a text

Messages show names and patterns between double quotes.  Inside, quotes and
backslashes are escaped, the usual control characters have their short escapes,
and every other character that would not show, because it is unprintable or
combines with its neighbour, is written by its code point.
-/

namespace Stencil

namespace Text

def codePointEscape (c : Char) : Text :=
  ['\\', 'u', '\x7b'] ++ hexOfNat c.toNat ++ ['\x7d']

def quotedChar (c : Char) : Text :=
  if c = '\x00' then ['\\', '0']
  else if c = '\t' then ['\\', 't']
  else if c = '\n' then ['\\', 'n']
  else if c = '\r' then ['\\', 'r']
  else if c = '\\' ∨ c = '"' then ['\\', c]
  else if isCombining c || isUnprintable c then codePointEscape c
  else [c]

def quoted (s : Text) : Text :=
  '"' :: s.flatMap quotedChar ++ ['"']

end Text

end Stencil
