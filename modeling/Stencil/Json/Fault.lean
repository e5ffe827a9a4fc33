import Stencil.Data.Fault

/-!
# Faults of JSON documents

A document is read up to its first fault.  A fault has a place, which is told by a line
and by the number of bytes in front of it in that line.
-/

namespace Stencil

inductive JsonCause where
  | endInValue
  | endInList
  | endInObject
  | endInString
  | expectedValue
  | expectedIdentifier
  | expectedColon
  | expectedListSeparator
  | expectedObjectSeparator
  | trailingComma
  | keyNotString
  | trailingCharacters
  | invalidNumber
  | numberOutOfRange
  | controlCharacter
  | invalidEscape
  | loneSurrogate
  | unfinishedSurrogatePair
  | nestedTooDeep
  | refused (fault : DataFault)
deriving DecidableEq

namespace JsonCause

def message : JsonCause -> Text
  | endInValue => "EOF while parsing a value".toList
  | endInList => "EOF while parsing a list".toList
  | endInObject => "EOF while parsing an object".toList
  | endInString => "EOF while parsing a string".toList
  | expectedValue => "expected value".toList
  | expectedIdentifier => "expected ident".toList
  | expectedColon => "expected `:`".toList
  | expectedListSeparator => "expected `,` or `]`".toList
  | expectedObjectSeparator => "expected `,` or `\x7d`".toList
  | trailingComma => "trailing comma".toList
  | keyNotString => "key must be a string".toList
  | trailingCharacters => "trailing characters".toList
  | invalidNumber => "invalid number".toList
  | numberOutOfRange => "number out of range".toList
  | controlCharacter =>
      "control character (\\u0000-\\u001F) found while parsing a string".toList
  | invalidEscape => "invalid escape".toList
  | loneSurrogate => "lone leading surrogate in hex escape".toList
  | unfinishedSurrogatePair => "unexpected end of hex escape".toList
  | nestedTooDeep => "recursion limit exceeded".toList
  | refused fault => fault.message

end JsonCause

structure JsonFault where
  cause : JsonCause
  line : Nat
  column : Nat
deriving DecidableEq

namespace JsonFault

def message (f : JsonFault) : Text :=
  f.cause.message ++ " at line ".toList ++ Text.ofNat f.line ++
    " column ".toList ++ Text.ofNat f.column

end JsonFault

inductive DecodeFault where
  | malformed (fault : JsonFault)
  | rootNotObject (kind : Kind)
deriving DecidableEq

namespace DecodeFault

def kindName : Kind -> Text
  | Kind.mapping => "Mapping".toList
  | Kind.sequence => "Sequence".toList
  | Kind.scalar => "Scalar".toList

def message : DecodeFault -> Text
  | malformed fault => "couldn't unmarshal json: ".toList ++ fault.message
  | rootNotObject kind =>
      "expected a JSON object at the root, got ".toList ++ kindName kind

end DecodeFault

end Stencil
