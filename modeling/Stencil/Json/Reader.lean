import Stencil.Data.Presented
import Stencil.Json.Number
import Stencil.Json.Quotation

/-!
# Reading JSON documents

## Values inside values

Lists and objects may be nested, but only so deep.  A reader of values is built
level by level: at each level it reads the values inside a list or an object with
the reader of the level below, and at the lowest level it refuses to open one.

What is read is presented data.  A document stands for the value that is read from
what it presents.
-/

namespace Stencil

def Presented.ofMembers (members : List (Text × Presented)) : Presented :=
  Presented.map (members.map fun member =>
    (Presented.scalar (Scalar.str member.1), member.2))

namespace Json

def nestingLimit : Nat := 127

abbrev Reader (item : Type) := (s : Text) -> Reading item s

def word (letters : Text) (p : Presented) (s : Text) (hne : letters ≠ []) :
    Reading Presented s :=
  match letters, s with
  | _ :: _, [] => Except.error (Halt.before JsonCause.endInValue [])
  | l :: letters, c :: rest =>
      if l = c then
        if hmore : letters = [] then Except.ok (Taken.first p c rest)
        else
          match word letters p rest hmore with
          | Except.error halt => Except.error halt
          | Except.ok taken => Except.ok ((taken.withItem p).behind _)
      else Except.error (Halt.behindByte JsonCause.expectedIdentifier (c :: rest))

def listItems (item : Reader Presented) (s : Text) : Reading (List Presented) s :=
  match item s with
  | Except.error halt => Except.error halt
  | Except.ok first =>
      match _hrest : skipSpace first.rest with
      | [] => Except.error (Halt.before JsonCause.endInList [])
      | ']' :: rest =>
          Except.ok ⟨[first.item], rest, first.length_after_space _hrest⟩
      | ',' :: rest =>
          match skipSpace rest with
          | ']' :: closed =>
              Except.error (Halt.behindByte JsonCause.trailingComma (']' :: closed))
          | _ =>
              match listItems item rest with
              | Except.error halt => Except.error halt
              | Except.ok others =>
                  Except.ok ((others.withItem (first.item :: others.item)).within _
                    (Nat.le_of_lt (first.length_after_space _hrest)))
      | after => Except.error (Halt.behindByte JsonCause.expectedListSeparator after)
termination_by s.length
decreasing_by exact first.length_after_space _hrest

def list (item : Reader Presented) (s : Text) : Reading Presented s :=
  match _hrest : skipSpace s with
  | [] => Except.error (Halt.before JsonCause.endInList [])
  | ']' :: rest => Except.ok ⟨Presented.row [], rest, length_of_skipSpace _hrest⟩
  | _ =>
      match listItems item s with
      | Except.error halt => Except.error halt
      | Except.ok items => Except.ok (items.withItem (Presented.row items.item))

/-- A member of an object: a key, a colon and a value. -/
def member (item : Reader Presented) (s : Text) : Reading (Text × Presented) s :=
  match _hrest : skipSpace s with
  | [] => Except.error (Halt.before JsonCause.endInValue [])
  | '"' :: rest =>
      match string rest with
      | Except.error halt => Except.error halt
      | Except.ok key =>
          match _hafter : skipSpace key.rest with
          | [] => Except.error (Halt.before JsonCause.endInObject [])
          | ':' :: after =>
              match item after with
              | Except.error halt => Except.error halt
              | Except.ok v =>
                  Except.ok ((v.withItem (key.item, v.item)).within _
                    (Nat.le_of_lt (Nat.lt_trans (key.length_after_space _hafter)
                      (length_of_skipSpace _hrest))))
          | after => Except.error (Halt.behindByte JsonCause.expectedColon after)
  | after => Except.error (Halt.behindByte JsonCause.keyNotString after)

def members (item : Reader Presented) (s : Text) : Reading (List (Text × Presented)) s :=
  match member item s with
  | Except.error halt => Except.error halt
  | Except.ok first =>
      match _hrest : skipSpace first.rest with
      | [] => Except.error (Halt.before JsonCause.endInObject [])
      | '\x7d' :: rest =>
          Except.ok ⟨[first.item], rest, first.length_after_space _hrest⟩
      | ',' :: rest =>
          match skipSpace rest with
          | '\x7d' :: closed =>
              Except.error (Halt.behindByte JsonCause.trailingComma ('\x7d' :: closed))
          | _ =>
              match members item rest with
              | Except.error halt => Except.error halt
              | Except.ok others =>
                  Except.ok ((others.withItem (first.item :: others.item)).within _
                    (Nat.le_of_lt (first.length_after_space _hrest)))
      | after => Except.error (Halt.behindByte JsonCause.expectedObjectSeparator after)
termination_by s.length
decreasing_by exact first.length_after_space _hrest

def object (item : Reader Presented) (s : Text) : Reading Presented s :=
  match _hrest : skipSpace s with
  | [] => Except.error (Halt.before JsonCause.endInObject [])
  | '\x7d' :: rest => Except.ok ⟨Presented.ofMembers [], rest, length_of_skipSpace _hrest⟩
  | _ =>
      match members item s with
      | Except.error halt => Except.error halt
      | Except.ok entries =>
          Except.ok (entries.withItem (Presented.ofMembers entries.item))

def valueHere (inner? : Option (Reader Presented)) (s : Text) : Reading Presented s :=
  match s with
  | [] => Except.error (Halt.before JsonCause.endInValue [])
  | c :: rest =>
      if c = '-' || isDigit c then
        match number (c :: rest) with
        | Except.error halt => Except.error halt
        | Except.ok taken => Except.ok (taken.withItem (Presented.scalar taken.item))
      else if c = 'n' then word ['n', 'u', 'l', 'l'] Presented.unit (c :: rest) (by simp)
      else if c = 't' then
        word ['t', 'r', 'u', 'e'] (Presented.scalar (Scalar.bool true)) (c :: rest) (by simp)
      else if c = 'f' then
        word ['f', 'a', 'l', 's', 'e'] (Presented.scalar (Scalar.bool false)) (c :: rest)
          (by simp)
      else if c = '"' then
        match string rest with
        | Except.error halt => Except.error halt
        | Except.ok taken =>
            Except.ok
              ((taken.withItem (Presented.scalar (Scalar.str taken.item))).behind _)
      else if c = '[' || c = '\x7b' then
        match inner? with
        | none => Except.error (Halt.behindByte JsonCause.nestedTooDeep (c :: rest))
        | some inner =>
            match if c = '[' then list inner rest else object inner rest with
            | Except.error halt => Except.error halt
            | Except.ok taken => Except.ok (taken.behind _)
      else Except.error (Halt.behindByte JsonCause.expectedValue (c :: rest))

def valueWith (inner? : Option (Reader Presented)) (s : Text) : Reading Presented s :=
  match valueHere inner? (skipSpace s) with
  | Except.error halt => Except.error halt
  | Except.ok taken => Except.ok (taken.within _ (length_skipSpace s))

/-- A value that nests lists and objects at most `levels` deep. -/
def value : (levels : Nat) -> Reader Presented
  | 0 => valueWith none
  | levels + 1 => valueWith (some (value levels))

/-- The value of a document.  It is read from all that the document presents before
anything behind that is looked at. -/
def document (s : Text) : Except JsonFault Value :=
  match value nestingLimit s with
  | Except.error halt => Except.error (halt.fault s)
  | Except.ok taken =>
      match taken.item.value with
      | Except.error fault =>
          Except.error ((Halt.before (JsonCause.refused fault) taken.rest).fault s)
      | Except.ok v =>
          match skipSpace taken.rest with
          | [] => Except.ok v
          | rest =>
              Except.error ((Halt.behindByte JsonCause.trailingCharacters rest).fault s)

end Json

/-- The data of a JSON document, whose root must be an object. -/
def Value.ofJson (s : Text) : Except DecodeFault Value :=
  match Json.document s with
  | Except.error fault => Except.error (DecodeFault.malformed fault)
  | Except.ok v =>
      if v.kind = Kind.mapping then Except.ok v
      else Except.error (DecodeFault.rootNotObject v.kind)

end Stencil
