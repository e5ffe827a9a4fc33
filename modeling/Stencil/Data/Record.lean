import Stencil.Data.Native

/-!
# Records

## Fields and the keys they get

A record becomes a map with a key for each of its fields.  A field may be given
another key, and given several the last one counts; or it may be left out.  Two
fields that get the same key leave the value of the later one.
-/

namespace Stencil

inductive Remark where
  | rename (key : Text)
  | omit
deriving DecidableEq

structure RecordField where
  name : Text
  remarks : List Remark
  datum : Native

namespace RecordField

def key (f : RecordField) : Text :=
  f.remarks.foldl
    (fun key remark =>
      match remark with
      | Remark.rename new => new
      | Remark.omit => key)
    f.name

def isOmitted (f : RecordField) : Bool :=
  f.remarks.contains Remark.omit

end RecordField

def Value.ofRecord (fields : List RecordField) : Value :=
  Value.map (Table.ofEntries
    ((fields.filter fun f => !f.isOmitted).map fun f => (f.key, f.datum.toValue)))

end Stencil
