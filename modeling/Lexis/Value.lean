import Lexis.Double
import Lexis.Text.Quoted

/-!
Values that were not checked yet: settings come as such values, and errors about them name their
type and show them, unless a number in them is too long to be written. Values of other types are left
out, and so are doubles that are no number. Nothing limits how deep lists and records are nested.
-/

namespace Lexis

/-- A value without parts. -/
inductive Scalar
  | null
  | boolean (value : Bool)
  | integer (value : Int)
  | double (value : Double)
  | text (value : String)
  deriving DecidableEq

inductive Value
  | scalar (value : Scalar)
  | list (items : List Value)
  | record (fields : List (String × Value))

instance : Inhabited Value := ⟨.scalar .null⟩

/-- What tells the value apart from others where it is a key: a truth value is the same key as the number
that it counts for, and a double the same key as the integer that it is equal to. -/
def Scalar.key : Scalar → Scalar
  | boolean value => integer (if value then 1 else 0)
  | double value =>
    match value.whole? with
    | some n => integer n
    | none => double value
  | value => value

/-- The value as errors show it. -/
def Scalar.shown : Scalar → Except Decimal.TooLong String
  | null => .ok "None"
  | boolean true => .ok "True"
  | boolean false => .ok "False"
  | integer value => Decimal.writeInt value
  | double value => .ok value.text
  | text value => .ok (Text.quoted value)

namespace Value

def typeName : Value → String
  | scalar .null => "NoneType"
  | scalar (.boolean _) => "bool"
  | scalar (.integer _) => "int"
  | scalar (.double _) => "float"
  | scalar (.text _) => "str"
  | list _ => "list"
  | record _ => "dict"

mutual

/-- The value as errors show it. -/
def shown : Value → Except Decimal.TooLong String
  | scalar value => value.shown
  | list items => do
    let shown ← shownItems items
    return "[" ++ ", ".intercalate shown ++ "]"
  | record fields => do
    let shown ← shownFields fields
    return "\x7b" ++ ", ".intercalate shown ++ "\x7d"

/-- The items of a list, each as it is shown. -/
def shownItems : List Value → Except Decimal.TooLong (List String)
  | [] => .ok []
  | item :: items => do
    let first ← item.shown
    let rest ← shownItems items
    return first :: rest

/-- The fields of a record, each with its name as it is shown. -/
def shownFields : List (String × Value) → Except Decimal.TooLong (List String)
  | [] => .ok []
  | (name, value) :: fields => do
    let first ← value.shown
    let rest ← shownFields fields
    return (Text.quoted name ++ ": " ++ first) :: rest

end

end Value

end Lexis
