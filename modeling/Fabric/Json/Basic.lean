import Fabric.Json.Text

/-!
# JSON values

A JSON value keeps its numbers and strings as they are written. What they stand for is asked
with `int?` and `text?`: a number with a fraction or an exponent is no integer, and neither
is `-0`; a string with half of a surrogate pair is no text.

Values are written by `compact` on one line and by `pretty` with two spaces a level.
-/

namespace Fabric

/-- A JSON value, its numbers and strings as they are written. -/
inductive Json where
  | null
  | bool (value : Bool)
  | number (written : String)
  | string (written : String)
  | array (items : List Json)
  /-- The members in order, each with its name as it is written. -/
  | object (members : List (String × Json))
  deriving Inhabited

namespace Json

/-! ### Making values -/

/-- The number for an integer. -/
def ofInt (n : Int) : Json := .number (toString n)

/-- The string for a text. -/
def ofText (s : String) : Json := .string (String.ofList (Text.encode s.toList))

/-- An object from names and values. -/
def ofFields (fields : List (String × Json)) : Json :=
  .object (fields.map fun (name, value) => (String.ofList (Text.encode name.toList), value))

/-! ### Reading values -/

/-- The integer that a value is. -/
def int? : Json → Option Int
  | .number written =>
    match written.toList with
    | '-' :: cs => (Numeral.digits? 10 cs).bind fun n => if n = 0 then none else some (-n)
    | cs => (Numeral.digits? 10 cs).map Int.ofNat
  | _ => none

/-- The natural number that a value is. -/
def nat? (j : Json) : Option Nat := j.int?.bind fun n => if 0 ≤ n then some n.toNat else none

/-- The text that a written string stands for. -/
def textOf? (written : String) : Option String :=
  (Text.decode? written.toList).map String.ofList

/-- The text that a value is. -/
def text? : Json → Option String
  | .string written => textOf? written
  | _ => none

/-- The truth value that a value is. -/
def bool? : Json → Option Bool
  | .bool value => some value
  | _ => none

/-- The items of an array. -/
def items? : Json → Option (List Json)
  | .array items => some items
  | _ => none

/-- The members of an object, by name. -/
def fields? : Json → Option (List (String × Json))
  | .object members => members.mapM fun (name, value) => do return (← textOf? name, value)
  | _ => none

/-- The member of an object with a given name. -/
def get? (j : Json) (name : String) : Option Json := j.fields?.bind (·.lookup name)

/-! ### Writing on one line -/

mutual

/-- Writes a value at the end of `acc`. -/
def compactOnto (acc : String) : Json → String
  | .null => acc ++ "null"
  | .bool value => acc ++ toString value
  | .number written => acc ++ written
  | .string written => acc ++ "\"" ++ written ++ "\""
  | .array items => itemsOnto (acc ++ "[") "" items ++ "]"
  | .object members => membersOnto (acc ++ "\x7b") "" members ++ "\x7d"

/-- Writes items, the first after `before` and the others after a comma. -/
def itemsOnto (acc before : String) : List Json → String
  | [] => acc
  | item :: rest => itemsOnto (compactOnto (acc ++ before) item) "," rest

/-- Writes members, the first after `before` and the others after a comma. -/
def membersOnto (acc before : String) : List (String × Json) → String
  | [] => acc
  | (name, value) :: rest =>
    membersOnto (compactOnto (acc ++ before ++ "\"" ++ name ++ "\":") value) "," rest

end

/-- A value on one line, without blanks. -/
def compact (j : Json) : String := compactOnto "" j

/-! ### Writing on several lines -/

/-- A line break with the indentation of a level. -/
def newline (level : Nat) : String := "\n" ++ "".pushn ' ' (2 * level)

mutual

/-- Writes a value of a level at the end of `acc`. -/
def prettyOnto (acc : String) (level : Nat) : Json → String
  | .array (item :: rest) =>
    prettyItemsOnto (acc ++ "[") "" (level + 1) (item :: rest) ++ newline level ++ "]"
  | .object (member :: rest) =>
    prettyMembersOnto (acc ++ "\x7b") "" (level + 1) (member :: rest) ++ newline level ++ "\x7d"
  | .null => acc ++ "null"
  | .bool value => acc ++ toString value
  | .number written => acc ++ written
  | .string written => acc ++ "\"" ++ written ++ "\""
  | .array [] => acc ++ "[]"
  | .object [] => acc ++ "\x7b\x7d"

/-- Writes items of a level, each on a line of its own. -/
def prettyItemsOnto (acc before : String) (level : Nat) : List Json → String
  | [] => acc
  | item :: rest =>
    prettyItemsOnto (prettyOnto (acc ++ before ++ newline level) level item) "," level rest

/-- Writes members of a level, each on a line of its own. -/
def prettyMembersOnto (acc before : String) (level : Nat) : List (String × Json) → String
  | [] => acc
  | (name, value) :: rest =>
    prettyMembersOnto
      (prettyOnto (acc ++ before ++ newline level ++ "\"" ++ name ++ "\": ") level value)
      "," level rest

end

/-- A value on several lines, without a final line break. -/
def pretty (j : Json) : String := prettyOnto "" 0 j

end Json

end Fabric
