import Fabric.Table

/-!
# TOML values

What a TOML document holds, and what is known of it while it is read. A float is kept as it
is written, and a date or time as its canonical text, since nothing here computes with them.

Every value that has members by name can be asked for them: a table has its own, and a date
or time counts as a table with its text under a reserved name.
-/

namespace Fabric

/-- A TOML value. -/
inductive Toml where
  | string (value : String)
  | integer (value : Int)
  | float (written : String)
  | boolean (value : Bool)
  | dateTime (text : String)
  | array (items : List Toml)
  | table (entries : List (String × Toml))
  deriving Inhabited

namespace Toml

/-- The name of the only member of a date or time. -/
def dateTimeKey : String := "$__toml_private_datetime"

/-- The members of a value that has any, by name. -/
def members? : Toml → Option (List (String × Toml))
  | .table entries => some entries
  | .dateTime text => some [(dateTimeKey, .string text)]
  | _ => none

/-! ### Groups of key-value pairs

While a document is read, a table also remembers how it was made, because that decides what
may still be added to it:

* a table with a *header* is complete when the next header comes;
* a table that is *implied*, as `a` is by the header `[a.b]`, may still get its own header;
* a table made by a *dotted* key, as `a` is by `a.b = 1`, can be extended by dotted keys.

Keys are never overwritten. A dotted key may not pass through a table with a header, and may
end only in a table made by dotted keys; a header may pass through any table, and through an
array of tables into its last element. -/

/-- How a table was made. -/
inductive Origin where
  | header
  | implied
  | dotted
  deriving DecidableEq, Repr

/-- What stands under a key while a document is read. -/
inductive Entry where
  | value (value : Toml)
  | table (origin : Origin) (entries : List (String × Entry))
  /-- An array of tables, each with a header. -/
  | tables (items : List (List (String × Entry)))

/-- A table while a document is read. -/
structure Group where
  origin : Origin
  entries : List (String × Entry)

namespace Group

/-- The entry under a key. -/
def get? (g : Group) (key : String) : Option Entry := g.entries.lookup key

/-- Puts an entry under a key, in place of the one before. -/
def put (g : Group) (key : String) (entry : Entry) : Group :=
  { g with entries := g.entries.filter (·.1 != key) ++ [(key, entry)] }

/-- Changes the table at the end of a path. Tables that are missing on the way are made, by a
dotted key or by a header. -/
def modifyAt? (byDots : Bool) : List String → (Group → Option Group) → Group → Option Group
  | [], f, g => f g
  | key :: path, f, g =>
    match g.get? key with
    | none => do
      let child ← modifyAt? byDots path f ⟨if byDots then .dotted else .implied, []⟩
      return g.put key (.table child.origin child.entries)
    | some (.value _) => none
    | some (.table origin entries) => do
      if byDots ∧ origin = .header then none
      let child ← modifyAt? byDots path f ⟨origin, entries⟩
      return g.put key (.table child.origin child.entries)
    | some (.tables items) => do
      let last ← items.getLast?
      let child ← modifyAt? byDots path f ⟨.header, last⟩
      return g.put key (.tables (items.dropLast ++ [child.entries]))

/-- Adds a value under a dotted key that consists of a path and a last part. -/
def addValue? (g : Group) (path : List String) (key : String) (value : Toml) : Option Group :=
  modifyAt? true path (fun g =>
    if (g.origin = .dotted ↔ path.isEmpty) ∨ (g.get? key).isSome then none
    else some (g.put key (.value value))) g

/-- Adds values under dotted keys, one after the other. -/
def addValues? (g : Group) (pairs : List (List String × String × Toml)) : Option Group :=
  pairs.foldlM (fun g (path, key, value) => g.addValue? path key value) g

/-- Adds a table with a header and its values. -/
def addTable? (g : Group) (path : List String) (key : String)
    (pairs : List (List String × String × Toml)) : Option Group :=
  modifyAt? false path (fun g => do
    let entries ← match g.get? key with
      | none => some []
      | some (.table .implied entries) => some entries
      | some _ => none
    let table ← Group.addValues? ⟨.header, entries⟩ pairs
    return g.put key (.table .header table.entries)) g

/-- Adds an element to an array of tables. -/
def addElement? (g : Group) (path : List String) (key : String)
    (pairs : List (List String × String × Toml)) : Option Group :=
  modifyAt? false path (fun g => do
    let items ← match g.get? key with
      | none => some []
      | some (.tables items) => some items
      | some _ => none
    let table ← Group.addValues? ⟨.header, []⟩ pairs
    return g.put key (.tables (items ++ [table.entries]))) g

end Group

/-! ### The finished table -/

mutual

/-- The value that an entry stands for. -/
def Entry.finish : Entry → Toml
  | .value value => value
  | .table _ entries => .table (finishEntries entries)
  | .tables items => .array (finishItems items)

/-- The members that entries stand for. -/
def finishEntries : List (String × Entry) → List (String × Toml)
  | [] => []
  | (key, entry) :: rest => (key, entry.finish) :: finishEntries rest

/-- The tables that the elements of an array stand for. -/
def finishItems : List (List (String × Entry)) → List Toml
  | [] => []
  | entries :: rest => .table (finishEntries entries) :: finishItems rest

end

/-- The table that a group stands for. -/
def Group.finish (g : Group) : Toml := .table (finishEntries g.entries)

end Toml

end Fabric
