import TabFormat.Text.Basic

/-!
# TOML values

The values that a TOML document describes, and the tables that are built up while it is read. A
table remembers how it came about, because that decides in which ways it may be added to: a table
that a header names may not be named again, and a table made by a dotted key may only be added to by
dotted keys. No key may be given twice.
-/

namespace TabFormat

/-- A TOML value. -/
inductive Toml where
  /-- A text. -/
  | string (s : Text)
  /-- A whole number. -/
  | integer (n : Int)
  /-- A truth value. -/
  | bool (b : Bool)
  /-- A number with a fraction or an exponent, a date or a time. -/
  | other
  /-- A list of values. -/
  | array (items : List Toml)
  /-- Keys with values. -/
  | table (entries : List (Text × Toml))

namespace Toml

/-- How a table came about. -/
inductive Origin where
  /-- By a header that names the table. -/
  | header
  /-- By a header that names a table inside it. -/
  | inner
  /-- By a dotted key. -/
  | dotted
deriving DecidableEq, Repr

/-- What a key stands for while a document is read. -/
inductive Entry where
  /-- A value. -/
  | value (v : Toml)
  /-- A table. -/
  | table (origin : Origin) (entries : List (Text × Entry))
  /-- A list of tables that headers add to, last one first. -/
  | tables (items : List (List (Text × Entry)))

/-- The contents of a table while a document is read. -/
abbrev Entries := List (Text × Entry)

namespace Entry

mutual

/-- The value that an entry describes. -/
def toToml : Entry → Toml
  | value v => v
  | table _ entries => .table (entriesToToml entries)
  | tables items => .array (itemsToToml items).reverse

/-- The values that the entries of a table describe. -/
def entriesToToml : Entries → List (Text × Toml)
  | [] => []
  | (key, entry) :: rest => (key, entry.toToml) :: entriesToToml rest

/-- The values that several tables describe. -/
def itemsToToml : List Entries → List Toml
  | [] => []
  | entries :: rest => .table (entriesToToml entries) :: itemsToToml rest

end

/-- The entries with the one of a key replaced, or added. -/
def put (key : Text) (entry : Entry) : Entries → Entries
  | [] => [(key, entry)]
  | (k, e) :: rest => if k = key then (key, entry) :: rest else (k, e) :: put key entry rest

/-- Changes the table that lies at a path below a table. Missing tables on the way are added with an
origin. Dotted keys do not enter tables that a header names. The change is told the origin of the
table; it may be refused. -/
def changeAt (made : Origin) (change : Origin → Entries → Option Entries) :
    Origin → List Text → Entries → Option Entries
  | origin, [], entries => change origin entries
  | _, key :: path, entries =>
    match entries.lookup key with
    | none => do
      return put key (.table made (← changeAt made change made path [])) entries
    | some (.table origin inside) =>
      if made = .dotted ∧ origin = .header then none
      else do return put key (.table origin (← changeAt made change origin path inside)) entries
    | some (.tables (last :: items)) => do
      return put key (.tables ((← changeAt made change .header path last) :: items)) entries
    | some _ => none

/-- Adds a value under a key that is not taken. -/
def addValue (key : Text) (v : Toml) (entries : Entries) : Option Entries :=
  if (entries.lookup key).isSome then none else some (entries ++ [(key, .value v)])

/-- Adds a value at a dotted key, given by the keys before the last one and the last one. -/
def addPair (path : List Text) (key : Text) (v : Toml) (entries : Entries) : Option Entries :=
  changeAt .dotted (fun origin entries =>
    if path.isEmpty || origin = .dotted then addValue key v entries else none) .header path entries

/-- Adds the table that a header names, if it is not there yet. -/
def addTable (key : Text) (entries : Entries) : Option Entries :=
  match entries.lookup key with
  | none => some (put key (.table .header []) entries)
  | some (.table .inner inside) => some (put key (.table .header inside) entries)
  | some _ => none

/-- Adds a table to the list of tables that a header names. -/
def addItem (key : Text) (entries : Entries) : Option Entries :=
  match entries.lookup key with
  | none => some (put key (.tables [[]]) entries)
  | some (.tables items) => some (put key (.tables ([] :: items)) entries)
  | some _ => none

end Entry

/-- The text that a value is. -/
def text? : Toml → Option Text
  | string s => some s
  | _ => none

/-- The natural number that a value is. -/
def natural? : Toml → Option Nat
  | integer (.ofNat n) => some n
  | _ => none

/-- The truth value that a value is. -/
def bool? : Toml → Option Bool
  | bool b => some b
  | _ => none

/-- The values of a list. -/
def items? : Toml → Option (List Toml)
  | array items => some items
  | _ => none

/-- Whether the value is a list or a table without contents. -/
def isEmpty : Toml → Bool
  | array items => items.isEmpty
  | table entries => entries.isEmpty
  | _ => false

/-- The values of the fields of a record with the given names. A record is a table, or a list of the
values in order. Other keys and values are passed over. -/
def fields? (names : List String) : Toml → Option (List (Option Toml))
  | array items => some ((List.range names.length).map fun i => items[i]?)
  | table entries => some (names.map fun name => entries.lookup name.toList)
  | _ => none

end Toml

end TabFormat
