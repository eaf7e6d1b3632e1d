/-
**TOML tables.**

A document is a tree of tables. A table may be made in passing, by a header below it or by a key
with dots, or explicitly by its own header; the rules against defining a table twice need to know
which, so a table carries two marks. Of values only texts, whole numbers and truth values are kept
apart.
-/

namespace PolicyLedger.Toml

/-- A value; what is neither text, whole number nor truth value is not looked into. -/
inductive Value
  | text (value : String)
  | whole (value : Int)
  | flag (value : Bool)
  | other
  deriving DecidableEq, Repr

mutual

/-- What a key of a table stands for. -/
inductive Node
  | value (value : Value)
  | table (table : Table)
  | tables (tables : List Table)

/-- Keys with what they stand for. -/
inductive Table
  | mk (implicit dotted : Bool) (rows : List (String × Node))

end

namespace Table

/-- The table without keys, made by its own header. -/
def empty : Table := .mk false false []

/-- The keys of a table with what they stand for. -/
def rows : Table → List (String × Node)
  | mk _ _ rows => rows

/-- Holds of a table made in passing. -/
def isImplicit : Table → Bool
  | mk implicit _ _ => implicit

/-- Holds of a table made by a key with dots. -/
def isDotted : Table → Bool
  | mk _ dotted _ => dotted

/-- What a key stands for. -/
def get? (table : Table) (key : String) : Option Node := table.rows.lookup key

/-- Rows with something under a key. -/
def setRow (key : String) (node : Node) : List (String × Node) → List (String × Node)
  | [] => [(key, node)]
  | (k, n) :: rest => if k = key then (k, node) :: rest else (k, n) :: setRow key node rest

/-- A table with something under a key. -/
def set (table : Table) (key : String) (node : Node) : Table :=
  .mk table.isImplicit table.isDotted (setRow key node table.rows)

/-- A table whose last item of a list of tables, or whose table, under a key is changed; if there
is nothing under the key, a table made in passing is put there first. With `dotted` the way leads
through tables made in passing only. -/
def change (dotted : Bool) (f : Table → Option Table) : List String → Table → Option Table
  | [], table => f table
  | key :: path, table =>
    match table.get? key with
    | none =>
      (change dotted f path (.mk true dotted [])).map fun inner => table.set key (.table inner)
    | some (.value _) => none
    | some (.table inner) =>
      if dotted && !inner.isImplicit then none
      else (change dotted f path inner).map fun inner => table.set key (.table inner)
    | some (.tables tables) =>
      match tables.reverse with
      | [] => none
      | last :: before =>
        (change dotted f path last).map fun last =>
          table.set key (.tables (before.reverse ++ [last]))

/-- A table with a value under a key with dots, which must be new. Tables with a header of their own
are not extended by dots, nor the other way round. -/
def addValue (path : List String) (key : String) (value : Value) : Table → Option Table :=
  change true
    (fun table =>
      if table.isDotted == path.isEmpty || (table.get? key).isSome then none
      else some (table.set key (.value value)))
    path

/-- A document in which a header opened a table, which must be new or made in passing. -/
def openTable (path : List String) (key : String) : Table → Option Table :=
  change false
    (fun table =>
      match table.get? key with
      | none => some (table.set key (.table empty))
      | some (.table inner) =>
        if inner.isImplicit && !inner.isDotted then
          some (table.set key (.table (.mk false false inner.rows)))
        else none
      | some _ => none)
    path

/-- A document in which a header opened a further table of a list. -/
def openItem (path : List String) (key : String) : Table → Option Table :=
  change false
    (fun table =>
      match table.get? key with
      | none => some (table.set key (.tables [empty]))
      | some (.tables tables) => some (table.set key (.tables (tables ++ [empty])))
      | some _ => none)
    path

end Table

end PolicyLedger.Toml
