import PhpTestIndex.Text.Quoted
import PhpTestIndex.Toml.Fault
import PhpTestIndex.Toml.Value

/-!
# Documents under construction

A `Draft` is a part of a TOML document that is still being read.  It remembers how each table came
about, because a table may be opened by one header only, a value is set once, and what a dotted key
has made is not opened by a header.
-/

namespace PhpTestIndex.Toml

/-- How a table came about. -/
inductive Making
  /-- As the way to another table. -/
  | passing
  /-- By a header. -/
  | header
  /-- By a dotted key. -/
  | dotted
deriving DecidableEq, Repr

/-- A part of a document that is still being read. -/
inductive Draft
  | value (value : Toml)
  | table (making : Making) (fields : List (String × Draft))
  /-- Tables under the same header, the latest first. -/
  | tables (items : List (List (String × Draft)))
deriving Inhabited

/-- The fields of a table that is still being read. -/
abbrev Fields := List (String × Draft)

namespace Fields

/-- Set the value of a field, in its place if it is there and at the end if it is not. -/
def set (name : String) (draft : Draft) : Fields → Fields
  | [] => [(name, draft)]
  | (key, old) :: rest => if key = name then (name, draft) :: rest else (key, old) :: set name draft rest

/-- Set a value under a key of several parts.  A table that a header has opened is closed to the keys
of others, and one that stands on the way to such a table takes none itself: `isOpen` tells whether
the fields here take one, `way` is how the key led here and `table` is the table that is said to have
a key twice. -/
def assign (table : List String) (value : Toml) (way : List String) (isOpen : Bool) :
    List String → Fields → Except Clash Fields
  | [], fields => .ok fields
  | [name], fields =>
    match isOpen, fields.lookup name with
    | false, _ => .error (.duplicate name none)
    | true, some _ => .error (.duplicate name (some table))
    | true, none => .ok (fields.set name (.value value))
  | name :: path, fields =>
    let inside (isOpen : Bool) := assign table value (way ++ [name]) isOpen path
    match fields.lookup name with
    | none => (inside true []).map fun inner => fields.set name (.table .dotted inner)
    | some (.table .header _) => .error (.duplicate name none)
    | some (.table making inner) =>
      (inside (making = .dotted) inner).map fun inner => fields.set name (.table making inner)
    | some (.tables (latest :: earlier)) =>
      (inside false latest).map fun latest => fields.set name (.tables (latest :: earlier))
    | some (.tables []) => .error (.duplicate name none)
    | some (.value value) => .error (.occupied (way ++ [name]) value.kind)

/-- Change what stands where a header leads, the latest of several tables on the way; `way` is how
it led here. -/
def openTable (change : Option Draft → Except Clash Draft) (way : List String) :
    List String → Fields → Except Clash Fields
  | [], fields => .ok fields
  | [name], fields => (change (fields.lookup name)).map fun draft => fields.set name draft
  | name :: path, fields =>
    let inside := openTable change (way ++ [name]) path
    match fields.lookup name with
    | none => (inside []).map fun inner => fields.set name (.table .passing inner)
    | some (.table making inner) =>
      (inside inner).map fun inner => fields.set name (.table making inner)
    | some (.tables (latest :: earlier)) =>
      (inside latest).map fun latest => fields.set name (.tables (latest :: earlier))
    | some (.tables []) => .error (.duplicate name none)
    | some (.value value) => .error (.occupied (way ++ [name]) value.kind)

/-- The fault of a header that leads to something else. -/
def headerClash (path : List String) : Clash :=
  .duplicate (Text.quoted (path.getLastD "")) (some path.dropLast)

/-- Open a table by a header. -/
def declare (path : List String) (fields : Fields) : Except Clash Fields :=
  openTable (fun
    | none => .ok (.table .header [])
    | some (.table .passing inner) => .ok (.table .header inner)
    | some _ => .error (headerClash path)) [] path fields

/-- Open one more table under a header. -/
def append (path : List String) (fields : Fields) : Except Clash Fields :=
  openTable (fun
    | none => .ok (.tables [[]])
    | some (.tables items) => .ok (.tables ([] :: items))
    | some _ => .error (headerClash path)) [] path fields

/-- Set a value in the table that a header has opened; without a header, in the document. -/
def assignIn (header key : List String) (value : Toml) (fields : Fields) : Except Clash Fields :=
  let assigned := assign header value [] true key
  if header.isEmpty then assigned fields
  else
    openTable (fun
      | some (.table making inner) => (assigned inner).map (Draft.table making)
      | some (.tables (latest :: earlier)) =>
        (assigned latest).map fun latest => .tables (latest :: earlier)
      | _ => .error (headerClash header)) [] header fields

/-- The fields of a table on one line.  A table in it that is no part of a key is closed to keys. -/
def ofEntries : Fields → List (List String × Toml) → Except Clash Fields
  | fields, [] => .ok fields
  | fields, (key, value) :: rest =>
    match assign [] value [] true key fields with
    | .ok fields => ofEntries fields rest
    | .error (.duplicate name _) => .error (.duplicate name none)
    | .error (.occupied path kind) =>
      if kind = "inline table" then .error (.duplicate (path.getLastD "") none)
      else .error (.occupied path kind)

end Fields

mutual

/-- The value that a finished part stands for. -/
def Draft.finish : Draft → Toml
  | .value value => value
  | .table _ fields => .table (finishFields fields)
  | .tables items => .array (finishTables items).reverse

/-- The fields of a finished table. -/
def finishFields : List (String × Draft) → List (String × Toml)
  | [] => []
  | (name, draft) :: rest => (name, draft.finish) :: finishFields rest

/-- The finished tables under a header, the latest first. -/
def finishTables : List (List (String × Draft)) → List Toml
  | [] => []
  | fields :: rest => .table (finishFields fields) :: finishTables rest

end

end PhpTestIndex.Toml
