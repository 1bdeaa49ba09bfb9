import Courier.Json.Document

/-!
# Tables of TOML

What a header, a dotted key or an assignment may still add to a table. A table that was opened by a header
is not opened again; one that dotted keys made is added to by dotted keys only; a value is never added to.
-/

namespace Courier.Toml

/-- How a table came to be. -/
inductive Origin
  /-- By its own header, or as the top. -/
  | header
  /-- On the way to a table with a header. -/
  | path
  /-- By a dotted key. -/
  | dotted
  deriving DecidableEq, Repr, Inhabited

inductive Entry
  | value (d : Document)
  | table (origin : Origin) (entries : List (String × Entry))
  /-- The tables of an array, last one first. -/
  | tables (elements : List (List (String × Entry)))

abbrev Entries := List (String × Entry)

/-- A table that is filled. -/
structure Table where
  origin : Origin
  entries : Entries

namespace Entries

def put (es : Entries) (key : String) (e : Entry) : Entries :=
  match es with
  | [] => [(key, e)]
  | (k, old) :: rest => if k = key then (key, e) :: rest else (k, old) :: put rest key e

def remove (es : Entries) (key : String) : Entries := es.filter (·.1 ≠ key)

end Entries

/-- Changes the table that `path` leads to from `t`, and makes the tables on the way that are not there;
`made` is what these are. A dotted path does not enter a table with a header. -/
def descend? (made : Origin) (path : List String) (change : Table → Option Entries) (t : Table) :
    Option Entries :=
  match path with
  | [] => change t
  | key :: rest =>
    match t.entries.lookup key with
    | none =>
      (descend? made rest change ⟨made, []⟩).map fun es => t.entries.put key (.table made es)
    | some (.value _) => none
    | some (.tables []) => none
    | some (.tables (last :: before)) =>
      (descend? made rest change ⟨.header, last⟩).map fun es =>
        t.entries.put key (.tables (es :: before))
    | some (.table origin entries) =>
      if made = .dotted ∧ origin = .header then none
      else
        (descend? made rest change ⟨origin, entries⟩).map fun es =>
          t.entries.put key (.table origin es)

/-- Assigns to a key that is not there yet. A dotted path ends in a table that dotted keys made, a plain
key stands in one that they did not make. -/
def assign? (path : List String) (key : String) (d : Document) (t : Table) : Option Entries :=
  descend? .dotted path (fun t =>
    if decide (t.origin = .dotted) == path.isEmpty then none
    else if (t.entries.lookup key).isSome then none
    else some (t.entries.put key (.value d))) t

/-- The table under a header that is opened: what earlier headers put there on their way. -/
def opened? (path : List String) (key : String) (root : Entries) : Option (Entries × Entries) :=
  let found : Option Entry := lookupIn path key root
  match found with
  | none => (descend? .path path (fun t => some t.entries) ⟨.header, root⟩).map fun es => (es, [])
  | some (.table .path entries) =>
    (descend? .path path (fun t => some (t.entries.remove key)) ⟨.header, root⟩).map fun es =>
      (es, entries)
  | some _ => none
where
  /-- The entry under the end of a path, none where the path leads nowhere. -/
  lookupIn (path : List String) (key : String) (es : Entries) : Option Entry :=
    match path with
    | [] => es.lookup key
    | k :: rest =>
      match es.lookup k with
      | some (.table _ entries) => lookupIn rest key entries
      | some (.tables (last :: _)) => lookupIn rest key last
      | _ => none

/-- Opens an array of tables, or the next table of one. -/
def openedArray? (path : List String) (key : String) (root : Entries) : Option Entries :=
  descend? .path path (fun t =>
    match t.entries.lookup key with
    | none => some (t.entries.put key (.tables []))
    | some (.tables _) => some t.entries
    | some _ => none) ⟨.header, root⟩

/-- Puts a table with a header where it belongs. -/
def closed? (path : List String) (key : String) (inArray : Bool) (table root : Entries) :
    Option Entries :=
  descend? .path path (fun t =>
    if inArray then
      match t.entries.lookup key with
      | some (.tables ts) => some (t.entries.put key (.tables (table :: ts)))
      | _ => none
    else some (t.entries.put key (.table .header table))) ⟨.header, root⟩

mutual

def Entry.document : Entry → Document
  | .value d => d
  | .table _ entries => .obj (membersOf entries)
  | .tables elements => .arr (itemsOf elements).reverse

def membersOf : List (String × Entry) → List (Option String × Document)
  | [] => []
  | (k, e) :: rest => (some k, e.document) :: membersOf rest

def itemsOf : List (List (String × Entry)) → List Document
  | [] => []
  | es :: rest => .obj (membersOf es) :: itemsOf rest

end

end Courier.Toml
