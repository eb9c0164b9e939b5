import ServingPlane.Toml.Value

/-! # Trees of tables

    How headers and dotted keys of a settings file fit together.  A table
    may be implied by a longer header before its own header comes, or made
    by dotted keys; each can be opened by its own header at most once, and
    dotted keys only extend tables that dotted keys made. -/

namespace ServingPlane.Toml

/-- How a table came to be. -/
inductive Origin where
  /-- By its own header, or as the root. -/
  | header
  /-- By a longer header. -/
  | implied
  /-- By dotted keys. -/
  | dotted
  deriving DecidableEq, Repr

/-- A node of the tree. -/
inductive Node where
  | leaf (v : Value)
  | table (origin : Origin) (entries : List (String × Node))
  /-- The elements of an array of tables. -/
  | tables (elements : List (List (String × Node)))
  deriving Repr

namespace Node

/-- Put an entry in the place of its key, or at the end. -/
def putEntry (key : String) (n : Node) : List (String × Node) → List (String × Node)
  | [] => [(key, n)]
  | (k, m) :: r => if k = key then (key, n) :: r else (k, m) :: putEntry key n r

/-- Change the table at the end of a path, making tables on the way.
    `made` is how those come to be; on the way along dotted keys, tables
    with a header are closed. -/
def change (made : Origin)
    (f : Origin → List (String × Node) → Option (Origin × List (String × Node))) :
    List String → Origin → List (String × Node) → Option (Origin × List (String × Node))
  | [], origin, entries => f origin entries
  | key :: path, origin, entries => do
    match entries.lookup key with
    | none =>
      let (o, es) ← change made f path made []
      return (origin, putEntry key (table o es) entries)
    | some (leaf _) => none
    | some (tables elements) =>
      match elements.reverse with
      | [] => none
      | last :: before =>
        let (_, es) ← change made f path .header last
        return (origin, putEntry key (tables (before.reverse ++ [es])) entries)
    | some (table o es) =>
      if made = .dotted ∧ o = .header then none
      else
        let (o, es) ← change made f path o es
        return (origin, putEntry key (table o es) entries)

/-- Put a new value under a dotted key of a table. -/
def insert (path : List String) (key : String) (v : Value)
    (origin : Origin) (entries : List (String × Node)) :
    Option (Origin × List (String × Node)) :=
  change .dotted (fun o es =>
    if decide (o = .dotted) == path.isEmpty then none
    else if (es.lookup key).isSome then none
    else some (o, es ++ [(key, leaf v)])) path origin entries

/-- Open a table by its header. -/
def openTable (key : String) (origin : Origin) (entries : List (String × Node)) :
    Option (Origin × List (String × Node)) :=
  match entries.lookup key with
  | none => some (origin, putEntry key (table .header []) entries)
  | some (table .implied es) => some (origin, putEntry key (table .header es) entries)
  | some _ => none

/-- Open a further element of an array of tables. -/
def openElement (key : String) (origin : Origin) (entries : List (String × Node)) :
    Option (Origin × List (String × Node)) :=
  match entries.lookup key with
  | none => some (origin, putEntry key (tables [[]]) entries)
  | some (tables elements) => some (origin, putEntry key (tables (elements ++ [[]])) entries)
  | some _ => none

mutual

/-- The value of a node. -/
def value : Node → Value
  | leaf v => v
  | table _ entries => .table (entryValues entries)
  | tables elements => .array (elementValues elements)

/-- `value` on every entry. -/
def entryValues : List (String × Node) → List (String × Value)
  | [] => []
  | (k, n) :: r => (k, value n) :: entryValues r

/-- The values of the elements of an array of tables. -/
def elementValues : List (List (String × Node)) → List Value
  | [] => []
  | es :: r => .table (entryValues es) :: elementValues r

end

end Node

end ServingPlane.Toml
