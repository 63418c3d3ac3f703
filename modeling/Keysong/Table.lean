/-!
# Tables in order of insertion

A table is a list of entries.  Writing a key that is there keeps its place and replaces its value;
a new key goes to the end.

## Main Definitions

* `Table.put` — write one entry
* `Table.ofList` — write a list of entries, one after the other
-/

namespace Keysong

namespace Table

variable {κ ν : Type} [BEq κ]

/-- Writes an entry: in place if the key is there, at the end otherwise. -/
def put (key : κ) (value : ν) : List (κ × ν) → List (κ × ν)
  | [] => [(key, value)]
  | (k, v) :: rest => if k == key then (k, value) :: rest else (k, v) :: put key value rest

/-- Writes a list of entries, one after the other. -/
def ofList (entries : List (κ × ν)) : List (κ × ν) :=
  entries.foldl (fun table entry => put entry.1 entry.2 table) []

end Table

end Keysong
