/-!
Lists of values under keys, in the order in which the keys were first given.
-/

namespace LineCensus.Keyed

variable {κ α : Type} [BEq κ]

/-- Change the value under a key; a key that is not there yet is put last, with what `change` makes
of nothing. -/
def update (key : κ) (change : Option α → α) : List (κ × α) → List (κ × α)
  | [] => [(key, change none)]
  | entry :: rest =>
    if entry.1 == key then (entry.1, change (some entry.2)) :: rest
    else entry :: update key change rest

def set (key : κ) (value : α) (entries : List (κ × α)) : List (κ × α) :=
  update key (fun _ => value) entries

/-- Entries given one after another; of those with one key the last counts. -/
def ofList (entries : List (κ × α)) : List (κ × α) :=
  entries.foldl (fun kept entry => set entry.1 entry.2 kept) []

end LineCensus.Keyed
