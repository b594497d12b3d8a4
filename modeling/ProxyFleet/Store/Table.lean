/-!
# Tables

A `Table` holds rows by their ids, in the order in which they were inserted. Ids count up and are
never given twice, also not after a row is gone.

* `Table.insert`, `Table.modify`, `Table.erase` : the three ways in which a table changes;
* `Table.get?`, `Table.select` : one row by its id, and the rows that meet a condition;
* `Table.count` : how many rows a change concerns.
-/

namespace ProxyFleet

set_option autoImplicit false

/-- Rows by their ids, and the id that the next row gets. -/
structure Table (ρ : Type) where
  rows : List (Int × ρ) := []
  nextId : Int := 1

namespace Table

variable {ρ : Type}

/-- The table with one more row, at its end. -/
def insert (t : Table ρ) (row : ρ) : Table ρ where
  rows := t.rows ++ [(t.nextId, row)]
  nextId := t.nextId + 1

/-- The row of an id. -/
def get? (t : Table ρ) (id : Int) : Option ρ := (t.rows.find? (·.1 == id)).map (·.2)

/-- The rows that meet a condition, with their ids. -/
def select (t : Table ρ) (p : ρ → Bool) : List (Int × ρ) := t.rows.filter (p ·.2)

/-- The number of rows that meet a condition. -/
def count (t : Table ρ) (p : ρ → Bool) : Nat := (t.select p).length

/-- Change the rows that meet a condition on id and content. -/
def modify (t : Table ρ) (p : Int → ρ → Bool) (f : ρ → ρ) : Table ρ :=
  { t with rows := t.rows.map fun (id, row) => if p id row then (id, f row) else (id, row) }

/-- Change the row of an id. -/
def modifyId (t : Table ρ) (id : Int) (f : ρ → ρ) : Table ρ := t.modify (fun i _ => i == id) f

/-- Remove the rows that meet a condition on id and content. -/
def erase (t : Table ρ) (p : Int → ρ → Bool) : Table ρ :=
  { t with rows := t.rows.filter fun (id, row) => !p id row }

/-- Remove the row of an id. -/
def eraseId (t : Table ρ) (id : Int) : Table ρ := t.erase fun i _ => i == id

/-- Whether an id has a row. -/
def has (t : Table ρ) (id : Int) : Bool := t.rows.any (·.1 == id)

/-- The id that the last insertion gave. -/
def lastId (t : Table ρ) : Int := t.nextId - 1

end Table

/-- The first rows of a selection up to a limit; a negative limit keeps all. -/
def limited {α : Type} (limit : Int) (rows : List α) : List α :=
  if limit < 0 then rows else rows.take limit.toNat

end ProxyFleet
