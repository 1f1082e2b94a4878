import Mathlib.Data.List.Nodup

/-!
# Tables and statements

What schema changes and row-wise writes do to the tables of a relational database. A table
has its columns, constraints and triggers by name and rows of a type of its own; a column
that is not there is `none` in every row. A statement either succeeds or leaves an error.
-/
namespace MarketplaceApi.Sql

inductive Error where
  | missing (name : String)
  | duplicate (name : String)
  | violated (constraint : String)
  | dependent (name : String)
  | raised (message : String)
  deriving DecidableEq

/-- What rows may not break. `T` names the tables that can be referenced. -/
inductive Rule (T R : Type) where
  | check (holds : R → Bool)
  | unique (same : R → R → Bool)
  | references (target : T) (column : R → Option Nat)

/-- `NOT NULL`, the type of a column and a `CHECK` are constraints alike. -/
structure Constraint (T R : Type) where
  name : String
  columns : List String
  rule : Rule T R

/-- A `BEFORE UPDATE` trigger. -/
structure Trigger (R : Type) where
  name : String
  enabled : Bool
  action : R → R

/-- `next` is the value the identity column takes next. -/
structure Table (T R : Type) where
  name : String
  columns : List String
  constraints : List (Constraint T R)
  triggers : List (Trigger R)
  next : Nat
  rows : List R

variable {D T R : Type}

namespace Rule

/-- The row may stand beside the others. -/
def admits (ids : T → List Nat) (others : List R) (r : R) : Rule T R → Bool
  | check holds => holds r
  | unique same => others.all fun other => !same other r
  | references target column => (column r).all fun id => id ∈ ids target

/-- The rows of a table do not break the rule. -/
def Holds (ids : T → List Nat) (rows : List R) : Rule T R → Prop
  | check holds => ∀ r ∈ rows, holds r = true
  | unique same => rows.Pairwise fun r r' => same r r' = false
  | references target column => ∀ r ∈ rows, ((column r).all fun id => id ∈ ids target) = true

instance (ids : T → List Nat) (rows : List R) : (rule : Rule T R) → Decidable (rule.Holds ids rows)
  | check _ => inferInstanceAs (Decidable (∀ r ∈ rows, _))
  | unique _ => inferInstanceAs (Decidable (rows.Pairwise _))
  | references _ _ => inferInstanceAs (Decidable (∀ r ∈ rows, _))

end Rule

namespace Table

/-- All constraints hold. -/
def Valid (ids : T → List Nat) (t : Table T R) : Prop := ∀ c ∈ t.constraints, c.rule.Holds ids t.rows

/-- The first constraint that a new version of a row breaks. -/
def broken (ids : T → List Nat) (t : Table T R) (others : List R) (r : R) : Option (Constraint T R) :=
  t.constraints.find? fun c => !c.rule.admits ids others r

/-- The row an `UPDATE` writes, after the enabled triggers. -/
def fire (t : Table T R) (r : R) : R :=
  t.triggers.foldl (fun r trigger => if trigger.enabled then trigger.action r else r) r

def renameTo (name : String) (t : Table T R) : Except Error (Table T R) := .ok { t with name }

def renameColumn (column name : String) (t : Table T R) : Except Error (Table T R) :=
  if column ∉ t.columns then .error (.missing column)
  else if name ∈ t.columns then .error (.duplicate name)
  else
    let rename := fun other => if other = column then name else other
    .ok { t with
      columns := t.columns.map rename
      constraints := t.constraints.map fun c => { c with columns := c.columns.map rename } }

/-- The column is `NULL` in every row, which its type allows. -/
def addColumn (column : String) (type : Constraint T R) (clear : R → R) (t : Table T R) :
    Except Error (Table T R) :=
  if column ∈ t.columns then .error (.duplicate column)
  else .ok { t with
    columns := t.columns ++ [column]
    constraints := t.constraints ++ [type]
    rows := t.rows.map clear }

/-- The constraints on the column go with it. -/
def dropColumn (column : String) (clear : R → R) (t : Table T R) : Except Error (Table T R) :=
  if column ∉ t.columns then .error (.missing column)
  else .ok { t with
    columns := t.columns.filter fun other => other ≠ column
    constraints := t.constraints.filter fun c => column ∉ c.columns
    rows := t.rows.map clear }

/-- `ADD CONSTRAINT` and `SET NOT NULL` look at the rows there are. -/
def addConstraint (ids : T → List Nat) (c : Constraint T R) (t : Table T R) : Except Error (Table T R) :=
  if t.constraints.any fun other => other.name = c.name then .error (.duplicate c.name)
  else if c.rule.Holds ids t.rows then .ok { t with constraints := t.constraints ++ [c] }
  else .error (.violated c.name)

def dropConstraint (name : String) (t : Table T R) : Except Error (Table T R) :=
  if t.constraints.any fun c => c.name = name then
    .ok { t with constraints := t.constraints.filter fun c => c.name ≠ name }
  else .error (.missing name)

def renameConstraint (old new : String) (t : Table T R) : Except Error (Table T R) :=
  if t.constraints.any fun c => c.name = new then .error (.duplicate new)
  else if t.constraints.any fun c => c.name = old then
    .ok { t with constraints := t.constraints.map fun c => if c.name = old then { c with name := new } else c }
  else .error (.missing old)

def createIndex (column : String) (t : Table T R) : Except Error (Table T R) :=
  if column ∈ t.columns then .ok t else .error (.missing column)

def createTrigger (trigger : Trigger R) (t : Table T R) : Except Error (Table T R) :=
  if t.triggers.any fun other => other.name = trigger.name then .error (.duplicate trigger.name)
  else .ok { t with triggers := t.triggers ++ [trigger] }

def renameTrigger (old new : String) (t : Table T R) : Except Error (Table T R) :=
  if t.triggers.any fun other => other.name = old then
    .ok { t with
      triggers := t.triggers.map fun other => if other.name = old then { other with name := new } else other }
  else .error (.missing old)

/-- `DISABLE TRIGGER` and `ENABLE TRIGGER`. -/
def setTrigger (name : String) (enabled : Bool) (t : Table T R) : Except Error (Table T R) :=
  if t.triggers.any fun other => other.name = name then
    .ok { t with triggers := t.triggers.map fun other => if other.name = name then { other with enabled } else other }
  else .error (.missing name)

/-- One row of an `INSERT`, given the value of the identity column. -/
def insertRow (ids : T → List Nat) (t : Table T R) (make : Nat → R) : Except Error (Table T R) :=
  match t.broken ids t.rows (make t.next) with
  | some c => .error (.violated c.name)
  | none => .ok { t with rows := t.rows ++ [make t.next], next := t.next + 1 }

def insert (ids : T → List Nat) (makes : List (Nat → R)) (t : Table T R) : Except Error (Table T R) :=
  makes.foldlM (insertRow ids) t

/-- One row of an `UPDATE`; `change` is `none` where the join finds nothing. A plain constraint is
checked at once, against the rows as they are at that moment. -/
def updateRow (ids : T → List Nat) (key : R → Nat) (change : R → Option R) (t : Table T R) (k : Nat) :
    Except Error (Table T R) :=
  match (t.rows.find? fun r => key r = k).bind change with
  | none => .ok t
  | some r =>
    match t.broken ids (t.rows.filter fun other => key other ≠ k) (t.fire r) with
    | some c => .error (.violated c.name)
    | none => .ok { t with rows := t.rows.map fun other => if key other = k then t.fire r else other }

/-- An `UPDATE` that visits the rows in some order. -/
def update (ids : T → List Nat) (key : R → Nat) (change : R → Option R) (order : List Nat) (t : Table T R) :
    Except Error (Table T R) :=
  order.foldlM (updateRow ids key change) t

/-- What the foreign keys of the table to `target` refer to. -/
def referring [DecidableEq T] (target : T) (t : Table T R) : List (String × List Nat) :=
  t.constraints.filterMap fun c =>
    match c.rule with
    | .references other column => if other = target then some (c.name, t.rows.filterMap column) else none
    | _ => none

/-- A `DELETE`, which the foreign keys of other tables may forbid. -/
def delete (key : R → Nat) (goes : R → Bool) (referring : List (String × List Nat)) (t : Table T R) :
    Except Error (Table T R) :=
  match referring.find? fun p => t.rows.any fun r => goes r && p.2.contains (key r) with
  | some p => .error (.violated p.1)
  | none => .ok { t with rows := t.rows.filter fun r => !goes r }

end Table

/-- A statement of a migration on a database `D`. -/
abbrev Statement (D : Type) := D → Except Error D

/-- The statements of a migration one after the other. -/
def run (statements : List (Statement D)) (db : D) : Except Error D :=
  statements.foldlM (fun db statement => statement db) db

/-- Where a table of the database is kept, under whatever name it has. -/
structure Slot (D T R : Type) where
  get : D → Option (Table T R)
  set : Option (Table T R) → D → D

namespace Slot

variable (slot : Slot D T R)

def create (t : Table T R) : Statement D := fun db =>
  match slot.get db with
  | some _ => .error (.duplicate t.name)
  | none => .ok (slot.set (some t) db)

/-- A statement about the table, which it calls by its name. -/
def alter (name : String) (f : D → Table T R → Except Error (Table T R)) : Statement D := fun db =>
  match slot.get db with
  | none => .error (.missing name)
  | some t =>
    if t.name = name then do
      let t ← f db t
      return slot.set (some t) db
    else .error (.missing name)

/-- `DROP TABLE`, which no foreign key may refer to. -/
def drop (name : String) (referring : D → List (String × List Nat)) : Statement D := fun db =>
  match slot.get db with
  | none => .error (.missing name)
  | some t =>
    if t.name ≠ name then .error (.missing name)
    else if referring db = [] then .ok (slot.set none db)
    else .error (.dependent name)

end Slot

end MarketplaceApi.Sql
