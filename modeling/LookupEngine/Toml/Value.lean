import LookupEngine.Number.Integer
/-!
# TOML values and tables

What a document holds, and how its statements build it.  A table remembers how it came to be
there: by being named in a header, by a header below it, or by a key with dots.  That decides
whether it may be named again.
-/

namespace LookupEngine.Toml

inductive Value where
  | string (s : String)
  | integer (n : Int)
  | float
  | boolean (b : Bool)
  | moment
  | array (items : List Value)
  | table (fields : List (String × Value))
deriving Repr

/-- How a table came to be there. -/
inductive Origin where
  | header
  | implied
  | dotted
deriving Repr, DecidableEq

/-- What a table holds while the document is read. -/
inductive Item where
  | value (value : Value)
  | table (origin : Origin) (fields : List (String × Item))
  /-- The tables of an array, the latest first. -/
  | tables (tables : List (List (String × Item)))
deriving Repr

abbrev Fields := List (String × Item)

namespace Fields

def find? (key : String) (fields : Fields) : Option Item := fields.lookup key

/-- Puts an item under a key, in the place of the one that was there. -/
def put (key : String) (item : Item) : Fields → Fields
  | [] => [(key, item)]
  | (k, old) :: rest => if k = key then (k, item) :: rest else (k, old) :: put key item rest

end Fields

/-- Changes the table that a path of keys leads to from a table of some origin.  Tables that
are missing on the way come to be there, and of an array the latest table is meant. -/
def change? (dotted : Bool) (edit : Origin → Fields → Option Fields) :
    List String → Origin → Fields → Option Fields
  | [], origin, fields => edit origin fields
  | key :: path, _, fields =>
    match fields.find? key with
    | none =>
      let origin := if dotted then Origin.dotted else .implied
      (change? dotted edit path origin []).map fun inner => fields.put key (.table origin inner)
    | some (.table origin inner) =>
      if dotted && origin = .header then none
      else (change? dotted edit path origin inner).map fun inner =>
        fields.put key (.table origin inner)
    | some (.tables (latest :: others)) =>
      (change? dotted edit path .header latest).map fun latest =>
        fields.put key (.tables (latest :: others))
    | some _ => none

/-- Gives a key a value.  A key with dots and a key without do not meet in one table, unless
the table belongs to them alone. -/
def assign? (path : List String) (key : String) (item : Item) (fields : Fields) :
    Option Fields :=
  change? true
    (fun origin inner =>
      if (origin = .dotted) = (path = []) then none
      else if (inner.find? key).isSome then none
      else some (inner.put key item))
    path .header fields

/-- Names a table.  One that is only implied may be named once. -/
def openTable? (path : List String) (key : String) (fields : Fields) : Option Fields :=
  change? false
    (fun _ outer =>
      match outer.find? key with
      | none => some (outer.put key (.table .header []))
      | some (.table .implied inner) => some (outer.put key (.table .header inner))
      | some _ => none)
    path .header fields

/-- Adds a table to an array of tables. -/
def appendTable? (path : List String) (key : String) (fields : Fields) : Option Fields :=
  change? false
    (fun _ outer =>
      match outer.find? key with
      | none => some (outer.put key (.tables [[]]))
      | some (.tables others) => some (outer.put key (.tables ([] :: others)))
      | some _ => none)
    path .header fields

/-- Changes the fields of the table that was named last. -/
def within? (edit : Fields → Option Fields) (path : List String) (fields : Fields) :
    Option Fields :=
  change? false (fun _ inner => edit inner) path .header fields

mutual

/-- The value of what a table holds. -/
def Item.toValue : Item → Value
  | .value value => value
  | .table _ fields => .table (fieldValues fields)
  | .tables tables => .array (tableValues tables).reverse

def fieldValues : List (String × Item) → List (String × Value)
  | [] => []
  | (key, item) :: rest => (key, item.toValue) :: fieldValues rest

def tableValues : List (List (String × Item)) → List Value
  | [] => []
  | fields :: rest => .table (fieldValues fields) :: tableValues rest

end

end LookupEngine.Toml
