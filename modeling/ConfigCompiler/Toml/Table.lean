import ConfigCompiler.Toml.DateTime
import ConfigCompiler.Value.Basic

/-!
# TOML tables

The tables of a TOML document, as they are filled line by line.  How a table came
into being says what may still be added to it.

**Rules.**  A header opens each table once; tables on the way to it are opened
*implicitly* and may get a header later.  A dotted key makes *dotted* tables, which
get no header.  It may pass through implicit tables and add a value to one, which is
dotted from then on; it may not enter a table that has a header.  Values, inline
tables among them, are closed.

**Values.**  `Item.value?` is the value of an item.  What counts as too large a number,
and whether a table may stand for a date, depends on what the document is read for: a
`Reading` says so.
-/

namespace ConfigCompiler

namespace Toml

/-- How a table came into being. -/
inductive Origin where
  /-- On the way to the table of a header. -/
  | implicit
  /-- By a header. -/
  | header
  /-- By a dotted key. -/
  | dotted
deriving DecidableEq

/-- What stands under a key or in an array. -/
inductive Item where
  | bool (b : Bool)
  | string (s : String)
  /-- An integer of any size. -/
  | integer (n : Int)
  /-- A decimal; none if it is too large. -/
  | decimal (d : Option Decimal)
  /-- An infinity, or what is not a number. -/
  | notFinite
  /-- A date, a time of day or both, as written. -/
  | dateTime (text : String)
  | array (items : List Item)
  /-- A table in braces. -/
  | inline (fields : List (String × Item))
  | table (origin : Origin) (fields : List (String × Item))
  /-- Tables opened by double brackets, the last of which is open. -/
  | tables (closed : List (List (String × Item))) (last : List (String × Item))

/-- The fields of a table, in the order of their names. -/
abbrev Fields := List (String × Item)

/-- Change the table that keys of a header lead to. -/
def underHeader? (change : Fields → Option Fields) : List String → Fields → Option Fields
  | [], fields => change fields
  | key :: rest, fields =>
      match Entries.find? key fields with
      | none =>
          (underHeader? change rest []).map (fun sub =>
            Entries.insert key (.table .implicit sub) fields)
      | some (.table origin sub) =>
          (underHeader? change rest sub).map (fun sub =>
            Entries.insert key (.table origin sub) fields)
      | some (.tables closed last) =>
          (underHeader? change rest last).map (fun last =>
            Entries.insert key (.tables closed last) fields)
      | some _ => none

/-- Open the table of a header under its last key. -/
def openTable? (key : String) (fields : Fields) : Option Fields :=
  match Entries.find? key fields with
  | none => some (Entries.insert key (.table .header []) fields)
  | some (.table .implicit sub) => some (Entries.insert key (.table .header sub) fields)
  | _ => none

/-- Open one more of the tables of a header in double brackets under its last key. -/
def openNext? (key : String) (fields : Fields) : Option Fields :=
  match Entries.find? key fields with
  | none => some (Entries.insert key (.tables [] []) fields)
  | some (.tables closed last) =>
      some (Entries.insert key (.tables (closed ++ [last]) []) fields)
  | _ => none

/-- What a dotted key with `rest` parts to come makes of a table it enters, if it may: the
table that gets the value becomes dotted. -/
def Origin.entered? (origin : Origin) (rest : List String) : Option Origin :=
  match origin with
  | .header => none
  | .dotted => some .dotted
  | .implicit => some (if rest.length ≤ 1 then .dotted else .implicit)

/-- Store an item under a dotted key. -/
def storeDotted? (item : Item) : List String → Fields → Option Fields
  | [], _ => none
  | [key], fields =>
      match Entries.find? key fields with
      | none => some (Entries.insert key item fields)
      | some _ => none
  | key :: rest, fields =>
      match Entries.find? key fields with
      | none =>
          (storeDotted? item rest []).map (fun sub =>
            Entries.insert key (.table .dotted sub) fields)
      | some (.table origin sub) =>
          match origin.entered? rest with
          | some origin =>
              (storeDotted? item rest sub).map (fun sub =>
                Entries.insert key (.table origin sub) fields)
          | none => none
      | some (.tables closed last) =>
          if 2 ≤ rest.length then
            (storeDotted? item rest last).map (fun last =>
              Entries.insert key (.tables closed last) fields)
          else none
      | some _ => none

/-- How items are read as values. -/
structure Reading where
  /-- The integers there are. -/
  fits : Int → Bool
  /-- Whether a table whose first field is `dateTimeField` stands for a date or time. -/
  datesInTables : Bool

/-- The name under which a table holds the text of the date or time it stands for. -/
def dateTimeField : String := "$__toml_private_datetime"

/-- The value of a date or time. -/
def dateTimeValue (text : String) : Value :=
  .object (SortedMap.singleton dateTimeField (.string text))

/-- Whether a table stands for a date or time. -/
def Reading.isDateTime (r : Reading) (fields : Fields) : Bool :=
  r.datesInTables && fields.head?.any (fun field => field.1 == dateTimeField)

/-- The date or time that the first field of a table writes. -/
def writtenDateTime? : Fields → Option Value
  | (_, .string text) :: _ =>
      if DateTime.isWritten text.toList then some (dateTimeValue text) else none
  | _ => none

/-- The value of a table, given the options in its fields. -/
def Reading.tableValue? (r : Reading) (fields : Fields) (options? : Option Options) :
    Option Value :=
  if r.isDateTime fields then writtenDateTime? fields else options?.map .object

mutual

/-- The value of an item, unless a number in it is too large, or a table in it ought to stand
for a date and does not: a decimal is too large if no number of double precision is near, and
an integer if it does not fit.  What is not finite is null. -/
def Item.value? (r : Reading) : Item → Option Value
  | .bool b => some (.bool b)
  | .string s => some (.string s)
  | .integer n => if r.fits n then some (.int n) else none
  | .decimal d => d.map (fun d => .number (.decimal d))
  | .notFinite => some .null
  | .dateTime text => some (dateTimeValue text)
  | .array items => (itemValues? r items).map .array
  | .inline fields => r.tableValue? fields (fieldValues? r fields)
  | .table _ fields => r.tableValue? fields (fieldValues? r fields)
  | .tables closed last =>
      match tableValues? r closed, r.tableValue? last (fieldValues? r last) with
      | some closed, some last => some (.array (closed ++ [last]))
      | _, _ => none

/-- The values of the items of an array. -/
def itemValues? (r : Reading) : List Item → Option (List Value)
  | [] => some []
  | item :: rest =>
      match item.value? r, itemValues? r rest with
      | some v, some vs => some (v :: vs)
      | _, _ => none

/-- The options in fields. -/
def fieldValues? (r : Reading) : List (String × Item) → Option Options
  | [] => some ∅
  | (key, item) :: rest =>
      match item.value? r, fieldValues? r rest with
      | some v, some options => some (options.insert key v)
      | _, _ => none

/-- The values of tables. -/
def tableValues? (r : Reading) : List (List (String × Item)) → Option (List Value)
  | [] => some []
  | fields :: rest =>
      match r.tableValue? fields (fieldValues? r fields), tableValues? r rest with
      | some v, some vs => some (v :: vs)
      | _, _ => none

end

/-- An array cut to its first items; everything else stays. -/
def Item.firstItems (count : Nat) : Item → Item
  | .array items => .array (items.take count)
  | item => item

end Toml

end ConfigCompiler
