namespace PluginAgent.Toml

inductive Origin where
  /-- Written in braces: nothing is added later. -/
  | inline
  /-- Opened by a header of its own. -/
  | header
  /-- Named on the way by the header of a table below it. -/
  | above
  /-- Named on the way by a dotted key. -/
  | dotted
  deriving DecidableEq, Repr

/-- Numbers with a fraction and dates are kept as written. The rows of an array of tables are listed
newest first. -/
inductive Value where
  | text (s : String)
  | integer (n : Int)
  | float (written : String)
  | boolean (b : Bool)
  | date (written : String)
  | array (items : List Value)
  | table (origin : Origin) (entries : List (String × Value))
  | rows (newestFirst : List (List (String × Value)))
  deriving Repr

abbrev Entries : Type :=
  List (String × Value)

namespace Entries

def put (key : String) (v : Value) : Entries → Entries
  | [] => [(key, v)]
  | (k, old) :: rest => if k = key then (k, v) :: rest else (k, old) :: put key v rest

inductive Way where
  | header
  | key
  deriving DecidableEq, Repr

def Way.origin : Way → Origin
  | header => .above
  | key => .dotted

def descend (way : Way) (f : Origin → Entries → Option Entries) :
    List String → Origin → Entries → Option Entries
  | [], origin, es => f origin es
  | key :: path, _, es =>
    match es.lookup key with
    | none => (descend way f path way.origin []).map fun c => put key (.table way.origin c) es
    | some (.table .inline _) => none
    | some (.table .header c) =>
      -- dotted keys lead into no table that has a header of its own
      if way = .key then none
      else (descend way f path .header c).map fun c => put key (.table .header c) es
    | some (.table origin c) =>
        (descend way f path origin c).map fun c => put key (.table origin c) es
    -- in an array of tables the way is through the newest
    | some (.rows (row :: older)) =>
        (descend way f path .header row).map fun row => put key (.rows (row :: older)) es
    | some _ => none

def assign (path : List String) (key : String) (v : Value) : Origin → Entries → Option Entries :=
  descend .key (fun origin es =>
    -- only a table that dotted keys made is extended by another one
    if (origin == .dotted) == path.isEmpty then none
    else if (es.lookup key).isSome then none
    else some (es ++ [(key, v)])) path

def openTable (path : List String) (key : String) : Entries → Option Entries :=
  descend .header (fun _ es => match es.lookup key with
    | none => some (put key (.table .header []) es)
    | some (.table .above c) => some (put key (.table .header c) es)
    | some _ => none) path .header

def openRow (path : List String) (key : String) : Entries → Option Entries :=
  descend .header (fun _ es => match es.lookup key with
    | none => some (put key (.rows [[]]) es)
    | some (.rows rows) => some (put key (.rows ([] :: rows)) es)
    | some _ => none) path .header

end Entries

end PluginAgent.Toml
