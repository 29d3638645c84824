import ContainerNet.Toml.Value

/-!
# Tables under construction

A document fills its tables piece by piece: a header opens a table, a dotted key reaches into one.
A table can be opened by a header once, tables that came about only because a header named
something inside of them can still be opened, and dotted keys reach only into tables that dotted
keys have made. What was written as one value is closed.
-/

namespace ContainerNet.Toml

/-- How a table came about. -/
inductive Style
  /-- A header named a table inside of it. -/
  | implied
  /-- A header opened it. -/
  | opened
  /-- A dotted key reached into it. -/
  | dotted
deriving DecidableEq, Repr

/-- What a key stands for while a document is read. -/
inductive Node
  | value (v : Toml)
  | table (style : Style) (members : List (String × Node))
  /-- An array to which headers add tables; the last one is being filled. -/
  | tables (earlier : List Toml) (last : List (String × Node))

/-- The members of a table under construction. -/
abbrev Draft := List (String × Node)

mutual

/-- The value that has been built. -/
def Node.finish : Node → Toml
  | .value v => v
  | .table _ members => .table (finishAll members)
  | .tables earlier last => .array (earlier ++ [.table (finishAll last)])

def finishAll : List (String × Node) → List (String × Toml)
  | [] => []
  | (k, n) :: r => (k, n.finish) :: finishAll r

end

namespace Draft

def get? (t : Draft) (k : String) : Option Node := (t.find? (·.1 = k)).map (·.2)

/-- Puts a node under a key, in place of one that is there. -/
def put (t : Draft) (k : String) (n : Node) : Draft :=
  if t.any (·.1 = k) then t.map fun (l, m) ↦ if l = k then (k, n) else (l, m)
  else t ++ [(k, n)]

/-- Changes the table that a path leads to, with tables made on the way if they are missing. A
dotted path does not lead into a table that a header opened. -/
def reach (dotted : Bool) (f : Style → Draft → Option Draft) :
    List String → Style → Draft → Option Draft
  | [], style, t => f style t
  | k :: rest, _, t =>
    match t.get? k with
    | none => do
      let style := if dotted then .dotted else .implied
      return t.put k (.table style (← reach dotted f rest style []))
    | some (.value _) => none
    | some (.table style members) => do
      if dotted && style == .opened then none
      return t.put k (.table style (← reach dotted f rest style members))
    | some (.tables earlier last) => do
      return t.put k (.tables earlier (← reach dotted f rest .opened last))

/-- Gives a new key a value; behind a dotted path the table must have been made by dotted keys. -/
def define (path : List String) (k : String) (v : Toml) (t : Draft) : Option Draft :=
  reach true (fun style t ↦
    if (!path.isEmpty && style != .dotted) || (t.get? k).isSome then none
    else some (t.put k (.value v))) path .opened t

/-- Gives a new key a value in the table that a header opened. -/
def defineIn (header path : List String) (k : String) (v : Toml) (t : Draft) : Option Draft :=
  reach false (fun _ t ↦ t.define path k v) header .opened t

/-- Opens a table. -/
def openTable (path : List String) (k : String) (t : Draft) : Option Draft :=
  reach false (fun _ t ↦
    match t.get? k with
    | none => some (t.put k (.table .opened []))
    | some (.table .implied members) => some (t.put k (.table .opened members))
    | _ => none) path .opened t

/-- Adds a table to an array of tables. -/
def addTable (path : List String) (k : String) (t : Draft) : Option Draft :=
  reach false (fun _ t ↦
    match t.get? k with
    | none => some (t.put k (.tables [] []))
    | some (.tables earlier last) =>
      some (t.put k (.tables (earlier ++ [.table (finishAll last)]) []))
    | _ => none) path .opened t

/-- The table of some keys with their values, as one value. -/
def ofPairs (pairs : List (List String × String × Toml)) : Option Toml := do
  let t ← pairs.foldlM (fun (t : Draft) (path, k, v) ↦ t.define path k v) []
  return .table (finishAll t)

end Draft

end ContainerNet.Toml
