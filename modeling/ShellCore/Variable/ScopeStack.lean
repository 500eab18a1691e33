import ShellCore.Variable.Table

/-! The stack of tables in which variables are looked up. -/

namespace ShellCore

/-- The tables that an operation applies to. -/
inductive Scope
  /-- The global table. Making an entry there removes the name from all others. -/
  | outermost
  /-- The topmost table. -/
  | innermost
  /-- The topmost table that has the name, or else the topmost one. -/
  | visible
  deriving DecidableEq, Repr

/-- The global table lies at the bottom and cannot be removed. -/
structure ScopeStack where
  /-- The topmost table comes first. -/
  locals : List Table
  globals : Table

namespace ScopeStack

def new : ScopeStack := ⟨[], .new 0⟩

/-- All tables from the top down. -/
def tables (s : ScopeStack) : List Table := s.locals ++ [s.globals]

def depth (s : ScopeStack) : Nat := s.locals.length + 1

def top (s : ScopeStack) : Table := s.locals.headD s.globals

def mapTop (s : ScopeStack) (f : Table → Table) : ScopeStack :=
  match s.locals with
  | [] => { s with globals := f s.globals }
  | t :: rest => { s with locals := f t :: rest }

/-- The visible entry of the name. -/
def get (s : ScopeStack) (name : String) : Option Entry := s.tables.findSome? (·.lookup name)

/-- The entry that a change in the scope would apply to, if there is one. -/
def getScoped (s : ScopeStack) (name : String) : Scope → Option Entry
  | .outermost => (s.globals.lookup name).or (s.get name)
  | .innermost => s.top.lookup name
  | .visible => s.get name

/-- All entries of the name with the levels of their tables, from the top down. -/
def getAll (s : ScopeStack) (name : String) : List (Nat × Entry) :=
  s.tables.filterMap fun t => (t.lookup name).map (t.level, ·)

/-- Changes the first of the tables that has the name. -/
def changeFirst (name : String) (f : Table → Table) : List Table → Option (List Table)
  | [] => none
  | t :: rest =>
    if t.contains name then some (f t :: rest) else (changeFirst name f rest).map (t :: ·)

/-- Changes the table of the visible entry, or the topmost one if the name has no entry. -/
def mapVisible (s : ScopeStack) (name : String) (f : Table → Table) : ScopeStack :=
  match changeFirst name f s.locals with
  | some locals => { s with locals }
  | none => if s.globals.contains name then { s with globals := f s.globals } else s.mapTop f

/-- The topmost table that has the name, or else the topmost one. -/
def visibleTable (s : ScopeStack) (name : String) : Table :=
  (s.tables.find? (·.contains name)).getD s.top

/-- Removes the name from the local tables. The topmost of its entries there moves to the global
table, unless that has one. -/
def promote (s : ScopeStack) (name : String) : ScopeStack :=
  let locals := s.locals.map (·.remove name)
  if s.globals.contains name then { s with locals }
  else match s.locals.findSome? (·.lookup name) with
    | some e => ⟨locals, s.globals.insert name (e.removeFlags { isLocal := true })⟩
    | none => { s with locals }

/-- Changes the entry of the name in the scope, which is made if it is missing. Nothing protects a
read-only entry here. -/
def update (s : ScopeStack) (name : String) (scope : Scope) (f : Entry → Entry) : ScopeStack :=
  match scope with
  | .outermost =>
    let s := s.promote name
    { s with globals := s.globals.update name f }
  | .innermost => s.mapTop (·.update name f)
  | .visible => s.mapVisible name (·.update name f)

/-- The entry that `update` changes. -/
def entryOrNew (s : ScopeStack) (name : String) : Scope → Entry
  | .outermost => (s.promote name).globals.entryOrNew name
  | .innermost => s.top.entryOrNew name
  | .visible => (s.visibleTable name).entryOrNew name

/-- Changes the visible entry of the name, if there is one. -/
def modify (s : ScopeStack) (name : String) (f : Entry → Entry) : ScopeStack :=
  s.mapVisible name (·.modify name f)

/-- The tables from which unsetting the name in the scope would remove it. -/
def unsetTables (s : ScopeStack) (name : String) : Scope → List Table
  | .outermost => s.tables
  | .innermost => [s.top]
  | .visible => (s.tables.find? (·.contains name)).toList

/-- Removes the name from the global table and all others, from the topmost table, or from the
table of the visible entry. Yields the entry that was visible among the removed ones. -/
def unset (s : ScopeStack) (name : String) (scope : Scope) :
    Except UnsetError (Option Entry × ScopeStack) :=
  let removed := (s.unsetTables name scope).filterMap (·.lookup name)
  if removed.any (·.flags.readOnly) then .error ⟨name⟩
  else
    let left := match scope with
      | .outermost => ⟨s.locals.map (·.remove name), s.globals.remove name⟩
      | .innermost => s.mapTop (·.remove name)
      | .visible => s.mapVisible name (·.remove name)
    .ok (removed.head?, left)

/-- The entries that can be seen in the scope. -/
def listing (s : ScopeStack) (scope : Scope) : Dictionary Entry :=
  match scope with
  | .innermost => s.top.entries
  | _ => Dictionary.ofList (s.tables.flatMap (·.entries.toList))

/-- Puts a table on top, at the level that it has there. -/
def pushTable (s : ScopeStack) (t : Table) : ScopeStack :=
  { s with locals := { t with level := s.depth } :: s.locals }

def push (s : ScopeStack) : ScopeStack := s.pushTable (.new s.depth)

/-- Takes off the topmost table, unless it is the global one. -/
def pop (s : ScopeStack) : Option Table × ScopeStack :=
  match s.locals with
  | [] => (none, s)
  | t :: rest => (some t, { s with locals := rest })

/-- Gives back a table that has been taken off, if there was one. -/
def giveBack (s : ScopeStack) : Option Table → ScopeStack
  | some t => s.pushTable t
  | none => s

end ScopeStack

end ShellCore
