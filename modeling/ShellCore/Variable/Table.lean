import ShellCore.Dictionary
import ShellCore.Variable.Entry

/-! One level of bindings. -/

namespace ShellCore

structure Table where
  /-- Zero is the global scope. -/
  level : Nat
  entries : Dictionary Entry

namespace Table

def new (level : Nat) : Table := ⟨level, {}⟩

def lookup (t : Table) (name : String) : Option Entry := t.entries.get? name

def contains (t : Table) (name : String) : Bool := (t.lookup name).isSome

def size (t : Table) : Nat := t.entries.size

/-- What a name is bound to before it gets a value. -/
def fresh (t : Table) : Entry := { flags := { isLocal := t.level != 0 } }

/-- The entry of the name, or the one that it would get. -/
def entryOrNew (t : Table) (name : String) : Entry := (t.lookup name).getD t.fresh

def insert (t : Table) (name : String) (e : Entry) : Table :=
  { t with entries := t.entries.insert name e }

def remove (t : Table) (name : String) : Table := { t with entries := t.entries.erase name }

/-- Changes the entry of the name, which is made if it is missing. -/
def update (t : Table) (name : String) (f : Entry → Entry) : Table :=
  t.insert name (f (t.entryOrNew name))

/-- Changes the entry of the name, if there is one. -/
def modify (t : Table) (name : String) (f : Entry → Entry) : Table :=
  match t.lookup name with
  | some e => t.insert name (f e)
  | none => t

@[simp] theorem lookup_insert (t : Table) (name k : String) (e : Entry) :
    (t.insert name e).lookup k = if k = name then some e else t.lookup k := by
  simp [insert, lookup]

@[simp] theorem lookup_remove (t : Table) (name k : String) :
    (t.remove name).lookup k = if k = name then none else t.lookup k := by
  simp [remove, lookup]

@[simp] theorem lookup_update (t : Table) (name k : String) (f : Entry → Entry) :
    (t.update name f).lookup k =
      if k = name then some (f (t.entryOrNew name)) else t.lookup k := by
  simp [update]

@[simp] theorem entryOrNew_update (t : Table) (name : String) (f : Entry → Entry) :
    (t.update name f).entryOrNew name = f (t.entryOrNew name) := by
  rw [entryOrNew, lookup_update, if_pos rfl, Option.getD_some]

theorem update_update (t : Table) (name : String) (f g : Entry → Entry) :
    (t.update name f).update name g = t.update name (g ∘ f) := by
  have he := t.entryOrNew_update name f
  simp only [update, insert] at he ⊢
  rw [he, Dictionary.insert_insert]
  rfl

theorem remove_remove (t : Table) (name : String) :
    (t.remove name).remove name = t.remove name := by
  simp only [remove, Dictionary.erase_erase]

@[simp] theorem level_insert (t : Table) (name : String) (e : Entry) :
    (t.insert name e).level = t.level := rfl

@[simp] theorem level_remove (t : Table) (name : String) : (t.remove name).level = t.level := rfl

@[simp] theorem level_update (t : Table) (name : String) (f : Entry → Entry) :
    (t.update name f).level = t.level := rfl

end Table

end ShellCore
