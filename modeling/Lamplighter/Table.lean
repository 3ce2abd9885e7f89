/-! Tables from names to values that keep the order in which names first came.

Writing a name again replaces its value and leaves its place, so the keys after a
write are the old keys, followed by the new name where it was not among them. -/

namespace Lamplighter

structure Table (α : Type) where
  entries : List (String × α)
  deriving Repr, DecidableEq

namespace Table

variable {α : Type}

def empty : Table α := ⟨[]⟩

instance : Inhabited (Table α) := ⟨empty⟩

def keys (table : Table α) : List String := table.entries.map Prod.fst

def get? (table : Table α) (name : String) : Option α := table.entries.lookup name

/-- Replaces the first entry of the name, or adds one at the end. -/
def write (name : String) (value : α) : List (String × α) → List (String × α)
  | [] => [(name, value)]
  | (key, old) :: rest =>
    if key = name then (name, value) :: rest else (key, old) :: write name value rest

def insert (table : Table α) (name : String) (value : α) : Table α :=
  ⟨write name value table.entries⟩

/-- Of two entries with one name the later value stays, at the earlier place. -/
def ofList (entries : List (String × α)) : Table α :=
  entries.foldl (fun table entry => table.insert entry.1 entry.2) empty

@[simp] theorem get?_empty (name : String) : (empty : Table α).get? name = none := rfl

theorem get?_insert (table : Table α) (name other : String) (value : α) :
    (table.insert name value).get? other = if other = name then some value else table.get? other := by
  obtain ⟨entries⟩ := table
  simp only [insert, get?]
  induction entries with
  | nil =>
    by_cases h : other = name
    · simp [write, h]
    · have hb : (other == name) = false := by simp [h]
      simp [write, List.lookup_cons, hb, h]
  | cons entry rest ih =>
    obtain ⟨key, old⟩ := entry
    by_cases hk : key = name
    · by_cases h : other = name
      · simp [write, hk, h]
      · have hb : (other == name) = false := by simp [h]
        simp [write, hk, h, List.lookup_cons, hb]
    · by_cases ho : other = key
      · have h : ¬ other = name := fun e => hk (ho ▸ e)
        subst ho
        simp [write, hk]
      · have hb : (other == key) = false := by simp [ho]
        simp [write, hk, List.lookup_cons, hb, ih]

theorem keys_insert (table : Table α) (name : String) (value : α) :
    (table.insert name value).keys =
      if name ∈ table.keys then table.keys else table.keys ++ [name] := by
  obtain ⟨entries⟩ := table
  simp only [insert, keys]
  induction entries with
  | nil => simp [write]
  | cons entry rest ih =>
    obtain ⟨key, old⟩ := entry
    by_cases hk : key = name
    · simp [write, hk]
    · have hn : ¬ name = key := fun e => hk e.symm
      by_cases hm : name ∈ rest.map Prod.fst
      · simp only [write, hk, if_false, List.map_cons, ih, hm, if_true, List.mem_cons, or_true]
      · simp only [write, hk, if_false, List.map_cons, ih, hm, List.mem_cons, hn, or_self,
          List.cons_append]

end Table
end Lamplighter
