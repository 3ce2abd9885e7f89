import Lamplighter.Table
import Mathlib.Data.List.Induction
import Mathlib.Data.List.Nodup

/-! Tables made of lists of entries. -/

namespace Lamplighter.Table

variable {α : Type}

/-- Of two entries with one name the later one counts. -/
def lastValue (entries : List (String × α)) (name : String) : Option α :=
  entries.reverse.lookup name

theorem ofList_snoc (entries : List (String × α)) (name : String) (value : α) :
    ofList (entries ++ [(name, value)]) = (ofList entries).insert name value := by
  simp only [ofList, List.foldl_append, List.foldl_cons, List.foldl_nil]

theorem get?_ofList (entries : List (String × α)) (name : String) :
    (ofList entries).get? name = lastValue entries name := by
  induction entries using List.reverseRecOn with
  | nil => rfl
  | append_singleton entries entry ih =>
      rcases entry with ⟨key, value⟩
      rw [ofList_snoc, get?_insert, ih, lastValue, lastValue, List.reverse_concat, List.lookup_cons]
      by_cases same : name = key
      · simp [same]
      · have apart : (name == key) = false := beq_eq_false_iff_ne.mpr same
        simp [same, apart]

theorem map_write {β : Type} (view : α → β) (name : String) (value : α)
    (entries : List (String × α)) :
    (write name value entries).map (fun entry => (entry.1, view entry.2)) =
      write name (view value) (entries.map fun entry => (entry.1, view entry.2)) := by
  induction entries with
  | nil => rfl
  | cons entry rest ih =>
      by_cases same : entry.1 = name
      · simp only [write, if_pos same, List.map_cons]
      · simp only [write, if_neg same, List.map_cons, ih]

theorem mem_keys_insert (table : Table α) (name : String) (value : α) :
    name ∈ (table.insert name value).keys := by
  rw [keys_insert]
  split
  case isTrue present => exact present
  case isFalse => exact List.mem_append_right _ (.head _)

theorem mem_keys_insert_of_mem {table : Table α} {other : String} (name : String) (value : α)
    (present : other ∈ table.keys) : other ∈ (table.insert name value).keys := by
  rw [keys_insert]
  split
  · exact present
  · exact List.mem_append_left _ present

theorem map_fst_write (name : String) (value : α) {entries : List (String × α)}
    (present : name ∈ entries.map Prod.fst) :
    (write name value entries).map Prod.fst = entries.map Prod.fst := by
  have keys := keys_insert ⟨entries⟩ name value
  rwa [if_pos (by exact present)] at keys

/-- A name of the first entries is written there. -/
theorem write_append_of_mem {name : String} (value : α) {first : List (String × α)}
    (present : name ∈ first.map Prod.fst) (second : List (String × α)) :
    write name value (first ++ second) = write name value first ++ second := by
  induction first with
  | nil => cases present
  | cons entry first ih =>
      by_cases same : entry.1 = name
      · simp only [List.cons_append, write, if_pos same]
      · have later : name ∈ first.map Prod.fst := by
          rcases List.mem_cons.mp present with here | later
          · exact absurd here.symm same
          · exact later
        simp only [List.cons_append, write, if_neg same, ih later]

/-- A name that the first entries lack is written behind them. -/
theorem write_append {name : String} (value : α) {first : List (String × α)}
    (fresh : name ∉ first.map Prod.fst) (second : List (String × α)) :
    write name value (first ++ second) = first ++ write name value second := by
  induction first with
  | nil => rfl
  | cons entry first ih =>
      rw [List.map_cons, List.mem_cons, not_or] at fresh
      have apart : ¬ entry.1 = name := fun same => fresh.1 same.symm
      rw [List.cons_append, write, if_neg apart, ih fresh.2, List.cons_append]

/-- A new name comes last. -/
theorem insert_append (entries : List (String × α)) (name : String) (value : α)
    (fresh : name ∉ entries.map Prod.fst) :
    (⟨entries⟩ : Table α).insert name value = ⟨entries ++ [(name, value)]⟩ := by
  have last := write_append value fresh []
  rw [List.append_nil] at last
  rw [insert, last]
  rfl

theorem get?_cons (name key : String) (value : α) (rest : List (String × α)) :
    (⟨(key, value) :: rest⟩ : Table α).get? name =
      if name = key then some value else (⟨rest⟩ : Table α).get? name := by
  by_cases same : name = key
  · simp [get?, same]
  · have apart : (name == key) = false := beq_eq_false_iff_ne.mpr same
    simp [get?, List.lookup_cons, apart, same]

theorem get?_eq_none {table : Table α} {name : String} (absent : name ∉ table.keys) :
    table.get? name = none := by
  rw [get?, List.lookup_eq_none_iff]
  intro entry member
  rw [bne_iff_ne]
  rintro rfl
  exact absent (List.mem_map_of_mem member)

/-- The same names in the same places, with other values. -/
def mapValues {β : Type} (view : α → β) (table : Table α) : Table β :=
  ⟨table.entries.map fun entry => (entry.1, view entry.2)⟩

theorem get?_mapValues {β : Type} (view : α → β) (table : Table α) (name : String) :
    (table.mapValues view).get? name = (table.get? name).map view := by
  obtain ⟨entries⟩ := table
  induction entries with
  | nil => rfl
  | cons entry rest ih =>
      have first : (mapValues view ⟨entry :: rest⟩).get? name =
          if name = entry.1 then some (view entry.2) else (mapValues view ⟨rest⟩).get? name :=
        get?_cons ..
      rw [first, ih, get?_cons]
      split <;> rfl

theorem nodup_keys_insert {table : Table α} (distinct : table.keys.Nodup) (name : String)
    (value : α) : (table.insert name value).keys.Nodup := by
  rw [keys_insert]
  split
  case isTrue => exact distinct
  case isFalse absent =>
    rw [← List.concat_eq_append]
    exact List.Nodup.concat absent distinct

/-- A value that is written over leaves no trace. -/
theorem write_write (name : String) (old value : α) (entries : List (String × α)) :
    write name value (write name old entries) = write name value entries := by
  induction entries with
  | nil => simp only [write, if_true]
  | cons entry rest ih =>
      by_cases same : entry.1 = name
      · simp only [write, if_pos same, if_true]
      · simp only [write, if_neg same, ih]

/-- A name that has its place already may be written before or after another one. -/
theorem write_comm {name other : String} (apart : name ≠ other) (value third : α)
    {entries : List (String × α)} (present : name ∈ entries.map Prod.fst) :
    write name value (write other third entries) =
      write other third (write name value entries) := by
  induction entries with
  | nil => cases present
  | cons entry rest ih =>
      by_cases here : entry.1 = name
      · have elsewhere : ¬ entry.1 = other := fun same => apart (here.symm.trans same)
        simp only [write, if_pos here, if_neg elsewhere, if_neg apart]
      · have later : name ∈ rest.map Prod.fst := by
          rcases List.mem_cons.mp present with first | later
          · exact absurd first.symm here
          · exact later
        by_cases same : entry.1 = other
        · have elsewhere : ¬ other = name := fun same => apart same.symm
          simp only [write, if_neg here, if_pos same, if_neg elsewhere]
        · simp only [write, if_neg here, if_neg same, ih later]

theorem nodup_keys_ofList (entries : List (String × α)) : (ofList entries).keys.Nodup := by
  induction entries using List.reverseRecOn with
  | nil => exact List.nodup_nil
  | append_singleton entries entry ih =>
      rw [ofList_snoc]
      exact nodup_keys_insert ih entry.1 entry.2

/-- Entries of different names make a table of just these. -/
theorem entries_ofList {entries : List (String × α)} (distinct : (entries.map Prod.fst).Nodup) :
    (ofList entries).entries = entries := by
  induction entries using List.reverseRecOn with
  | nil => rfl
  | append_singleton entries entry ih =>
      rcases entry with ⟨name, value⟩
      rw [List.map_append, List.nodup_append] at distinct
      rcases distinct with ⟨front, _, apart⟩
      have fresh : name ∉ entries.map Prod.fst := fun among => apart name among name (.head _) rfl
      have same : ofList entries = ⟨entries⟩ := congrArg Table.mk (ih front)
      rw [ofList_snoc, same, insert_append entries name value fresh]

/-- The entries of the other table, written one after the other. -/
def update (table other : Table α) : Table α :=
  other.entries.foldl (fun table entry => table.insert entry.1 entry.2) table

theorem update_cons (table : Table α) (key : String) (old : α) (rest : List (String × α)) :
    table.update ⟨(key, old) :: rest⟩ = (table.insert key old).update ⟨rest⟩ := rfl

/-- A name that has its place already may be written before an update that leaves it alone. -/
theorem insert_update {table : Table α} {name : String} (value : α)
    (present : name ∈ table.keys) {other : Table α} (absent : name ∉ other.keys) :
    (table.update other).insert name value = (table.insert name value).update other := by
  obtain ⟨entries⟩ := other
  induction entries generalizing table with
  | nil => rfl
  | cons entry rest ih =>
      obtain ⟨key, old⟩ := entry
      obtain ⟨apart, others⟩ := not_or.mp (mt List.mem_cons.mpr absent)
      have swap : (table.insert key old).insert name value =
          (table.insert name value).insert key old :=
        congrArg Table.mk (write_comm apart value old present)
      rw [update_cons, update_cons, ih (mem_keys_insert_of_mem _ _ present) others, swap]

/-- An update by a longer table is a longer update. -/
theorem update_insert (table : Table α) {other : Table α} (distinct : other.keys.Nodup)
    (name : String) (value : α) :
    table.update (other.insert name value) = (table.update other).insert name value := by
  obtain ⟨entries⟩ := other
  induction entries generalizing table with
  | nil => rfl
  | cons entry rest ih =>
      obtain ⟨key, old⟩ := entry
      obtain ⟨absent, others⟩ := List.nodup_cons.mp distinct
      by_cases same : key = name
      · subst same
        have again : table.insert key value = (table.insert key old).insert key value :=
          congrArg Table.mk (write_write key old value table.entries).symm
        have written :
            (⟨(key, old) :: rest⟩ : Table α).insert key value = ⟨(key, value) :: rest⟩ := by
          rw [insert, write, if_pos rfl]
        rw [written, update_cons, update_cons, again,
          insert_update value (mem_keys_insert _ _ _) absent]
      · have written : (⟨(key, old) :: rest⟩ : Table α).insert name value =
            ⟨(key, old) :: write name value rest⟩ := by
          rw [insert, write, if_neg same]
        rw [written, update_cons, update_cons]
        exact ih _ others

theorem get?_update (table : Table α) {other : Table α} (distinct : other.keys.Nodup)
    (name : String) : (table.update other).get? name = (other.get? name).or (table.get? name) := by
  obtain ⟨entries⟩ := other
  induction entries generalizing table with
  | nil => rfl
  | cons entry rest ih =>
      obtain ⟨key, old⟩ := entry
      obtain ⟨absent, others⟩ := List.nodup_cons.mp distinct
      rw [update_cons, ih _ others, get?_insert, get?_cons]
      by_cases same : name = key
      · have none : (⟨rest⟩ : Table α).get? name = none := get?_eq_none (same ▸ absent)
        rw [none, if_pos same, if_pos same]
        rfl
      · rw [if_neg same, if_neg same]

/-- The names of a table keep their places, and new ones come behind them in their own order. -/
theorem keys_update (table : Table α) {other : Table α} (distinct : other.keys.Nodup) :
    (table.update other).keys =
      table.keys ++ other.keys.filter fun name => name ∉ table.keys := by
  obtain ⟨entries⟩ := other
  induction entries generalizing table with
  | nil => exact (List.append_nil _).symm
  | cons entry rest ih =>
      obtain ⟨key, old⟩ := entry
      obtain ⟨absent, others⟩ := List.nodup_cons.mp distinct
      have keys : (⟨(key, old) :: rest⟩ : Table α).keys = key :: (⟨rest⟩ : Table α).keys := rfl
      rw [update_cons, ih _ others, keys_insert, keys]
      by_cases known : key ∈ table.keys
      · rw [if_pos known, List.filter_cons_of_neg (by simpa using known)]
      · rw [if_neg known, List.filter_cons_of_pos (by simpa using known), List.append_assoc,
          List.singleton_append]
        congr 2
        apply List.filter_congr
        intro name member
        have apart : name ≠ key := by
          rintro rfl
          exact absent member
        simp [apart]

end Lamplighter.Table
