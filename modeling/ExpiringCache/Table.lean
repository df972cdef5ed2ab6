/-!
Tables from text keys to values. The rows stand in the order in which their keys first came, each
key once.
-/

namespace ExpiringCache

/-- A finite map from text keys. -/
structure Table (α : Type) where
  rows : List (String × α)
  distinct : (rows.map (·.1)).Nodup

namespace Table

variable {α : Type}

def empty : Table α := ⟨[], List.nodup_nil⟩

instance : Inhabited (Table α) := ⟨empty⟩

def size (t : Table α) : Nat := t.rows.length

def keys (t : Table α) : List String := t.rows.map (·.1)

def get? (t : Table α) (key : String) : Option α := t.rows.lookup key

def contains (t : Table α) (key : String) : Bool := (t.get? key).isSome

/-- Rows with the value at a key replaced, or with a new row at the end. -/
def putRow (key : String) (value : α) : List (String × α) → List (String × α)
  | [] => [(key, value)]
  | row :: rest => if row.1 = key then (key, value) :: rest else row :: putRow key value rest

theorem mem_keys_putRow (key : String) (value : α) (rows : List (String × α)) (k : String) :
    k ∈ (putRow key value rows).map (·.1) ↔ k = key ∨ k ∈ rows.map (·.1) := by
  induction rows with
  | nil => simp [putRow]
  | cons row rest ih =>
    unfold putRow
    split
    · next same => simp [← same]
    · simp only [List.map_cons, List.mem_cons, ih]
      exact or_left_comm

theorem nodup_keys_putRow (key : String) (value : α) (rows : List (String × α))
    (distinct : (rows.map (·.1)).Nodup) : ((putRow key value rows).map (·.1)).Nodup := by
  induction rows with
  | nil => simp [putRow]
  | cons row rest ih =>
    rw [List.map_cons, List.nodup_cons] at distinct
    unfold putRow
    split
    · next same =>
      rw [List.map_cons, List.nodup_cons]
      exact ⟨same ▸ distinct.1, distinct.2⟩
    · next differs =>
      rw [List.map_cons, List.nodup_cons, mem_keys_putRow]
      exact ⟨fun found => found.elim differs distinct.1, ih distinct.2⟩

def put (t : Table α) (key : String) (value : α) : Table α :=
  ⟨putRow key value t.rows, nodup_keys_putRow key value t.rows t.distinct⟩

def keep (t : Table α) (p : String → α → Bool) : Table α :=
  ⟨t.rows.filter fun row => p row.1 row.2,
    t.distinct.sublist ((List.filter_sublist).map _)⟩

def erase (t : Table α) (key : String) : Table α := t.keep fun k _ => k != key

end Table

end ExpiringCache
