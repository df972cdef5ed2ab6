import ExpiringCache.Table
/-!
Tables as maps. A table is determined, for every reader, by the value that it gives for each key;
the lemmas here say what each change does to these values, so that no later proof looks at rows.
-/

namespace ExpiringCache.Table

variable {α : Type}

theorem get_empty (k : String) : (empty : Table α).get? k = none := rfl

/-- No row of a key is found after the first, since each key stands in one row. -/
theorem mem_rows_iff_lookup (rows : List (String × α)) (distinct : (rows.map (·.1)).Nodup)
    (k : String) (value : α) : (k, value) ∈ rows ↔ rows.lookup k = some value := by
  induction rows with
  | nil => simp
  | cons row rest ih =>
      rw [List.map_cons, List.nodup_cons] at distinct
      obtain ⟨key, stored⟩ := row
      by_cases same : k = key
      · subst same
        have absent : (k, value) ∉ rest := by
          intro found
          exact distinct.1 (List.mem_map.mpr ⟨(k, value), found, rfl⟩)
        simp [absent, eq_comm]
      · have differs : (k == key) = false := by simp [same]
        simp only [List.mem_cons, Prod.mk.injEq, same, false_and, false_or,
          List.lookup_cons, differs]
        exact ih distinct.2

theorem mem_rows_iff_get (t : Table α) (k : String) (value : α) :
    (k, value) ∈ t.rows ↔ t.get? k = some value :=
  mem_rows_iff_lookup t.rows t.distinct k value

theorem lookup_put_row (key : String) (value : α) (rows : List (String × α)) (k : String) :
    (putRow key value rows).lookup k = if k = key then some value else rows.lookup k := by
  induction rows with
  | nil =>
      by_cases same : k = key
      · simp [putRow, same]
      · have differs : (k == key) = false := by simp [same]
        simp [putRow, same, List.lookup_cons, differs]
  | cons row rest ih =>
      obtain ⟨stored, old⟩ := row
      unfold putRow
      by_cases here : stored = key
      · subst here
        by_cases same : k = stored
        · simp [same]
        · have differs : (k == stored) = false := by simp [same]
          simp [same, List.lookup_cons, differs]
      · by_cases same : k = stored
        · subst same
          simp [here]
        · have differs : (k == stored) = false := by simp [same]
          simp only [if_neg here, List.lookup_cons, differs]
          exact ih

@[simp]
theorem get_put (t : Table α) (key : String) (value : α) (k : String) :
    (t.put key value).get? k = if k = key then some value else t.get? k :=
  lookup_put_row key value t.rows k

@[simp]
theorem get_keep (t : Table α) (p : String → α → Bool) (k : String) :
    (t.keep p).get? k = (t.get? k).filter (p k) := by
  apply Option.ext
  intro value
  rw [← mem_rows_iff_get, Option.filter_eq_some_iff, ← mem_rows_iff_get]
  simp [keep]

@[simp]
theorem get_erase (t : Table α) (key k : String) :
    (t.erase key).get? k = if k = key then none else t.get? k := by
  rw [erase, get_keep]
  by_cases same : k = key
  · cases t.get? k <;> simp [same]
  · cases t.get? k <;> simp [same]

/-- What stands in a table after a value was put into it is that value or was there before. -/
theorem mem_rows_put {t : Table α} {key : String} {value : α} {row : String × α}
    (member : row ∈ (t.put key value).rows) : row.2 = value ∨ row ∈ t.rows := by
  obtain ⟨k, stored⟩ := row
  rw [mem_rows_iff_get, get_put] at member
  split at member
  · exact .inl (Option.some.inj member).symm
  · exact .inr ((t.mem_rows_iff_get k stored).mpr member)

theorem mem_rows_erase {t : Table α} {key : String} {row : String × α}
    (member : row ∈ (t.erase key).rows) : row ∈ t.rows :=
  (List.mem_filter.mp member).1

theorem size_eq (t : Table α) : t.size = t.keys.length := (List.length_map _).symm

theorem mem_keys_iff (t : Table α) (k : String) : k ∈ t.keys ↔ (t.get? k).isSome := by
  rw [Option.isSome_iff_exists, keys, List.mem_map]
  constructor
  · rintro ⟨⟨key, value⟩, there, rfl⟩
    exact ⟨value, (t.mem_rows_iff_get key value).mp there⟩
  · rintro ⟨value, found⟩
    exact ⟨(k, value), (t.mem_rows_iff_get k value).mpr found, rfl⟩

theorem nodup_keys (t : Table α) : t.keys.Nodup := t.distinct

theorem nodup_rows (t : Table α) : t.rows.Nodup :=
  (List.pairwise_map.mp t.distinct).imp fun apart same => apart (congrArg Prod.fst same)

/-- Tables with the same values have the same rows, if not in the same order. -/
theorem rows_perm {t u : Table α} (same : ∀ k, t.get? k = u.get? k) : t.rows.Perm u.rows := by
  apply (List.perm_ext_iff_of_nodup t.nodup_rows u.nodup_rows).mpr
  rintro ⟨k, value⟩
  rw [mem_rows_iff_get, mem_rows_iff_get, same]

end ExpiringCache.Table
