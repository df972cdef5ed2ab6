/-!
Lists whose members have names, of which the first member of a name counts. Taking a name out and
noting it anew at the end are all that is ever done to them.
-/

namespace ExpiringCache

variable {α ι : Type} [DecidableEq ι] (nameOf : α → ι)

/-- Taking out members by their names takes from view the names that are not kept. -/
theorem find_after_filter (members : List α) (keeps : ι → Bool) (name : ι) :
    (members.filter fun member => keeps (nameOf member)).find? (nameOf · == name) =
      if keeps name then members.find? (nameOf · == name) else none := by
  rw [List.find?_filter]
  cases kept : keeps name with
  | true =>
      apply congrArg (fun p => members.find? p)
      funext member
      by_cases named : nameOf member = name
      · simp [named, kept]
      · simp [named]
  | false =>
      simp only [Bool.false_eq_true, if_false]
      rw [List.find?_eq_none]
      intro member _ both
      simp only [decide_eq_true_eq, beq_iff_eq] at both
      rw [both.2, kept] at both
      cases both.1

theorem find_after_removal (members : List α) (removed name : ι) :
    (members.filter (nameOf · != removed)).find? (nameOf · == name) =
      if name = removed then none else members.find? (nameOf · == name) := by
  rw [find_after_filter nameOf members (· != removed) name]
  by_cases same : name = removed
  · simp [same]
  · simp [same]

theorem find_after_note (members : List α) (noted : α) (name : ι) :
    (members.filter (nameOf · != nameOf noted) ++ [noted]).find? (nameOf · == name) =
      if name = nameOf noted then some noted else members.find? (nameOf · == name) := by
  rw [List.find?_append, find_after_removal]
  by_cases same : name = nameOf noted
  · simp [same]
  · have differs : (nameOf noted == name) = false := beq_eq_false_iff_ne.mpr (Ne.symm same)
    simp [same, differs]

/-- Where no two members have one name, each is found by its own. -/
theorem find_of_member {members : List α} (distinct : (members.map nameOf).Nodup) {member : α}
    (there : member ∈ members) : members.find? (nameOf · == nameOf member) = some member := by
  induction members with
  | nil => cases there
  | cons first rest ih =>
      rw [List.map_cons, List.nodup_cons] at distinct
      rcases List.mem_cons.mp there with rfl | later
      · exact List.find?_cons_of_pos (beq_self_eq_true _)
      · have other : nameOf first ≠ nameOf member := by
          intro same
          exact distinct.1 (same ▸ List.mem_map_of_mem later)
        rw [List.find?_cons_of_neg (by simpa using other)]
        exact ih distinct.2 later

end ExpiringCache
