import Mathlib.Data.List.Nodup
import ExpiringCache.Line
/-!
What joining and leaving do to a line. Whoever is first stays first until it leaves, and callers
that join leave everyone else where they are.
-/

namespace ExpiringCache.Line

variable {ι : Type} {line : Line ι} {id j : ι}

theorem nodup_of_join (distinct : line.callers.Nodup) (outside : id ∉ line.callers) :
    (line.join id).callers.Nodup := by
  rw [join, ← List.concat_eq_append]
  exact List.Nodup.concat outside distinct

theorem first_of_join (first : line.first? = some j) : (line.join id).first? = some j := by
  obtain ⟨rest, callers⟩ := List.head?_eq_some_iff.mp first
  rw [first?, join, callers]
  rfl

variable [DecidableEq ι]

theorem first_of_leave (first : line.first? = some j) (other : j ≠ id) :
    (line.leave id).first? = some j := by
  obtain ⟨rest, callers⟩ := List.head?_eq_some_iff.mp first
  have stays : (j != id) = true := bne_iff_ne.mpr other
  simp only [leave, first?, callers, List.filter_cons, stays, if_true, List.head?_cons]

theorem leave_of_stranger (stranger : id ∉ line.callers) : line.leave id = line := by
  have kept : ∀ caller ∈ line.callers, (caller != id) = true := by
    intro caller member
    apply bne_iff_ne.mpr
    rintro rfl
    exact stranger member
  rw [leave, List.filter_eq_self.mpr kept]

theorem leave_of_join (stranger : id ∉ line.callers) : (line.join id).leave id = line := by
  have before : line.callers.filter (· != id) = line.callers :=
    congrArg callers (leave_of_stranger stranger)
  simp only [join, leave, List.filter_append, before, List.filter_singleton, bne_self_eq_false,
    cond_false, List.append_nil]

end ExpiringCache.Line
