import Mathlib.Data.List.TakeWhile
import ExpiringCache.Text.Blank
/-!
Text with blanks around it. Trimming takes blanks from both ends and nothing else, so that what is
left of a padded word is the word.
-/

namespace ExpiringCache.Text

/-! ### Dropping from one end -/

section Drop

variable {p : Char → Bool} {front word back : List Char}

theorem drop_front_of_append (all : ∀ c ∈ front, p c = true)
    (starts : ∀ c ∈ word.head?, p c = false) : dropFront p (front ++ word) = word := by
  rw [dropFront, List.dropWhile_append_of_pos all]
  cases word with
  | nil => rfl
  | cons c rest => exact List.dropWhile_cons_of_neg (by simp [starts c rfl])

theorem drop_back_of_append (all : ∀ c ∈ back, p c = true)
    (ends : ∀ c ∈ word.getLast?, p c = false) : dropBack p (word ++ back) = word := by
  have mirrored : dropFront p (back.reverse ++ word.reverse) = word.reverse := by
    apply drop_front_of_append
    · exact fun c member => all c (List.mem_reverse.mp member)
    · rwa [List.head?_reverse]
  rw [dropFront] at mirrored
  rw [dropBack, List.reverse_append, mirrored, List.reverse_reverse]

theorem drop_front_starts (p : Char → Bool) (cs : List Char) :
    ∀ c ∈ (dropFront p cs).head?, p c = false := by
  induction cs with
  | nil => exact nofun
  | cons first rest ih =>
      rw [dropFront, List.dropWhile_cons]
      split
      · exact ih
      · next stays =>
        intro c same
        cases same
        exact Bool.eq_false_iff.mpr stays

theorem drop_back_ends (p : Char → Bool) (cs : List Char) :
    ∀ c ∈ (dropBack p cs).getLast?, p c = false := by
  rw [dropBack, List.getLast?_reverse]
  exact drop_front_starts p cs.reverse

theorem drop_back_splits (p : Char → Bool) (cs : List Char) :
    ∃ back, cs = dropBack p cs ++ back ∧ ∀ c ∈ back, p c = true := by
  refine ⟨(cs.reverse.takeWhile p).reverse, ?_, ?_⟩
  · rw [dropBack, ← List.reverse_append, List.takeWhile_append_dropWhile, List.reverse_reverse]
  · exact fun c member => List.mem_takeWhile_imp (List.mem_reverse.mp member)

end Drop

/-! ### Trimming -/

theorem trim_splits (cs : List Char) :
    ∃ front back, cs = front ++ trim cs ++ back ∧ ∀ c ∈ front ++ back, isBlank c = true := by
  obtain ⟨back, split, blank⟩ := drop_back_splits isBlank (dropFront isBlank cs)
  refine ⟨cs.takeWhile isBlank, back, ?_, ?_⟩
  · rw [List.append_assoc, trim, ← split, dropFront, List.takeWhile_append_dropWhile]
  · intro c member
    rcases List.mem_append.mp member with front | behind
    · exact List.mem_takeWhile_imp front
    · exact blank c behind

theorem trim_ends (cs : List Char) :
    (∀ c ∈ (trim cs).head?, isBlank c = false) ∧ ∀ c ∈ (trim cs).getLast?, isBlank c = false := by
  refine ⟨?_, drop_back_ends isBlank _⟩
  intro c first
  obtain ⟨back, split, _⟩ := drop_back_splits isBlank (dropFront isBlank cs)
  apply drop_front_starts isBlank cs
  rw [split]
  rw [List.head?_append, show (dropBack isBlank (dropFront isBlank cs)).head? = some c from first]
  rfl

/-- A word that neither starts nor ends with a blank is what is left of it when it is padded. -/
theorem trim_of_ends {front word back : List Char} (blank : ∀ c ∈ front ++ back, isBlank c = true)
    (starts : ∀ c ∈ word.head?, isBlank c = false) (ends : ∀ c ∈ word.getLast?, isBlank c = false) :
    trim (front ++ word ++ back) = word := by
  have before : ∀ c ∈ front, isBlank c = true :=
    fun c member => blank c (List.mem_append_left back member)
  have after : ∀ c ∈ back, isBlank c = true :=
    fun c member => blank c (List.mem_append_right front member)
  cases word with
  | nil =>
      rw [List.append_nil, trim, dropFront, List.dropWhile_eq_nil_iff.mpr blank]
      rfl
  | cons c rest =>
      have head : dropFront isBlank (front ++ (c :: rest ++ back)) = c :: rest ++ back :=
        drop_front_of_append before starts
      rw [List.append_assoc, trim, head]
      exact drop_back_of_append after ends

theorem trim_of_padding {front word back : List Char}
    (blank : ∀ c ∈ front ++ back, isBlank c = true) (whole : ∀ c ∈ word, isBlank c = false) :
    trim (front ++ word ++ back) = word := by
  apply trim_of_ends blank
  · exact fun c first => whole c (List.mem_of_mem_head? first)
  · exact fun c last => whole c (List.mem_of_mem_getLast? last)

end ExpiringCache.Text
