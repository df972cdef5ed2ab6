import ExpiringCache.Remote.Namespace
import ExpiringCache.Proofs.Text.Blank
/-!
Which spellings of a namespace are put into plain form. The blanks around a text are taken away
first and the colons at its end afterwards, each once: what a colon has covered stays as it is.
-/

namespace ExpiringCache

namespace Text

def isEnding (c : Char) : Bool := isBlank c || c == ':'

/-- A text without the blanks before it and without the blanks and colons behind it, however these
are mixed. -/
def bare (cs : List Char) : List Char := dropBack isEnding (dropFront isBlank cs)

/-- A blank stands right before the colons at the end, which may have blanks behind them. -/
def BlankBeforeColons (cs : List Char) : Prop :=
  ∃ front blank colons back, cs = front ++ blank :: (colons ++ back) ∧ isBlank blank = true ∧
    colons ≠ [] ∧ (∀ c ∈ colons, c = ':') ∧ ∀ c ∈ back, isBlank c = true

/-- A word with blanks before it, and with blanks and colons behind it. -/
def Spells (word cs : List Char) : Prop :=
  ∃ front back, cs = front ++ word ++ back ∧ (∀ c ∈ front, isBlank c = true) ∧
    ∀ c ∈ back, isEnding c = true

theorem ending_eq_false_iff (c : Char) : isEnding c = false ↔ isBlank c = false ∧ c ≠ ':' := by
  rw [isEnding, Bool.or_eq_false_iff, beq_eq_false_iff_ne]

theorem colon_is_no_blank : isBlank ':' = false := by decide

theorem bare_of_spells {word cs : List Char} (spelled : Spells word cs) : bare cs = bare word := by
  obtain ⟨front, back, rfl, blank, ending⟩ := spelled
  rw [bare, bare, dropFront, List.append_assoc, List.dropWhile_append_of_pos blank,
    List.dropWhile_append]
  split
  · next vanished =>
    -- Nothing but blanks in the word, and so nothing of it behind the blanks either.
    have nothing : dropBack isEnding ([] ++ back.dropWhile isBlank) = [] := by
      apply drop_back_of_append
      · exact fun c member => ending c ((List.dropWhile_sublist isBlank).subset member)
      · intro c none
        cases none
    rw [dropFront, List.isEmpty_iff.mp vanished]
    exact nothing
  · rw [dropBack, List.reverse_append, List.dropWhile_append_of_pos]
    · rfl
    · exact fun c member => ending c (List.mem_reverse.mp member)

/-- Where no blank is covered by colons, taking away the blanks and then the colons takes away
all of both. -/
theorem bare_of_uncovered {cs : List Char} (uncovered : ¬BlankBeforeColons cs) :
    dropBack (· == ':') (trim cs) = bare cs := by
  obtain ⟨blanks, trimmed, blank⟩ := drop_back_splits isBlank (dropFront isBlank cs)
  obtain ⟨colons, cut, colon⟩ := drop_back_splits (· == ':') (trim cs)
  change dropFront isBlank cs = trim cs ++ blanks at trimmed
  have closes : ∀ c ∈ (dropBack (· == ':') (trim cs)).getLast?, isEnding c = false := by
    intro c last
    by_contra ending
    have solid : c ≠ ':' := beq_eq_false_iff_ne.mp (drop_back_ends (· == ':') (trim cs) c last)
    have covered : isBlank c = true := by
      by_contra other
      exact ending ((ending_eq_false_iff c).mpr ⟨Bool.eq_false_iff.mpr other, solid⟩)
    obtain ⟨rest, ends⟩ := List.getLast?_eq_some_iff.mp last
    apply uncovered
    refine ⟨cs.takeWhile isBlank ++ rest, c, colons, blanks, ?_, covered, ?_, ?_, blank⟩
    · have whole := List.takeWhile_append_dropWhile (p := isBlank) (l := cs)
      rw [dropFront, cut, ends] at trimmed
      rw [trimmed] at whole
      simpa using whole.symm
    · intro none
      rw [none, List.append_nil] at cut
      rw [← cut] at last
      have clear := (trim_ends cs).2 c last
      rw [covered] at clear
      cases clear
    · exact fun c member => beq_iff_eq.mp (colon c member)
  have ending : ∀ c ∈ colons ++ blanks, isEnding c = true := by
    intro c member
    rcases List.mem_append.mp member with colons | blanks
    · rw [isEnding, colon c colons, Bool.or_true]
    · rw [isEnding, blank c blanks, Bool.true_or]
  have word : dropBack isEnding (dropBack (· == ':') (trim cs) ++ (colons ++ blanks)) =
      dropBack (· == ':') (trim cs) := drop_back_of_append ending closes
  rw [← List.append_assoc, ← cut, ← trimmed] at word
  exact word.symm

/-- The blanks before the colons are out of reach when a text is trimmed, unless nothing stands
before them. -/
theorem trim_of_covered {cs : List Char} (covered : BlankBeforeColons cs) :
    ∃ before colons, trim cs = before ++ colons ∧ (∀ c ∈ colons, c = ':') ∧
      ∀ c ∈ before.getLast?, isBlank c = true := by
  obtain ⟨front, b, colons, back, rfl, blank, filled, colon, behind⟩ := covered
  obtain ⟨first, rest, same⟩ := List.exists_cons_of_ne_nil filled
  have reached : ∀ before, dropBack isBlank (before ++ colons ++ back) = before ++ colons := by
    intro before
    apply drop_back_of_append behind
    intro c last
    rw [List.getLast?_append, List.getLast?_eq_some_getLast filled] at last
    cases last
    rw [colon _ (List.getLast_mem filled)]
    exact colon_is_no_blank
  rw [trim, dropFront, List.dropWhile_append]
  split
  · have solid : ¬isBlank first = true := by
      rw [colon first (same ▸ List.mem_cons_self), colon_is_no_blank]
      exact Bool.false_ne_true
    have start : (b :: (colons ++ back)).dropWhile isBlank = [] ++ colons ++ back := by
      rw [List.dropWhile_cons_of_pos blank, same]
      exact List.dropWhile_cons_of_neg solid
    refine ⟨[], colons, ?_, colon, ?_⟩
    · rw [start, reached]
    · intro c none
      cases none
  · have parted : front.dropWhile isBlank ++ b :: (colons ++ back) =
        front.dropWhile isBlank ++ [b] ++ colons ++ back := by simp
    refine ⟨front.dropWhile isBlank ++ [b], colons, ?_, colon, ?_⟩
    · rw [parted, reached]
    · intro c last
      rw [List.getLast?_concat] at last
      cases last
      exact blank

end Text

namespace Namespace

open Text

/-- The name is what a text has for a plain form: it stands for itself, and for all other spellings
of the same word. -/
structure IsPlainForm (ns : Namespace) (text : String) : Prop where
  starts : ∀ c ∈ ns.name.head?, isBlank c = false
  ends : ∀ c ∈ ns.name.getLast?, isBlank c = false ∧ c ≠ ':'
  solid : ∃ c ∈ ns.name, isBlank c = false ∧ c ≠ ':'
  fixed : parse ns.text = .ok ns
  shared : ∀ word other, Spells word text.toList → Spells word other.toList →
    ¬BlankBeforeColons other.toList → parse other = .ok ns

theorem parse_eq_ok_iff {text : String} {ns : Namespace} :
    parse text = .ok ns ↔ ns.name = dropBack (· == ':') (trim text.toList) ∧ ns.name ≠ [] ∧
      ns.name.any isGlobChar = false := by
  simp only [parse]
  constructor
  · intro accepted
    split at accepted
    · cases accepted
    · split at accepted
      · cases accepted
      · next filled plain =>
        cases accepted
        exact ⟨rfl, fun none => filled (List.isEmpty_iff.mpr none), Bool.eq_false_iff.mpr plain⟩
  · rintro ⟨named, filled, plain⟩
    rw [← named, if_neg (fun none => filled (List.isEmpty_iff.mp none)), if_neg]
    rw [plain]
    exact Bool.false_ne_true

theorem starts_of_parse {text : String} {ns : Namespace} (accepted : parse text = .ok ns) :
    ∀ c ∈ ns.name.head?, isBlank c = false := by
  intro c first
  obtain ⟨named, _⟩ := parse_eq_ok_iff.mp accepted
  obtain ⟨colons, cut, _⟩ := drop_back_splits (· == ':') (trim text.toList)
  apply (trim_ends text.toList).1
  rw [cut, ← named, List.head?_append, show ns.name.head? = some c from first]
  rfl

theorem plain_form_of_uncovered {text : String} {ns : Namespace} (accepted : parse text = .ok ns)
    (uncovered : ¬BlankBeforeColons text.toList) : ns.IsPlainForm text := by
  obtain ⟨named, filled, plain⟩ := parse_eq_ok_iff.mp accepted
  have word : ns.name = bare text.toList := named.trans (bare_of_uncovered uncovered)
  have ends : ∀ c ∈ ns.name.getLast?, isBlank c = false ∧ c ≠ ':' := by
    intro c last
    rw [word] at last
    exact (ending_eq_false_iff c).mp (drop_back_ends isEnding _ c last)
  have starts := starts_of_parse accepted
  refine ⟨starts, ends, ?_, ?_, ?_⟩
  · exact ⟨ns.name.getLast filled, List.getLast_mem filled,
      ends _ (List.getLast?_eq_some_getLast filled)⟩
  · refine parse_eq_ok_iff.mpr ⟨?_, filled, plain⟩
    have trimmed : trim ([] ++ ns.name ++ []) = ns.name :=
      trim_of_ends nofun starts (fun c last => (ends c last).1)
    have cut : dropBack (· == ':') (ns.name ++ []) = ns.name :=
      drop_back_of_append nofun (fun c last => beq_eq_false_iff_ne.mpr (ends c last).2)
    rw [List.nil_append, List.append_nil] at trimmed
    rw [List.append_nil] at cut
    rw [Namespace.text, String.toList_ofList, trimmed, cut]
  · intro spelled other spells also clear
    refine parse_eq_ok_iff.mpr ⟨?_, filled, plain⟩
    rw [bare_of_uncovered clear, bare_of_spells also, ← bare_of_spells spells, word]

/-- A blank that colons have covered is there at the end of the name. -/
theorem ends_blank_of_covered {text : String} {ns : Namespace} (accepted : parse text = .ok ns)
    (covered : BlankBeforeColons text.toList) : ∃ c ∈ ns.name.getLast?, isBlank c = true := by
  obtain ⟨named, filled, _⟩ := parse_eq_ok_iff.mp accepted
  obtain ⟨before, colons, trimmed, colon, blanks⟩ := trim_of_covered covered
  have cut : dropBack (· == ':') (before ++ colons) = before := by
    apply drop_back_of_append
    · exact fun c member => beq_iff_eq.mpr (colon c member)
    · intro c last
      apply beq_eq_false_iff_ne.mpr
      rintro rfl
      exact Bool.false_ne_true (colon_is_no_blank.symm.trans (blanks _ last))
  rw [trimmed, cut] at named
  have last := List.getLast?_eq_some_getLast filled
  exact ⟨_, last, blanks _ (named ▸ last)⟩

/-- A name that is accepted never starts with a blank or ends with a colon. It is the plain form of
the text if and only if the text has no blank right before the colons at its end. -/
theorem plain_iff_uncovered {text : String} {ns : Namespace} (accepted : parse text = .ok ns) :
    (∀ c ∈ ns.name.head?, isBlank c = false) ∧ (∀ c ∈ ns.name.getLast?, c ≠ ':') ∧
      (ns.IsPlainForm text ↔ ¬BlankBeforeColons text.toList) := by
  refine ⟨starts_of_parse accepted, ?_, ?_, plain_form_of_uncovered accepted⟩
  · intro c last
    rw [(parse_eq_ok_iff.mp accepted).1] at last
    exact beq_eq_false_iff_ne.mp (drop_back_ends (· == ':') _ c last)
  · intro form covered
    obtain ⟨c, last, blank⟩ := ends_blank_of_covered accepted covered
    rw [(form.ends c last).1] at blank
    cases blank

theorem shop_is_plain_form :
    parse " shop:: " = .ok ⟨['s', 'h', 'o', 'p']⟩ ∧
      IsPlainForm ⟨['s', 'h', 'o', 'p']⟩ " shop:: " := by
  have accepted : parse " shop:: " = .ok ⟨['s', 'h', 'o', 'p']⟩ := by rfl
  refine ⟨accepted, (plain_iff_uncovered accepted).2.2.mpr fun covered => ?_⟩
  obtain ⟨c, last, blank⟩ := ends_blank_of_covered accepted covered
  cases last
  exact absurd blank (by decide)

/-- With a blank before its colon, a name keeps the blank and does not stand for itself, and one
of blanks and colons alone is accepted. -/
theorem covered_blank_is_kept :
    (parse "shop :" = .ok ⟨['s', 'h', 'o', 'p', ' ']⟩ ∧
      ¬IsPlainForm ⟨['s', 'h', 'o', 'p', ' ']⟩ "shop :" ∧
      parse (text ⟨['s', 'h', 'o', 'p', ' ']⟩) = .ok ⟨['s', 'h', 'o', 'p']⟩) ∧
    parse ": :" = .ok ⟨[':', ' ']⟩ ∧
      parse (text ⟨[':', ' ']⟩) = .error (.invalidConfig "redis namespace must not be empty") := by
  refine ⟨⟨by rfl, fun form => ?_, by rfl⟩, by rfl, by rfl⟩
  exact absurd (form.ends ' ' rfl).1 (by decide)

end Namespace

end ExpiringCache
