import ExpiringCache.Proofs.Remote.PlainNames
/-!
Key patterns as a server reads them, and what the pattern of a namespace matches. A star stands for
any run of characters, a question mark for any one, brackets for one of a class, and a backslash has
the character after it stand for itself. The characters that a namespace may not contain are all of
these but the backslash: a name with a backslash in it has a pattern that covers other keys than
those of its namespace, and any other name has one that covers just them.
-/

namespace ExpiringCache

namespace Glob

/-- A part of a pattern: any run of characters, or one character that is admitted. -/
inductive Part where
  | anyRun
  | one (admits : Char → Bool)

def Part.only (c : Char) : Part := .one (· == c)

/-- The part that characters of a class fit, or only other ones. The ends of a range can stand in
either order. -/
def Part.ofClass (negated : Bool) (ranges : List (Char × Char)) : Part :=
  .one fun c => (ranges.any fun (a, b) => (a ≤ c && c ≤ b) || (b ≤ c && c ≤ a)) != negated

/-- The ranges of a class, and what comes after its closing bracket. A class that is not closed goes
on to the end. -/
def readClass : List Char → List (Char × Char) × List Char
  | [] => ([], [])
  | '\\' :: c :: rest => ((c, c) :: (readClass rest).1, (readClass rest).2)
  | ']' :: rest => ([], rest)
  | a :: '-' :: b :: rest => ((a, b) :: (readClass rest).1, (readClass rest).2)
  | c :: rest => ((c, c) :: (readClass rest).1, (readClass rest).2)

theorem read_class_shorter (text : List Char) : (readClass text).2.length ≤ text.length := by
  fun_induction readClass text with
  | case1 => exact Nat.le_refl 0
  | case2 _ _ ih => exact Nat.le_trans ih (Nat.le_add_right _ 2)
  | case3 rest => exact Nat.le_succ _
  | case4 _ _ _ _ _ ih => exact Nat.le_trans ih (Nat.le_add_right _ 3)
  | case5 _ _ _ _ _ ih => exact Nat.le_trans ih (Nat.le_succ _)

def parts : List Char → List Part
  | [] => []
  | '*' :: rest => .anyRun :: parts rest
  | '?' :: rest => .one (fun _ => true) :: parts rest
  | '[' :: '^' :: rest => .ofClass true (readClass rest).1 :: parts (readClass rest).2
  | '[' :: rest => .ofClass false (readClass rest).1 :: parts (readClass rest).2
  | '\\' :: c :: rest => .only c :: parts rest
  | c :: rest => .only c :: parts rest
termination_by pattern => pattern.length
decreasing_by
  all_goals simp only [List.length_cons]
  all_goals have shorter := read_class_shorter rest
  all_goals omega

def Fits : List Part → List Char → Prop
  | [], text => text = []
  | .anyRun :: parts, text => ∃ front back, text = front ++ back ∧ Fits parts back
  | .one admits :: parts, text => ∃ c rest, text = c :: rest ∧ admits c = true ∧ Fits parts rest

def Matches (pattern text : String) : Prop := Fits (parts pattern.toList) text.toList

def unescaped : List Char → List Char
  | [] => []
  | '\\' :: c :: rest => c :: unescaped rest
  | c :: rest => c :: unescaped rest

/-! ### Patterns without runs, single characters and classes -/

theorem parts_of_escape (c : Char) (rest : List Char) :
    parts ('\\' :: c :: rest) = .only c :: parts rest := by
  rw [parts]

theorem parts_of_plain {c : Char} (plain : isGlobChar c = false) (unescaped : c ≠ '\\')
    (rest : List Char) : parts (c :: rest) = .only c :: parts rest := by
  simp only [isGlobChar, Bool.or_eq_false_iff, beq_eq_false_iff_ne] at plain
  rw [parts]
  all_goals grind

theorem unescaped_of_other {c : Char} (other : c ≠ '\\') (rest : List Char) :
    unescaped (c :: rest) = c :: unescaped rest := by
  rw [unescaped]
  intro d more same
  exact absurd same other

theorem parts_of_star : parts ['*'] = [.anyRun] := by
  rw [parts, parts]

/-- The pattern of a plain last character after a name, and of everything that starts with both. A
backslash at the end of the name is one more escape, which a plain character does not need. -/
theorem parts_of_stem (last : Char) (plainLast : isGlobChar last = false) (whole : last ≠ '\\')
    (name : List Char) (plain : name.any isGlobChar = false) :
    parts (name ++ [last, '*']) = (unescaped (name ++ [last])).map .only ++ [.anyRun] := by
  fun_induction unescaped name with
  | case1 =>
      rw [List.nil_append, List.nil_append, parts_of_plain plainLast whole, parts_of_star,
        unescaped_of_other whole]
      rfl
  | case2 c rest ih =>
      simp only [List.any_cons, Bool.or_eq_false_iff] at plain
      simp only [List.cons_append, parts_of_escape, unescaped, List.map_cons, ih plain.2.2]
  | case3 c rest alone ih =>
      simp only [List.any_cons, Bool.or_eq_false_iff] at plain
      by_cases escape : c = '\\'
      · subst escape
        cases rest with
        | nil =>
            simp only [List.cons_append, List.nil_append, parts_of_escape, parts_of_star,
              unescaped, List.map_cons, List.map_nil]
        | cons d more => exact absurd rfl (alone d more rfl)
      · rw [List.cons_append, parts_of_plain plain.1 escape, ih plain.2, List.cons_append,
          unescaped_of_other escape]
        rfl

/-! ### What fits -/

theorem fits_of_text (text : List Char) (parts : List Part) (s : List Char) :
    Fits (text.map .only ++ parts) s ↔ ∃ rest, s = text ++ rest ∧ Fits parts rest := by
  induction text generalizing s with
  | nil => simp
  | cons c text ih =>
      simp only [List.map_cons, List.cons_append, Part.only, Fits, ih, beq_iff_eq]
      constructor
      · rintro ⟨d, _, rfl, rfl, rest, rfl, fits⟩
        exact ⟨rest, rfl, fits⟩
      · rintro ⟨rest, rfl, fits⟩
        exact ⟨c, _, rfl, rfl, rest, rfl, fits⟩

theorem fits_any_run (s : List Char) : Fits [.anyRun] s := ⟨s, [], (List.append_nil s).symm, rfl⟩

theorem fits_of_text_and_run (text s : List Char) :
    Fits (text.map .only ++ [.anyRun]) s ↔ text <+: s := by
  rw [fits_of_text]
  constructor
  · rintro ⟨rest, rfl, _⟩
    exact List.prefix_append _ _
  · rintro ⟨rest, rfl⟩
    exact ⟨rest, rfl, fits_any_run rest⟩

/-! ### Escapes -/

theorem unescaped_length_le (text : List Char) : (unescaped text).length ≤ text.length := by
  fun_induction unescaped text with
  | case1 => exact Nat.le_refl 0
  | case2 c rest ih => exact Nat.le_succ_of_le (Nat.succ_le_succ ih)
  | case3 c rest _ ih => exact Nat.succ_le_succ ih

/-- Of a text that has a backslash before its end, a backslash is lost. -/
theorem unescaped_shorter (last : Char) {name : List Char} (escaped : '\\' ∈ name) :
    (unescaped (name ++ [last])).length < (name ++ [last]).length := by
  induction name with
  | nil => cases escaped
  | cons c rest ih =>
      by_cases escape : c = '\\'
      · subst escape
        obtain ⟨d, more, split⟩ : ∃ d more, rest ++ [last] = d :: more :=
          List.exists_cons_of_ne_nil (List.append_ne_nil_of_right_ne_nil _ (List.cons_ne_nil _ _))
        rw [List.cons_append, split, unescaped, List.length_cons, List.length_cons,
          List.length_cons]
        exact Nat.succ_lt_succ (Nat.lt_succ_of_le (unescaped_length_le more))
      · rw [List.cons_append, unescaped_of_other escape]
        exact Nat.succ_lt_succ (ih ((List.mem_cons.mp escaped).resolve_left (Ne.symm escape)))

theorem unescaped_of_plain {text : List Char} (plain : '\\' ∉ text) : unescaped text = text := by
  induction text with
  | nil => rfl
  | cons c rest ih =>
      rw [List.mem_cons, not_or] at plain
      rw [unescaped_of_other (Ne.symm plain.1), ih plain.2]

end Glob

/-! ### Patterns of namespaces -/

namespace Namespace

/-- A name that is accepted has none of the characters that are refused. -/
theorem plain_of_parse {text : String} {ns : Namespace} (accepted : parse text = .ok ns) :
    ns.name.any isGlobChar = false :=
  (parse_eq_ok_iff.mp accepted).2.2

theorem matches_pattern_iff {ns : Namespace} (plain : ns.name.any isGlobChar = false) (s : String) :
    Glob.Matches ns.pattern s ↔ Glob.unescaped (ns.name ++ [':']) <+: s.toList := by
  rw [Glob.Matches, pattern, String.toList_ofList,
    Glob.parts_of_stem ':' rfl (by decide) ns.name plain, Glob.fits_of_text_and_run]

theorem is_key_iff (ns : Namespace) (s : String) :
    (∃ k, s = ns.key k) ↔ ns.name ++ [':'] <+: s.toList := by
  constructor
  · rintro ⟨k, rfl⟩
    rw [key, String.toList_ofList]
    exact ⟨k.toList, List.append_assoc _ _ _⟩
  · rintro ⟨rest, split⟩
    refine ⟨String.ofList rest, String.toList_inj.mp ?_⟩
    rw [key, String.toList_ofList, String.toList_ofList, ← split, List.append_assoc]
    rfl

/-- The pattern of an accepted namespace matches the keys of the namespace and no others, unless
there is a backslash in the name. -/
theorem pattern_covers_own_keys_iff {text : String} {ns : Namespace}
    (accepted : parse text = .ok ns) :
    (∀ s, Glob.Matches ns.pattern s ↔ ∃ k, s = ns.key k) ↔ '\\' ∉ ns.name := by
  simp only [matches_pattern_iff (plain_of_parse accepted), is_key_iff]
  constructor
  · intro covers escaped
    -- The name itself starts like its own keys, so the pattern would have to be as long.
    have own := (covers (String.ofList (ns.name ++ [':']))).mpr
    have pattern := (covers (String.ofList (Glob.unescaped (ns.name ++ [':'])))).mp
    rw [String.toList_ofList] at own pattern
    have shorter := Glob.unescaped_shorter ':' escaped
    exact absurd (pattern (List.prefix_refl _)).length_le (Nat.not_le.mpr shorter)
  · intro plain s
    rw [Glob.unescaped_of_plain]
    intro there
    rcases List.mem_append.mp there with named | colon
    · exact plain named
    · cases List.mem_singleton.mp colon

theorem shop_covers_own_keys :
    parse " shop: " = .ok ⟨['s', 'h', 'o', 'p']⟩ ∧
      ∀ s, Glob.Matches "shop:*" s ↔ ∃ k, s = key ⟨['s', 'h', 'o', 'p']⟩ k := by
  have accepted : parse " shop: " = .ok ⟨['s', 'h', 'o', 'p']⟩ := by rfl
  exact ⟨accepted, (pattern_covers_own_keys_iff accepted).mpr (by decide)⟩

/-- With a backslash in the name, a key of another namespace is matched and an own key is not. -/
theorem backslash_covers_foreign_keys :
    parse "a\\b" = .ok ⟨['a', '\\', 'b']⟩ ∧
      Glob.Matches (pattern ⟨['a', '\\', 'b']⟩) (key ⟨['a', 'b']⟩ "x") ∧
      ¬Glob.Matches (pattern ⟨['a', '\\', 'b']⟩) (key ⟨['a', '\\', 'b']⟩ "x") := by
  have accepted : parse "a\\b" = .ok ⟨['a', '\\', 'b']⟩ := by rfl
  refine ⟨accepted, ?_, ?_⟩
  · rw [matches_pattern_iff (plain_of_parse accepted)]
    decide
  · rw [matches_pattern_iff (plain_of_parse accepted)]
    decide

end Namespace

end ExpiringCache
