import Mathlib.Data.List.Basic
import ExpiringCache.Proofs.Number.Numeral
import ExpiringCache.Proofs.Text.Blank
import ExpiringCache.Remote.Address
/-!
Addresses as texts. A host in brackets ends at the first closing bracket and any other at the last
colon, and what is left has to be a port. A host that has none of the characters that end it is
therefore read back from its address, and whatever stands for no port is refused rather than passed
over. A host without brackets that has colons of its own is cut at the last of them.
-/

namespace ExpiringCache.Address

open Number Text

/-- Decimal digits worth at most 65535, with a plus before them or not. -/
def IsPort (text : List Char) (port : Nat) : Prop :=
  ∃ digits, (text = digits ∨ text = '+' :: digits) ∧ IsDigits digits ∧ worth digits = port ∧
    port ≤ 65535

def behind : Option (List Char) → List Char
  | none => []
  | some port => ':' :: port

def Means : Option (List Char) → Nat → Prop
  | none, port => port = 6379
  | some text, port => IsPort text port

/-- A text falls into a host and the text of a port, if there is one. -/
inductive Parts (host : List Char) (port : Option (List Char)) : List Char → Prop where
  | bare : (host ++ behind port).head? ≠ some '[' → (∀ text ∈ port, ':' ∉ text) →
    (port = none → ':' ∉ host) → Parts host port (host ++ behind port)
  | bracketed : ']' ∉ host → Parts host port ('[' :: host ++ ']' :: behind port)

inductive Malformed : List Char → Prop where
  | port {host text cs : List Char} : Parts host (some text) cs → (∀ n, ¬IsPort text n) →
    Malformed cs
  | noHost {port : Option (List Char)} {cs : List Char} : Parts [] port cs → Malformed cs
  | unclosed {rest : List Char} : ']' ∉ rest → Malformed ('[' :: rest)
  | afterBracket {host rest : List Char} : ']' ∉ host → rest ≠ [] → rest.head? ≠ some ':' →
    Malformed ('[' :: host ++ ']' :: rest)

/-! ### Ports -/

theorem denotes_port_iff (text : List Char) (n : Nat) :
    Denotes (.unsigned 16) text n ↔ IsPort text n := by
  have bounds : (Range.unsigned 16).contains n = true ↔ n ≤ 65535 := by
    have low : (Range.unsigned 16).low = 0 := rfl
    have high : (Range.unsigned 16).high = 65535 := rfl
    rw [contains_iff, low, high]
    omega
  constructor
  · rintro ⟨numeral, within, minus⟩
    have fits := bounds.mp within
    generalize value : (n : Int) = m at numeral
    cases numeral with
    | unsigned digits => exact ⟨_, .inl rfl, digits, (Int.ofNat.inj value).symm, fits⟩
    | plus digits => exact ⟨_, .inr rfl, digits, (Int.ofNat.inj value).symm, fits⟩
    | minus => exact absurd (minus rfl) (Int.lt_irrefl 0)
  · rintro ⟨digits, rfl | rfl, isDigits, rfl, fits⟩
    · refine ⟨.unsigned isDigits, bounds.mpr fits, fun first => ?_⟩
      obtain ⟨rest, rfl⟩ := List.head?_eq_some_iff.mp first
      exact absurd rfl isDigits.of_cons.2
    · exact ⟨.plus isDigits, bounds.mpr fits, nofun⟩

theorem read_port_eq_ok_iff (text : List Char) (n : Nat) :
    readWhole (.unsigned 16) text = .ok n ↔ IsPort text n := by
  have zero : (Range.unsigned 16).contains 0 = true := by decide
  rw [read_whole_eq_ok_iff zero, denotes_port_iff]

/-- A text is read as the port that it stands for, or it stands for none and is refused. -/
theorem read_port_cases (text : List Char) :
    (∃ n : Nat, IsPort text n ∧ readWhole (.unsigned 16) text = .ok n) ∨
      (∀ n, ¬IsPort text n) ∧ ∃ fault, readWhole (.unsigned 16) text = .error fault := by
  cases read : readWhole (.unsigned 16) text with
  | error fault =>
      refine .inr ⟨fun n port => ?_, fault, rfl⟩
      rw [(read_port_eq_ok_iff text n).mpr port] at read
      cases read
  | ok n =>
      have zero : (Range.unsigned 16).contains 0 = true := by decide
      have within := ((read_whole_eq_ok_iff zero text n).mp read).within
      obtain ⟨m, rfl⟩ := Int.eq_ofNat_of_zero_le ((contains_iff _ _).mp within).1
      exact .inl ⟨m, (read_port_eq_ok_iff text m).mp read, rfl⟩

theorem port_has_no_blank {text : List Char} {n : Nat} (port : IsPort text n) :
    ∀ c ∈ text, isBlank c = false :=
  read_whole_has_no_blank ((read_port_eq_ok_iff text n).mpr port)

theorem port_has_no_colon {text : List Char} {n : Nat} (port : IsPort text n) : ':' ∉ text := by
  obtain ⟨digits, written, isDigits, _⟩ := port
  have plain : ':' ∉ digits := fun member => absurd (isDigits.2 ':' member) (by decide)
  rcases written with rfl | rfl
  · exact plain
  · exact List.not_mem_cons_of_ne_of_not_mem (by decide) plain

theorem port_of_decimal {port : Nat} (fits : port ≤ 65535) (zeros : Nat) {sign : List Char}
    (plus : sign = [] ∨ sign = ['+']) :
    IsPort (sign ++ List.replicate zeros '0' ++ (toString port).toList) port := by
  obtain ⟨digits, value⟩ := (decimal_is_digits port).padded zeros
  rw [worth_of_decimal] at value
  rcases plus with rfl | rfl
  · exact ⟨_, .inl rfl, digits, value, fits⟩
  · exact ⟨_, .inr rfl, digits, value, fits⟩

/-! ### Parts -/

theorem split_first_eq_none_iff (c : Char) (cs : List Char) :
    splitFirst c cs = none ↔ c ∉ cs := by
  have nothing : splitFirst c cs = none ↔ cs.dropWhile (· != c) = [] := by
    unfold splitFirst
    split <;> simp_all
  rw [nothing, List.dropWhile_eq_nil_iff]
  constructor
  · intro all member
    exact bne_iff_ne.mp (all c member) rfl
  · rintro absent d member
    apply bne_iff_ne.mpr
    rintro rfl
    exact absent member

theorem split_first_eq_some_iff (c : Char) (cs front back : List Char) :
    splitFirst c cs = some (front, back) ↔ cs = front ++ c :: back ∧ c ∉ front := by
  constructor
  · intro found
    unfold splitFirst at found
    split at found
    · cases found
    · next d after rest =>
      cases found
      have ends : (d != c) = false := by
        apply drop_front_starts (· != c) cs
        rw [dropFront, rest]
        rfl
      obtain rfl : d = c := by simpa using ends
      refine ⟨?_, fun member => ?_⟩
      · rw [← rest, List.takeWhile_append_dropWhile]
      · exact bne_iff_ne.mp (@List.mem_takeWhile_imp Char (· != d) cs d member) rfl
  · rintro ⟨rfl, absent⟩
    have before : ∀ d ∈ front, (d != c) = true := by
      rintro d member
      apply bne_iff_ne.mpr
      rintro rfl
      exact absent member
    have rest : (front ++ c :: back).dropWhile (· != c) = c :: back := by
      rw [List.dropWhile_append_of_pos before]
      exact List.dropWhile_cons_of_neg (by simp)
    have start : (front ++ c :: back).takeWhile (· != c) = front := by
      rw [List.takeWhile_append_of_pos before, List.takeWhile_cons_of_neg (by simp),
        List.append_nil]
    simp only [splitFirst, rest, start]

theorem split_last_eq_none_iff (c : Char) (cs : List Char) : splitLast c cs = none ↔ c ∉ cs := by
  rw [splitLast, Option.map_eq_none_iff, split_first_eq_none_iff, List.mem_reverse]

theorem split_last_eq_some_iff (c : Char) (cs front back : List Char) :
    splitLast c cs = some (front, back) ↔ cs = front ++ c :: back ∧ c ∉ back := by
  rw [splitLast, Option.map_eq_some_iff]
  constructor
  · rintro ⟨⟨after, before⟩, found, same⟩
    cases same
    obtain ⟨mirrored, absent⟩ := (split_first_eq_some_iff c _ _ _).mp found
    have split := congrArg List.reverse mirrored
    rw [List.reverse_reverse, List.reverse_append, List.reverse_cons, List.append_assoc] at split
    exact ⟨split, fun member => absent (List.mem_reverse.mp member)⟩
  · rintro ⟨rfl, absent⟩
    refine ⟨(back.reverse, front.reverse), ?_, ?_⟩
    · refine (split_first_eq_some_iff c _ _ _).mpr ⟨?_, mt List.mem_reverse.mp absent⟩
      rw [List.reverse_append, List.reverse_cons, List.append_assoc]
      rfl
    · rw [List.reverse_reverse, List.reverse_reverse]

theorem split_of_bare {cs : List Char} (bare : cs.head? ≠ some '[') :
    split cs = match splitLast ':' cs with
      | some (host, port) => some (host, some port)
      | none => some (cs, none) := by
  unfold split
  split
  · exact absurd rfl bare
  · rfl

theorem split_of_parts {host cs : List Char} {port : Option (List Char)}
    (parts : Parts host port cs) : split cs = some (host, port) := by
  cases parts with
  | bare bare noColon whole =>
      rw [split_of_bare bare]
      cases port with
      | none =>
          rw [behind, List.append_nil, (split_last_eq_none_iff ':' host).mpr (whole rfl)]
      | some text =>
          have found := (split_last_eq_some_iff ':' _ host text).mpr ⟨rfl, noColon text rfl⟩
          rw [behind, found]
  | bracketed closed =>
      have found := (split_first_eq_some_iff ']' _ host (behind port)).mpr ⟨rfl, closed⟩
      cases port with
      | none =>
          rw [behind] at found ⊢
          simp only [List.cons_append, split, found]
      | some text =>
          rw [behind] at found ⊢
          simp only [List.cons_append, split, found]

theorem split_of_unclosed {rest : List Char} (unclosed : ']' ∉ rest) :
    split ('[' :: rest) = none := by
  simp only [split, (split_first_eq_none_iff ']' rest).mpr unclosed]

theorem split_after_bracket {host rest : List Char} (closed : ']' ∉ host) (filled : rest ≠ [])
    (other : rest.head? ≠ some ':') : split ('[' :: host ++ ']' :: rest) = none := by
  have found := (split_first_eq_some_iff ']' _ host rest).mpr ⟨rfl, closed⟩
  simp only [List.cons_append, split, found]
  split
  · next none => cases none
  · next nothing =>
    cases nothing
    exact absurd rfl filled
  · next colon =>
    cases colon
    exact absurd rfl other
  · rfl

theorem parts_or_malformed (cs : List Char) : (∃ host port, Parts host port cs) ∨ Malformed cs := by
  by_cases bare : cs.head? = some '['
  · obtain ⟨rest, rfl⟩ := List.head?_eq_some_iff.mp bare
    cases found : splitFirst ']' rest with
    | none => exact .inr (.unclosed ((split_first_eq_none_iff ']' rest).mp found))
    | some parts =>
        obtain ⟨rfl, closed⟩ := (split_first_eq_some_iff ']' rest parts.1 parts.2).mp found
        by_cases nothing : parts.2 = []
        · rw [nothing]
          exact .inl ⟨_, none, .bracketed closed⟩
        · by_cases colon : parts.2.head? = some ':'
          · obtain ⟨text, same⟩ := List.head?_eq_some_iff.mp colon
            rw [same]
            exact .inl ⟨_, some text, .bracketed closed⟩
          · exact .inr (.afterBracket closed nothing colon)
  · left
    cases found : splitLast ':' cs with
    | none =>
        have whole := (split_last_eq_none_iff ':' cs).mp found
        have parts : Parts cs none (cs ++ behind none) := by
          refine .bare ?_ nofun fun _ => whole
          rwa [behind, List.append_nil]
        rw [behind, List.append_nil] at parts
        exact ⟨cs, none, parts⟩
    | some parts =>
        obtain ⟨rfl, absent⟩ := (split_last_eq_some_iff ':' cs parts.1 parts.2).mp found
        refine ⟨parts.1, some parts.2, .bare bare ?_ nofun⟩
        rintro text same
        cases same
        exact absent

/-! ### Reading -/

theorem read_of_parts {host cs : List Char} {port : Option (List Char)} {n : Nat}
    (parts : Parts host port cs) (filled : host ≠ []) (means : Means port n) :
    read? cs = some ⟨host, n⟩ := by
  have some : host.isEmpty = false := List.isEmpty_eq_false_iff.mpr filled
  simp only [read?, split_of_parts parts, some, Bool.false_eq_true, if_false]
  cases port with
  | none => rw [show n = defaultPort from means]
  | some text => simp only [(read_port_eq_ok_iff text n).mpr means, Int.toNat_natCast]

theorem read_of_malformed {cs : List Char} (malformed : Malformed cs) : read? cs = none := by
  cases malformed with
  | port parts noPort =>
      rename_i host text
      simp only [read?, split_of_parts parts]
      split
      · rfl
      · rcases read_port_cases text with ⟨n, port, _⟩ | ⟨_, fault, refused⟩
        · exact absurd port (noPort n)
        · rw [refused]
  | noHost parts => simp only [read?, split_of_parts parts, List.isEmpty_nil, if_true]
  | unclosed unclosed => rw [read?, split_of_unclosed unclosed]
  | afterBracket closed filled other => rw [read?, split_after_bracket closed filled other]

theorem address_or_malformed (cs : List Char) :
    (∃ host port n, Parts host port cs ∧ host ≠ [] ∧ Means port n) ∨ Malformed cs := by
  rcases parts_or_malformed cs with ⟨host, port, parts⟩ | malformed
  · by_cases nothing : host = []
    · subst nothing
      exact .inr (.noHost parts)
    · cases port with
      | none => exact .inl ⟨host, none, 6379, parts, nothing, rfl⟩
      | some text =>
          rcases read_port_cases text with ⟨n, isPort, _⟩ | ⟨noPort, _⟩
          · exact .inl ⟨host, some text, n, parts, nothing, isPort⟩
          · exact .inr (.port parts noPort)
  · exact .inr malformed

theorem parse_of_parts {text : String} {host : List Char} {port : Option (List Char)} {n : Nat}
    (parts : Parts host port (trim text.toList)) (filled : host ≠ []) (means : Means port n) :
    parse text = .ok ⟨host, n⟩ := by
  simp only [parse, read_of_parts parts filled means]

theorem malformed_iff_refused (text : String) :
    Malformed (trim text.toList) ↔ parse text = .error (.invalidConfig
      ("invalid redis address '" ++ String.ofList (trim text.toList) ++ "'")) := by
  constructor
  · intro malformed
    simp only [parse, read_of_malformed malformed]
  · intro refused
    rcases address_or_malformed (trim text.toList) with ⟨host, port, n, parts, filled, means⟩ | bad
    · rw [parse_of_parts parts filled means] at refused
      cases refused
    · exact bad

theorem parts_of_parse {text : String} {address : Address} (accepted : parse text = .ok address) :
    ∃ port, Parts address.host port (trim text.toList) ∧ Means port address.port := by
  rcases address_or_malformed (trim text.toList) with ⟨host, port, n, parts, filled, means⟩ | bad
  · rw [parse_of_parts parts filled means] at accepted
    cases accepted
    exact ⟨port, parts, means⟩
  · rw [(malformed_iff_refused text).mp bad] at accepted
    cases accepted

/-! ### Hosts that are read back -/

/-- There is something to a host, and no blank stands at either end of it. -/
structure IsHost (host : List Char) : Prop where
  filled : host ≠ []
  starts : ∀ c ∈ host.head?, isBlank c = false
  ends : ∀ c ∈ host.getLast?, isBlank c = false

/-- An address written for a host that has none of the characters that would end it. -/
inductive Written (host : List Char) (port : Option (List Char)) : List Char → Prop where
  | bare : ':' ∉ host → host.head? ≠ some '[' → Written host port (host ++ behind port)
  | bracketed : ']' ∉ host → Written host port ('[' :: host ++ ']' :: behind port)

variable {host cs : List Char} {port : Option (List Char)} {n : Nat}

theorem parts_of_written (isHost : IsHost host) (written : Written host port cs)
    (means : Means port n) : Parts host port cs := by
  cases written with
  | bare whole start =>
      refine .bare ?_ ?_ fun _ => whole
      · obtain ⟨c, rest, rfl⟩ := List.exists_cons_of_ne_nil isHost.filled
        exact start
      · rintro text rfl
        exact port_has_no_colon means
  | bracketed closed => exact .bracketed closed

theorem behind_ends {front : List Char} (ends : ∀ c ∈ front.getLast?, isBlank c = false)
    (means : Means port n) : ∀ c ∈ (front ++ behind port).getLast?, isBlank c = false := by
  intro c last
  cases port with
  | none =>
      rw [behind, List.append_nil] at last
      exact ends c last
  | some text =>
      rw [behind, List.getLast?_append_of_ne_nil _ (List.cons_ne_nil _ _)] at last
      rcases List.mem_cons.mp (List.mem_of_mem_getLast? last) with rfl | inText
      · decide
      · exact port_has_no_blank means c inText

theorem trim_of_written (isHost : IsHost host) (written : Written host port cs)
    (means : Means port n) {front back : List Char}
    (blank : ∀ c ∈ front ++ back, isBlank c = true) : trim (front ++ cs ++ back) = cs := by
  cases written with
  | bare =>
      apply trim_of_ends blank
      · obtain ⟨c, rest, rfl⟩ := List.exists_cons_of_ne_nil isHost.filled
        exact isHost.starts
      · exact behind_ends isHost.ends means
  | bracketed =>
      apply trim_of_ends blank
      · rintro c first
        cases first
        decide
      · have closed : ∀ c ∈ ('[' :: host ++ [']']).getLast?, isBlank c = false := by
          intro c last
          rw [List.getLast?_concat] at last
          cases last
          decide
        have ends := behind_ends closed means
        rwa [List.append_assoc] at ends

theorem parse_of_written (isHost : IsHost host) (written : Written host port cs)
    (means : Means port n) {front back : List Char}
    (blank : ∀ c ∈ front ++ back, isBlank c = true) :
    parse (String.ofList (front ++ cs ++ back)) = .ok ⟨host, n⟩ := by
  refine parse_of_parts ?_ isHost.filled means
  rw [String.toList_ofList, trim_of_written isHost written means blank]
  exact parts_of_written isHost written means

/-- What a reading of addresses is to do with the texts that are written for hosts, and with all
others. -/
structure ReadsBack (parse : String → Except CacheError Address) : Prop where
  usual : ∀ {host cs front back : List Char}, IsHost host → Written host none cs →
    (∀ c ∈ front ++ back, isBlank c = true) →
    parse (String.ofList (front ++ cs ++ back)) = .ok ⟨host, 6379⟩
  given : ∀ {host cs front back sign : List Char} {port zeros : Nat}, IsHost host →
    port ≤ 65535 → sign = [] ∨ sign = ['+'] →
    Written host (some (sign ++ List.replicate zeros '0' ++ (toString port).toList)) cs →
    (∀ c ∈ front ++ back, isBlank c = true) →
    parse (String.ofList (front ++ cs ++ back)) = .ok ⟨host, port⟩
  refused : ∀ text, Malformed (trim text.toList) ↔ parse text = .error (.invalidConfig
    ("invalid redis address '" ++ String.ofList (trim text.toList) ++ "'"))

/-- Addresses are read back as they were written, and what is no address is refused. -/
theorem addresses_parse_back : ReadsBack parse where
  usual isHost written blank := parse_of_written isHost written rfl blank
  given isHost fits plus written blank :=
    parse_of_written isHost written (port_of_decimal fits _ plus) blank
  refused := malformed_iff_refused

/-- A port with a plus and zeros before it behind a host in brackets, and no port behind another. -/
theorem loopback_in_brackets_is_read :
    parse " [::1]:+0080 " = .ok ⟨[':', ':', '1'], 80⟩ ∧
      parse "cache\n" = .ok ⟨['c', 'a', 'c', 'h', 'e'], 6379⟩ := by
  have loopback : IsHost [':', ':', '1'] :=
    ⟨by decide, fun _ first => by cases first; rfl, fun _ last => by cases last; rfl⟩
  have bracketed : Written [':', ':', '1']
      (some (['+'] ++ List.replicate 2 '0' ++ (toString 80).toList))
      ['[', ':', ':', '1', ']', ':', '+', '0', '0', '8', '0'] := .bracketed (by decide)
  have cache : IsHost ['c', 'a', 'c', 'h', 'e'] :=
    ⟨by decide, fun _ first => by cases first; rfl, fun _ last => by cases last; rfl⟩
  have bare : Written ['c', 'a', 'c', 'h', 'e'] none ['c', 'a', 'c', 'h', 'e'] :=
    .bare (by decide) (by decide)
  have blanks : ∀ c ∈ [' '] ++ [' '], isBlank c = true := List.all_eq_true.mp rfl
  have line : ∀ c ∈ [] ++ ['\n'], isBlank c = true := List.all_eq_true.mp rfl
  have given := addresses_parse_back.given loopback (by decide) (.inr rfl) bracketed blanks
  have usual := addresses_parse_back.usual cache bare line
  exact ⟨given, usual⟩

/-! ### Hosts with colons -/

/-- An address without brackets keeps its host whole if and only if it has no second colon. With
one, the host ends at the last colon, and what stands behind that is taken for the port. -/
theorem bare_host_is_whole_iff {text : String} {address : Address}
    (accepted : parse text = .ok address) (bare : (trim text.toList).head? ≠ some '[') :
    (':' ∉ address.host ↔ (trim text.toList).count ':' ≤ 1) ∧
      (':' ∈ address.host → ∃ port, trim text.toList = address.host ++ ':' :: port ∧
        ':' ∉ port ∧ IsPort port address.port) := by
  obtain ⟨port, parts, means⟩ := parts_of_parse accepted
  generalize trim text.toList = cs at parts bare
  cases parts with
  | bracketed => exact absurd rfl bare
  | bare _ noColon whole =>
      cases port with
      | none =>
          have absent := whole rfl
          rw [behind, List.append_nil, List.count_eq_zero_of_not_mem absent]
          exact ⟨iff_of_true absent (Nat.zero_le 1), fun member => absurd member absent⟩
      | some port =>
          have absent := noColon port rfl
          rw [behind, List.count_append, List.count_cons_self, List.count_eq_zero_of_not_mem absent,
            ← List.count_eq_zero]
          exact ⟨by omega, fun _ => ⟨port, rfl, absent, means⟩⟩

theorem cache_host_is_whole :
    parse " cache:6380" = .ok ⟨['c', 'a', 'c', 'h', 'e'], 6380⟩ ∧
      (trim " cache:6380".toList).head? ≠ some '[' ∧ ':' ∉ ['c', 'a', 'c', 'h', 'e'] := by
  have accepted : parse " cache:6380" = .ok ⟨['c', 'a', 'c', 'h', 'e'], 6380⟩ := by rfl
  have bare : (trim " cache:6380".toList).head? ≠ some '[' := by decide
  exact ⟨accepted, bare, (bare_host_is_whole_iff accepted bare).1.mpr (by decide)⟩

/-- The address that stands for a machine itself, written without brackets, is read as a host of
one colon and a port. -/
theorem bare_loopback_is_cut :
    parse "::1" = .ok ⟨[':'], 1⟩ ∧ (trim "::1".toList).head? ≠ some '[' ∧ ':' ∈ [':'] := by
  refine ⟨by rfl, by decide, by decide⟩

end ExpiringCache.Address
