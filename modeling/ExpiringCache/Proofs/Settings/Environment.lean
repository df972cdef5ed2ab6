import ExpiringCache.Proofs.Number.Numeral
import ExpiringCache.Proofs.Text.Utf8Texts
import ExpiringCache.Settings
/-!
Settings from the environment. Any bytes in any of the variables give settings. No variable touches
the field of another, and a number is the one that its variable holds or, if it holds none, the
fallback; never a part of one, and never one beyond the field's type.
-/

namespace ExpiringCache

def Variable.Content : Variable → Type
  | .backend => BackendKind
  | .addr | .ns => String
  | .username | .password => Option String
  | .db => Int
  | .connectTimeout | .responseTimeout | .sweepInterval => Nat

def Settings.field (s : Settings) : (v : Variable) → v.Content
  | .backend => s.backend
  | .addr => s.remote.addr
  | .username => s.remote.username
  | .password => s.remote.password
  | .db => s.remote.db
  | .ns => s.remote.ns
  | .connectTimeout => s.remote.connectTimeoutMillis
  | .responseTimeout => s.remote.responseTimeoutMillis
  | .sweepInterval => s.sweepIntervalMillis

inductive Quantity where
  | db
  | connectTimeout
  | responseTimeout
  | sweepInterval

namespace Quantity

def controlledBy : Quantity → Variable
  | .db => .db
  | .connectTimeout => .connectTimeout
  | .responseTimeout => .responseTimeout
  | .sweepInterval => .sweepInterval

def range : Quantity → Number.Range
  | .db => ⟨-9223372036854775808, 9223372036854775807⟩
  | .connectTimeout | .responseTimeout | .sweepInterval => ⟨0, 18446744073709551615⟩

def fallback : Quantity → Int
  | .db => 0
  | .connectTimeout | .responseTimeout => 2000
  | .sweepInterval => 1000

def inside (s : Settings) : Quantity → Int
  | .db => s.remote.db
  | .connectTimeout => s.remote.connectTimeoutMillis
  | .responseTimeout => s.remote.responseTimeoutMillis
  | .sweepInterval => s.sweepIntervalMillis

end Quantity

namespace Environment

open Number

def Holds (env : Environment) (q : Quantity) (n : Int) : Prop :=
  ∃ text, env q.controlledBy = some (Text.Utf8.encodeChars text) ∧ Denotes q.range text n

variable {env : Environment} {q : Quantity} {text : List Char}

/-! ### Variables -/

theorem ok_of_to_option {ε α : Type} {result : Except ε α} {a : α}
    (there : result.toOption = some a) : result = .ok a := by
  cases result with
  | error e => cases there
  | ok b => exact congrArg Except.ok (Option.some.inj there)

theorem text_eq_some_iff (env : Environment) (v : Variable) (s : String) :
    env.text? v = some s ↔ env v = some (Text.Utf8.encode s) := by
  rw [text?, Option.bind_eq_some_iff]
  constructor
  · rintro ⟨bytes, set, decoded⟩
    rw [set, (Text.Utf8.decode_eq_ok_iff bytes s).mp (ok_of_to_option decoded)]
  · intro set
    refine ⟨_, set, ?_⟩
    rw [Text.Utf8.decode_encode]
    rfl

/-- A variable has a number of a range if its text stands for one. -/
theorem whole_eq_some_iff (env : Environment) (v : Variable) {range : Range}
    (zero : range.contains 0 = true) (n : Int) :
    env.whole? v range = some n ↔
      ∃ text, env v = some (Text.Utf8.encodeChars text) ∧ Denotes range text n := by
  rw [whole?, Option.bind_eq_some_iff]
  constructor
  · rintro ⟨s, set, number⟩
    exact ⟨s.toList, (text_eq_some_iff env v s).mp set,
      (read_whole_eq_ok_iff zero _ n).mp (ok_of_to_option number)⟩
  · rintro ⟨text, set, denotes⟩
    refine ⟨String.ofList text, (text_eq_some_iff env v _).mpr ?_, ?_⟩
    · rw [Text.Utf8.encode, String.toList_ofList]
      exact set
    · rw [String.toList_ofList, (read_whole_eq_ok_iff zero text n).mpr denotes]
      rfl

theorem holds_iff_whole (env : Environment) (q : Quantity) (n : Int) :
    env.Holds q n ↔ env.whole? q.controlledBy q.range = some n := by
  have zero : q.range.contains 0 = true := by cases q <;> decide
  exact (whole_eq_some_iff env q.controlledBy zero n).symm

/-! ### Fields -/

theorem natural_eq (env : Environment) (v : Variable) (fallback : Nat) :
    (env.natural v fallback : Int) =
      ((env.whole? v ⟨0, 18446744073709551615⟩).getD fallback) := by
  have zero : Range.contains ⟨0, 18446744073709551615⟩ 0 = true := by decide
  have range : Range.unsigned 64 = ⟨0, 18446744073709551615⟩ := by decide
  rw [natural, range]
  cases read : env.whole? v ⟨0, 18446744073709551615⟩ with
  | none => rfl
  | some n =>
      obtain ⟨text, _, denotes⟩ := (whole_eq_some_iff env v zero n).mp read
      exact Int.toNat_of_nonneg ((contains_iff _ n).mp denotes.within).1

/-- The field is the number that its variable has, or the fallback. -/
theorem inside_eq (env : Environment) (q : Quantity) :
    q.inside (.ofEnvironment env) = (env.whole? q.controlledBy q.range).getD q.fallback := by
  cases q with
  | db =>
      have range : Range.signed 64 = ⟨-9223372036854775808, 9223372036854775807⟩ := by decide
      change (env.whole? .db (.signed 64)).getD 0 = _
      rw [range]
      rfl
  | connectTimeout => exact natural_eq env .connectTimeout 2000
  | responseTimeout => exact natural_eq env .responseTimeout 2000
  | sweepInterval => exact natural_eq env .sweepInterval 1000

theorem inside_of_holds {n : Int} (holds : env.Holds q n) :
    q.inside (.ofEnvironment env) = n := by
  rw [inside_eq, (holds_iff_whole env q n).mp holds]
  rfl

theorem inside_of_no_number (other : ∀ n, ¬env.Holds q n) :
    q.inside (.ofEnvironment env) = q.fallback := by
  rw [inside_eq]
  cases read : env.whole? q.controlledBy q.range with
  | none => rfl
  | some n => exact absurd ((holds_iff_whole env q n).mpr read) (other n)

theorem field_of_agreement {other : Environment} {v : Variable} (agree : env v = other v) :
    (Settings.ofEnvironment env).field v = (Settings.ofEnvironment other).field v := by
  have text : env.text? v = other.text? v := by rw [text?, text?, agree]
  have whole : ∀ range, env.whole? v range = other.whole? v range := by
    intro range
    rw [whole?, whole?, text]
  cases v with
  | backend =>
      change (Settings.backendOf env).1 = (Settings.backendOf other).1
      rw [Settings.backendOf, Settings.backendOf, text]
  | addr => exact congrArg (fun set => set.getD RemoteSettings.defaults.addr) text
  | ns => exact congrArg (fun set => set.getD RemoteSettings.defaults.ns) text
  | username | password => exact congrArg (Option.filter fun s => !s.isEmpty) text
  | db => exact congrArg (fun set => set.getD RemoteSettings.defaults.db) (whole (.signed 64))
  | connectTimeout | responseTimeout | sweepInterval =>
      change env.natural _ _ = other.natural _ _
      rw [natural, natural, whole]

/-! ### Texts that are no numbers -/

/-- A text is no number of a field's type: it is empty, has a blank in it, or is a number beyond the
type. -/
def Misfits (q : Quantity) (text : List Char) : Prop :=
  text = [] ∨ (∃ c ∈ text, Text.isBlank c = true) ∨
    ∃ n, Numeral text n ∧ q.range.contains n = false

theorem not_denotes_of_misfits (misfits : Misfits q text) (n : Int) :
    ¬Denotes q.range text n := by
  have zero : q.range.contains 0 = true := by cases q <;> decide
  intro denotes
  rcases misfits with rfl | ⟨c, member, blank⟩ | ⟨m, numeral, beyond⟩
  · cases denotes.numeral with
    | unsigned digits => exact digits.1 rfl
  · have read := (read_whole_eq_ok_iff zero text n).mpr denotes
    cases blank.symm.trans (read_whole_has_no_blank read c member)
  · cases numeral.unique denotes.numeral
    cases beyond.symm.trans denotes.within

theorem not_holds_of_misfits
    (set : env q.controlledBy = some (Text.Utf8.encodeChars text)) (misfits : Misfits q text)
    (n : Int) : ¬env.Holds q n := by
  rintro ⟨other, set', denotes⟩
  have same : text = other :=
    Text.Utf8.encode_chars_injective (Option.some.inj (set.symm.trans set'))
  subst same
  exact not_denotes_of_misfits misfits n denotes

/-- Whatever the variables hold, there are settings. A variable decides about its own field alone; a
number is the one that its variable holds, and the fallback if it holds none, as an empty text, one
with blanks in it and a number beyond the type do; and it is one of its type. -/
theorem environment_is_never_misread (env : Environment) :
    (∀ (other : Environment) v, env v = other v →
      (Settings.ofEnvironment env).field v = (Settings.ofEnvironment other).field v) ∧
    ∀ q : Quantity,
      (∀ n, q.inside (.ofEnvironment env) = n ↔
        env.Holds q n ∨ (∀ m, ¬env.Holds q m) ∧ n = q.fallback) ∧
      (∀ text, env q.controlledBy = some (Text.Utf8.encodeChars text) → Misfits q text →
        q.inside (.ofEnvironment env) = q.fallback) ∧
      q.range.contains (q.inside (.ofEnvironment env)) = true := by
  refine ⟨fun other v => field_of_agreement, fun q => ⟨fun n => ⟨?_, ?_⟩, ?_, ?_⟩⟩
  · rintro rfl
    by_cases held : ∃ m, env.Holds q m
    · obtain ⟨m, holds⟩ := held
      rw [inside_of_holds holds]
      exact .inl holds
    · have none := not_exists.mp held
      exact .inr ⟨none, inside_of_no_number none⟩
  · rintro (holds | ⟨none, rfl⟩)
    · exact inside_of_holds holds
    · exact inside_of_no_number none
  · intro text set misfits
    exact inside_of_no_number (not_holds_of_misfits set misfits)
  · by_cases held : ∃ m, env.Holds q m
    · obtain ⟨m, holds⟩ := held
      rw [inside_of_holds holds]
      obtain ⟨_, _, denotes⟩ := holds
      exact denotes.within
    · rw [inside_of_no_number (not_exists.mp held)]
      cases q <;> decide

def bare : Environment
  | .db => some (Text.Utf8.encodeChars ['-', '0', '3'])
  | _ => none

/-- The same database, a time with a sign, one that is one too large and one with a blank. -/
def crooked : Environment
  | .db => some (Text.Utf8.encodeChars ['-', '0', '3'])
  | .connectTimeout => some (Text.Utf8.encodeChars ['+', '2', '5', '0'])
  | .responseTimeout => some (Text.Utf8.encodeChars "18446744073709551616".toList)
  | .sweepInterval => some (Text.Utf8.encodeChars [' ', '5'])
  | _ => none

theorem crooked_environment_is_not_misread :
    crooked .db = bare .db ∧
      (Settings.ofEnvironment crooked).field .db = (Settings.ofEnvironment bare).field .db ∧
      Quantity.db.inside (.ofEnvironment crooked) = -3 ∧
      Quantity.connectTimeout.inside (.ofEnvironment crooked) = 250 ∧
      Quantity.responseTimeout.inside (.ofEnvironment crooked) = 2000 ∧
      Quantity.sweepInterval.inside (.ofEnvironment crooked) = 1000 := by
  obtain ⟨apart, numbers⟩ := environment_is_never_misread crooked
  have three : IsDigits ['0', '3'] := ⟨List.cons_ne_nil _ _, List.all_eq_true.mp rfl⟩
  have time : IsDigits ['2', '5', '0'] := ⟨List.cons_ne_nil _ _, List.all_eq_true.mp rfl⟩
  have large : IsDigits "18446744073709551616".toList :=
    ⟨by decide, List.all_eq_true.mp (by rfl)⟩
  refine ⟨rfl, apart bare .db rfl, ?_, ?_, ?_, ?_⟩
  · exact ((numbers .db).1 (-3)).mpr (.inl ⟨['-', '0', '3'], rfl, .minus three, by decide, by decide⟩)
  · exact ((numbers .connectTimeout).1 250).mpr
      (.inl ⟨['+', '2', '5', '0'], rfl, .plus time, by decide, by decide⟩)
  · exact (numbers .responseTimeout).2.1 _ rfl (.inr (.inr ⟨_, .unsigned large, by decide +kernel⟩))
  · exact (numbers .sweepInterval).2.1 _ rfl (.inr (.inl ⟨' ', List.mem_cons_self, rfl⟩))

end Environment

end ExpiringCache
