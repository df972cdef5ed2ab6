import ExpiringCache.Proofs.Remote.Held
/-!
Exchanges with a server that keeps a map. Each operation comes to its end, however many rounds it
takes, with the answer of a map with deadlines, and the server's keys then show what the map holds.
-/

namespace ExpiringCache

open MapServer
open Command (word)

variable {σ : Type}

/-- Calls that both kinds of cache are meant to answer alike. Whole numbers are left out, which a
networked cache leaves to its client to read. -/
def HandleCall.Common : HandleCall → Prop
  | .store _ _ ttl _ => ttl.Sendable
  | .get _ reading => reading ≠ .whole
  | _ => True

/-- An exchange that ends: the server's replies, one after the other, lead to the outcome. -/
inductive Exchange.Answered (serve : Service σ) (now : Instant) (ns : Namespace) :
    Exchange → σ → Outcome → List Event → σ → Prop where
  | finished {exchange s reply s' outcome events}
      (answer : serve s now (exchange.command ns) = (reply, s'))
      (resumes : exchange.resume ns (.ok reply) = .finished outcome events) :
      Answered serve now ns exchange s outcome events s'
  | again {exchange s reply s' next outcome events s''}
      (answer : serve s now (exchange.command ns) = (reply, s'))
      (resumes : exchange.resume ns (.ok reply) = .again next)
      (rest : Answered serve now ns next s' outcome events s'') :
      Answered serve now ns exchange s outcome events s''

/-! ### Commands -/

namespace Command

theorem scan_words (ns : Namespace) (cursor : Nat) :
    scan ns cursor = scanWords ns.stem cursor pageSize := by
  rw [scanWords, ← ns.pattern_word]
  rfl

end Command

/-! ### Replies -/

namespace Reply

theorem read_of_plain {α : Type} (convert : Reply → Except ClientError α) {reply : Reply}
    (plain : reply.firstError = none) : reply.read convert = convert reply := by
  simp only [read, checked, plain]

theorem first_error_of_bulks (keys : List (List UInt8)) : firstErrorOf (keys.map .bulk) = none := by
  induction keys with
  | nil => rfl
  | cons key rest ih =>
      simpa only [List.map_cons, firstErrorOf, firstError] using ih

theorem page_is_plain (next : Nat) (keys : List (List UInt8)) :
    (pageReply next keys).firstError = none := by
  simp only [pageReply, firstError, firstErrorOf, first_error_of_bulks]

theorem keys_of_bulks (names : List String) :
    toKeys (.array ((names.map word).map .bulk)) = .ok names := by
  rw [toKeys]
  induction names with
  | nil => rfl
  | cons name rest ih =>
      have text : toText (.bulk (word name)) = .ok name := by
        rw [toText, word, Text.Utf8.decode_encode]
      rw [List.map_cons, List.map_cons, List.mapM_cons, text, ih]
      rfl

theorem page_of_reply {next : Nat} (fits : next < 2 ^ 64) (names : List String) :
    toPage (pageReply next (names.map word)) = .ok (next, names) := by
  have high : (next : Int) ≤ (Number.Range.unsigned 64).high := by
    change (next : Int) ≤ 2 ^ 64 - 1
    omega
  have cursor : toWhole (.unsigned 64) (.bulk (word (toString next))) = .ok (next : Int) := by
    rw [toWhole, word, Text.Utf8.decode_encode]
    simp only [parseWhole, Number.read_whole_of_nat _ next high]
  rw [pageReply, toPage, cursor, keys_of_bulks]
  rfl

end Reply

namespace Exchange

variable {serve : Service σ} {shows : Showing σ} {ns : Namespace} {s : σ} {now : Instant}
  {m : TtlMap}

/-- What becomes of an operation: its outcome, and a map that the server's keys show afterwards. -/
def Reaches (serve : Service σ) (shows : Showing σ) (ns : Namespace) (now : Instant) (s : σ)
    (exchange : Exchange) (outcome : Outcome) (m : TtlMap) : Prop :=
  ∃ events s', exchange.Answered serve now ns s outcome events s' ∧ ns.Holds shows s' now m

theorem convert_page {next : Nat} (fits : next < 2 ^ 64) (names : List String) :
    convert Reply.toPage (.ok (pageReply next (names.map word))) = .ok (next, names) := by
  change (pageReply next (names.map word)).read Reply.toPage = _
  rw [Reply.read_of_plain Reply.toPage (Reply.page_is_plain next _), Reply.page_of_reply fits names]

/-! ### Reads -/

theorem get_reaches (keeps : Keeps serve shows ns.stem) (holds : ns.Holds shows s now m)
    (key : String) {reading : Reading} (common : reading ≠ .whole) :
    Reaches serve shows ns now s (.get key reading) (m.call (.get key reading)).1 m := by
  obtain ⟨s', answer, same⟩ := keeps.get s now (ns.keyWord key)
  have held := Namespace.shows_now holds key
  have resumes : (get key reading).resume ns (.ok ((shows s now (ns.keyWord key)).elim .nil .bulk)) =
      .finished (m.call (.get key reading)).1 [] := by
    rw [held]
    simp only [resume, TtlMap.call, TtlMap.read_eq]
    cases reading with
    | whole => exact absurd rfl common
    | _ => cases m.held key <;> rfl
  exact ⟨[], s', .finished answer resumes, Namespace.holds_of_same holds same⟩

theorem probe_reaches (keeps : Keeps serve shows ns.stem) (holds : ns.Holds shows s now m)
    (key : String) :
    Reaches serve shows ns now s (.exists key) (.ok (.flag (m.held key).isSome)) m := by
  obtain ⟨s', answer, same⟩ := keeps.probe s now (ns.keyWord key)
  have held := Namespace.shows_now holds key
  have resumes : («exists» key).resume ns
      (.ok (.int (if (shows s now (ns.keyWord key)).isSome then 1 else 0))) =
      .finished (.ok (.flag (m.held key).isSome)) [] := by
    rw [held, Option.isSome_map]
    cases (m.held key).isSome <;> rfl
  exact ⟨[], s', .finished answer resumes, Namespace.holds_of_same holds same⟩

/-! ### Writes -/

theorem expiry_fits (ttl : Duration) :
    ∀ ms ∈ Command.expiryMillis ttl, 0 < ms ∧ ms ≤ Command.longestMillis :=
  fun _ sent => Command.expiry_bounds sent

theorem set_reaches (keeps : Keeps serve shows ns.stem) (holds : ns.Holds shows s now m)
    (key : String) (payload : Payload) {ttl : Duration} (sendable : ttl.Sendable) :
    Reaches serve shows ns now s (.set key payload ttl) (.ok .done) (m.put key payload ttl) := by
  obtain ⟨s', answer, stored⟩ :=
    keeps.set s now (ns.keyWord key) payload (Command.expiryMillis ttl) (expiry_fits ttl)
  exact ⟨_, s', .finished answer rfl, Namespace.holds_after_put holds sendable stored⟩

theorem set_if_absent_reaches (keeps : Keeps serve shows ns.stem) (holds : ns.Holds shows s now m)
    (key : String) (payload : Payload) {ttl : Duration} (sendable : ttl.Sendable) :
    Reaches serve shows ns now s (.setIfAbsent key payload ttl)
      (.ok (.flag !(m.held key).isSome))
      (if (m.held key).isSome then m else m.put key payload ttl) := by
  have held := Namespace.shows_now holds key
  cases found : m.held key with
  | none =>
      rw [found] at held
      obtain ⟨s', answer, stored⟩ := keeps.setAbsent s now (ns.keyWord key) payload
        (Command.expiryMillis ttl) (expiry_fits ttl) held
      exact ⟨[], s', .finished answer rfl, Namespace.holds_after_put holds sendable stored⟩
  | some value =>
      rw [found] at held
      obtain ⟨s', answer, same⟩ := keeps.setPresent s now (ns.keyWord key) payload
        (Command.expiryMillis ttl) (expiry_fits ttl) (by rw [held]; rfl)
      exact ⟨[], s', .finished answer rfl, Namespace.holds_of_same holds same⟩

theorem delete_reaches (keeps : Keeps serve shows ns.stem) (holds : ns.Holds shows s now m)
    (key : String) :
    Reaches serve shows ns now s (.delete key) (.ok .done) (m.remove key) := by
  obtain ⟨count, s', answer, deleted⟩ :=
    keeps.delete s now [ns.keyWord key] (List.cons_ne_nil _ _)
  exact ⟨[], s', .finished answer rfl, Namespace.holds_after_remove holds deleted⟩

/-! ### Clearing -/

theorem names_of_keys (ns : Namespace) {keys : List (List UInt8)}
    (own : ∀ raw ∈ keys, ∃ key, raw = ns.keyWord key) :
    ∃ names : List String, keys = names.map word := by
  induction keys with
  | nil => exact ⟨[], rfl⟩
  | cons raw rest ih =>
      obtain ⟨key, rfl⟩ := own raw List.mem_cons_self
      obtain ⟨names, rfl⟩ := ih fun raw there => own raw (List.mem_cons_of_mem _ there)
      exact ⟨ns.key key :: names, rfl⟩

theorem nothing_deleted (s : σ) : Deleted shows now s [] s where
  mine := by
    intro u later k there
    cases there
  others := fun _ _ _ => rfl

theorem deleted_and_more {s₀ s₁ s₂ : σ} {seen keys : List (List UInt8)}
    (before : Deleted shows now s₀ seen s) (same : SameFrom shows now s s₁)
    (deleted : Deleted shows now s₁ keys s₂) : Deleted shows now s₀ (seen ++ keys) s₂ where
  mine := by
    intro u later k there
    by_cases mine : k ∈ keys
    · exact deleted.mine later k mine
    · rw [deleted.others later k mine, same later]
      exact before.mine later k ((List.mem_append.mp there).resolve_right mine)
  others := by
    intro u later k outside
    rw [List.mem_append, not_or] at outside
    rw [deleted.others later k outside.2, same later, before.others later k outside.1]

/-- When a listing ends whose keys have all been deleted, none of the namespace's keys is left. -/
theorem none_left (keeps : Keeps serve shows ns.stem) {s₀ : σ} (holds : ns.Holds shows s₀ now m)
    {pages : Nat} {seen : List (List UInt8)} (listing : Listing serve now ns.stem s₀ pages 0 seen s)
    (listed : 0 < pages) (deleted : Deleted shows now s₀ seen s) {u : Instant}
    (later : now.toNanos ≤ u.toNanos) {raw : List UInt8} (stem : ns.stem <+: raw) :
    shows s u raw = none := by
  by_cases there : raw ∈ seen
  · exact deleted.mine later raw there
  · cases found : shows s u raw with
    | none => rfl
    | some payload =>
        rw [deleted.others later raw there] at found
        obtain ⟨key, rfl⟩ := holds.own later stem found
        -- What is shown at a later point was there at the beginning.
        obtain ⟨deadline, held, _⟩ := (holds.values later key payload).mp found
        have before : shows s₀ now (ns.keyWord key) = some payload := by
          rw [Namespace.shows_now holds, held]
          rfl
        rw [← deleted.others (Nat.le_refl _) _ there] at before
        exact absurd (keeps.complete listing listed _ stem (by rw [before]; rfl)) there

/-- Whatever a page lists that has not been deleted has a name in the namespace. -/
theorem names_of_page {s₀ : σ} (holds : ns.Holds shows s₀ now m) {seen keys : List (List UInt8)}
    (deleted : Deleted shows now s₀ seen s)
    (there : ∀ raw ∈ keys, ns.stem <+: raw ∧ (shows s now raw).isSome) :
    ∃ names : List String, keys = names.map word := by
  apply names_of_keys ns
  intro raw listed
  obtain ⟨stem, shown⟩ := there raw listed
  obtain ⟨payload, shown⟩ := Option.isSome_iff_exists.mp shown
  have unseen : raw ∉ seen := by
    intro seen
    rw [deleted.mine (Nat.le_refl _) raw seen] at shown
    cases shown
  rw [deleted.others (Nat.le_refl _) raw unseen] at shown
  exact holds.own (Nat.le_refl _) stem shown

def Empties (serve : Service σ) (shows : Showing σ) (ns : Namespace) (now : Instant) (s : σ)
    (exchange : Exchange) : Prop :=
  ∃ events s', exchange.Answered serve now ns s (.ok .done) events s' ∧
    ∀ {u : Instant}, now.toNanos ≤ u.toNanos → ∀ {raw}, ns.stem <+: raw → shows s' u raw = none

/-- After the keys of a page are gone, either the listing is at its end or it goes on. -/
theorem empties_of_page (keeps : Keeps serve shows ns.stem) {s₀ : σ}
    (holds : ns.Holds shows s₀ now m) {pages next : Nat} {seen : List (List UInt8)}
    (listed : Listing serve now ns.stem s₀ (pages + 1) next seen s)
    (deleted : Deleted shows now s₀ seen s) {removed : Int64}
    (goesOn : next ≠ 0 → Empties serve shows ns now s (.page next removed)) {exchange : Exchange}
    {before : σ} {reply : Reply} (answer : serve before now (exchange.command ns) = (reply, s))
    (resumes : exchange.resume ns (.ok reply) = afterPage ns next removed) :
    Empties serve shows ns now before exchange := by
  unfold afterPage at resumes
  by_cases last : next = 0
  · subst last
    rw [if_pos rfl] at resumes
    exact ⟨_, s, .finished answer resumes,
      none_left keeps holds listed (Nat.succ_pos pages) deleted⟩
  · rw [if_neg last] at resumes
    obtain ⟨events, s', rest, cleared⟩ := goesOn last
    exact ⟨events, s', .again answer resumes rest, cleared⟩

/-- A listing that still goes on, with its keys deleted page by page, comes to an end that leaves
none of the namespace's keys. -/
theorem listing_empties (keeps : Keeps serve shows ns.stem) {s₀ : σ}
    (holds : ns.Holds shows s₀ now m) {most : Nat}
    (bounded : ∀ {pages cursor seen s}, Listing serve now ns.stem s₀ pages cursor seen s →
      pages ≤ most) (left : Nat) :
    ∀ {pages cursor seen s removed}, Listing serve now ns.stem s₀ pages cursor seen s →
      pages = 0 ∨ cursor ≠ 0 → most ≤ pages + left → Deleted shows now s₀ seen s →
      Empties serve shows ns now s (.page cursor removed) := by
  -- The induction is on how many pages there can be yet, since a listing has only so many.
  induction left with
  | zero =>
      intro pages cursor seen s removed listing goesOn reach _
      obtain ⟨next, keys, s₁, answer, _⟩ := keeps.page listing goesOn Command.pageSize (by decide)
      -- There is always one more page while a listing goes on, and here there is none left.
      have more := bounded (.page listing goesOn answer)
      omega
  | succ left ih =>
      intro pages cursor seen s removed listing goesOn reach gone
      obtain ⟨next, keys, s₁, answer, fits, there, same⟩ :=
        keeps.page listing goesOn Command.pageSize (by decide)
      have onPage := Listing.page listing goesOn answer
      obtain ⟨names, rfl⟩ := names_of_page holds gone there
      have read := convert_page fits names
      rw [← Command.scan_words] at answer
      have further : most ≤ pages + 1 + left := by omega
      cases names with
      | nil =>
          have deleted : Deleted shows now s₀ (seen ++ [].map word) s₁ :=
            deleted_and_more gone same (nothing_deleted s₁)
          have resumes : resume ns (.ok (pageReply next ([].map word))) (.page cursor removed) =
              afterPage ns next removed := by
            rw [resume, read]
          exact empties_of_page keeps holds onPage deleted
            (fun more => ih onPage (.inr more) further deleted) answer resumes
      | cons name rest =>
          have resumes : resume ns (.ok (pageReply next ((name :: rest).map word)))
              (.page cursor removed) = .again (.deletePage (name :: rest) next removed) := by
            rw [resume, read]
          obtain ⟨count, s₂, answered, deleted⟩ :=
            keeps.delete s₁ now ((name :: rest).map word) (List.cons_ne_nil _ _)
          have listed := Listing.delete onPage ((name :: rest).map word)
          rw [answered] at listed
          have deleted := deleted_and_more gone same deleted
          have resumed : ∃ n, resume ns (.ok (.int count)) (.deletePage (name :: rest) next removed) =
              afterPage ns next n := ⟨_, rfl⟩
          obtain ⟨n, resumed⟩ := resumed
          obtain ⟨events, s', rest, cleared⟩ := empties_of_page keeps holds listed deleted
            (fun more => ih listed (.inr more) further deleted) answered resumed
          exact ⟨events, s', .again answer resumes rest, cleared⟩

theorem clear_reaches (keeps : Keeps serve shows ns.stem) (holds : ns.Holds shows s now m) :
    Reaches serve shows ns now s (.page 0 0) (.ok .done) { m with held := fun _ => none } := by
  obtain ⟨most, bounded⟩ := keeps.bounded now s
  obtain ⟨events, s', answered, cleared⟩ := listing_empties keeps holds bounded most .start
    (.inl rfl) (Nat.le_add_left _ _) (nothing_deleted s)
  exact ⟨events, s', answered, Namespace.holds_nothing now cleared holds.clock fun _ => rfl⟩

/-- What an operation asks for is done, and its caller told so, as by a map with deadlines. -/
theorem operation_reaches (keeps : Keeps serve shows ns.stem) (holds : ns.Holds shows s now m)
    {asked : HandleCall} (common : asked.Common) {operation : Operation}
    (asks : asked.operation = .ok operation) :
    Reaches serve shows ns now s (.ofOperation operation) (m.call asked).1 (m.call asked).2 := by
  cases asked with
  | store key value ttl ifAbsent =>
      obtain ⟨payload, encoded, rfl⟩ := HandleCall.operation_of_store asks
      cases ifAbsent with
      | false =>
          simp only [TtlMap.call, TtlMap.bytes_of_eq, encoded, Bool.false_eq_true, if_false]
          exact set_reaches keeps holds key payload common
      | true =>
          have reaches := set_if_absent_reaches keeps holds key payload common
          change Reaches serve shows ns now s (.setIfAbsent key payload ttl) _ _
          simp only [TtlMap.call, TtlMap.bytes_of_eq, encoded, if_true]
          cases found : (m.held key).isSome with
          | true => simpa [found] using reaches
          | false => simpa [found] using reaches
  | get key reading =>
      cases asks
      rw [TtlMap.map_after_get]
      exact get_reaches keeps holds key common
  | «exists» key =>
      cases asks
      exact probe_reaches keeps holds key
  | delete key =>
      cases asks
      exact delete_reaches keeps holds key
  | clear =>
      cases asks
      exact clear_reaches keeps holds

end Exchange

end ExpiringCache
