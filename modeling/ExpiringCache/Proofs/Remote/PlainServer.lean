import ExpiringCache.Proofs.Named
import ExpiringCache.Proofs.Remote.MapServer
/-!
A server that keeps a map, as plain as can be: a list of rows, of which the ones that are over are
passed over. All keys fit on one page of a listing, whatever the count asked for.
-/

namespace ExpiringCache

open MapServer
open Command (word)

structure PlainRow where
  key : List UInt8
  value : Payload
  deadline : Option Nat

def PlainRow.isLive (row : PlainRow) (nanos : Nat) : Bool := row.deadline.all (nanos < ·)

structure PlainServer where
  rows : List PlainRow

namespace PlainServer

def find? (s : PlainServer) (key : List UInt8) : Option PlainRow :=
  s.rows.find? fun row => row.key = key

def shows : Showing PlainServer := fun s now key =>
  ((s.find? key).filter (·.isLive now.toNanos)).map (·.value)

def remove (s : PlainServer) (keys : List (List UInt8)) : PlainServer :=
  ⟨s.rows.filter fun row => row.key ∉ keys⟩

def put (s : PlainServer) (now : Instant) (key value : List UInt8) (millis : Option Nat) :
    PlainServer :=
  let deadline := millis.map fun ms => now.toNanos + ms * nanosPerMilli
  ⟨(s.remove [key]).rows ++ [⟨key, value, deadline⟩]⟩

def listed (s : PlainServer) (now : Instant) (stem : List UInt8) : List (List UInt8) :=
  (s.rows.map (·.key)).filter fun key => stem.isPrefixOf key && (shows s now key).isSome

def millis? (text : List UInt8) : Option Nat :=
  match Text.Utf8.decode text with
  | .ok s => (Number.readWhole (.unsigned 64) s.toList).toOption.map Int.toNat
  | .error _ => none

def options? : Command → Option (Bool × Option Nat)
  | [] => some (false, none)
  | [nx] => if nx = word "NX" then some (true, none) else none
  | [px, ms] => if px = word "PX" then (millis? ms).map fun ms => (false, some ms) else none
  | [nx, px, ms] =>
    if nx = word "NX" ∧ px = word "PX" then (millis? ms).map fun ms => (true, some ms) else none
  | _ => none

def refusal : Reply := .ofErrorLine "ERR syntax error"

def serve : Service PlainServer := fun s now command =>
  match command with
  | [] => (refusal, s)
  | name :: args =>
    if name = word "GET" then
      match args with
      | [key] => ((shows s now key).elim .nil .bulk, s)
      | _ => (refusal, s)
    else if name = word "EXISTS" then
      match args with
      | [key] => (.int (if (shows s now key).isSome then 1 else 0), s)
      | _ => (refusal, s)
    else if name = word "SET" then
      match args with
      | key :: value :: options =>
        match options? options with
        | some (onlyIfAbsent, millis) =>
          if onlyIfAbsent && (shows s now key).isSome then (.nil, s)
          else (.okay, s.put now key value millis)
        | none => (refusal, s)
      | _ => (refusal, s)
    else if name = word "DEL" then
      (.int ((args.filter fun key => (shows s now key).isSome).length : Nat), s.remove args)
    else if name = word "SCAN" then
      match args with
      | [_, _, pattern, _, _] => (pageReply 0 (s.listed now pattern.dropLast), s)
      | _ => (refusal, s)
    else (refusal, s)

theorem word_eq_iff (s t : String) : word s = word t ↔ s = t :=
  ⟨fun same => Text.Utf8.encode_injective same, fun same => congrArg word same⟩

variable {s : PlainServer} {now : Instant}

theorem find_after_remove (s : PlainServer) (keys : List (List UInt8)) (k : List UInt8) :
    (s.remove keys).find? k = if k ∈ keys then none else s.find? k := by
  have found : (s.remove keys).find? k = if decide (k ∉ keys) then s.find? k else none :=
    find_after_filter PlainRow.key s.rows (fun key => key ∉ keys) k
  rw [found]
  by_cases gone : k ∈ keys
  · simp [gone]
  · simp [gone]

theorem find_after_put (s : PlainServer) (now : Instant) (key value : List UInt8)
    (millis : Option Nat) (k : List UInt8) :
    (s.put now key value millis).find? k =
      if k = key then some ⟨key, value, millis.map fun ms => now.toNanos + ms * nanosPerMilli⟩
      else s.find? k := by
  have rest := s.find_after_remove [key] k
  unfold find? at rest
  unfold put find?
  rw [List.find?_append, rest]
  by_cases same : k = key
  · simp [same]
  · simp [same, Ne.symm same]

theorem live_iff_before_deadline (row : PlainRow) (nanos : Nat) :
    row.isLive nanos = true ↔ ∀ deadline ∈ row.deadline, nanos < deadline := by
  rw [PlainRow.isLive, Option.all_eq_true]
  simp only [decide_eq_true_eq, Option.mem_def]

theorem put_stored (s : PlainServer) (now : Instant) (key value : List UInt8)
    (millis : Option Nat) : Stored shows now s key value millis (s.put now key value millis) where
  mine := by
    intro u _ payload
    rw [shows, find_after_put, if_pos rfl, Option.map_eq_some_iff]
    simp only [Option.filter_eq_some_iff, Option.some.injEq, live_iff_before_deadline]
    constructor
    · intro shown
      obtain ⟨row, ⟨same, ahead⟩, found⟩ := shown
      subst same
      refine ⟨found.symm, ?_⟩
      intro ms there
      exact ahead _ (Option.mem_map_of_mem _ there)
    · intro stored
      refine ⟨_, ⟨rfl, ?_⟩, stored.1.symm⟩
      intro deadline there
      obtain ⟨ms, given, rfl⟩ := Option.map_eq_some_iff.mp there
      exact stored.2 ms given
  others := by
    intro u _ k other
    simp only [shows, find_after_put, if_neg other]

theorem remove_deleted (s : PlainServer) (now : Instant) (keys : List (List UInt8)) :
    Deleted shows now s keys (s.remove keys) where
  mine := by
    intro u _ k there
    simp only [shows, find_after_remove, if_pos there]
    rfl
  others := by
    intro u _ k outside
    simp only [shows, find_after_remove, if_neg outside]

theorem millis_of_words {ms : Nat} (fits : ms ≤ Command.longestMillis) :
    millis? (word (toString ms)) = some ms := by
  have bound : Command.longestMillis ≤ 2 ^ 63 - 1 := by decide
  have high : (ms : Int) ≤ (Number.Range.unsigned 64).high := by
    change (ms : Int) ≤ 2 ^ 64 - 1
    omega
  unfold millis?
  rw [word, Text.Utf8.decode_encode]
  simp only [Number.read_whole_of_nat _ ms high]
  rfl

theorem options_of_words (onlyIfAbsent : Bool) {millis : Option Nat}
    (fits : ∀ ms ∈ millis, ms ≤ Command.longestMillis) :
    options? (optionWords onlyIfAbsent millis) = some (onlyIfAbsent, millis) := by
  cases millis with
  | none => cases onlyIfAbsent <;> rfl
  | some ms =>
      have read := millis_of_words (fits ms rfl)
      cases onlyIfAbsent with
      | false => exact congrArg (Option.map fun ms => (false, some ms)) read
      | true => exact congrArg (Option.map fun ms => (true, some ms)) read

theorem serve_get (s : PlainServer) (now : Instant) (key : List UInt8) :
    serve s now [word "GET", key] = ((shows s now key).elim .nil .bulk, s) := by
  simp [serve]

theorem serve_exists (s : PlainServer) (now : Instant) (key : List UInt8) :
    serve s now [word "EXISTS", key] = (.int (if (shows s now key).isSome then 1 else 0), s) := by
  simp [serve, word_eq_iff]

theorem serve_set (s : PlainServer) (now : Instant) (key value : List UInt8) (onlyIfAbsent : Bool)
    {millis : Option Nat} (fits : ∀ ms ∈ millis, ms ≤ Command.longestMillis) :
    serve s now (setWords key value onlyIfAbsent millis) =
      if onlyIfAbsent && (shows s now key).isSome then (.nil, s)
      else (.okay, s.put now key value millis) := by
  simp [serve, setWords, word_eq_iff, options_of_words onlyIfAbsent fits]

theorem serve_del (s : PlainServer) (now : Instant) (keys : List (List UInt8)) :
    ∃ count : Nat, serve s now (word "DEL" :: keys) = (.int count, s.remove keys) := by
  refine ⟨(keys.filter fun key => (shows s now key).isSome).length, ?_⟩
  simp [serve, word_eq_iff]

theorem serve_scan (s : PlainServer) (now : Instant) (stem : List UInt8) (cursor count : Nat) :
    serve s now (scanWords stem cursor count) = (pageReply 0 (s.listed now stem), s) := by
  have star : (stem ++ word "*").dropLast = stem := List.dropLast_concat
  simp [serve, word_eq_iff, scanWords, star]

/-! ### Listings -/

theorem page_of_serve {s : PlainServer} {stem : List UInt8} {cursor count next : Nat}
    {keys : List (List UInt8)} {s' : PlainServer}
    (answer : serve s now (scanWords stem cursor count) = (pageReply next keys, s')) :
    next = 0 ∧ keys = s.listed now stem ∧ s' = s := by
  rw [serve_scan] at answer
  obtain ⟨page, rfl⟩ := Prod.mk.inj answer
  simp only [pageReply, Reply.array.injEq, List.cons.injEq, Reply.bulk.injEq, word_eq_iff,
    and_true] at page
  refine ⟨Number.decimal_injective page.1.symm, ?_, rfl⟩
  exact ((List.map_inj_right fun _ _ same => Reply.bulk.inj same).mp page.2).symm

theorem mem_listed {s : PlainServer} {stem key : List UInt8} (starts : stem <+: key)
    (shown : (shows s now key).isSome) : key ∈ s.listed now stem := by
  obtain ⟨payload, found⟩ := Option.isSome_iff_exists.mp shown
  obtain ⟨row, kept, _⟩ := Option.map_eq_some_iff.mp found
  have there := (Option.filter_eq_some_iff.mp kept).1
  have named : row.key = key := by simpa using List.find?_some there
  rw [listed, List.mem_filter, Bool.and_eq_true, List.isPrefixOf_iff_prefix]
  exact ⟨List.mem_map.mpr ⟨row, List.mem_of_find?_eq_some there, named⟩, starts, shown⟩

/-- A listing is over after one page, which has shown all that is there. -/
theorem listing_is_one_page {stem : List UInt8} {s₀ : PlainServer} {pages cursor : Nat}
    {seen : List (List UInt8)} {s : PlainServer}
    (listing : Listing serve now stem s₀ pages cursor seen s) :
    cursor = 0 ∧ pages ≤ 1 ∧
      (0 < pages → ∀ key, stem <+: key → (shows s now key).isSome → key ∈ seen) := by
  induction listing with
  | start => exact ⟨rfl, Nat.zero_le 1, fun listed => absurd listed (Nat.lt_irrefl 0)⟩
  | page before goesOn answer ih =>
      have first := goesOn.resolve_right fun more => more ih.1
      subst first
      obtain ⟨rfl, rfl, rfl⟩ := page_of_serve answer
      refine ⟨rfl, Nat.le_refl 1, ?_⟩
      intro _ key starts shown
      exact List.mem_append_right _ (mem_listed starts shown)
  | delete before keys ih =>
      obtain ⟨count, answer⟩ := serve_del _ now keys
      rw [answer]
      refine ⟨ih.1, ih.2.1, ?_⟩
      intro listed key starts shown
      -- What is still there after a deletion was there before it.
      by_cases gone : key ∈ keys
      · rw [(remove_deleted _ now keys).mine (Nat.le_refl _) key gone] at shown
        cases shown
      · rw [(remove_deleted _ now keys).others (Nat.le_refl _) key gone] at shown
        exact ih.2.2 listed key starts shown

theorem keeps (stem : List UInt8) : Keeps serve shows stem where
  get s now key := ⟨s, serve_get s now key, fun _ _ => rfl⟩
  probe s now key := ⟨s, serve_exists s now key, fun _ _ => rfl⟩
  set s now key value millis fits := by
    refine ⟨s.put now key value millis, ?_, put_stored s now key value millis⟩
    exact serve_set s now key value false fun ms there => (fits ms there).2
  setAbsent s now key value millis fits absent := by
    refine ⟨s.put now key value millis, ?_, put_stored s now key value millis⟩
    rw [serve_set s now key value true fun ms there => (fits ms there).2, absent]
    rfl
  setPresent s now key value millis fits present := by
    refine ⟨s, ?_, fun _ _ => rfl⟩
    rw [serve_set s now key value true fun ms there => (fits ms there).2, present]
    rfl
  delete s now keys _ := by
    obtain ⟨count, answer⟩ := serve_del s now keys
    exact ⟨count, s.remove keys, answer, remove_deleted s now keys⟩
  page {now _ _ _ _ s} _ _ count _ := by
    refine ⟨0, s.listed now stem, s, serve_scan s now stem _ count, by decide, ?_, fun _ _ => rfl⟩
    intro key there
    rw [listed, List.mem_filter, Bool.and_eq_true, List.isPrefixOf_iff_prefix] at there
    exact there.2
  complete listing listed := (listing_is_one_page listing).2.2 listed
  bounded now s₀ := ⟨1, fun listing => (listing_is_one_page listing).2.1⟩

end PlainServer

end ExpiringCache
