import ExpiringCache.Remote.Opening
/-!
How the opening of a networked cache goes on. It begins only with settings that can be used, comes
nearer to its end with every reply, asks for a sign of life only once the server has let it in, and
whatever goes wrong on the way is told as one kind of error.
-/

namespace ExpiringCache

/-! ### Settings -/

theorem Namespace.refusal_is_invalid {text : String} {e : CacheError}
    (refused : Namespace.parse text = .error e) : ∃ reason, e = .invalidConfig reason := by
  simp only [Namespace.parse] at refused
  split at refused
  · cases refused
    exact ⟨_, rfl⟩
  · split at refused
    · cases refused
      exact ⟨_, rfl⟩
    · cases refused

theorem Address.refusal_is_invalid {text : String} {e : CacheError}
    (refused : Address.parse text = .error e) : ∃ reason, e = .invalidConfig reason := by
  simp only [Address.parse] at refused
  split at refused
  · cases refused
  · cases refused
    exact ⟨_, rfl⟩

def RemoteSettings.Refused (settings : RemoteSettings) : Prop :=
  (∃ e, Namespace.parse settings.ns = .error e) ∨ ∃ e, Address.parse settings.addr = .error e

def OpeningStage.left : OpeningStage → Nat
  | .reaching => 3
  | .greeting true => 2
  | .greeting false => 1
  | .pinging => 0

namespace Opening

theorem start_of_refused {settings : RemoteSettings} (refused : settings.Refused) :
    ∃ reason, start settings = ⟨.failed (.invalidConfig reason), []⟩ := by
  unfold start
  split
  · next e complaint =>
    obtain ⟨reason, rfl⟩ := Namespace.refusal_is_invalid complaint
    exact ⟨reason, rfl⟩
  · next ns accepted =>
    split
    · next e complaint =>
      obtain ⟨reason, rfl⟩ := Address.refusal_is_invalid complaint
      exact ⟨reason, rfl⟩
    · next address found =>
      rcases refused with ⟨e, refused⟩ | ⟨e, refused⟩
      · cases accepted.symm.trans refused
      · cases found.symm.trans refused

theorem start_of_accepted {settings : RemoteSettings} (accepted : ¬ settings.Refused) :
    ∃ ns address events, start settings = ⟨.reach ⟨settings, ns, address, .reaching⟩, events⟩ := by
  cases ns : Namespace.parse settings.ns with
  | error e => exact absurd (.inl ⟨e, ns⟩) accepted
  | ok ns' =>
      cases address : Address.parse settings.addr with
      | error e => exact absurd (.inr ⟨e, address⟩) accepted
      | ok address' => exact ⟨ns', address', _, by simp only [start, ns, address]; rfl⟩

/-! ### Greetings -/

theorem holds_iff {part text : List Char} : holds part text = true ↔ part <:+: text := by
  induction text with
  | nil => rw [holds, List.isEmpty_iff, List.infix_nil]
  | cons c rest ih =>
      rw [holds, Bool.or_eq_true, ih, List.isPrefixOf_iff_prefix, List.infix_cons_iff]

end Opening

def Reply.RefusesNames (reply : Reply) : Prop :=
  ∃ e, reply.firstError = some e ∧ Opening.noNames.toList <:+: (e.detail.getD "").toList

namespace RemoteSettings

def passwords (settings : RemoteSettings) : Nat := if settings.password.isSome then 1 else 0

/-- The server takes the password, and has no complaint about anything else. -/
structure Welcomed (settings : RemoteSettings) (replies : List Reply) : Prop where
  admitted : ∀ reply ∈ replies.take settings.passwords, reply = .okay
  chosen : ∀ reply ∈ replies.drop settings.passwords, reply.firstError = none

def NameRefused (settings : RemoteSettings) (replies : List Reply) : Prop :=
  ∃ reply ∈ replies.take settings.passwords, reply.RefusesNames

end RemoteSettings

namespace Opening

inductive AdmissionOf (reply : Reply) : Admission → Prop where
  | admitted (okay : reply = .okay) : AdmissionOf reply .admitted
  | withoutName (refuses : reply.RefusesNames) : AdmissionOf reply .withoutName
  | refused {e} (other : reply ≠ .okay) (named : ¬ reply.RefusesNames) :
      AdmissionOf reply (.refused e)

theorem admission_of (reply : Reply) : AdmissionOf reply (admission reply) := by
  unfold admission
  cases first : reply.firstError with
  | some e =>
      by_cases noNames : holds noNames.toList (e.detail.getD "").toList
      · simp only [noNames]
        exact .withoutName ⟨e, first, holds_iff.mp noNames⟩
      · simp only [noNames]
        refine .refused ?_ ?_
        · rintro rfl
          cases first
        · rintro ⟨e', other, held⟩
          cases first.symm.trans other
          exact noNames (holds_iff.mpr held)
  | none =>
      split
      · next h => cases h
      · exact .admitted rfl
      · next other =>
        refine .refused other ?_
        rintro ⟨e, some, _⟩
        cases first.symm.trans some

inductive GreetingOf (settings : RemoteSettings) (replies : List Reply) : Admission → Prop where
  | admitted (welcomed : settings.Welcomed replies) : GreetingOf settings replies .admitted
  | withoutName (refused : settings.NameRefused replies) :
      GreetingOf settings replies .withoutName
  | refused {e} (unwelcome : ¬ settings.Welcomed replies)
      (named : ¬ settings.NameRefused replies) : GreetingOf settings replies (.refused e)

theorem no_choice_refused_iff {replies : List Reply} :
    replies.findSome? choiceRefused = none ↔ ∀ reply ∈ replies, reply.firstError = none := by
  rw [List.findSome?_eq_none_iff]
  exact forall₂_congr fun reply _ => Option.map_eq_none_iff

/-- Once the password is taken, if there is one, the other replies decide. -/
theorem greeting_of_taken {settings : RemoteSettings} {replies others : List Reply}
    (taken : ∀ reply ∈ replies.take settings.passwords, reply = .okay)
    (rest : replies.drop settings.passwords = others) :
    GreetingOf settings replies
      (match others.findSome? choiceRefused with
        | some e => .refused e
        | none => .admitted) := by
  subst rest
  cases complaint : (replies.drop settings.passwords).findSome? choiceRefused with
  | none => exact .admitted ⟨taken, no_choice_refused_iff.mp complaint⟩
  | some e =>
      refine .refused ?_ ?_
      · intro welcomed
        cases complaint.symm.trans (no_choice_refused_iff.mpr welcomed.chosen)
      · rintro ⟨reply, member, e', complains, _⟩
        cases taken reply member
        cases complains

/-- The server lets the client in just if it takes the password and complains of nothing. -/
theorem greeting_of (settings : RemoteSettings) (replies : List Reply) :
    GreetingOf settings replies (greetingOutcome settings replies) := by
  unfold greetingOutcome
  cases password : settings.password.isSome with
  | false =>
      have none : settings.passwords = 0 := by rw [RemoteSettings.passwords, password]; rfl
      refine greeting_of_taken ?_ ?_
      · rw [none]
        exact List.forall_mem_nil _
      · rw [none]
        rfl
  | true =>
      have one : settings.passwords = 1 := if_pos password
      cases replies with
      | nil =>
          refine greeting_of_taken ?_ List.drop_nil
          rw [List.take_nil]
          exact List.forall_mem_nil _
      | cons first others =>
          have only : (first :: others).take settings.passwords = [first] := by rw [one]; rfl
          have rest : (first :: others).drop settings.passwords = others := by rw [one]; rfl
          have there : first ∈ (first :: others).take settings.passwords :=
            only ▸ List.mem_singleton_self first
          have said := admission_of first
          simp only [if_true, List.head?_cons, Option.map_some, List.drop_succ_cons, List.drop_zero]
          generalize admission first = admission at said ⊢
          cases said with
          | admitted okay =>
              refine greeting_of_taken ?_ rest
              rw [only]
              exact List.forall_mem_singleton.mpr okay
          | withoutName refuses => exact .withoutName ⟨first, there, refuses⟩
          | refused other named =>
              refine .refused ?_ ?_
              · intro welcomed
                exact other (welcomed.admitted first there)
              · rintro ⟨reply, member, refuses⟩
                rw [only] at member
                cases List.mem_singleton.mp member
                exact named refuses

/-! ### Replies -/

/-- What an opening can have to do after it was sent something, or was not. -/
inductive GoesOn (o : Opening) : Except ClientError (List Reply) → OpeningNext → Prop where
  | greets {replies commands} (named : Bool) (few : commands.length ≤ 2)
      (nearer : (OpeningStage.greeting named).left < o.stage.left)
      (unnamed : named = false → o.settings.NameRefused replies) :
      GoesOn o (.ok replies) (.greet { o with stage := .greeting named } commands)
  | pings {replies} (nearer : OpeningStage.pinging.left < o.stage.left)
      (welcomed : o.settings.Welcomed replies ∨
        o.stage = .greeting false ∧ o.settings.NameRefused replies) :
      GoesOn o (.ok replies) (.ping { o with stage := .pinging })
  | opens {replies pong} (pinging : o.stage = .pinging)
      (text : (replies.headD .nil).read Reply.toText = .ok pong) :
      GoesOn o (.ok replies) (.opened o.ns)
  | fails {outcome} (reason : String) : GoesOn o outcome (.failed (.backendUnavailable reason))

theorem few_commands (settings : RemoteSettings) (named : Bool) :
    (credentials settings named ++ choice settings).length ≤ 2 := by
  have password : (credentials settings named).length ≤ 1 := by
    unfold credentials
    cases settings.password with
    | none => exact Nat.zero_le _
    | some password => exact Nat.le_refl _
  have database : (choice settings).length ≤ 1 := by
    unfold choice
    split
    · exact Nat.zero_le _
    · exact Nat.le_refl _
  rw [List.length_append]
  omega

theorem greeted_goes_on (o : Opening) {named : Bool} (stage : o.stage = .greeting named)
    (outcome : Except ClientError (List Reply)) :
    GoesOn o outcome (o.greeted named outcome).next := by
  cases outcome with
  | error e => exact .fails _
  | ok replies =>
      simp only [greeted]
      have greeting := greeting_of o.settings replies
      generalize greetingOutcome o.settings replies = outcome at greeting ⊢
      have nearer : OpeningStage.pinging.left < o.stage.left := by
        rw [stage]
        cases named <;> decide
      cases greeting with
      | admitted welcomed => exact .pings nearer (.inl welcomed)
      | withoutName refused =>
          cases named with
          | true =>
              refine .greets false (few_commands o.settings false) ?_ fun _ => refused
              rw [stage]
              decide
          | false => exact .pings nearer (.inr ⟨stage, refused⟩)
      | refused => exact .fails _

/-- Every reply brings an opening nearer to its end. A name is left out only where names are
refused, the sign of life is asked for only of a server that lets the client in, and the opening
succeeds only if that reply is text; a failure says that the server is not available. -/
theorem resume_goes_on (o : Opening) (outcome : Except ClientError (List Reply)) :
    GoesOn o outcome (o.resume outcome).next := by
  unfold resume
  cases stage : o.stage with
  | reaching =>
      cases outcome with
      | error e => exact .fails _
      | ok replies =>
          refine .greets true (few_commands o.settings true) ?_ nofun
          rw [stage]
          decide
  | greeting named => exact greeted_goes_on o stage outcome
  | pinging =>
      cases outcome with
      | error e => exact .fails _
      | ok replies =>
          simp only [Except.map]
          cases read : (replies.headD .nil).read Reply.toText with
          | ok pong =>
              have opened : (o.pinged (.ok (replies.headD .nil))).next = .opened o.ns := by
                simp only [pinged, Except.bind, read]
              rw [opened]
              exact .opens stage read
          | error e =>
              have failed : (o.pinged (.ok (replies.headD .nil))).next =
                  (unavailable "Redis PING failed" e).next := by
                simp only [pinged, Except.bind, read]
              rw [failed]
              exact .fails _

end Opening

end ExpiringCache
