import ExpiringCache.Proofs.Remote.Glob
/-!
Server keys that belong to two namespaces. A colon ends a name, but names and keys may have colons
of their own, so where the name ends cannot always be told from a server's key: a cache `shop` can
keep under `eu:cart` what a cache `shop:eu` keeps under `cart`. This is the only way in which two
namespaces meet, and then all keys of the one with the longer name are keys of the other.
-/

namespace ExpiringCache.Namespace

/-- The name goes on behind the other name and a colon. -/
def Extends (longer shorter : Namespace) : Prop := shorter.name ++ [':'] <+: longer.name

theorem key_injective (ns : Namespace) {j k : String} (same : ns.key j = ns.key k) : j = k := by
  have chars := String.ofList_injective same
  exact String.toList_inj.mp (List.cons.inj (List.append_cancel_left chars)).2

/-- What a server's key starts with says to which namespaces it belongs. -/
theorem share_key_iff (m n : Namespace) :
    (∃ j k, m.key j = n.key k) ↔
      m.name ++ [':'] <+: n.name ++ [':'] ∨ n.name ++ [':'] <+: m.name ++ [':'] := by
  constructor
  · rintro ⟨j, k, same⟩
    have ofFirst := (m.is_key_iff (m.key j)).mp ⟨j, rfl⟩
    have ofSecond := (n.is_key_iff (m.key j)).mp ⟨k, same⟩
    exact List.prefix_or_prefix_of_prefix ofFirst ofSecond
  · rintro (within | within)
    · have own := (n.is_key_iff (n.key "")).mp ⟨"", rfl⟩
      obtain ⟨j, found⟩ := (m.is_key_iff (n.key "")).mpr (within.trans own)
      exact ⟨j, "", found.symm⟩
    · have own := (m.is_key_iff (m.key "")).mp ⟨"", rfl⟩
      obtain ⟨k, found⟩ := (n.is_key_iff (m.key "")).mpr (within.trans own)
      exact ⟨"", k, found⟩

theorem starts_alike_iff (m n : Namespace) :
    m.name ++ [':'] <+: n.name ++ [':'] ↔ m = n ∨ n.Extends m := by
  rw [List.prefix_concat_iff, List.append_cancel_right_eq]
  cases m
  cases n
  rw [Namespace.mk.injEq]
  rfl

/-- A cache with a longer name keeps all that it has under keys of the shorter one. -/
theorem keys_within_of_extends {longer shorter : Namespace} (extended : longer.Extends shorter)
    (k : String) : ∃ j, longer.key k = shorter.key j := by
  have own := (longer.is_key_iff (longer.key k)).mp ⟨k, rfl⟩
  have named : longer.name <+: longer.name ++ [':'] := List.prefix_append _ _
  exact (shorter.is_key_iff _).mpr (extended.trans (named.trans own))

/-- Two namespaces have a server's key in common if and only if they are one, or one name extends
the other. Within one namespace a server's key belongs to one key of the cache alone; where a name
extends another, none of its keys is its own alone. -/
theorem keys_are_shared_iff (m n : Namespace) :
    ((∃ j k, m.key j = n.key k) ↔ m = n ∨ n.Extends m ∨ m.Extends n) ∧
      (m = n → ∀ j k, m.key j = n.key k → j = k) ∧
      (n.Extends m → ∀ k, ∃ j, n.key k = m.key j) := by
  refine ⟨?_, ?_, keys_within_of_extends⟩
  · rw [share_key_iff, starts_alike_iff, starts_alike_iff, eq_comm (a := n) (b := m)]
    constructor
    · rintro ((one | extended) | (one | extended))
      · exact .inl one
      · exact .inr (.inl extended)
      · exact .inl one
      · exact .inr (.inr extended)
    · rintro (one | extended | extended)
      · exact .inl (.inl one)
      · exact .inl (.inr extended)
      · exact .inr (.inr extended)
  · rintro rfl j k same
    exact m.key_injective same

example : key ⟨['e', 'u']⟩ "a:b" = key ⟨['e', 'u', ':', 'a']⟩ "b" := by rfl

end ExpiringCache.Namespace
