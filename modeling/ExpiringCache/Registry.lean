import ExpiringCache.Line
import ExpiringCache.Settings
/-!
Registries: the two caches of a process, each made when it is first asked for and then shared. The
default cache may take a while to make and may fail, so callers take turns at making it until one of
them succeeds; the auxiliary one is always embedded and made on the spot.
-/

namespace ExpiringCache

/-- The caches of a process, known by their numbers, and the callers that wait for the default
one. -/
structure Registry (ι : Type) where
  settings : Settings
  primary : Option Nat
  auxiliary : Option Nat
  builders : Line ι
  building : Option ι

inductive Plan where
  | embedded
  | networked (settings : RemoteSettings)

/-- What a caller that asks for the default cache is told. -/
inductive RegistryTurn where
  | ready (cache : Nat)
  | build
  | waiting
  deriving DecidableEq

namespace Registry

variable {ι : Type}

def ofSettings (settings : Settings) : Registry ι := ⟨settings, none, none, .empty, none⟩

def plan (r : Registry ι) : Plan :=
  match r.settings.backend with
  | .memory => .embedded
  | .redis => .networked r.settings.remote

def keepAuxiliary (r : Registry ι) (cache : Nat) : Registry ι :=
  { r with auxiliary := r.auxiliary <|> some cache }

variable [DecidableEq ι]

/-- Forgets a caller; if it was making the cache, the next one in line may. -/
def leave (r : Registry ι) (id : ι) : Registry ι :=
  { r with
    builders := r.builders.leave id
    building := if r.building = some id then none else r.building }

/-- Tells a caller in line whether the cache is there or is its own to make. -/
def turn (r : Registry ι) (id : ι) : RegistryTurn × Registry ι :=
  match r.primary with
  | some cache => (.ready cache, r.leave id)
  | none =>
    if r.builders.isFirst id then (.build, { r with building := some id }) else (.waiting, r)

def ask (r : Registry ι) (id : ι) : RegistryTurn × Registry ι :=
  match r.primary with
  | some cache => (.ready cache, r)
  | none => { r with builders := r.builders.join id }.turn id

def built (r : Registry ι) (id : ι) (cache : Nat) : Registry ι :=
  { r.leave id with primary := some cache }

def due (r : Registry ι) : List ι :=
  if r.primary.isSome then r.builders.callers
  else if r.building.isSome then []
  else r.builders.first?.toList

end Registry

end ExpiringCache
