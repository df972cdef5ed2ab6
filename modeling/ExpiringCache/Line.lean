/-!
Lines of callers that take turns, first come first served.
-/

namespace ExpiringCache

/-- Callers in the order in which they came; the turn is the first one's. -/
structure Line (ι : Type) where
  callers : List ι

namespace Line

variable {ι : Type}

def empty : Line ι := ⟨[]⟩

instance : Inhabited (Line ι) := ⟨empty⟩

def first? (line : Line ι) : Option ι := line.callers.head?

def join (line : Line ι) (id : ι) : Line ι := ⟨line.callers ++ [id]⟩

variable [DecidableEq ι]

def isFirst (line : Line ι) (id : ι) : Bool := line.first? == some id

def leave (line : Line ι) (id : ι) : Line ι := ⟨line.callers.filter (· != id)⟩

end Line

end ExpiringCache
