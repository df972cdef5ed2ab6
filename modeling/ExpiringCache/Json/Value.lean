import ExpiringCache.Number.Binary64
/-!
JSON values. Fields of an object that was read stand in the order of their names, each name once.
-/

namespace ExpiringCache

/-- A JSON value; a number is whole or a double. -/
inductive Json where
  | null
  | flag (b : Bool)
  | whole (n : Int)
  | real (x : Number.Binary64)
  | text (s : String)
  | list (items : List Json)
  | object (fields : List (String × Json))
  deriving Inhabited

namespace Json

/-- Puts a field into its place by name; the value of a name that is there already is replaced. -/
def putField (name : String) (value : Json) : List (String × Json) → List (String × Json)
  | [] => [(name, value)]
  | field :: rest =>
    if name < field.1 then (name, value) :: field :: rest
    else if name = field.1 then (name, value) :: rest
    else field :: putField name value rest

/-- The object with these fields, the last one of a name counting. -/
def ofFields (fields : List (String × Json)) : Json :=
  .object (fields.foldl (fun sorted field => putField field.1 field.2 sorted) [])

def field? (name : String) : Json → Option Json
  | .object fields => (fields.find? (·.1 == name)).map (·.2)
  | _ => none

end Json

end ExpiringCache
