import ExpiringCache.Text.Quoted
/-!
The ways in which a cache operation can fail, and their wording.
-/

namespace ExpiringCache

mutual

inductive CacheError where
  | notFound (key : String)
  | decode (key reason : String)
  | encode (reason : String)
  | backendUnavailable (reason : String)
  | backend (reason : String)
  | invalidConfig (reason : String)
  | compute (cause : Cause)

inductive Cause where
  | reported (text : String)
  | cache (error : CacheError)
  | context (text : String) (inner : Cause)

end

mutual

/-- The messages of an error and of what lies under it, outermost first. -/
def CacheError.messages : CacheError → List String
  | .notFound key => ["Key not found: " ++ key]
  | .decode key reason => ["Cannot decode value of '" ++ key ++ "': " ++ reason]
  | .encode reason => ["Cannot encode value: " ++ reason]
  | .backendUnavailable reason => ["Backend unavailable: " ++ reason]
  | .backend reason => ["Backend error: " ++ reason]
  | .invalidConfig reason => ["Invalid configuration: " ++ reason]
  | .compute cause => cause.messages

def Cause.messages : Cause → List String
  | .reported text => [text]
  | .cache error => error.messages
  | .context text inner => text :: inner.messages

end

namespace CacheError

def message (error : CacheError) : String := error.messages.headD ""

def fullMessage (error : CacheError) : String := ": ".intercalate error.messages

def sources (error : CacheError) : List String := error.messages.tail

def isNotFound : CacheError → Bool
  | .notFound _ => true
  | _ => false

/-- The error with its parts, except for a failed computation, whose parts are the caller's own. -/
def parts : CacheError → Option String
  | .notFound key => some ("NotFound(" ++ Text.quoted key ++ ")")
  | .decode key reason =>
    some ("Decode \x7b key: " ++ Text.quoted key ++ ", reason: " ++ Text.quoted reason ++ " \x7d")
  | .encode reason => some ("Encode(" ++ Text.quoted reason ++ ")")
  | .backendUnavailable reason => some ("BackendUnavailable(" ++ Text.quoted reason ++ ")")
  | .backend reason => some ("Backend(" ++ Text.quoted reason ++ ")")
  | .invalidConfig reason => some ("InvalidConfig(" ++ Text.quoted reason ++ ")")
  | .compute _ => none

end CacheError

end ExpiringCache
