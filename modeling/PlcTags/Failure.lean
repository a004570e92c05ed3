import PlcTags.Tag.Vocabulary

/-!
# Failures

What keeps the service from doing what it was asked to do, each with a sentence that
begins with the kind of failure.
-/

namespace PlcTags

inductive Failure where
  | database (detail : String)
  | io (detail : String)
  | config (detail : String)
  | notFound (what : String)
  | invalidInput (detail : String)
  | internal (detail : String)
  deriving DecidableEq, Repr

namespace Failure

def message : Failure → String
  | database detail => "Database error: " ++ detail
  | io detail => "IO error: " ++ detail
  | config detail => "Configuration error: " ++ detail
  | notFound what => "Not found: " ++ what
  | invalidInput detail => "Invalid input: " ++ detail
  | internal detail => "Internal error: " ++ detail

/-- A word that a caller gave and no vocabulary knows. -/
def ofUnknownWord (fault : UnknownWord) : Failure :=
  invalidInput fault.message

end Failure

end PlcTags
