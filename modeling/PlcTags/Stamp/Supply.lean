import PlcTags.Stamp.Instant
import PlcTags.Stamp.Uuid

/-!
# The supply of stamps

New things get an identifier that nothing else has, and the moment at which they were
made.  Both come from a supply that hands out one stamp after the other, so that no two
stamps agree in anything.
-/

namespace PlcTags

/-- What a new thing is marked with. -/
structure Stamp where
  id : Uuid
  time : Instant
  deriving DecidableEq, Repr

structure Supply where
  /-- How many stamps have been handed out. -/
  issued : Nat := 0
  deriving DecidableEq, Repr

namespace Supply

/-- The stamp that is handed out next. -/
def stamp (supply : Supply) : Stamp :=
  ⟨Uuid.ofNat (supply.issued + 1), Instant.ofNanoseconds supply.issued⟩

/-- The supply once its next stamp is gone. -/
def next (supply : Supply) : Supply :=
  ⟨supply.issued + 1⟩

end Supply

end PlcTags
