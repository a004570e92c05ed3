/-!
# Parties and the locks of projects

A party is anything that goes on in the service at the same time: the call that a session is
busy with, or a job that was started beside it.

There is one lock for every project.  Whoever wants it gets in line; the first in line
holds the lock, and goes when it gives the lock back.
-/

namespace PlcTags.Live

inductive Party where
  /-- The call of a session, by its number. -/
  | session (number : Nat)
  /-- A job, by its number. -/
  | job (number : Nat)
  deriving DecidableEq, Repr

structure Locks where
  /-- Who is in line for which project, the first at the front. -/
  line : List (Int × Party) := []
  deriving DecidableEq, Repr

namespace Locks

/-- Who holds the lock of a project. -/
def holder? (locks : Locks) (project : Int) : Option Party :=
  locks.line.lookup project

def isHeldBy (locks : Locks) (project : Int) (party : Party) : Bool :=
  locks.holder? project == some party

/-- A party gets in line. -/
def ask (locks : Locks) (project : Int) (party : Party) : Locks :=
  ⟨locks.line ++ [(project, party)]⟩

/-- A party goes. -/
def release (locks : Locks) (project : Int) (party : Party) : Locks :=
  ⟨locks.line.erase (project, party)⟩

end Locks

end PlcTags.Live
