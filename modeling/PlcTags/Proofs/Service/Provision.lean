import Mathlib.Data.List.Induction
import PlcTags.Proofs.Service.Closing
import PlcTags.Proofs.Text.Trim

/-!
# Tokens and their owners

A token is given to its owner by an entry of the settings or by a call that stores it, as it
is.  A credential is looked up without the blanks at its ends: among the entries first, of
which the first one counts, and then in the table, where the last call counts
(`authenticate_provide`).  So a token opens a session as its owner if it has no blanks at its
ends.  With blanks it is taken for another token, and opens the session only as the owner of
that one (`opensAs_iff_of_provides`).

The table knows tokens by their hashes.  That no two of the tokens in question have the same
hash is assumed where it matters (`HashesApart`).
-/

namespace PlcTags

open Text Live

namespace Access

variable {settings : AuthSettings} {table : TokenTable} {token other identity : String}
  {gifts : List (String × String)}

/-! ## The table -/

/-- No two of these tokens have the same hash. -/
def HashesApart (tokens : List String) : Prop :=
  ∀ token ∈ tokens, ∀ other ∈ tokens, tokenHash token = tokenHash other → token = other

theorem HashesApart.mono {tokens others : List String} (h : HashesApart tokens)
    (hsubset : others ⊆ tokens) : HashesApart others :=
  fun token htoken other hother => h token (hsubset htoken) other (hsubset hother)

theorem lookup_filter_ne {entries : List (String × String)} {hash key : String} (h : key ≠ hash) :
    (entries.filter (·.1 != hash)).lookup key = entries.lookup key := by
  induction entries with
  | nil => rfl
  | cons entry rest ih =>
      obtain ⟨first, owner⟩ := entry
      by_cases hfirst : first = hash
      · subst hfirst
        rw [List.filter_cons_of_neg (by simp), ih, List.lookup_cons, beq_false_of_ne h]
      · rw [List.filter_cons_of_pos (by simpa using hfirst), List.lookup_cons, List.lookup_cons, ih]

/-- Who is given a token owns it, and nobody else loses one. -/
theorem owner?_assign (hapart : tokenHash token = tokenHash other → token = other) :
    (table.assign other identity).owner? token =
      if token = other then some identity else table.owner? token := by
  split
  · rename_i hsame
    rw [hsame]
    exact table.owner?_assign_self other identity
  · rename_i hother
    have hhash : tokenHash token ≠ tokenHash other := fun hsame => hother (hapart hsame)
    simp only [TokenTable.owner?, TokenTable.assign, List.lookup_cons, beq_false_of_ne hhash]
    exact lookup_filter_ne hhash

/-- Who was given a token last. -/
def lastOwner? (gifts : List (String × String)) (token : String) : Option String :=
  gifts.reverse.lookup token

/-- Who owns a token: who the settings name for it, or else who was given it last. -/
def provisionedOwner? (settings : AuthSettings) (gifts : List (String × String))
    (token : String) : Option String :=
  (configuredOwner? settings token).or (lastOwner? gifts token)

end Access

/-- The database after all these tokens have been stored for their owners. -/
def Database.provide (database : Database) (gifts : List (String × String)) : Database :=
  gifts.foldl (fun database gift => database.assignToken gift.1 gift.2) database

namespace Access

variable {settings : AuthSettings} {database : Database} {token credential identity : String}
  {gifts : List (String × String)}

theorem isOpen_provide (database : Database) (gifts : List (String × String)) :
    (database.provide gifts).isOpen = database.isOpen := by
  induction gifts using List.reverseRecOn with
  | nil => rfl
  | append_singleton gifts gift ih =>
      rw [Database.provide, List.foldl_concat]
      exact ih

/-- The table keeps the last owner of each token. -/
theorem owner?_provide (hempty : database.tokens.entries = [])
    (hapart : HashesApart (token :: gifts.map Prod.fst)) :
    (database.provide gifts).tokens.owner? token = lastOwner? gifts token := by
  induction gifts using List.reverseRecOn with
  | nil =>
      show database.tokens.entries.lookup _ = none
      rw [hempty]
      rfl
  | append_singleton gifts gift ih =>
      have hrest : HashesApart (token :: gifts.map Prod.fst) := by
        refine hapart.mono (List.cons_subset_cons token ?_)
        rw [List.map_append]
        exact List.subset_append_left _ _
      have hlast : tokenHash token = tokenHash gift.1 → token = gift.1 :=
        hapart token List.mem_cons_self gift.1 (by simp)
      rw [Database.provide, List.foldl_concat]
      refine (owner?_assign hlast).trans ?_
      rw [lastOwner?, List.reverse_concat, List.lookup_cons]
      by_cases hsame : token = gift.1
      · simp [hsame]
      · rw [if_neg hsame, beq_false_of_ne hsame]
        exact ih hrest

/-! ## Credentials -/

/-- **What becomes of a credential.**  Without its blanks it is a token, and it is accepted as
what its owner is called. -/
theorem authenticate_provide (henabled : settings.disabled = false)
    (hempty : database.tokens.entries = []) (hopen : database.isOpen = true)
    (hapart : HashesApart (trimmed credential :: gifts.map Prod.fst)) :
    authenticate settings (database.provide gifts) (some credential) =
      if trimmed credential = "" then .error .missing
      else match provisionedOwner? settings gifts (trimmed credential) with
        | some identity => .ok identity
        | none => .error .invalid := by
  have howner : (database.provide gifts).tokenOwner (trimmed credential) =
      .ok (lastOwner? gifts (trimmed credential)) := by
    rw [Database.tokenOwner, Database.ifOpen, isOpen_provide, hopen, owner?_provide hempty hapart]
    rfl
  rw [authenticate, henabled]
  simp only [Bool.false_eq_true, if_false, presentedToken?, Option.map_some, Option.filter_some]
  by_cases hblank : trimmed credential = ""
  · simp [hblank]
  · simp only [hblank, ne_eq, not_false_eq_true, decide_true, if_true, if_false]
    cases hconfigured : configuredOwner? settings (trimmed credential) with
    | some identity => simp [provisionedOwner?, hconfigured]
    | none =>
        simp only [provisionedOwner?, hconfigured, storedOwner, howner, Option.none_or]
        cases lastOwner? gifts (trimmed credential) <;> rfl

end Access

namespace Service

open Access

variable {service : Service} {number : Nat} {session : Session} {database : Database}
  {gifts : List (String × String)} {credential identity : String}

/-! ## Sessions -/

/-- A session in which nobody has been accepted yet can be called. -/
structure IsUnclaimed (service : Service) (number : Nat) (session : Session) : Prop where
  found : service.sessions[number]? = some session
  idle : session.isIdle = true
  state : session.state = .unauthenticated

/-- The credential opens the session, and this is the identity that it belongs to then. -/
def OpensAs (service : Service) (number : Nat) (credential identity : String) : Prop :=
  ∃ next later, (service.authenticate number (some credential)).sessionStep? number = some next ∧
    next.sessions[number]? = some later ∧ later.state = .authenticated ∧
    later.identity = some identity ∧ later.reply = some (.authenticated identity)

/-- The credential is rejected, and the session stays closed. -/
def Rejects (service : Service) (number : Nat) (credential : String) : Prop :=
  ∃ next later refusal,
    (service.authenticate number (some credential)).sessionStep? number = some next ∧
      next.sessions[number]? = some later ∧ later.state = .unauthenticated ∧
      (refusal = .missing ∨ refusal = .invalid) ∧
      later.reply = some (.error (Refusal.message refusal))

/-- The credential is checked in the next step of the session. -/
theorem IsUnclaimed.checks (h : service.IsUnclaimed number session) (credential : Option String) :
    ∃ waiting : Service, service.authenticate number credential = waiting ∧
      waiting.settings = service.settings ∧ waiting.database = service.database ∧
      waiting.sessions[number]? = some (session.await (.checking credential)) ∧
      waiting.sessionStep? number = some
        (waiting.checkCredential number (session.await (.checking credential)) credential) := by
  refine ⟨service.updateSession number (·.await (.checking credential)), ?_, rfl, rfl, ?_⟩
  · rw [authenticate, withIdle_of_idle h.found h.idle, beginCheck, if_pos h.state]
  · have hfound : (service.updateSession number (·.await (.checking credential))).sessions[number]? =
        some (session.await (.checking credential)) := by
      rw [updateSession, List.getElem?_modify_eq, h.found]
      rfl
    refine ⟨hfound, ?_⟩
    rw [sessionStep?, hfound]
    rfl

theorem IsUnclaimed.opensAs (h : service.IsUnclaimed number session)
    (haccepts : Access.authenticate service.settings.auth service.database (some credential) =
      .ok identity) : service.OpensAs number credential identity := by
  obtain ⟨waiting, hwaiting, hsettings, hdatabase, hfound, hstep⟩ := h.checks (some credential)
  rw [← hsettings, ← hdatabase] at haccepts
  rw [OpensAs, hwaiting]
  refine ⟨_, { session with state := .authenticated, identity := some identity }.answer
    (some (.authenticated identity)), hstep, ?_, rfl, rfl, rfl⟩
  rw [checkCredential, haccepts]
  exact List.getElem?_set_self (List.getElem?_eq_some_iff.mp hfound).1

theorem IsUnclaimed.rejects (h : service.IsUnclaimed number session) {refusal : Refusal}
    (hrefuses : Access.authenticate service.settings.auth service.database (some credential) =
      .error refusal) (hrefusal : refusal = .missing ∨ refusal = .invalid) :
    service.Rejects number credential := by
  obtain ⟨waiting, hwaiting, hsettings, hdatabase, hfound, hstep⟩ := h.checks (some credential)
  rw [← hsettings, ← hdatabase] at hrefuses
  rw [Rejects, hwaiting]
  refine ⟨_, session.answer (some (.error refusal.message)), refusal, hstep, ?_, h.state,
    hrefusal, rfl⟩
  simp only [checkCredential, hrefuses, answer, updateSession, List.getElem?_modify_eq, hfound]
  rfl

/-- No credential is accepted and rejected. -/
theorem Rejects.not_opensAs (h : service.Rejects number credential) (identity : String) :
    ¬ service.OpensAs number credential identity := by
  obtain ⟨next, later, refusal, hstep, hlater, hstate, -⟩ := h
  rintro ⟨same, found, hsame, hfound, hopen, -⟩
  obtain rfl := Option.some.inj (hstep.symm.trans hsame)
  obtain rfl := Option.some.inj (hlater.symm.trans hfound)
  cases hstate.symm.trans hopen

/-- A session of a service that knows tokens from its settings and from calls that stored
them, in a table that was empty before. -/
structure Provides (service : Service) (number : Nat) (session : Session) (database : Database)
    (gifts : List (String × String)) : Prop where
  unclaimed : service.IsUnclaimed number session
  enabled : service.settings.auth.disabled = false
  empty : database.tokens.entries = []
  isOpen : database.isOpen = true
  provided : service.database = database.provide gifts

theorem Provides.opensAs (h : service.Provides number session database gifts)
    (hapart : HashesApart (trimmed credential :: gifts.map Prod.fst))
    (hfilled : trimmed credential ≠ "")
    (howner : provisionedOwner? service.settings.auth gifts (trimmed credential) =
      some identity) : service.OpensAs number credential identity := by
  have haccepts := authenticate_provide h.enabled h.empty h.isOpen hapart
  rw [← h.provided, if_neg hfilled, howner] at haccepts
  exact h.unclaimed.opensAs haccepts

theorem Provides.rejects (h : service.Provides number session database gifts)
    (hapart : HashesApart (trimmed credential :: gifts.map Prod.fst))
    (hreason : trimmed credential = "" ∨
      provisionedOwner? service.settings.auth gifts (trimmed credential) = none) :
    service.Rejects number credential := by
  have hrefuses := authenticate_provide h.enabled h.empty h.isOpen hapart
  rw [← h.provided] at hrefuses
  by_cases hblank : trimmed credential = ""
  · rw [if_pos hblank] at hrefuses
    exact h.unclaimed.rejects hrefuses (.inl rfl)
  · rw [if_neg hblank, hreason.resolve_left hblank] at hrefuses
    exact h.unclaimed.rejects hrefuses (.inr rfl)

/-- A session belongs to one identity. -/
theorem OpensAs.unique {other : String} (h : service.OpensAs number credential identity)
    (h' : service.OpensAs number credential other) : identity = other := by
  obtain ⟨next, later, hstep, hlater, -, hidentity, -⟩ := h
  obtain ⟨same, found, hsame, hfound, -, hother, -⟩ := h'
  obtain rfl := Option.some.inj (hstep.symm.trans hsame)
  obtain rfl := Option.some.inj (hlater.symm.trans hfound)
  exact Option.some.inj (hidentity.symm.trans hother)

/-- **A credential opens a session as the owner of its token.**  The token is what the
credential is without the blanks at its ends, and its owner is who the first entry of the
settings for it names, or else who was given it last.  So a token that has no blanks at its
ends, and is not empty, opens a session as its owner, whoever else was given one before or
after.  A credential whose token nobody owns is rejected. -/
theorem opensAs_iff_of_provides (h : service.Provides number session database gifts)
    (hapart : HashesApart (trimmed credential :: gifts.map Prod.fst)) :
    (∀ identity, service.OpensAs number credential identity ↔ trimmed credential ≠ "" ∧
      provisionedOwner? service.settings.auth gifts (trimmed credential) = some identity) ∧
    (∀ identity, provisionedOwner? service.settings.auth gifts credential = some identity →
      Trimmed credential → credential ≠ "" → service.OpensAs number credential identity) ∧
    (trimmed credential = "" ∨
        provisionedOwner? service.settings.auth gifts (trimmed credential) = none →
      service.Rejects number credential) := by
  refine ⟨fun identity => ⟨fun hopen => ?_, fun howner => h.opensAs hapart howner.1 howner.2⟩,
    fun identity howner htrimmed hfilled => ?_, h.rejects hapart⟩
  · have hfilled : trimmed credential ≠ "" :=
      fun hblank => (h.rejects hapart (.inl hblank)).not_opensAs identity hopen
    cases howner : provisionedOwner? service.settings.auth gifts (trimmed credential) with
    | none => exact absurd hopen ((h.rejects hapart (.inr howner)).not_opensAs identity)
    | some other =>
        rw [hopen.unique (h.opensAs hapart hfilled howner)]
        exact ⟨hfilled, rfl⟩
  · rw [← htrimmed] at howner hfilled
    exact h.opensAs hapart hfilled howner

/-- A service that knows these tokens, with a session that nobody has been accepted in. -/
def tokenService (entries : List TokenEntry) (gifts : List (String × String)) : Service where
  settings := { auth := { tokens := entries } }
  database := ({} : Database).provide gifts
  events := { capacity := 1 }
  sessions := [{ id := (Supply.stamp {}).id, outbox := { capacity := 1 } }]

theorem provides_tokenService (entries : List TokenEntry) (gifts : List (String × String)) :
    (tokenService entries gifts).Provides 0
      { id := (Supply.stamp {}).id, outbox := { capacity := 1 } } {} gifts where
  unclaimed := ⟨rfl, rfl, rfl⟩
  enabled := rfl
  empty := rfl
  isOpen := rfl
  provided := rfl

/-- A token of the settings and a stored one, with a blank at an end of each. -/
def blankEntries : List TokenEntry :=
  [⟨"x ", "alice"⟩]

def blankGifts : List (String × String) :=
  [(" y", "bob")]

/-- Both tokens are rejected, though they have owners and no two of the tokens have the same
hash. -/
theorem rejects_blank : HashesApart ["x ", "x", " y", "y"] ∧
    provisionedOwner? { tokens := blankEntries } blankGifts "x " = some "alice" ∧
    (tokenService blankEntries blankGifts).Rejects 0 "x " ∧
    provisionedOwner? { tokens := blankEntries } blankGifts " y" = some "bob" ∧
    (tokenService blankEntries blankGifts).Rejects 0 " y" := by
  have hapart : HashesApart ["x ", "x", " y", "y"] := by
    unfold HashesApart
    decide +kernel
  have hunowned : ∀ token ∈ ["x", "y"],
      provisionedOwner? { tokens := blankEntries } blankGifts token = none := by decide +kernel
  have hrejects : ∀ token, trimmed token ∈ ["x", "y"] →
      (tokenService blankEntries blankGifts).Rejects 0 token := by
    intro token hplain
    refine (provides_tokenService blankEntries blankGifts).rejects
      (hapart.mono (List.cons_subset.mpr ⟨?_, ?_⟩)) (.inr (hunowned _ hplain))
    · have hplains : ["x", "y"] ⊆ ["x ", "x", " y", "y"] := by decide
      exact hplains hplain
    · decide
  exact ⟨hapart, by decide +kernel, hrejects "x " (by decide +kernel), by decide +kernel,
    hrejects " y" (by decide +kernel)⟩

theorem opensAs_iff_trimmedGift :
    let entries : List TokenEntry := [⟨"x", "alice"⟩]
    let gifts := [("y", "bob"), ("z", "carol"), ("y", "dave")]
    HashesApart ["y", "y", "z", "y"] ∧ (tokenService entries gifts).OpensAs 0 " y " "dave" := by
  intro entries gifts
  have hapart : HashesApart ["y", "y", "z", "y"] := by
    unfold HashesApart
    decide +kernel
  have htrimmed : trimmed " y " = "y" := by decide +kernel
  have hprovided : HashesApart (trimmed " y " :: gifts.map Prod.fst) := by
    rw [htrimmed]
    exact hapart
  have hopens := (opensAs_iff_of_provides (provides_tokenService entries gifts) hprovided).1 "dave"
  refine ⟨hapart, hopens.mpr ?_⟩
  rw [htrimmed]
  decide +kernel

end Service

end PlcTags
