import Mathlib.Data.List.Induction
import PlcTags.Proofs.Service.History
import PlcTags.Proofs.Store.Agreement

/-!
# Merges one after the other

What the calls of a history come to if they are made one after the other, each from its
beginning to its end, is kept in a `Ledger`.  The database refuses in each call what it
refused in the run, at the same tags; stamps are handed out in the new order.

Calls on one project do not see those on others (`agreeOn_serially`), so calls on different
projects can change places, and it is enough to look at each project alone
(`areResults_of_callsOn`).
-/

namespace PlcTags

open Live

/-- A database as it was, but with what is stored now. -/
def Database.withStore (database : Database) (store : Store) : Database :=
  { database with store }

/-- One tag, as things were at its turn, but with what is stored now. -/
def MergeRun.turn (run : MergeRun) (turn : Tag × Database) : MergeRun :=
  { run with database := turn.2.withStore run.database.store }.take turn.1

/-- The merge of a call on a store, as far as it had got. -/
def Live.MergeCall.run (call : MergeCall) (store : Store) (supply : Supply) :
    Except Failure MergeRun :=
  ((call.loading.withStore store).list call.project).map fun stored =>
    (call.batch.zip call.turns).foldl MergeRun.turn
      ⟨.start call.project call.origin stored, call.loading.withStore store, supply⟩

/-- What calls that were made one after the other have come to. -/
structure Ledger where
  store : Store
  supply : Supply
  results : List (Except Failure MergeReport) := []

/-- One more call. -/
def Ledger.serve (ledger : Ledger) (call : MergeCall) : Ledger :=
  match call.run ledger.store ledger.supply with
  | .ok run =>
    { store := run.database.store, supply := run.supply,
      results := ledger.results ++ [.ok run.merge.report] }
  | .error failure => { ledger with results := ledger.results ++ [.error failure] }

/-- Calls one after the other. -/
def serially (store : Store) (supply : Supply) (calls : List MergeCall) : Ledger :=
  calls.foldl Ledger.serve { store, supply }

theorem serially_concat (store : Store) (supply : Supply) (calls : List MergeCall)
    (call : MergeCall) :
    serially store supply (calls ++ [call]) = (serially store supply calls).serve call := by
  rw [serially, serially, List.foldl_append]
  rfl

open Store (AgreeOn)

/-! ## Stores that agree -/

namespace MergeRun

variable {run other : MergeRun} {turns : List (Tag × Database)} {project : Int}

/-- Two runs are at the same point of a merge. -/
structure Agree (run other : MergeRun) : Prop where
  merge : run.merge = other.merge
  stores : AgreeOn run.merge.project run.database.store other.database.store

theorem project_turn (run : MergeRun) (turn : Tag × Database) :
    (run.turn turn).merge.project = run.merge.project :=
  (run.merge.step_frame _ _ turn.1).1

theorem Agree.turn (h : run.Agree other) (turn : Tag × Database) :
    (run.turn turn).Agree (other.turn turn) := by
  have hstores : AgreeOn run.merge.project (turn.2.withStore run.database.store).store
      (turn.2.withStore other.database.store).store := h.stores
  obtain ⟨hmerge, hafter⟩ := Merge.agreeOn_step hstores turn.1 (fun _ => rfl) run.supply.stamp
    other.supply.stamp
  constructor
  · rw [MergeRun.turn, MergeRun.turn, take, take, ← h.merge]
    exact hmerge
  · rw [project_turn, MergeRun.turn, MergeRun.turn, take, take, ← h.merge]
    exact hafter

theorem Agree.foldl_turn (h : run.Agree other) :
    (turns.foldl MergeRun.turn run).Agree (turns.foldl MergeRun.turn other) := by
  induction turns generalizing run other with
  | nil => exact h
  | cons turn turns ih => exact ih (h.turn turn)

theorem project_turns (run : MergeRun) (turns : List (Tag × Database)) :
    (turns.foldl MergeRun.turn run).merge.project = run.merge.project := by
  induction turns generalizing run with
  | nil => rfl
  | cons turn turns ih =>
      rw [List.foldl_cons, ih]
      exact run.project_turn turn

theorem agreeOn_turns_of_ne (hne : project ≠ run.merge.project) :
    AgreeOn project (turns.foldl MergeRun.turn run).database.store run.database.store := by
  induction turns generalizing run with
  | nil => exact .refl _
  | cons turn turns ih =>
      refine (ih ?_).trans ?_
      · rw [project_turn]
        exact hne
      · exact Store.agreeOn_of_findRow? (run.merge.findRow?_step_of_ne hne _ _ turn.1)

end MergeRun

namespace Live.MergeCall

variable {call : MergeCall} {store other : Store} {supply : Supply} {project : Int}

/-- A project is read in the same way from stores that agree on it. -/
theorem list_withStore_congr (h : AgreeOn project store other) (database : Database) :
    ((database.withStore store).list project).map (List.map StoredTag.tag) =
      ((database.withStore other).list project).map (List.map StoredTag.tag) := by
  unfold Database.list Database.ifOpen Database.withStore
  dsimp only
  split
  · rfl
  · split
    · exact h.list
    · rfl

/-- **A call does the same** on stores that agree on its project. -/
theorem run_congr (h : AgreeOn call.project store other) (supply supply' : Supply) :
    (∃ failure, call.run store supply = .error failure ∧
        call.run other supply' = .error failure) ∨
      ∃ run run', call.run store supply = .ok run ∧ call.run other supply' = .ok run' ∧
        run.Agree run' ∧ run.merge.project = call.project := by
  have hlists := list_withStore_congr h call.loading
  unfold run
  cases hlist : (call.loading.withStore store).list call.project with
  | error failure =>
      cases hlist' : (call.loading.withStore other).list call.project with
      | error failure' =>
          rw [hlist, hlist'] at hlists
          exact .inl ⟨failure, rfl, congrArg Except.error (Except.error.inj hlists).symm⟩
      | ok stored =>
          rw [hlist, hlist'] at hlists
          cases hlists
  | ok stored =>
      cases hlist' : (call.loading.withStore other).list call.project with
      | error failure =>
          rw [hlist, hlist'] at hlists
          cases hlists
      | ok stored' =>
          rw [hlist, hlist'] at hlists
          refine .inr ⟨_, _, rfl, rfl, MergeRun.Agree.foldl_turn ⟨?_, h⟩,
            MergeRun.project_turns _ _⟩
          exact Merge.start_congr (Except.ok.inj hlists) call.project call.origin

/-- A call that has just read its project begins with the same tags. -/
theorem run_of_list {stored : List StoredTag}
    (h : AgreeOn call.project call.loading.store store)
    (hlist : call.loading.list call.project = .ok stored) (hturns : call.turns = [])
    (supply : Supply) :
    ∃ run, call.run store supply = .ok run ∧
      run.merge = .start call.project call.origin stored ∧ run.database.store = store := by
  have hlists := list_withStore_congr h call.loading
  have hown : (call.loading.withStore call.loading.store).list call.project = .ok stored := hlist
  rw [hown] at hlists
  obtain ⟨listed, hlisted, htags⟩ := exists_of_map_eq_ok hlists.symm
  refine ⟨⟨.start call.project call.origin listed, call.loading.withStore store, supply⟩,
    ?_, Merge.start_congr htags call.project call.origin, rfl⟩
  unfold MergeCall.run
  rw [hlisted, hturns, List.zip_nil_right]
  rfl

theorem run_of_unlisted {failure : Failure}
    (h : AgreeOn call.project call.loading.store store)
    (hlist : call.loading.list call.project = .error failure) (supply : Supply) :
    call.run store supply = .error failure := by
  have hlists := list_withStore_congr h call.loading
  have hown : (call.loading.withStore call.loading.store).list call.project = .error failure :=
    hlist
  rw [hown] at hlists
  unfold MergeCall.run
  cases hlisted : (call.loading.withStore store).list call.project with
  | error other =>
      rw [hlisted] at hlists
      exact congrArg Except.error (Except.error.inj hlists).symm
  | ok listed =>
      rw [hlisted] at hlists
      cases hlists

/-- A call that has got as far as this takes one more tag. -/
theorem run_concat {taken rest : List Tag} {tag : Tag} {run : MergeRun} (database : Database)
    (keys : List String) (hbatch : call.batch = taken ++ tag :: rest)
    (hturns : taken.length = call.turns.length) (hrun : call.run store supply = .ok run) :
    { call with
      turns := call.turns ++ [database]
      inserted := keys }.run store supply = .ok (run.turn (tag, database)) := by
  have hzip : ∀ turns, call.batch.zip (call.turns ++ turns) =
      taken.zip call.turns ++ (tag :: rest).zip turns := by
    intro turns
    rw [hbatch, List.zip_append hturns]
  have hbefore := hzip []
  rw [List.append_nil, List.zip_nil_right, List.append_nil] at hbefore
  unfold MergeCall.run at hrun ⊢
  dsimp only at hrun ⊢
  obtain ⟨stored, hlist, hfolded⟩ := exists_of_map_eq_ok hrun
  rw [hlist, ← hfolded, hbefore, hzip]
  refine congrArg Except.ok ?_
  dsimp only
  rw [List.foldl_append, List.zip_cons_cons, List.zip_nil_right]
  rfl

/-- A call leaves the other projects alone. -/
theorem agreeOn_run_of_ne {run : MergeRun} (hne : project ≠ call.project)
    (hrun : call.run store supply = .ok run) : AgreeOn project run.database.store store := by
  unfold MergeCall.run at hrun
  cases hlist : (call.loading.withStore store).list call.project with
  | error failure =>
      rw [hlist] at hrun
      cases hrun
  | ok stored =>
      rw [hlist] at hrun
      obtain rfl := Except.ok.inj hrun
      exact MergeRun.agreeOn_turns_of_ne hne

end Live.MergeCall

/-! ## Calls on different projects -/

namespace Ledger

variable {ledger other : Ledger} {call : MergeCall} {project : Int}

/-- What a call comes to. -/
def result (ledger : Ledger) (call : MergeCall) : Except Failure MergeReport :=
  (call.run ledger.store ledger.supply).map (·.merge.report)

theorem results_serve (ledger : Ledger) (call : MergeCall) :
    (ledger.serve call).results = ledger.results ++ [ledger.result call] := by
  unfold serve result
  split <;> rename_i hrun <;> rw [hrun] <;> rfl

theorem serve_of_ok {run : MergeRun} (h : call.run ledger.store ledger.supply = .ok run) :
    (ledger.serve call).store = run.database.store ∧ ledger.result call = .ok run.merge.report := by
  unfold serve result
  rw [h]
  exact ⟨rfl, rfl⟩

theorem serve_of_error {failure : Failure}
    (h : call.run ledger.store ledger.supply = .error failure) :
    (ledger.serve call).store = ledger.store ∧ ledger.result call = .error failure := by
  unfold serve result
  rw [h]
  exact ⟨rfl, rfl⟩

theorem agreeOn_serve (h : AgreeOn call.project ledger.store other.store) :
    ledger.result call = other.result call ∧
      AgreeOn call.project (ledger.serve call).store (other.serve call).store := by
  unfold result serve
  rcases MergeCall.run_congr h ledger.supply other.supply with
    ⟨failure, hrun, hrun'⟩ | ⟨run, run', hrun, hrun', hagree, hproject⟩
  · rw [hrun, hrun']
    exact ⟨rfl, h⟩
  · rw [hrun, hrun']
    refine ⟨?_, hproject ▸ hagree.stores⟩
    show Except.ok run.merge.report = Except.ok run'.merge.report
    rw [hagree.merge]

theorem agreeOn_serve_of_ne (hne : project ≠ call.project) :
    AgreeOn project (ledger.serve call).store ledger.store := by
  unfold serve
  split
  · rename_i run hrun
    exact MergeCall.agreeOn_run_of_ne hne hrun
  · exact .refl _

end Ledger

/-- The calls on a project. -/
def callsOn (project : Int) (calls : List MergeCall) : List MergeCall :=
  calls.filter (·.project == project)

theorem callsOn_concat_of_eq {project : Int} {call : MergeCall} (hown : call.project = project)
    (calls : List MergeCall) :
    callsOn project (calls ++ [call]) = callsOn project calls ++ [call] := by
  simp [callsOn, hown]

theorem callsOn_concat_of_ne {project : Int} {call : MergeCall} (hne : call.project ≠ project)
    (calls : List MergeCall) : callsOn project (calls ++ [call]) = callsOn project calls := by
  simp [callsOn, hne]

theorem callsOn_of_not_mem {project : Int} {calls : List MergeCall}
    (h : project ∉ calls.map MergeCall.project) : callsOn project calls = [] := by
  refine List.filter_eq_nil_iff.mpr ?_
  intro call hcall hproject
  exact h (List.mem_map.mpr ⟨call, hcall, beq_iff_eq.mp hproject⟩)

/-- The calls on a project come to the same without all others. -/
theorem agreeOn_serially (store : Store) (supply : Supply) (calls : List MergeCall)
    (project : Int) : AgreeOn project (serially store supply calls).store
      (serially store supply (callsOn project calls)).store := by
  induction calls using List.reverseRecOn with
  | nil => exact .refl store
  | append_singleton calls call ih =>
      rw [serially_concat]
      by_cases hproject : call.project = project
      · subst hproject
        rw [callsOn_concat_of_eq rfl, serially_concat]
        exact (Ledger.agreeOn_serve ih).2
      · rw [callsOn_concat_of_ne hproject]
        exact (Ledger.agreeOn_serve_of_ne (Ne.symm hproject)).trans ih

/-- What has been returned is what the calls come to. -/
def AreResults (calls : List MergeCall) (results : List (Except Failure MergeReport)) : Prop :=
  List.Forall₂ (fun call result => ∀ returned, call.returned = some returned → returned = result)
    calls results

theorem areResults_concat {calls : List MergeCall} {call : MergeCall} {ledger : Ledger} :
    AreResults (calls ++ [call]) (ledger.serve call).results ↔
      AreResults calls ledger.results ∧
        ∀ returned, call.returned = some returned → returned = ledger.result call := by
  rw [Ledger.results_serve]
  unfold AreResults
  rw [← List.forall₂_reverse_iff, List.reverse_concat, List.reverse_concat, List.forall₂_cons,
    List.forall₂_reverse_iff, and_comm]

theorem AreResults.map_returned {calls : List MergeCall}
    {results : List (Except Failure MergeReport)} (h : AreResults calls results)
    (hall : ∀ call ∈ calls, call.returned.isSome = true) :
    calls.map (·.returned) = results.map some := by
  induction h with
  | nil => rfl
  | @cons call result calls results hfirst hrest ih =>
      obtain ⟨returned, hreturned⟩ := Option.isSome_iff_exists.mp (hall call List.mem_cons_self)
      rw [List.map_cons, List.map_cons, hreturned, hfirst returned hreturned,
        ih fun call hcall => hall call (List.mem_cons_of_mem _ hcall)]

/-- **Each project can be looked at alone.** -/
theorem areResults_of_callsOn {store : Store} {supply : Supply} {calls : List MergeCall}
    (h : ∀ project, AreResults (callsOn project calls)
      (serially store supply (callsOn project calls)).results) :
    AreResults calls (serially store supply calls).results := by
  induction calls using List.reverseRecOn with
  | nil => exact .nil
  | append_singleton calls call ih =>
      rw [serially_concat, areResults_concat]
      constructor
      · apply ih
        intro project
        have hproject := h project
        by_cases hown : call.project = project
        · subst hown
          rw [callsOn_concat_of_eq rfl, serially_concat, areResults_concat] at hproject
          exact hproject.1
        · rwa [callsOn_concat_of_ne hown] at hproject
      · have hown := h call.project
        rw [callsOn_concat_of_eq rfl, serially_concat, areResults_concat] at hown
        intro returned hreturned
        rw [(Ledger.agreeOn_serve (agreeOn_serially store supply calls call.project)).1]
        exact hown.2 returned hreturned

end PlcTags
