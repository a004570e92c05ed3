import Mathlib.Tactic.IntervalCases
import PlcTags.Proofs.Service.Merge
import PlcTags.Proofs.Service.Turns

/-!
# Merges are serializable

However the steps of jobs are interleaved, the merges of a run come to what they would come
to one after the other, in the order in which they got their turns.  This is shown for one
project at a time: as long as nobody else writes into it, its rows agree with what its
calls have come to so far, and the merge that is on its way agrees with its call
(`Serialized`).
-/

namespace PlcTags.Service

open Live
open Store (AgreeOn)

variable {service next : Service} {move : Move} {number : Nat} {stage : Stage}
  {calls later : List MergeCall} {project : Int} {first : Store} {supply : Supply}

/-! ## One project -/

/-- The merge of a job is that of its call, before which the calls had come to this. -/
structure Agrees (service : Service) (ledger : Ledger) (call : MergeCall) (merge : Merge) :
    Prop where
  run : ∃ run, call.run ledger.store ledger.supply = .ok run ∧ run.merge = merge
  knows : merge.Knows service.database.store
  counted : merge.report.inserted = call.inserted.length

/-- The calls on a project so far, and its rows, are those of calls one after the other. -/
structure Serialized (service : Service) (first : Store) (supply : Supply) (project : Int)
    (calls : List MergeCall) : Prop where
  stores : AgreeOn project service.database.store (serially first supply calls).store
  results : AreResults calls (serially first supply calls).results
  gains : first.Gains project (calls.flatMap (·.inserted)) service.database.store
  merging : ∀ {number : Nat} {merge : Merge} {rest : List Tag} {done : List MergeCall}
    {call : MergeCall}, service.MergesAt project number merge rest → calls = done ++ [call] →
      service.Agrees (serially first supply done) call merge
  reported : ∀ call ∈ calls, ∀ report, call.returned = some (.ok report) →
    report.inserted = call.inserted.length

/-- What happens elsewhere does not matter. -/
theorem Serialized.quiet (h : service.Serialized first supply project calls)
    (hturns : service.InTurn project calls)
    (hstore : AgreeOn project next.database.store service.database.store)
    (hmerging : ∀ {number : Nat} {merge : Merge} {rest : List Tag},
      next.MergesAt project number merge rest ↔ service.MergesAt project number merge rest) :
    next.Serialized first supply project calls where
  stores := hstore.trans h.stores
  results := h.results
  gains := h.gains.congr hstore.isSome
  merging := by
    intro number merge rest done call hmerges hcalls
    have hbefore := hmerging.mp hmerges
    have hagrees := h.merging hbefore hcalls
    obtain ⟨done', call', hcalls', -, hunderway, -⟩ := hturns.merging hbefore
    have hown : merge.project = project :=
      hunderway.project.trans (hturns.own call' (by simp [hcalls']))
    exact { hagrees with knows := hagrees.knows.of_agreeOn (hown ▸ hstore) }
  reported := h.reported

theorem Serialized.load {origin : Origin} {batch : List Tag} {stored : List StoredTag}
    (h : service.Serialized first supply project calls)
    (hloads : service.database.list project = .ok stored)
    (hnow : ∀ {other : Nat} {merge : Merge} {rest : List Tag},
      next.MergesAt project other merge rest ↔
        other = number ∧ merge = .start project origin stored ∧ rest = batch)
    (hdatabase : next.database = service.database) :
    next.Serialized first supply project (calls ++
      [{ number, project, origin, batch, loading := service.database }]) := by
  let call : MergeCall := { number, project, origin, batch, loading := service.database }
  obtain ⟨run, hrun, hmerge, hstore⟩ : ∃ run, call.run _ _ = .ok run ∧ _ ∧ _ :=
    MergeCall.run_of_list h.stores hloads rfl (serially first supply calls).supply
  constructor
  · rw [serially_concat, (Ledger.serve_of_ok hrun).1, hstore, hdatabase]
    exact h.stores
  · rw [serially_concat, areResults_concat]
    exact ⟨h.results, nofun⟩
  · rw [List.flatMap_append, List.flatMap_singleton, List.append_nil, hdatabase]
    exact h.gains
  · intro other merge rest done last hmerges hcalls
    obtain ⟨rfl, hlast⟩ := List.append_inj' hcalls rfl
    obtain rfl := List.singleton_inj.mp hlast
    obtain ⟨rfl, rfl, rfl⟩ := hnow.mp hmerges
    refine ⟨⟨run, hrun, hmerge⟩, ?_, rfl⟩
    rw [hdatabase]
    exact Merge.knows_start (Database.list_eq_ok hloads) origin
  · exact forall_mem_concat h.reported nofun

theorem Serialized.fail {origin : Origin} {batch : List Tag} {failure : Failure}
    (h : service.Serialized first supply project calls)
    (hfails : service.database.list project = .error failure)
    (hnow : ∀ {other : Nat} {merge : Merge} {rest : List Tag},
      ¬ next.MergesAt project other merge rest)
    (hdatabase : next.database = service.database) :
    next.Serialized first supply project (calls ++
      [{ number, project, origin, batch, loading := service.database,
         returned := some (.error failure) }]) := by
  let call : MergeCall :=
    { number, project, origin, batch, loading := service.database,
      returned := some (.error failure) }
  have hrun : call.run _ _ = .error failure :=
    MergeCall.run_of_unlisted h.stores hfails (serially first supply calls).supply
  constructor
  · rw [serially_concat, (Ledger.serve_of_error hrun).1, hdatabase]
    exact h.stores
  · rw [serially_concat, areResults_concat, (Ledger.serve_of_error hrun).2]
    exact ⟨h.results, fun returned hreturned => (Option.some.inj hreturned).symm⟩
  · rw [List.flatMap_append, List.flatMap_singleton, List.append_nil, hdatabase]
    exact h.gains
  · exact fun hmerges => absurd hmerges hnow
  · exact forall_mem_concat h.reported nofun

/-- What a merge counts as new is new. -/
theorem inserted_of_take {merge : Merge} {tag : Tag} {keys : List String}
    {after : Merge × Database}
    (hafter : merge.step service.supply.stamp service.database tag = after)
    (hknows : merge.Knows service.database.store)
    (hgains : first.Gains merge.project keys service.database.store) :
    ∃ more, (if merge.report.inserted < after.1.report.inserted then [tag.key] else []) = more ∧
      after.1.report.inserted = merge.report.inserted + more.length ∧
      first.Gains merge.project (keys ++ more) after.2.store := by
  subst hafter
  rcases Merge.inserts_or_none hknows service.supply.stamp tag with hinserts | hnone
  · refine ⟨[tag.key], ?_, hinserts.counted, hgains.inserts hinserts⟩
    rw [hinserts.counted, if_pos (Nat.lt_succ_self _)]
  · refine ⟨[], ?_, hnone.counted, ?_⟩
    · rw [hnone.counted, if_neg (Nat.lt_irrefl _)]
    · rw [List.append_nil]
      exact hgains.congr hnone.present

theorem Serialized.take {merge : Merge} {tag : Tag} {rest : List Tag}
    (h : service.Serialized first supply project calls)
    (hturns : service.InTurn project calls)
    (hmerges : service.MergesAt project number merge (tag :: rest))
    (hnow : ∀ {other : Nat} {after : Merge} {left : List Tag},
      next.MergesAt project other after left ↔ other = number ∧
        after = (merge.step service.supply.stamp service.database tag).1 ∧ left = rest)
    (hdatabase : next.database = (merge.step service.supply.stamp service.database tag).2) :
    next.Serialized first supply project (onCall number (fun call =>
      { call with
        turns := call.turns ++ [service.database]
        inserted := call.inserted ++
          if merge.report.inserted <
            (merge.step service.supply.stamp service.database tag).1.report.inserted
          then [tag.key] else [] }) calls) := by
  obtain ⟨done, call, rfl, rfl, ⟨hown, hreturned, taken, hbatch, hlength⟩, hearlier, -⟩ :=
    hturns.merging hmerges
  obtain ⟨⟨run, hrun, rfl⟩, hknows, hcounted⟩ := h.merging hmerges rfl
  have hproject : run.merge.project = project := hown.trans (hturns.own call (by simp))
  rw [onCall_concat hearlier]
  -- The same tag is taken by the merge of the service and by that of the call.
  have hstores := h.stores
  have hresults := h.results
  rw [serially_concat] at hstores hresults
  rw [(Ledger.serve_of_ok hrun).1] at hstores
  have hagree : (MergeRun.mk run.merge service.database service.supply).Agree run :=
    ⟨rfl, hproject ▸ hstores⟩
  obtain ⟨hmerge, hafter⟩ := hagree.turn (tag, service.database)
  rw [MergeRun.project_turn, hproject] at hafter
  have hgains := h.gains
  rw [← hproject] at hgains
  obtain ⟨more, hmore, hinserted, hgained⟩ := inserted_of_take rfl hknows hgains
  rw [hproject, List.flatMap_append, List.flatMap_singleton, List.append_assoc] at hgained
  rw [hmore]
  have hnext := MergeCall.run_concat service.database (call.inserted ++ more) hbatch hlength hrun
  constructor
  · rw [serially_concat, (Ledger.serve_of_ok hnext).1, hdatabase]
    exact hafter
  · rw [serially_concat, areResults_concat]
    refine ⟨(areResults_concat.mp hresults).1, ?_⟩
    intro returned hreport
    cases hreturned.symm.trans hreport
  · rw [List.flatMap_append, List.flatMap_singleton, hdatabase]
    exact hgained
  · intro other after left done' last hafter hcalls
    obtain ⟨rfl, hlast⟩ := List.append_inj' hcalls rfl
    obtain rfl := List.singleton_inj.mp hlast
    obtain ⟨-, rfl, -⟩ := hnow.mp hafter
    refine ⟨⟨_, hnext, hmerge.symm⟩, ?_, ?_⟩
    · rw [hdatabase]
      exact hknows.step _ tag
    · rw [hinserted, hcounted, List.length_append]
  · refine forall_mem_concat (List.forall_mem_append.mp h.reported).1 ?_
    exact fun report hreport => by cases hreturned.symm.trans hreport

theorem Serialized.finish {merge : Merge} (h : service.Serialized first supply project calls)
    (hturns : service.InTurn project calls) (hmerges : service.MergesAt project number merge [])
    (hnow : ∀ {other : Nat} {after : Merge} {left : List Tag},
      ¬ next.MergesAt project other after left)
    (hdatabase : next.database = service.database) :
    next.Serialized first supply project
      (onCall number ({ · with returned := some (.ok merge.report) }) calls) := by
  obtain ⟨done, call, rfl, rfl, -, hearlier, -⟩ := hturns.merging hmerges
  obtain ⟨⟨run, hrun, rfl⟩, hknows, hcounted⟩ := h.merging hmerges rfl
  rw [onCall_concat hearlier]
  have hstores := h.stores
  have hresults := h.results
  rw [serially_concat] at hstores hresults
  constructor
  · rw [serially_concat, hdatabase]
    exact hstores
  · rw [serially_concat, areResults_concat]
    refine ⟨(areResults_concat.mp hresults).1, ?_⟩
    intro returned hreturned
    rw [← Option.some.inj hreturned]
    exact (Ledger.serve_of_ok hrun).2.symm
  · have hgains := h.gains
    rw [List.flatMap_append, List.flatMap_singleton] at hgains ⊢
    rw [hdatabase]
    exact hgains
  · exact fun hafter => absurd hafter hnow
  · refine forall_mem_concat (List.forall_mem_append.mp h.reported).1 ?_
    intro report hreport
    obtain rfl := Except.ok.inj (Option.some.inj hreport)
    exact hcounted

/-- **The calls on a project stay serialized** with every move but a write of somebody else. -/
theorem Serialized.go (h : service.Serialized first supply project calls)
    (hturns : service.InTurn project calls)
    (hspared : ∀ database, move = .access database →
      AgreeOn project database.store service.database.store)
    (hgo : TurnGo service move project next calls later) :
    next.Serialized first supply project later := by
  cases hgo with
  | quiet hstore hmerging =>
      refine h.quiet hturns ?_ hmerging
      rcases hstore with hstore | ⟨database, hmove, hdatabase⟩
      · exact Store.agreeOn_of_findRow? hstore
      · rw [hdatabase]
        exact hspared database hmove
  | load hfree hloads hnow hdatabase => exact h.load hloads hnow hdatabase
  | fail hfree hfails hnow hdatabase => exact h.fail hfails hnow hdatabase
  | take hmerges hnow hdatabase => exact h.take hturns hmerges hnow hdatabase
  | finish hmerges hnow hdatabase => exact h.finish hturns hmerges hnow hdatabase

/-! ## Runs -/

/-- A job at this stage is in the middle of its merge. -/
def isMerging : Stage → Bool
  | .merging .. => true
  | _ => false

namespace Run

/-- Until a moment nobody but the jobs writes into a project. -/
def Spares (run : Run) (moment : ℕ) (project : Int) : Prop :=
  ∀ earlier < moment, ∀ database, run.moves earlier = .access database →
    database.store.projectRows project =
      (run.state earlier).database.store.projectRows project

/-- **A project to which nobody else writes is serialized** at every moment. -/
theorem serialized (run : Run) {moment : ℕ} (hspares : run.Spares moment project)
    (supply : Supply) :
    (run.state moment).Serialized run.first.database.store supply project
      (callsOn project (run.calls moment)) := by
  induction moment with
  | zero =>
      exact ⟨.refl _, .nil, .nil _ _, fun hmerges => absurd hmerges run.not_mergesAt_zero,
        List.forall_mem_nil _⟩
  | succ moment ih =>
      have hearlier : run.Spares moment project :=
        fun earlier hlt => hspares earlier (Nat.lt_succ_of_lt hlt)
      refine (ih hearlier).go (run.inTurn moment project) ?_ (run.turnGo moment project)
      intro database hmove
      exact Store.agreeOn_of_projectRows
        (hspares moment (Nat.lt_succ_self moment) database hmove)

/-- What has been merged until a moment is what the calls of the run come to one after the
other. -/
structure IsSerial (run : Run) (moment : ℕ) (supply : Supply) : Prop where
  /-- The calls are all merges that were asked for and have got their turns, each once. -/
  calls : ((run.calls moment).map MergeCall.number).Nodup ∧
    ∀ asked, asked ∈ (run.calls moment).map request ↔
      (∃ earlier < moment, (run.state earlier).Requests asked) ∧
        ¬ (run.state moment).Requests asked
  /-- They return what they would return one after the other. -/
  results : (run.calls moment).map (·.returned) =
    (serially run.first.database.store supply (run.calls moment)).results.map some
  /-- This is what their jobs get. -/
  kept : ∀ (number : Nat) (job : Job) (result : Except Failure MergeReport),
    (run.state moment).jobs[number]? = some job → job.stage.result? = some result →
      ∃ call ∈ run.calls moment, call.number = number ∧ call.returned = some result
  /-- Their projects have the rows that they would have, but for the stamps. -/
  rows : ∀ project ∈ (run.calls moment).map MergeCall.project,
    ((run.state moment).database.store.projectRows project).map Store.Row.unstamped =
      ((serially run.first.database.store supply (run.calls moment)).store.projectRows
        project).map Store.Row.unstamped
  /-- Those that report have had a turn for each tag, and count the new keys among them. -/
  counted : ∀ call ∈ run.calls moment, ∀ report, call.returned = some (.ok report) →
    report.inserted = call.inserted.length ∧ call.turns.length = call.batch.length
  /-- Each new key of a project is counted by one call, once, and no other key is. -/
  inserted : ∀ project ∈ (run.calls moment).map MergeCall.project, ∀ key,
    ((callsOn project (run.calls moment)).flatMap (·.inserted)).count key =
      if run.first.database.store.findRow? project key = none ∧
        ((run.state moment).database.store.findRow? project key).isSome = true then 1 else 0

/-- **Concurrent merges are serializable.**  If nobody else has written into the projects of
the calls, and none of them is on its way, they have come to what they would have come to
one after the other. -/
theorem isSerial (run : Run) (moment : ℕ) (supply : Supply)
    (hspares : ∀ project ∈ (run.calls moment).map MergeCall.project, run.Spares moment project)
    (hsettled : ∀ job ∈ (run.state moment).jobs, isMerging job.stage = false) :
    run.IsSerial moment supply := by
  have hown : ∀ {call}, call ∈ run.calls moment → call ∈ callsOn call.project (run.calls moment) :=
    fun hcall => List.mem_filter.mpr ⟨hcall, beq_self_eq_true _⟩
  have hserialized : ∀ project ∈ (run.calls moment).map MergeCall.project,
      (run.state moment).Serialized run.first.database.store supply project
        (callsOn project (run.calls moment)) :=
    fun project hproject => run.serialized (hspares project hproject) supply
  -- Nothing merges any more, so every call has returned.
  have hreturned : ∀ call ∈ run.calls moment, call.returned.isSome = true := by
    intro call hcall
    refine (run.inTurn moment call.project).idle ?_ call (hown hcall)
    rintro number merge rest ⟨job, diagnostics, hjob, -, hstage⟩
    have hfree := hsettled job (List.mem_of_getElem? hjob)
    rw [hstage] at hfree
    cases hfree
  constructor
  · exact ⟨(run.recorded_calls moment).nodup, fun asked => run.mem_calls_iff moment⟩
  · refine (areResults_of_callsOn ?_).map_returned hreturned
    intro project
    by_cases hproject : project ∈ (run.calls moment).map MergeCall.project
    · exact (hserialized project hproject).results
    · rw [callsOn_of_not_mem hproject]
      exact .nil
  · exact fun number job result hjob hresult => (run.returns_calls moment).kept hjob hresult
  · intro project hproject
    have hagree := agreeOn_serially run.first.database.store supply (run.calls moment) project
    exact ((hserialized project hproject).stores.trans hagree.symm).projectRows
  · intro call hcall report hreport
    exact ⟨(hserialized call.project (List.mem_map_of_mem hcall)).reported call (hown hcall)
      report hreport, (run.inTurn moment call.project).complete call (hown hcall) report hreport⟩
  · intro project hproject key
    have hgains := (hserialized project hproject).gains
    split
    · rename_i hnew
      exact List.count_eq_one_of_mem hgains.nodup (hgains.mem_iff.mpr hnew)
    · rename_i hold
      exact List.count_eq_zero_of_not_mem fun hmem => hold (hgains.mem_iff.mp hmem)

/-- Two merges into one project and one into another, of which two share a name. -/
def interleavedRun : Run where
  first := { settings := {}, database := {}, events := { capacity := 256 } }
  isNew := ⟨{}, {}, {}, rfl⟩
  moves moment := [
    Move.merge 7 .editor [pumpTag "Pump" "M0.0", pumpTag "Valve" "M0.1"],
    .merge 7 .editor [pumpTag "valve" "M0.2", pumpTag "Motor" "M0.3"],
    .merge 8 .generated [pumpTag "Pump" "M0.4"],
    .step (.job 0), .step (.job 2), .step (.job 1), .step (.job 0), .step (.job 2),
    .step (.job 0), .step (.job 2), .step (.job 0), .step (.job 1), .step (.job 1),
    .step (.job 1), .step (.job 1)].getD moment (.wait 0)

theorem isSerial_interleaved :
    (interleavedRun.calls 15).map (fun call => (call.number, call.inserted)) =
        [(0, ["pump", "valve"]), (2, ["pump"]), (1, ["motor"])] ∧
      interleavedRun.IsSerial 15 {} := by
  refine ⟨by decide +kernel, interleavedRun.isSerial 15 {} ?_ (by decide +kernel)⟩
  intro project _ earlier hlt database hmove
  interval_cases earlier <;> cases hmove

end Run

end PlcTags.Service
