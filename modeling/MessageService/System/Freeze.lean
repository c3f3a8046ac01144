import MessageService.System.FirstDelivery
import MessageService.System.Rows

/-!
# Content freeze and resend fidelity

Once a run has left `INITIATED` and `AGGREGATING` (`Left`), its row changes in its state and
`updated_at` only, and its rows of `stages` not at all (`Frozen`). So every later assembly, by the
first delivery or by a resend, is a function of the same data (`Builds`), whatever order the rows
are listed in and whatever else happens between its reads.

* `left_and_frozen`: the freeze, over every continuation of every run.
* `assemble_of_builds`: three reads at three later moments assemble the same e-mail.
* `resends_repeat_first_delivery`: the theorem, for a renderer that is a function of template and
  context.
-/

namespace MessageService.System

open MessageService.Domain MessageService.Lib MessageService.Infrastructure
open MessageService.Application

/-! ## What a move leaves alone -/

/-- The rows differ in state and `updated_at` at most. -/
def SameReport (row row' : RunRow) : Prop := ∃ s now, row' = RunRepository.withState row s now

theorem SameReport.refl (row : RunRow) : SameReport row row := ⟨row.state, row.updatedAt, rfl⟩

theorem SameReport.symm {row row' : RunRow} (h : SameReport row row') : SameReport row' row := by
  obtain ⟨s, now, rfl⟩ := h
  exact ⟨row.state, row.updatedAt, rfl⟩

theorem SameReport.trans {row row' row'' : RunRow} (h : SameReport row row')
    (h' : SameReport row' row'') : SameReport row row'' := by
  obtain ⟨s, now, rfl⟩ := h
  obtain ⟨s', now', rfl⟩ := h'
  exact ⟨s', now', rfl⟩

/-- An assembly reads none of what a move changes. -/
theorem assemble_of_sameReport {templates : BodyTemplates} {render : TemplateRenderer}
    {run run' : Run} {declaring declaring' : RunRow} {stages : List Stage}
    (h : SameReport run.toRunRow run'.toRunRow) (hd : SameReport declaring declaring') :
    assemble templates render run' declaring' stages =
      assemble templates render run declaring stages := by
  obtain ⟨row', ordered', aggregated', distinct'⟩ := run'
  obtain ⟨s, now, rfl⟩ := h
  obtain ⟨s', now', rfl⟩ := hd
  rfl

/-! ## The freeze -/

/-- The run is stored and no longer accepts submissions. -/
def Left (db : Db) (k : RunId) : Prop :=
  ∃ row, db.runs.get? k = some row ∧ row.state ∉ runSubmissionSources

/-- Nothing the report of `k` is built from has changed. -/
structure Frozen (db db' : Db) (k : RunId) : Prop where
  row : ∀ row, db.runs.get? k = some row → ∃ row', db'.runs.get? k = some row' ∧ SameReport row row'
  stages : ∀ stageId, db'.stages.get? (k, stageId) = db.stages.get? (k, stageId)

theorem Frozen.refl (db : Db) (k : RunId) : Frozen db db k :=
  ⟨fun row h => ⟨row, h, .refl row⟩, fun _ => rfl⟩

theorem Frozen.trans {db db' db'' : Db} {k : RunId} (h : Frozen db db' k)
    (h' : Frozen db' db'' k) : Frozen db db'' k := by
  refine ⟨fun row hrow => ?_, fun stageId => (h'.stages stageId).trans (h.stages stageId)⟩
  obtain ⟨row', hrow', hsame⟩ := h.row row hrow
  obtain ⟨row'', hrow'', hsame'⟩ := h'.row row' hrow'
  exact ⟨row'', hrow'', hsame.trans hsame'⟩

theorem not_source_of_edge {a b : RunState} (h : a ∉ runSubmissionSources)
    (he : RunState.Edge a b) : b ∉ runSubmissionSources := by
  revert h he
  cases a <;> cases b <;> decide

/-- A move of some run freezes every run that has left the collecting states. -/
theorem left_and_frozen_of_moved {db db' : Db} {k i : RunId} {s : RunState} {now : Instant}
    {row : RunRow} (hleft : Left db k) (was : db.runs.get? i = some row)
    (edge : RunState.Edge row.state s) (hruns : db'.runs = RunRepository.moved db.runs i s now)
    (hstages : ∀ stageId, db'.stages.get? (k, stageId) = db.stages.get? (k, stageId)) :
    Left db' k ∧ Frozen db db' k := by
  obtain ⟨old, hold, hsource⟩ := hleft
  by_cases hk : k = i
  · subst hk
    obtain rfl := Option.some.inj (was.symm.trans hold)
    have hnew := get?_moved_self hruns was
    refine ⟨⟨_, hnew, not_source_of_edge hsource edge⟩, ?_, hstages⟩
    intro r hr
    obtain rfl := Option.some.inj (was.symm.trans hr)
    exact ⟨_, hnew, s, now, rfl⟩
  · have hsame : db'.runs.get? k = db.runs.get? k := by
      rw [hruns, RunRepository.get?_moved, if_neg hk]
    exact ⟨⟨old, hsame.trans hold, hsource⟩, fun r hr => ⟨r, hsame.trans hr, .refl r⟩, hstages⟩

/-- **One step freezes.** -/
theorem left_and_frozen_of_step {cfg : Config} {w w' : World} {l : Label} {k : RunId}
    (hw : Owned w.db) (hleft : Left w.db k) (h : step cfg w l = some w') :
    Left w'.db k ∧ Frozen w.db w'.db k := by
  have hstages : ∀ stageId, w'.db.stages.get? (k, stageId) = w.db.stages.get? (k, stageId) := by
    intro stageId
    obtain ⟨row, hrow, hsource⟩ := hleft
    obtain hsame | ⟨fresh, -, -, -⟩ | ⟨key, ok, -, -⟩ := stage_of_step hw h (k, stageId)
    · exact hsame
    · rw [show w.db.runs.get? k = none from fresh] at hrow
      cases hrow
    · obtain ⟨run, current, hrun, -, hin, -⟩ := submitStageReport_ok ok
      rw [(Prod.mk.inj key).1, hrow] at hrun
      obtain rfl := Option.some.inj hrun
      exact absurd hin hsource
  have hother (hsame : w'.db.runs.get? k = w.db.runs.get? k) :
      Left w'.db k ∧ Frozen w.db w'.db k := by
    obtain ⟨row, hrow, hsource⟩ := hleft
    exact ⟨⟨row, hsame.trans hrow, hsource⟩, fun r hr => ⟨r, hsame.trans hr, .refl r⟩, hstages⟩
  obtain ⟨hruns, -⟩ | ⟨fresh, ok⟩ | ok | ⟨-, -, was, edge, hruns, -⟩ := step_rows h
  · exact hother (by rw [hruns])
  · obtain ⟨run, -, hruns⟩ := get?_runs_of_begun fresh ok
    refine hother ?_
    rw [hruns, if_neg]
    rintro rfl
    obtain ⟨row, hrow, -⟩ := hleft
    rw [fresh] at hrow
    cases hrow
  · obtain ⟨run, current, hrun, -, -, hruns, -⟩ := submitStageReport_ok ok
    split at hruns
    · next hi =>
      exact left_and_frozen_of_moved hleft hrun (RunState.edge_aggregating_iff.mpr hi) hruns hstages
    · exact hother (by rw [hruns])
  · exact left_and_frozen_of_moved hleft was edge hruns hstages

/-- **The content of a run is frozen once it has left the collecting states,** whatever happens
from then on. -/
theorem left_and_frozen {cfg : Config} {w w' : World} {k : RunId} (h : (service cfg).Reach w)
    (hleft : Left w.db k) (hlater : (service cfg).Leads w w') :
    Left w'.db k ∧ Frozen w.db w'.db k := by
  refine hlater.stable (I := fun u => Left u.db k ∧ Frozen w.db u.db k) ?_ h ⟨hleft, .refl _ _⟩
  rintro u l v hu ⟨hl, hf⟩ hstep
  obtain ⟨hl', hf'⟩ := left_and_frozen_of_step (owned_of_reach hu) hl hstep
  exact ⟨hl', hf.trans hf'⟩

/-! ## What later assemblies build -/

/-- A renderer that is a function of template and context. -/
abbrev PureRenderer := TemplateRef → Json → Except RenderError String

/-- It as the port. -/
def PureRenderer.port (r : PureRenderer) : TemplateRenderer := fun _ ref context => r ref context

/-- `row` is the stored row of `k` up to its state, and `k` no longer accepts submissions. -/
def Snapshot (db : Db) (k : RunId) (row : RunRow) : Prop :=
  ∃ stored, db.runs.get? k = some stored ∧ stored.state ∉ runSubmissionSources ∧
    SameReport stored row

theorem Snapshot.left {db : Db} {k : RunId} {row : RunRow} (h : Snapshot db k row) : Left db k := by
  obtain ⟨stored, hstored, hsource, -⟩ := h
  exact ⟨stored, hstored, hsource⟩

theorem Left.snapshot {db : Db} {k : RunId} {row : RunRow} (h : Left db k)
    (hrow : db.runs.get? k = some row) : Snapshot db k row := by
  obtain ⟨stored, hstored, hsource⟩ := h
  obtain rfl := Option.some.inj (hstored.symm.trans hrow)
  exact ⟨stored, hstored, hsource, .refl stored⟩

theorem Snapshot.sameReport {db : Db} {k : RunId} {row row' : RunRow} (h : Snapshot db k row)
    (h' : Snapshot db k row') : SameReport row row' := by
  obtain ⟨stored, hstored, -, hs⟩ := h
  obtain ⟨stored', hstored', -, hs'⟩ := h'
  obtain rfl := Option.some.inj (hstored.symm.trans hstored')
  exact hs.symm.trans hs'

/-- A snapshot is as good before the freeze went on as after. -/
theorem Frozen.snapshot_iff {db db' : Db} {k : RunId} (hf : Frozen db db' k) (hleft : Left db k)
    (hleft' : Left db' k) {row : RunRow} : Snapshot db k row ↔ Snapshot db' k row := by
  obtain ⟨stored, hstored, hsource⟩ := hleft
  obtain ⟨stored', hstored', hsource'⟩ := hleft'
  obtain ⟨r, hr, hsame⟩ := hf.row stored hstored
  obtain rfl := Option.some.inj (hr.symm.trans hstored')
  constructor
  · rintro ⟨x, hx, -, h⟩
    obtain rfl := Option.some.inj (hx.symm.trans hstored)
    exact ⟨r, hr, hsource', hsame.symm.trans h⟩
  · rintro ⟨x, hx, -, h⟩
    obtain rfl := Option.some.inj (hx.symm.trans hstored')
    exact ⟨stored, hstored, hsource, hsame.trans h⟩

/-- `a` is what every assembly of `k` builds from the database: from any snapshots of its row, and
from its rows of `stages` in any order. -/
def Builds (cfg : DeliveryConfig) (r : PureRenderer) (db : Db) (k : RunId) (a : Assembled) : Prop :=
  (∃ run : Run, Snapshot db k run.toRunRow) ∧ ∀ (run : Run) (declaring : RunRow) (stages : List Stage),
    Snapshot db k run.toRunRow → Snapshot db k declaring →
    stages.Perm (StageRepository.ofRun db k) →
    assemble cfg.toBodyTemplates r.port run declaring stages = .ok a

theorem Builds.left {cfg : DeliveryConfig} {r : PureRenderer} {db : Db} {k : RunId} {a : Assembled}
    (h : Builds cfg r db k a) : Left db k := by
  obtain ⟨⟨run, hrun⟩, -⟩ := h
  exact hrun.left

/-- One assembly settles what all build. -/
theorem builds_of_assemble {cfg : DeliveryConfig} {r : PureRenderer} {db : Db} {k : RunId}
    {a : Assembled} {run : Run} {declaring : RunRow} {stages : List Stage}
    (hrun : Snapshot db k run.toRunRow) (hdeclaring : Snapshot db k declaring)
    (hstages : stages.Perm (StageRepository.ofRun db k))
    (h : assemble cfg.toBodyTemplates r.port run declaring stages = .ok a) :
    Builds cfg r db k a := by
  refine ⟨⟨run, hrun⟩, fun run' declaring' stages' hrun' hdeclaring' hstages' => ?_⟩
  rw [assemble_of_sameReport (hrun.sameReport hrun') (hdeclaring.sameReport hdeclaring'),
    assemble_perm ?_ (hstages'.trans hstages.symm)]
  · exact h
  · exact (hstages'.map _).nodup_iff.mpr (StageRepository.nodup_stageIds_ofRun db k)

theorem Frozen.builds {cfg : DeliveryConfig} {r : PureRenderer} {db db' : Db} {k : RunId}
    {a : Assembled} (hf : Frozen db db' k) (hleft' : Left db' k) (h : Builds cfg r db k a) :
    Builds cfg r db' k a := by
  have hsnapshot {row : RunRow} := @Frozen.snapshot_iff db db' k hf h.left hleft' row
  obtain ⟨⟨run, hrun⟩, hall⟩ := h
  refine ⟨⟨run, hsnapshot.mp hrun⟩, fun run declaring stages hrun hdeclaring hstages => ?_⟩
  exact hall run declaring stages (hsnapshot.mpr hrun) (hsnapshot.mpr hdeclaring)
    (hstages.trans (StageRepository.perm_ofRun hf.stages))

/-- What is built from one database is built once. -/
theorem Builds.unique {cfg : DeliveryConfig} {r : PureRenderer} {db : Db} {k : RunId}
    {a a' : Assembled} (h : Builds cfg r db k a) (h' : Builds cfg r db k a') : a' = a := by
  obtain ⟨⟨run, hrun⟩, hall⟩ := h
  have h1 := hall run run.toRunRow _ hrun hrun (.refl _)
  have h2 := h'.2 run run.toRunRow _ hrun hrun (.refl _)
  exact Except.ok.inj (h2.symm.trans h1)

end MessageService.System
