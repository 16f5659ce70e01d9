import Medusa.Itp.Store
import Medusa.Files

/-! The reports of ITPs. A request for a report queues a task. The worker renders the
pages of the task into files of its own and joins them in one file that all tasks share,
and a download sends that file and removes it. -/

namespace Medusa

open Relational

structure ReportTask where
  user : Nat
  siteid : Nat
  projectid : Nat
  itpId : Nat
deriving DecidableEq

inductive PageKind
  | base
  | deliverable (id : Nat)
  | ending
deriving DecidableEq

structure ReportPage where
  siteid : Nat
  projectid : Nat
  itpId : Nat
  kind : PageKind
deriving DecidableEq

def ReportTask.page (task : ReportTask) (kind : PageKind) : ReportPage :=
  ⟨task.siteid, task.projectid, task.itpId, kind⟩

def pdfName (x : Nat) : String := "pdf_" ++ toString x ++ ".pdf"

/-- What the ITCs of a report are sorted by: the names of the type, the deliverable and
the group. Each is read through references that may be missing. -/
def reportSortKey (db : ItpDb) (m : DeliverableItcMap) : Option (String × String × String) := do
  let d ← m.deliverableId.bind db.deliverables.get?
  let type ← d.deliverableTypeId.bind db.deliverableTypes.get?
  let itc ← m.itcId.bind db.itcs.get?
  let group ← itc.itcGroupId.bind db.itcGroups.get?
  pure (type.name, d.name, group.name)

/-- The queries of a render. The first page shows the start date of the project. -/
def reportDeliverables (db : ItpDb) (task : ReportTask) : Option (List Deliverable) := do
  let itp ← db.itps.get? task.itpId
  let deliverables := db.deliverables.rows.filter (fun d => d.itpId == some itp.id)
  let itcs := db.deliverableItcMaps.rows.filter
    (fun m => deliverables.any (fun d => m.deliverableId == some d.id))
  guard (itcs.all (fun m => (reportSortKey db m).isSome))
  let _ ← db.projects.get? task.projectid
  pure deliverables

/-- The files that are left, and the report unless the task fails. -/
def itpReportPdfRender (db : ItpDb) (files : Files ReportPage) (task : ReportTask) :
    Files ReportPage × Option (List ReportPage) :=
  match reportDeliverables db task with
  | none => (files, none)
  | some deliverables =>
    let files := files.write "ITP_base.pdf" (task.page .base)
    -- the progress of a page is a share of the number of deliverables
    if deliverables = [] then (files, none)
    else
      let files := deliverables.zipIdx.foldl
        (fun files dx => files.write (pdfName dx.2) (task.page (.deliverable dx.1.id))) files
      let files := files.write "ITP_report_end.pdf" (task.page .ending)
      let pdfs := "ITP_base.pdf" :: (List.range deliverables.length).map pdfName ++
        ["ITP_report_end.pdf"]
      (files.removeAll pdfs, files.readAll pdfs)

/-- The queue of tasks, the files of the worker, and the one file for reports. -/
structure ReportServer where
  db : ItpDb
  queue : List ReportTask
  files : Files ReportPage
  testPlan : Option (List ReportPage)

/-- The file that is sent and the server without it, or the error for a missing file. The
rows of the address are looked up and not used. -/
def downloadReport (s : ReportServer) (_siteid _projectid _itpId : Nat) :
    Option (List ReportPage × ReportServer) :=
  s.testPlan.map (fun report => (report, { s with testPlan := none }))

inductive ReportEvent
  | longtask (task : ReportTask)
  /-- The worker takes a task from the queue, not necessarily the first. -/
  | work (i : Nat)
  | download (user siteid projectid itpId : Nat)
  /-- A change to the database by other requests. -/
  | commit (db : ItpDb)

def ReportServer.step (s : ReportServer) : ReportEvent → Option ReportServer
  | .longtask task => some { s with queue := s.queue ++ [task] }
  | .work i => (s.queue[i]?).map (fun task =>
      let rendered := itpReportPdfRender s.db s.files task
      { s with
        queue := s.queue.eraseIdx i
        files := rendered.1
        testPlan := rendered.2.or s.testPlan })
  | .download _ siteid projectid itpId => (downloadReport s siteid projectid itpId).map Prod.snd
  | .commit db => some { s with db := db }

def ReportServer.run (s : ReportServer) (events : List ReportEvent) : ReportServer :=
  serveAll ReportServer.step s events

theorem ReportServer.run_cons (s : ReportServer) (event : ReportEvent)
    (events : List ReportEvent) :
    s.run (event :: events) = (serve ReportServer.step s event).run events := rfl

def reportPages (task : ReportTask) (deliverables : List Deliverable) : List ReportPage :=
  task.page .base :: deliverables.map (fun d => task.page (.deliverable d.id)) ++
    [task.page .ending]

theorem pdfName_injective : Function.Injective pdfName := by
  intro x y h
  have hrepr : x.repr = y.repr := (String.append_right_inj _).mp ((String.append_left_inj _).mp h)
  have hread := congrArg (fun digits => Nat.ofDigitChars 10 digits.toList 0) hrepr
  simpa using hread

/-- The files of the deliverables have other names than the first and the last one. -/
theorem pdfName_head (x : Nat) : (pdfName x).toList.head? = some 'p' := by
  simp [pdfName, String.toList_append]

theorem pdfName_ne {x : Nat} {name : String} (h : name.toList.head? ≠ some 'p') :
    name ≠ pdfName x := by
  rintro rfl
  exact h (pdfName_head x)

def pdfFiles (task : ReportTask) (deliverables : List Deliverable) :
    List (String × ReportPage) :=
  ("ITP_base.pdf", task.page .base) ::
    deliverables.zipIdx.map (fun dx => (pdfName dx.2, task.page (.deliverable dx.1.id))) ++
    [("ITP_report_end.pdf", task.page .ending)]

theorem pdfFiles_names (task : ReportTask) (deliverables : List Deliverable) :
    (pdfFiles task deliverables).map Prod.fst =
      "ITP_base.pdf" :: (List.range deliverables.length).map pdfName ++
        ["ITP_report_end.pdf"] := by
  have hnames : deliverables.zipIdx.map (fun dx => pdfName dx.2) =
      (List.range deliverables.length).map pdfName := by
    rw [List.range_eq_range', ← List.zipIdx_map_snd, List.map_map]
    rfl
  simp [pdfFiles, ← hnames, Function.comp_def]

theorem pdfFiles_pages (task : ReportTask) (deliverables : List Deliverable) :
    (pdfFiles task deliverables).map Prod.snd = reportPages task deliverables := by
  have hpages : deliverables.zipIdx.map (fun dx => task.page (.deliverable dx.1.id)) =
      deliverables.map (fun d => task.page (.deliverable d.id)) := by
    nth_rewrite 2 [← List.zipIdx_map_fst 0 deliverables]
    rw [List.map_map]
    rfl
  simp [pdfFiles, reportPages, ← hpages, Function.comp_def]

theorem pdfFiles_nodup (task : ReportTask) (deliverables : List Deliverable) :
    ((pdfFiles task deliverables).map Prod.fst).Nodup := by
  have hpdf : ((List.range deliverables.length).map pdfName).Nodup :=
    List.nodup_range.map pdfName_injective
  have hother : ∀ name : String, name.toList.head? ≠ some 'p' →
      name ∉ (List.range deliverables.length).map pdfName := by
    intro name hname hmem
    obtain ⟨x, -, hx⟩ := List.mem_map.mp hmem
    exact pdfName_ne hname hx.symm
  rw [pdfFiles_names, List.cons_append, List.nodup_cons, List.nodup_append]
  refine ⟨?_, hpdf, by simp, ?_⟩
  · simp only [List.mem_append, List.mem_singleton, not_or]
    exact ⟨hother _ (by decide), by decide⟩
  · intro name hname name' hname'
    rw [List.mem_singleton.mp hname']
    rintro rfl
    exact hother _ (by decide) hname

/-- A render that does not fail joins the pages that it has made itself. Files that an
earlier task has left do not get into the report. -/
theorem itpReportPdfRender_report (db : ItpDb) (files : Files ReportPage) (task : ReportTask) :
    (itpReportPdfRender db files task).2 =
      ((reportDeliverables db task).filter (fun deliverables => deliverables ≠ [])).map
        (reportPages task) := by
  unfold itpReportPdfRender
  cases reportDeliverables db task with
  | none => rfl
  | some deliverables =>
    by_cases hnil : deliverables = []
    · simp [hnil]
    · have hread := Files.readAll_writeAll files (pdfFiles_nodup task deliverables)
      rw [pdfFiles_names, pdfFiles_pages] at hread
      have hwrite : files.writeAll (pdfFiles task deliverables) =
          (deliverables.zipIdx.foldl
            (fun files dx => files.write (pdfName dx.2) (task.page (.deliverable dx.1.id)))
            (files.write "ITP_base.pdf" (task.page .base))).write
              "ITP_report_end.pdf" (task.page .ending) := by
        simp [Files.writeAll, pdfFiles, List.foldl_map]
      rw [hwrite] at hread
      simp only [if_neg hnil, Option.filter_some, decide_not, decide_eq_false hnil, Bool.not_false,
        if_true, Option.map_some]
      exact hread

/-- The queries of the task find deliverables, and what they are sorted by. -/
def ReportTask.Renders (db : ItpDb) (task : ReportTask) : Prop :=
  ∃ deliverables, reportDeliverables db task = some deliverables ∧ deliverables ≠ []

/-- The report is made of pages of the ITP. -/
def ReportFor (p : Nat) (report : List ReportPage) : Prop :=
  report ≠ [] ∧ ∀ page ∈ report, page.itpId = p

/-- A download for the ITP at this moment sends a report of the ITP. -/
def ReportServer.Delivers (p : Nat) (s : ReportServer) : Prop :=
  ∀ siteid projectid, ∃ report s',
    downloadReport s siteid projectid p = some (report, s') ∧ ReportFor p report

def ReportServer.Completes (p : Nat) (s : ReportServer) (event : ReportEvent) : Prop :=
  ∃ i task, event = .work i ∧ s.queue[i]? = some task ∧ task.Renders s.db ∧ task.itpId = p

/-- A download by any user, or the completion of a report of another ITP. -/
def ReportServer.Spoils (p : Nat) (s : ReportServer) (event : ReportEvent) : Prop :=
  (∃ user siteid projectid itpId, event = .download user siteid projectid itpId) ∨
    ∃ q, q ≠ p ∧ s.Completes q event

theorem reportPages_for (task : ReportTask) (deliverables : List Deliverable) {p : Nat} :
    ReportFor p (reportPages task deliverables) ↔ task.itpId = p := by
  constructor
  · intro h
    exact h.2 (task.page .base) (by simp [reportPages])
  · rintro rfl
    refine ⟨by simp [reportPages], ?_⟩
    intro page hpage
    simp only [reportPages, List.cons_append, List.mem_cons, List.mem_append, List.mem_map,
      List.not_mem_nil, or_false] at hpage
    rcases hpage with rfl | ⟨d, -, rfl⟩ | rfl <;> rfl

theorem ReportServer.delivers_iff {p : Nat} {s : ReportServer} :
    s.Delivers p ↔ ∃ report, s.testPlan = some report ∧ ReportFor p report := by
  constructor
  · intro h
    obtain ⟨report, s', hd, hfor⟩ := h 0 0
    obtain ⟨report', hplan, he⟩ := Option.map_eq_some_iff.mp hd
    obtain ⟨rfl, -⟩ := Prod.mk.inj he
    exact ⟨report', hplan, hfor⟩
  · rintro ⟨report, hplan, hfor⟩ siteid projectid
    exact ⟨report, { s with testPlan := none }, by simp [downloadReport, hplan], hfor⟩

/-- What the worker leaves in the file for reports. -/
theorem ReportServer.testPlan_work {s : ReportServer} {i : Nat} {task : ReportTask}
    (htask : s.queue[i]? = some task) :
    (serve ReportServer.step s (.work i)).testPlan =
      (((reportDeliverables s.db task).filter (fun deliverables => deliverables ≠ [])).map
        (reportPages task)).or s.testPlan := by
  rw [← itpReportPdfRender_report s.db s.files task]
  simp [serve, ReportServer.step, htask]

theorem ReportServer.testPlan_completed {s : ReportServer} {i : Nat} {task : ReportTask}
    (htask : s.queue[i]? = some task) (hrenders : task.Renders s.db) :
    ∃ deliverables, (serve ReportServer.step s (.work i)).testPlan =
      some (reportPages task deliverables) := by
  obtain ⟨deliverables, hd, hne⟩ := hrenders
  exact ⟨deliverables, by simp [testPlan_work htask, hd, hne]⟩

theorem ReportServer.testPlan_failed {s : ReportServer} {i : Nat} {task : ReportTask}
    (htask : s.queue[i]? = some task) (hfails : ¬ task.Renders s.db) :
    (serve ReportServer.step s (.work i)).testPlan = s.testPlan := by
  rw [testPlan_work htask]
  cases hd : reportDeliverables s.db task with
  | none => rfl
  | some deliverables =>
    have hnil : deliverables = [] := by
      by_contra hne
      exact hfails ⟨deliverables, hd, hne⟩
    rw [hnil]
    rfl

theorem ReportServer.delivers_completed {s : ReportServer} {p q : Nat} {event : ReportEvent}
    (h : s.Completes q event) : (serve ReportServer.step s event).Delivers p ↔ q = p := by
  obtain ⟨i, task, rfl, htask, hrenders, rfl⟩ := h
  obtain ⟨deliverables, hplan⟩ := testPlan_completed htask hrenders
  simp [delivers_iff, hplan, reportPages_for]

theorem ReportServer.not_delivers_download (s : ReportServer) (p user siteid projectid itpId : Nat) :
    ¬ (serve ReportServer.step s (.download user siteid projectid itpId)).Delivers p := by
  have hgone :
      (serve ReportServer.step s (.download user siteid projectid itpId)).testPlan = none := by
    cases hplan : s.testPlan with
    | none => simp [serve, ReportServer.step, downloadReport, hplan]
    | some report => simp [serve, ReportServer.step, downloadReport, hplan]
  simp [delivers_iff, hgone]

/-- Every other step leaves the file for reports as it is. -/
theorem ReportServer.delivers_other {s : ReportServer} {p : Nat} {event : ReportEvent}
    (hset : ¬ s.Completes p event) (hspoil : ¬ s.Spoils p event) :
    (serve ReportServer.step s event).Delivers p ↔ s.Delivers p := by
  have hplan : (serve ReportServer.step s event).testPlan = s.testPlan := by
    cases event with
    | longtask task => rfl
    | commit db => rfl
    | download user siteid projectid itpId =>
      exact absurd (Or.inl ⟨user, siteid, projectid, itpId, rfl⟩) hspoil
    | work i =>
      cases htask : s.queue[i]? with
      | none => simp [serve, ReportServer.step, htask]
      | some task =>
        refine testPlan_failed htask ?_
        intro hrenders
        by_cases hp : task.itpId = p
        · exact hset ⟨i, task, rfl, htask, hrenders, hp⟩
        · exact hspoil (Or.inr ⟨task.itpId, hp, i, task, rfl, htask, hrenders, rfl⟩)
  rw [delivers_iff, delivers_iff, hplan]

/-- Two ITPs of a project, each with a deliverable that has no ITCs yet. -/
def twoItps : ReportServer where
  db := { pumpProject with
    itps := ⟨[⟨1, "pumps", some 1, none, some 0⟩, ⟨2, "fans", some 1, none, some 0⟩], by simp⟩
    deliverables := ⟨[⟨1, "pump 1", "", some 1, some 1, none, some 1, none, some 0, none, none⟩,
      ⟨2, "fan 1", "", some 1, some 1, none, some 2, none, some 0, none, none⟩], by simp⟩ }
  queue := [⟨1, 1, 1, 1⟩]
  files := fun _ => none
  testPlan := none

theorem twoItps_renders : ReportTask.Renders twoItps.db ⟨1, 1, 1, 1⟩ :=
  ⟨[⟨1, "pump 1", "", some 1, some 1, none, some 1, none, some 0, none, none⟩],
    by decide +kernel, by simp⟩

end Medusa
