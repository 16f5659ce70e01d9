import Medusa.Itp.Reports
import Mathlib.Algebra.Order.Field.Rat
import Mathlib.Tactic.FieldSimp
import Mathlib.Tactic.Linarith
import Mathlib.Tactic.Positivity

/-! The progress that the tasks of reports publish, and the page that polls it. The
counter of a task is a sum of fractions of its total, in exact arithmetic. -/

namespace Medusa

open Relational

/-- The `meta` of an update. -/
structure ProgressInfo where
  current : ℚ
  total : ℚ
  status : String

inductive TaskState
  | pending
  | progress
  | complete
  | success
  | failure (exception : String)

/-- A task as it is seen after an update. -/
structure Task where
  state : TaskState
  info : Option ProgressInfo

structure TaskResponse where
  state : TaskState
  current : ℚ
  total : ℚ
  status : Option String

def taskstatus (task : Task) : Option TaskResponse :=
  match task.state with
  | .pending => some ⟨.pending, 0, 1, some "Pending..."⟩
  | .success => some ⟨.success, 1, 1, some "Complete"⟩
  | .failure exception => some ⟨.failure exception, 1, 1, some exception⟩
  -- `task.info['current']` raises where the update came without `meta`
  | state => task.info.map (fun info => ⟨state, info.current, info.total, none⟩)

/-- The counter of a render, and the updates that it has published with a `meta`. -/
structure RenderRun where
  i : ℚ
  updates : List Task

def RenderRun.update (run : RenderRun) (amount total : ℚ) (status : String) : RenderRun :=
  ⟨run.i + amount, run.updates ++ [⟨.progress, some ⟨run.i + amount, total, status⟩⟩]⟩

@[simp] theorem RenderRun.update_i (run : RenderRun) (amount total : ℚ) (status : String) :
    (run.update amount total status).i = run.i + amount := rfl

/-- The updates before the first page of a deliverable. -/
def renderStart (total : ℚ) : RenderRun :=
  (((RenderRun.mk 0 []).update (total * (1 / 10)) total "Creating ITCs"
    |>.update (total * (1 / 10)) total "Creating ITCs")
    |>.update (total * (1 / 20)) total "Starting Report build")
    |>.update (total * (1 / 40)) total "Starting Report build"

/-- The updates for the pages of `n` deliverables and for the files that are merged. -/
def renderPages (n : Nat) (pdfs : List String) (total : ℚ) (run : RenderRun) : RenderRun :=
  let run := (List.range n).foldl (fun run _ => run.update (n / total) total "Creating ITCs") run
  let run := run.update (total * (1 / 40)) total "Starting Report build"
  let run := run.update (n * (1 / 10)) total "Starting Report build"
  -- `pdf_number` is one more than the last index of a deliverable
  pdfs.foldl (fun run _ => run.update (n * (1 / 2) / n) total "Starting Report build") run

/-- What a render for `n` deliverables publishes, and whether it returns. -/
def renderProgress (n : Nat) (pdfs : List String) : List Task × Bool :=
  let total : ℚ := n + n
  let first : Task := ⟨.progress, none⟩
  -- `len(deliverables) / total` raises for a total of 0
  if total = 0 then (first :: (renderStart total).updates, false)
  else
    let run := renderPages n pdfs total (renderStart total)
    (first :: run.updates ++ [⟨.complete, some ⟨total, total, "Complete"⟩⟩], true)

inductive ReportKind
  | itp
  | deliverables
deriving DecidableEq

/-- The files that are joined in the report. -/
def ReportKind.pdfs (n : Nat) : ReportKind → List String
  | .itp => "ITP_base.pdf" :: (List.range n).map pdfName ++ ["ITP_report_end.pdf"]
  | .deliverables => (List.range n).map pdfName

def ReportKind.progress (kind : ReportKind) (n : Nat) : List Task × Bool :=
  renderProgress n (kind.pdfs n)

theorem total_ne_zero {n : Nat} (hn : 0 < n) : (n : ℚ) + n ≠ 0 := by
  have : (0 : ℚ) < n := Nat.cast_pos.mpr hn
  positivity

theorem renderProgress_returns_iff (n : Nat) (pdfs : List String) :
    (renderProgress n pdfs).2 = true ↔ 0 < n := by
  rcases Nat.eq_zero_or_pos n with rfl | hn
  · simp [renderProgress]
  · simp [renderProgress, total_ne_zero hn, hn]

/-- The progress of an ITP's report is that of the render of its pages: the same files are
merged, and one returns where the other does. -/
theorem itpReportPdfRender_progress {db : ItpDb} {task : ReportTask}
    {deliverables : List Deliverable} (files : Files ReportPage)
    (h : reportDeliverables db task = some deliverables) :
    (pdfFiles task deliverables).map Prod.fst = ReportKind.itp.pdfs deliverables.length ∧
      ((itpReportPdfRender db files task).2.isSome ↔
        (ReportKind.itp.progress deliverables.length).2 = true) := by
  refine ⟨pdfFiles_names task deliverables, ?_⟩
  rw [itpReportPdfRender_report, h, ReportKind.progress, renderProgress_returns_iff,
    List.length_pos_iff]
  simp

def Task.Precedes (t t' : Task) : Prop :=
  ∀ r r', taskstatus t = some r → taskstatus t' = some r' → r.current ≤ r'.current

/-- Whoever polls after these updates gets an answer each time, with a counter that is
within its total and does not decrease. -/
def Followed (updates : List Task) : Prop :=
  (∀ t ∈ updates, ∃ r, taskstatus t = some r ∧ 0 ≤ r.current ∧ r.current ≤ r.total) ∧
    updates.Pairwise Task.Precedes

/-- What the updates of a run keep: their counters increase up to the counter of the run. -/
structure RenderRun.Rising (total : ℚ) (run : RenderRun) : Prop where
  bounded : ∀ t ∈ run.updates,
    ∃ r, taskstatus t = some r ∧ 0 ≤ r.current ∧ r.current ≤ run.i ∧ r.total = total
  reached : ∃ t ∈ run.updates, ∃ r, taskstatus t = some r ∧ r.current = run.i
  sorted : run.updates.Pairwise Task.Precedes

theorem RenderRun.Rising.nonneg {total : ℚ} {run : RenderRun} (h : run.Rising total) :
    0 ≤ run.i := by
  obtain ⟨t, ht, r, hr, hi⟩ := h.reached
  obtain ⟨r', hr', hpos, -⟩ := h.bounded t ht
  rw [hr] at hr'
  cases hr'
  exact hi ▸ hpos

theorem RenderRun.rising_first {amount : ℚ} (total : ℚ) (status : String) (ha : 0 ≤ amount) :
    ((RenderRun.mk 0 []).update amount total status).Rising total := by
  constructor
  · simp [RenderRun.update, taskstatus, ha]
  · simp [RenderRun.update, taskstatus]
  · simp [RenderRun.update]

theorem RenderRun.Rising.update {total amount : ℚ} {run : RenderRun} (h : run.Rising total)
    (status : String) (ha : 0 ≤ amount) : (run.update amount total status).Rising total := by
  have hnew : ∀ r, taskstatus ⟨.progress, some ⟨run.i + amount, total, status⟩⟩ = some r ↔
      r = ⟨.progress, run.i + amount, total, none⟩ := by
    intro r
    simp only [taskstatus, Option.map_some, Option.some.injEq]
    exact eq_comm
  refine ⟨?_, ?_, ?_⟩
  · intro t ht
    rcases List.mem_append.mp ht with ht | ht
    · obtain ⟨r, hr, hpos, hle, htotal⟩ := h.bounded t ht
      exact ⟨r, hr, hpos, le_trans hle (le_add_of_nonneg_right ha), htotal⟩
    · rw [List.mem_singleton.mp ht]
      exact ⟨_, rfl, add_nonneg h.nonneg ha, le_refl _, rfl⟩
  · exact ⟨_, List.mem_append_right _ (List.mem_singleton_self _), _, rfl, rfl⟩
  · refine List.pairwise_append.mpr ⟨h.sorted, List.pairwise_singleton _ _, ?_⟩
    intro t ht t' ht' r r' hr hr'
    obtain ⟨r₀, hr₀, -, hle, -⟩ := h.bounded t ht
    rw [List.mem_singleton.mp ht', hnew] at hr'
    rw [hr] at hr₀
    cases hr₀
    rw [hr']
    exact le_trans hle (le_add_of_nonneg_right ha)

theorem RenderRun.Rising.foldl {α : Type} {total amount : ℚ} (status : String) (ha : 0 ≤ amount)
    (l : List α) {run : RenderRun} (h : run.Rising total) :
    (l.foldl (fun run _ => run.update amount total status) run).Rising total := by
  induction l generalizing run with
  | nil => exact h
  | cons a l ih => exact ih (h.update status ha)

theorem RenderRun.foldl_i {α : Type} (amount total : ℚ) (status : String) (l : List α)
    (run : RenderRun) :
    (l.foldl (fun run _ => run.update amount total status) run).i = run.i + l.length * amount := by
  induction l generalizing run with
  | nil => simp
  | cons a l ih =>
    rw [List.foldl_cons, ih, List.length_cons, RenderRun.update_i]
    push_cast
    ring

/-- The last update sets the counter to the total. -/
theorem RenderRun.Rising.followed_iff {total : ℚ} {run : RenderRun} (h : run.Rising total)
    (status : String) :
    Followed (run.updates ++ [⟨.complete, some ⟨total, total, status⟩⟩]) ↔ run.i ≤ total := by
  constructor
  · rintro ⟨hwithin, -⟩
    obtain ⟨t, ht, r, hr, hi⟩ := h.reached
    obtain ⟨r', hr', -, hle⟩ := hwithin t (List.mem_append_left _ ht)
    obtain ⟨r₀, hr₀, -, -, htotal⟩ := h.bounded t ht
    rw [hr] at hr' hr₀
    cases hr'
    cases hr₀
    rw [← hi, ← htotal]
    exact hle
  · intro hi
    refine ⟨?_, List.pairwise_append.mpr ⟨h.sorted, List.pairwise_singleton _ _, ?_⟩⟩
    · intro t ht
      rcases List.mem_append.mp ht with ht | ht
      · obtain ⟨r, hr, hpos, hle, htotal⟩ := h.bounded t ht
        exact ⟨r, hr, hpos, htotal ▸ le_trans hle hi⟩
      · rw [List.mem_singleton.mp ht]
        exact ⟨_, rfl, le_trans h.nonneg hi, le_refl _⟩
    · intro t ht t' ht' r r' hr hr'
      obtain ⟨r₀, hr₀, -, hle, -⟩ := h.bounded t ht
      rw [List.mem_singleton.mp ht'] at hr'
      rw [hr] at hr₀
      cases hr₀
      cases hr'
      exact le_trans hle hi

theorem renderPages_rising (n : Nat) (pdfs : List String) :
    (renderPages n pdfs (n + n) (renderStart (n + n))).Rising (n + n) := by
  have hn : (0 : ℚ) ≤ n := Nat.cast_nonneg n
  have hstart : (renderStart (n + n)).Rising (n + n) :=
    (((RenderRun.rising_first _ _ (by positivity)).update _ (by positivity)).update _
      (by positivity)).update _ (by positivity)
  have hpages := ((hstart.foldl "Creating ITCs" (by positivity : (0 : ℚ) ≤ n / (n + n))
    (List.range n)).update "Starting Report build"
      (by positivity : (0 : ℚ) ≤ (n + n) * (1 / 40))).update "Starting Report build"
      (by positivity : (0 : ℚ) ≤ n * (1 / 10))
  exact hpages.foldl _ (by positivity) pdfs

/-- Before the last update the counter is at six tenths of the total, and half a unit more
for each file that is merged. -/
theorem renderPages_i {n : Nat} (hn : 0 < n) (pdfs : List String) :
    (renderPages n pdfs (n + n) (renderStart (n + n))).i = n * (6 / 5) + pdfs.length * (1 / 2) := by
  have hne : (n : ℚ) ≠ 0 := Nat.cast_ne_zero.mpr hn.ne'
  have hpage : (n : ℚ) / (n + n) = 1 / 2 := by field_simp; norm_num
  have hfile : (n : ℚ) * (1 / 2) / n = 1 / 2 := by field_simp
  simp only [renderPages, RenderRun.foldl_i, RenderRun.update_i, renderStart, List.length_range,
    hpage, hfile]
  ring

theorem renderProgress_followed_iff {n : Nat} (hn : 0 < n) (pdfs : List String) :
    Followed (renderProgress n pdfs).1.tail ↔ pdfs.length * 5 ≤ n * 8 := by
  simp only [renderProgress, if_neg (total_ne_zero hn), List.cons_append, List.tail_cons]
  rw [(renderPages_rising n pdfs).followed_iff, renderPages_i hn]
  have hcast : (pdfs.length * 5 ≤ n * 8) ↔ ((pdfs.length : ℚ) * 5 ≤ n * 8) := by
    exact_mod_cast Iff.rfl
  rw [hcast]
  constructor <;> intro h <;> linarith

theorem ReportKind.pdfs_fit_iff (kind : ReportKind) {n : Nat} (hn : 0 < n) :
    (kind.pdfs n).length * 5 ≤ n * 8 ↔ (kind = .itp → 4 ≤ n) := by
  cases kind with
  | itp =>
    simp [ReportKind.pdfs]
    omega
  | deliverables =>
    simp [ReportKind.pdfs]
    omega

theorem renderProgress_head (n : Nat) (pdfs : List String) :
    (⟨.progress, none⟩ : Task) ∈ (renderProgress n pdfs).1 := by
  simp only [renderProgress]
  split <;> simp

/-- The update that a task begins with has no counter, so that a poll after it raises. A
task returns and its other updates can be followed if there are deliverables, and for the
report of an ITP at least four: it merges two files more than it has deliverables. -/
theorem reportProgress_iff (kind : ReportKind) (n : Nat) :
    ¬ Followed (kind.progress n).1 ∧
      ((kind.progress n).2 = true ∧ Followed (kind.progress n).1.tail ↔
        0 < n ∧ (kind = .itp → 4 ≤ n)) := by
  constructor
  · rintro ⟨hwithin, -⟩
    obtain ⟨r, hr, -⟩ := hwithin _ (renderProgress_head n (kind.pdfs n))
    cases hr
  · rw [ReportKind.progress, renderProgress_returns_iff, and_congr_right_iff]
    intro hn
    rw [renderProgress_followed_iff hn, kind.pdfs_fit_iff hn]

theorem reportProgress_iff_four :
    (ReportKind.itp.progress 4).2 = true ∧ Followed (ReportKind.itp.progress 4).1.tail :=
  (reportProgress_iff .itp 4).2.mpr ⟨by decide, fun _ => by decide⟩

theorem reportProgress_one_exceeds :
    (ReportKind.deliverables.progress 0).2 = false ∧
      (ReportKind.deliverables.progress 5).1.head?.bind taskstatus = none ∧
      ((ReportKind.itp.progress 1).1[9]?.bind taskstatus).any
        (fun r => decide (r.total < r.current)) = true := by
  decide +kernel

end Medusa
