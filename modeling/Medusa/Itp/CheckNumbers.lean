import Medusa.Itp.ItcRequests

/-! The checks of an ITC are numbered 1, ..., n. Making checklists keeps that, and so
does deleting a check under the URL of its own ITC. Deleting a check of a template
takes out checks of many checklists and renumbers none of them. -/

namespace Medusa

open Relational

inductive NumberingRequest
  | deliverableNew (url : ItpUrl) (form : DeliverableForm) (now : Nat)
  | itcAdd (url : DeliverableUrl) (itcid : Nat)
  | startItcTesting (url : DeliverableUrl) (itcid : Nat)
  | checkDelete (url : ItpUrl) (itcid checkid : Nat)
  | itcCheckGeneralNew (itcid : Nat) (check : Option Nat)
  | itcCheckGeneralDelete (checkid : Nat)

def NumberingRequest.commit (db : ItpDb) : NumberingRequest → Option ItpDb
  | deliverableNew url form now => Medusa.deliverableNew db url form now
  | itcAdd url itcid => Medusa.itcAdd db url itcid
  | startItcTesting url itcid => Medusa.startItcTesting db url itcid
  | checkDelete url itcid checkid => Medusa.checkDelete db url itcid checkid
  | itcCheckGeneralNew itcid check => Medusa.itcCheckGeneralNew db itcid check
  | itcCheckGeneralDelete checkid => Medusa.itcCheckGeneralDelete db checkid

/-- The checks of every ITC are numbered. There are no checks under an id that no
ITC has, since the column is a foreign key. -/
def ChecksNumbered (t : DeliverableChecks) : Prop :=
  ∀ itc, Numbered ((checksOf t itc).map DeliverableCheckMap.checkNumber)

def DeliverableCheckMap.Before (c c' : DeliverableCheckMap) : Prop :=
  ∀ a b : Int, c.checkNumber = some a → c'.checkNumber = some b → a < b

/-- The checks that meet `p` are the last ones of their checklists. -/
def LastChecks (t : DeliverableChecks) (p : DeliverableCheckMap → Bool) : Prop :=
  ∀ itc, ∀ c ∈ checksOf t itc, ∀ c' ∈ checksOf t itc, p c = false → p c' = true → c.Before c'

/-- No check of the ITC has a number above that of `check`, or none is to be moved. -/
def NoneMoves (t : DeliverableChecks) (itc : Nat) (check : DeliverableCheckMap) : Prop :=
  ∀ k, gapAfter (checksOf t itc).length check.checkNumber = some k →
    ∀ c ∈ checksOf t itc, ∀ n, c.checkNumber = some n → n ≤ k

/-- The condition under which a request keeps the checks numbered. -/
def NumberingRequest.KeepsNumbers (db : ItpDb) : NumberingRequest → Prop
  | checkDelete url itcid checkid =>
    ∀ itp, db.itpOf url = some itp → ∀ itc, db.deliverableItcMaps.get? itcid = some itc →
      ∀ check, db.deliverableCheckMaps.get? checkid = some check →
      check.deliverableItcMapId = some itc.id ∨
        (LastChecks db.deliverableCheckMaps (fun c => c.id == check.id) ∧
          NoneMoves db.deliverableCheckMaps itc.id check)
  | itcCheckGeneralDelete checkid =>
    ∀ check, db.itcCheckMaps.get? checkid = some check →
      LastChecks db.deliverableCheckMaps (fun c => c.itcCheckId == some check.id)
  | _ => True

namespace ChecksNumbered

variable {t : DeliverableChecks}

theorem addCheck (h : ChecksNumbered t) (itc : Nat) (check : ItcCheckMap) :
    ChecksNumbered (addCheck itc t check) := by
  intro k
  rw [checksOf_addCheck]
  split
  · next hk =>
    subst hk
    have hh := (h k).concat
    rw [List.length_map] at hh
    rw [List.map_append]
    exact hh
  · exact h k

theorem deleteChecklist (h : ChecksNumbered t) (itc : Nat) :
    ChecksNumbered (t.delete (fun c => c.deliverableItcMapId == some itc)) := by
  intro k
  rw [checksOf_delete]
  by_cases hk : k = itc
  · have hnil : (checksOf t k).filter (fun c => !(c.deliverableItcMapId == some itc)) = [] := by
      apply List.filter_eq_nil_iff.mpr
      intro c hc
      simp [(mem_checksOf.mp hc).2, hk]
    rw [hnil]
    exact numbered_nil
  · have hall : (checksOf t k).filter (fun c => !(c.deliverableItcMapId == some itc)) =
        checksOf t k := by
      apply List.filter_eq_self.mpr
      intro c hc
      simp [(mem_checksOf.mp hc).2, hk]
    rw [hall]
    exact h k

theorem delete_iff (h : ChecksNumbered t) (p : DeliverableCheckMap → Bool) :
    ChecksNumbered (t.delete p) ↔ LastChecks t p := by
  apply forall_congr'
  intro itc
  rw [checksOf_delete, (h itc).filter_iff]
  simp only [Bool.not_eq_true', Bool.not_eq_false', DeliverableCheckMap.Before]

theorem number_isSome (h : ChecksNumbered t) {itc : Nat} {c : DeliverableCheckMap}
    (hc : c ∈ checksOf t itc) : c.checkNumber.isSome = true := by
  obtain ⟨n, hn, -⟩ := (h itc).mem_iff.mp (List.mem_map_of_mem hc)
  rw [hn]
  rfl

end ChecksNumbered

section Rows

variable {ρ : Type*} {key : ρ → Nat} {num : ρ → Option Int} {rows : List ρ} {r : ρ}

/-- Where the row was the last one there is no gap, and nothing would be closed. -/
theorem closeUp_gapAfter {count n a : Int} (hn : n ≤ count) (ha : a ≤ count) :
    closeUp (gapAfter count (some n)) (some a) = closeGap n (some a) := by
  rw [gapAfter_some]
  by_cases hlt : n < count
  · rw [if_pos hlt]
    rfl
  · have hna : ¬ n < a := by omega
    simp [hlt, closeUp, closeGap, hna]

/-- The numbers of a row and of one of the others. -/
theorem numbers_of_other (h : Numbered (rows.map num)) (hr : r ∈ rows) {r' : ρ}
    (hr' : r' ∈ rows.filter (fun r' => !(key r' == key r))) :
    ∃ n a : Int, num r = some n ∧ num r' = some a ∧ a ≠ n ∧ n ≤ rows.length ∧ a ≤ rows.length := by
  obtain ⟨hr', hkey⟩ := List.mem_filter.mp hr'
  obtain ⟨n, hn, -, hnhigh⟩ := h.mem_iff.mp (List.mem_map_of_mem hr)
  obtain ⟨a, ha, -, hahigh⟩ := h.mem_iff.mp (List.mem_map_of_mem hr')
  rw [List.length_map] at hnhigh hahigh
  refine ⟨n, a, hn, ha, ?_, hnhigh, hahigh⟩
  rintro rfl
  have hsame := List.inj_on_of_nodup_map h.nodup hr' hr (ha.trans hn.symm)
  simp [hsame] at hkey

theorem numbered_closeUp (hkeys : (rows.map key).Nodup) (h : Numbered (rows.map num))
    (hr : r ∈ rows) :
    Numbered ((rows.filter (fun r' => !(key r' == key r))).map (fun r' =>
      closeUp (gapAfter rows.length (num r)) (num r'))) := by
  obtain ⟨n, hn, -, -⟩ := h.mem_iff.mp (List.mem_map_of_mem hr)
  have hnum := h.perm ((Table.perm_cons_filter hkeys hr).map num)
  rw [List.map_cons, hn] at hnum
  have hclose := hnum.close
  rw [List.map_map] at hclose
  convert hclose using 1
  apply List.map_congr_left
  intro r' hr'
  obtain ⟨n', a, hn', ha, -, hnhigh, hahigh⟩ := numbers_of_other h hr hr'
  rw [hn, Option.some.injEq] at hn'
  subst hn'
  rw [Function.comp_apply, hn, ha]
  exact closeUp_gapAfter hnhigh hahigh

theorem sameOrder_closeUp (h : Numbered (rows.map num)) (hr : r ∈ rows) :
    SameOrder num (fun r' => closeUp (gapAfter rows.length (num r)) (num r'))
      (rows.filter (fun r' => !(key r' == key r))) := by
  intro r₁ hr₁ r₂ hr₂
  obtain ⟨n, a, hn, ha, hane, hnhigh, hahigh⟩ := numbers_of_other h hr hr₁
  obtain ⟨n', b, hn', hb, hbne, -, hbhigh⟩ := numbers_of_other h hr hr₂
  rw [hn, Option.some.injEq] at hn'
  subst hn'
  simp only [hn, ha, hb, closeUp_gapAfter hnhigh hahigh, closeUp_gapAfter hnhigh hbhigh, closeGap,
    Option.map_some, Option.some_lt_some]
  split <;> split <;> omega

end Rows

theorem checkDelete_eq {db : ItpDb} {url : ItpUrl} {itcid checkid : Nat} {itp : Itp}
    {itc : DeliverableItcMap} {check : DeliverableCheckMap} (hitp : db.itpOf url = some itp)
    (hitc : db.deliverableItcMaps.get? itcid = some itc)
    (hcheck : db.deliverableCheckMaps.get? checkid = some check)
    (hnumbers : ∀ c ∈ checksOf db.deliverableCheckMaps itc.id, c.checkNumber.isSome = true) :
    checkDelete db url itcid checkid =
      some { db with deliverableCheckMaps := removeCheck db.deliverableCheckMaps itc.id check } := by
  have hguard : gapAfter (checksOf db.deliverableCheckMaps itc.id).length check.checkNumber = none ∨
      ∀ c ∈ checksOf db.deliverableCheckMaps itc.id, c.checkNumber.isSome = true := Or.inr hnumbers
  simp [checkDelete, hitp, hitc, hcheck, guard, hguard]

theorem removeCheck_numbers {t : DeliverableChecks} (itc : Nat) (check : DeliverableCheckMap)
    (k : Nat) :
    (checksOf (removeCheck t itc check) k).map DeliverableCheckMap.checkNumber =
      ((checksOf t k).filter (fun c => !(c.id == check.id))).map (fun c =>
        if k = itc then closeUp (gapAfter (checksOf t itc).length check.checkNumber) c.checkNumber
        else c.checkNumber) := by
  unfold removeCheck
  rw [checksOf_setNumber, checksOf_delete, List.map_map]
  apply List.map_congr_left
  intro c hc
  have hck := (mem_checksOf.mp (List.mem_filter.mp hc).1).2
  by_cases hk : k = itc
  · simp [hck, hk, DeliverableCheckMap.setNumber]
  · simp [hck, hk]

theorem filter_ne_of_other {t : DeliverableChecks} {check : DeliverableCheckMap} {k : Nat}
    (hcheck : check ∈ t.rows) (hk : check.deliverableItcMapId ≠ some k) :
    (checksOf t k).filter (fun c => !(c.id == check.id)) = checksOf t k := by
  apply List.filter_eq_self.mpr
  intro c hc
  have hc := mem_checksOf.mp hc
  have hne : c.id ≠ check.id := by
    intro he
    rw [Table.eq_of_key_eq hc.1 hcheck he] at hc
    exact hk hc.2
  simp [hne]

namespace ChecksNumbered

variable {t : DeliverableChecks} {check : DeliverableCheckMap} {itc : Nat}

/-- A check that is deleted under the URL of its own ITC. -/
theorem removeCheck_own (h : ChecksNumbered t) (hcheck : check ∈ t.rows)
    (hown : check.deliverableItcMapId = some itc) : ChecksNumbered (removeCheck t itc check) := by
  intro k
  rw [removeCheck_numbers]
  by_cases hk : k = itc
  · subst hk
    simpa using numbered_closeUp (checksOf_ids_nodup t k) (h k)
      (mem_checksOf.mpr ⟨hcheck, hown⟩)
  · have hother : check.deliverableItcMapId ≠ some k := by
      rw [hown]
      exact fun he => hk (Option.some.inj he).symm
    rw [filter_ne_of_other hcheck hother]
    simpa [hk] using h k

/-- A check that is deleted under the URL of another ITC: its own checklist may have
a gap then, and a gap is closed in the checklist of that ITC which is not there. -/
theorem removeCheck_other_iff (h : ChecksNumbered t) (hcheck : check ∈ t.rows)
    (hother : check.deliverableItcMapId ≠ some itc) :
    ChecksNumbered (removeCheck t itc check) ↔
      LastChecks t (fun c => c.id == check.id) ∧ NoneMoves t itc check := by
  have hat : ∀ k, k ≠ itc →
      (checksOf (removeCheck t itc check) k).map DeliverableCheckMap.checkNumber =
        (checksOf (t.delete (fun c => c.id == check.id)) k).map
          DeliverableCheckMap.checkNumber := by
    intro k hk
    rw [removeCheck_numbers, checksOf_delete]
    simp [hk]
  have hitc : Numbered ((checksOf (removeCheck t itc check) itc).map
      DeliverableCheckMap.checkNumber) ↔ NoneMoves t itc check := by
    rw [removeCheck_numbers, filter_ne_of_other hcheck hother]
    unfold NoneMoves
    simp only [if_true]
    cases hgap : gapAfter (checksOf t itc).length check.checkNumber with
    | none => simpa [closeUp] using h itc
    | some k =>
      have hclose := (h itc).closeGap_iff (k := k)
      rw [List.map_map] at hclose
      refine hclose.trans ?_
      simp only [List.mem_map, Option.some.injEq, forall_exists_index, and_imp]
      constructor
      · rintro hh k' rfl c hc n hn
        exact hh n c hc hn
      · intro hh n c hc hn
        exact hh k rfl c hc n hn
  have hdelete : Numbered ((checksOf (t.delete (fun c => c.id == check.id)) itc).map
      DeliverableCheckMap.checkNumber) := by
    rw [checksOf_delete, filter_ne_of_other hcheck hother]
    exact h itc
  rw [← h.delete_iff, ← hitc]
  constructor
  · intro hr
    refine ⟨?_, hr itc⟩
    intro k
    by_cases hk : k = itc
    · rw [hk]
      exact hdelete
    · rw [← hat k hk]
      exact hr k
  · intro hd k
    by_cases hk : k = itc
    · rw [hk]
      exact hd.2
    · rw [hat k hk]
      exact hd.1 k

theorem checkDelete_iff {db : ItpDb} (h : ChecksNumbered db.deliverableCheckMaps) (url : ItpUrl)
    (itcid checkid : Nat) :
    ChecksNumbered
        (serve NumberingRequest.commit db (.checkDelete url itcid checkid)).deliverableCheckMaps ↔
      NumberingRequest.KeepsNumbers db (.checkDelete url itcid checkid) := by
  have hnone : NumberingRequest.commit db (.checkDelete url itcid checkid) = none →
      ChecksNumbered
        (serve NumberingRequest.commit db (.checkDelete url itcid checkid)).deliverableCheckMaps :=
    fun hn => by
      rw [serve_none hn]
      exact h
  cases hitp : db.itpOf url with
  | none =>
    refine iff_of_true (hnone ?_) ?_
    · simp [NumberingRequest.commit, checkDelete, hitp]
    · simp [NumberingRequest.KeepsNumbers, hitp]
  | some itp =>
    cases hitc : db.deliverableItcMaps.get? itcid with
    | none =>
      refine iff_of_true (hnone ?_) ?_
      · simp [NumberingRequest.commit, checkDelete, hitp, hitc]
      · simp [NumberingRequest.KeepsNumbers, hitc]
    | some itc =>
      cases hcheck : db.deliverableCheckMaps.get? checkid with
      | none =>
        refine iff_of_true (hnone ?_) ?_
        · simp [NumberingRequest.commit, checkDelete, hitp, hitc, hcheck]
        · simp [NumberingRequest.KeepsNumbers, hcheck]
      | some check =>
        have hrow := (Table.get?_eq_some.mp hcheck).1
        rw [serve_some (checkDelete_eq hitp hitc hcheck (fun c hc => h.number_isSome hc))]
        simp only [NumberingRequest.KeepsNumbers, hitp, hitc, hcheck, Option.some.injEq,
          forall_eq']
        by_cases hown : check.deliverableItcMapId = some itc.id
        · exact iff_of_true (h.removeCheck_own hrow hown) (Or.inl hown)
        · rw [h.removeCheck_other_iff hrow hown, or_iff_right hown]

theorem serve_iff {db : ItpDb} (h : ChecksNumbered db.deliverableCheckMaps) (r : NumberingRequest) :
    ChecksNumbered (serve NumberingRequest.commit db r).deliverableCheckMaps ↔
      r.KeepsNumbers db := by
  have hadd : ∀ itc t check, ChecksNumbered t → ChecksNumbered (Medusa.addCheck itc t check) :=
    fun itc _ check ht => ht.addCheck itc check
  have hserve : ∀ r, (∀ db', NumberingRequest.commit db r = some db' →
      ChecksNumbered db'.deliverableCheckMaps) →
      ChecksNumbered (serve NumberingRequest.commit db r).deliverableCheckMaps :=
    fun r hr => serve_of_commit (P := fun db : ItpDb => ChecksNumbered db.deliverableCheckMaps) h hr
  cases r with
  | deliverableNew url form now =>
    exact iff_of_true (hserve _ (fun _ hr => deliverableNew_checks hadd hr h)) trivial
  | itcAdd url itcid =>
    exact iff_of_true (hserve _ (fun _ hr => itcAdd_checks hadd hr h)) trivial
  | startItcTesting url itcid =>
    exact iff_of_true (hserve _ (fun _ hr =>
      startItcTesting_checks hadd hr (fun itc => h.deleteChecklist itc))) trivial
  | checkDelete url itcid checkid => exact h.checkDelete_iff url itcid checkid
  | itcCheckGeneralNew itcid check =>
    refine iff_of_true (hserve _ ?_) trivial
    intro db' hr
    simp only [NumberingRequest.commit, Medusa.itcCheckGeneralNew, Option.bind_eq_bind,
      Option.bind_eq_some_iff, Option.pure_def, Option.some.injEq] at hr
    obtain ⟨checkid, -, check, -, template, -, rfl⟩ := hr
    exact h
  | itcCheckGeneralDelete checkid =>
    cases hcheck : db.itcCheckMaps.get? checkid with
    | none =>
      have hn : NumberingRequest.commit db (.itcCheckGeneralDelete checkid) = none := by
        simp [NumberingRequest.commit, Medusa.itcCheckGeneralDelete, hcheck]
      rw [serve_none hn]
      exact iff_of_true h (by simp [NumberingRequest.KeepsNumbers, hcheck])
    | some check =>
      simp only [serve, NumberingRequest.commit, Medusa.itcCheckGeneralDelete, hcheck,
        Option.bind_eq_bind, Option.bind_some, Option.pure_def, Option.getD_some,
        NumberingRequest.KeepsNumbers, Option.some.injEq, forall_eq']
      exact h.delete_iff _

end ChecksNumbered

def runNumbering (db : ItpDb) (requests : List NumberingRequest) : ItpDb :=
  serveAll NumberingRequest.commit db requests

/-- From numbered checklists, the checklists are numbered after every request of a
run exactly if each of its requests, in the state before it, keeps the numbers. -/
theorem runNumbering_numbered_iff (db : ItpDb) (requests : List NumberingRequest)
    (h : ChecksNumbered db.deliverableCheckMaps) :
    (∀ pre post, requests = pre ++ post →
      ∀ itc, Numbered ((checksOf (runNumbering db pre).deliverableCheckMaps itc).map
        DeliverableCheckMap.checkNumber)) ↔
      ∀ pre request post, requests = pre ++ request :: post →
        request.KeepsNumbers (runNumbering db pre) :=
  serveAll_good_iff (I := fun db : ItpDb => ChecksNumbered db.deliverableCheckMaps)
    (fun _ r hI => hI.serve_iff r) requests h

theorem pumpProject_checksNumbered : ChecksNumbered pumpProject.deliverableCheckMaps :=
  fun _ => numbered_nil

theorem runNumbering_numbered_iff_pumpProject :
    ChecksNumbered pumpProject.deliverableCheckMaps ∧
    ∀ pre post, [NumberingRequest.deliverableNew pumpItp (pumpForm "pump 1") 10,
      .checkDelete pumpItp 1 1] = pre ++ post →
      ∀ itc, Numbered ((checksOf (runNumbering pumpProject pre).deliverableCheckMaps itc).map
        DeliverableCheckMap.checkNumber) := by
  refine ⟨pumpProject_checksNumbered,
    (runNumbering_numbered_iff _ _ pumpProject_checksNumbered).mpr ?_⟩
  simp only [forall_split_cons, forall_split_nil, and_true]
  refine ⟨trivial, ?_⟩
  intro itp _ itc hitc check hcheck
  have hrow : (runNumbering pumpProject
      [.deliverableNew pumpItp (pumpForm "pump 1") 10]).deliverableItcMaps.get? 1 =
      some (newItc 1 1 (some 1) 1) := by decide +kernel
  have hfirst : (runNumbering pumpProject
      [.deliverableNew pumpItp (pumpForm "pump 1") 10]).deliverableCheckMaps.get? 1 =
      some (newCheck 1 1 1 1) := by decide +kernel
  obtain rfl := Option.some.inj (hitc.symm.trans hrow)
  obtain rfl := Option.some.inj (hcheck.symm.trans hfirst)
  exact Or.inl rfl

/-- The first check of the template is deleted, so the only check left has number 2. -/
theorem itcCheckGeneralDelete_leaves_gap :
    ChecksNumbered pumpProject.deliverableCheckMaps ∧
    ¬ Numbered ((checksOf (runNumbering pumpProject
      [.deliverableNew pumpItp (pumpForm "pump 1") 10,
        .itcCheckGeneralDelete 1]).deliverableCheckMaps 1).map
          DeliverableCheckMap.checkNumber) :=
  ⟨pumpProject_checksNumbered, by decide +kernel⟩

end Medusa
