import Mathlib.Data.List.Sort
import Medusa.Acknowledge
import Medusa.Files
import Medusa.Listing

/-! The reports of the sites, and how they are mailed. A report is saved to a file of a
fixed name, attached to one mail for each address of the site, and deleted. An address
that the server refuses is passed over; every other failure ends the mailing, and with it
the reports of the sites that are still to come. -/

namespace Medusa

open Relational

structure ReportEntry where
  asset : Asset
  recentResults : List Result
  unresolvedResults : List Result
deriving DecidableEq

structure SiteReport where
  site : Site
  entries : List ReportEntry
deriving DecidableEq

def generateReport (db : Db) (site : Site) : SiteReport where
  site := site
  entries := ((db.assets.rows.filter (fun a => a.siteId == site.id)).insertionSort
    (fun a b => a.priority ≤ b.priority)).map (fun a =>
      { asset := a
        recentResults := db.results.rows.filter (fun r => r.assetId == a.id && r.recent)
        unresolvedResults := db.results.rows.filter (fun r => r.assetId == a.id && r.unresolved) })

/-- What comes of the attempt to send a mail. `refused` are the two exceptions that are
caught. -/
inductive Delivery
  | accepted
  | refused
  | raises
deriving DecidableEq

structure Mailing where
  files : Files SiteReport
  sent : List (String × SiteReport)
  raised : Bool

def reportPath : String := "report.pdf"

/-- The loop over the addresses. The attachment is read again for each mail, and a missing
one raises. -/
def mailEach (files : Files SiteReport) : List (String × Delivery) →
    List (String × SiteReport) × Bool
  | [] => ([], false)
  | (address, delivery) :: rest =>
    match files reportPath, delivery with
    | none, _ => ([], true)
    | some report, .accepted => ((address, report) :: (mailEach files rest).1, (mailEach files rest).2)
    | some _, .refused => mailEach files rest
    | some _, .raises => ([], true)

/-- `template` says whether there is one template of the name `Report`. -/
def sendMailReport (template : Bool) (s : Mailing) (report : SiteReport)
    (addresses : List (String × Delivery)) : Mailing :=
  if template then
    let files := s.files.write reportPath report
    match mailEach files addresses with
    | (sent, true) => ⟨files, s.sent ++ sent, true⟩
    | (sent, false) => ⟨files.removeAll [reportPath], s.sent ++ sent, false⟩
  else { s with raised := true }

/-- `answer` says what comes of the mail to the address with the number in the list of the
site. -/
def Site.addresses (answer : Site → Nat → Delivery) (site : Site) : List (String × Delivery) :=
  site.emails.mapIdx (fun i address => (address, answer site i))

def sendReport (db : Db) (template : Bool) (answer : Site → Nat → Delivery) (s : Mailing)
    (site : Site) : Mailing :=
  sendMailReport template s (generateReport db site) (site.addresses answer)

/-- An exception ends the loop over the sites. -/
def sendAllReports (db : Db) (template : Bool) (answer : Site → Nat → Delivery)
    (files : Files SiteReport) : Mailing :=
  db.sites.rows.foldl (fun s site => if s.raised then s else sendReport db template answer s site)
    ⟨files, [], false⟩

/-- The mails that are to be sent, in their order. -/
def attempts (answer : Site → Nat → Delivery) (sites : List Site) :
    List (Site × String × Delivery) :=
  sites.flatMap (fun site => (site.addresses answer).map (fun a => (site, a.1, a.2)))

/-- What goes out: the reports for the accepted addresses before the first exception. -/
def delivered (report : Site → SiteReport) (attempts : List (Site × String × Delivery)) :
    List (String × SiteReport) :=
  (attempts.takeWhile (fun a => decide (a.2.2 ≠ .raises))).filterMap (fun a =>
    if a.2.2 = .accepted then some (a.2.1, report a.1) else none)

def anyRaises (attempts : List (Site × String × Delivery)) : Bool :=
  attempts.any (fun a => decide (a.2.2 = .raises))

section Attempts

variable (report : Site → SiteReport) (site : Site) (address : String)
  (rest : List (Site × String × Delivery))

theorem delivered_accepted :
    delivered report ((site, address, .accepted) :: rest) =
      (address, report site) :: delivered report rest := by
  simp [delivered]

theorem delivered_refused :
    delivered report ((site, address, .refused) :: rest) = delivered report rest := by
  simp [delivered]

theorem delivered_raises : delivered report ((site, address, .raises) :: rest) = [] := by
  simp [delivered]

theorem anyRaises_cons (delivery : Delivery) :
    anyRaises ((site, address, delivery) :: rest) =
      (decide (delivery = .raises) || anyRaises rest) := rfl

end Attempts

theorem delivered_append (report : Site → SiteReport) (a b : List (Site × String × Delivery)) :
    delivered report (a ++ b) =
      delivered report a ++ if anyRaises a then [] else delivered report b := by
  induction a with
  | nil => rfl
  | cons x a ih =>
    obtain ⟨site, address, delivery⟩ := x
    rw [List.cons_append]
    cases delivery with
    | accepted =>
      rw [delivered_accepted, delivered_accepted, anyRaises_cons, ih]
      rfl
    | refused =>
      rw [delivered_refused, delivered_refused, anyRaises_cons, ih]
      rfl
    | raises =>
      rw [delivered_raises, delivered_raises, anyRaises_cons]
      rfl

/-- The loop over the addresses of one site. -/
theorem mailEach_eq {files : Files SiteReport} {report : SiteReport}
    (h : files reportPath = some report) (site : Site) (addresses : List (String × Delivery)) :
    mailEach files addresses =
      (delivered (fun _ => report) (addresses.map (fun a => (site, a.1, a.2))),
        anyRaises (addresses.map (fun a => (site, a.1, a.2)))) := by
  induction addresses with
  | nil => rfl
  | cons a addresses ih =>
    obtain ⟨address, delivery⟩ := a
    cases delivery <;> simp [mailEach, h, ih, delivered, anyRaises]

/-- One site: the mails for it go out up to the first exception, and without one the file
is deleted. -/
theorem sendReport_eq (db : Db) (answer : Site → Nat → Delivery) (s : Mailing) (site : Site) :
    let mails := (site.addresses answer).map (fun a => (site, a.1, a.2))
    let saved := s.files.write reportPath (generateReport db site)
    sendReport db true answer s site =
      ⟨if anyRaises mails then saved else saved.removeAll [reportPath],
        s.sent ++ delivered (generateReport db) mails, anyRaises mails⟩ := by
  intro mails saved
  have hread : saved reportPath = some (generateReport db site) := Function.update_self _ _ _
  have hsame : delivered (fun _ => generateReport db site) mails =
      delivered (generateReport db) mails := by
    unfold delivered
    refine List.filterMap_congr ?_
    intro a ha
    have hm := (List.takeWhile_prefix _).subset ha
    obtain ⟨x, -, rfl⟩ := List.mem_map.mp hm
    rfl
  have hloop := mailEach_eq hread site (site.addresses answer)
  simp only [sendReport, sendMailReport, if_true]
  rw [hloop, hsame]
  cases anyRaises mails <;> rfl

/-- All reports: the mails that go out are the accepted ones before the first exception,
each with the report of the site of the address. -/
theorem foldl_sendReport (db : Db) (answer : Site → Nat → Delivery) (sites : List Site)
    {s : Mailing} (h : s.raised = false) :
    let out := sites.foldl
      (fun s site => if s.raised then s else sendReport db true answer s site) s
    out.sent = s.sent ++ delivered (generateReport db) (attempts answer sites) ∧
      out.raised = anyRaises (attempts answer sites) ∧
      (∀ name, name ≠ reportPath → out.files name = s.files name) ∧
      (out.raised = false → sites ≠ [] → out.files reportPath = none) ∧
      (out.raised = true → ∃ site ∈ sites, out.files reportPath = some (generateReport db site)) := by
  induction sites generalizing s with
  | nil =>
    refine ⟨by simp [attempts, delivered], h, fun _ _ => rfl, by simp, ?_⟩
    intro hraised
    exact absurd (h.symm.trans hraised) Bool.false_ne_true
  | cons site sites ih =>
    let mails := (site.addresses answer).map (fun a => (site, a.1, a.2))
    have hattempts : attempts answer (site :: sites) = mails ++ attempts answer sites := rfl
    have hany : anyRaises (mails ++ attempts answer sites) =
        (anyRaises mails || anyRaises (attempts answer sites)) := List.any_append
    let saved := s.files.write reportPath (generateReport db site)
    have hsend := sendReport_eq db answer s site
    have hfiles : (sendReport db true answer s site).files =
        if anyRaises mails then saved else saved.removeAll [reportPath] :=
      congrArg Mailing.files hsend
    have hsent : (sendReport db true answer s site).sent =
        s.sent ++ delivered (generateReport db) mails := congrArg Mailing.sent hsend
    have hraisedHere : (sendReport db true answer s site).raised = anyRaises mails :=
      congrArg Mailing.raised hsend
    have hothers : ∀ name, name ≠ reportPath →
        (sendReport db true answer s site).files name = s.files name := by
      intro name hname
      have hwrite : saved name = s.files name := Function.update_of_ne hname _ _
      rw [hfiles]
      split
      · exact hwrite
      · simp [Files.removeAll, hname, hwrite]
    dsimp only
    rw [List.foldl_cons, h, if_neg Bool.false_ne_true, hattempts, delivered_append, hany]
    cases hraises : anyRaises mails with
    | true =>
      -- the loop is over: the state stays what it is
      have hstays : ∀ (sites : List Site) {s : Mailing}, s.raised = true → sites.foldl
          (fun s site => if s.raised then s else sendReport db true answer s site) s = s := by
        intro sites
        induction sites with
        | nil => exact fun _ => rfl
        | cons site sites ih =>
          intro s hs
          rw [List.foldl_cons, if_pos hs]
          exact ih hs
      have hraised := hraisedHere.trans hraises
      have hfile : (sendReport db true answer s site).files reportPath =
          some (generateReport db site) := by
        rw [hfiles, if_pos hraises]
        exact Function.update_self _ _ _
      rw [hstays sites hraised, hsent, hraised]
      refine ⟨by simp, rfl, hothers, fun hfalse => absurd hfalse (by simp), fun _ => ?_⟩
      exact ⟨site, List.mem_cons_self, hfile⟩
    | false =>
      have hraised := hraisedHere.trans hraises
      have hgone : (sendReport db true answer s site).files reportPath = none := by
        rw [hfiles, hraises]
        simp [Files.removeAll]
      obtain ⟨hsentRest, hraisedRest, hothersRest, hgoneRest, hleftRest⟩ := ih hraised
      refine ⟨by rw [hsentRest, hsent]; simp, by rw [hraisedRest]; rfl, ?_, ?_, ?_⟩
      · intro name hname
        exact (hothersRest name hname).trans (hothers name hname)
      · intro hfalse _
        cases sites with
        | nil => exact hgone
        | cons site' sites => exact hgoneRest hfalse (List.cons_ne_nil _ _)
      · intro htrue
        obtain ⟨site', hsite', hfile⟩ := hleftRest htrue
        exact ⟨site', List.mem_cons_of_mem _ hsite', hfile⟩

def SiteReport.issues (report : SiteReport) : List Result :=
  report.entries.flatMap ReportEntry.unresolvedResults

/-- The report of a site has each of its issues once, under the asset. -/
theorem generateReport_issues (db : Db) (site : Site) :
    (generateReport db site).issues.Perm (db.getUnresolved site.id) := by
  let assets := (db.assets.rows.filter (fun a => a.siteId == site.id)).insertionSort
    (fun a b => a.priority ≤ b.priority)
  have hperm : assets.Perm (db.assets.rows.filter (fun a => a.siteId == site.id)) :=
    List.perm_insertionSort _ _
  have hmem : ∀ a, a ∈ assets ↔ a ∈ db.assets.rows ∧ a.siteId = site.id := by
    intro a
    rw [hperm.mem_iff, List.mem_filter, beq_iff_eq]
  have hnodup : (assets.map Asset.id).Nodup :=
    (hperm.map Asset.id).nodup_iff.mpr (db.assets.nodup.sublist (List.filter_sublist.map _))
  have hentries : (generateReport db site).issues = (assets.map Asset.id).flatMap (fun id =>
      (db.getUnresolved site.id).filter (fun r => decide (r.assetId = id))) := by
    rw [SiteReport.issues, generateReport, List.flatMap_map, List.flatMap_map]
    refine List.flatMap_congr ?_
    intro a ha
    rw [Db.getUnresolved, List.filter_filter]
    refine List.filter_congr ?_
    intro r _
    have hon : r.assetId = a.id →
        db.assets.rows.any (fun b => b.id == r.assetId && b.siteId == site.id) = true := by
      intro hid
      obtain ⟨hrow, hsite⟩ := (hmem a).mp ha
      exact List.any_eq_true.mpr ⟨a, hrow, by simp [hid, hsite]⟩
    by_cases hid : r.assetId = a.id
    · simp [hid, hid ▸ hon hid]
    · simp [hid]
  rw [hentries]
  refine flatMap_fibers_perm hnodup ?_
  intro r hr
  obtain ⟨-, -, a, ha, hid, hsite⟩ := mem_getUnresolved.mp hr
  exact List.mem_map.mpr ⟨a, (hmem a).mpr ⟨ha, hsite⟩, hid⟩

end Medusa
