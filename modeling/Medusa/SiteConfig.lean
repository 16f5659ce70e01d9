import Mathlib.Data.List.Dedup
import Medusa.Model
import Medusa.Separated

/-! `site_config`, the page for the settings of a site. The addresses for the
notifications are one text in the form, with commas between them, and rows in the
database. -/

namespace Medusa

open Relational

/-- A priority that is not sent is `None`, which the database refuses. -/
structure SiteConfigForm where
  emailTriggerPriority : Option Int
  cmmsTriggerPriority : Option Int
  inbuildingsEnabled : Bool
  inbuildingsKey : String
  emailList : String

def withoutSpaces (text : String) : List Char := text.toList.filter (fun c => c != ' ')

def emailStrings (text : String) : List String :=
  ((withoutSpaces text).splitOn ',').map String.ofList

/-- The set of the texts is run through in some order, and the empty one is left out. -/
def newEmails (order : IterationOrder String) (text : String) : List String :=
  (order.visit (emailStrings text).dedup).filter (fun address => address != "")

/-- Some sites have no settings for Inbuildings. -/
def Site.configure (order : IterationOrder String) (form : SiteConfigForm)
    (emailTriggerPriority cmmsTriggerPriority : Int) (s : Site) : Site :=
  { s with
    emailTriggerPriority := emailTriggerPriority
    cmmsTriggerPriority := cmmsTriggerPriority
    inbuildingsConfig := s.inbuildingsConfig.map (fun _ =>
      ⟨form.inbuildingsEnabled, form.inbuildingsKey⟩)
    emails := newEmails order form.emailList }

theorem Site.configure_id (order : IterationOrder String) (form : SiteConfigForm)
    (emailTriggerPriority cmmsTriggerPriority : Int) (s : Site) :
    (s.configure order form emailTriggerPriority cmmsTriggerPriority).id = s.id := rfl

def SiteConfigForm.save (form : SiteConfigForm) (db : Db) (order : IterationOrder String)
    (site : Nat) : Option Db := do
  let emailTriggerPriority ← form.emailTriggerPriority
  let cmmsTriggerPriority ← form.cmmsTriggerPriority
  pure { db with
    sites := db.sites.update (fun s => s.id == site)
      (Site.configure order form emailTriggerPriority cmmsTriggerPriority)
      (Site.configure_id order form emailTriggerPriority cmmsTriggerPriority) }

/-- If the form does not validate, the page is shown again. -/
def siteConfigPost (db : Db) (sitename : String) (order : IterationOrder String)
    (validates : Bool) (form : SiteConfigForm) : Option Db := do
  let site ← db.sites.one? (fun s => s.name == sitename)
  if validates then form.save db order site.id else pure db

/-- The addresses are listed in the order in which the database returns them. -/
def siteConfigGet (db : Db) (sitename : String) (stored : IterationOrder String) :
    Option SiteConfigForm := do
  let site ← db.sites.one? (fun s => s.name == sitename)
  pure
    { emailTriggerPriority := some site.emailTriggerPriority
      cmmsTriggerPriority := some site.cmmsTriggerPriority
      inbuildingsEnabled := site.inbuildingsConfig.any InbuildingsConfig.enabled
      inbuildingsKey := (site.inbuildingsConfig.map InbuildingsConfig.key).getD ""
      emailList := ",".intercalate (stored.visit site.emails) }

theorem mem_newEmails {order : IterationOrder String} {text address : String} :
    address ∈ newEmails order text ↔
      address ≠ "" ∧ IsPiece ',' (withoutSpaces text) address.toList := by
  have hpiece : address ∈ emailStrings text ↔ IsPiece ',' (withoutSpaces text) address.toList := by
    rw [← mem_splitOn_iff, emailStrings, List.mem_map]
    constructor
    · rintro ⟨item, hitem, rfl⟩
      rwa [String.toList_ofList]
    · intro h
      exact ⟨address.toList, h, String.ofList_toList⟩
  rw [newEmails, List.mem_filter, (order.perm _).mem_iff, List.mem_dedup, hpiece, bne_iff_ne,
    and_comm]

theorem newEmails_nodup (order : IterationOrder String) (text : String) :
    (newEmails order text).Nodup :=
  ((order.perm _).nodup_iff.mpr (List.nodup_dedup _)).filter _

/-- A stored address has characters of the text only, so neither a comma nor a space. -/
theorem free_of_mem_newEmails {order : IterationOrder String} {text address : String}
    (h : address ∈ newEmails order text) : ',' ∉ address.toList ∧ ' ' ∉ address.toList := by
  obtain ⟨-, hcomma, before, after, htext, -⟩ := mem_newEmails.mp h
  refine ⟨hcomma, fun hspace => ?_⟩
  have hmem : ' ' ∈ withoutSpaces text := by
    rw [htext]
    exact List.mem_append_left _ (List.mem_append_right _ hspace)
  simp [withoutSpaces] at hmem

/-- Addresses without commas and spaces are read back from the text in which they are
joined. -/
theorem newEmails_intercalate (order : IterationOrder String) {addresses : List String}
    (hnodup : addresses.Nodup) (hne : ∀ a ∈ addresses, a ≠ "")
    (hfree : ∀ a ∈ addresses, ',' ∉ a.toList ∧ ' ' ∉ a.toList) :
    (newEmails order (",".intercalate addresses)).Perm addresses := by
  have hspaces : withoutSpaces (",".intercalate addresses) =
      [','].intercalate (addresses.map String.toList) := by
    unfold withoutSpaces
    rw [String.toList_intercalate]
    apply List.filter_eq_self.mpr
    intro c hc
    rw [bne_iff_ne]
    rintro rfl
    rcases mem_intercalate hc with hc | ⟨item, hitem, hc⟩
    · exact absurd hc (by decide)
    · obtain ⟨a, ha, rfl⟩ := List.mem_map.mp hitem
      exact (hfree a ha).2 hc
  have hpieces : ∀ a : String, a ≠ "" →
      (IsPiece ',' (withoutSpaces (",".intercalate addresses)) a.toList ↔ a ∈ addresses) := by
    intro a hempty
    rw [hspaces, ← mem_splitOn_iff, mem_splitOn_intercalate]
    · constructor
      · intro ha
        obtain ⟨a', ha', he⟩ := List.mem_map.mp ha
        rwa [← String.toList_inj.mp he]
      · exact List.mem_map_of_mem
    · intro item hitem
      obtain ⟨a', ha', rfl⟩ := List.mem_map.mp hitem
      exact (hfree a' ha').1
    · simpa using hempty
  rw [List.perm_ext_iff_of_nodup (newEmails_nodup _ _) hnodup]
  intro a
  rw [mem_newEmails]
  constructor
  · rintro ⟨hempty, hpiece⟩
    exact (hpieces a hempty).mp hpiece
  · intro ha
    exact ⟨hne a ha, (hpieces a (hne a ha)).mpr ha⟩

/-- A form that validates and has both priorities stores its addresses for the site. -/
theorem siteConfigPost_emails {db : Db} {sitename : String} {site : Site} {form : SiteConfigForm}
    (hsite : db.sites.one? (fun s => s.name == sitename) = some site)
    (hemail : form.emailTriggerPriority.isSome = true)
    (hcmms : form.cmmsTriggerPriority.isSome = true) (order : IterationOrder String) :
    ∃ db' site', siteConfigPost db sitename order true form = some db' ∧
      db'.sites.one? (fun s => s.name == sitename) = some site' ∧
      site'.emails = newEmails order form.emailList := by
  obtain ⟨email, he⟩ := Option.isSome_iff_exists.mp hemail
  obtain ⟨cmms, hc⟩ := Option.isSome_iff_exists.mp hcmms
  have hsave : siteConfigPost db sitename order true form = some { db with
      sites := db.sites.update (fun s => s.id == site.id) (Site.configure order form email cmms)
        (Site.configure_id order form email cmms) } := by
    simp only [siteConfigPost, hsite, SiteConfigForm.save, he, hc, Option.bind_eq_bind,
      Option.bind_some, if_true, Option.pure_def]
  refine ⟨_, site.configure order form email cmms, hsave, ?_, rfl⟩
  simpa using Table.one?_update (p := fun s => s.id == site.id)
    (Site.configure_id order form email cmms) (fun _ => rfl) hsite

def plantConfig : SiteConfigForm := ⟨some 3, some 2, true, "key", "operator, engineer,,operator"⟩

end Medusa
