import Medusa.Children
import Medusa.Following
import Medusa.Itp.Integrity
import Medusa.Itp.Projects

/-! The plan of a site: its projects, their ITPs and the deliverables of these. What is
deleted is only the row itself; the rows below it stay, without a parent. Seen from the
URLs this is as good as deleting them: the plan is a tree, and every request edits the tree,
whatever has been left behind in the tables. -/

namespace Medusa

open Relational

def Itp.forgetProject (i : Itp) : Itp := { i with projectId := none }

theorem Itp.forgetProject_id (i : Itp) : i.forgetProject.id = i.id := rfl

def Itp.rename (name : String) (i : Itp) : Itp := { i with name := name }

theorem Itp.rename_id (name : String) (i : Itp) : (i.rename name).id = i.id := rfl

def Deliverable.forgetItp (d : Deliverable) : Deliverable := { d with itpId := none }

theorem Deliverable.forgetItp_id (d : Deliverable) : d.forgetItp.id = d.id := rfl

def newItp (name : String) (project : Nat) (status : String) (id : Nat) : Itp :=
  ⟨id, name, some project, some status, some 0⟩

theorem newItp_id (name : String) (project : Nat) (status : String) (id : Nat) :
    (newItp name project status id).id = id := rfl

theorem Project.siteAndName_iff (p : Project) (site : Nat) (name : String) :
    (p.siteId == some site && p.name == name) = true ↔ p.siteAndName = some (site, name) := by
  simp [Project.siteAndName, and_comm]

theorem Project.number_iff (p : Project) (jobNumber : String) :
    (p.jobNumber == jobNumber) = true ↔ p.number = some jobNumber := by
  simp [Project.number]

def ItpDb.projectOf (db : ItpDb) (siteid projectid : Nat) : Option Project := do
  let site ← db.sites.get? siteid
  db.projects.first? (fun p => p.id == projectid && p.siteId == some site.id)

/-- The ITPs stay, without a project. -/
def siteProjectDelete (db : ItpDb) (siteid projectid : Nat) : Option ItpDb := do
  let project ← db.projectOf siteid projectid
  pure { db with
    projects := db.projects.delete (fun p => p.id == project.id)
    itps := db.itps.update (fun i => i.projectId == some project.id) Itp.forgetProject
      Itp.forgetProject_id }

def siteProjectItpNew (db : ItpDb) (siteid projectid : Nat) (name status : String) :
    Option ItpDb := do
  let project ← db.projectOf siteid projectid
  guard (name ≠ "")
  guard ((db.itps.first? (fun i => i.projectId == some project.id && i.name == name)).isNone)
  pure { db with
    itps := db.itps.insert (newItp name project.id status) (newItp_id name project.id status) }

/-- An empty name leaves the name as it is. The description of the form is not saved. -/
def siteProjectItpEdit (db : ItpDb) (url : ItpUrl) (name : String) : Option ItpDb := do
  let project ← db.projectOf url.siteid url.projectid
  let itp ← db.itps.first? (fun i => i.id == url.itpid && i.projectId == some project.id)
  let named := db.itps.first? (fun i => i.projectId == some project.id && i.name == name)
  guard (named.all (fun i => i.id == itp.id))
  pure { db with
    itps := db.itps.update (fun i => i.id == itp.id && name != "") (Itp.rename name)
      (Itp.rename_id name) }

/-- The deliverables stay, without an ITP. -/
def siteProjectItpDelete (db : ItpDb) (url : ItpUrl) : Option ItpDb := do
  let itp ← db.itpOf url
  pure { db with
    itps := db.itps.delete (fun i => i.id == itp.id)
    deliverables := db.deliverables.update (fun d => d.itpId == some itp.id) Deliverable.forgetItp
      Deliverable.forgetItp_id }

structure DeliverableEdit where
  name : String
  description : String
  startDate : Option Nat
  secondaryLocation : String

/-- A field that is empty leaves its column as it is. -/
def Deliverable.edit (form : DeliverableEdit) (secondary : Option Nat) (d : Deliverable) :
    Deliverable :=
  { d with
    name := if form.name = "" then d.name else form.name
    description := if form.description = "" then d.description else form.description
    startDate := form.startDate <|> d.startDate
    secondaryLocationId := secondary <|> d.secondaryLocationId }

theorem Deliverable.edit_id (form : DeliverableEdit) (secondary : Option Nat) (d : Deliverable) :
    (d.edit form secondary).id = d.id := rfl

/-- The page that led to the request is split before the form is read. -/
def siteProjectItpDeliverableEdit (db : ItpDb) (url : DeliverableUrl) (referrer : Option String)
    (form : DeliverableEdit) : Option ItpDb := do
  let itp ← db.itpOf url.toItpUrl
  let deliverable ← db.deliverables.first? (fun d => d.id == url.deliverableid &&
    d.itpId == some itp.id)
  let _ ← referrer
  let named := db.deliverables.first? (fun d => d.name == form.name && d.itpId == some itp.id)
  guard (named.all (fun d => d.id == deliverable.id))
  let secondary := db.secondaryLocations.first? (fun l => l.name == form.secondaryLocation)
  pure { db with
    deliverables := db.deliverables.update (fun d => d.id == deliverable.id)
      (Deliverable.edit form (secondary.map SecondaryLocation.id)) (Deliverable.edit_id form _) }

inductive PlanRequest
  | project (r : ProjectRequest)
  | projectDelete (siteid projectid : Nat)
  | itpNew (siteid projectid : Nat) (name status : String)
  | itpEdit (url : ItpUrl) (name : String)
  | itpDelete (url : ItpUrl)
  | deliverableEdit (url : DeliverableUrl) (referrer : Option String) (form : DeliverableEdit)
  | store (r : StoreRequest)

def PlanRequest.commit (db : ItpDb) : PlanRequest → Option ItpDb
  | project r => r.serve db
  | projectDelete siteid projectid => siteProjectDelete db siteid projectid
  | itpNew siteid projectid name status => siteProjectItpNew db siteid projectid name status
  | itpEdit url name => siteProjectItpEdit db url name
  | itpDelete url => siteProjectItpDelete db url
  | deliverableEdit url referrer form => siteProjectItpDeliverableEdit db url referrer form
  | store r => r.commit db

structure DeliverableNode where
  id : Nat
  name : String
deriving DecidableEq

structure ItpNode where
  id : Nat
  name : String
  deliverables : List DeliverableNode
deriving DecidableEq

structure ProjectNode where
  id : Nat
  name : String
  jobNumber : String
  itps : List ItpNode
deriving DecidableEq

/-- The projects of each site, as trees. -/
abbrev Plan := Nat → List ProjectNode

namespace Plan

def addProject (plan : Plan) (site : Nat) (node : ProjectNode) : Plan :=
  fun s => if s = site then plan s ++ [node] else plan s

def editProject (plan : Plan) (project : Nat) (name jobNumber : Option String) : Plan :=
  fun s => (plan s).map (fun p => if p.id = project then
    { p with name := name.getD p.name, jobNumber := jobNumber.getD p.jobNumber } else p)

/-- With all that is below it. -/
def dropProject (plan : Plan) (project : Nat) : Plan :=
  fun s => (plan s).filter (fun p => p.id != project)

/-- Edit the ITPs under each project. -/
def mapItps (plan : Plan) (f : Nat → List ItpNode → List ItpNode) : Plan :=
  fun s => (plan s).map (fun p => { p with itps := f p.id p.itps })

def addItp (plan : Plan) (project : Nat) (node : ItpNode) : Plan :=
  plan.mapItps (fun p itps => if p = project then itps ++ [node] else itps)

def renameItp (plan : Plan) (itp : Nat) (name : String) : Plan :=
  plan.mapItps (fun _ itps => itps.map (fun i => if i.id = itp then { i with name := name } else i))

def dropItp (plan : Plan) (itp : Nat) : Plan :=
  plan.mapItps (fun _ itps => itps.filter (fun i => i.id != itp))

def mapDeliverables (plan : Plan) (f : Nat → List DeliverableNode → List DeliverableNode) : Plan :=
  plan.mapItps (fun _ itps => itps.map (fun i => { i with deliverables := f i.id i.deliverables }))

def addDeliverable (plan : Plan) (itp : Nat) (node : DeliverableNode) : Plan :=
  plan.mapDeliverables (fun i deliverables =>
    if i = itp then deliverables ++ [node] else deliverables)

def renameDeliverable (plan : Plan) (deliverable : Nat) (name : String) : Plan :=
  plan.mapDeliverables (fun _ deliverables => deliverables.map (fun d =>
    if d.id = deliverable then { d with name := name } else d))

def dropDeliverable (plan : Plan) (deliverable : Nat) : Plan :=
  plan.mapDeliverables (fun _ deliverables => deliverables.filter (fun d => d.id != deliverable))

def project? (plan : Plan) (siteid projectid : Nat) : Option ProjectNode :=
  (plan siteid).find? (fun p => p.id == projectid)

def itp? (plan : Plan) (url : ItpUrl) : Option ItpNode := do
  let project ← plan.project? url.siteid url.projectid
  project.itps.find? (fun i => i.id == url.itpid)

def deliverable? (plan : Plan) (url : DeliverableUrl) : Option DeliverableNode := do
  let itp ← plan.itp? url.toItpUrl
  itp.deliverables.find? (fun d => d.id == url.deliverableid)

end Plan

/-- The tables that the requests on a plan read and leave alone. -/
structure PlanContext where
  sites : Table Site Site.id
  locations : Table Location Location.id
  deliverableTypes : Table DeliverableType DeliverableType.id

/-- What a request does to the tree. It is refused if its node is not there, or if the name
is taken by another node under the same parent; the job number of a project may not be
taken on any site. `id` is the id of a new node, which no node of its kind has. -/
def PlanRequest.step (context : PlanContext) (id : Nat) (plan : Plan) : PlanRequest → Option Plan
  | project (.new siteid form) => do
    guard (form.name ≠ "")
    guard (form.jobNumber ≠ "")
    guard ((context.sites.get? siteid).isSome)
    guard (∀ p ∈ plan siteid, p.name ≠ form.name)
    guard (∀ s ∈ context.sites.rows, ∀ p ∈ plan s.id, p.jobNumber ≠ form.jobNumber ∧ p.id ≠ id)
    pure (plan.addProject siteid ⟨id, form.name, form.jobNumber, []⟩)
  | project (.edit siteid projectid referrer form) => do
    let project ← plan.project? siteid projectid
    guard (referrer.isSome)
    guard (((plan siteid).find? (fun p => p.name == form.name)).all (fun p => p.id == projectid))
    guard (∀ s ∈ context.sites.rows, ∀ p ∈ plan s.id, p.jobNumber = form.jobNumber → p.id = projectid)
    pure (plan.editProject projectid
      (if form.name ≠ "" ∧ form.name ≠ project.name then some form.name else none)
      (if form.jobNumber ≠ "" ∧ form.jobNumber ≠ project.jobNumber then some form.jobNumber
        else none))
  | projectDelete siteid projectid => do
    let _ ← plan.project? siteid projectid
    pure (plan.dropProject projectid)
  | itpNew siteid projectid name _ => do
    let project ← plan.project? siteid projectid
    guard (name ≠ "")
    guard (∀ i ∈ project.itps, i.name ≠ name)
    guard (∀ s ∈ context.sites.rows, ∀ p ∈ plan s.id, ∀ i ∈ p.itps, i.id ≠ id)
    pure (plan.addItp projectid ⟨id, name, []⟩)
  | itpEdit url name => do
    let project ← plan.project? url.siteid url.projectid
    let _ ← plan.itp? url
    guard ((project.itps.find? (fun i => i.name == name)).all (fun i => i.id == url.itpid))
    pure (if name = "" then plan else plan.renameItp url.itpid name)
  | itpDelete url => do
    let _ ← plan.itp? url
    pure (plan.dropItp url.itpid)
  | deliverableEdit url referrer form => do
    let itp ← plan.itp? url.toItpUrl
    let _ ← plan.deliverable? url
    guard (referrer.isSome)
    guard ((itp.deliverables.find? (fun d => d.name == form.name)).all
      (fun d => d.id == url.deliverableid))
    pure (if form.name = "" then plan else plan.renameDeliverable url.deliverableid form.name)
  | store (.deliverableNew url form _) => do
    let itp ← plan.itp? url
    guard (form.name ≠ "" ∧ form.type ≠ "" ∧ form.location ≠ "")
    guard (∀ d ∈ itp.deliverables, d.name ≠ form.name)
    guard ((context.locations.first? (fun l => l.name == form.location)).isSome)
    guard ((context.deliverableTypes.first? (fun t => t.name == form.type)).isSome)
    guard (∀ s ∈ context.sites.rows, ∀ p ∈ plan s.id, ∀ i ∈ p.itps, ∀ d ∈ i.deliverables, d.id ≠ id)
    pure (plan.addDeliverable url.itpid ⟨id, form.name⟩)
  | store (.deliverableDelete url) => do
    let _ ← plan.deliverable? url
    pure (plan.dropDeliverable url.deliverableid)
  | store _ => none

namespace ItpDb

def context (db : ItpDb) : PlanContext := ⟨db.sites, db.locations, db.deliverableTypes⟩

def deliverableNode (d : Deliverable) : DeliverableNode := ⟨d.id, d.name⟩

def itpNode (db : ItpDb) (i : Itp) : ItpNode :=
  ⟨i.id, i.name, (db.deliverables.childrenOf Deliverable.itpId i.id).map deliverableNode⟩

def projectNode (db : ItpDb) (p : Project) : ProjectNode :=
  ⟨p.id, p.name, p.jobNumber, (db.itps.childrenOf Itp.projectId p.id).map db.itpNode⟩

/-- The plan that the tables hold. -/
def plan (db : ItpDb) : Plan :=
  fun site => (db.projects.childrenOf Project.siteId site).map db.projectNode

/-- No reference dangles, every project has a site, and no name or job number is there
twice. -/
structure Sound (db : ItpDb) : Prop where
  sites : db.projects.Refers Project.siteId db.sites
  projects : db.itps.ForeignKey Itp.projectId db.projects
  itps : db.deliverables.ForeignKey Deliverable.itpId db.itps
  names : db.projects.Distinct Project.siteAndName
  numbers : db.projects.Distinct Project.number

end ItpDb

/-- The key that a new row of the request gets. -/
def PlanRequest.newKey (db : ItpDb) : PlanRequest → Nat
  | project _ => db.projects.nextKey
  | itpNew _ _ _ _ => db.itps.nextKey
  | _ => db.deliverables.nextKey

namespace ItpDb

variable {db db' : ItpDb}

section Lookups

theorem projectOf_eq_some {siteid projectid : Nat} {project : Project} :
    db.projectOf siteid projectid = some project ↔ (∃ site ∈ db.sites.rows, site.id = siteid) ∧
      project ∈ db.projects.rows ∧ project.siteId = some siteid ∧ project.id = projectid := by
  simp only [projectOf, Option.bind_eq_bind, Option.bind_eq_some_iff, Table.first?_child_of,
    Table.find?_childrenOf, Table.get?_eq_some]
  constructor
  · rintro ⟨site, ⟨hsite, rfl⟩, hproject, hsiteid, hid⟩
    exact ⟨⟨site, hsite, rfl⟩, hproject, hsiteid, hid⟩
  · rintro ⟨⟨site, hsite, rfl⟩, hproject, hsiteid, hid⟩
    exact ⟨site, ⟨hsite, rfl⟩, hproject, hsiteid, hid⟩

theorem itpOf_eq (url : ItpUrl) : db.itpOf url = (db.projectOf url.siteid url.projectid).bind
    (fun project => db.itps.first? (fun i => i.id == url.itpid && i.projectId == some project.id)) := by
  simp only [itpOf, projectOf, Option.bind_eq_bind, Option.bind_assoc]

theorem itpOf_eq_some {url : ItpUrl} {itp : Itp} (h : db.itpOf url = some itp) :
    itp ∈ db.itps.rows ∧ itp.id = url.itpid := by
  rw [itpOf_eq, Option.bind_eq_some_iff] at h
  obtain ⟨project, -, hitp⟩ := h
  rw [Table.first?_child_of, Table.find?_childrenOf] at hitp
  exact ⟨hitp.1, hitp.2.2⟩

/-- The URL of a project leads to the project under its site in the plan. -/
theorem Sound.project? (h : db.Sound) (siteid projectid : Nat) :
    db.plan.project? siteid projectid = (db.projectOf siteid projectid).map db.projectNode := by
  rw [Plan.project?, plan, List.find?_map]
  congr 1
  refine Option.ext ?_
  intro project
  rw [projectOf_eq_some]
  refine Table.find?_childrenOf.trans ?_
  constructor
  · rintro ⟨hproject, hsiteid, hid⟩
    obtain ⟨site, hsite, hsiteid'⟩ := h.sites project hproject
    exact ⟨⟨site, hsite, Option.some.inj (hsiteid'.symm.trans hsiteid)⟩, hproject, hsiteid, hid⟩
  · exact fun hproject => hproject.2

theorem Sound.itp? (h : db.Sound) (url : ItpUrl) :
    db.plan.itp? url = (db.itpOf url).map db.itpNode := by
  rw [Plan.itp?, h.project?, itpOf_eq]
  cases db.projectOf url.siteid url.projectid with
  | none => rfl
  | some project =>
    simp only [Option.map_some, Option.bind_eq_bind, Option.bind_some, Table.first?_child_of,
      projectNode, List.find?_map]
    rfl

theorem Sound.deliverable? (h : db.Sound) (url : DeliverableUrl) :
    db.plan.deliverable? url = (db.deliverableOf url).map deliverableNode := by
  rw [Plan.deliverable?, h.itp?, deliverableOf]
  cases db.itpOf url.toItpUrl with
  | none => rfl
  | some itp =>
    simp only [Option.map_some, Option.bind_eq_bind, Option.bind_some, Table.first?_child_of,
      itpNode, List.find?_map]
    rfl

end Lookups

section Changes

/-- Where the projects stay, the plan changes as the ITPs under each key do. -/
theorem plan_mapItps {f : Nat → List ItpNode → List ItpNode} (hprojects : db'.projects = db.projects)
    (hitps : ∀ k, (db'.itps.childrenOf Itp.projectId k).map db'.itpNode =
      f k ((db.itps.childrenOf Itp.projectId k).map db.itpNode)) :
    db'.plan = db.plan.mapItps f := by
  funext site
  simp only [plan, Plan.mapItps, hprojects, List.map_map]
  refine List.map_congr_left ?_
  intro project _
  simp only [projectNode, hitps, Function.comp_apply]

theorem plan_mapDeliverables {f : Nat → List DeliverableNode → List DeliverableNode}
    (hprojects : db'.projects = db.projects) (hitps : db'.itps = db.itps)
    (hdeliverables : ∀ k, (db'.deliverables.childrenOf Deliverable.itpId k).map deliverableNode =
      f k ((db.deliverables.childrenOf Deliverable.itpId k).map deliverableNode)) :
    db'.plan = db.plan.mapDeliverables f := by
  refine plan_mapItps hprojects ?_
  intro k
  rw [hitps, List.map_map]
  refine List.map_congr_left ?_
  intro itp _
  simp only [itpNode, hdeliverables, Function.comp_apply]

/-- The other columns of a deliverable do not matter. -/
theorem plan_congr (hprojects : db'.projects = db.projects) (hitps : db'.itps = db.itps)
    (hdeliverables : ∀ k, (db'.deliverables.childrenOf Deliverable.itpId k).map deliverableNode =
      (db.deliverables.childrenOf Deliverable.itpId k).map deliverableNode) :
    db'.plan = db.plan := by
  have hnode : db'.itpNode = db.itpNode := by
    funext itp
    simp only [itpNode, hdeliverables]
  have hproject : db'.projectNode = db.projectNode := by
    funext project
    simp only [projectNode, hitps, hnode]
  funext site
  simp only [plan, hprojects, hproject]

theorem plan_addProject (hprojects : db.itps.ForeignKey Itp.projectId db.projects)
    (name jobNumber : String) (site : Nat) :
    { db with
      projects := db.projects.insert (newProject name jobNumber site) (newProject_id _ _ _) }.plan =
      db.plan.addProject site ⟨db.projects.nextKey, name, jobNumber, []⟩ := by
  have hnew : db.projectNode (newProject name jobNumber site db.projects.nextKey) =
      ⟨db.projects.nextKey, name, jobNumber, []⟩ := by
    simp only [projectNode, newProject, hprojects.childrenOf_nextKey, List.map_nil]
  funext s
  simp only [plan, Plan.addProject]
  rw [Table.childrenOf_insert (newProject_id name jobNumber site) rfl]
  by_cases hs : s = site
  · rw [if_pos hs, if_pos hs, List.map_append, List.map_singleton, ← hnew]
    rfl
  · rw [if_neg hs, if_neg hs]
    rfl

theorem plan_editProject (project : Nat) (name jobNumber : Option String) :
    { db with
      projects := db.projects.update (fun p => p.id == project) (Project.rewrite name jobNumber)
        (Project.rewrite_id _ _) }.plan = db.plan.editProject project name jobNumber := by
  funext s
  simp only [plan, Plan.editProject]
  rw [Table.childrenOf_update (Project.rewrite_id name jobNumber) (fun _ => rfl), List.map_map,
    List.map_map]
  refine List.map_congr_left ?_
  intro p _
  by_cases hp : p.id = project
  · simp [hp, projectNode, Project.rewrite, itpNode]
  · simp [hp, projectNode, itpNode]

theorem plan_dropProject (project : Nat) :
    { db with
      projects := db.projects.delete (fun p => p.id == project)
      itps := db.itps.update (fun i => i.projectId == some project) Itp.forgetProject
        Itp.forgetProject_id }.plan = db.plan.dropProject project := by
  funext site
  simp only [plan, Plan.dropProject, Table.childrenOf_delete, List.filter_map]
  refine List.map_congr_left ?_
  intro p hp
  have hne : p.id ≠ project := by simpa using (List.mem_filter.mp hp).2
  have hitps : (db.itps.update (fun i => i.projectId == some project) Itp.forgetProject
      Itp.forgetProject_id).childrenOf Itp.projectId p.id =
        db.itps.childrenOf Itp.projectId p.id :=
    Table.childrenOf_forget Itp.forgetProject_id (fun _ => rfl) hne
  simp only [projectNode, hitps]
  rfl

theorem plan_addItp (hitps : db.deliverables.ForeignKey Deliverable.itpId db.itps)
    (name : String) (project : Nat) (status : String) :
    { db with
      itps := db.itps.insert (newItp name project status) (newItp_id name project status) }.plan =
      db.plan.addItp project ⟨db.itps.nextKey, name, []⟩ := by
  refine plan_mapItps rfl ?_
  intro k
  rw [Table.childrenOf_insert (newItp_id name project status) rfl]
  have hnew : db.itpNode (newItp name project status db.itps.nextKey) =
      ⟨db.itps.nextKey, name, []⟩ := by
    simp only [itpNode, newItp, hitps.childrenOf_nextKey, List.map_nil]
  by_cases hk : k = project
  · rw [if_pos hk, if_pos hk, List.map_append, List.map_singleton, ← hnew]
    rfl
  · rw [if_neg hk, if_neg hk]
    rfl

theorem plan_renameItp (itp : Nat) (name : String) :
    { db with
      itps := db.itps.update (fun i => i.id == itp && name != "") (Itp.rename name)
        (Itp.rename_id name) }.plan =
      if name = "" then db.plan else db.plan.renameItp itp name := by
  by_cases hname : name = ""
  · rw [if_pos hname]
    refine plan_congr rfl ?_ (fun _ => rfl)
    simp [hname, Table.update]
  · rw [if_neg hname]
    refine plan_mapItps rfl ?_
    intro k
    rw [Table.childrenOf_update (Itp.rename_id name) (fun _ => rfl), List.map_map, List.map_map]
    refine List.map_congr_left ?_
    intro i _
    by_cases hi : i.id = itp
    · simp [hi, hname, itpNode, Itp.rename]
    · simp [hi, itpNode]

theorem plan_dropItp (itp : Nat) :
    { db with
      itps := db.itps.delete (fun i => i.id == itp)
      deliverables := db.deliverables.update (fun d => d.itpId == some itp) Deliverable.forgetItp
        Deliverable.forgetItp_id }.plan = db.plan.dropItp itp := by
  refine plan_mapItps rfl ?_
  intro k
  simp only [Table.childrenOf_delete, List.filter_map]
  refine List.map_congr_left ?_
  intro i hi
  have hne : i.id ≠ itp := by simpa using (List.mem_filter.mp hi).2
  have hdeliverables : (db.deliverables.update (fun d => d.itpId == some itp) Deliverable.forgetItp
      Deliverable.forgetItp_id).childrenOf Deliverable.itpId i.id =
        db.deliverables.childrenOf Deliverable.itpId i.id :=
    Table.childrenOf_forget Deliverable.forgetItp_id (fun _ => rfl) hne
  simp only [itpNode, hdeliverables]

theorem plan_renameDeliverable {f : Deliverable → Deliverable} (hf : ∀ d, (f d).id = d.id)
    (hitp : ∀ d, (f d).itpId = d.itpId) {name : String}
    (hname : ∀ d, (f d).name = if name = "" then d.name else name) (deliverable : Nat) :
    { db with
      deliverables := db.deliverables.update (fun d => d.id == deliverable) f hf }.plan =
      if name = "" then db.plan else db.plan.renameDeliverable deliverable name := by
  by_cases hn : name = ""
  · rw [if_pos hn]
    refine plan_congr rfl rfl ?_
    intro k
    rw [Table.childrenOf_update hf hitp, List.map_map]
    refine List.map_congr_left ?_
    intro d _
    by_cases hd : d.id = deliverable <;> simp [deliverableNode, hd, hn, hf, hname]
  · rw [if_neg hn]
    refine plan_mapDeliverables rfl rfl ?_
    intro k
    rw [Table.childrenOf_update hf hitp, List.map_map, List.map_map]
    refine List.map_congr_left ?_
    intro d _
    by_cases hd : d.id = deliverable <;> simp [deliverableNode, hd, hn, hf, hname]

theorem plan_addDeliverable {row : Nat → Deliverable} (hrow : ∀ k, (row k).id = k) {itp : Nat}
    {name : String} (hitp : ∀ k, (row k).itpId = some itp) (hname : ∀ k, (row k).name = name)
    {p : Deliverable → Bool} (now : Nat) (maps : DeliverableItcs) (checks : DeliverableChecks) :
    { db with
      deliverables := (db.deliverables.insert row hrow).update p (Deliverable.start now)
        (Deliverable.start_id now)
      deliverableItcMaps := maps
      deliverableCheckMaps := checks }.plan =
      db.plan.addDeliverable itp ⟨db.deliverables.nextKey, name⟩ := by
  refine plan_mapDeliverables rfl rfl ?_
  intro k
  have hstart : ∀ d, deliverableNode (if p d = true then d.start now else d) = deliverableNode d := by
    intro d
    split <;> rfl
  have hnew : deliverableNode (row db.deliverables.nextKey) = ⟨db.deliverables.nextKey, name⟩ := by
    rw [deliverableNode, hrow, hname]
  rw [Table.childrenOf_update (Deliverable.start_id now) (fun _ => rfl), List.map_map,
    Table.childrenOf_insert hrow (hitp _)]
  simp only [Function.comp_def, hstart]
  by_cases hk : k = itp
  · rw [if_pos hk, if_pos hk, List.map_append, List.map_singleton, hnew]
  · rw [if_neg hk, if_neg hk]

theorem plan_dropDeliverable (deliverable : Nat) (maps : DeliverableItcs) :
    { db with
      deliverables := db.deliverables.delete (fun d => d.id == deliverable)
      deliverableItcMaps := maps }.plan = db.plan.dropDeliverable deliverable := by
  refine plan_mapDeliverables rfl rfl ?_
  intro k
  simp only [Table.childrenOf_delete, List.filter_map]
  rfl

end Changes

section Nodes

theorem mem_plan {site : Nat} {node : ProjectNode} : node ∈ db.plan site ↔
    ∃ project ∈ db.projects.rows, project.siteId = some site ∧ db.projectNode project = node := by
  simp only [plan, List.mem_map, Table.mem_childrenOf, and_assoc]

theorem itp_of_mem {project : Project} {node : ItpNode} (h : node ∈ (db.projectNode project).itps) :
    ∃ itp ∈ db.itps.rows, db.itpNode itp = node := by
  obtain ⟨itp, hitp, he⟩ := List.mem_map.mp h
  exact ⟨itp, (Table.mem_childrenOf.mp hitp).1, he⟩

theorem deliverable_of_mem {itp : Itp} {node : DeliverableNode}
    (h : node ∈ (db.itpNode itp).deliverables) :
    ∃ deliverable ∈ db.deliverables.rows, deliverableNode deliverable = node := by
  obtain ⟨deliverable, hdeliverable, he⟩ := List.mem_map.mp h
  exact ⟨deliverable, (Table.mem_childrenOf.mp hdeliverable).1, he⟩

theorem project_id_ne {site : Nat} {p : ProjectNode} (hp : p ∈ db.plan site) :
    p.id ≠ db.projects.nextKey := by
  obtain ⟨project, hproject, -, rfl⟩ := mem_plan.mp hp
  exact Nat.ne_of_lt (Table.key_lt_nextKey hproject)

theorem itp_id_ne {site : Nat} {p : ProjectNode} (hp : p ∈ db.plan site) {i : ItpNode}
    (hi : i ∈ p.itps) : i.id ≠ db.itps.nextKey := by
  obtain ⟨project, -, -, rfl⟩ := mem_plan.mp hp
  obtain ⟨itp, hitp, rfl⟩ := itp_of_mem hi
  exact Nat.ne_of_lt (Table.key_lt_nextKey hitp)

theorem deliverable_id_ne {site : Nat} {p : ProjectNode} (hp : p ∈ db.plan site) {i : ItpNode}
    (hi : i ∈ p.itps) {d : DeliverableNode} (hd : d ∈ i.deliverables) :
    d.id ≠ db.deliverables.nextKey := by
  obtain ⟨project, -, -, rfl⟩ := mem_plan.mp hp
  obtain ⟨itp, -, rfl⟩ := itp_of_mem hi
  obtain ⟨deliverable, hdeliverable, rfl⟩ := deliverable_of_mem hd
  exact Nat.ne_of_lt (Table.key_lt_nextKey hdeliverable)

end Nodes

section Requests

theorem isNone_find?_map {α β : Type} {l : List α} {f : α → β} {p : α → Bool} {q : β → Prop}
    (h : ∀ a, p a = true ↔ ¬ q (f a)) : (l.find? p).isNone = true ↔ ∀ b ∈ l.map f, q b := by
  simp only [Option.isNone_iff_eq_none, List.find?_eq_none, List.forall_mem_map, h, not_not]

variable (h : db.Sound)

include h

theorem Sound.projectDelete_plan (siteid projectid : Nat) :
    (siteProjectDelete db siteid projectid).map plan =
      (PlanRequest.projectDelete siteid projectid).step db.context db.deliverables.nextKey db.plan := by
  simp only [siteProjectDelete, PlanRequest.step, h.project?]
  cases hproject : db.projectOf siteid projectid with
  | none => rfl
  | some project =>
    obtain ⟨-, -, -, rfl⟩ := projectOf_eq_some.mp hproject
    exact congrArg some (plan_dropProject project.id)

theorem Sound.itpDelete_plan (url : ItpUrl) :
    (siteProjectItpDelete db url).map plan =
      (PlanRequest.itpDelete url).step db.context db.deliverables.nextKey db.plan := by
  simp only [siteProjectItpDelete, PlanRequest.step, h.itp?]
  cases hitp : db.itpOf url with
  | none => rfl
  | some itp =>
    rw [← (itpOf_eq_some hitp).2]
    exact congrArg some (plan_dropItp itp.id)

theorem Sound.deliverableDelete_plan (url : DeliverableUrl) :
    (deliverableDelete db url).map plan =
      (PlanRequest.store (.deliverableDelete url)).step db.context db.deliverables.nextKey
        db.plan := by
  simp only [deliverableDelete, PlanRequest.step, h.deliverable?]
  cases hdeliverable : db.deliverableOf url with
  | none => rfl
  | some deliverable =>
    rw [← id_of_deliverableOf hdeliverable]
    exact congrArg some (plan_dropDeliverable deliverable.id _)

theorem Sound.itpEdit_plan (url : ItpUrl) (name : String) :
    (siteProjectItpEdit db url name).map plan =
      (PlanRequest.itpEdit url name).step db.context db.deliverables.nextKey db.plan := by
  simp only [siteProjectItpEdit, PlanRequest.step, h.project?, h.itp?, itpOf_eq]
  cases hproject : db.projectOf url.siteid url.projectid with
  | none => rfl
  | some project =>
    simp only [Option.map_some, Option.bind_eq_bind, Option.bind_some]
    cases hitp : db.itps.first? (fun i => i.id == url.itpid && i.projectId == some project.id) with
    | none => rfl
    | some itp =>
      rw [Table.first?_child_of, Table.find?_childrenOf] at hitp
      refine map_guard_bind ?_ (fun _ => congrArg some ?_)
      · rw [Table.first?_child, projectNode, List.find?_map, Option.all_map, hitp.2.2]
        rfl
      · rw [← hitp.2.2]
        exact plan_renameItp itp.id name

theorem Sound.deliverableEdit_plan (url : DeliverableUrl) (referrer : Option String)
    (form : DeliverableEdit) :
    (siteProjectItpDeliverableEdit db url referrer form).map plan =
      (PlanRequest.deliverableEdit url referrer form).step db.context db.deliverables.nextKey
        db.plan := by
  simp only [siteProjectItpDeliverableEdit, PlanRequest.step, h.itp?, h.deliverable?, deliverableOf]
  cases hitp : db.itpOf url.toItpUrl with
  | none => rfl
  | some itp =>
    simp only [Option.map_some, Option.bind_eq_bind, Option.bind_some]
    cases hdeliverable : db.deliverables.first?
        (fun d => d.id == url.deliverableid && d.itpId == some itp.id) with
    | none => rfl
    | some deliverable =>
      rw [Table.first?_child_of, Table.find?_childrenOf] at hdeliverable
      cases referrer with
      | none => rfl
      | some referrer =>
        simp only [Option.map_some, Option.bind_some, Option.isSome_some, guard, if_true,
          Option.pure_def]
        refine map_guard_bind ?_ (fun _ => congrArg some ?_)
        · rw [Table.first?_child_of, itpNode, List.find?_map, Option.all_map, hdeliverable.2.2]
          rfl
        · rw [← hdeliverable.2.2]
          exact plan_renameDeliverable (Deliverable.edit_id form _) (fun _ => rfl) (fun _ => rfl)
            deliverable.id

theorem Sound.itpNew_plan (siteid projectid : Nat) (name status : String) :
    (siteProjectItpNew db siteid projectid name status).map plan =
      (PlanRequest.itpNew siteid projectid name status).step db.context db.itps.nextKey db.plan := by
  simp only [siteProjectItpNew, PlanRequest.step, h.project?]
  cases hproject : db.projectOf siteid projectid with
  | none => rfl
  | some project =>
    obtain ⟨-, -, -, rfl⟩ := projectOf_eq_some.mp hproject
    simp only [Option.map_some, Option.bind_eq_bind, Option.bind_some]
    refine map_guard_bind Iff.rfl (fun _ => map_guard_bind ?_ (fun _ => ?_))
    · rw [Table.first?_child]
      exact isNone_find?_map (fun i => by simp [itpNode])
    · rw [guard_bind_of (fun s _ p hp i hi => itp_id_ne hp hi)]
      exact congrArg some (plan_addItp h.itps name project.id status)

theorem Sound.deliverableNew_plan (url : ItpUrl) (form : DeliverableForm) (now : Nat) :
    (deliverableNew db url form now).map plan =
      (PlanRequest.store (.deliverableNew url form now)).step db.context db.deliverables.nextKey
        db.plan := by
  simp only [deliverableNew, PlanRequest.step, h.itp?]
  cases hitp : db.itpOf url with
  | none => rfl
  | some itp =>
    simp only [Option.map_some, Option.bind_eq_bind, Option.bind_some]
    refine map_guard_bind Iff.rfl (fun _ => map_guard_bind ?_ (fun hfree => ?_))
    · rw [Table.first?_child_of]
      exact isNone_find?_map (fun d => by simp [deliverableNode])
    · refine map_bind_isSome (fun location _ => map_bind_isSome (fun type _ => ?_))
      rw [guard_bind_of (fun s _ p hp i hi d hd => deliverable_id_ne hp hi hd)]
      -- the row that is looked up after the insert is there, whichever of that name it is
      have hfound := Table.exists_first?_insert (t := db.deliverables) (newDeliverable_id form type.id
        location.id ((db.secondaryLocations.first? (fun l => l.name == form.secondaryLocation)).map
          SecondaryLocation.id) itp.id) (p := fun d => d.name == form.name && d.itpId == some itp.id)
        (by simp [newDeliverable])
      obtain ⟨deliverable, hfound⟩ := hfound
      rw [hfound, Option.bind_some, ← (itpOf_eq_some hitp).2]
      exact congrArg some (plan_addDeliverable (newDeliverable_id form type.id location.id _ itp.id)
        (fun _ => rfl) (fun _ => rfl) now _ _)

/-- What holds of the projects of all sites holds of every project. -/
theorem Sound.forall_project {P : Project → Prop} {Q : ProjectNode → Prop}
    (hPQ : ∀ p ∈ db.projects.rows, P p ↔ Q (db.projectNode p)) :
    (∀ p ∈ db.projects.rows, P p) ↔ ∀ s ∈ db.sites.rows, ∀ p ∈ db.plan s.id, Q p := by
  constructor
  · intro hall s _ p hp
    obtain ⟨project, hproject, -, rfl⟩ := mem_plan.mp hp
    exact (hPQ project hproject).mp (hall project hproject)
  · intro hall project hproject
    obtain ⟨site, hsite, hsiteid⟩ := h.sites project hproject
    exact (hPQ project hproject).mpr
      (hall site hsite _ (mem_plan.mpr ⟨project, hproject, hsiteid, rfl⟩))

/-- The constraint does not stop a request that no other comes between. -/
theorem Sound.check_free_name {request : ProjectRequest} {w : ProjectWrite}
    (hcheck : request.check db = some w) : w.Free Project.siteAndName db := by
  cases request with
  | new siteid form =>
    simp only [ProjectRequest.check, siteProjectNew, Option.bind_eq_bind, Option.bind_eq_some_iff,
      guard_eq_some, Option.pure_def, Option.some.injEq, Option.isNone_iff_eq_none] at hcheck
    obtain ⟨_, -, _, -, site, -, _, hnone, _, -, rfl⟩ := hcheck
    intro p hp _ _ he
    have hne := Table.first?_eq_none hnone p hp
    rw [(Project.siteAndName_iff p site.id form.name).mpr he] at hne
    exact Bool.noConfusion hne
  | edit siteid projectid referrer form =>
    simp only [ProjectRequest.check, siteProjectEdit, Option.bind_eq_bind, Option.bind_eq_some_iff,
      guard_eq_some, Option.pure_def, Option.some.injEq] at hcheck
    obtain ⟨site, -, project, hproject, _, -, _, hnamed, _, -, rfl⟩ := hcheck
    obtain ⟨hmem, hrow⟩ := Table.mem_of_first? hproject
    rw [Bool.and_eq_true, beq_iff_eq, beq_iff_eq] at hrow
    intro project' hproject' hid
    rw [Table.eq_of_key_eq hproject' hmem hid]
    by_cases hnew : form.name ≠ "" ∧ form.name ≠ project.name
    · rw [if_pos hnew]
      intro p hp hne _ he
      refine hne ((h.names.all_first? (fun p => Project.siteAndName_iff p site.id form.name)
        project.id).mp hnamed p hp ?_)
      rw [he, Project.siteAndName, Project.rewrite, hrow.2]
      rfl
    · rw [if_neg hnew]
      exact h.names.freeFor_self hmem rfl

theorem Sound.project_serve (request : ProjectRequest) : request.serve db =
    (request.check db).map (fun w => { db with projects := w.write db.projects }) := by
  rw [ProjectRequest.serve]
  cases hcheck : request.check db with
  | none => rfl
  | some w => exact ProjectWrite.commit_eq_some.mpr ⟨h.check_free_name hcheck, rfl⟩

theorem Sound.projectNew_plan (siteid : Nat) (form : ProjectForm) :
    ((ProjectRequest.new siteid form).serve db).map plan =
      (PlanRequest.project (.new siteid form)).step db.context db.projects.nextKey db.plan := by
  rw [h.project_serve, Option.map_map]
  refine map_guard_bind Iff.rfl (fun _ => map_guard_bind Iff.rfl (fun _ => map_bind_isSome ?_))
  intro site hsite
  obtain ⟨-, rfl⟩ := Table.get?_eq_some.mp hsite
  refine map_guard_bind ?_ (fun _ => map_guard_bind ?_ (fun _ => congrArg some ?_))
  · rw [Table.first?_child]
    exact isNone_find?_map (fun p => by simp [projectNode])
  · rw [Option.isNone_iff_eq_none, Table.first?, List.find?_eq_none]
    refine h.forall_project ?_
    intro p hp
    simp [projectNode, Nat.ne_of_lt (Table.key_lt_nextKey hp)]
  · exact plan_addProject h.projects form.name form.jobNumber site.id

theorem Sound.projectEdit_plan (siteid projectid : Nat) (referrer : Option String)
    (form : ProjectForm) :
    ((ProjectRequest.edit siteid projectid referrer form).serve db).map plan =
      (PlanRequest.project (.edit siteid projectid referrer form)).step db.context
        db.projects.nextKey db.plan := by
  rw [h.project_serve, Option.map_map]
  simp only [ProjectRequest.check, siteProjectEdit, PlanRequest.step, h.project?, projectOf]
  cases hsite : db.sites.get? siteid with
  | none => rfl
  | some site =>
    obtain ⟨-, rfl⟩ := Table.get?_eq_some.mp hsite
    simp only [Option.bind_eq_bind, Option.bind_some]
    cases hproject : db.projects.first? (fun p => p.id == projectid && p.siteId == some site.id) with
    | none => rfl
    | some project =>
      rw [Table.first?_child_of, Table.find?_childrenOf] at hproject
      obtain ⟨-, -, rfl⟩ := hproject
      simp only [Option.map_some, Option.bind_some]
      refine map_bind_isSome (fun _ _ => map_guard_bind ?_ (fun _ => map_guard_bind ?_ (fun _ => ?_)))
      · rw [Table.first?_child, plan, List.find?_map, Option.all_map]
        rfl
      · refine (h.numbers.all_first? (fun p => Project.number_iff p form.jobNumber) project.id).trans ?_
        refine h.forall_project ?_
        intro p _
        simp [projectNode, Project.number]
      · exact congrArg some (plan_editProject project.id _ _)

end Requests

section Soundness

/-- The requests on ITCs and checks write tables that the plan does not show. -/
theorem store_cases {r : StoreRequest} (hr : r.commit db = some db') :
    (∃ generics itcs templates maps checks, db' = { db with
      checkGenerics := generics
      itcs := itcs
      itcCheckMaps := templates
      deliverableItcMaps := maps
      deliverableCheckMaps := checks }) ∨
    (∃ url form now, r = .deliverableNew url form now) ∨ ∃ url, r = .deliverableDelete url := by
  cases r with
  | deliverableNew url form now => exact Or.inr (Or.inl ⟨url, form, now, rfl⟩)
  | deliverableDelete url => exact Or.inr (Or.inr ⟨url, rfl⟩)
  | itcAdd url itcid =>
    simp only [StoreRequest.commit, itcAdd, Option.bind_eq_bind, Option.bind_eq_some_iff,
      Option.pure_def, Option.some.injEq] at hr
    obtain ⟨d, -, itc, -, rfl⟩ := hr
    exact Or.inl ⟨_, _, _, _, _, rfl⟩
  | itcDelete url itcid =>
    simp only [StoreRequest.commit, itcDelete, Option.bind_eq_bind, Option.bind_eq_some_iff,
      Option.pure_def, Option.some.injEq] at hr
    obtain ⟨d, -, itc, -, template, -, _, -, rfl⟩ := hr
    exact Or.inl ⟨_, _, _, _, _, rfl⟩
  | startItcTesting url itcid =>
    simp only [StoreRequest.commit, startItcTesting, Option.bind_eq_bind, Option.bind_eq_some_iff,
      Option.pure_def, Option.some.injEq] at hr
    obtain ⟨itc, -, rfl⟩ := hr
    exact Or.inl ⟨_, _, _, _, _, rfl⟩
  | checkDelete url itcid checkid =>
    simp only [StoreRequest.commit, checkDelete, Option.bind_eq_bind, Option.bind_eq_some_iff,
      Option.pure_def, Option.some.injEq] at hr
    obtain ⟨itp, -, itc, -, check, -, -, -, rfl⟩ := hr
    exact Or.inl ⟨_, _, _, _, _, rfl⟩
  | itcGeneralNew referrerParts form =>
    simp only [StoreRequest.commit, itcGeneralNew, Option.bind_eq_bind, Option.bind_eq_some_iff,
      Option.pure_def, Option.some.injEq] at hr
    obtain ⟨parts, -, -, -, -, -, -, -, type, -, rfl⟩ := hr
    exact Or.inl ⟨_, _, _, _, _, rfl⟩
  | itcGeneralDelete itcid =>
    simp only [StoreRequest.commit, itcGeneralDelete, Option.bind_eq_bind, Option.bind_eq_some_iff,
      Option.pure_def, Option.some.injEq] at hr
    obtain ⟨template, -, rfl⟩ := hr
    exact Or.inl ⟨_, _, _, _, _, rfl⟩
  | itcCheckGeneralNew itcid check =>
    simp only [StoreRequest.commit, itcCheckGeneralNew, Option.bind_eq_bind, Option.bind_eq_some_iff,
      Option.pure_def, Option.some.injEq] at hr
    obtain ⟨checkid, -, generic, -, template, -, rfl⟩ := hr
    exact Or.inl ⟨_, _, _, _, _, rfl⟩
  | itcCheckGeneralDelete checkid =>
    simp only [StoreRequest.commit, itcCheckGeneralDelete, Option.bind_eq_bind,
      Option.bind_eq_some_iff, Option.pure_def, Option.some.injEq] at hr
    obtain ⟨check, -, rfl⟩ := hr
    exact Or.inl ⟨_, _, _, _, _, rfl⟩
  | genericCheckNew description =>
    simp only [StoreRequest.commit, genericCheckNew, Option.bind_eq_bind, Option.bind_eq_some_iff,
      Option.pure_def, Option.some.injEq] at hr
    obtain ⟨-, -, -, -, rfl⟩ := hr
    exact Or.inl ⟨_, _, _, _, _, rfl⟩
  | genericCheckDelete checkid =>
    simp only [StoreRequest.commit, genericCheckDelete, Option.bind_eq_bind, Option.bind_eq_some_iff,
      Option.pure_def, Option.some.injEq] at hr
    obtain ⟨generic, -, rfl⟩ := hr
    exact Or.inl ⟨_, _, _, _, _, rfl⟩

theorem plan_store {r : StoreRequest} (hnew : ∀ url form now, r ≠ .deliverableNew url form now)
    (hdelete : ∀ url, r ≠ .deliverableDelete url) (id : Nat) :
    (((PlanRequest.store r).commit db).map plan).getD db.plan =
      ((PlanRequest.store r).step db.context id db.plan).getD db.plan := by
  have hnone : (PlanRequest.store r).step db.context id db.plan = none := by
    cases r with
    | deliverableNew url form now => exact absurd rfl (hnew url form now)
    | deliverableDelete url => exact absurd rfl (hdelete url)
    | _ => rfl
  rw [hnone, PlanRequest.commit]
  cases hr : r.commit db with
  | none => rfl
  | some db' =>
    rcases store_cases hr with ⟨_, _, _, _, _, rfl⟩ | ⟨url, form, now, he⟩ | ⟨url, he⟩
    · rfl
    · exact absurd he (hnew url form now)
    · exact absurd he (hdelete url)

variable (h : db.Sound)

include h

/-- One request, on the tables and on the tree. -/
theorem Sound.serve_plan (r : PlanRequest) :
    (serve PlanRequest.commit db r).plan =
      (r.step db.context (r.newKey db) db.plan).getD db.plan := by
  rw [serve, ← Option.getD_map plan]
  have getD_congr : ∀ {x y : Option Plan}, x = y → x.getD db.plan = y.getD db.plan := by
    rintro x _ rfl
    rfl
  cases r with
  | project r =>
    cases r with
    | new siteid form => exact getD_congr (h.projectNew_plan siteid form)
    | edit siteid projectid referrer form =>
      exact getD_congr (h.projectEdit_plan siteid projectid referrer form)
  | projectDelete siteid projectid => exact getD_congr (h.projectDelete_plan siteid projectid)
  | itpNew siteid projectid name status =>
    exact getD_congr (h.itpNew_plan siteid projectid name status)
  | itpEdit url name => exact getD_congr (h.itpEdit_plan url name)
  | itpDelete url => exact getD_congr (h.itpDelete_plan url)
  | deliverableEdit url referrer form => exact getD_congr (h.deliverableEdit_plan url referrer form)
  | store r =>
    cases r with
    | deliverableNew url form now => exact getD_congr (h.deliverableNew_plan url form now)
    | deliverableDelete url => exact getD_congr (h.deliverableDelete_plan url)
    | _ => exact plan_store (by simp) (by simp) _

theorem Sound.project (request : ProjectRequest) (hr : request.serve db = some db') :
    db'.Sound ∧ db'.context = db.context := by
  rw [h.project_serve, Option.map_eq_some_iff] at hr
  obtain ⟨w, hcheck, rfl⟩ := hr
  have hnames := (ProjectWrite.distinct_write_iff h.names w).mpr (h.check_free_name hcheck)
  have hnumbers := (ProjectWrite.distinct_write_iff h.numbers w).mpr
    (ProjectRequest.check_free h.numbers hcheck)
  refine ⟨?_, rfl⟩
  cases request with
  | new siteid form =>
    simp only [ProjectRequest.check, siteProjectNew, Option.bind_eq_bind, Option.bind_eq_some_iff,
      Option.pure_def, Option.some.injEq] at hcheck
    obtain ⟨_, -, _, -, site, hsite, _, -, _, -, rfl⟩ := hcheck
    exact ⟨h.sites.insert (newProject_id _ _ _) ⟨site, (Table.get?_eq_some.mp hsite).1, rfl⟩,
      h.projects.insert_target (newProject_id _ _ _), h.itps, hnames, hnumbers⟩
  | edit siteid projectid referrer form =>
    simp only [ProjectRequest.check, siteProjectEdit, Option.bind_eq_bind, Option.bind_eq_some_iff,
      Option.pure_def, Option.some.injEq] at hcheck
    obtain ⟨site, -, project, -, _, -, _, -, _, -, rfl⟩ := hcheck
    exact ⟨h.sites.update (Project.rewrite_id _ _) (fun _ => rfl),
      h.projects.update_target (Project.rewrite_id _ _), h.itps, hnames, hnumbers⟩

theorem Sound.store (r : StoreRequest) (hr : r.commit db = some db') :
    db'.Sound ∧ db'.context = db.context := by
  rcases store_cases hr with ⟨_, _, _, _, _, rfl⟩ | ⟨url, form, now, rfl⟩ | ⟨url, rfl⟩
  · exact ⟨⟨h.sites, h.projects, h.itps, h.names, h.numbers⟩, rfl⟩
  · simp only [StoreRequest.commit, deliverableNew, Option.bind_eq_bind, Option.bind_eq_some_iff,
      Option.pure_def, Option.some.injEq] at hr
    obtain ⟨itp, hitp, _, -, _, -, location, -, type, -, deliverable, -, rfl⟩ := hr
    have hnew : ∀ k, some itp.id = some k → ∃ i ∈ db.itps.rows, i.id = k := by
      rintro k hk
      exact ⟨itp, (itpOf_eq_some hitp).1, Option.some.inj hk⟩
    exact ⟨⟨h.sites, h.projects, (h.itps.insert (newDeliverable_id _ _ _ _ _) hnew).update
      (Deliverable.start_id now) (fun _ => rfl), h.names, h.numbers⟩, rfl⟩
  · obtain ⟨deliverable, -, hdb⟩ := Option.bind_eq_some_iff.mp hr
    cases hdb
    exact ⟨⟨h.sites, h.projects, h.itps.delete _, h.names, h.numbers⟩, rfl⟩

theorem Sound.commit (r : PlanRequest) (hr : r.commit db = some db') :
    db'.Sound ∧ db'.context = db.context := by
  cases r with
  | project r => exact h.project r hr
  | store r => exact h.store r hr
  | projectDelete siteid projectid =>
    obtain ⟨project, -, hdb⟩ := Option.bind_eq_some_iff.mp hr
    cases hdb
    exact ⟨⟨h.sites.delete _, h.projects.forget project.id Itp.forgetProject_id (fun _ => rfl),
      h.itps.update_target Itp.forgetProject_id, h.names.delete _, h.numbers.delete _⟩, rfl⟩
  | itpNew siteid projectid name status =>
    simp only [PlanRequest.commit, siteProjectItpNew, Option.bind_eq_bind, Option.bind_eq_some_iff,
      Option.pure_def, Option.some.injEq] at hr
    obtain ⟨project, hproject, _, -, _, -, rfl⟩ := hr
    obtain ⟨-, hmem, -⟩ := projectOf_eq_some.mp hproject
    have hnew : ∀ k, some project.id = some k → ∃ p ∈ db.projects.rows, p.id = k := by
      intro k hk
      exact ⟨project, hmem, Option.some.inj hk⟩
    exact ⟨⟨h.sites, h.projects.insert (newItp_id _ _ _) hnew, h.itps.insert_target (newItp_id _ _ _),
      h.names, h.numbers⟩, rfl⟩
  | itpEdit url name =>
    simp only [PlanRequest.commit, siteProjectItpEdit, Option.bind_eq_bind, Option.bind_eq_some_iff,
      Option.pure_def, Option.some.injEq] at hr
    obtain ⟨project, -, itp, -, _, -, rfl⟩ := hr
    exact ⟨⟨h.sites, h.projects.update (Itp.rename_id name) (fun _ => rfl),
      h.itps.update_target (Itp.rename_id name), h.names, h.numbers⟩, rfl⟩
  | itpDelete url =>
    obtain ⟨itp, -, hdb⟩ := Option.bind_eq_some_iff.mp hr
    cases hdb
    exact ⟨⟨h.sites, h.projects.delete _,
      h.itps.forget itp.id Deliverable.forgetItp_id (fun _ => rfl), h.names, h.numbers⟩, rfl⟩
  | deliverableEdit url referrer form =>
    simp only [PlanRequest.commit, siteProjectItpDeliverableEdit, Option.bind_eq_bind,
      Option.bind_eq_some_iff, Option.pure_def, Option.some.injEq] at hr
    obtain ⟨itp, -, deliverable, -, _, -, _, -, rfl⟩ := hr
    exact ⟨⟨h.sites, h.projects, h.itps.update (Deliverable.edit_id form _) (fun _ => rfl),
      h.names, h.numbers⟩, rfl⟩

end Soundness

end ItpDb

/-- In every run from a sound store, the plan of every site is edited as a tree: what is
deleted goes with all that is below it, although the rows stay, and a row that gets the
key of a deleted one finds nothing below it. The URL of a deliverable leads to the
deliverable at that place in the tree, or nowhere if there is none. -/
theorem plan_edited_as_tree {db : ItpDb} (h : db.Sound) (requests : List PlanRequest) :
    ∃ ids : List Nat, ids.length = requests.length ∧
      (serveAll PlanRequest.commit db requests).plan =
        follow (PlanRequest.step db.context) db.plan (requests.zip ids) ∧
      ∀ url, ((serveAll PlanRequest.commit db requests).deliverableOf url).map ItpDb.deliverableNode =
        (follow (PlanRequest.step db.context) db.plan (requests.zip ids)).deliverable? url := by
  obtain ⟨hsound, ids, hlength, hplan⟩ := serveAll_follow (fun r hs hr => hs.commit r hr)
    (fun r hs => hs.serve_plan r) h requests
  refine ⟨ids, hlength, hplan, ?_⟩
  intro url
  rw [← hplan, hsound.deliverable?]

theorem pumpProject_sound : pumpProject.Sound where
  sites := by
    intro p hp
    rw [List.mem_singleton.mp hp]
    exact ⟨plantSite, List.mem_singleton_self _, rfl⟩
  projects := by
    intro i hi k hk
    rw [List.mem_singleton.mp hi] at hk
    exact ⟨upgradeProject, List.mem_singleton_self _, Option.some.inj hk⟩
  itps := by
    intro d hd
    cases hd
  names := by
    intro p hp p' hp' _ _
    rw [List.mem_singleton.mp hp, List.mem_singleton.mp hp']
  numbers := by
    intro p hp p' hp' _ _
    rw [List.mem_singleton.mp hp, List.mem_singleton.mp hp']

/-- A pump is added, its project deleted and a project made anew, which gets the same key. -/
def upgradeAgain : List PlanRequest :=
  [.store (.deliverableNew pumpItp (pumpForm "pump 1") 0), .projectDelete 1 1,
    .project (.new 1 ⟨"upgrade", "J1"⟩)]

theorem plan_edited_as_tree_upgrade :
    pumpProject.Sound ∧ (serveAll PlanRequest.commit pumpProject upgradeAgain).itps.rows =
      [⟨1, "commissioning", none, none, some 0⟩] ∧
    (serveAll PlanRequest.commit pumpProject upgradeAgain).plan 1 = [⟨1, "upgrade", "J1", []⟩] ∧
    ∃ ids : List Nat, ids.length = 3 ∧
      (serveAll PlanRequest.commit pumpProject upgradeAgain).plan =
        follow (PlanRequest.step pumpProject.context) pumpProject.plan (upgradeAgain.zip ids) := by
  obtain ⟨ids, hlength, hplan, -⟩ := plan_edited_as_tree pumpProject_sound upgradeAgain
  exact ⟨pumpProject_sound, by decide +kernel, by decide +kernel, ids, hlength, hplan⟩

end Medusa
