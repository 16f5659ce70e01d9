import Medusa.Requests
import Medusa.Ticket.Store

/-! The requests on tickets. Every page asks for a login, so a request has a user. A
result of `none` says that nothing was committed. Mail that is composed after the
last commit is left out; mail that is composed before one can raise and end the
request. -/

namespace Medusa

open Relational

/-- A file of a form: its name, and the name under which it was stored, if it was. -/
structure UploadedFile where
  name : String
  stored : Option String

/-- Without a first file name nothing was uploaded. -/
def storedFiles (files : List UploadedFile) : List (String × String) :=
  match files with
  | [] => []
  | file :: _ =>
    if file.name = "" then [] else
      files.filterMap (fun f => f.stored.map (fun stored => (f.name, stored)))

def newUpload (post topic : Option Nat) (file : String × String) (id : Nat) : FlicketUploads :=
  ⟨id, post, topic, file.2, file.1⟩

theorem newUpload_id (post topic : Option Nat) (file : String × String) (id : Nat) :
    (newUpload post topic file id).id = id := rfl

/-- `populate_db`. -/
def addUploads (t : Uploads) (post topic : Option Nat) (files : List UploadedFile) : Uploads :=
  (storedFiles files).foldl
    (fun t file => t.insert (newUpload post topic file) (newUpload_id post topic file)) t

/-- A text that is required, within the bounds on its length. -/
def validText (low high : Nat) (text : String) : Bool :=
  text.toList.any (fun c => !c.isWhitespace) &&
    decide (low ≤ text.length) && decide (text.length ≤ high)

/-- What the forms for a new ticket and for editing one share. `submitted` says
that the form was posted with its token and its button. -/
structure TicketForm where
  submitted : Bool
  title : String
  content : String
  priority : Nat
  category : Nat
  component : Nat
  dateDue : String
  files : List UploadedFile

def TicketForm.validates (db : TicketDb) (form : TicketForm) : Bool :=
  form.submitted && validText 3 128 form.title && validText 5 5000 form.content &&
    form.priority != 0 && (db.priorities.get? form.priority).isSome &&
    form.category != 0 && (db.categories.get? form.category).isSome

structure CreateForm extends TicketForm where
  siteid : Nat
  project : Option Nat

structure EditForm extends TicketForm where
  sitename : String
  project : Nat
  uploads : List Nat

/-- Only uploads of the ticket can be chosen. -/
def EditForm.validates (db : TicketDb) (ticket : Nat) (form : EditForm) : Bool :=
  form.toTicketForm.validates db &&
    form.uploads.all (fun i => db.uploads.rows.any (fun u => u.id == i && u.topicId == some ticket))

structure ReplyForm where
  submitted : Bool
  content : String
  files : List UploadedFile

def ReplyForm.validates (form : ReplyForm) : Bool := form.submitted && validText 5 5000 form.content

structure EditReplyForm extends ReplyForm where
  uploads : List Nat

def newTicket (db : TicketDb) (form : CreateForm) (site : Nat) (project : Option Nat)
    (user now : Nat) (id : Nat) : FlicketTicket where
  id := id
  ticketName := form.title
  description := form.content
  dateAdded := some now
  dateDue := if form.dateDue = " " then none else some form.dateDue
  startedId := some user
  categoryId := (db.categories.get? form.category).map FlicketCategory.id
  componentId := (db.components.get? form.component).map TicketComponent.id
  ticketPriorityId := (db.priorities.get? form.priority).map FlicketPriority.id
  assignedId := none
  dateResolved := none
  resolvedById := none
  resolutionId := none
  statusId := db.findStatus "Open"
  siteId := site
  projectId := project
  dateModified := none
  modifiedId := none

theorem newTicket_id (db : TicketDb) (form : CreateForm) (site : Nat) (project : Option Nat)
    (user now id : Nat) : (newTicket db form site project user now id).id = id := rfl

namespace FlicketTicket

/-- What `edit_ticket` commits first. -/
def setDetails (db : TicketDb) (form : EditForm) (site project : Nat) (t : FlicketTicket) :
    FlicketTicket :=
  { t with
    componentId := (db.components.get? form.component).map TicketComponent.id
    dateDue := if form.dateDue = " " then t.dateDue else some form.dateDue
    siteId := site
    projectId := some project }

/-- What `edit_ticket` commits in the end. -/
def edit (db : TicketDb) (form : EditForm) (user now : Nat) (t : FlicketTicket) : FlicketTicket :=
  { t with
    description := form.content
    ticketName := form.title
    modifiedId := some user
    dateModified := some now
    statusId := db.findStatus "open"
    ticketPriorityId := (db.priorities.get? form.priority).map FlicketPriority.id
    categoryId := (db.categories.get? form.category).map FlicketCategory.id }

def setStatus (status : Option Nat) (t : FlicketTicket) : FlicketTicket := { t with statusId := status }

def assign (assignee status : Option Nat) (t : FlicketTicket) : FlicketTicket :=
  { t with
    assignedId := assignee
    statusId := status }

def close (status resolution : Option Nat) (user now : Nat) (t : FlicketTicket) : FlicketTicket :=
  { t with
    statusId := status
    resolutionId := resolution
    resolvedById := some user
    dateResolved := some now }

def reopen (status : Option Nat) (t : FlicketTicket) : FlicketTicket :=
  { t with
    statusId := status
    resolutionId := none
    resolvedById := none
    dateResolved := none }

theorem setDetails_id (db : TicketDb) (form : EditForm) (site project : Nat) (t : FlicketTicket) :
    (t.setDetails db form site project).id = t.id := rfl

theorem edit_id (db : TicketDb) (form : EditForm) (user now : Nat) (t : FlicketTicket) :
    (t.edit db form user now).id = t.id := rfl

theorem setStatus_id (status : Option Nat) (t : FlicketTicket) : (t.setStatus status).id = t.id := rfl

theorem assign_id (assignee status : Option Nat) (t : FlicketTicket) :
    (t.assign assignee status).id = t.id := rfl

theorem close_id (status resolution : Option Nat) (user now : Nat) (t : FlicketTicket) :
    (t.close status resolution user now).id = t.id := rfl

theorem reopen_id (status : Option Nat) (t : FlicketTicket) : (t.reopen status).id = t.id := rfl

end FlicketTicket

def newPost (ticket : Nat) (content : String) (user now : Nat) (id : Nat) : FlicketPost :=
  ⟨id, some ticket, content, some user, some now, none, none⟩

theorem newPost_id (ticket : Nat) (content : String) (user now id : Nat) :
    (newPost ticket content user now id).id = id := rfl

def FlicketPost.edit (content : String) (user now : Nat) (p : FlicketPost) : FlicketPost :=
  { p with
    content := content
    modifiedId := some user
    dateModified := some now }

theorem FlicketPost.edit_id (content : String) (user now : Nat) (p : FlicketPost) :
    (p.edit content user now).id = p.id := rfl

def newHistory (post topic : Option Nat) (content : String) (user : Option Nat) (now : Nat)
    (id : Nat) : FlicketHistory :=
  ⟨id, post, topic, some now, content, user⟩

theorem newHistory_id (post topic : Option Nat) (content : String) (user : Option Nat) (now id : Nat) :
    (newHistory post topic content user now id).id = id := rfl

def newSubscription (ticket : Nat) (user : Option Nat) (id : Nat) : FlicketSubscription :=
  ⟨id, some ticket, user⟩

theorem newSubscription_id (ticket : Nat) (user : Option Nat) (id : Nat) :
    (newSubscription ticket user id).id = id := rfl

inductive ActionKind
  | assign
  | claim
  | release
  | close
  | reopen
deriving DecidableEq

def newAction (kind : ActionKind) (ticket post : Option Nat) (user : Nat) (recipient : Option Nat)
    (now : Nat) (id : Nat) : FlicketAction where
  id := id
  ticketId := ticket
  postId := post
  assigned := if kind = .assign then some true else none
  claimed := if kind = .claim then some true else none
  released := if kind = .release then some true else none
  closed := if kind = .close then some true else none
  opened := if kind = .reopen then some true else none
  userId := some user
  recipientId := recipient
  date := some now

theorem newAction_id (kind : ActionKind) (ticket post : Option Nat) (user : Nat)
    (recipient : Option Nat) (now id : Nat) :
    (newAction kind ticket post user recipient now id).id = id := rfl

/-- The user whose text is kept in the history. Zero is no user. -/
def lastAuthor (modified started : Option Nat) : Option Nat :=
  match modified with
  | some k => if k = 0 then started else some k
  | none => started

/-- The loop over the uploads that are to be deleted. One that is not there any
more, because it was chosen twice, raises. -/
def dropUploads (t : Uploads) : List Nat → Option Uploads
  | [] => some t
  | i :: rest => do
    let _ ← t.get? i
    dropUploads (t.delete (fun u => u.id == i)) rest

namespace TicketDb

def writeTicket (db : TicketDb) (ticket : Nat) (f : FlicketTicket → FlicketTicket)
    (hf : ∀ t, (f t).id = t.id) : TicketDb :=
  { db with tickets := db.tickets.update (fun t => t.id == ticket) f hf }

def subscribe (db : TicketDb) (ticket : Nat) (user : Option Nat) : TicketDb :=
  { db with
    subscriptions := db.subscriptions.insert (newSubscription ticket user)
      (newSubscription_id ticket user) }

def ensureSubscribed (db : TicketDb) (ticket : Nat) (user : Option Nat) : TicketDb :=
  if db.isSubscribed ticket user then db else db.subscribe ticket user

/-- An action belongs to the last post of the ticket, and to the ticket if it has
no post, is closed or is reopened. -/
def addAction (db : TicketDb) (kind : ActionKind) (ticket user : Nat) (recipient : Option Nat)
    (now : Nat) : TicketDb :=
  let post := (db.postsOf ticket).getLast?
  let topic := if post = none ∨ kind = .close ∨ kind = .reopen then some ticket else none
  { db with
    actions := db.actions.insert (newAction kind topic (post.map FlicketPost.id) user recipient now)
      (newAction_id _ _ _ _ _ _) }

def addHistory (db : TicketDb) (post topic : Option Nat) (content : String) (user : Option Nat)
    (now : Nat) : TicketDb :=
  { db with
    histories := db.histories.insert (newHistory post topic content user now)
      (newHistory_id _ _ _ _ _) }

/-- A ticket that is there and has a status other than closed. -/
def openTicket (db : TicketDb) (ticketid : Nat) : Option FlicketTicket := do
  let ticket ← db.tickets.get? ticketid
  let status ← db.currentStatus ticket
  guard (status ≠ "Closed")
  pure ticket

end TicketDb

/-- The project of the form for a new ticket, which may be left out. -/
def TicketDb.chosenProject (db : TicketDb) (project : Option Nat) : Option (Option Nat) :=
  match project with
  | none => some none
  | some p => (db.projects.get? p).map (fun p => some p.id)

def ticketCreate (db : TicketDb) (user : User) (form : CreateForm) (now : Nat) :
    Option TicketDb := do
  guard (form.toTicketForm.validates db = true)
  let site ← db.sites.get? form.siteid
  let project ← db.chosenProject form.project
  let created := { db with
    tickets := db.tickets.insert (newTicket db form site.id project user.id now)
      (newTicket_id _ _ _ _ _ _)
    uploads := addUploads db.uploads none (some db.tickets.nextKey) form.files }
  pure (created.subscribe db.tickets.nextKey (some user.id))

/-- The reply on the page of a ticket. The page that led to it is read first and has
to have two parts. -/
def ticketReply (db : TicketDb) (user : User) (ticketid : Nat) (referrerParts : Option Nat)
    (form : ReplyForm) (now : Nat) : Option TicketDb := do
  let ticket ← db.tickets.get? ticketid
  let _ ← db.sites.get? ticket.siteId
  let parts ← referrerParts
  guard (2 ≤ parts)
  guard (form.validates = true)
  let replied := { db with
    posts := db.posts.insert (newPost ticket.id form.content user.id now) (newPost_id _ _ _ _)
    uploads := addUploads db.uploads (some db.posts.nextKey) none form.files }
  pure (replied.ensureSubscribed ticket.id (some user.id))

/-- The ticket that `edit_ticket` lets the user edit. -/
def TicketDb.editable (db : TicketDb) (user : User) (ticketid : Nat) : Option FlicketTicket := do
  let ticket ← db.openTicket ticketid
  let _ ← db.sites.get? ticket.siteId
  guard (ticket.authorised user = true)
  pure ticket

def editTicket (db : TicketDb) (user : User) (ticketid : Nat) (form : EditForm) (now : Nat) :
    Option TicketDb := do
  let ticket ← db.editable user ticketid
  guard (form.validates db ticket.id = true)
  let site ← db.sites.one? (fun s => s.name == form.sitename)
  let project ← db.projects.get? form.project
  let saved := db.writeTicket ticket.id (FlicketTicket.setDetails db form site.id project.id)
    (FlicketTicket.setDetails_id _ _ _ _)
  pure (match dropUploads db.uploads form.uploads with
    -- the first part has been committed when the exception is raised
    | none => saved
    | some uploads =>
      let noted := if ticket.description = form.content then saved else
        saved.addHistory none (some ticket.id) ticket.description
          (lastAuthor ticket.modifiedId ticket.startedId) now
      { noted.writeTicket ticket.id (FlicketTicket.edit db form user.id now)
          (FlicketTicket.edit_id _ _ _ _) with
        uploads := addUploads uploads none (some ticket.id) form.files })

/-- The form lists the uploads of the post under the name of a page that does not
exist, so it raises if there are any, and nothing can be chosen. -/
def editPost (db : TicketDb) (user : User) (postid : Nat) (form : EditReplyForm) (now : Nat) :
    Option TicketDb := do
  let post ← db.posts.get? postid
  guard (∀ u ∈ db.uploads.rows, u.postsId ≠ some post.id)
  let ticketid ← post.ticketId
  let _ ← db.openTicket ticketid
  guard (post.userId = some user.id ∨ user.hasRole "admin" = true)
  guard (form.validates = true ∧ form.uploads = [])
  let noted := if post.content = form.content then db else
    db.addHistory (some post.id) none post.content (lastAuthor post.modifiedId post.userId) now
  pure { noted with
    posts := db.posts.update (fun p => p.id == post.id) (FlicketPost.edit form.content user.id now)
      (FlicketPost.edit_id _ _ _)
    uploads := addUploads db.uploads (some post.id) none form.files }

/-- The ticket that is assigned, and the user it is assigned to: none, where no user
has the id of the form. -/
def TicketDb.assignable (db : TicketDb) (ticketid : Nat) (assignee : Option Nat) :
    Option (FlicketTicket × Option Nat) := do
  let ticket ← db.tickets.get? ticketid
  guard (db.currentStatus ticket ≠ some "Closed")
  let userid ← assignee
  let recipient := (db.users.get? userid).map User.id
  guard (ticket.assignedId ≠ recipient)
  pure (ticket, recipient)

/-- A ticket without a status is opened first, whatever the request is. `assignee` is
missing if the page is only read, or nobody was chosen. -/
def ticketAssign (db : TicketDb) (user : User) (ticketid : Nat) (assignee : Option Nat) (now : Nat) :
    Option TicketDb := do
  let ticket ← db.tickets.get? ticketid
  guard (db.currentStatus ticket ≠ some "Closed")
  let opened := if db.currentStatus ticket = none then
      db.writeTicket ticket.id (FlicketTicket.setStatus (db.findStatus "Open"))
        (FlicketTicket.setStatus_id _)
    else db
  pure (match db.assignable ticketid assignee with
    | none => opened
    | some (_, recipient) =>
      let assigned := opened.writeTicket ticket.id
        (FlicketTicket.assign recipient (db.findStatus "In Work")) (FlicketTicket.assign_id _ _)
      (assigned.addAction .assign ticket.id user.id recipient now).ensureSubscribed ticket.id recipient)

def ticketClaim (db : TicketDb) (user : User) (ticketid now : Nat) : Option TicketDb := do
  let ticket ← db.openTicket ticketid
  let claimed := db.writeTicket ticket.id
    (FlicketTicket.assign (some user.id) (db.findStatus "In Work")) (FlicketTicket.assign_id _ _)
  pure (claimed.addAction .claim ticket.id user.id none now)

def TicketDb.releasable (db : TicketDb) (user : User) (ticketid : Nat) : Option FlicketTicket := do
  let ticket ← db.openTicket ticketid
  let assignee ← ticket.assignedId
  guard (assignee = user.id ∨ user.hasRole "admin" = true)
  pure ticket

def ticketRelease (db : TicketDb) (user : User) (ticketid now : Nat) : Option TicketDb := do
  let ticket ← db.releasable user ticketid
  let released := db.writeTicket ticket.id (FlicketTicket.assign none (db.findStatus "Open"))
    (FlicketTicket.assign_id _ _)
  pure (released.addAction .release ticket.id user.id none now)

def subscribeTicket (db : TicketDb) (user : User) (ticketid : Nat) : Option TicketDb := do
  let ticket ← db.tickets.get? ticketid
  pure (db.ensureSubscribed ticket.id (some user.id))

/-- The one subscription of a user to a ticket; `none` is the exception that is
raised if there is not exactly one. -/
def TicketDb.subscription (db : TicketDb) (ticket user : Nat) : Option FlicketSubscription :=
  db.subscriptions.one? (fun s => s.userId == some user && s.ticketId == some ticket)

def unsubscribeTicket (db : TicketDb) (user : User) (ticketid : Nat) : Option TicketDb := do
  let ticket ← db.tickets.get? ticketid
  guard (db.isSubscribed ticket.id (some user.id) = true)
  let subscription ← db.subscription ticket.id user.id
  pure { db with subscriptions := db.subscriptions.delete (fun s => s.id == subscription.id) }

/-- The ticket that `close_status` lets the user close. The page that led to it has to
have four parts, and every subscriber has to have an address for the mail. -/
def TicketDb.closable (db : TicketDb) (user : User) (ticketid : Nat) (referrerParts : Option Nat) :
    Option FlicketTicket := do
  let parts ← referrerParts
  guard (4 ≤ parts)
  let ticket ← db.openTicket ticketid
  guard (ticket.authorised user = true)
  let _ ← db.getSubscriberEmails ticket.id
  pure ticket

/-- The action is committed before the resolution is read, so it stays if the form
has none. -/
def closeStatus (db : TicketDb) (user : User) (ticketid : Nat) (referrerParts resolution : Option Nat)
    (now : Nat) : Option TicketDb := do
  let ticket ← db.closable user ticketid referrerParts
  let noted := db.addAction .close ticket.id user.id none now
  pure (match resolution with
    | none => noted
    | some r => noted.writeTicket ticket.id
        (FlicketTicket.close (db.findStatus "Closed")
          ((db.resolutions.get? r).map TicketResolution.id) user.id now)
        (FlicketTicket.close_id _ _ _ _))

/-- `open_status` does not ask for the status of the ticket. -/
def TicketDb.openable (db : TicketDb) (user : User) (ticketid : Nat) : Option FlicketTicket := do
  let ticket ← db.tickets.get? ticketid
  guard (ticket.authorised user = true)
  let _ ← db.getSubscriberEmails ticket.id
  pure ticket

def openStatus (db : TicketDb) (user : User) (ticketid now : Nat) : Option TicketDb := do
  let ticket ← db.openable user ticketid
  pure ((db.addAction .reopen ticket.id user.id none now).writeTicket ticket.id
    (FlicketTicket.reopen (db.findStatus "Open")) (FlicketTicket.reopen_id _))

def FlicketAction.forgetPost (a : FlicketAction) : FlicketAction := { a with postId := none }

theorem FlicketAction.forgetPost_id (a : FlicketAction) : a.forgetPost.id = a.id := rfl

/-- The post that a deletion removes: an upload has no field of the name that is
read for its file, which raises, and the history of a post refers to it, which the
database does not let go. -/
def TicketDb.deletablePost (db : TicketDb) (posted : Bool) (postid : Nat) : Option FlicketPost := do
  guard (posted = true)
  guard (∀ u ∈ db.uploads.rows, u.postsId ≠ some postid)
  let post ← db.posts.get? postid
  guard (∀ h ∈ db.histories.rows, h.postId ≠ some post.id)
  pure post

theorem TicketDb.mem_of_deletablePost {db : TicketDb} {posted : Bool} {postid : Nat}
    {post : FlicketPost} (h : db.deletablePost posted postid = some post) : post ∈ db.posts.rows := by
  simp only [deletablePost, Option.bind_eq_bind, Option.bind_eq_some_iff, Option.pure_def,
    Option.some.injEq] at h
  obtain ⟨-, -, -, -, post', hpost, -, -, rfl⟩ := h
  exact (Table.get?_eq_some.mp hpost).1

/-- Without the role of an admin the user is only told so. The actions of the post
stay, without a post. -/
def deletePost (db : TicketDb) (posted : Bool) (postid : Nat) : Option TicketDb := do
  let post ← db.deletablePost posted postid
  pure { db with
    posts := db.posts.delete (fun p => p.id == post.id)
    actions := db.actions.update (fun a => a.postId == some post.id) FlicketAction.forgetPost
      FlicketAction.forgetPost_id }

inductive TicketRequest
  | create (form : CreateForm)
  | reply (ticketid : Nat) (referrerParts : Option Nat) (form : ReplyForm)
  | editTicket (ticketid : Nat) (form : EditForm)
  | editPost (postid : Nat) (form : EditReplyForm)
  | assign (ticketid : Nat) (assignee : Option Nat)
  | claim (ticketid : Nat)
  | release (ticketid : Nat)
  | subscribe (ticketid : Nat)
  | unsubscribe (ticketid : Nat)
  | closeStatus (ticketid : Nat) (referrerParts resolution : Option Nat)
  | openStatus (ticketid : Nat)
  | deletePost (posted : Bool) (postid : Nat)

def TicketRequest.handle (db : TicketDb) (user : User) (now : Nat) : TicketRequest → Option TicketDb
  | create form => ticketCreate db user form now
  | reply ticketid referrerParts form => ticketReply db user ticketid referrerParts form now
  | editTicket ticketid form => Medusa.editTicket db user ticketid form now
  | editPost postid form => Medusa.editPost db user postid form now
  | assign ticketid assignee => ticketAssign db user ticketid assignee now
  | claim ticketid => ticketClaim db user ticketid now
  | release ticketid => ticketRelease db user ticketid now
  | subscribe ticketid => subscribeTicket db user ticketid
  | unsubscribe ticketid => unsubscribeTicket db user ticketid
  | closeStatus ticketid referrerParts resolution =>
    Medusa.closeStatus db user ticketid referrerParts resolution now
  | openStatus ticketid => Medusa.openStatus db user ticketid now
  | deletePost posted postid => Medusa.deletePost db posted postid

/-- A request by a user at a time. -/
structure TicketVisit where
  user : Nat
  now : Nat
  request : TicketRequest

/-- Who is not logged in is sent to the login page. -/
def TicketVisit.commit (db : TicketDb) (v : TicketVisit) : Option TicketDb := do
  let user ← db.users.get? v.user
  v.request.handle db user v.now

def runTickets (db : TicketDb) (visits : List TicketVisit) : TicketDb :=
  serveAll TicketVisit.commit db visits

/-- A site with two users and an admin, and no ticket yet. -/
def helpDesk : TicketDb where
  users := ⟨⟨[⟨1, "operator", []⟩, ⟨2, "fitter", []⟩, ⟨3, "manager", ["admin"]⟩], by decide⟩, by decide⟩
  statuses := threeStatuses
  sites := ⟨[plantSite], plantSite_nodup⟩
  projects := ⟨[upgradeProject], upgradeProject_nodup⟩
  departments := ⟨[⟨1, "maintenance"⟩, ⟨2, "offices"⟩], by simp⟩
  categories := ⟨[⟨1, "fault", some 1⟩, ⟨2, "question", some 1⟩], by simp⟩
  priorities := ⟨[⟨1, "low"⟩], by simp⟩
  components := ⟨[⟨1, "pump"⟩], by simp⟩
  resolutions := ⟨[⟨1, "fixed"⟩], by simp⟩
  tickets := .empty
  posts := .empty
  uploads := .empty
  histories := .empty
  subscriptions := .empty
  actions := .empty

def leakForm : TicketForm where
  submitted := true
  title := "leak"
  content := "the pump leaks"
  priority := 1
  category := 1
  component := 1
  dateDue := " "
  files := []

/-- The operator reports a leak. -/
def leakVisit : TicketVisit := ⟨1, 10, .create ⟨leakForm, 1, some 1⟩⟩

/-- The operator adds that the leak got worse. -/
def leakReply : TicketVisit := ⟨1, 20, .reply 1 (some 6) ⟨true, "it gets worse", []⟩⟩

end Medusa
