import Mathlib.Data.List.Sort
import Medusa.Itp.Store

/-! The tables behind the tickets. A ticket has posts, and it has subscribers, who
get its mail. What is done with a ticket is recorded in actions, which belong to
the ticket or to one of its posts. -/

namespace Medusa

open Relational

structure User where
  id : Nat
  email : String
  roles : List String
deriving DecidableEq

def User.hasRole (u : User) (role : String) : Bool := decide (role ∈ u.roles)

/-- E-mail addresses are unique in the database. -/
structure UserTable extends Table User User.id where
  emails : (rows.map User.email).Nodup

structure FlicketStatus where
  id : Nat
  status : String
deriving DecidableEq

/-- The database does not tell apart upper and lower case when it compares texts. -/
def foldCase (text : String) : List Char := text.toList.map Char.toLower

/-- The statuses that the handlers look up are there, and the database can tell
apart the names of any two statuses. -/
structure StatusTable extends Table FlicketStatus FlicketStatus.id where
  distinct : (rows.map (fun s => foldCase s.status)).Nodup
  present : ∀ name ∈ ["Open", "In Work", "Closed"], ∃ s ∈ rows, s.status = name

def threeStatuses : StatusTable where
  rows := [⟨1, "Open"⟩, ⟨2, "In Work"⟩, ⟨3, "Closed"⟩]
  nodup := by decide
  distinct := by decide
  present := by decide

structure FlicketDepartment where
  id : Nat
  department : String
deriving DecidableEq

structure FlicketCategory where
  id : Nat
  category : String
  departmentId : Option Nat
deriving DecidableEq

structure FlicketPriority where
  id : Nat
  priority : String
deriving DecidableEq

structure TicketComponent where
  id : Nat
  name : String
deriving DecidableEq

structure TicketResolution where
  id : Nat
  resolution : String
deriving DecidableEq

structure FlicketTicket where
  id : Nat
  ticketName : String
  description : String
  dateAdded : Option Nat
  dateDue : Option String
  startedId : Option Nat
  categoryId : Option Nat
  componentId : Option Nat
  ticketPriorityId : Option Nat
  assignedId : Option Nat
  dateResolved : Option Nat
  resolvedById : Option Nat
  resolutionId : Option Nat
  statusId : Option Nat
  siteId : Nat
  projectId : Option Nat
  dateModified : Option Nat
  modifiedId : Option Nat
deriving DecidableEq

structure FlicketPost where
  id : Nat
  ticketId : Option Nat
  content : String
  userId : Option Nat
  dateAdded : Option Nat
  dateModified : Option Nat
  modifiedId : Option Nat
deriving DecidableEq

structure FlicketUploads where
  id : Nat
  postsId : Option Nat
  topicId : Option Nat
  filename : String
  originalFilename : String
deriving DecidableEq

structure FlicketHistory where
  id : Nat
  postId : Option Nat
  topicId : Option Nat
  dateModified : Option Nat
  originalContent : String
  userId : Option Nat
deriving DecidableEq

structure FlicketSubscription where
  id : Nat
  ticketId : Option Nat
  userId : Option Nat
deriving DecidableEq

structure FlicketAction where
  id : Nat
  ticketId : Option Nat
  postId : Option Nat
  assigned : Option Bool
  claimed : Option Bool
  released : Option Bool
  closed : Option Bool
  opened : Option Bool
  userId : Option Nat
  recipientId : Option Nat
  date : Option Nat
deriving DecidableEq

abbrev Tickets := Table FlicketTicket FlicketTicket.id

abbrev Posts := Table FlicketPost FlicketPost.id

abbrev Uploads := Table FlicketUploads FlicketUploads.id

abbrev Subscriptions := Table FlicketSubscription FlicketSubscription.id

abbrev Actions := Table FlicketAction FlicketAction.id

structure TicketDb where
  users : UserTable
  statuses : StatusTable
  sites : Table Site Site.id
  projects : Table Project Project.id
  departments : Table FlicketDepartment FlicketDepartment.id
  categories : Table FlicketCategory FlicketCategory.id
  priorities : Table FlicketPriority FlicketPriority.id
  components : Table TicketComponent TicketComponent.id
  resolutions : Table TicketResolution TicketResolution.id
  tickets : Tickets
  posts : Posts
  uploads : Uploads
  histories : Table FlicketHistory FlicketHistory.id
  subscriptions : Subscriptions
  actions : Actions

/-- `ticket.current_status.status`. Without a status, reading its name raises. -/
def TicketDb.currentStatus (db : TicketDb) (t : FlicketTicket) : Option String :=
  (t.statusId.bind db.statuses.get?).map FlicketStatus.status

def TicketDb.findStatus (db : TicketDb) (name : String) : Option Nat :=
  (db.statuses.first? (fun s => foldCase s.status == foldCase name)).map FlicketStatus.id

/-- The e-mail address by which the subscribers of a ticket are ordered. -/
def TicketDb.emailOf (db : TicketDb) (s : FlicketSubscription) : Option String :=
  (s.userId.bind db.users.get?).map User.email

def TicketDb.subscriptionsOf (db : TicketDb) (ticket : Nat) : List FlicketSubscription :=
  db.subscriptions.rows.filter (fun s => s.ticketId == some ticket)

/-- `ticket.subscribers`. A missing address comes first. -/
def TicketDb.subscribers (db : TicketDb) (ticket : Nat) : List FlicketSubscription :=
  (db.subscriptionsOf ticket).insertionSort
    (fun s s' => (db.emailOf s).getD "" ≤ (db.emailOf s').getD "")

/-- For no user, it asks for a subscription without a user. -/
def TicketDb.isSubscribed (db : TicketDb) (ticket : Nat) (user : Option Nat) : Bool :=
  (db.subscribers ticket).any (fun s => s.userId == user)

/-- `none` is the exception that a subscription without a user raises. -/
def TicketDb.getSubscriberEmails (db : TicketDb) (ticket : Nat) : Option (List String) :=
  (db.subscribers ticket).mapM db.emailOf

/-- `ticket.posts`. -/
def TicketDb.postsOf (db : TicketDb) (ticket : Nat) : List FlicketPost :=
  db.posts.rows.filter (fun p => p.ticketId == some ticket)

/-- Who may close, reopen or edit a ticket. -/
def FlicketTicket.authorised (user : User) (t : FlicketTicket) : Bool :=
  t.startedId == some user.id || t.assignedId == some user.id || user.hasRole "admin"

/-- A name that the handlers look up, in upper or lower case, finds the status of
that name. -/
theorem TicketDb.findStatus_eq (db : TicketDb) {name asked : String}
    (hname : name ∈ ["Open", "In Work", "Closed"]) (hasked : foldCase asked = foldCase name) :
    ∃ s ∈ db.statuses.rows, s.status = name ∧ db.findStatus asked = some s.id := by
  obtain ⟨s, hs, hstatus⟩ := db.statuses.present name hname
  refine ⟨s, hs, hstatus, ?_⟩
  cases hfirst : db.statuses.first? (fun s => foldCase s.status == foldCase asked) with
  | none =>
    have hno := Table.first?_eq_none hfirst s hs
    rw [hstatus, hasked, beq_self_eq_true] at hno
    exact Bool.noConfusion hno
  | some s' =>
    have hs' := Table.mem_of_first? hfirst
    have hfold : foldCase s'.status = foldCase s.status := by
      rw [hstatus, ← hasked]
      exact beq_iff_eq.mp hs'.2
    rw [findStatus, hfirst, List.inj_on_of_nodup_map db.statuses.distinct hs'.1 hs hfold]
    rfl

/-- A ticket whose status was looked up has that status. -/
theorem TicketDb.currentStatus_of_find (db : TicketDb) {name asked : String}
    (hname : name ∈ ["Open", "In Work", "Closed"]) (hasked : foldCase asked = foldCase name)
    {t : FlicketTicket} (ht : t.statusId = db.findStatus asked) :
    db.currentStatus t = some name := by
  obtain ⟨s, hs, hstatus, hfind⟩ := db.findStatus_eq hname hasked
  have hget : db.statuses.get? s.id = some s := Table.get?_eq_some.mpr ⟨hs, rfl⟩
  simp [currentStatus, ht, hfind, hget, hstatus]

theorem TicketDb.perm_subscribers (db : TicketDb) (ticket : Nat) :
    (db.subscribers ticket).Perm (db.subscriptionsOf ticket) :=
  List.perm_insertionSort _ _

theorem TicketDb.mem_subscriptionsOf {db : TicketDb} {ticket : Nat} {s : FlicketSubscription} :
    s ∈ db.subscriptionsOf ticket ↔ s ∈ db.subscriptions.rows ∧ s.ticketId = some ticket := by
  simp [subscriptionsOf]

theorem TicketDb.isSubscribed_iff {db : TicketDb} {ticket : Nat} {user : Option Nat} :
    db.isSubscribed ticket user = true ↔ ∃ s ∈ db.subscriptionsOf ticket, s.userId = user := by
  simp [isSubscribed, (db.perm_subscribers ticket).mem_iff]

end Medusa
