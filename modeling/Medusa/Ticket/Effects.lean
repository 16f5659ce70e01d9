import Medusa.Ticket.Requests

/-! What a request on tickets leaves, said once for all requests: each case names the
tables that are written and the guards that were passed. -/

namespace Medusa

open Relational

namespace TicketDb

variable (db : TicketDb) (ticket user now : Nat) (kind : ActionKind) (who : Option Nat)

@[simp] theorem ensureSubscribed_tickets : (db.ensureSubscribed ticket who).tickets = db.tickets := by
  unfold ensureSubscribed
  split <;> rfl

@[simp] theorem ensureSubscribed_posts : (db.ensureSubscribed ticket who).posts = db.posts := by
  unfold ensureSubscribed
  split <;> rfl

@[simp] theorem ensureSubscribed_actions : (db.ensureSubscribed ticket who).actions = db.actions := by
  unfold ensureSubscribed
  split <;> rfl

@[simp] theorem ensureSubscribed_statuses :
    (db.ensureSubscribed ticket who).statuses = db.statuses := by
  unfold ensureSubscribed
  split <;> rfl

@[simp] theorem ensureSubscribed_users : (db.ensureSubscribed ticket who).users = db.users := by
  unfold ensureSubscribed
  split <;> rfl

@[simp] theorem ensureSubscribed_histories :
    (db.ensureSubscribed ticket who).histories = db.histories := by
  unfold ensureSubscribed
  split <;> rfl

theorem openTicket_eq_some {db : TicketDb} {ticketid : Nat} {t : FlicketTicket} :
    db.openTicket ticketid = some t ↔
      (t ∈ db.tickets.rows ∧ t.id = ticketid) ∧ ∃ status, db.currentStatus t = some status ∧
        status ≠ "Closed" := by
  simp only [openTicket, Option.bind_eq_bind, Option.bind_eq_some_iff, guard_eq_some,
    Option.pure_def, Option.some.injEq, ← Table.get?_eq_some]
  constructor
  · rintro ⟨t', ht', status, hstatus, -, hne, rfl⟩
    exact ⟨ht', status, hstatus, hne⟩
  · rintro ⟨ht, status, hstatus, hne⟩
    exact ⟨t, ht, status, hstatus, (), hne, rfl⟩

variable {db : TicketDb} {user : User} {ticketid : Nat} {t : FlicketTicket}

theorem mem_of_openTicket (h : db.openTicket ticketid = some t) : t ∈ db.tickets.rows :=
  (openTicket_eq_some.mp h).1.1

theorem openTicket_of_editable (h : db.editable user ticketid = some t) :
    db.openTicket ticketid = some t := by
  simp only [editable, Option.bind_eq_bind, Option.bind_eq_some_iff, Option.pure_def,
    Option.some.injEq] at h
  obtain ⟨t', ht', site, -, -, -, rfl⟩ := h
  exact ht'

theorem openTicket_of_releasable (h : db.releasable user ticketid = some t) :
    db.openTicket ticketid = some t := by
  simp only [releasable, Option.bind_eq_bind, Option.bind_eq_some_iff, Option.pure_def,
    Option.some.injEq] at h
  obtain ⟨t', ht', assignee, -, -, -, rfl⟩ := h
  exact ht'

theorem openTicket_of_closable {parts : Option Nat} (h : db.closable user ticketid parts = some t) :
    db.openTicket ticketid = some t := by
  simp only [closable, Option.bind_eq_bind, Option.bind_eq_some_iff, Option.pure_def,
    Option.some.injEq] at h
  obtain ⟨parts, -, -, -, t', ht', -, -, emails, -, rfl⟩ := h
  exact ht'

theorem authorised_of_openable (h : db.openable user ticketid = some t) :
    db.tickets.get? ticketid = some t ∧ t.authorised user = true := by
  simp only [openable, Option.bind_eq_bind, Option.bind_eq_some_iff, guard_eq_some,
    Option.pure_def, Option.some.injEq] at h
  obtain ⟨t', ht', -, hauthorised, emails, -, rfl⟩ := h
  exact ⟨ht', hauthorised⟩

/-- The post that `edit_post` edits. -/
def editedPost (db : TicketDb) (user : User) (postid : Nat) (form : EditReplyForm) :
    Option FlicketPost := do
  let post ← db.posts.get? postid
  guard (∀ u ∈ db.uploads.rows, u.postsId ≠ some post.id)
  let ticketid ← post.ticketId
  let _ ← db.openTicket ticketid
  guard (post.userId = some user.id ∨ user.hasRole "admin" = true)
  guard (form.validates = true ∧ form.uploads = [])
  pure post

theorem currentStatus_congr {db' : TicketDb} (h : db'.statuses = db.statuses) :
    db'.currentStatus = db.currentStatus := by
  funext t
  unfold currentStatus
  rw [h]

end TicketDb

inductive TicketEffect (db : TicketDb) (user : User) (now : Nat) : TicketRequest → TicketDb → Prop
  | created {form site project uploads} :
    TicketEffect db user now (.create form)
      ({ db with
        tickets := db.tickets.insert (newTicket db form site project user.id now)
          (newTicket_id _ _ _ _ _ _)
        uploads := uploads }.subscribe db.tickets.nextKey (some user.id))
  | replied {ticketid parts form ticket uploads} (hticket : db.tickets.get? ticketid = some ticket) :
    TicketEffect db user now (.reply ticketid parts form)
      ({ db with
        posts := db.posts.insert (newPost ticket.id form.content user.id now) (newPost_id _ _ _ _)
        uploads := uploads }.ensureSubscribed ticket.id (some user.id))
  | detailsSet {ticketid form ticket site project} (hticket : db.editable user ticketid = some ticket)
      (hstop : dropUploads db.uploads form.uploads = none) :
    TicketEffect db user now (.editTicket ticketid form)
      (db.writeTicket ticket.id (FlicketTicket.setDetails db form site project)
        (FlicketTicket.setDetails_id _ _ _ _))
  | edited {ticketid form ticket site project uploads histories dropped}
      (hticket : db.editable user ticketid = some ticket)
      (hvalid : form.validates db ticket.id = true)
      (hsite : db.sites.one? (fun s => s.name == form.sitename) = some site)
      (hproject : db.projects.get? form.project = some project)
      (hdropped : dropUploads db.uploads form.uploads = some dropped)
      (hhistories : histories = (if ticket.description = form.content then db else
        db.addHistory none (some ticket.id) ticket.description
          (lastAuthor ticket.modifiedId ticket.startedId) now).histories) :
    TicketEffect db user now (.editTicket ticketid form)
      { db with
        tickets := db.tickets.update (fun t => t.id == ticket.id)
          (fun t => (t.setDetails db form site.id project.id).edit db form user.id now) (fun _ => rfl)
        uploads := uploads
        histories := histories }
  | postEdited {postid form post uploads histories} (hpost : db.posts.get? postid = some post)
      (hedited : db.editedPost user postid form = some post)
      (hhistories : histories = (if post.content = form.content then db else
        db.addHistory (some post.id) none post.content (lastAuthor post.modifiedId post.userId)
          now).histories) :
    TicketEffect db user now (.editPost postid form)
      { db with
        posts := db.posts.update (fun p => p.id == post.id)
          (FlicketPost.edit form.content user.id now) (FlicketPost.edit_id _ _ _)
        uploads := uploads
        histories := histories }
  | notAssigned {ticketid assignee} (hnone : db.assignable ticketid assignee = none) :
    TicketEffect db user now (.assign ticketid assignee) db
  | opened {ticketid assignee ticket} (hticket : db.tickets.get? ticketid = some ticket)
      (hstatus : db.currentStatus ticket = none)
      (hnone : db.assignable ticketid assignee = none) :
    TicketEffect db user now (.assign ticketid assignee)
      (db.writeTicket ticket.id (FlicketTicket.setStatus (db.findStatus "Open"))
        (FlicketTicket.setStatus_id _))
  | assigned {ticketid assignee ticket recipient}
      (hassign : db.assignable ticketid assignee = some (ticket, recipient)) :
    TicketEffect db user now (.assign ticketid assignee)
      (((db.writeTicket ticket.id (FlicketTicket.assign recipient (db.findStatus "In Work"))
        (FlicketTicket.assign_id _ _)).addAction .assign ticket.id user.id recipient
          now).ensureSubscribed ticket.id recipient)
  | claimed {ticketid ticket} (hticket : db.openTicket ticketid = some ticket) :
    TicketEffect db user now (.claim ticketid)
      ((db.writeTicket ticket.id (FlicketTicket.assign (some user.id) (db.findStatus "In Work"))
        (FlicketTicket.assign_id _ _)).addAction .claim ticket.id user.id none now)
  | released {ticketid ticket} (hticket : db.releasable user ticketid = some ticket) :
    TicketEffect db user now (.release ticketid)
      ((db.writeTicket ticket.id (FlicketTicket.assign none (db.findStatus "Open"))
        (FlicketTicket.assign_id _ _)).addAction .release ticket.id user.id none now)
  | subscribed {ticketid ticket} (hticket : db.tickets.get? ticketid = some ticket) :
    TicketEffect db user now (.subscribe ticketid)
      (db.ensureSubscribed ticket.id (some user.id))
  | unsubscribed {ticketid ticket subscription} (hticket : db.tickets.get? ticketid = some ticket)
      (hone : db.subscription ticket.id user.id = some subscription) :
    TicketEffect db user now (.unsubscribe ticketid)
      { db with subscriptions := db.subscriptions.delete (fun s => s.id == subscription.id) }
  | closeNoted {ticketid parts ticket} (hticket : db.closable user ticketid parts = some ticket) :
    TicketEffect db user now (.closeStatus ticketid parts none)
      (db.addAction .close ticket.id user.id none now)
  | closed {ticketid parts r ticket resolution}
      (hticket : db.closable user ticketid parts = some ticket) :
    TicketEffect db user now (.closeStatus ticketid parts (some r))
      ((db.addAction .close ticket.id user.id none now).writeTicket ticket.id
        (FlicketTicket.close (db.findStatus "Closed") resolution user.id now)
        (FlicketTicket.close_id _ _ _ _))
  | reopened {ticketid ticket} (hticket : db.openable user ticketid = some ticket) :
    TicketEffect db user now (.openStatus ticketid)
      ((db.addAction .reopen ticket.id user.id none now).writeTicket ticket.id
        (FlicketTicket.reopen (db.findStatus "Open")) (FlicketTicket.reopen_id _))
  | postDeleted {posted postid post} (hpost : db.deletablePost posted postid = some post) :
    TicketEffect db user now (.deletePost posted postid)
      { db with
        posts := db.posts.delete (fun p => p.id == post.id)
        actions := db.actions.update (fun a => a.postId == some post.id) FlicketAction.forgetPost
          FlicketAction.forgetPost_id }

theorem TicketEffect.statuses {db db' : TicketDb} {user : User} {now : Nat} {r : TicketRequest}
    (h : TicketEffect db user now r db') : db'.statuses = db.statuses := by
  cases h <;> simp [TicketDb.writeTicket, TicketDb.addAction, TicketDb.subscribe]

theorem TicketEffect.users {db db' : TicketDb} {user : User} {now : Nat} {r : TicketRequest}
    (h : TicketEffect db user now r db') : db'.users = db.users := by
  cases h <;> simp [TicketDb.writeTicket, TicketDb.addAction, TicketDb.subscribe]

theorem assignable_eq_some {db : TicketDb} {ticketid : Nat} {assignee recipient : Option Nat}
    {ticket : FlicketTicket} (h : db.assignable ticketid assignee = some (ticket, recipient)) :
    db.tickets.get? ticketid = some ticket ∧ db.currentStatus ticket ≠ some "Closed" ∧
      ∃ userid, assignee = some userid ∧ recipient = (db.users.get? userid).map User.id ∧
        ticket.assignedId ≠ recipient := by
  simp only [TicketDb.assignable, Option.bind_eq_bind, Option.bind_eq_some_iff, guard_eq_some,
    Option.pure_def, Option.some.injEq, Prod.mk.injEq] at h
  obtain ⟨t, ht, -, hstatus, userid, hassignee, -, hne, rfl, rfl⟩ := h
  exact ⟨ht, hstatus, userid, hassignee, rfl, hne⟩

theorem forall_assignable_iff {db : TicketDb} {ticketid : Nat} {assignee recipient : Option Nat}
    {ticket : FlicketTicket} (h : db.assignable ticketid assignee = some (ticket, recipient))
    {P : Option Nat → Prop} :
    (∀ t r, db.assignable ticketid assignee = some (t, r) → P r) ↔ P recipient := by
  constructor
  · intro hall
    exact hall ticket recipient h
  · intro hp t r hassign
    obtain ⟨-, rfl⟩ := Prod.mk.inj (Option.some.inj (h.symm.trans hassign))
    exact hp

theorem ticketAssign_ne_none {db : TicketDb} {user : User} {ticketid now : Nat}
    {assignee : Option Nat} {found : FlicketTicket × Option Nat}
    (h : db.assignable ticketid assignee = some found) :
    ticketAssign db user ticketid assignee now ≠ none := by
  obtain ⟨hticket, hstatus, -⟩ := assignable_eq_some h
  simp [ticketAssign, hticket, hstatus, guard]

/-- Setting the status to work overwrites what was set for a missing status. -/
theorem TicketDb.writeTicket_assign (db : TicketDb) (ticket : Nat)
    (first assignee status : Option Nat) :
    (db.writeTicket ticket (FlicketTicket.setStatus first)
      (FlicketTicket.setStatus_id _)).writeTicket ticket (FlicketTicket.assign assignee status)
        (FlicketTicket.assign_id _ _) =
      db.writeTicket ticket (FlicketTicket.assign assignee status) (FlicketTicket.assign_id _ _) := by
  unfold TicketDb.writeTicket
  simp only [Table.update_update_key]
  rfl

theorem ticketAssign_effect {db db' : TicketDb} {user : User} {ticketid now : Nat}
    {assignee : Option Nat} (h : ticketAssign db user ticketid assignee now = some db') :
    TicketEffect db user now (.assign ticketid assignee) db' := by
  simp only [ticketAssign, Option.bind_eq_bind, Option.bind_eq_some_iff, guard_eq_some,
    Option.pure_def, Option.some.injEq] at h
  obtain ⟨ticket, hticket, -, -, rfl⟩ := h
  cases hassign : db.assignable ticketid assignee with
  | none =>
    by_cases hstatus : db.currentStatus ticket = none
    · simp only [hstatus, if_true]
      exact .opened hticket hstatus hassign
    · simp only [hstatus, if_false]
      exact .notAssigned hassign
  | some found =>
    obtain ⟨ticket', recipient⟩ := found
    obtain rfl := Option.some.inj ((assignable_eq_some hassign).1.symm.trans hticket)
    by_cases hstatus : db.currentStatus ticket' = none
    · simp only [hstatus, if_true, TicketDb.writeTicket_assign]
      exact .assigned hassign
    · simp only [hstatus, if_false]
      exact .assigned hassign

theorem editTicket_effect {db db' : TicketDb} {user : User} {ticketid now : Nat} {form : EditForm}
    (h : editTicket db user ticketid form now = some db') :
    TicketEffect db user now (.editTicket ticketid form) db' := by
  simp only [editTicket, Option.bind_eq_bind, Option.bind_eq_some_iff, guard_eq_some,
    Option.pure_def, Option.some.injEq] at h
  obtain ⟨ticket, hticket, -, hvalid, site, hsite, project, hproject, rfl⟩ := h
  cases hdropped : dropUploads db.uploads form.uploads with
  | none => exact .detailsSet hticket hdropped
  | some dropped =>
    by_cases hsame : ticket.description = form.content
    · simp only [hsame, if_true, TicketDb.writeTicket, Table.update_update_key]
      exact .edited hticket hvalid hsite hproject hdropped (by simp [hsame])
    · simp only [hsame, if_false, TicketDb.writeTicket, TicketDb.addHistory,
        Table.update_update_key]
      exact .edited hticket hvalid hsite hproject hdropped (by simp [hsame, TicketDb.addHistory])

theorem editPost_eq {db : TicketDb} {user : User} {postid now : Nat} {form : EditReplyForm} :
    editPost db user postid form now = (db.editedPost user postid form).bind (fun post =>
      let noted := if post.content = form.content then db else
        db.addHistory (some post.id) none post.content (lastAuthor post.modifiedId post.userId) now
      some { noted with
        posts := db.posts.update (fun p => p.id == post.id)
          (FlicketPost.edit form.content user.id now) (FlicketPost.edit_id _ _ _)
        uploads := addUploads db.uploads (some post.id) none form.files }) := by
  simp [editPost, TicketDb.editedPost, Option.bind_assoc]

theorem TicketDb.get?_of_editedPost {db : TicketDb} {user : User} {postid : Nat}
    {form : EditReplyForm} {post : FlicketPost} (h : db.editedPost user postid form = some post) :
    db.posts.get? postid = some post := by
  simp only [TicketDb.editedPost, Option.bind_eq_bind, Option.bind_eq_some_iff, Option.pure_def,
    Option.some.injEq] at h
  obtain ⟨post', hpost, -, -, ticketid, -, ticket, -, -, -, -, -, rfl⟩ := h
  exact hpost

theorem editPost_effect {db db' : TicketDb} {user : User} {postid now : Nat} {form : EditReplyForm}
    (h : editPost db user postid form now = some db') :
    TicketEffect db user now (.editPost postid form) db' := by
  rw [editPost_eq] at h
  obtain ⟨post, hedited, hdb⟩ := Option.bind_eq_some_iff.mp h
  obtain rfl := Option.some.inj hdb
  have hpost := TicketDb.get?_of_editedPost hedited
  by_cases hsame : post.content = form.content
  · simp only [hsame, if_true]
    exact .postEdited hpost hedited (by simp [hsame])
  · simp only [hsame, if_false, TicketDb.addHistory]
    exact .postEdited hpost hedited (by simp [hsame, TicketDb.addHistory])

theorem handle_effect {db db' : TicketDb} {user : User} {now : Nat} {request : TicketRequest}
    (h : request.handle db user now = some db') : TicketEffect db user now request db' := by
  cases request with
  | create form =>
    simp only [TicketRequest.handle, ticketCreate, Option.bind_eq_bind, Option.bind_eq_some_iff,
      Option.pure_def, Option.some.injEq] at h
    obtain ⟨-, -, site, -, project, -, rfl⟩ := h
    exact .created
  | reply ticketid parts form =>
    simp only [TicketRequest.handle, ticketReply, Option.bind_eq_bind, Option.bind_eq_some_iff,
      Option.pure_def, Option.some.injEq] at h
    obtain ⟨ticket, hticket, site, -, parts, -, -, -, -, -, rfl⟩ := h
    exact .replied hticket
  | editTicket ticketid form => exact editTicket_effect h
  | editPost postid form => exact editPost_effect h
  | assign ticketid assignee => exact ticketAssign_effect h
  | claim ticketid =>
    obtain ⟨ticket, hticket, hdb⟩ := Option.bind_eq_some_iff.mp h
    obtain rfl := Option.some.inj hdb
    exact .claimed hticket
  | release ticketid =>
    obtain ⟨ticket, hticket, hdb⟩ := Option.bind_eq_some_iff.mp h
    obtain rfl := Option.some.inj hdb
    exact .released hticket
  | subscribe ticketid =>
    obtain ⟨ticket, hticket, hdb⟩ := Option.bind_eq_some_iff.mp h
    obtain rfl := Option.some.inj hdb
    exact .subscribed hticket
  | unsubscribe ticketid =>
    simp only [TicketRequest.handle, unsubscribeTicket, Option.bind_eq_bind,
      Option.bind_eq_some_iff, Option.pure_def, Option.some.injEq] at h
    obtain ⟨ticket, hticket, -, -, subscription, hone, rfl⟩ := h
    exact .unsubscribed hticket hone
  | closeStatus ticketid parts resolution =>
    obtain ⟨ticket, hticket, hdb⟩ := Option.bind_eq_some_iff.mp h
    obtain rfl := Option.some.inj hdb
    cases resolution with
    | none => exact .closeNoted hticket
    | some r => exact .closed hticket
  | openStatus ticketid =>
    obtain ⟨ticket, hticket, hdb⟩ := Option.bind_eq_some_iff.mp h
    obtain rfl := Option.some.inj hdb
    exact .reopened hticket
  | deletePost posted postid =>
    obtain ⟨post, hpost, hdb⟩ := Option.bind_eq_some_iff.mp h
    obtain rfl := Option.some.inj hdb
    exact .postDeleted hpost

theorem TicketVisit.effect {db db' : TicketDb} {v : TicketVisit} (h : v.commit db = some db') :
    ∃ user, db.users.get? v.user = some user ∧ TicketEffect db user v.now v.request db' := by
  obtain ⟨user, huser, hdb⟩ := Option.bind_eq_some_iff.mp h
  exact ⟨user, huser, handle_effect hdb⟩

/-- A property of the database after a request of a user, judged by what the request
of that user does. -/
theorem TicketVisit.serve_iff {I : TicketDb → Prop} {C : User → TicketRequest → Prop}
    {db : TicketDb} (v : TicketVisit) (h : I db)
    (hnone : ∀ user, v.request.handle db user v.now = none → C user v.request)
    (hsome : ∀ user db', TicketEffect db user v.now v.request db' → (I db' ↔ C user v.request)) :
    I (serve TicketVisit.commit db v) ↔
      ∀ user, db.users.get? v.user = some user → C user v.request := by
  refine Relational.serve_iff h ?_ ?_
  · intro hcommit user huser
    simp only [TicketVisit.commit, huser, Option.bind_eq_bind, Option.bind_some] at hcommit
    exact hnone user hcommit
  · intro db' hdb
    obtain ⟨user, huser, heffect⟩ := TicketVisit.effect hdb
    rw [forall_eq_some_iff huser, hsome user db' heffect]

end Medusa
