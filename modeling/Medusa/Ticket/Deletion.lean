import Medusa.Ticket.Requests

/-! Deletions, which are meant for admins. Every handler asks for the role first, but
only `delete_ticket` stops there; the others tell the user and go on. -/

namespace Medusa

open Relational

def FlicketPost.forgetTicket (p : FlicketPost) : FlicketPost := { p with ticketId := none }

def FlicketSubscription.forgetTicket (s : FlicketSubscription) : FlicketSubscription :=
  { s with ticketId := none }

def FlicketAction.forgetTicket (a : FlicketAction) : FlicketAction := { a with ticketId := none }

/-- What the ticket has is left without a ticket. As with a post, an upload raises, and
the history does not let the ticket go. -/
def deleteTicket (db : TicketDb) (user : User) (posted : Bool) (ticketid : Nat) :
    Option TicketDb := do
  guard (user.hasRole "admin" = true)
  guard (posted = true)
  guard (∀ u ∈ db.uploads.rows, u.topicId ≠ some ticketid)
  let ticket ← db.tickets.get? ticketid
  guard (∀ h ∈ db.histories.rows, h.topicId ≠ some ticket.id)
  pure { db with
    tickets := db.tickets.delete (fun t => t.id == ticket.id)
    posts := db.posts.update (fun p => p.ticketId == some ticket.id) FlicketPost.forgetTicket
      (fun _ => rfl)
    subscriptions := db.subscriptions.update (fun s => s.ticketId == some ticket.id)
      FlicketSubscription.forgetTicket (fun _ => rfl)
    actions := db.actions.update (fun a => a.ticketId == some ticket.id)
      FlicketAction.forgetTicket (fun _ => rfl) }

section Unused

variable {ρ : Type} {key : ρ → Nat} {t t' : Table ρ key} {used confirmed : Bool} {k : Nat}

/-- What `delete_category` and `delete_department` share. `confirmed` says that the form
was posted with the password of the user. -/
def deleteUnused (t : Table ρ key) (used confirmed : Bool) (k : Nat) : Option (Table ρ key) := do
  guard (used = false)
  guard (confirmed = true)
  let row ← t.get? k
  pure (t.delete (fun r => key r == key row))

theorem deleteUnused_eq_some (h : deleteUnused t used confirmed k = some t') :
    used = false ∧ t' ≠ t := by
  simp only [deleteUnused, Option.bind_eq_bind, Option.bind_eq_some_iff, guard_eq_some,
    Option.pure_def, Option.some.injEq] at h
  obtain ⟨-, hused, -, -, row, hrow, rfl⟩ := h
  exact ⟨hused, Table.delete_ne (Table.get?_eq_some.mp hrow).1 (beq_self_eq_true _)⟩

theorem deleteUnused_eq_none :
    deleteUnused t used confirmed k = none ↔
      (confirmed = true → (∃ r ∈ t.rows, key r = k) → used = true) := by
  cases hused : used with
  | true => simp [deleteUnused, guard]
  | false =>
    cases hconfirmed : confirmed with
    | false => simp [deleteUnused, guard]
    | true =>
      cases hrow : t.get? k with
      | none =>
        have hno := Table.first?_eq_none hrow
        simp only [beq_eq_false_iff_ne] at hno
        simpa [deleteUnused, guard, hrow] using hno
      | some row =>
        obtain ⟨hm, rfl⟩ := Table.get?_eq_some.mp hrow
        refine iff_of_false ?_ ?_
        · simp [deleteUnused, guard, hrow]
        · exact fun h => Bool.noConfusion (h rfl ⟨row, hm, rfl⟩)

end Unused

def deleteCategory (db : TicketDb) (confirmed : Bool) (categoryid : Nat) : Option TicketDb := do
  let categories ← deleteUnused db.categories
    (db.tickets.rows.any (fun t => t.categoryId == some categoryid)) confirmed categoryid
  pure { db with categories := categories }

def deleteDepartment (db : TicketDb) (confirmed : Bool) (departmentid : Nat) : Option TicketDb := do
  let departments ← deleteUnused db.departments
    (db.categories.rows.any (fun c => c.departmentId == some departmentid)) confirmed departmentid
  pure { db with departments := departments }

inductive DeleteRequest
  | ticket (posted : Bool) (ticketid : Nat)
  | post (posted : Bool) (postid : Nat)
  | category (confirmed : Bool) (categoryid : Nat)
  | department (confirmed : Bool) (departmentid : Nat)

def DeleteRequest.handle (db : TicketDb) (user : User) : DeleteRequest → Option TicketDb
  | ticket posted ticketid => deleteTicket db user posted ticketid
  | post posted postid => deletePost db posted postid
  | category confirmed categoryid => deleteCategory db confirmed categoryid
  | department confirmed departmentid => deleteDepartment db confirmed departmentid

/-- The database after a request to delete something. -/
def DeleteRequest.after (db : TicketDb) (user : User) (r : DeleteRequest) : TicketDb :=
  serve (fun db (r : DeleteRequest) => r.handle db user) db r

/-- The category or the department is used. -/
def DeleteRequest.InUse (db : TicketDb) : DeleteRequest → Prop
  | ticket _ _ => False
  | post _ _ => False
  | category _ categoryid => ∃ t ∈ db.tickets.rows, t.categoryId = some categoryid
  | department _ departmentid => ∃ c ∈ db.categories.rows, c.departmentId = some departmentid

/-- Without the role of an admin nothing changes, and what is used is not deleted. -/
def DeleteRequest.AdminOnly (db : TicketDb) (user : User) (r : DeleteRequest) : Prop :=
  (user.hasRole "admin" = false → r.after db user = db) ∧
  (user.hasRole "admin" = true → r.InUse db → r.after db user = db)

/-- A request that comes to nothing whoever makes it, or is one for a ticket: the form
is not sent, the row is not there, or something holds it. -/
def DeleteRequest.Harmless (db : TicketDb) : DeleteRequest → Prop
  | ticket _ _ => True
  | post posted postid =>
    posted = true → (∃ p ∈ db.posts.rows, p.id = postid) →
      (∃ u ∈ db.uploads.rows, u.postsId = some postid) ∨
        ∃ h ∈ db.histories.rows, h.postId = some postid
  | category confirmed categoryid =>
    confirmed = true → (∃ c ∈ db.categories.rows, c.id = categoryid) →
      ∃ t ∈ db.tickets.rows, t.categoryId = some categoryid
  | department confirmed departmentid =>
    confirmed = true → (∃ d ∈ db.departments.rows, d.id = departmentid) →
      ∃ c ∈ db.categories.rows, c.departmentId = some departmentid

section Laws

variable {db db' : TicketDb} {user : User} {r : DeleteRequest}

theorem TicketDb.deletablePost_eq_none {posted : Bool} {postid : Nat} :
    db.deletablePost posted postid = none ↔ (DeleteRequest.post posted postid).Harmless db := by
  constructor
  · rintro hnone hposted ⟨p, hp, rfl⟩
    by_contra hheld
    rw [not_or] at hheld
    have huploads : ∀ u ∈ db.uploads.rows, u.postsId ≠ some p.id :=
      fun u hu he => hheld.1 ⟨u, hu, he⟩
    have hhistories : ∀ h ∈ db.histories.rows, h.postId ≠ some p.id :=
      fun h hh he => hheld.2 ⟨h, hh, he⟩
    have hget : db.posts.get? p.id = some p := Table.get?_eq_some.mpr ⟨hp, rfl⟩
    have hsome : db.deletablePost posted p.id = some p := by
      simp only [deletablePost, Option.bind_eq_bind, Option.bind_eq_some_iff, guard_eq_some,
        Option.pure_def, Option.some.injEq]
      exact ⟨(), hposted, (), huploads, p, hget, (), hhistories, rfl⟩
    exact absurd (hsome.symm.trans hnone) (Option.some_ne_none _)
  · intro hharmless
    cases hdelete : db.deletablePost posted postid with
    | none => rfl
    | some post =>
      simp only [deletablePost, Option.bind_eq_bind, Option.bind_eq_some_iff, guard_eq_some,
        Option.pure_def, Option.some.injEq] at hdelete
      obtain ⟨-, hposted, -, huploads, post', hpost, -, hhistories, rfl⟩ := hdelete
      obtain ⟨hrow, rfl⟩ := Table.get?_eq_some.mp hpost
      rcases hharmless hposted ⟨post', hrow, rfl⟩ with ⟨u, hu, he⟩ | ⟨h, hh, he⟩
      · exact absurd he (huploads u hu)
      · exact absurd he (hhistories h hh)

/-- A deletion that is committed takes a row away, which is not used. -/
theorem DeleteRequest.handle_eq_some (h : r.handle db user = some db') :
    db' ≠ db ∧ ¬ r.InUse db := by
  cases r with
  | ticket posted ticketid =>
    simp only [handle, deleteTicket, Option.bind_eq_bind, Option.bind_eq_some_iff,
      Option.pure_def, Option.some.injEq] at h
    obtain ⟨-, -, -, -, -, -, ticket, hticket, -, -, rfl⟩ := h
    have hne := Table.delete_ne (p := fun t => t.id == ticket.id) (Table.get?_eq_some.mp hticket).1
      (beq_self_eq_true _)
    exact ⟨fun he => hne (congrArg TicketDb.tickets he), id⟩
  | post posted postid =>
    obtain ⟨post, hpost, hdb⟩ := Option.bind_eq_some_iff.mp h
    obtain rfl := Option.some.inj hdb
    have hne := Table.delete_ne (p := fun p => p.id == post.id) (TicketDb.mem_of_deletablePost hpost)
      (beq_self_eq_true _)
    exact ⟨fun he => hne (congrArg TicketDb.posts he), id⟩
  | category confirmed categoryid =>
    obtain ⟨categories, hdelete, hdb⟩ := Option.bind_eq_some_iff.mp h
    obtain rfl := Option.some.inj hdb
    obtain ⟨hused, hne⟩ := deleteUnused_eq_some hdelete
    refine ⟨fun he => hne (congrArg TicketDb.categories he), ?_⟩
    rintro ⟨t, ht, hcategory⟩
    simpa [hcategory] using List.any_eq_false.mp hused t ht
  | department confirmed departmentid =>
    obtain ⟨departments, hdelete, hdb⟩ := Option.bind_eq_some_iff.mp h
    obtain rfl := Option.some.inj hdb
    obtain ⟨hused, hne⟩ := deleteUnused_eq_some hdelete
    refine ⟨fun he => hne (congrArg TicketDb.departments he), ?_⟩
    rintro ⟨c, hc, hdepartment⟩
    simpa [hdepartment] using List.any_eq_false.mp hused c hc

theorem DeleteRequest.after_eq_iff : r.after db user = db ↔ r.handle db user = none := by
  constructor
  · intro hsame
    cases hr : r.handle db user with
    | none => rfl
    | some db' =>
      have hafter : r.after db user = db' := serve_some hr
      exact absurd (hafter.symm.trans hsame) (handle_eq_some hr).1
  · intro hnone
    exact serve_none hnone

theorem DeleteRequest.handle_eq_none (huser : user.hasRole "admin" = false) :
    r.handle db user = none ↔ r.Harmless db := by
  cases r with
  | ticket posted ticketid =>
    refine iff_of_true ?_ trivial
    simp [handle, deleteTicket, huser, guard]
  | post posted postid =>
    rw [← TicketDb.deletablePost_eq_none]
    exact bind_pure_eq_none
  | category confirmed categoryid =>
    refine Iff.trans bind_pure_eq_none (Iff.trans deleteUnused_eq_none ?_)
    simp [Harmless]
  | department confirmed departmentid =>
    refine Iff.trans bind_pure_eq_none (Iff.trans deleteUnused_eq_none ?_)
    simp [Harmless]

end Laws

/-- Deletion is only for admins except where a user without that role asks to delete
a post, a category or a department and nothing else stops the request. -/
theorem deleteRequest_adminOnly_iff (db : TicketDb) (user : User) (r : DeleteRequest) :
    r.AdminOnly db user ↔ (user.hasRole "admin" = false → r.Harmless db) := by
  have hused : r.InUse db → r.after db user = db := by
    intro hused
    refine DeleteRequest.after_eq_iff.mpr ?_
    cases hr : r.handle db user with
    | none => rfl
    | some db' => exact absurd hused (DeleteRequest.handle_eq_some hr).2
  constructor
  · intro h huser
    exact (DeleteRequest.handle_eq_none huser).mp (DeleteRequest.after_eq_iff.mp (h.1 huser))
  · intro h
    refine ⟨?_, fun _ => hused⟩
    intro huser
    exact DeleteRequest.after_eq_iff.mpr ((DeleteRequest.handle_eq_none huser).mpr (h huser))

/-- The fitter, who is no admin, deletes the operator's reply. -/
theorem deletePost_by_fitter :
    ¬ (DeleteRequest.post true 1).AdminOnly (runTickets helpDesk [leakVisit, leakReply])
      ⟨2, "fitter", []⟩ := by
  intro h
  have hsame := congrArg (fun db : TicketDb => db.posts.rows.length) (h.1 (by decide))
  revert hsame
  decide +kernel

/-- The columns of a row name the ticket or a post of the ticket. -/
def TicketDb.belongs (db : TicketDb) (ticketid : Nat) (topic post : Option Nat) : Bool :=
  topic == some ticketid ||
    db.posts.rows.any (fun p => p.ticketId == some ticketid && post == some p.id)

/-- The ticket is gone with everything that belongs to it, and nothing else is. -/
structure TicketDb.Purged (db db' : TicketDb) (ticketid : Nat) : Prop where
  tickets : db'.tickets = db.tickets.delete (fun t => t.id == ticketid)
  posts : db'.posts = db.posts.delete (fun p => p.ticketId == some ticketid)
  uploads : db'.uploads = db.uploads.delete (fun u => db.belongs ticketid u.topicId u.postsId)
  subscriptions : db'.subscriptions = db.subscriptions.delete (fun s => s.ticketId == some ticketid)
  actions : db'.actions = db.actions.delete (fun a => db.belongs ticketid a.ticketId a.postId)
  histories : db'.histories = db.histories.delete (fun h => db.belongs ticketid h.topicId h.postId)

structure TicketDb.Bare (db : TicketDb) (ticketid : Nat) : Prop where
  posts : ∀ p ∈ db.posts.rows, p.ticketId ≠ some ticketid
  uploads : ∀ u ∈ db.uploads.rows, u.topicId ≠ some ticketid
  subscriptions : ∀ s ∈ db.subscriptions.rows, s.ticketId ≠ some ticketid
  actions : ∀ a ∈ db.actions.rows, a.ticketId ≠ some ticketid
  histories : ∀ h ∈ db.histories.rows, h.topicId ≠ some ticketid

section Purge

variable {db db' : TicketDb} {user : User} {ticket : FlicketTicket}

theorem FlicketPost.forgetTicket_id (p : FlicketPost) : p.forgetTicket.id = p.id := rfl

theorem FlicketSubscription.forgetTicket_id (s : FlicketSubscription) : s.forgetTicket.id = s.id :=
  rfl

theorem FlicketAction.forgetTicket_id (a : FlicketAction) : a.forgetTicket.id = a.id := rfl

theorem deleteTicket_eq_some (hadmin : user.hasRole "admin" = true)
    (hticket : ticket ∈ db.tickets.rows) :
    deleteTicket db user true ticket.id = some db' ↔
      (∀ u ∈ db.uploads.rows, u.topicId ≠ some ticket.id) ∧
      (∀ h ∈ db.histories.rows, h.topicId ≠ some ticket.id) ∧
      { db with
        tickets := db.tickets.delete (fun t => t.id == ticket.id)
        posts := db.posts.update (fun p => p.ticketId == some ticket.id) FlicketPost.forgetTicket
          (fun _ => rfl)
        subscriptions := db.subscriptions.update (fun s => s.ticketId == some ticket.id)
          FlicketSubscription.forgetTicket (fun _ => rfl)
        actions := db.actions.update (fun a => a.ticketId == some ticket.id)
          FlicketAction.forgetTicket (fun _ => rfl) } = db' := by
  have hget : db.tickets.get? ticket.id = some ticket := Table.get?_eq_some.mpr ⟨hticket, rfl⟩
  simp only [deleteTicket, Option.bind_eq_bind, Option.bind_eq_some_iff, guard_eq_some, hadmin,
    hget, Option.pure_def, Option.some.injEq, exists_const, exists_eq_left', true_and]

theorem TicketDb.belongs_of_topic {ticketid : Nat} {topic post : Option Nat}
    (h : (topic == some ticketid) = true) : db.belongs ticketid topic post = true := by
  rw [belongs, h, Bool.true_or]

theorem TicketDb.Bare.not_belongs {ticketid : Nat} (h : db.Bare ticketid) {topic post : Option Nat}
    (htopic : topic ≠ some ticketid) : db.belongs ticketid topic post = false := by
  have hposts : db.posts.rows.any
      (fun p => p.ticketId == some ticketid && post == some p.id) = false := by
    rw [List.any_eq_false]
    intro p hp
    simp [h.posts p hp]
  rw [belongs, hposts, Bool.or_false, beq_eq_false_iff_ne]
  exact htopic

/-- An admin deletes a ticket with all that belongs to it exactly if nothing does: posts,
subscriptions and actions stay behind, and uploads and the history stop the deletion. -/
theorem deleteTicket_purges_iff (hadmin : user.hasRole "admin" = true)
    (hticket : ticket ∈ db.tickets.rows) :
    (∃ db', deleteTicket db user true ticket.id = some db' ∧ db.Purged db' ticket.id) ↔
      db.Bare ticket.id := by
  constructor
  · rintro ⟨db', hdelete, hpurged⟩
    obtain ⟨huploads, hhistories, rfl⟩ := (deleteTicket_eq_some hadmin hticket).mp hdelete
    have hposts := (Table.update_eq_delete_iff FlicketPost.forgetTicket_id (fun _ => id)).mp
      hpurged.posts
    have hsubscriptions := (Table.update_eq_delete_iff FlicketSubscription.forgetTicket_id
      (fun _ => id)).mp hpurged.subscriptions
    have hactions := (Table.update_eq_delete_iff FlicketAction.forgetTicket_id
      (fun _ => TicketDb.belongs_of_topic)).mp hpurged.actions
    refine ⟨?_, huploads, ?_, ?_, hhistories⟩
    · exact fun p hp => beq_eq_false_iff_ne.mp (hposts p hp)
    · exact fun s hs => beq_eq_false_iff_ne.mp (hsubscriptions s hs)
    · intro a ha he
      have hbelongs : db.belongs ticket.id a.ticketId a.postId = true :=
        TicketDb.belongs_of_topic (beq_iff_eq.mpr he)
      exact Bool.false_ne_true ((hactions a ha).symm.trans hbelongs)
  · intro hbare
    refine ⟨_, (deleteTicket_eq_some hadmin hticket).mpr
      ⟨hbare.uploads, hbare.histories, rfl⟩, ?_⟩
    refine ⟨rfl, ?_, ?_, ?_, ?_, ?_⟩
    · refine (Table.update_eq_delete_iff FlicketPost.forgetTicket_id (fun _ => id)).mpr ?_
      exact fun p hp => beq_eq_false_iff_ne.mpr (hbare.posts p hp)
    · refine (Table.delete_eq_self_iff.mpr ?_).symm
      exact fun u hu => hbare.not_belongs (hbare.uploads u hu)
    · refine (Table.update_eq_delete_iff FlicketSubscription.forgetTicket_id (fun _ => id)).mpr ?_
      exact fun s hs => beq_eq_false_iff_ne.mpr (hbare.subscriptions s hs)
    · refine (Table.update_eq_delete_iff FlicketAction.forgetTicket_id
        (fun _ => TicketDb.belongs_of_topic)).mpr ?_
      exact fun a ha => hbare.not_belongs (hbare.actions a ha)
    · refine (Table.delete_eq_self_iff.mpr ?_).symm
      exact fun h hh => hbare.not_belongs (hbare.histories h hh)

end Purge

/-- The operator has unsubscribed before the manager deletes the ticket. -/
theorem deleteTicket_purges_iff_unsubscribed :
    ∃ t ∈ (runTickets helpDesk [leakVisit, ⟨1, 12, .unsubscribe 1⟩]).tickets.rows, t.id = 1 ∧
      ∃ db', deleteTicket (runTickets helpDesk [leakVisit, ⟨1, 12, .unsubscribe 1⟩])
          ⟨3, "manager", ["admin"]⟩ true t.id = some db' ∧
        (runTickets helpDesk [leakVisit, ⟨1, 12, .unsubscribe 1⟩]).Purged db' t.id := by
  have hticket : ∃ t ∈ (runTickets helpDesk [leakVisit, ⟨1, 12, .unsubscribe 1⟩]).tickets.rows,
      t.id = 1 := by decide +kernel
  obtain ⟨t, ht, hid⟩ := hticket
  refine ⟨t, ht, hid, (deleteTicket_purges_iff (by decide) ht).mpr ?_⟩
  rw [hid]
  exact ⟨by decide +kernel, by decide +kernel, by decide +kernel, by decide +kernel,
    by decide +kernel⟩

/-- The operator is still subscribed to the ticket when the manager deletes it. -/
theorem deleteTicket_leaves_subscription :
    ∃ db', deleteTicket (runTickets helpDesk [leakVisit]) ⟨3, "manager", ["admin"]⟩ true 1 =
        some db' ∧
      db'.subscriptions.rows = [⟨1, none, some 1⟩] ∧
      ¬ (runTickets helpDesk [leakVisit]).Purged db' 1 := by
  have hleft : (deleteTicket (runTickets helpDesk [leakVisit]) ⟨3, "manager", ["admin"]⟩ true 1).map
      (fun db => db.subscriptions.rows) = some [⟨1, none, some 1⟩] := by decide +kernel
  obtain ⟨db', hdelete, hrows⟩ := Option.map_eq_some_iff.mp hleft
  refine ⟨db', hdelete, hrows, ?_⟩
  intro hpurged
  have hnone : ((runTickets helpDesk [leakVisit]).subscriptions.delete
      (fun s => s.ticketId == some 1)).rows = [] := by decide +kernel
  rw [← hpurged.subscriptions, hrows] at hnone
  exact List.cons_ne_nil _ _ hnone

end Medusa
