import Medusa.Board
import Medusa.Ticket.Deletion
import Medusa.Ticket.Subscriptions

/-! The mail about tickets. A message goes to the subscribers that a ticket has when the
message is composed, and raises if one of them is nobody. Replies, claims and releases
compose it after their commit; a closed or reopened ticket is announced before. The mail
for a ticket that is assigned to somebody else is commented out. -/

namespace Medusa

open Relational

structure TicketMail where
  subject : String
  recipients : List String
deriving DecidableEq

def FlicketTicket.idZfill (ticket : FlicketTicket) : String :=
  String.ofList (List.leftpad 5 '0' (toString ticket.id).toList)

namespace FlicketMail

/-- The title that all messages share up to their last words. -/
def title (ticket : FlicketTicket) (news : String) : String :=
  "Ticket #" ++ ticket.idZfill ++ " - " ++ ticket.ticketName ++ news

def compose (news : String) (db : TicketDb) (ticket : FlicketTicket) : Option TicketMail := do
  let recipients ← db.getSubscriberEmails ticket.id
  pure ⟨title ticket news, recipients⟩

def replies : String := " has new replies."

def assigned : String := " has been assigned."

def released : String := " has been released."

def closed : String := " has been closed."

def reopened : String := " has been reopened."

def replyTicket : TicketDb → FlicketTicket → Option TicketMail := compose replies

def assignTicket : TicketDb → FlicketTicket → Option TicketMail := compose assigned

def releaseTicket : TicketDb → FlicketTicket → Option TicketMail := compose released

def closeTicket : TicketDb → FlicketTicket → Option TicketMail := compose closed

def reopenTicket : TicketDb → FlicketTicket → Option TicketMail := compose reopened

end FlicketMail

/-- The message of a request. `none` is a request that is refused, sends none, or raises
while it composes one. -/
def TicketRequest.mail (db : TicketDb) (user : User) (now : Nat) : TicketRequest → Option TicketMail
  | reply ticketid parts form => do
    let saved ← ticketReply db user ticketid parts form now
    let ticket ← saved.tickets.get? ticketid
    FlicketMail.replyTicket saved ticket
  | claim ticketid => do
    let saved ← ticketClaim db user ticketid now
    let ticket ← saved.tickets.get? ticketid
    FlicketMail.assignTicket saved ticket
  | release ticketid => do
    let saved ← ticketRelease db user ticketid now
    let ticket ← saved.tickets.get? ticketid
    FlicketMail.releaseTicket saved ticket
  | closeStatus ticketid parts _ => do
    let ticket ← db.closable user ticketid parts
    FlicketMail.closeTicket db ticket
  | openStatus ticketid => do
    let ticket ← db.openable user ticketid
    FlicketMail.reopenTicket db ticket
  | _ => none

/-- What comes to the pages of the tickets. -/
inductive DeskVisit
  | ticket (v : TicketVisit)
  | delete (user : Nat) (posted : Bool) (ticketid : Nat)

namespace DeskVisit

def commit (db : TicketDb) : DeskVisit → Option TicketDb
  | ticket v => v.commit db
  | delete user posted ticketid => do
    let user ← db.users.get? user
    deleteTicket db user posted ticketid

def mails (db : TicketDb) : DeskVisit → List TicketMail
  | ticket v => (do
    let user ← db.users.get? v.user
    v.request.mail db user v.now).toList
  | delete _ _ _ => []

end DeskVisit

abbrev DeskEvent := BoardEvent Nat (Option Nat) String

/-- Who follows a ticket. -/
def TicketDb.followers (db : TicketDb) (ticket : Nat) : Set (Option Nat) :=
  {user | ∃ s ∈ db.subscriptionsOf ticket, s.userId = user}

def TicketDb.announce (db : TicketDb) (ticketid : Nat) (news : String) : List DeskEvent :=
  match db.tickets.get? ticketid with
  | some ticket => [.post ticketid (FlicketMail.title ticket news)]
  | none => []

/-- What a request means for those who follow the tickets, if it commits. -/
def TicketRequest.events (db : TicketDb) (user : Nat) : TicketRequest → List DeskEvent
  | create _ => [.join db.tickets.nextKey (some user)]
  | reply ticketid _ _ => .join ticketid (some user) :: db.announce ticketid FlicketMail.replies
  | assign ticketid assignee => match db.assignable ticketid assignee with
    | some (_, recipient) => [.join ticketid recipient]
    | none => []
  | claim ticketid => db.announce ticketid FlicketMail.assigned
  | release ticketid => db.announce ticketid FlicketMail.released
  | subscribe ticketid => [.join ticketid (some user)]
  | unsubscribe ticketid => [.leave ticketid (some user)]
  | closeStatus ticketid _ _ => db.announce ticketid FlicketMail.closed
  | openStatus ticketid => db.announce ticketid FlicketMail.reopened
  | editTicket _ _ => []
  | editPost _ _ => []
  | deletePost _ _ => []

def DeskVisit.attempted (db : TicketDb) : DeskVisit → List DeskEvent
  | ticket v => v.request.events db v.user
  | delete _ _ ticketid => [.close ticketid]

def DeskVisit.events (db : TicketDb) (v : DeskVisit) : List DeskEvent :=
  if (v.commit db).isSome then v.attempted db else []

/-- The message reaches every reader of the announcement, once, and nobody else. -/
structure TicketMail.Carries (users : UserTable) (mail : TicketMail)
    (announcement : Announcement (Option Nat) String) : Prop where
  subject : mail.subject = announcement.message
  nodup : mail.recipients.Nodup
  recipients : ∀ email, email ∈ mail.recipients ↔
    ∃ u ∈ users.rows, u.email = email ∧ some u.id ∈ announcement.readers

/-- Without a nobody among the readers. -/
noncomputable def deliverable (announcement : Announcement (Option Nat) String) : Bool :=
  open Classical in decide (none ∉ announcement.readers)

section Followers

variable {db : TicketDb} {ticket : Nat} {who : Option Nat}

theorem TicketDb.mem_followers :
    who ∈ db.followers ticket ↔
      ∃ s ∈ db.subscriptions.rows, s.ticketId = some ticket ∧ s.userId = who := by
  simp only [followers, Set.mem_ofPred_eq, mem_subscriptionsOf, and_assoc]

theorem TicketDb.followers_congr {db' : TicketDb} (h : db'.subscriptions = db.subscriptions) :
    db'.followers = db.followers := by
  funext ticket
  unfold followers subscriptionsOf
  rw [h]

theorem TicketDb.followers_subscribe :
    (db.subscribe ticket who).followers =
      (BoardEvent.join (μ := String) ticket who).next db.followers := by
  funext k
  ext u
  rw [mem_followers, BoardEvent.next]
  by_cases hk : k = ticket
  · subst hk
    simp only [Function.update_self, Set.mem_insert_iff, mem_followers, mem_subscribe]
    constructor
    · rintro ⟨s, hs | rfl, hticket, huser⟩
      · exact Or.inr ⟨s, hs, hticket, huser⟩
      · exact Or.inl huser.symm
    · rintro (rfl | ⟨s, hs, hticket, huser⟩)
      · exact ⟨_, Or.inr rfl, rfl, rfl⟩
      · exact ⟨s, Or.inl hs, hticket, huser⟩
  · rw [Function.update_of_ne hk, mem_followers]
    constructor
    · rintro ⟨s, hs, hticket, huser⟩
      rcases mem_subscribe.mp hs with hs | rfl
      · exact ⟨s, hs, hticket, huser⟩
      · exact absurd (Option.some.inj hticket).symm hk
    · rintro ⟨s, hs, hticket, huser⟩
      exact ⟨s, mem_subscribe.mpr (Or.inl hs), hticket, huser⟩

theorem TicketDb.isSubscribed_eq : db.isSubscribed ticket who = true ↔ who ∈ db.followers ticket :=
  isSubscribed_iff

theorem TicketDb.followers_ensureSubscribed :
    (db.ensureSubscribed ticket who).followers =
      (BoardEvent.join (μ := String) ticket who).next db.followers := by
  unfold ensureSubscribed
  by_cases hs : db.isSubscribed ticket who = true
  · rw [if_pos hs, BoardEvent.next, Set.insert_eq_of_mem (isSubscribed_eq.mp hs),
      Function.update_eq_self]
  · rw [if_neg hs, followers_subscribe]

theorem TicketDb.followers_unsubscribe {user : Nat} {subscription : FlicketSubscription}
    (honce : db.SubscribedOnce) (h : db.subscription ticket user = some subscription) :
    { db with subscriptions := db.subscriptions.delete (fun s => s.id == subscription.id) }.followers =
      (BoardEvent.leave (μ := String) ticket (some user)).next db.followers := by
  obtain ⟨⟨hrow, hmatch⟩, -⟩ := Table.one?_eq_some.mp h
  simp only [Bool.and_eq_true, beq_iff_eq] at hmatch
  have hsame : ∀ s ∈ db.subscriptions.rows, s.id ≠ subscription.id ↔ s ≠ subscription := by
    intro s hs
    refine not_congr ⟨fun he => ?_, fun he => by rw [he]⟩
    exact List.inj_on_of_nodup_map db.subscriptions.nodup hs hrow he
  funext k
  ext u
  simp only [mem_followers, BoardEvent.next, Table.mem_delete]
  by_cases hk : k = ticket
  · subst hk
    rw [Function.update_self, Set.mem_sdiff, mem_followers, Set.mem_singleton_iff]
    constructor
    · rintro ⟨s, ⟨hs, hid⟩, hticket, huser⟩
      refine ⟨⟨s, hs, hticket, huser⟩, ?_⟩
      rintro rfl
      refine (hsame s hs).mp (by simpa using hid) ?_
      exact honce.eq (mem_subscriptionsOf.mpr ⟨hs, hticket⟩)
        (mem_subscriptionsOf.mpr ⟨hrow, hmatch.2⟩) (huser.trans hmatch.1.symm)
    · rintro ⟨⟨s, hs, hticket, huser⟩, hne⟩
      refine ⟨s, ⟨hs, ?_⟩, hticket, huser⟩
      have : s ≠ subscription := by
        rintro rfl
        exact hne (huser.symm.trans hmatch.1)
      simpa using (hsame s hs).mpr this
  · rw [Function.update_of_ne hk, mem_followers]
    constructor
    · rintro ⟨s, ⟨hs, -⟩, hticket, huser⟩
      exact ⟨s, hs, hticket, huser⟩
    · rintro ⟨s, hs, hticket, huser⟩
      refine ⟨s, ⟨hs, ?_⟩, hticket, huser⟩
      have : s ≠ subscription := by
        rintro rfl
        exact hk (Option.some.inj (hticket.symm.trans hmatch.2))
      simpa using (hsame s hs).mpr this

end Followers

section Deletion

variable {db db' : TicketDb} {user : User} {posted : Bool} {ticketid : Nat}

/-- The database after the deletion of a ticket, as far as its mail goes. -/
structure TicketDb.Dropped (db db' : TicketDb) (ticketid : Nat) : Prop where
  users : db'.users = db.users
  tickets : db'.tickets = db.tickets.delete (fun t => t.id == ticketid)
  subscriptions : db'.subscriptions = db.subscriptions.update
    (fun s => s.ticketId == some ticketid) FlicketSubscription.forgetTicket
    FlicketSubscription.forgetTicket_id

theorem dropped_of_deleteTicket (h : deleteTicket db user posted ticketid = some db') :
    db.Dropped db' ticketid := by
  simp only [deleteTicket, Option.bind_eq_bind, Option.bind_eq_some_iff, guard_eq_some,
    Option.pure_def, Option.some.injEq] at h
  obtain ⟨-, -, -, -, -, -, ticket, hticket, -, -, rfl⟩ := h
  obtain ⟨-, rfl⟩ := Table.get?_eq_some.mp hticket
  exact ⟨rfl, rfl, rfl⟩

theorem TicketDb.Dropped.mem (h : db.Dropped db' ticketid) {s : FlicketSubscription} {k : Nat} :
    s ∈ db'.subscriptionsOf k ↔ s ∈ db.subscriptionsOf k ∧ k ≠ ticketid := by
  rw [mem_subscriptionsOf, mem_subscriptionsOf, h.subscriptions, Table.mem_update]
  constructor
  · rintro ⟨⟨s₀, hs₀, rfl⟩, hticket⟩
    by_cases hk : s₀.ticketId = some ticketid
    · simp [hk, FlicketSubscription.forgetTicket] at hticket
    · simp only [beq_iff_eq, hk, if_false] at hticket ⊢
      refine ⟨⟨hs₀, hticket⟩, ?_⟩
      rintro rfl
      exact hk hticket
  · rintro ⟨⟨hs, hticket⟩, hne⟩
    refine ⟨⟨s, hs, ?_⟩, hticket⟩
    have hk : ¬ s.ticketId = some ticketid := by
      rw [hticket, Option.some.injEq]
      exact hne
    simp [hk]

theorem TicketDb.Dropped.followers (h : db.Dropped db' ticketid) :
    db'.followers = (BoardEvent.close (μ := String) ticketid).next db.followers := by
  funext k
  ext u
  simp only [TicketDb.followers, BoardEvent.next, Set.mem_ofPred_eq, h.mem]
  by_cases hk : k = ticketid
  · subst hk
    simp
  · rw [Function.update_of_ne hk]
    simp only [ne_eq, hk, not_false_eq_true, and_true]
    rfl

theorem TicketDb.Dropped.subscriptionKeys (h : db.Dropped db' ticketid)
    (hkeys : db.SubscriptionKeys) : db'.SubscriptionKeys := by
  constructor
  · rw [h.subscriptions, h.tickets]
    exact hkeys.ticket.forget ticketid FlicketSubscription.forgetTicket_id (fun _ => rfl)
  · rw [h.subscriptions, h.users]
    exact hkeys.user.update FlicketSubscription.forgetTicket_id (fun _ => rfl)

theorem TicketDb.Dropped.subscribedOnce (h : db.Dropped db' ticketid)
    (honce : db.SubscribedOnce) : db'.SubscribedOnce := by
  intro k
  refine List.Nodup.map_on ?_ (db'.subscriptions.rows_nodup.filter _)
  intro s hs s' hs' he
  exact honce.eq (h.mem.mp hs).1 (h.mem.mp hs').1 he

end Deletion

section Composed

variable {db : TicketDb}

/-- The addresses of a ticket depend on its own subscriptions only. -/
def TicketDb.justTicket (db : TicketDb) (ticket : Nat) : TicketDb :=
  { db with subscriptions := db.subscriptions.delete (fun s => s.ticketId != some ticket) }

theorem TicketDb.subscriptionsOf_justTicket (ticket : Nat) :
    (db.justTicket ticket).subscriptionsOf ticket = db.subscriptionsOf ticket := by
  simp only [justTicket, subscriptionsOf, Table.rows_delete, List.filter_filter]
  refine List.filter_congr ?_
  intro s _
  by_cases hs : s.ticketId = some ticket <;> simp [hs]

theorem TicketDb.getSubscriberEmails_justTicket (ticket : Nat) :
    (db.justTicket ticket).getSubscriberEmails ticket = db.getSubscriberEmails ticket := by
  simp only [getSubscriberEmails, subscribers, subscriptionsOf_justTicket]
  rfl

theorem TicketDb.getSubscriberEmails_of_deliverable {ticket : Nat} (hkeys : db.SubscriptionKeys)
    (honce : db.SubscribedOnce) (h : none ∉ db.followers ticket) :
    ∃ emails, db.getSubscriberEmails ticket = some emails ∧ emails.Nodup ∧
      ∀ email, email ∈ emails ↔ ∃ s ∈ db.subscriptionsOf ticket, db.emailOf s = some email := by
  have hkeys' : (db.justTicket ticket).SubscriptionKeys :=
    ⟨hkeys.ticket.delete _, hkeys.user.delete _⟩
  have honce' : (db.justTicket ticket).SubscribedOnce := by
    intro k
    exact (honce k).sublist (List.Sublist.map _ (List.filter_sublist.filter _))
  have haddressed : (db.justTicket ticket).Addressed := by
    intro s hs _
    obtain ⟨hrow, hticket⟩ := Table.mem_delete.mp hs
    simp only [bne_eq_false_iff_eq] at hticket
    rw [Option.isSome_iff_ne_none]
    intro hnone
    exact h (mem_followers.mpr ⟨s, hrow, hticket, hnone⟩)
  have hlisted := (emailsListed_iff hkeys' honce').mpr haddressed ticket
  rwa [getSubscriberEmails_justTicket, subscriptionsOf_justTicket] at hlisted

theorem TicketDb.getSubscriberEmails_of_nobody {ticket : Nat} (h : none ∈ db.followers ticket) :
    db.getSubscriberEmails ticket = none := by
  obtain ⟨s, hs, huser⟩ := h
  cases hemails : db.getSubscriberEmails ticket with
  | none => rfl
  | some emails =>
    have hm : s ∈ db.subscribers ticket := (db.perm_subscribers ticket).mem_iff.mpr hs
    have hmem : db.emailOf s ∈ emails.map some := by
      rw [← mapM_eq_some.mp hemails]
      exact List.mem_map_of_mem hm
    simp [emailOf, huser] at hmem

theorem TicketDb.exists_email_iff {ticket : Nat} {email : String} :
    (∃ s ∈ db.subscriptionsOf ticket, db.emailOf s = some email) ↔
      ∃ u ∈ db.users.rows, u.email = email ∧ some u.id ∈ db.followers ticket := by
  constructor
  · rintro ⟨s, hs, he⟩
    obtain ⟨u, hu, huser, hemail⟩ := emailOf_eq_some he
    exact ⟨u, hu, hemail, s, hs, huser⟩
  · rintro ⟨u, hu, hemail, s, hs, huser⟩
    have hget : db.users.get? u.id = some u := Table.get?_eq_some.mpr ⟨hu, rfl⟩
    exact ⟨s, hs, by simp [emailOf, huser, hget, hemail]⟩

theorem FlicketMail.compose_carries (hkeys : db.SubscriptionKeys) (honce : db.SubscribedOnce)
    (news : String) (ticket : FlicketTicket) :
    List.Forall₂ (TicketMail.Carries db.users) (compose news db ticket).toList
      ([⟨title ticket news, db.followers ticket.id⟩].filter deliverable) := by
  by_cases hnobody : none ∈ db.followers ticket.id
  · have hraises : compose news db ticket = none := by
      simp [compose, TicketDb.getSubscriberEmails_of_nobody hnobody]
    rw [hraises, List.filter_cons_of_neg (by simpa [deliverable] using hnobody)]
    exact List.Forall₂.nil
  · obtain ⟨emails, hemails, hnodup, hmem⟩ :=
      TicketDb.getSubscriberEmails_of_deliverable hkeys honce hnobody
    have hsends : compose news db ticket = some ⟨title ticket news, emails⟩ := by
      simp [compose, hemails]
    rw [hsends, List.filter_cons_of_pos (by simpa [deliverable] using hnobody)]
    refine List.Forall₂.cons ⟨rfl, hnodup, ?_⟩ List.Forall₂.nil
    intro email
    exact (hmem email).trans TicketDb.exists_email_iff

end Composed

section Requests

variable {db db' : TicketDb} {user : User} {now : Nat} {r : TicketRequest}

theorem TicketDb.announce_eq {ticket : FlicketTicket} {ticketid : Nat}
    (h : db.tickets.get? ticketid = some ticket) (news : String) :
    db.announce ticketid news = [.post ticketid (FlicketMail.title ticket news)] := by
  simp [announce, h]

theorem TicketDb.foldl_announce (ticketid : Nat) (news : String) (readers : Nat → Set (Option Nat)) :
    (db.announce ticketid news).foldl BoardEvent.next readers = readers := by
  unfold announce
  split <;> rfl

/-- What a request does to the subscriptions is what its events say. -/
theorem TicketEffect.followers (h : TicketEffect db user now r db') (honce : db.SubscribedOnce) :
    db'.followers = (r.events db user.id).foldl BoardEvent.next db.followers := by
  cases h with
  | created => exact TicketDb.followers_subscribe
  | replied hticket =>
    obtain ⟨-, rfl⟩ := Table.get?_eq_some.mp hticket
    rw [TicketRequest.events, List.foldl_cons, TicketDb.foldl_announce]
    exact TicketDb.followers_ensureSubscribed
  | notAssigned hnone => simp [TicketRequest.events, hnone]
  | opened hticket hstatus hnone =>
    simp only [TicketRequest.events, hnone, List.foldl_nil]
    rfl
  | assigned hassign =>
    obtain ⟨hticket, -⟩ := assignable_eq_some hassign
    obtain ⟨-, rfl⟩ := Table.get?_eq_some.mp hticket
    simp only [TicketRequest.events, hassign, List.foldl_cons, List.foldl_nil]
    exact TicketDb.followers_ensureSubscribed
  | claimed hticket => exact (TicketDb.foldl_announce _ _ _).symm
  | released hticket => exact (TicketDb.foldl_announce _ _ _).symm
  | subscribed hticket =>
    obtain ⟨-, rfl⟩ := Table.get?_eq_some.mp hticket
    exact TicketDb.followers_ensureSubscribed
  | unsubscribed hticket hone =>
    obtain ⟨-, rfl⟩ := Table.get?_eq_some.mp hticket
    exact TicketDb.followers_unsubscribe honce hone
  | closeNoted hticket => exact (TicketDb.foldl_announce _ _ _).symm
  | closed hticket => exact (TicketDb.foldl_announce _ _ _).symm
  | reopened hticket => exact (TicketDb.foldl_announce _ _ _).symm
  | _ => rfl

theorem TicketRequest.mail_of_refused (h : r.handle db user now = none) :
    r.mail db user now = none := by
  cases r with
  | reply ticketid parts form =>
    have : ticketReply db user ticketid parts form now = none := h
    simp [mail, this]
  | claim ticketid =>
    have : ticketClaim db user ticketid now = none := h
    simp [mail, this]
  | release ticketid =>
    have : ticketRelease db user ticketid now = none := h
    simp [mail, this]
  | closeStatus ticketid parts resolution =>
    have : db.closable user ticketid parts = none := bind_pure_eq_none.mp h
    simp [mail, this]
  | openStatus ticketid =>
    have : db.openable user ticketid = none := bind_pure_eq_none.mp h
    simp [mail, this]
  | _ => rfl

theorem TicketDb.announcements_announce {ticket : FlicketTicket} {ticketid : Nat}
    (h : db.tickets.get? ticketid = some ticket) (news : String)
    (readers : Nat → Set (Option Nat)) :
    announcements readers (db.announce ticketid news) =
      [⟨FlicketMail.title ticket news, readers ticketid⟩] := by
  simp only [announce, h]
  rfl

/-- The ticket of a reply, of a claim or of a release is there before and after, under
one name. -/
theorem TicketEffect.named {ticketid : Nat} (h : TicketEffect db user now r db')
    (hr : (∃ parts form, r = .reply ticketid parts form) ∨ r = .claim ticketid ∨
      r = .release ticketid) :
    ∃ ticket ticket', db.tickets.get? ticketid = some ticket ∧
      db'.tickets.get? ticketid = some ticket' ∧ ticket'.ticketName = ticket.ticketName := by
  have hassign : ∀ who status {t : FlicketTicket}, db.openTicket ticketid = some t →
      ∃ ticket ticket', db.tickets.get? ticketid = some ticket ∧
        (db.tickets.update (fun t' => t'.id == t.id) (FlicketTicket.assign who status)
          (FlicketTicket.assign_id _ _)).get? ticketid = some ticket' ∧
        ticket'.ticketName = ticket.ticketName := by
    intro who status t ht
    obtain ⟨⟨hrow, rfl⟩, -⟩ := TicketDb.openTicket_eq_some.mp ht
    have hget := Table.get?_eq_some.mpr ⟨hrow, rfl⟩
    refine ⟨t, t.assign who status, hget, ?_, rfl⟩
    rw [Table.get?_update, hget, Option.map_some]
  rcases hr with ⟨parts, form, rfl⟩ | rfl | rfl
  · cases h with
    | @replied _ _ _ ticket _ hticket =>
      exact ⟨ticket, ticket, hticket, by rw [TicketDb.ensureSubscribed_tickets, hticket], rfl⟩
  · cases h with
    | claimed hticket => exact hassign _ _ hticket
  · cases h with
    | released hticket => exact hassign _ _ (TicketDb.openTicket_of_releasable hticket)

/-- A message that is composed after the commit goes to the followers of the database that
was saved. -/
theorem FlicketMail.compose_carries_saved {ticketid : Nat} {news : String}
    {ticket ticket' : FlicketTicket} (h : TicketEffect db user now r db')
    (joins : List DeskEvent) (huser : user ∈ db.users.rows)
    (hkeys : db.SubscriptionKeys) (honce : db.SubscribedOnce)
    (hevents : r.events db user.id = joins ++ db.announce ticketid news)
    (hjoins : announcements db.followers joins = [])
    (hticket : db.tickets.get? ticketid = some ticket)
    (hticket' : db'.tickets.get? ticketid = some ticket')
    (hname : ticket'.ticketName = ticket.ticketName) :
    List.Forall₂ (TicketMail.Carries db.users) (compose news db' ticket').toList
      ((announcements db.followers (r.events db user.id)).filter deliverable) := by
  obtain ⟨-, hid⟩ := Table.get?_eq_some.mp hticket
  obtain ⟨-, hid'⟩ := Table.get?_eq_some.mp hticket'
  have htitle : title ticket' news = title ticket news := by
    simp only [title, FlicketTicket.idZfill, hid, hid', hname]
  have hfollowers : db'.followers = joins.foldl BoardEvent.next db.followers := by
    rw [h.followers honce, hevents, List.foldl_append, TicketDb.foldl_announce]
  have hcarries := compose_carries (h.subscriptionKeys huser hkeys) (h.subscribedOnce hkeys honce)
    news ticket'
  rw [h.users, htitle, hid', hfollowers] at hcarries
  rwa [hevents, announcements_append, hjoins, List.nil_append,
    TicketDb.announcements_announce hticket]

theorem TicketRequest.mail_carries (h : r.handle db user now = some db')
    (huser : user ∈ db.users.rows) (hkeys : db.SubscriptionKeys) (honce : db.SubscribedOnce) :
    List.Forall₂ (TicketMail.Carries db.users) (r.mail db user now).toList
      ((announcements db.followers (r.events db user.id)).filter deliverable) := by
  have heffect := handle_effect h
  cases r with
  | reply ticketid parts form =>
    have hcommit : ticketReply db user ticketid parts form now = some db' := h
    obtain ⟨ticket, ticket', hticket, hticket', hname⟩ := heffect.named (.inl ⟨parts, form, rfl⟩)
    simp only [mail, hcommit, hticket', Option.bind_eq_bind, Option.bind_some]
    exact FlicketMail.compose_carries_saved heffect [.join ticketid (some user.id)] huser hkeys
      honce rfl rfl hticket hticket' hname
  | claim ticketid =>
    have hcommit : ticketClaim db user ticketid now = some db' := h
    obtain ⟨ticket, ticket', hticket, hticket', hname⟩ := heffect.named (.inr (.inl rfl))
    simp only [mail, hcommit, hticket', Option.bind_eq_bind, Option.bind_some]
    exact FlicketMail.compose_carries_saved heffect [] huser hkeys honce rfl rfl hticket hticket'
      hname
  | release ticketid =>
    have hcommit : ticketRelease db user ticketid now = some db' := h
    obtain ⟨ticket, ticket', hticket, hticket', hname⟩ := heffect.named (.inr (.inr rfl))
    simp only [mail, hcommit, hticket', Option.bind_eq_bind, Option.bind_some]
    exact FlicketMail.compose_carries_saved heffect [] huser hkeys honce rfl rfl hticket hticket'
      hname
  | closeStatus ticketid parts resolution =>
    obtain ⟨ticket, hclosable, -⟩ := Option.bind_eq_some_iff.mp h
    obtain ⟨⟨hrow, hid⟩, -⟩ :=
      TicketDb.openTicket_eq_some.mp (TicketDb.openTicket_of_closable hclosable)
    simp only [mail, hclosable, Option.bind_eq_bind, Option.bind_some, events]
    rw [TicketDb.announcements_announce (Table.get?_eq_some.mpr ⟨hrow, hid⟩), ← hid]
    exact FlicketMail.compose_carries hkeys honce _ ticket
  | openStatus ticketid =>
    obtain ⟨ticket, hopenable, -⟩ := Option.bind_eq_some_iff.mp h
    have hticket := (TicketDb.authorised_of_openable hopenable).1
    obtain ⟨-, hid⟩ := Table.get?_eq_some.mp hticket
    simp only [mail, hopenable, Option.bind_eq_bind, Option.bind_some, events]
    rw [TicketDb.announcements_announce hticket, ← hid]
    exact FlicketMail.compose_carries hkeys honce _ ticket
  | assign ticketid assignee =>
    simp only [events]
    split <;> exact List.Forall₂.nil
  | _ => exact List.Forall₂.nil

end Requests

section Visits

/-- What the requests keep, and the users that they leave alone. -/
structure TicketDb.Mailing (users : UserTable) (db : TicketDb) : Prop where
  users : db.users = users
  keys : db.SubscriptionKeys
  once : db.SubscribedOnce

variable {users : UserTable} {db db' : TicketDb} {v : DeskVisit}

/-- A visit that commits keeps the tables in order, follows its events and sends what
they announce. -/
structure DeskVisit.Sound (users : UserTable) (db : TicketDb) (v : DeskVisit) (db' : TicketDb) :
    Prop where
  mailing : db'.Mailing users
  followers : db'.followers = (v.events db).foldl BoardEvent.next db.followers
  mails : List.Forall₂ (TicketMail.Carries users) (v.mails db)
    ((announcements db.followers (v.events db)).filter deliverable)

theorem DeskVisit.sound_of_commit (h : db.Mailing users) (hcommit : v.commit db = some db') :
    v.Sound users db db' := by
  have hevents : v.events db = v.attempted db := by
    rw [events, hcommit]
    rfl
  cases v with
  | ticket v =>
    obtain ⟨user, huser, hhandle⟩ := Option.bind_eq_some_iff.mp hcommit
    obtain ⟨hrow, hid⟩ := Table.get?_eq_some.mp huser
    have heffect := handle_effect hhandle
    refine ⟨⟨heffect.users.trans h.users, heffect.subscriptionKeys hrow h.keys,
      heffect.subscribedOnce h.keys h.once⟩, ?_, ?_⟩
    · rw [hevents, attempted, ← hid]
      exact heffect.followers h.once
    · rw [hevents, attempted, ← hid, ← h.users]
      simp only [mails, huser, Option.bind_eq_bind, Option.bind_some]
      exact TicketRequest.mail_carries hhandle hrow h.keys h.once
  | delete user posted ticketid =>
    obtain ⟨user, -, hdelete⟩ := Option.bind_eq_some_iff.mp hcommit
    have hdropped := dropped_of_deleteTicket hdelete
    refine ⟨⟨hdropped.users.trans h.users, hdropped.subscriptionKeys h.keys,
      hdropped.subscribedOnce h.once⟩, ?_, ?_⟩
    · rw [hevents]
      exact hdropped.followers
    · rw [hevents]
      exact List.Forall₂.nil

theorem DeskVisit.sound_serve (h : db.Mailing users) (v : DeskVisit) :
    v.Sound users db (serve DeskVisit.commit db v) := by
  cases hcommit : v.commit db with
  | some db' =>
    rw [serve_some hcommit]
    exact sound_of_commit h hcommit
  | none =>
    have hevents : v.events db = [] := by
      rw [events, hcommit]
      rfl
    have hmails : v.mails db = [] := by
      cases v with
      | delete user posted ticketid => rfl
      | ticket v =>
        cases huser : db.users.get? v.user with
        | none => simp [mails, huser]
        | some user =>
          have hrefused : v.request.handle db user v.now = none := by
            simpa [commit, TicketVisit.commit, huser] using hcommit
          simp [mails, huser, TicketRequest.mail_of_refused hrefused]
    rw [serve_none hcommit]
    exact ⟨h, by rw [hevents]; rfl, by rw [hevents, hmails]; exact List.Forall₂.nil⟩

end Visits

/-- The fitter replies to the operator's ticket. -/
def fitterReply : TicketVisit := ⟨2, 20, .reply 1 (some 6) ⟨true, "on my way", []⟩⟩

end Medusa
