import Medusa.References
import Medusa.Ticket.Effects

/-! The subscribers of a ticket. Nothing in the table keeps a user from subscribing
twice; every handler asks first. A handler that asks about a user who does not
exist subscribes nobody, and the list of addresses raises from then on. -/

namespace Medusa

open Relational

/-- The keys that the database checks. -/
structure TicketDb.SubscriptionKeys (db : TicketDb) : Prop where
  ticket : db.subscriptions.ForeignKey FlicketSubscription.ticketId db.tickets
  user : db.subscriptions.ForeignKey FlicketSubscription.userId db.users.toTable

/-- No user, and not nobody, is subscribed to a ticket twice. -/
def TicketDb.SubscribedOnce (db : TicketDb) : Prop :=
  ∀ ticket, ((db.subscriptionsOf ticket).map FlicketSubscription.userId).Nodup

/-- The addresses of every ticket can be listed, and the list has that of each
subscriber, once. -/
def TicketDb.EmailsListed (db : TicketDb) : Prop :=
  ∀ ticket, ∃ emails, db.getSubscriberEmails ticket = some emails ∧ emails.Nodup ∧
    ∀ email, email ∈ emails ↔ ∃ s ∈ db.subscriptionsOf ticket, db.emailOf s = some email

/-- Whoever is subscribed to a ticket is a user. -/
def TicketDb.Addressed (db : TicketDb) : Prop :=
  ∀ s ∈ db.subscriptions.rows, s.ticketId.isSome = true → s.userId.isSome = true

/-- A ticket is assigned only to a user who is there. -/
def TicketDb.AssignsUser (db : TicketDb) : TicketRequest → Prop
  | .assign ticketid assignee =>
    ∀ ticket recipient, db.assignable ticketid assignee = some (ticket, recipient) →
      recipient.isSome = true
  | _ => True

section Queries

variable {db : TicketDb} {ticket user : Nat} {s s' : FlicketSubscription}

theorem TicketDb.SubscribedOnce.eq (h : db.SubscribedOnce) (hs : s ∈ db.subscriptionsOf ticket)
    (hs' : s' ∈ db.subscriptionsOf ticket) (he : s.userId = s'.userId) : s = s' :=
  List.inj_on_of_nodup_map (h ticket) hs hs' he

/-- `one()` finds the subscription of a subscriber. -/
theorem TicketDb.SubscribedOnce.subscription_isSome (h : db.SubscribedOnce)
    (hs : db.isSubscribed ticket (some user) = true) :
    (db.subscription ticket user).isSome = true := by
  obtain ⟨s, hm, huser⟩ := isSubscribed_iff.mp hs
  obtain ⟨hrow, hticket⟩ := mem_subscriptionsOf.mp hm
  refine Table.one?_isSome.mpr ⟨s, ⟨hrow, by simp [huser, hticket]⟩, ?_⟩
  rintro s' ⟨hrow', hs'⟩
  simp only [Bool.and_eq_true, beq_iff_eq] at hs'
  exact h.eq (mem_subscriptionsOf.mpr ⟨hrow', hs'.2⟩) hm (hs'.1.trans huser.symm)

theorem TicketDb.emailOf_eq_some {email : String} (h : db.emailOf s = some email) :
    ∃ u ∈ db.users.rows, s.userId = some u.id ∧ u.email = email := by
  simp only [emailOf, Option.map_eq_some_iff, Option.bind_eq_some_iff] at h
  obtain ⟨u, ⟨k, hk, hu⟩, he⟩ := h
  obtain ⟨hrow, rfl⟩ := Table.get?_eq_some.mp hu
  exact ⟨u, hrow, hk, he⟩

theorem TicketDb.SubscriptionKeys.emailOf_isSome (h : db.SubscriptionKeys)
    (hs : s ∈ db.subscriptions.rows) (huser : s.userId.isSome = true) :
    (db.emailOf s).isSome = true := by
  obtain ⟨k, hk⟩ := Option.isSome_iff_exists.mp huser
  obtain ⟨u, hu, hid⟩ := h.user s hs k hk
  have hget : db.users.get? k = some u := Table.get?_eq_some.mpr ⟨hu, hid⟩
  simp [emailOf, hk, hget]

/-- Two subscribers of a ticket with one address are one subscriber. -/
theorem TicketDb.SubscribedOnce.emailOf_inj (h : db.SubscribedOnce)
    (hs : s ∈ db.subscriptionsOf ticket) (hs' : s' ∈ db.subscriptionsOf ticket) {email : String}
    (he : db.emailOf s = some email) (he' : db.emailOf s' = some email) : s = s' := by
  obtain ⟨u, hu, huser, hemail⟩ := emailOf_eq_some he
  obtain ⟨u', hu', huser', hemail'⟩ := emailOf_eq_some he'
  have hsame := List.inj_on_of_nodup_map db.users.emails hu hu' (hemail.trans hemail'.symm)
  refine h.eq hs hs' ?_
  rw [huser, huser', hsame]

theorem TicketDb.emailsListed_iff (hkeys : db.SubscriptionKeys) (honce : db.SubscribedOnce) :
    db.EmailsListed ↔ db.Addressed := by
  constructor
  · intro h s hs hticket
    obtain ⟨ticket, hticket⟩ := Option.isSome_iff_exists.mp hticket
    obtain ⟨emails, hemails, -⟩ := h ticket
    have hm : s ∈ db.subscribers ticket :=
      (db.perm_subscribers ticket).mem_iff.mpr (mem_subscriptionsOf.mpr ⟨hs, hticket⟩)
    have hmem : db.emailOf s ∈ emails.map some := by
      rw [← mapM_eq_some.mp hemails]
      exact List.mem_map_of_mem hm
    obtain ⟨email, -, he⟩ := List.mem_map.mp hmem
    obtain ⟨u, -, huser, -⟩ := emailOf_eq_some he.symm
    rw [huser]
    rfl
  · intro h ticket
    have hsome : ∀ s ∈ db.subscribers ticket, db.emailOf s = some ((db.emailOf s).getD "") := by
      intro s hs
      obtain ⟨hrow, hticket⟩ :=
        mem_subscriptionsOf.mp ((db.perm_subscribers ticket).mem_iff.mp hs)
      have haddress := hkeys.emailOf_isSome hrow (h s hrow (by rw [hticket]; rfl))
      obtain ⟨email, hemail⟩ := Option.isSome_iff_exists.mp haddress
      rw [hemail]
      rfl
    refine ⟨(db.subscribers ticket).map (fun s => (db.emailOf s).getD ""), ?_, ?_, ?_⟩
    · refine mapM_eq_some.mpr ?_
      rw [List.map_map]
      exact List.map_congr_left hsome
    · refine List.Nodup.map_on ?_ ((db.perm_subscribers ticket).nodup_iff.mpr
        (db.subscriptions.rows_nodup.filter _))
      intro s hs s' hs' he
      refine honce.emailOf_inj ((db.perm_subscribers ticket).mem_iff.mp hs)
        ((db.perm_subscribers ticket).mem_iff.mp hs') (hsome s hs) ?_
      rw [he]
      exact hsome s' hs'
    · intro email
      simp only [List.mem_map, (db.perm_subscribers ticket).mem_iff]
      constructor
      · rintro ⟨s, hs, rfl⟩
        exact ⟨s, hs, hsome s ((db.perm_subscribers ticket).mem_iff.mpr hs)⟩
      · rintro ⟨s, hs, he⟩
        exact ⟨s, hs, by rw [he]; rfl⟩

end Queries

section Subscribing

variable {db : TicketDb} {ticket : Nat} {who : Option Nat}

theorem TicketDb.mem_subscribe {s : FlicketSubscription} :
    s ∈ (db.subscribe ticket who).subscriptions.rows ↔
      s ∈ db.subscriptions.rows ∨ s = newSubscription ticket who db.subscriptions.nextKey := by
  simp [subscribe]

theorem TicketDb.subscriptionsOf_subscribe (k : Nat) :
    (db.subscribe ticket who).subscriptionsOf k = db.subscriptionsOf k ++
      if ticket = k then [newSubscription ticket who db.subscriptions.nextKey] else [] := by
  unfold subscriptionsOf subscribe
  rw [Table.rows_insert, List.filter_append]
  by_cases hk : ticket = k <;> simp [newSubscription, hk]

theorem TicketDb.SubscribedOnce.subscribe (h : db.SubscribedOnce)
    (hnew : ∀ s ∈ db.subscriptionsOf ticket, s.userId ≠ who) :
    (db.subscribe ticket who).SubscribedOnce := by
  intro k
  rw [subscriptionsOf_subscribe]
  by_cases hk : ticket = k
  · subst hk
    rw [if_pos rfl, List.map_append, List.nodup_append]
    refine ⟨h ticket, List.nodup_singleton _, ?_⟩
    intro u hu u' hu'
    obtain ⟨s, hs, rfl⟩ := List.mem_map.mp hu
    obtain rfl := List.mem_singleton.mp hu'
    exact hnew s hs
  · rw [if_neg hk, List.append_nil]
    exact h k

theorem TicketDb.SubscribedOnce.ensureSubscribed (h : db.SubscribedOnce) :
    (db.ensureSubscribed ticket who).SubscribedOnce := by
  unfold TicketDb.ensureSubscribed
  by_cases hs : db.isSubscribed ticket who = true
  · rw [if_pos hs]
    exact h
  · rw [if_neg hs]
    refine h.subscribe ?_
    intro s hm huser
    exact hs (isSubscribed_iff.mpr ⟨s, hm, huser⟩)

theorem TicketDb.SubscriptionKeys.subscribe (h : db.SubscriptionKeys)
    (hticket : ∃ t ∈ db.tickets.rows, t.id = ticket)
    (huser : ∀ k, who = some k → ∃ u ∈ db.users.rows, u.id = k) :
    (db.subscribe ticket who).SubscriptionKeys := by
  refine ⟨h.ticket.insert (newSubscription_id ticket who) ?_,
    h.user.insert (newSubscription_id ticket who) huser⟩
  intro k hk
  obtain rfl := Option.some.inj hk
  exact hticket

theorem TicketDb.SubscriptionKeys.ensureSubscribed (h : db.SubscriptionKeys)
    (hticket : ∃ t ∈ db.tickets.rows, t.id = ticket)
    (huser : ∀ k, who = some k → ∃ u ∈ db.users.rows, u.id = k) :
    (db.ensureSubscribed ticket who).SubscriptionKeys := by
  unfold TicketDb.ensureSubscribed
  split
  · exact h
  · exact h.subscribe hticket huser

theorem TicketDb.Addressed.subscribe_iff (h : db.Addressed) :
    (db.subscribe ticket who).Addressed ↔ who.isSome = true := by
  constructor
  · intro hh
    exact hh _ (mem_subscribe.mpr (Or.inr rfl)) rfl
  · intro hwho s hs hticket
    rcases mem_subscribe.mp hs with hs | rfl
    · exact h s hs hticket
    · exact hwho

/-- Nobody was subscribed, so nobody is subscribed now. -/
theorem TicketDb.Addressed.ensureSubscribed_iff (h : db.Addressed) :
    (db.ensureSubscribed ticket who).Addressed ↔ who.isSome = true := by
  unfold TicketDb.ensureSubscribed
  by_cases hs : db.isSubscribed ticket who = true
  · rw [if_pos hs]
    refine iff_of_true h ?_
    obtain ⟨s, hm, rfl⟩ := isSubscribed_iff.mp hs
    obtain ⟨hrow, hticket⟩ := mem_subscriptionsOf.mp hm
    exact h s hrow (by rw [hticket]; rfl)
  · rw [if_neg hs]
    exact h.subscribe_iff

/-- The subscription that a new subscriber finds is the one just made. -/
theorem TicketDb.subscription_subscribe {user : Nat}
    (hnot : db.isSubscribed ticket (some user) = false) :
    (db.subscribe ticket (some user)).subscription ticket user =
      some (newSubscription ticket (some user) db.subscriptions.nextKey) := by
  refine Table.one?_eq_some.mpr ⟨⟨mem_subscribe.mpr (Or.inr rfl), by simp [newSubscription]⟩, ?_⟩
  intro s hs hmatch
  rcases mem_subscribe.mp hs with hs | rfl
  · simp only [Bool.and_eq_true, beq_iff_eq] at hmatch
    have hsub := isSubscribed_iff.mpr ⟨s, mem_subscriptionsOf.mpr ⟨hs, hmatch.2⟩, hmatch.1⟩
    exact absurd hsub (by simp [hnot])
  · rfl

end Subscribing

section Effects

variable {db db' : TicketDb} {user : User} {now : Nat} {r : TicketRequest}

theorem TicketEffect.subscriptionKeys (h : TicketEffect db user now r db')
    (huser : user ∈ db.users.rows) (hkeys : db.SubscriptionKeys) : db'.SubscriptionKeys := by
  have hself : ∀ k, some user.id = some k → ∃ u ∈ db.users.rows, u.id = k :=
    fun k hk => ⟨user, huser, Option.some.inj hk⟩
  cases h with
  | created =>
    refine TicketDb.SubscriptionKeys.subscribe
      ⟨hkeys.ticket.insert_target (newTicket_id _ _ _ _ _ _), hkeys.user⟩ ?_ hself
    exact ⟨_, Table.new_mem_insert db.tickets (newTicket_id _ _ _ _ _ _), rfl⟩
  | replied hticket =>
    exact TicketDb.SubscriptionKeys.ensureSubscribed ⟨hkeys.ticket, hkeys.user⟩
      ⟨_, (Table.get?_eq_some.mp hticket).1, rfl⟩ hself
  | detailsSet hticket hstop =>
    exact ⟨hkeys.ticket.update_target (FlicketTicket.setDetails_id _ _ _ _), hkeys.user⟩
  | edited hticket =>
    refine ⟨hkeys.ticket.update_target ?_, hkeys.user⟩
    exact fun _ => rfl
  | postEdited hpost => exact ⟨hkeys.ticket, hkeys.user⟩
  | notAssigned hnone => exact hkeys
  | opened hticket hstatus hnone =>
    exact ⟨hkeys.ticket.update_target (FlicketTicket.setStatus_id _), hkeys.user⟩
  | assigned hassign =>
    obtain ⟨hticket, -, userid, -, hrecipient, -⟩ := assignable_eq_some hassign
    refine TicketDb.SubscriptionKeys.ensureSubscribed
      ⟨hkeys.ticket.update_target (FlicketTicket.assign_id _ _), hkeys.user⟩ ?_ ?_
    · exact (Table.exists_key_update (FlicketTicket.assign_id _ _)).mpr
        ⟨_, (Table.get?_eq_some.mp hticket).1, rfl⟩
    · intro k hk
      rw [hrecipient, Option.map_eq_some_iff] at hk
      obtain ⟨u, hu, hid⟩ := hk
      exact ⟨u, (Table.get?_eq_some.mp hu).1, hid⟩
  | claimed hopen => exact ⟨hkeys.ticket.update_target (FlicketTicket.assign_id _ _), hkeys.user⟩
  | released hticket => exact ⟨hkeys.ticket.update_target (FlicketTicket.assign_id _ _), hkeys.user⟩
  | subscribed hticket =>
    exact hkeys.ensureSubscribed ⟨_, (Table.get?_eq_some.mp hticket).1, rfl⟩ hself
  | unsubscribed hticket hone => exact ⟨hkeys.ticket.delete _, hkeys.user.delete _⟩
  | closeNoted hticket => exact ⟨hkeys.ticket, hkeys.user⟩
  | closed hticket => exact ⟨hkeys.ticket.update_target (FlicketTicket.close_id _ _ _ _), hkeys.user⟩
  | reopened hticket => exact ⟨hkeys.ticket.update_target (FlicketTicket.reopen_id _), hkeys.user⟩
  | postDeleted hpost => exact ⟨hkeys.ticket, hkeys.user⟩

theorem TicketEffect.subscribedOnce (h : TicketEffect db user now r db')
    (hkeys : db.SubscriptionKeys) (honce : db.SubscribedOnce) : db'.SubscribedOnce := by
  cases h with
  | created =>
    refine TicketDb.SubscribedOnce.subscribe honce ?_
    -- the ticket is new, so it has no subscription yet
    intro s hs
    obtain ⟨hrow, hticket⟩ := TicketDb.mem_subscriptionsOf.mp hs
    exact absurd hticket (hkeys.ticket.ne_nextKey hrow)
  | replied hticket => exact TicketDb.SubscribedOnce.ensureSubscribed honce
  | assigned hassign => exact TicketDb.SubscribedOnce.ensureSubscribed honce
  | subscribed hticket => exact honce.ensureSubscribed
  | unsubscribed hticket hone =>
    intro ticket
    refine (honce ticket).sublist (List.Sublist.map _ ?_)
    exact List.filter_sublist.filter _
  | _ => exact honce

theorem TicketEffect.addressed_iff (h : TicketEffect db user now r db') (haddressed : db.Addressed) :
    db'.Addressed ↔ db.AssignsUser r := by
  cases h with
  | created =>
    refine iff_of_true ?_ trivial
    exact (TicketDb.Addressed.subscribe_iff haddressed).mpr rfl
  | replied hticket =>
    refine iff_of_true ((TicketDb.Addressed.ensureSubscribed_iff ?_).mpr rfl) trivial
    exact haddressed
  | notAssigned hnone =>
    refine iff_of_true haddressed ?_
    intro ticket recipient hassign
    exact absurd (hassign.symm.trans hnone) (Option.some_ne_none _)
  | opened hticket hstatus hnone =>
    refine iff_of_true haddressed ?_
    intro ticket recipient hassign
    exact absurd (hassign.symm.trans hnone) (Option.some_ne_none _)
  | assigned hassign =>
    exact Iff.trans (TicketDb.Addressed.ensureSubscribed_iff haddressed)
      (forall_assignable_iff (P := fun r => r.isSome = true) hassign).symm
  | subscribed hticket => exact iff_of_true (haddressed.ensureSubscribed_iff.mpr rfl) trivial
  | unsubscribed hticket hone =>
    exact iff_of_true (fun s hs => haddressed s (Table.mem_delete.mp hs).1) trivial
  | _ => exact iff_of_true haddressed trivial

end Effects

section Visits

variable {db : TicketDb}

theorem TicketDb.SubscriptionKeys.serve (hkeys : db.SubscriptionKeys) (v : TicketVisit) :
    (serve TicketVisit.commit db v).SubscriptionKeys := by
  refine serve_of_commit hkeys ?_
  intro db' hdb
  obtain ⟨user, huser, heffect⟩ := TicketVisit.effect hdb
  exact heffect.subscriptionKeys (Table.get?_eq_some.mp huser).1 hkeys

theorem TicketDb.SubscribedOnce.serve (hkeys : db.SubscriptionKeys) (honce : db.SubscribedOnce)
    (v : TicketVisit) : (serve TicketVisit.commit db v).SubscribedOnce := by
  refine serve_of_commit honce ?_
  intro db' hdb
  obtain ⟨user, -, heffect⟩ := TicketVisit.effect hdb
  exact heffect.subscribedOnce hkeys honce

theorem TicketDb.assignsUser_of_none {r : TicketRequest} {user : User} {now : Nat}
    (h : r.handle db user now = none) : db.AssignsUser r := by
  cases r with
  | assign ticketid assignee =>
    intro ticket recipient hassign
    exact absurd h (ticketAssign_ne_none hassign)
  | _ => trivial

theorem TicketDb.Addressed.serve_iff (haddressed : db.Addressed) (v : TicketVisit) :
    (serve TicketVisit.commit db v).Addressed ↔
      ((db.users.get? v.user).isSome = true → db.AssignsUser v.request) := by
  rw [Option.isSome_iff_exists, forall_exists_index]
  exact v.serve_iff haddressed (fun _ hnone => assignsUser_of_none hnone)
    (fun _ _ heffect => heffect.addressed_iff haddressed)

/-- Who subscribes and unsubscribes leaves everything as it was. -/
theorem TicketDb.subscribe_unsubscribe {ticket user : Nat} (now later : Nat)
    (hnot : db.isSubscribed ticket (some user) = false) :
    runTickets db [⟨user, now, .subscribe ticket⟩, ⟨user, later, .unsubscribe ticket⟩] = db := by
  cases huser : db.users.get? user with
  | none =>
    have hnone : ∀ now r, TicketVisit.commit db ⟨user, now, r⟩ = none := by
      intro now r
      simp [TicketVisit.commit, huser]
    simp [runTickets, serveAll, serve, hnone]
  | some u =>
    cases hticket : db.tickets.get? ticket with
    | none =>
      simp [runTickets, serveAll, serve, TicketVisit.commit, huser, TicketRequest.handle,
        subscribeTicket, unsubscribeTicket, hticket]
    | some t =>
      obtain ⟨-, rfl⟩ := Table.get?_eq_some.mp huser
      obtain ⟨-, rfl⟩ := Table.get?_eq_some.mp hticket
      have hfirst : TicketVisit.commit db ⟨u.id, now, .subscribe t.id⟩ =
          some (db.subscribe t.id (some u.id)) := by
        simp [TicketVisit.commit, huser, TicketRequest.handle, subscribeTicket, hticket,
          ensureSubscribed, hnot]
      have hsubscribed : (db.subscribe t.id (some u.id)).isSubscribed t.id (some u.id) = true :=
        isSubscribed_iff.mpr ⟨_, mem_subscriptionsOf.mpr ⟨mem_subscribe.mpr (Or.inr rfl), rfl⟩, rfl⟩
      have hback : (db.subscribe t.id (some u.id)).subscriptions.delete
          (fun s => s.id == db.subscriptions.nextKey) = db.subscriptions :=
        db.subscriptions.delete_insert (newSubscription_id t.id (some u.id))
      have hsecond : TicketVisit.commit (db.subscribe t.id (some u.id))
          ⟨u.id, later, .unsubscribe t.id⟩ = some db := by
        have huser' : (db.subscribe t.id (some u.id)).users.get? u.id = some u := huser
        have hticket' : (db.subscribe t.id (some u.id)).tickets.get? t.id = some t := hticket
        simp only [TicketVisit.commit, huser', TicketRequest.handle, unsubscribeTicket, hticket',
          hsubscribed, subscription_subscribe hnot, newSubscription_id, hback, guard, if_true,
          Option.bind_eq_bind, Option.bind_some, Option.pure_def]
        rfl
      unfold runTickets serveAll
      rw [List.foldl_cons, List.foldl_cons, List.foldl_nil, serve_some hfirst, serve_some hsecond]

end Visits

/-- In every run no pair of a ticket and a user has two subscriptions, so whoever is
subscribed can unsubscribe, and to subscribe and unsubscribe changes nothing. The
addresses of the subscribers can be listed all along if and only if no assigned
ticket is assigned to a user who does not exist. -/
theorem runTickets_subscriptions (db : TicketDb) (visits : List TicketVisit)
    (hkeys : db.SubscriptionKeys) (honce : db.SubscribedOnce) (hlisted : db.EmailsListed) :
    (∀ pre post, visits = pre ++ post →
      (runTickets db pre).SubscribedOnce ∧
      (∀ ticket user, (runTickets db pre).isSubscribed ticket (some user) = true →
        ((runTickets db pre).subscription ticket user).isSome = true) ∧
      ∀ ticket user now later, (runTickets db pre).isSubscribed ticket (some user) = false →
        runTickets (runTickets db pre)
          [⟨user, now, .subscribe ticket⟩, ⟨user, later, .unsubscribe ticket⟩] =
            runTickets db pre) ∧
    ((∀ pre post, visits = pre ++ post → (runTickets db pre).EmailsListed) ↔
      ∀ pre v post, visits = pre ++ v :: post →
        ((runTickets db pre).users.get? v.user).isSome = true →
          (runTickets db pre).AssignsUser v.request) := by
  have hkept : ∀ pre, (runTickets db pre).SubscriptionKeys ∧ (runTickets db pre).SubscribedOnce :=
    fun pre => serveAll_invariant (J := fun db : TicketDb => db.SubscriptionKeys ∧ db.SubscribedOnce)
      (fun _ v h => ⟨h.1.serve v, h.2.serve h.1 v⟩) pre ⟨hkeys, honce⟩
  refine ⟨?_, ?_⟩
  · intro pre post _
    exact ⟨(hkept pre).2, fun _ _ hs => (hkept pre).2.subscription_isSome hs,
      fun _ _ now later hnot => TicketDb.subscribe_unsubscribe now later hnot⟩
  · rw [TicketDb.emailsListed_iff hkeys honce] at hlisted
    have hgood := serveAll_good_iff (I := TicketDb.Addressed)
      (C := fun (db : TicketDb) (v : TicketVisit) =>
        (db.users.get? v.user).isSome = true → db.AssignsUser v.request)
      (fun _ v h => h.serve_iff v) visits hlisted
    refine Iff.trans ?_ hgood
    constructor
    · intro h pre post he
      exact (TicketDb.emailsListed_iff (hkept pre).1 (hkept pre).2).mp (h pre post he)
    · intro h pre post he
      exact (TicketDb.emailsListed_iff (hkept pre).1 (hkept pre).2).mpr (h pre post he)

theorem helpDesk_subscriptions :
    helpDesk.SubscriptionKeys ∧ helpDesk.SubscribedOnce ∧ helpDesk.EmailsListed := by
  have hkeys : helpDesk.SubscriptionKeys :=
    ⟨fun _ hs => absurd hs List.not_mem_nil, fun _ hs => absurd hs List.not_mem_nil⟩
  have honce : helpDesk.SubscribedOnce := fun _ => List.nodup_nil
  exact ⟨hkeys, honce, (TicketDb.emailsListed_iff hkeys honce).mpr
    (fun _ hs => absurd hs List.not_mem_nil)⟩

/-- The leak is assigned to the fitter, who unsubscribes. -/
theorem runTickets_subscriptions_helpDesk :
    (helpDesk.SubscriptionKeys ∧ helpDesk.SubscribedOnce ∧ helpDesk.EmailsListed) ∧
    ∀ pre post, [leakVisit, ⟨1, 20, .assign 1 (some 2)⟩, ⟨2, 30, .unsubscribe 1⟩] = pre ++ post →
      (runTickets helpDesk pre).SubscribedOnce ∧ (runTickets helpDesk pre).EmailsListed := by
  obtain ⟨hkeys, honce, hlisted⟩ := helpDesk_subscriptions
  have hrun := runTickets_subscriptions helpDesk
    [leakVisit, ⟨1, 20, .assign 1 (some 2)⟩, ⟨2, 30, .unsubscribe 1⟩] hkeys honce hlisted
  have hassigns : ∀ pre v post,
      [leakVisit, ⟨1, 20, .assign 1 (some 2)⟩, ⟨2, 30, .unsubscribe 1⟩] = pre ++ v :: post →
        ((runTickets helpDesk pre).users.get? v.user).isSome = true →
          (runTickets helpDesk pre).AssignsUser v.request := by
    simp only [forall_split_cons, forall_split_nil, and_true]
    refine ⟨fun _ => trivial, ?_, fun _ => trivial⟩
    intro _ ticket recipient hassign
    obtain ⟨-, -, userid, huserid, rfl, -⟩ := assignable_eq_some hassign
    obtain rfl := Option.some.inj huserid
    decide +kernel
  refine ⟨⟨hkeys, honce, hlisted⟩, ?_⟩
  intro pre post he
  exact ⟨(hrun.1 pre post he).1, hrun.2.mpr hassigns pre post he⟩

/-- The fitter works on the leak, and the operator assigns it to user 9, who does not
exist. -/
theorem ticketAssign_subscribes_nobody :
    ¬ (runTickets helpDesk
      [leakVisit, ⟨2, 20, .claim 1⟩, ⟨1, 30, .assign 1 (some 9)⟩]).EmailsListed := by
  intro h
  obtain ⟨emails, hemails, -⟩ := h 1
  have hraises : (runTickets helpDesk
      [leakVisit, ⟨2, 20, .claim 1⟩, ⟨1, 30, .assign 1 (some 9)⟩]).getSubscriberEmails 1 = none := by
    decide +kernel
  exact absurd (hemails.symm.trans hraises) (Option.some_ne_none _)

end Medusa
