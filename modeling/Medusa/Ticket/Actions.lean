import Medusa.References
import Medusa.Ticket.Effects

/-! The actions of a ticket against what was done with it. A row is found from its
ticket, or from the post that was the last one at the time; a row that was found
from a post only is lost with the post. -/

namespace Medusa

open Relational

/-- What a row records, asked in the order of `output_action`. -/
def FlicketAction.kind (a : FlicketAction) : Option ActionKind :=
  if a.assigned = some true then some .assign
  else if a.claimed = some true then some .claim
  else if a.released = some true then some .release
  else if a.closed = some true then some .close
  else if a.opened = some true then some .reopen
  else none

/-- Something that was done with a ticket. -/
structure Performed where
  ticket : Nat
  kind : ActionKind
  user : Nat

def FlicketAction.entry (a : FlicketAction) : Option ActionKind × Option Nat := (a.kind, a.userId)

def Performed.entry (p : Performed) : Option ActionKind × Option Nat := (some p.kind, some p.user)

/-- Whether a row is in `ticket.actions` or in the actions of a post of the ticket. -/
def TicketDb.reaches (db : TicketDb) (ticket : Nat) (a : FlicketAction) : Bool :=
  a.ticketId == some ticket || (db.postsOf ticket).any (fun p => a.postId == some p.id)

def TicketDb.actionsOf (db : TicketDb) (ticket : Nat) : List FlicketAction :=
  db.actions.rows.filter (db.reaches ticket)

/-- What a request does with a ticket, once its guards are passed. -/
def TicketDb.performed (db : TicketDb) (user : User) : TicketRequest → Option Performed
  | .assign ticketid assignee =>
    (db.assignable ticketid assignee).map (fun found => ⟨found.1.id, .assign, user.id⟩)
  | .claim ticketid => (db.openTicket ticketid).map (fun t => ⟨t.id, .claim, user.id⟩)
  | .release ticketid => (db.releasable user ticketid).map (fun t => ⟨t.id, .release, user.id⟩)
  | .closeStatus ticketid parts (some _) =>
    (db.closable user ticketid parts).map (fun t => ⟨t.id, .close, user.id⟩)
  | .openStatus ticketid => (db.openable user ticketid).map (fun t => ⟨t.id, .reopen, user.id⟩)
  | _ => none

/-- The database, and what was done with the tickets so far. -/
structure Audit where
  db : TicketDb
  performed : List Performed

def Audit.commit (s : Audit) (v : TicketVisit) : Option Audit := do
  let user ← s.db.users.get? v.user
  let db ← v.request.handle s.db user v.now
  pure ⟨db, s.performed ++ (s.db.performed user v.request).toList⟩

def runAudit (s : Audit) (visits : List TicketVisit) : Audit := serveAll Audit.commit s visits

/-- The rows that are found from a ticket are those of what was done with it, one
for each, with the user who did it. -/
def Audit.Complete (s : Audit) : Prop :=
  ∀ ticket, ((s.db.actionsOf ticket).map FlicketAction.entry).Perm
    ((s.performed.filter (fun p => p.ticket == ticket)).map Performed.entry)

/-- The keys that the database checks. -/
structure TicketDb.ActionKeys (db : TicketDb) : Prop where
  ticket : db.actions.ForeignKey FlicketAction.ticketId db.tickets
  post : db.actions.ForeignKey FlicketAction.postId db.posts
  postTicket : db.posts.ForeignKey FlicketPost.ticketId db.tickets

/-- A ticket is closed with a resolution, and a post is deleted only if its actions
are those of its ticket as well. -/
def TicketDb.KeepsTrail (db : TicketDb) (user : User) : TicketRequest → Prop
  | .closeStatus ticketid parts resolution =>
    (db.closable user ticketid parts).isSome = true → resolution.isSome = true
  | .deletePost posted postid =>
    ∀ post, db.deletablePost posted postid = some post → ∀ ticket, post.ticketId = some ticket →
      ∀ a ∈ db.actions.rows, a.postId = some post.id → a.ticketId = some ticket
  | _ => True

theorem newAction_kind (kind : ActionKind) (ticket post : Option Nat) (user : Nat)
    (recipient : Option Nat) (now id : Nat) :
    (newAction kind ticket post user recipient now id).kind = some kind := by
  cases kind <;> rfl

theorem newAction_entry (kind : ActionKind) (ticket post : Option Nat) (user : Nat)
    (recipient : Option Nat) (now id : Nat) :
    (newAction kind ticket post user recipient now id).entry = (some kind, some user) := by
  rw [FlicketAction.entry, newAction_kind]
  rfl

/-- The tickets and what was done with them, where nobody looks at the latter. -/
theorem runAudit_db (s : Audit) (visits : List TicketVisit) :
    (runAudit s visits).db = runTickets s.db visits := by
  have hserve : ∀ (s : Audit) (v : TicketVisit),
      (serve Audit.commit s v).db = serve TicketVisit.commit s.db v := by
    intro s v
    unfold serve Audit.commit TicketVisit.commit
    cases s.db.users.get? v.user with
    | none => rfl
    | some user =>
      simp only [Option.bind_eq_bind, Option.bind_some]
      cases v.request.handle s.db user v.now <;> rfl
  unfold runAudit runTickets serveAll
  induction visits generalizing s with
  | nil => rfl
  | cons v visits ih => rw [List.foldl_cons, List.foldl_cons, ih, hserve]

section Reach

variable {db db' : TicketDb} {ticket : Nat} {a : FlicketAction}

theorem TicketDb.reaches_iff :
    db.reaches ticket a = true ↔ a.ticketId = some ticket ∨
      ∃ p ∈ db.posts.rows, p.ticketId = some ticket ∧ a.postId = some p.id := by
  simp [reaches, postsOf]

theorem TicketDb.actionsOf_congr (hposts : db'.posts = db.posts) (hactions : db'.actions = db.actions) :
    db'.actionsOf ticket = db.actionsOf ticket := by
  unfold actionsOf reaches postsOf
  rw [hposts, hactions]

/-- The posts of a ticket are found by their ids alone. -/
theorem TicketDb.actionsOf_eq (hactions : db'.actions = db.actions)
    (hposts : ∀ a ∈ db.actions.rows, (∃ p ∈ db'.posts.rows, p.ticketId = some ticket ∧
        a.postId = some p.id) ↔ ∃ p ∈ db.posts.rows, p.ticketId = some ticket ∧ a.postId = some p.id) :
    db'.actionsOf ticket = db.actionsOf ticket := by
  unfold actionsOf
  rw [hactions]
  refine List.filter_congr ?_
  intro a ha
  rw [Bool.eq_iff_iff, reaches_iff, reaches_iff, hposts a ha]

/-- A new post has no action yet. -/
theorem TicketDb.ActionKeys.actionsOf_reply (h : db.ActionKeys) {row : Nat → FlicketPost}
    (hrow : ∀ k, (row k).id = k) (hactions : db'.actions = db.actions)
    (hposts : db'.posts = db.posts.insert row hrow) :
    db'.actionsOf ticket = db.actionsOf ticket := by
  refine actionsOf_eq hactions ?_
  intro a ha
  rw [hposts]
  constructor
  · rintro ⟨p, hp, hticket, hpost⟩
    rcases Table.mem_insert.mp hp with hp | rfl
    · exact ⟨p, hp, hticket, hpost⟩
    · rw [hrow] at hpost
      exact absurd hpost (h.post.ne_nextKey ha)
  · rintro ⟨p, hp, hpost⟩
    exact ⟨p, Table.mem_insert.mpr (Or.inl hp), hpost⟩

theorem TicketDb.actionsOf_editPost {q : FlicketPost → Bool} {f : FlicketPost → FlicketPost}
    (hf : ∀ p, (f p).id = p.id) (hticket : ∀ p, (f p).ticketId = p.ticketId)
    (hactions : db'.actions = db.actions) (hposts : db'.posts = db.posts.update q f hf) :
    db'.actionsOf ticket = db.actionsOf ticket := by
  refine actionsOf_eq hactions ?_
  intro a _
  rw [hposts]
  constructor
  · rintro ⟨p, hp, hpost⟩
    obtain ⟨p₀, hp₀, rfl⟩ := Table.mem_update.mp hp
    refine ⟨p₀, hp₀, ?_⟩
    by_cases hq : q p₀ = true <;> simpa [hq, hf, hticket] using hpost
  · rintro ⟨p, hp, hpost⟩
    refine ⟨_, Table.mem_update.mpr ⟨p, hp, rfl⟩, ?_⟩
    by_cases hq : q p = true <;> simpa [hq, hf, hticket] using hpost

variable {kind : ActionKind} {user now : Nat} {recipient : Option Nat}

/-- The row that `add_action` adds. -/
def TicketDb.addedAction (db : TicketDb) (kind : ActionKind) (ticket user : Nat)
    (recipient : Option Nat) (now : Nat) : FlicketAction :=
  newAction kind
    (if (db.postsOf ticket).getLast? = none ∨ kind = .close ∨ kind = .reopen then some ticket
      else none)
    ((db.postsOf ticket).getLast?.map FlicketPost.id) user recipient now db.actions.nextKey

/-- It is found from its ticket, and from no other. -/
theorem TicketDb.reaches_addedAction (k : Nat) :
    db.reaches k (db.addedAction kind ticket user recipient now) = true ↔ ticket = k := by
  rw [reaches_iff]
  unfold addedAction newAction
  cases hlast : (db.postsOf ticket).getLast? with
  | none => simp
  | some post =>
    have hpost : post ∈ db.posts.rows ∧ post.ticketId = some ticket := by
      simpa [postsOf] using List.mem_of_getLast? hlast
    constructor
    · rintro (hk | ⟨p, hp, hk, hid⟩)
      · by_cases htopic : kind = .close ∨ kind = .reopen
        · simpa [htopic] using hk
        · simp [htopic] at hk
      · obtain rfl := Table.eq_of_key_eq hpost.1 hp (Option.some.inj hid)
        exact Option.some.inj (hpost.2.symm.trans hk)
    · rintro rfl
      exact Or.inr ⟨post, hpost.1, hpost.2, rfl⟩

theorem TicketDb.actionsOf_addAction (hposts : db'.posts = db.posts)
    (hactions : db'.actions = (db.addAction kind ticket user recipient now).actions) (k : Nat) :
    (db'.actionsOf k).map FlicketAction.entry = (db.actionsOf k).map FlicketAction.entry ++
      if ticket = k then [(some kind, some user)] else [] := by
  have hrows : db'.actions.rows = db.actions.rows ++ [db.addedAction kind ticket user recipient now] := by
    rw [hactions]
    rfl
  have hreaches : db'.reaches k = db.reaches k := by
    funext a
    unfold reaches postsOf
    rw [hposts]
  unfold actionsOf
  rw [hrows, hreaches, List.filter_append, List.map_append]
  by_cases hk : ticket = k
  · rw [List.filter_cons_of_pos (reaches_addedAction k |>.mpr hk), if_pos hk, List.filter_nil,
      List.map_singleton]
    unfold addedAction
    rw [newAction_entry]
  · have hnot : ¬ db.reaches k (db.addedAction kind ticket user recipient now) = true :=
      fun h => hk ((reaches_addedAction k).mp h)
    rw [List.filter_cons_of_neg hnot, if_neg hk]
    rfl

/-- After a post is deleted, its actions are found from the ticket only if they are
actions of the ticket. -/
theorem TicketDb.reaches_deletePost {post : FlicketPost} (hpost : post ∈ db.posts.rows)
    (hposts : db'.posts = db.posts.delete (fun p => p.id == post.id)) :
    db'.reaches ticket (if a.postId == some post.id then a.forgetPost else a) = true ↔
      db.reaches ticket a = true ∧
        (post.ticketId = some ticket → a.postId = some post.id → a.ticketId = some ticket) := by
  rw [reaches_iff, reaches_iff, hposts]
  by_cases hp : a.postId = some post.id
  · simp only [hp, beq_self_eq_true, if_true]
    constructor
    · rintro (hk | ⟨p, -, -, hid⟩)
      · exact ⟨Or.inl hk, fun _ _ => hk⟩
      · exact absurd hid.symm (Option.some_ne_none _)
    · rintro ⟨hk | ⟨p, hrow, hk, hid⟩, hkept⟩
      · exact Or.inl hk
      · obtain rfl := Table.eq_of_key_eq hpost hrow (Option.some.inj hid)
        exact Or.inl (hkept hk trivial)
  · have hne : (a.postId == some post.id) = false := by simpa using hp
    simp only [hne, hp, false_implies, implies_true, and_true]
    constructor
    · rintro (hk | ⟨p, hrow, hk⟩)
      · exact Or.inl hk
      · exact Or.inr ⟨p, (Table.mem_delete.mp hrow).1, hk⟩
    · rintro (hk | ⟨p, hrow, hk, hid⟩)
      · exact Or.inl hk
      · refine Or.inr ⟨p, Table.mem_delete.mpr ⟨hrow, ?_⟩, hk, hid⟩
        rw [beq_eq_false_iff_ne]
        intro he
        exact hp (by rw [← he]; exact hid)

theorem FlicketAction.forgetPost_entry (a : FlicketAction) : a.forgetPost.entry = a.entry := rfl

theorem TicketDb.actionsOf_deletePost_iff {post : FlicketPost} (hpost : post ∈ db.posts.rows)
    (hposts : db'.posts = db.posts.delete (fun p => p.id == post.id))
    (hactions : db'.actions = db.actions.update (fun a => a.postId == some post.id)
      FlicketAction.forgetPost FlicketAction.forgetPost_id) :
    ((db'.actionsOf ticket).map FlicketAction.entry).Perm
        ((db.actionsOf ticket).map FlicketAction.entry) ↔
      (post.ticketId = some ticket → ∀ a ∈ db.actions.rows, a.postId = some post.id →
        a.ticketId = some ticket) := by
  have hentries : (db'.actionsOf ticket).map FlicketAction.entry =
      (db.actions.rows.filter (fun a => db'.reaches ticket
        (if a.postId == some post.id then a.forgetPost else a))).map FlicketAction.entry := by
    unfold actionsOf
    rw [hactions, Table.rows_update, List.filter_map, List.map_map]
    refine List.map_congr_left ?_
    intro a _
    by_cases hp : a.postId = some post.id <;> simp [hp, FlicketAction.forgetPost_entry]
  rw [hentries]
  unfold actionsOf
  rw [Table.perm_map_filter_iff]
  · simp only [reaches_deletePost hpost hposts]
    constructor
    · intro h hticket a ha hid
      exact (h a ha (reaches_iff.mpr (Or.inr ⟨post, hpost, hticket, hid⟩))).2 hticket hid
    · intro h a ha hreach
      exact ⟨hreach, fun hticket hid => h hticket a ha hid⟩
  · intro a _ hreach
    exact ((reaches_deletePost hpost hposts).mp hreach).1

end Reach

namespace TicketDb.ActionKeys

variable {db : TicketDb} {ticket : Nat}

theorem ensureSubscribed (h : db.ActionKeys) (who : Option Nat) :
    (db.ensureSubscribed ticket who).ActionKeys := by
  unfold TicketDb.ensureSubscribed
  split
  · exact h
  · exact ⟨h.ticket, h.post, h.postTicket⟩

theorem writeTicket (h : db.ActionKeys) {f : FlicketTicket → FlicketTicket}
    (hf : ∀ t, (f t).id = t.id) : (db.writeTicket ticket f hf).ActionKeys :=
  ⟨h.ticket.update_target hf, h.post, h.postTicket.update_target hf⟩

theorem addAction (h : db.ActionKeys) {kind : ActionKind} {user now : Nat} {recipient : Option Nat}
    (hticket : ∃ t ∈ db.tickets.rows, t.id = ticket) :
    (db.addAction kind ticket user recipient now).ActionKeys := by
  refine ⟨h.ticket.insert (newAction_id _ _ _ _ _ _) ?_, h.post.insert (newAction_id _ _ _ _ _ _) ?_,
    h.postTicket⟩
  · intro k hk
    have hk : (if (db.postsOf ticket).getLast? = none ∨ kind = .close ∨ kind = .reopen
        then some ticket else none) = some k := hk
    by_cases htopic : (db.postsOf ticket).getLast? = none ∨ kind = .close ∨ kind = .reopen
    · rw [if_pos htopic] at hk
      obtain rfl := Option.some.inj hk
      exact hticket
    · rw [if_neg htopic] at hk
      exact absurd hk.symm (Option.some_ne_none _)
  · intro k hk
    obtain ⟨post, hlast, hid⟩ := Option.map_eq_some_iff.mp hk
    exact ⟨post, (List.mem_filter.mp (List.mem_of_getLast? hlast)).1, hid⟩

end TicketDb.ActionKeys

section Effects

variable {db db' : TicketDb} {user : User} {now : Nat} {r : TicketRequest} {log : List Performed}

theorem TicketEffect.actionKeys (h : TicketEffect db user now r db') (hkeys : db.ActionKeys) :
    db'.ActionKeys := by
  have hopen : ∀ {k t}, db.openTicket k = some t → ∃ t' ∈ db.tickets.rows, t'.id = t.id :=
    fun h => ⟨_, TicketDb.mem_of_openTicket h, rfl⟩
  cases h with
  | created =>
    exact ⟨hkeys.ticket.insert_target (newTicket_id _ _ _ _ _ _), hkeys.post,
      hkeys.postTicket.insert_target (newTicket_id _ _ _ _ _ _)⟩
  | replied hticket =>
    refine TicketDb.ActionKeys.ensureSubscribed ?_ _
    refine ⟨hkeys.ticket, hkeys.post.insert_target (newPost_id _ _ _ _),
      hkeys.postTicket.insert (newPost_id _ _ _ _) ?_⟩
    intro k hk
    obtain rfl := Option.some.inj hk
    exact ⟨_, (Table.get?_eq_some.mp hticket).1, rfl⟩
  | detailsSet hticket hstop => exact hkeys.writeTicket _
  | edited hticket =>
    refine ⟨hkeys.ticket.update_target ?_, hkeys.post, hkeys.postTicket.update_target ?_⟩
    · exact fun _ => rfl
    · exact fun _ => rfl
  | postEdited hpost =>
    exact ⟨hkeys.ticket, hkeys.post.update_target (FlicketPost.edit_id _ _ _),
      hkeys.postTicket.update (FlicketPost.edit_id _ _ _) (fun _ => rfl)⟩
  | notAssigned hnone => exact hkeys
  | opened hticket hstatus hnone => exact hkeys.writeTicket _
  | assigned hassign =>
    obtain ⟨hticket, -⟩ := assignable_eq_some hassign
    refine TicketDb.ActionKeys.ensureSubscribed ((hkeys.writeTicket _).addAction ?_) _
    exact (Table.exists_key_update (FlicketTicket.assign_id _ _)).mpr
      ⟨_, (Table.get?_eq_some.mp hticket).1, rfl⟩
  | claimed hticket =>
    exact (hkeys.writeTicket _).addAction
      ((Table.exists_key_update (FlicketTicket.assign_id _ _)).mpr (hopen hticket))
  | released hticket =>
    exact (hkeys.writeTicket _).addAction ((Table.exists_key_update (FlicketTicket.assign_id _ _)).mpr
      (hopen (TicketDb.openTicket_of_releasable hticket)))
  | subscribed hticket => exact hkeys.ensureSubscribed _
  | unsubscribed hticket hone => exact ⟨hkeys.ticket, hkeys.post, hkeys.postTicket⟩
  | closeNoted hticket => exact hkeys.addAction (hopen (TicketDb.openTicket_of_closable hticket))
  | closed hticket =>
    exact (hkeys.addAction (hopen (TicketDb.openTicket_of_closable hticket))).writeTicket _
  | reopened hticket =>
    have hget := (TicketDb.authorised_of_openable hticket).1
    exact (hkeys.addAction ⟨_, (Table.get?_eq_some.mp hget).1, rfl⟩).writeTicket _
  | postDeleted hpost =>
    exact ⟨hkeys.ticket.update FlicketAction.forgetPost_id (fun _ => rfl),
      hkeys.post.forget _ FlicketAction.forgetPost_id (fun _ => rfl), hkeys.postTicket.delete _⟩

theorem Audit.Complete.same (hc : Audit.Complete ⟨db, log⟩) (hnone : db.performed user r = none)
    (hsame : ∀ ticket, db'.actionsOf ticket = db.actionsOf ticket) :
    Audit.Complete ⟨db', log ++ (db.performed user r).toList⟩ := by
  rw [hnone, Option.toList_none, List.append_nil]
  intro ticket
  rw [hsame]
  exact hc ticket

/-- Something was done with a ticket, and its row was added. -/
theorem Audit.Complete.act {kind : ActionKind} {ticket : Nat} {recipient : Option Nat}
    (hc : Audit.Complete ⟨db, log⟩) (hdone : db.performed user r = some ⟨ticket, kind, user.id⟩)
    (hposts : db'.posts = db.posts)
    (hactions : db'.actions = (db.addAction kind ticket user.id recipient now).actions) :
    Audit.Complete ⟨db', log ++ (db.performed user r).toList⟩ := by
  intro k
  rw [TicketDb.actionsOf_addAction hposts hactions, hdone, Option.toList_some, List.filter_append,
    List.map_append]
  refine List.Perm.append (hc k) ?_
  by_cases hk : ticket = k
  · subst hk
    simp [Performed.entry]
  · simp [hk]

/-- A row for something that was not done is one too many. -/
theorem Audit.Complete.not_addAction (hc : Audit.Complete ⟨db, log⟩) (kind : ActionKind)
    (ticket who : Nat) (recipient : Option Nat) :
    ¬ Audit.Complete ⟨db.addAction kind ticket who recipient now, log⟩ := by
  intro hc'
  have hrow : ((db.addAction kind ticket who recipient now).actionsOf ticket).map
      FlicketAction.entry = (db.actionsOf ticket).map FlicketAction.entry ++
        if ticket = ticket then [(some kind, some who)] else [] :=
    @TicketDb.actionsOf_addAction db (db.addAction kind ticket who recipient now) ticket
      kind who now recipient rfl rfl ticket
  have hlen := (hc ticket).length_eq
  have hlen' := (hc' ticket).length_eq
  rw [hrow, if_pos rfl, List.length_append, hlen] at hlen'
  simp at hlen'

/-- Deleting a post keeps the trail of each ticket exactly if the actions of the post are
those of the ticket as well. -/
theorem Audit.Complete.deletePost_iff (hc : Audit.Complete ⟨db, log⟩) {post : FlicketPost}
    (hpost : post ∈ db.posts.rows)
    (hposts : db'.posts = db.posts.delete (fun p => p.id == post.id))
    (hactions : db'.actions = db.actions.update (fun a => a.postId == some post.id)
      FlicketAction.forgetPost FlicketAction.forgetPost_id) :
    Audit.Complete ⟨db', log⟩ ↔ ∀ ticket, post.ticketId = some ticket →
      ∀ a ∈ db.actions.rows, a.postId = some post.id → a.ticketId = some ticket := by
  refine forall_congr' fun ticket => ?_
  rw [← TicketDb.actionsOf_deletePost_iff hpost hposts hactions]
  exact ⟨fun hc' => hc'.trans (hc ticket).symm, fun hsame => hsame.trans (hc ticket)⟩

theorem TicketEffect.complete_iff (h : TicketEffect db user now r db') (hkeys : db.ActionKeys)
    (hc : Audit.Complete ⟨db, log⟩) :
    Audit.Complete ⟨db', log ++ (db.performed user r).toList⟩ ↔ db.KeepsTrail user r := by
  cases h with
  | created => exact iff_of_true (hc.same rfl (fun _ => TicketDb.actionsOf_congr rfl rfl)) trivial
  | replied hticket =>
    refine iff_of_true (hc.same rfl (fun _ => ?_)) trivial
    exact hkeys.actionsOf_reply (newPost_id _ _ _ _) (TicketDb.ensureSubscribed_actions _ _ _)
      (TicketDb.ensureSubscribed_posts _ _ _)
  | detailsSet hticket hstop =>
    exact iff_of_true (hc.same rfl (fun _ => TicketDb.actionsOf_congr rfl rfl)) trivial
  | edited hticket =>
    exact iff_of_true (hc.same rfl (fun _ => TicketDb.actionsOf_congr rfl rfl)) trivial
  | postEdited hpost =>
    refine iff_of_true (hc.same rfl (fun _ => ?_)) trivial
    exact TicketDb.actionsOf_editPost (FlicketPost.edit_id _ _ _) (fun _ => rfl) rfl rfl
  | notAssigned hnone =>
    refine iff_of_true (hc.same ?_ (fun _ => rfl)) trivial
    rw [TicketDb.performed, hnone, Option.map_none]
  | opened hticket hstatus hnone =>
    refine iff_of_true (hc.same ?_ (fun _ => TicketDb.actionsOf_congr rfl rfl)) trivial
    rw [TicketDb.performed, hnone, Option.map_none]
  | assigned hassign =>
    refine iff_of_true (hc.act ?_ (TicketDb.ensureSubscribed_posts _ _ _)
      (TicketDb.ensureSubscribed_actions _ _ _)) trivial
    rw [TicketDb.performed, hassign, Option.map_some]
  | claimed hticket =>
    refine iff_of_true (hc.act ?_ rfl rfl) trivial
    rw [TicketDb.performed, hticket, Option.map_some]
  | released hticket =>
    refine iff_of_true (hc.act ?_ rfl rfl) trivial
    rw [TicketDb.performed, hticket, Option.map_some]
  | subscribed hticket =>
    refine iff_of_true (hc.same rfl (fun _ => ?_)) trivial
    exact TicketDb.actionsOf_congr (TicketDb.ensureSubscribed_posts _ _ _)
      (TicketDb.ensureSubscribed_actions _ _ _)
  | unsubscribed hticket hone =>
    exact iff_of_true (hc.same rfl (fun _ => TicketDb.actionsOf_congr rfl rfl)) trivial
  | @closeNoted ticketid parts ticket hticket =>
    -- the row is there, and the ticket is not closed
    have hnone : db.performed user (.closeStatus ticketid parts none) = none := rfl
    rw [hnone, Option.toList_none, List.append_nil]
    refine iff_of_false (hc.not_addAction _ _ _ _) ?_
    intro hkeeps
    have hsome : (none : Option Nat).isSome = true := hkeeps (by rw [hticket]; rfl)
    exact Bool.noConfusion hsome
  | closed hticket =>
    refine iff_of_true (hc.act ?_ rfl rfl) (fun _ => rfl)
    rw [TicketDb.performed, hticket, Option.map_some]
  | reopened hticket =>
    refine iff_of_true (hc.act ?_ rfl rfl) trivial
    rw [TicketDb.performed, hticket, Option.map_some]
  | @postDeleted posted postid post hpost =>
    have hnone : db.performed user (.deletePost posted postid) = none := rfl
    rw [hnone, Option.toList_none, List.append_nil,
      hc.deletePost_iff (TicketDb.mem_of_deletablePost hpost) ?_ ?_]
    · rw [TicketDb.KeepsTrail, forall_eq_some_iff hpost]
    · rfl
    · rfl

/-- A request that commits nothing was not let through to a write. -/
theorem TicketDb.keepsTrail_of_none (h : r.handle db user now = none) : db.KeepsTrail user r := by
  cases r with
  | closeStatus ticketid parts resolution =>
    intro hclosable
    obtain ⟨ticket, hticket⟩ := Option.isSome_iff_exists.mp hclosable
    simp [TicketRequest.handle, closeStatus, hticket] at h
  | deletePost posted postid =>
    intro post hpost
    simp [TicketRequest.handle, deletePost, hpost] at h
  | _ => trivial

theorem Audit.commit_cases {s s' : Audit} {v : TicketVisit} (h : s.commit v = some s') :
    ∃ user, s.db.users.get? v.user = some user ∧ TicketEffect s.db user v.now v.request s'.db ∧
      s'.performed = s.performed ++ (s.db.performed user v.request).toList := by
  simp only [Audit.commit, Option.bind_eq_bind, Option.bind_eq_some_iff, Option.pure_def,
    Option.some.injEq] at h
  obtain ⟨user, huser, db', hdb, rfl⟩ := h
  exact ⟨user, huser, handle_effect hdb, rfl⟩

theorem Audit.actionKeys_serve {s : Audit} (hkeys : s.db.ActionKeys) (v : TicketVisit) :
    (serve Audit.commit s v).db.ActionKeys := by
  refine serve_of_commit (P := fun s : Audit => s.db.ActionKeys) hkeys ?_
  intro s' hs'
  obtain ⟨user, -, heffect, -⟩ := Audit.commit_cases hs'
  exact heffect.actionKeys hkeys

theorem Audit.Complete.serve_iff {s : Audit} (hkeys : s.db.ActionKeys) (hc : s.Complete)
    (v : TicketVisit) : (serve Audit.commit s v).Complete ↔
      ∀ user, s.db.users.get? v.user = some user → s.db.KeepsTrail user v.request := by
  refine Relational.serve_iff hc ?_ ?_
  · intro hnone user huser
    cases hhandle : v.request.handle s.db user v.now with
    | none => exact TicketDb.keepsTrail_of_none hhandle
    | some db' => simp [Audit.commit, huser, hhandle] at hnone
  · intro s' hs'
    obtain ⟨user, huser, heffect, hperformed⟩ := Audit.commit_cases hs'
    have hiff : s'.Complete ↔ s.db.KeepsTrail user v.request := by
      rw [← heffect.complete_iff hkeys hc, ← hperformed]
    rw [hiff, forall_eq_some_iff huser]

end Effects

/-- In a run, the rows found from a ticket are at all times those of what was done
with it, if and only if no ticket is closed without a resolution and no post is
deleted that has actions of its own. -/
theorem runAudit_complete_iff (s : Audit) (visits : List TicketVisit) (hkeys : s.db.ActionKeys)
    (h : s.Complete) :
    (∀ pre post, visits = pre ++ post → (runAudit s pre).Complete) ↔
    ∀ pre v post, visits = pre ++ v :: post →
      ∀ user, (runTickets s.db pre).users.get? v.user = some user →
        (runTickets s.db pre).KeepsTrail user v.request := by
  simp only [← runAudit_db]
  exact serveAll_good_iff_of_keeps (J := fun s : Audit => s.db.ActionKeys)
    (C := fun (s : Audit) (v : TicketVisit) =>
      ∀ user, s.db.users.get? v.user = some user → s.db.KeepsTrail user v.request)
    (fun _ v hkeys => Audit.actionKeys_serve hkeys v) (fun _ v hkeys hc => hc.serve_iff hkeys v)
    visits hkeys h

theorem helpDesk_actionKeys : helpDesk.ActionKeys :=
  ⟨fun _ ha => absurd ha List.not_mem_nil, fun _ ha => absurd ha List.not_mem_nil,
    fun _ hp => absurd hp List.not_mem_nil⟩

theorem helpDesk_complete : Audit.Complete ⟨helpDesk, []⟩ := fun _ => List.Perm.nil

/-- The fitter takes on the leak before the operator's reply, which is then deleted. -/
theorem runAudit_complete_iff_helpDesk :
    helpDesk.ActionKeys ∧ Audit.Complete ⟨helpDesk, []⟩ ∧
    ∀ pre post, [leakVisit, ⟨2, 15, .claim 1⟩, leakReply, ⟨3, 30, .deletePost true 1⟩] = pre ++ post →
      (runAudit ⟨helpDesk, []⟩ pre).Complete := by
  refine ⟨helpDesk_actionKeys, helpDesk_complete,
    (runAudit_complete_iff _ _ helpDesk_actionKeys helpDesk_complete).mpr ?_⟩
  simp only [forall_split_cons, forall_split_nil, and_true]
  refine ⟨fun _ _ => trivial, fun _ _ => trivial, fun _ _ => trivial, ?_⟩
  intro user _ post _ ticket _ a ha hpost
  have hnone : ∀ a ∈ (runTickets helpDesk [leakVisit, ⟨2, 15, .claim 1⟩, leakReply]).actions.rows,
      a.postId = none := by decide +kernel
  exact absurd (hpost.symm.trans (hnone a ha)) (Option.some_ne_none _)

/-- The fitter takes on the leak after the operator's reply, and with the reply it is
forgotten who did. -/
theorem deletePost_loses_action :
    ¬ (runAudit ⟨helpDesk, []⟩
      [leakVisit, leakReply, ⟨2, 25, .claim 1⟩, ⟨3, 30, .deletePost true 1⟩]).Complete := by
  intro h
  have hlen := (h 1).length_eq
  revert hlen
  decide +kernel

end Medusa
