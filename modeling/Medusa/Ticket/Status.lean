import Medusa.Ticket.Effects

/-! The status of a ticket. A ticket is closed exactly while it is resolved, and a
closed ticket is changed only by reopening it. A ticket that is not closed should
be in work exactly while it is assigned; editing and reopening set the status
without regard to that. -/

namespace Medusa

open Relational

/-- What a request may make of a ticket. -/
inductive TicketWrite (db : TicketDb) (user : User) (now : Nat) :
    TicketRequest → FlicketTicket → FlicketTicket → Prop
  | detailsSet {ticketid form t site project} (hopen : db.openTicket ticketid = some t) :
    TicketWrite db user now (.editTicket ticketid form) t (t.setDetails db form site project)
  | edited {ticketid form t site project} (hopen : db.openTicket ticketid = some t) :
    TicketWrite db user now (.editTicket ticketid form) t
      ((t.setDetails db form site project).edit db form user.id now)
  | opened {ticketid assignee t} (hstatus : db.currentStatus t ≠ some "Closed") :
    TicketWrite db user now (.assign ticketid assignee) t (t.setStatus (db.findStatus "Open"))
  | assigned {ticketid assignee t recipient} (hstatus : db.currentStatus t ≠ some "Closed") :
    TicketWrite db user now (.assign ticketid assignee) t
      (t.assign recipient (db.findStatus "In Work"))
  | claimed {ticketid t} (hopen : db.openTicket ticketid = some t) :
    TicketWrite db user now (.claim ticketid) t
      (t.assign (some user.id) (db.findStatus "In Work"))
  | released {ticketid t} (hopen : db.openTicket ticketid = some t) :
    TicketWrite db user now (.release ticketid) t (t.assign none (db.findStatus "Open"))
  | closed {ticketid parts r t resolution} (hopen : db.openTicket ticketid = some t) :
    TicketWrite db user now (.closeStatus ticketid parts r) t
      (t.close (db.findStatus "Closed") resolution user.id now)
  | reopened {t} (hauthorised : t.authorised user = true) :
    TicketWrite db user now (.openStatus t.id) t (t.reopen (db.findStatus "Open"))

theorem TicketEffect.tickets {db db' : TicketDb} {user : User} {now : Nat} {r : TicketRequest}
    (h : TicketEffect db user now r db') :
    db'.tickets = db.tickets ∨
    (∃ form site project, db'.tickets = db.tickets.insert
      (newTicket db form site project user.id now) (newTicket_id _ _ _ _ _ _)) ∨
    ∃ t ∈ db.tickets.rows, ∃ f, ∃ hf : ∀ t, (f t).id = t.id,
      db'.tickets = db.tickets.update (fun t' => t'.id == t.id) f hf ∧
        TicketWrite db user now r t (f t) := by
  cases h with
  | created => exact Or.inr (Or.inl ⟨_, _, _, rfl⟩)
  | replied hticket => exact Or.inl (TicketDb.ensureSubscribed_tickets _ _ _)
  | detailsSet hticket hstop =>
    have hopen := TicketDb.openTicket_of_editable hticket
    exact Or.inr (Or.inr ⟨_, TicketDb.mem_of_openTicket hopen, _,
      FlicketTicket.setDetails_id _ _ _ _, rfl, .detailsSet hopen⟩)
  | @edited ticketid form ticket site project _ _ _ hticket =>
    have hopen := TicketDb.openTicket_of_editable hticket
    exact Or.inr (Or.inr ⟨ticket, TicketDb.mem_of_openTicket hopen,
      fun t => (t.setDetails db form site.id project.id).edit db form user.id now, fun _ => rfl, rfl,
      .edited hopen⟩)
  | postEdited hpost => exact Or.inl rfl
  | notAssigned hnone => exact Or.inl rfl
  | opened hticket hstatus hnone =>
    refine Or.inr (Or.inr ⟨_, (Table.get?_eq_some.mp hticket).1, _, FlicketTicket.setStatus_id _, rfl,
      .opened ?_⟩)
    rw [hstatus]
    exact (Option.some_ne_none _).symm
  | assigned hassign =>
    obtain ⟨hticket, hstatus, -⟩ := assignable_eq_some hassign
    exact Or.inr (Or.inr ⟨_, (Table.get?_eq_some.mp hticket).1, _, FlicketTicket.assign_id _ _,
      TicketDb.ensureSubscribed_tickets _ _ _, .assigned hstatus⟩)
  | claimed hopen =>
    exact Or.inr (Or.inr ⟨_, TicketDb.mem_of_openTicket hopen, _,
      FlicketTicket.assign_id _ _, rfl, .claimed hopen⟩)
  | released hticket =>
    have hopen := TicketDb.openTicket_of_releasable hticket
    exact Or.inr (Or.inr ⟨_, TicketDb.mem_of_openTicket hopen, _,
      FlicketTicket.assign_id _ _, rfl, .released hopen⟩)
  | subscribed hticket => exact Or.inl (TicketDb.ensureSubscribed_tickets _ _ _)
  | unsubscribed hticket hone => exact Or.inl rfl
  | closeNoted hticket => exact Or.inl rfl
  | closed hticket =>
    have hopen := TicketDb.openTicket_of_closable hticket
    exact Or.inr (Or.inr ⟨_, TicketDb.mem_of_openTicket hopen, _,
      FlicketTicket.close_id _ _ _ _, rfl, .closed hopen⟩)
  | reopened hticket =>
    obtain ⟨hget, hauthorised⟩ := TicketDb.authorised_of_openable hticket
    obtain ⟨hrow, rfl⟩ := Table.get?_eq_some.mp hget
    exact Or.inr (Or.inr ⟨_, hrow, _, FlicketTicket.reopen_id _, rfl, .reopened hauthorised⟩)
  | postDeleted hpost => exact Or.inl rfl

/-- A ticket has a date of resolution and somebody who resolved it exactly if it is closed. -/
def TicketDb.ResolvedTogether (db : TicketDb) (t : FlicketTicket) : Prop :=
  (db.currentStatus t = some "Closed" ↔ t.dateResolved.isSome = true) ∧
  (t.dateResolved.isSome = true ↔ t.resolvedById.isSome = true)

section Rows

variable {db : TicketDb} {user : User} {now ticketid : Nat} {r : TicketRequest}
  {t t' : FlicketTicket}

theorem TicketDb.unclosed_of_openTicket (h : db.openTicket ticketid = some t) :
    db.currentStatus t ≠ some "Closed" := by
  obtain ⟨-, status, hstatus, hne⟩ := openTicket_eq_some.mp h
  rw [hstatus]
  exact fun he => hne (Option.some.inj he)

theorem TicketDb.openStatus_eq (ht : t.statusId = db.findStatus "Open") :
    db.currentStatus t = some "Open" :=
  db.currentStatus_of_find (by decide) rfl ht

theorem TicketDb.workStatus_eq (ht : t.statusId = db.findStatus "In Work") :
    db.currentStatus t = some "In Work" :=
  db.currentStatus_of_find (by decide) rfl ht

/-- `edit_ticket` asks for the status in lower case. -/
theorem TicketDb.editStatus_eq (ht : t.statusId = db.findStatus "open") :
    db.currentStatus t = some "Open" :=
  db.currentStatus_of_find (by decide) (by decide) ht

theorem TicketDb.closedStatus_eq (ht : t.statusId = db.findStatus "Closed") :
    db.currentStatus t = some "Closed" :=
  db.currentStatus_of_find (by decide) rfl ht

/-- A ticket that was not closed and is not, with the same resolution. -/
theorem TicketDb.ResolvedTogether.of_unclosed (h : db.ResolvedTogether t)
    (hopen : db.currentStatus t ≠ some "Closed") (hopen' : db.currentStatus t' ≠ some "Closed")
    (hdate : t'.dateResolved = t.dateResolved) (hby : t'.resolvedById = t.resolvedById) :
    db.ResolvedTogether t' := by
  constructor
  · rw [hdate, ← h.1]
    exact iff_of_false hopen' hopen
  · rw [hdate, hby]
    exact h.2

theorem TicketWrite.together (h : TicketWrite db user now r t t') (ht : db.ResolvedTogether t) :
    db.ResolvedTogether t' := by
  have hopened : (some "Open" : Option String) ≠ some "Closed" := by decide
  have hworks : (some "In Work" : Option String) ≠ some "Closed" := by decide
  cases h with
  | detailsSet hopen =>
    have hun := TicketDb.unclosed_of_openTicket hopen
    exact ht.of_unclosed hun hun rfl rfl
  | edited hopen =>
    exact ht.of_unclosed (TicketDb.unclosed_of_openTicket hopen)
      (by rw [TicketDb.editStatus_eq rfl]; exact hopened) rfl rfl
  | opened hstatus =>
    exact ht.of_unclosed hstatus (by rw [TicketDb.openStatus_eq rfl]; exact hopened) rfl rfl
  | assigned hstatus =>
    exact ht.of_unclosed hstatus (by rw [TicketDb.workStatus_eq rfl]; exact hworks) rfl rfl
  | claimed hopen =>
    exact ht.of_unclosed (TicketDb.unclosed_of_openTicket hopen)
      (by rw [TicketDb.workStatus_eq rfl]; exact hworks) rfl rfl
  | released hopen =>
    exact ht.of_unclosed (TicketDb.unclosed_of_openTicket hopen)
      (by rw [TicketDb.openStatus_eq rfl]; exact hopened) rfl rfl
  | closed hopen => exact ⟨iff_of_true (TicketDb.closedStatus_eq rfl) rfl, iff_of_true rfl rfl⟩
  | reopened hauthorised =>
    refine ⟨iff_of_false ?_ Bool.false_ne_true, iff_of_false Bool.false_ne_true Bool.false_ne_true⟩
    rw [TicketDb.openStatus_eq rfl]
    exact hopened

/-- A closed ticket is written only by a request to reopen it. -/
theorem TicketWrite.closed_cases (h : TicketWrite db user now r t t')
    (hclosed : db.currentStatus t = some "Closed") :
    t.authorised user = true ∧ r = .openStatus t.id := by
  cases h with
  | detailsSet hopen => exact absurd hclosed (TicketDb.unclosed_of_openTicket hopen)
  | edited hopen => exact absurd hclosed (TicketDb.unclosed_of_openTicket hopen)
  | opened hstatus => exact absurd hclosed hstatus
  | assigned hstatus => exact absurd hclosed hstatus
  | claimed hopen => exact absurd hclosed (TicketDb.unclosed_of_openTicket hopen)
  | released hopen => exact absurd hclosed (TicketDb.unclosed_of_openTicket hopen)
  | closed hopen => exact absurd hclosed (TicketDb.unclosed_of_openTicket hopen)
  | reopened hauthorised => exact ⟨hauthorised, rfl⟩

end Rows

section Runs

variable {db db' : TicketDb} {user : User} {now : Nat} {r : TicketRequest}

theorem TicketEffect.together (h : TicketEffect db user now r db')
    (ht : ∀ t ∈ db.tickets.rows, db.ResolvedTogether t) :
    ∀ t ∈ db'.tickets.rows, db'.ResolvedTogether t := by
  have hsame : ∀ t, db'.ResolvedTogether t ↔ db.ResolvedTogether t := by
    intro t
    unfold TicketDb.ResolvedTogether
    rw [TicketDb.currentStatus_congr h.statuses]
  simp only [hsame]
  rcases h.tickets with he | ⟨form, site, project, he⟩ | ⟨t, hrow, f, hf, he, hwrite⟩
  · rw [he]
    exact ht
  · rw [he]
    intro t hm
    rcases Table.mem_insert.mp hm with hm | rfl
    · exact ht t hm
    · refine ⟨iff_of_false ?_ Bool.false_ne_true, iff_of_false Bool.false_ne_true Bool.false_ne_true⟩
      rw [TicketDb.openStatus_eq rfl]
      decide
  · rw [he]
    exact (Table.forall_mem_update_key_iff ht hrow hf).mpr (hwrite.together (ht t hrow))

theorem TicketEffect.closed_stays (h : TicketEffect db user now r db') {t : FlicketTicket}
    (ht : t ∈ db.tickets.rows) (hclosed : db.currentStatus t = some "Closed")
    (hnot : ¬ (t.authorised user = true ∧ r = .openStatus t.id)) : t ∈ db'.tickets.rows := by
  rcases h.tickets with he | ⟨form, site, project, he⟩ | ⟨t', hrow, f, hf, he, hwrite⟩
  · rw [he]
    exact ht
  · rw [he]
    exact Table.mem_insert.mpr (Or.inl ht)
  · rw [he]
    refine (Table.mem_update_iff hf ht).mpr ?_
    intro hid
    obtain rfl := Table.eq_of_key_eq ht hrow (beq_iff_eq.mp hid)
    exact absurd (hwrite.closed_cases hclosed) hnot

end Runs

/-- In every run, a ticket is closed exactly if it has a date of resolution, exactly if
it has somebody who resolved it; and a request leaves a closed ticket as it is, unless
it reopens the ticket for its creator, its assignee or an admin. -/
theorem runTickets_closed (db : TicketDb) (visits : List TicketVisit)
    (h : ∀ t ∈ db.tickets.rows, db.ResolvedTogether t) :
    (∀ t ∈ (runTickets db visits).tickets.rows, (runTickets db visits).ResolvedTogether t) ∧
    ∀ pre v post, visits = pre ++ v :: post →
      ∀ t ∈ (runTickets db pre).tickets.rows,
        (runTickets db pre).currentStatus t = some "Closed" →
        t ∈ (runTickets db (pre ++ [v])).tickets.rows ∨
          v.request = .openStatus t.id ∧ ∃ user, (runTickets db pre).users.get? v.user = some user ∧
            (t.startedId = some user.id ∨ t.assignedId = some user.id ∨
              user.hasRole "admin" = true) := by
  constructor
  · refine serveAll_keeps (P := fun db : TicketDb => ∀ t ∈ db.tickets.rows, db.ResolvedTogether t)
      ?_ visits h
    intro s s' v hv hs
    obtain ⟨user, -, heffect⟩ := TicketVisit.effect hv
    exact heffect.together hs
  · intro pre v post _ t ht hclosed
    unfold runTickets at ht hclosed ⊢
    rw [serveAll_concat]
    generalize serveAll TicketVisit.commit db pre = s at ht hclosed ⊢
    cases hv : v.commit s with
    | none =>
      rw [serve_none hv]
      exact Or.inl ht
    | some s' =>
      obtain ⟨user, huser, heffect⟩ := TicketVisit.effect hv
      rw [serve_some hv]
      by_cases hopen : t.authorised user = true ∧ v.request = .openStatus t.id
      · refine Or.inr ⟨hopen.2, user, huser, ?_⟩
        have hauthorised := hopen.1
        simp only [FlicketTicket.authorised, Bool.or_eq_true, beq_iff_eq] at hauthorised
        tauto
      · exact Or.inl (heffect.closed_stays ht hclosed hopen)

/-- The leak is reported, and the fitter takes it on and closes it. -/
def leakClosed : List TicketVisit :=
  [leakVisit, ⟨2, 20, .claim 1⟩, ⟨2, 30, .closeStatus 1 (some 6) (some 1)⟩]

/-- Nobody can claim the closed ticket. -/
theorem runTickets_closed_helpDesk :
    (∀ t ∈ helpDesk.tickets.rows, helpDesk.ResolvedTogether t) ∧
    ∃ t ∈ (runTickets helpDesk leakClosed).tickets.rows,
      (runTickets helpDesk leakClosed).currentStatus t = some "Closed" ∧
        t ∈ (runTickets helpDesk (leakClosed ++ [⟨1, 40, .claim 1⟩])).tickets.rows := by
  have hstart : ∀ t ∈ helpDesk.tickets.rows, helpDesk.ResolvedTogether t :=
    fun _ ht => absurd ht List.not_mem_nil
  have hclosed : ∃ t ∈ (runTickets helpDesk leakClosed).tickets.rows,
      (runTickets helpDesk leakClosed).currentStatus t = some "Closed" := by decide +kernel
  obtain ⟨t, ht, hstatus⟩ := hclosed
  refine ⟨hstart, t, ht, hstatus, ?_⟩
  rcases (runTickets_closed helpDesk (leakClosed ++ [⟨1, 40, .claim 1⟩]) hstart).2 leakClosed
    ⟨1, 40, .claim 1⟩ [] rfl t ht hstatus with hstays | ⟨hopen, -⟩
  · exact hstays
  · exact TicketRequest.noConfusion hopen

/-- A ticket that is not closed is in work while it is assigned, and open otherwise. -/
def TicketDb.Paired (db : TicketDb) (t : FlicketTicket) : Prop :=
  db.currentStatus t ≠ some "Closed" →
    db.currentStatus t = some (if t.assignedId.isSome then "In Work" else "Open")

/-- The ticket that `edit_ticket` edits to the end. -/
def TicketDb.editedTicket (db : TicketDb) (user : User) (ticketid : Nat) (form : EditForm) :
    Option FlicketTicket := do
  let ticket ← db.editable user ticketid
  guard (form.validates db ticket.id = true)
  let _ ← db.sites.one? (fun s => s.name == form.sitename)
  let _ ← db.projects.get? form.project
  let _ ← dropUploads db.uploads form.uploads
  pure ticket

/-- A ticket is edited or reopened only while nobody works on it, and it is assigned
only to a user who is there. -/
def TicketDb.KeepsPaired (db : TicketDb) (user : User) : TicketRequest → Prop
  | .editTicket ticketid form =>
    ∀ ticket, db.editedTicket user ticketid form = some ticket → ticket.assignedId = none
  | .assign ticketid assignee =>
    ∀ ticket recipient, db.assignable ticketid assignee = some (ticket, recipient) →
      recipient.isSome = true
  | .openStatus ticketid =>
    ∀ ticket, db.openable user ticketid = some ticket → ticket.assignedId = none
  | _ => True

section Pairs

variable {db db' : TicketDb} {user : User} {now ticketid : Nat} {r : TicketRequest}
  {t t' : FlicketTicket}

theorem TicketDb.editedTicket_eq_some {form : EditForm} :
    db.editedTicket user ticketid form = some t ↔
      db.editable user ticketid = some t ∧ form.validates db t.id = true ∧
        (∃ site, db.sites.one? (fun s => s.name == form.sitename) = some site) ∧
        (∃ project, db.projects.get? form.project = some project) ∧
        ∃ uploads, dropUploads db.uploads form.uploads = some uploads := by
  simp only [editedTicket, Option.bind_eq_bind, Option.bind_eq_some_iff, guard_eq_some,
    Option.pure_def, Option.some.injEq]
  constructor
  · rintro ⟨t', ht', -, hvalid, site, hsite, project, hproject, uploads, huploads, rfl⟩
    exact ⟨ht', hvalid, ⟨site, hsite⟩, ⟨project, hproject⟩, uploads, huploads⟩
  · rintro ⟨ht, hvalid, ⟨site, hsite⟩, ⟨project, hproject⟩, uploads, huploads⟩
    exact ⟨t, ht, (), hvalid, site, hsite, project, hproject, uploads, huploads, rfl⟩

theorem TicketDb.paired_of_open (hstatus : db.currentStatus t = some "Open") :
    db.Paired t ↔ t.assignedId = none := by
  unfold Paired
  rw [hstatus]
  cases t.assignedId with
  | none => simp
  | some k => simp

theorem TicketDb.paired_of_work (hstatus : db.currentStatus t = some "In Work") :
    db.Paired t ↔ t.assignedId.isSome = true := by
  unfold Paired
  rw [hstatus]
  cases t.assignedId with
  | none => simp
  | some k => simp

theorem TicketDb.paired_of_closed (hstatus : db.currentStatus t = some "Closed") : db.Paired t :=
  fun hne => absurd hstatus hne

theorem TicketDb.paired_congr (h : db'.statuses = db.statuses) : db'.Paired = db.Paired := by
  funext t
  unfold Paired
  rw [currentStatus_congr h]

/-- A request that writes one ticket keeps the pairs exactly if it keeps that one. -/
theorem TicketEffect.paired_write {f : FlicketTicket → FlicketTicket}
    (h : TicketEffect db user now r db') (ht : ∀ t ∈ db.tickets.rows, db.Paired t)
    (hrow : t ∈ db.tickets.rows) (hf : ∀ t, (f t).id = t.id)
    (htickets : db'.tickets = db.tickets.update (fun t' => t'.id == t.id) f hf) :
    (∀ t ∈ db'.tickets.rows, db'.Paired t) ↔ db.Paired (f t) := by
  rw [htickets, TicketDb.paired_congr h.statuses]
  exact Table.forall_mem_update_key_iff ht hrow hf

theorem TicketEffect.paired_same (h : TicketEffect db user now r db')
    (ht : ∀ t ∈ db.tickets.rows, db.Paired t) (htickets : db'.tickets = db.tickets) :
    ∀ t ∈ db'.tickets.rows, db'.Paired t := by
  rw [htickets, TicketDb.paired_congr h.statuses]
  exact ht

theorem TicketEffect.paired_iff (h : TicketEffect db user now r db')
    (ht : ∀ t ∈ db.tickets.rows, db.Paired t) :
    (∀ t ∈ db'.tickets.rows, db'.Paired t) ↔ db.KeepsPaired user r := by
  have heffect := h
  cases h with
  | created =>
    refine iff_of_true ?_ trivial
    rw [TicketDb.paired_congr heffect.statuses]
    intro t hm
    simp only [TicketDb.subscribe, Table.mem_insert] at hm
    rcases hm with hm | rfl
    · exact ht t hm
    · exact (TicketDb.paired_of_open (TicketDb.openStatus_eq rfl)).mpr rfl
  | replied hticket =>
    exact iff_of_true (heffect.paired_same ht (TicketDb.ensureSubscribed_tickets _ _ _)) trivial
  | detailsSet hticket hstop =>
    have hrow := TicketDb.mem_of_openTicket (TicketDb.openTicket_of_editable hticket)
    have hpaired := ht _ hrow
    refine iff_of_true
      ((heffect.paired_write ht hrow (FlicketTicket.setDetails_id _ _ _ _) rfl).mpr hpaired) ?_
    intro t' ht'
    obtain ⟨-, -, -, -, uploads, huploads⟩ := TicketDb.editedTicket_eq_some.mp ht'
    rw [hstop] at huploads
    exact absurd huploads.symm (Option.some_ne_none _)
  | @edited ticketid form ticket site project _ _ _ hticket hvalid hsite hproject hdropped =>
    have hrow := TicketDb.mem_of_openTicket (TicketDb.openTicket_of_editable hticket)
    rw [heffect.paired_write
        (f := fun t => (t.setDetails db form site.id project.id).edit db form user.id now)
        ht hrow (fun _ => rfl) rfl,
      TicketDb.paired_of_open (TicketDb.editStatus_eq rfl)]
    have hedited := TicketDb.editedTicket_eq_some.mpr
      ⟨hticket, hvalid, ⟨_, hsite⟩, ⟨_, hproject⟩, _, hdropped⟩
    exact (forall_eq_some_iff (P := fun t => t.assignedId = none) hedited).symm
  | postEdited hpost => exact iff_of_true (heffect.paired_same ht rfl) trivial
  | notAssigned hnone =>
    refine iff_of_true (heffect.paired_same ht rfl) ?_
    intro t' recipient hassign
    exact absurd (hassign.symm.trans hnone) (Option.some_ne_none _)
  | opened hticket hstatus hnone =>
    -- a ticket without a status is not paired
    have hpaired := ht _ (Table.get?_eq_some.mp hticket).1
    unfold TicketDb.Paired at hpaired
    rw [hstatus] at hpaired
    exact absurd (hpaired (Option.some_ne_none _).symm).symm (Option.some_ne_none _)
  | assigned hassign =>
    have hrow := (Table.get?_eq_some.mp (assignable_eq_some hassign).1).1
    rw [heffect.paired_write ht hrow (FlicketTicket.assign_id _ _)
        (TicketDb.ensureSubscribed_tickets _ _ _),
      TicketDb.paired_of_work (TicketDb.workStatus_eq rfl)]
    exact (forall_assignable_iff (P := fun r => r.isSome = true) hassign).symm
  | claimed hopen =>
    have hrow := TicketDb.mem_of_openTicket hopen
    refine iff_of_true ((heffect.paired_write ht hrow (FlicketTicket.assign_id _ _) rfl).mpr ?_) trivial
    exact (TicketDb.paired_of_work (TicketDb.workStatus_eq rfl)).mpr rfl
  | released hticket =>
    have hrow := TicketDb.mem_of_openTicket (TicketDb.openTicket_of_releasable hticket)
    refine iff_of_true ((heffect.paired_write ht hrow (FlicketTicket.assign_id _ _) rfl).mpr ?_) trivial
    exact (TicketDb.paired_of_open (TicketDb.openStatus_eq rfl)).mpr rfl
  | subscribed hticket =>
    exact iff_of_true (heffect.paired_same ht (TicketDb.ensureSubscribed_tickets _ _ _)) trivial
  | unsubscribed hticket hone => exact iff_of_true (heffect.paired_same ht rfl) trivial
  | closeNoted hticket => exact iff_of_true (heffect.paired_same ht rfl) trivial
  | closed hticket =>
    have hrow := TicketDb.mem_of_openTicket (TicketDb.openTicket_of_closable hticket)
    refine iff_of_true
      ((heffect.paired_write ht hrow (FlicketTicket.close_id _ _ _ _) rfl).mpr ?_) trivial
    exact TicketDb.paired_of_closed (TicketDb.closedStatus_eq rfl)
  | reopened hticket =>
    have hrow := (Table.get?_eq_some.mp (TicketDb.authorised_of_openable hticket).1).1
    rw [heffect.paired_write ht hrow (FlicketTicket.reopen_id _) rfl,
      TicketDb.paired_of_open (TicketDb.openStatus_eq rfl)]
    exact (forall_eq_some_iff (P := fun t => t.assignedId = none) hticket).symm
  | postDeleted hpost => exact iff_of_true (heffect.paired_same ht rfl) trivial

/-- A request that commits nothing passed none of the guards before a write. -/
theorem TicketDb.keepsPaired_of_none (h : r.handle db user now = none) : db.KeepsPaired user r := by
  cases r with
  | editTicket ticketid form =>
    intro ticket hedited
    obtain ⟨hticket, hvalid, ⟨site, hsite⟩, ⟨project, hproject⟩, -⟩ := editedTicket_eq_some.mp hedited
    simp [TicketRequest.handle, editTicket, hticket, hvalid, hsite, hproject, guard] at h
  | assign ticketid assignee =>
    intro ticket recipient hassign
    exact absurd h (ticketAssign_ne_none hassign)
  | openStatus ticketid =>
    intro ticket hopen
    simp [TicketRequest.handle, openStatus, hopen] at h
  | _ => trivial

theorem TicketVisit.paired_iff (v : TicketVisit) (ht : ∀ t ∈ db.tickets.rows, db.Paired t) :
    (∀ t ∈ (serve TicketVisit.commit db v).tickets.rows,
      (serve TicketVisit.commit db v).Paired t) ↔
      ∀ user, db.users.get? v.user = some user → db.KeepsPaired user v.request :=
  v.serve_iff (I := fun db : TicketDb => ∀ t ∈ db.tickets.rows, db.Paired t) ht
    (fun _ hnone => TicketDb.keepsPaired_of_none hnone) (fun _ _ heffect => heffect.paired_iff ht)

end Pairs

/-- A run keeps every ticket that is not closed in work exactly while it is assigned,
if and only if no request edits or reopens an assigned ticket or assigns a ticket to
nobody. -/
theorem runTickets_paired_iff (db : TicketDb) (visits : List TicketVisit)
    (h : ∀ t ∈ db.tickets.rows, db.Paired t) :
    (∀ pre post, visits = pre ++ post →
      ∀ t ∈ (runTickets db pre).tickets.rows, (runTickets db pre).Paired t) ↔
    ∀ pre v post, visits = pre ++ v :: post →
      ∀ user, (runTickets db pre).users.get? v.user = some user →
        (runTickets db pre).KeepsPaired user v.request :=
  serveAll_good_iff (I := fun db : TicketDb => ∀ t ∈ db.tickets.rows, db.Paired t)
    (C := fun (db : TicketDb) (v : TicketVisit) =>
      ∀ user, db.users.get? v.user = some user → db.KeepsPaired user v.request)
    (fun _ v ht => TicketVisit.paired_iff v ht) visits h

/-- The operator gives the ticket another title, or the fitter does. -/
def leakEdit (user : Nat) : TicketVisit :=
  ⟨user, 15, .editTicket 1 ⟨{ leakForm with title := "big leak" }, "plant", 1, []⟩⟩

theorem runTickets_paired_iff_helpDesk :
    (∀ t ∈ helpDesk.tickets.rows, helpDesk.Paired t) ∧
    ∀ pre post, [leakVisit, leakEdit 1, ⟨2, 20, .claim 1⟩] = pre ++ post →
      ∀ t ∈ (runTickets helpDesk pre).tickets.rows, (runTickets helpDesk pre).Paired t := by
  have hstart : ∀ t ∈ helpDesk.tickets.rows, helpDesk.Paired t :=
    fun _ ht => absurd ht List.not_mem_nil
  refine ⟨hstart, (runTickets_paired_iff helpDesk _ hstart).mpr ?_⟩
  simp only [forall_split_cons, forall_split_nil, and_true]
  refine ⟨fun _ _ => trivial, ?_, fun _ _ => trivial⟩
  intro user _ ticket hedited
  have hnone : ∀ t ∈ (runTickets helpDesk [leakVisit]).tickets.rows, t.assignedId = none := by
    decide +kernel
  exact hnone ticket (TicketDb.mem_of_openTicket (TicketDb.openTicket_of_editable
    (TicketDb.editedTicket_eq_some.mp hedited).1))

/-- The fitter edits the ticket they work on, and it is open again. -/
theorem editTicket_opens_assigned :
    ∃ t ∈ (runTickets helpDesk [leakVisit, ⟨2, 12, .claim 1⟩, leakEdit 2]).tickets.rows,
      ¬ (runTickets helpDesk [leakVisit, ⟨2, 12, .claim 1⟩, leakEdit 2]).Paired t := by
  have hopen : ∃ t ∈ (runTickets helpDesk [leakVisit, ⟨2, 12, .claim 1⟩, leakEdit 2]).tickets.rows,
      (runTickets helpDesk [leakVisit, ⟨2, 12, .claim 1⟩, leakEdit 2]).currentStatus t =
        some "Open" ∧ t.assignedId = some 2 := by decide +kernel
  obtain ⟨t, ht, hstatus, hassigned⟩ := hopen
  refine ⟨t, ht, ?_⟩
  rw [TicketDb.paired_of_open hstatus, hassigned]
  exact Option.some_ne_none 2

end Medusa
