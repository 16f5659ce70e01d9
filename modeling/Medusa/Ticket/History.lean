import Medusa.Ticket.Status
import Medusa.Versions

/-! The history of a ticket or a post: what the requests of a run make of its content is
what a sequence of edits makes of a text, and the rows of the history are the versions that
are replaced, under the name of the last editor. -/

namespace Medusa

open Relational Versions

inductive Subject
  | ticket (id : Nat)
  | post (id : Nat)
deriving DecidableEq

def Subject.owns : Subject → FlicketHistory → Bool
  | ticket id, h => h.topicId == some id
  | post id, h => h.postId == some id

def Subject.DeletedBy : Subject → TicketRequest → Prop
  | post id, .deletePost _ postid => postid = id
  | _, _ => False

/-- The fields of a ticket or a post that its history depends on. -/
structure Writing where
  content : String
  modified : Option Nat
  started : Option Nat
deriving DecidableEq

def FlicketTicket.writing (t : FlicketTicket) : Writing :=
  ⟨t.description, t.modifiedId, t.startedId⟩

def FlicketPost.writing (p : FlicketPost) : Writing := ⟨p.content, p.modifiedId, p.userId⟩

/-- The text as a draft by an author, who is not stored. -/
def Writing.draft (w : Writing) (author : Option Nat) : Draft String (Option Nat) :=
  ⟨w.content, author, lastAuthor w.modified w.started⟩

namespace TicketDb

def writing (db : TicketDb) : Subject → Option Writing
  | .ticket id => (db.tickets.get? id).map FlicketTicket.writing
  | .post id => (db.posts.get? id).map FlicketPost.writing

/-- The rows of the history of the subject, in order: a content and a user. -/
def versions (db : TicketDb) (subject : Subject) : List (String × Option Nat) :=
  (db.histories.rows.filter subject.owns).map (fun h => (h.originalContent, h.userId))

/-- What a request of the user edits, if it is a successful edit: the subject, its text
before, and the content after. -/
def edited? (db : TicketDb) (user : User) : TicketRequest → Option (Subject × Writing × String)
  | .editTicket ticketid form =>
    (db.editedTicket user ticketid form).map (fun t => (.ticket t.id, t.writing, form.content))
  | .editPost postid form =>
    (db.editedPost user postid form).map (fun p => (.post p.id, p.writing, form.content))
  | _ => none

def edit? (db : TicketDb) (user : User) (subject : Subject) (r : TicketRequest) :
    Option (Edit String (Option Nat)) := do
  let (s, w, content) ← db.edited? user r
  guard (s = subject)
  pure ⟨content, some user.id, lastAuthor (some user.id) w.started⟩

end TicketDb

def TicketVisit.edit? (db : TicketDb) (subject : Subject) (v : TicketVisit) :
    Option (Edit String (Option Nat)) :=
  (db.users.get? v.user).bind (fun user => db.edit? user subject v.request)

/-- The successful edits of the subject in a run, in order. -/
def TicketDb.editsOf (subject : Subject) :
    TicketDb → List TicketVisit → List (Edit String (Option Nat))
  | _, [] => []
  | db, v :: rest =>
    (v.edit? db subject).toList ++ editsOf subject (serve TicketVisit.commit db v) rest

section Effects

variable {db db' : TicketDb} {user : User} {now : Nat} {r : TicketRequest}

/-- Texts that are there stay, apart from a deleted one, and no history is written. -/
structure SameTexts (r : TicketRequest) (db db' : TicketDb) : Prop where
  writing : ∀ s w, ¬ Subject.DeletedBy s r → db.writing s = some w → db'.writing s = some w
  versions : ∀ s, db'.versions s = db.versions s

/-- One text gets a new content, and the history gets the old one if it differs. -/
structure EditedText (user : User) (s : Subject) (w : Writing) (content : String)
    (db db' : TicketDb) : Prop where
  before : db.writing s = some w
  after : db'.writing s = some ⟨content, some user.id, w.started⟩
  others : ∀ s', s' ≠ s → db'.writing s' = db.writing s'
  versions : ∀ s', db'.versions s' = db.versions s' ++
    if s = s' ∧ w.content ≠ content then [(w.content, lastAuthor w.modified w.started)] else []

theorem SameTexts.of_keeps (htickets : Table.Keeps FlicketTicket.writing db.tickets db'.tickets)
    (hposts : Table.Keeps FlicketPost.writing db.posts db'.posts)
    (hhistories : db'.histories = db.histories) : SameTexts r db db' := by
  refine ⟨?_, fun s => by unfold TicketDb.versions; rw [hhistories]⟩
  intro s w _ hw
  cases s with
  | ticket id =>
    obtain ⟨t, ht, rfl⟩ := Option.map_eq_some_iff.mp hw
    exact htickets id t ht
  | post id =>
    obtain ⟨p, hp, rfl⟩ := Option.map_eq_some_iff.mp hw
    exact hposts id p hp

theorem SameTexts.of_update {ticket : Nat} {f : FlicketTicket → FlicketTicket}
    (hf : ∀ t, (f t).id = t.id) (hwriting : ∀ t, (f t).writing = t.writing)
    (htickets : db'.tickets = db.tickets.update (fun t => t.id == ticket) f hf)
    (hposts : db'.posts = db.posts) (hhistories : db'.histories = db.histories) :
    SameTexts r db db' := by
  refine .of_keeps ?_ (by rw [hposts]; exact .refl _) hhistories
  rw [htickets]
  exact Table.keeps_update hf hwriting

theorem SameTexts.ensureSubscribed (h : SameTexts r db db') (ticket : Nat) (who : Option Nat) :
    SameTexts r db (db'.ensureSubscribed ticket who) := by
  refine ⟨?_, ?_⟩
  · intro s w hkept hw
    rw [← h.writing s w hkept hw]
    cases s <;> simp [TicketDb.writing]
  · intro s
    rw [← h.versions s]
    simp [TicketDb.versions]

theorem TicketDb.versions_addHistory (post topic : Option Nat) (content : String)
    (who : Option Nat) (s : Subject) :
    (db.addHistory post topic content who now).versions s =
      db.versions s ++
        if s.owns (newHistory post topic content who now db.histories.nextKey) then
          [(content, who)] else [] := by
  simp only [versions, addHistory, Table.rows_insert, List.filter_append, List.map_append]
  congr 1
  by_cases howns : s.owns (newHistory post topic content who now db.histories.nextKey) = true
  · rw [List.filter_cons_of_pos howns, if_pos howns]
    rfl
  · rw [List.filter_cons_of_neg howns, if_neg howns]
    rfl

theorem TicketDb.versions_noted {post topic : Option Nat} {content content' : String}
    {who : Option Nat} {s s' : Subject}
    (howns :
      s'.owns (newHistory post topic content who now db.histories.nextKey) = true ↔ s = s') :
    (if content = content' then db else
      db.addHistory post topic content who now).versions s' =
      db.versions s' ++ if s = s' ∧ content ≠ content' then [(content, who)] else [] := by
  by_cases hsame : content = content'
  · simp [hsame]
  · rw [if_neg hsame, versions_addHistory]
    simp only [howns, hsame, ne_eq, not_false_eq_true, and_true]

theorem EditedText.of_ticket {ticket : FlicketTicket} {content : String}
    {f : FlicketTicket → FlicketTicket} (hf : ∀ t, (f t).id = t.id)
    (hticket : db.tickets.get? ticket.id = some ticket)
    (hwriting : (f ticket).writing = ⟨content, some user.id, ticket.writing.started⟩)
    (htickets : db'.tickets = db.tickets.update (fun t => t.id == ticket.id) f hf)
    (hposts : db'.posts = db.posts)
    (hhistories : db'.histories = (if ticket.description = content then db else
      db.addHistory none (some ticket.id) ticket.description
        (lastAuthor ticket.modifiedId ticket.startedId) now).histories) :
    EditedText user (.ticket ticket.id) ticket.writing content db db' where
  before := by
    rw [TicketDb.writing, hticket]
    rfl
  after := by
    rw [TicketDb.writing, htickets, Table.get?_update_map, hticket]
    simpa using hwriting
  others s hs := by
    cases s with
    | ticket id =>
      have hne : ticket.id ≠ id := fun he => hs (by rw [he])
      rw [TicketDb.writing, TicketDb.writing, htickets, Table.get?_update_of_ne hf]
      intro t _ ht
      rwa [beq_iff_eq.mp ht]
    | post id => rw [TicketDb.writing, TicketDb.writing, hposts]
  versions s := by
    rw [TicketDb.versions, hhistories]
    refine TicketDb.versions_noted ?_
    cases s with
    | ticket id => simp [Subject.owns, newHistory]
    | post id => simp [Subject.owns, newHistory]

theorem EditedText.of_post {post : FlicketPost} {content : String}
    {f : FlicketPost → FlicketPost} (hf : ∀ p, (f p).id = p.id)
    (hpost : db.posts.get? post.id = some post)
    (hwriting : (f post).writing = ⟨content, some user.id, post.writing.started⟩)
    (hposts : db'.posts = db.posts.update (fun p => p.id == post.id) f hf)
    (htickets : db'.tickets = db.tickets)
    (hhistories : db'.histories = (if post.content = content then db else
      db.addHistory (some post.id) none post.content
        (lastAuthor post.modifiedId post.userId) now).histories) :
    EditedText user (.post post.id) post.writing content db db' where
  before := by
    rw [TicketDb.writing, hpost]
    rfl
  after := by
    rw [TicketDb.writing, hposts, Table.get?_update_map, hpost]
    simpa using hwriting
  others s hs := by
    cases s with
    | ticket id => rw [TicketDb.writing, TicketDb.writing, htickets]
    | post id =>
      have hne : post.id ≠ id := fun he => hs (by rw [he])
      rw [TicketDb.writing, TicketDb.writing, hposts, Table.get?_update_of_ne hf]
      intro p _ hp
      rwa [beq_iff_eq.mp hp]
  versions s := by
    rw [TicketDb.versions, hhistories]
    refine TicketDb.versions_noted ?_
    cases s with
    | ticket id => simp [Subject.owns, newHistory]
    | post id => simp [Subject.owns, newHistory]

theorem TicketDb.id_of_deletablePost {posted : Bool} {postid : Nat} {post : FlicketPost}
    (h : db.deletablePost posted postid = some post) : post.id = postid := by
  simp only [deletablePost, Option.bind_eq_bind, Option.bind_eq_some_iff, Option.pure_def,
    Option.some.injEq] at h
  obtain ⟨-, -, -, -, post', hpost, -, -, rfl⟩ := h
  exact (Table.get?_eq_some.mp hpost).2

/-- A request that is carried out edits the text that it is to edit, and no other. -/
theorem TicketEffect.texts (h : TicketEffect db user now r db') :
    (db.edited? user r = none ∧ SameTexts r db db') ∨
      ∃ s w content, db.edited? user r = some (s, w, content) ∧
        EditedText user s w content db db' := by
  cases h with
  | created =>
    exact Or.inl ⟨rfl, .of_keeps (Table.keeps_insert (newTicket_id _ _ _ _ _ _)) (.refl _) rfl⟩
  | replied hticket =>
    refine Or.inl ⟨rfl, SameTexts.ensureSubscribed ?_ _ _⟩
    exact .of_keeps (.refl _) (Table.keeps_insert (newPost_id _ _ _ _)) rfl
  | detailsSet hticket hstop =>
    -- the request ended at an upload, after its first commit and before the content
    refine Or.inl
      ⟨?_, .of_update (FlicketTicket.setDetails_id _ _ _ _) (fun _ => rfl) rfl rfl rfl⟩
    refine Option.map_eq_none_iff.mpr (Option.eq_none_iff_forall_ne_some.mpr ?_)
    intro t ht
    obtain ⟨-, -, -, -, uploads, huploads⟩ := TicketDb.editedTicket_eq_some.mp ht
    exact absurd (hstop.symm.trans huploads) (Option.some_ne_none _).symm
  | edited hticket hvalid hsite hproject hdropped hhistories =>
    have hedited := TicketDb.editedTicket_eq_some.mpr
      ⟨hticket, hvalid, ⟨_, hsite⟩, ⟨_, hproject⟩, _, hdropped⟩
    have hget := Table.get?_eq_some.mpr
      ⟨TicketDb.mem_of_openTicket (TicketDb.openTicket_of_editable hticket), rfl⟩
    refine Or.inr ⟨_, _, _, by rw [TicketDb.edited?, hedited]; rfl, ?_⟩
    exact .of_ticket (by exact fun _ => rfl) hget rfl rfl rfl hhistories
  | postEdited hpost hedited hhistories =>
    refine Or.inr ⟨_, _, _, by rw [TicketDb.edited?, hedited]; rfl, ?_⟩
    have hget := Table.get?_eq_some.mpr ⟨(Table.get?_eq_some.mp hpost).1, rfl⟩
    exact .of_post (FlicketPost.edit_id _ _ _) hget rfl rfl rfl hhistories
  | notAssigned hnone => exact Or.inl ⟨rfl, .of_keeps (.refl _) (.refl _) rfl⟩
  | opened hticket hstatus hnone =>
    exact Or.inl ⟨rfl, .of_update (FlicketTicket.setStatus_id _) (fun _ => rfl) rfl rfl rfl⟩
  | assigned hassign =>
    refine Or.inl ⟨rfl, SameTexts.ensureSubscribed ?_ _ _⟩
    exact .of_update (FlicketTicket.assign_id _ _) (fun _ => rfl) rfl rfl rfl
  | claimed hticket =>
    exact Or.inl ⟨rfl, .of_update (FlicketTicket.assign_id _ _) (fun _ => rfl) rfl rfl rfl⟩
  | released hticket =>
    exact Or.inl ⟨rfl, .of_update (FlicketTicket.assign_id _ _) (fun _ => rfl) rfl rfl rfl⟩
  | subscribed hticket =>
    exact Or.inl ⟨rfl, SameTexts.ensureSubscribed (.of_keeps (.refl _) (.refl _) rfl) _ _⟩
  | unsubscribed hticket hone => exact Or.inl ⟨rfl, .of_keeps (.refl _) (.refl _) rfl⟩
  | closeNoted hticket => exact Or.inl ⟨rfl, .of_keeps (.refl _) (.refl _) rfl⟩
  | closed hticket =>
    exact Or.inl ⟨rfl, .of_update (FlicketTicket.close_id _ _ _ _) (fun _ => rfl) rfl rfl rfl⟩
  | reopened hticket =>
    exact Or.inl ⟨rfl, .of_update (FlicketTicket.reopen_id _) (fun _ => rfl) rfl rfl rfl⟩
  | @postDeleted posted postid post hpost =>
    refine Or.inl ⟨rfl, ?_, fun s => rfl⟩
    intro s w hkept hw
    cases s with
    | ticket id => exact hw
    | post id =>
      have hne : postid ≠ id := hkept
      have hid := TicketDb.id_of_deletablePost hpost
      obtain ⟨p, hp, rfl⟩ := Option.map_eq_some_iff.mp hw
      have hmem := Table.get?_eq_some.mp hp
      have hkeep : p ∈ (db.posts.delete (fun p => p.id == post.id)).rows := by
        refine Table.mem_delete.mpr ⟨hmem.1, ?_⟩
        simp [hmem.2, hid, hne.symm]
      rw [TicketDb.writing, Table.get?_eq_some.mpr ⟨hkeep, hmem.2⟩]
      rfl

theorem TicketDb.edited?_of_handle_eq_none (h : r.handle db user now = none) :
    db.edited? user r = none := by
  cases r with
  | editTicket ticketid form =>
    cases hedited : db.editedTicket user ticketid form with
    | none => rw [edited?, hedited]; rfl
    | some ticket =>
      obtain ⟨hticket, hvalid, ⟨site, hsite⟩, ⟨project, hproject⟩, -⟩ :=
        editedTicket_eq_some.mp hedited
      simp [TicketRequest.handle, editTicket, hticket, hvalid, hsite, hproject, guard] at h
  | editPost postid form =>
    rw [TicketRequest.handle, editPost_eq] at h
    cases hedited : db.editedPost user postid form with
    | none => rw [edited?, hedited]; rfl
    | some post => simp [hedited] at h
  | _ => rfl

end Effects

/-- The ticket for the leak is there. -/
def leakDesk : TicketDb := runTickets helpDesk [leakVisit]

/-- A user writes that it is the valve. -/
def valveEdit (user : Nat) : TicketVisit :=
  ⟨user, 20, .editTicket 1 ⟨{ leakForm with content := "the valve leaks" }, "plant", 1, []⟩⟩

section Runs

variable {db : TicketDb} {subject : Subject} {d : Draft String (Option Nat)}
  {visits : List TicketVisit}

/-- The stored text is the draft, whoever its author is. -/
def TicketDb.Shows (db : TicketDb) (subject : Subject) (d : Draft String (Option Nat)) : Prop :=
  ∃ w, db.writing subject = some w ∧ w.draft d.author = d

/-- What happens to the subject is what the edits make of its draft. -/
structure Rewritten (subject : Subject) (db db' : TicketDb) (d : Draft String (Option Nat))
    (es : List (Edit String (Option Nat))) : Prop where
  shows : db'.Shows subject (d.edits es)
  versions : db'.versions subject = db.versions subject ++ d.replaced Draft.editor es

theorem Rewritten.same {db' : TicketDb} (hd : db.Shows subject d)
    (hwriting : ∀ w, db.writing subject = some w → db'.writing subject = some w)
    (hversions : db'.versions subject = db.versions subject) : Rewritten subject db db' d [] := by
  obtain ⟨w, hw, hdraft⟩ := hd
  exact ⟨⟨w, hwriting w hw, hdraft⟩, by rw [hversions]; exact (List.append_nil _).symm⟩

theorem EditedText.rewritten {db' : TicketDb} {user : User} {w : Writing} {content : String}
    (h : EditedText user subject w content db db') (hd : db.Shows subject d) :
    Rewritten subject db db' d
      [⟨content, some user.id, lastAuthor (some user.id) w.started⟩] := by
  obtain ⟨w', hw', hdraft⟩ := hd
  obtain rfl := Option.some.inj (h.before.symm.trans hw')
  have hcontent : d.content = w.content := (congrArg Draft.content hdraft).symm
  have heditor : d.editor = lastAuthor w.modified w.started := (congrArg Draft.editor hdraft).symm
  refine ⟨⟨_, h.after, rfl⟩, ?_⟩
  rw [h.versions]
  by_cases hsame : w.content = content <;>
    simp [Draft.replaced, Draft.putAside, hcontent, heditor, hsame]

theorem TicketVisit.rewritten (v : TicketVisit) (hd : db.Shows subject d)
    (hkept : ¬ subject.DeletedBy v.request) :
    Rewritten subject db (serve TicketVisit.commit db v) d (v.edit? db subject).toList := by
  cases hcommit : v.commit db with
  | none =>
    have hnone : v.edit? db subject = none := by
      refine Option.bind_eq_none_iff.mpr ?_
      intro user huser
      have hhandle : v.request.handle db user v.now = none := by
        simpa [TicketVisit.commit, huser] using hcommit
      simp [TicketDb.edit?, TicketDb.edited?_of_handle_eq_none hhandle]
    rw [serve, hcommit, hnone]
    exact .same hd (fun _ hw => hw) rfl
  | some db' =>
    obtain ⟨user, huser, heffect⟩ := TicketVisit.effect hcommit
    have hedit : v.edit? db subject = db.edit? user subject v.request := by
      rw [TicketVisit.edit?, huser, Option.bind_some]
    rw [serve, hcommit, hedit, TicketDb.edit?]
    rcases heffect.texts with ⟨hnone, hsame⟩ | ⟨s, w, content, hedited, htext⟩
    · rw [hnone]
      exact .same hd (fun w hw => hsame.writing subject w hkept hw) (hsame.versions subject)
    · rw [hedited]
      by_cases hs : s = subject
      · subst hs
        simpa [guard] using htext.rewritten hd
      · have hnot : ¬ (s = subject ∧ w.content ≠ content) := fun h => hs h.1
        simp only [Option.bind_eq_bind, Option.bind_some, guard, hs, if_false]
        refine .same hd (fun w hw => (htext.others subject (Ne.symm hs)).trans hw) ?_
        rw [Option.getD_some, htext.versions, if_neg hnot, List.append_nil]

/-- Over a whole run the text is edited by the successful edits, and the history gets the
versions that they replace. -/
theorem runTickets_rewritten (hd : db.Shows subject d)
    (hkept : ∀ v ∈ visits, ¬ subject.DeletedBy v.request) :
    Rewritten subject db (runTickets db visits) d (db.editsOf subject visits) := by
  induction visits generalizing db d with
  | nil => exact .same hd (fun _ hw => hw) rfl
  | cons v rest ih =>
    have hstep := v.rewritten hd (hkept v List.mem_cons_self)
    have hrest := ih hstep.shows (fun v' hv' => hkept v' (List.mem_cons_of_mem v hv'))
    refine ⟨?_, ?_⟩
    · have hshows := hrest.shows
      rwa [Draft.edits, Draft.edits, ← List.foldl_append] at hshows
    · have hversions := hrest.versions
      rw [hstep.versions, List.append_assoc, ← Draft.replaced_append] at hversions
      exact hversions

/-- Nothing that was written is lost: the history and the present content are all contents
in order, without repetition. -/
theorem history_complete {w : Writing} (hw : db.writing subject = some w)
    (hversions : db.versions subject = [])
    (hkept : ∀ v ∈ visits, ¬ subject.DeletedBy v.request) :
    ∃ w', (runTickets db visits).writing subject = some w' ∧
      ((runTickets db visits).versions subject).map Prod.fst ++ [w'.content] =
        (w.content :: (db.editsOf subject visits).map Edit.content).destutter (· ≠ ·) := by
  have hd : db.Shows subject (w.draft none) := ⟨w, hw, rfl⟩
  have hrun := runTickets_rewritten hd hkept
  obtain ⟨w', hw', hdraft⟩ := hrun.shows
  refine ⟨w', hw', ?_⟩
  have hcontent : w'.content = ((w.draft none).edits (db.editsOf subject visits)).content :=
    congrArg Draft.content hdraft
  rw [hrun.versions, hversions, List.nil_append, hcontent]
  exact Draft.replaced_contents Draft.editor (w.draft none) (db.editsOf subject visits)

/-- The operator and the manager write on it in turn. -/
theorem history_complete_leak :
    (∃ w, leakDesk.writing (.ticket 1) = some w ∧ w.content = "the pump leaks") ∧
    leakDesk.versions (.ticket 1) = [] ∧
    ∃ w', (runTickets leakDesk [valveEdit 3, leakEdit 1]).writing (.ticket 1) = some w' ∧
      ((runTickets leakDesk [valveEdit 3, leakEdit 1]).versions (.ticket 1)).map Prod.fst ++
        [w'.content] = ["the pump leaks", "the valve leaks", "the pump leaks"] := by
  have hw : leakDesk.writing (.ticket 1) = some ⟨"the pump leaks", none, some 1⟩ := by
    decide +kernel
  have hversions : leakDesk.versions (.ticket 1) = [] := by decide +kernel
  have hedits : (leakDesk.editsOf (.ticket 1) [valveEdit 3, leakEdit 1]).map Edit.content =
      ["the valve leaks", "the pump leaks"] := by decide +kernel
  have hkept : ∀ v ∈ [valveEdit 3, leakEdit 1], ¬ Subject.DeletedBy (.ticket 1) v.request :=
    fun _ _ => id
  have hcomplete := history_complete hw hversions hkept
  rw [hedits] at hcomplete
  exact ⟨⟨_, hw, rfl⟩, hversions, hcomplete⟩

/-- Each version in the history is under the name of its author exactly if the content is
only changed while its author is the last who edited. -/
theorem history_attributed_iff {content : String} {creator : Option Nat}
    (hnew : db.writing subject = some ⟨content, none, creator⟩)
    (hversions : db.versions subject = [])
    (hkept : ∀ v ∈ visits, ¬ subject.DeletedBy v.request) :
    (runTickets db visits).versions subject =
        Draft.replaced Draft.author ⟨content, creator, creator⟩ (db.editsOf subject visits) ↔
      ∀ done e rest, db.editsOf subject visits = done ++ e :: rest →
        (Draft.edits ⟨content, creator, creator⟩ done).content ≠ e.content →
          (Draft.edits ⟨content, creator, creator⟩ done).editor =
            (Draft.edits ⟨content, creator, creator⟩ done).author := by
  have hd : db.Shows subject ⟨content, creator, creator⟩ := ⟨_, hnew, rfl⟩
  rw [(runTickets_rewritten hd hkept).versions, hversions, List.nil_append]
  exact Draft.replaced_editor_iff _ _

/-- The manager writes on the ticket of the operator, who then writes on that. -/
theorem history_attributed_iff_leak :
    leakDesk.writing (.ticket 1) = some ⟨"the pump leaks", none, some 1⟩ ∧
    leakDesk.versions (.ticket 1) = [] ∧
    (runTickets leakDesk [valveEdit 3, leakEdit 1]).versions (.ticket 1) =
      Draft.replaced Draft.author ⟨"the pump leaks", some 1, some 1⟩
        (leakDesk.editsOf (.ticket 1) [valveEdit 3, leakEdit 1]) := by
  have hw : leakDesk.writing (.ticket 1) = some ⟨"the pump leaks", none, some 1⟩ := by
    decide +kernel
  have hversions : leakDesk.versions (.ticket 1) = [] := by decide +kernel
  have hedits : leakDesk.editsOf (.ticket 1) [valveEdit 3, leakEdit 1] =
      [⟨"the valve leaks", some 3, some 3⟩, ⟨"the pump leaks", some 1, some 1⟩] := by
    decide +kernel
  have hkept : ∀ v ∈ [valveEdit 3, leakEdit 1], ¬ Subject.DeletedBy (.ticket 1) v.request :=
    fun _ _ => id
  refine ⟨hw, hversions, (history_attributed_iff hw hversions hkept).mpr ?_⟩
  rw [hedits]
  simp only [forall_split_cons, forall_split_nil, and_true]
  exact ⟨fun _ => rfl, fun _ => by decide⟩

/-- The manager only changes the title, and the words of the operator become theirs. -/
theorem history_credits_title_edit :
    (runTickets leakDesk [leakEdit 3, valveEdit 1]).versions (.ticket 1) =
        [("the pump leaks", some 3)] ∧
    Draft.replaced Draft.author ⟨"the pump leaks", some 1, some 1⟩
        (leakDesk.editsOf (.ticket 1) [leakEdit 3, valveEdit 1]) =
      [("the pump leaks", some 1)] := by decide +kernel

end Runs

end Medusa
