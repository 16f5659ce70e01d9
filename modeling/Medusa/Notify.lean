import Medusa.SaveResult

/-! The event handler and the notifier. The mail server and the Inbuildings
service are outside the program: a `Transport` says how they answer during one
execution of an algorithm. -/

namespace Medusa

inductive Exn
  | algorithm
  | attributeError
  | mail
  | cmms
  | detachedInstance
deriving DecidableEq

structure Alert where
  asset : String
  issue : String
  timestamp : Nat
deriving DecidableEq

structure Job where
  key : String
  mode : String
  eid : String
  pid : String
  body : String
deriving DecidableEq

/-- What leaves the program for a result. `notify` marks the call of
`issue_notify`, the other two are an e-mail and a work order that went out. -/
inductive Event
  | notify (result : Nat)
  | mail (result : Nat) (address : String) (data : Alert)
  | workOrder (result : Nat) (job : Job)
deriving DecidableEq

/-- The answer to a posted job. Only a lost connection is caught. -/
inductive Post
  | delivered
  | connectionError
  | raises
deriving DecidableEq

/-- `mailFailure` is the number of e-mails that go out before loading or filling
in the template, or sending, raises. It is `none` if nothing raises. -/
structure Transport where
  mailFailure : Option Nat
  post : Post

def Transport.reliable : Transport := ⟨none, .delivered⟩

abbrev Sends := List Event × Option Exn

def Sends.andThen (a b : Sends) : Sends :=
  match a.2 with
  | some e => (a.1, some e)
  | none => (a.1 ++ b.1, b.2)

section

variable (transport : Transport) (site : Site) (asset : Asset) (algorithm : Algorithm)
  (issue : Result)

def issueAlert : Alert := ⟨asset.name, algorithm.descr, issue.recentTimestamp⟩

def sendMailIssue : Sends :=
  let mails := site.emails.map
    (fun address => Event.mail issue.id address (issueAlert asset algorithm issue))
  match transport.mailFailure with
  | none => (mails, none)
  | some n => (mails.take n, some .mail)

/-- The job of `inbuildings_raise_job`, with the description of the algorithm as
message and the current priority of the asset. -/
def inbuildingsJob (key : String) : Job where
  key := key
  mode := "raisenewjob"
  eid := match asset.inbuildings with
    | some id => toString id
    | none => ""
  pid := toString asset.priority
  body := match asset.inbuildings with
    | some _ => algorithm.descr
    | none => asset.name ++ ": " ++ algorithm.descr

def inbuildingsRaiseJob (key : String) : Sends :=
  match transport.post with
  | .delivered => ([.workOrder issue.id (inbuildingsJob asset algorithm key)], none)
  | .connectionError => ([], none)
  | .raises => ([], some .cmms)

def sendWO : Sends :=
  match site.inbuildingsConfig with
  | none => ([], some .attributeError)
  | some config =>
    if config.enabled then inbuildingsRaiseJob transport asset algorithm issue config.key
    else ([], none)

def issueNotify : Sends :=
  Sends.andThen
    (if issue.priority < site.emailTriggerPriority then
      sendMailIssue transport site asset algorithm issue else ([], none))
    (if issue.priority < site.cmmsTriggerPriority then
      sendWO transport site asset algorithm issue else ([], none))

def testPriority : Bool :=
  decide (issue.priority < max site.emailTriggerPriority site.cmmsTriggerPriority)

def testForNotification : Bool :=
  issue.passed == false && testPriority site issue && issue.occurances == 1

end

/-- `handle_result` on the saved result of an asset. The site is looked at only
for a failed check. -/
def handleResult (db : Db) (transport : Transport) (asset : Asset) (algorithm : Algorithm)
    (result : Result) : Sends :=
  if result.passed then ([], none)
  else
    match db.siteOf asset with
    | none => ([], some .attributeError)
    | some site =>
      if testForNotification site result then
        Sends.andThen ([.notify result.id], none)
          (issueNotify transport site asset algorithm result)
      else ([], none)

def Event.result : Event → Nat
  | .notify result => result
  | .mail result _ _ => result
  | .workOrder result _ => result

def Event.isNotify : Event → Bool
  | .notify _ => true
  | _ => false

theorem Sends.mem_andThen {a b : Sends} {e : Event} (h : e ∈ (a.andThen b).1) :
    e ∈ a.1 ∨ e ∈ b.1 := by
  unfold Sends.andThen at h
  split at h
  · exact Or.inl h
  · exact List.mem_append.mp h

section

variable {transport : Transport} {site : Site} {asset : Asset} {algorithm : Algorithm}
  {issue : Result}

theorem mem_sendMailIssue {e : Event}
    (h : e ∈ (sendMailIssue transport site asset algorithm issue).1) :
    ∃ address ∈ site.emails, e = .mail issue.id address (issueAlert asset algorithm issue) := by
  have hm : e ∈ site.emails.map
      (fun address => Event.mail issue.id address (issueAlert asset algorithm issue)) := by
    unfold sendMailIssue at h
    split at h
    · exact h
    · exact List.mem_of_mem_take h
  obtain ⟨address, ha, he⟩ := List.mem_map.mp hm
  exact ⟨address, ha, he.symm⟩

theorem mem_sendWO {e : Event} (h : e ∈ (sendWO transport site asset algorithm issue).1) :
    ∃ config, site.inbuildingsConfig = some config ∧ config.enabled = true ∧
      e = .workOrder issue.id (inbuildingsJob asset algorithm config.key) := by
  unfold sendWO at h
  split at h
  · simp at h
  · next config hc =>
    split at h
    · next hen =>
      refine ⟨config, hc, hen, ?_⟩
      unfold inbuildingsRaiseJob at h
      split at h
      · simpa using h
      · simp at h
      · simp at h
    · simp at h

theorem mem_issueNotify {e : Event}
    (h : e ∈ (issueNotify transport site asset algorithm issue).1) :
    (issue.priority < site.emailTriggerPriority ∧ ∃ address ∈ site.emails,
      e = .mail issue.id address (issueAlert asset algorithm issue)) ∨
    (issue.priority < site.cmmsTriggerPriority ∧ ∃ config, site.inbuildingsConfig = some config ∧
      config.enabled = true ∧ e = .workOrder issue.id (inbuildingsJob asset algorithm config.key)) := by
  rcases Sends.mem_andThen h with h | h
  · split at h
    · next hp => exact Or.inl ⟨hp, mem_sendMailIssue h⟩
    · simp at h
  · split at h
    · next hp => exact Or.inr ⟨hp, mem_sendWO h⟩
    · simp at h

theorem issueNotify_result {e : Event}
    (h : e ∈ (issueNotify transport site asset algorithm issue).1) :
    e.result = issue.id ∧ e.isNotify = false := by
  rcases mem_issueNotify h with ⟨-, address, -, rfl⟩ | ⟨-, config, -, -, rfl⟩
  · exact ⟨rfl, rfl⟩
  · exact ⟨rfl, rfl⟩

theorem issueNotify_mail (hmail : transport.mailFailure = none)
    (hp : issue.priority < site.emailTriggerPriority) {address : String}
    (ha : address ∈ site.emails) :
    .mail issue.id address (issueAlert asset algorithm issue) ∈
      (issueNotify transport site asset algorithm issue).1 := by
  have hs : sendMailIssue transport site asset algorithm issue = (site.emails.map
      (fun address => Event.mail issue.id address (issueAlert asset algorithm issue)), none) := by
    simp [sendMailIssue, hmail]
  simp only [issueNotify, hp, if_true, hs, Sends.andThen]
  exact List.mem_append_left _ (List.mem_map.mpr ⟨address, ha, rfl⟩)

theorem issueNotify_workOrder {config : InbuildingsConfig}
    (hp : issue.priority < site.cmmsTriggerPriority)
    (hc : site.inbuildingsConfig = some config) (hen : config.enabled = true) :
    .workOrder issue.id (inbuildingsJob asset algorithm config.key) ∈
      (issueNotify .reliable site asset algorithm issue).1 := by
  have hs : sendWO .reliable site asset algorithm issue =
      ([.workOrder issue.id (inbuildingsJob asset algorithm config.key)], none) := by
    simp [sendWO, hc, hen, inbuildingsRaiseJob, Transport.reliable]
  simp only [issueNotify, hp, if_true, hs]
  split
  · simp [sendMailIssue, Transport.reliable, Sends.andThen]
  · simp [Sends.andThen]

theorem mail_mem_issueNotify_iff {address : String} {data : Alert} :
    .mail issue.id address data ∈ (issueNotify .reliable site asset algorithm issue).1 ↔
      issue.priority < site.emailTriggerPriority ∧ address ∈ site.emails ∧
        data = issueAlert asset algorithm issue := by
  constructor
  · intro h
    rcases mem_issueNotify h with ⟨hp, address', ha, he⟩ | ⟨-, config, -, -, he⟩
    · obtain ⟨-, rfl, rfl⟩ := Event.mail.inj he
      exact ⟨hp, ha, rfl⟩
    · cases he
  · rintro ⟨hp, ha, rfl⟩
    exact issueNotify_mail rfl hp ha

theorem workOrder_mem_issueNotify_iff {job : Job} :
    .workOrder issue.id job ∈ (issueNotify .reliable site asset algorithm issue).1 ↔
      issue.priority < site.cmmsTriggerPriority ∧
        ∃ config, site.inbuildingsConfig = some config ∧ config.enabled = true ∧
          job = inbuildingsJob asset algorithm config.key := by
  constructor
  · intro h
    rcases mem_issueNotify h with ⟨-, address, -, he⟩ | ⟨hp, config, hc, hen, he⟩
    · cases he
    · obtain ⟨-, rfl⟩ := Event.workOrder.inj he
      exact ⟨hp, config, hc, hen, rfl⟩
  · rintro ⟨hp, config, hc, hen, rfl⟩
    exact issueNotify_workOrder hp hc hen

end

theorem handleResult_sends (db : Db) (transport : Transport) (asset : Asset)
    (algorithm : Algorithm) (result : Result) :
    (handleResult db transport asset algorithm result).1 = [] ∧
      (∀ site, db.siteOf asset = some site → testForNotification site result = false) ∨
    ∃ site, db.siteOf asset = some site ∧ testForNotification site result = true ∧
      (handleResult db transport asset algorithm result).1 =
        .notify result.id :: (issueNotify transport site asset algorithm result).1 := by
  unfold handleResult
  split
  · next hp =>
    refine Or.inl ⟨rfl, ?_⟩
    intro site _
    simp [testForNotification, hp]
  · split
    · next hs =>
      refine Or.inl ⟨rfl, ?_⟩
      intro site hsite
      simp [hs] at hsite
    · next site hs =>
      split
      · next ht => exact Or.inr ⟨site, hs, ht, rfl⟩
      · next ht =>
        refine Or.inl ⟨rfl, ?_⟩
        intro site' hs'
        rw [hs, Option.some.injEq] at hs'
        rw [← hs']
        simpa using ht

theorem handleResult_result {db : Db} {transport : Transport} {asset : Asset}
    {algorithm : Algorithm} {result : Result} {e : Event}
    (h : e ∈ (handleResult db transport asset algorithm result).1) : e.result = result.id := by
  rcases handleResult_sends db transport asset algorithm result with ⟨hnil, -⟩ | ⟨site, -, -, hs⟩
  · simp [hnil] at h
  · rw [hs] at h
    rcases List.mem_cons.mp h with rfl | h
    · rfl
    · exact (issueNotify_result h).1

theorem testForNotification_iff {site : Site} {issue : Result} :
    testForNotification site issue = true ↔ issue.passed = false ∧
      issue.priority < max site.emailTriggerPriority site.cmmsTriggerPriority ∧
      issue.occurances = 1 := by
  simp [testForNotification, testPriority, and_assoc]

theorem handleResult_mail {db : Db} {transport : Transport} {asset : Asset}
    {algorithm : Algorithm} {result : Result} {site : Site} (hsite : db.siteOf asset = some site)
    (hpassed : result.passed = false) (hone : result.occurances = 1)
    (hp : result.priority < site.emailTriggerPriority) (hmail : transport.mailFailure = none)
    {address : String} (haddress : address ∈ site.emails) :
    .mail result.id address (issueAlert asset algorithm result) ∈
      (handleResult db transport asset algorithm result).1 := by
  have htest : testForNotification site result = true :=
    testForNotification_iff.mpr ⟨hpassed, lt_of_lt_of_le hp (le_max_left _ _), hone⟩
  rcases handleResult_sends db transport asset algorithm result with
    ⟨-, hno⟩ | ⟨site', hsite', -, hs⟩
  · simp [hno site hsite] at htest
  · have heq : site' = site := Option.some.inj (hsite'.symm.trans hsite)
    rw [hs, heq]
    exact List.mem_cons_of_mem _ (issueNotify_mail hmail hp haddress)

/-- An event without the result that it is about and the time that it states. -/
inductive Notice
  | notify
  | mail (address asset issue : String)
  | workOrder (job : Job)
deriving DecidableEq

def Event.notice : Event → Notice
  | .notify _ => .notify
  | .mail _ address data => .mail address data.asset data.issue
  | .workOrder _ job => .workOrder job

def Sends.notices (s : Sends) : List Notice × Option Exn := (s.1.map Event.notice, s.2)

theorem Sends.notices_andThen {a a' b b' : Sends} (ha : a.notices = a'.notices)
    (hb : b.notices = b'.notices) : (a.andThen b).notices = (a'.andThen b').notices := by
  simp only [Sends.notices, Prod.mk.injEq] at ha hb
  simp only [Sends.notices, Sends.andThen, ha.2]
  cases a'.2 with
  | some e => simp [ha.1]
  | none => simp [ha.1, hb.1, hb.2]

section Notices

variable (transport : Transport) (site : Site) (asset : Asset) (algorithm : Algorithm)
  {r r' : Result}

theorem sendMailIssue_notices (r r' : Result) :
    (sendMailIssue transport site asset algorithm r).notices =
      (sendMailIssue transport site asset algorithm r').notices := by
  unfold sendMailIssue
  cases transport.mailFailure with
  | none => simp [Sends.notices, Function.comp_def, Event.notice, issueAlert]
  | some n => simp [Sends.notices, Function.comp_def, Event.notice, issueAlert, List.map_take]

theorem sendWO_notices (r r' : Result) :
    (sendWO transport site asset algorithm r).notices =
      (sendWO transport site asset algorithm r').notices := by
  unfold sendWO inbuildingsRaiseJob
  split
  · rfl
  · split
    · cases transport.post <;> rfl
    · rfl

theorem issueNotify_notices (hpriority : r.priority = r'.priority) :
    (issueNotify transport site asset algorithm r).notices =
      (issueNotify transport site asset algorithm r').notices := by
  unfold issueNotify
  rw [hpriority]
  apply Sends.notices_andThen
  · split
    · exact sendMailIssue_notices transport site asset algorithm r r'
    · rfl
  · split
    · exact sendWO_notices transport site asset algorithm r r'
    · rfl

/-- What is sent for a result, and whether sending raises, depends on its verdict, its
priority and its count. -/
theorem handleResult_notices (db : Db) (hpassed : r.passed = r'.passed)
    (hpriority : r.priority = r'.priority) (hocc : r.occurances = r'.occurances) :
    (handleResult db transport asset algorithm r).notices =
      (handleResult db transport asset algorithm r').notices := by
  unfold handleResult
  rw [hpassed]
  split
  · rfl
  · split
    · rfl
    · next site _ =>
      have htest : testForNotification site r = testForNotification site r' := by
        simp [testForNotification, testPriority, hpassed, hpriority, hocc]
      rw [htest]
      split
      · exact Sends.notices_andThen rfl
          (issueNotify_notices transport site asset algorithm hpriority)
      · rfl

end Notices

end Medusa
