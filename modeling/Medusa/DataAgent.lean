import Mathlib.Logic.Function.Basic
import Medusa.Credentials
import Medusa.Separated
import Medusa.Table
import Medusa.Template

/-! The data agents of all sites: the requests that make and revoke their access keys,
and the download of the configuration of an agent. A configuration is made from template
files, whose placeholders are replaced one setting after the other, in the order in which
the dictionary of the settings happens to be traversed. -/

namespace Medusa

open Relational

structure KeyRequest where
  siteId : Nat
  isChecked : Int
  -- the key that AWS would make
  key : AccessKey
deriving DecidableEq

/-- The users of the AWS account by their names, and the uploader rows by their sites. -/
structure DataAgents where
  accounts : String → Account
  uploaders : Nat → Option SiteDataUploader

def DataAgents.empty : DataAgents := ⟨fun _ => none, fun _ => none⟩

def DataAgents.site (s : DataAgents) (base : String) (siteId : Nat) : SiteAgent :=
  ⟨s.accounts (AwsIamManager.makeIamUsername base siteId), s.uploaders siteId⟩

def DataAgents.generate (limit : Nat) (base : String) (s : DataAgents) (r : KeyRequest) :
    DataAgents :=
  let agent := generateAccessKeys limit base r.siteId r.isChecked r.key (s.site base r.siteId)
  { accounts := Function.update s.accounts (AwsIamManager.makeIamUsername base r.siteId) agent.account
    uploaders := Function.update s.uploaders r.siteId agent.uploader }

/-- The part of the configuration of the application that goes into that of an agent, as
`str` shows it. -/
structure AppConfig where
  awsS3SitedataBucket : String
  awsS3SitedataPath : String
  awsS3Region : String
  mailDefaultSender : String
  adminEmail : String
  mailServer : String
  mailPort : String
deriving DecidableEq

def pyStr : Option String → String
  | none => "None"
  | some text => text

namespace ConfigGenerator

def getTemplatePlaceholder (key o c : String) : String := o ++ key ++ c

def replace (data old new : String) : String :=
  String.ofList (replaceAll old.toList new.toList data.toList)

def replacePlaceholder (data key value : String) : String :=
  let newData := replace data (getTemplatePlaceholder key "\x7b\x7b " " \x7d\x7d") value
  replace newData (getTemplatePlaceholder key "\x7b\x7b" "\x7d\x7d") value

def generateConfig (template : String) (placeholders : List (String × String)) : String :=
  placeholders.foldl (fun template p => replacePlaceholder template p.1 p.2) template

end ConfigGenerator

/-- A row that is not there has no user name, which cannot be joined. Neither can the
domain of a sender without one. -/
def configSettings (config : AppConfig) (uploader : Option SiteDataUploader) (siteId : Nat) :
    Option (List (String × String)) := do
  let uploader ← uploader
  let domain ← (config.mailDefaultSender.toList.splitOn '@')[1]?
  pure [
    ("AWS_S3_SITEDATA_BUCKET", config.awsS3SitedataBucket),
    ("AWS_S3_SITEDATA_PATH", config.awsS3SitedataPath),
    ("AWS_S3_REGION", config.awsS3Region),
    ("AWS_ACCESS_KEY_ID", pyStr uploader.awsAccessKeyId),
    ("AWS_SECRET_ACCESS_KEY", pyStr uploader.awsSecretAccessKey),
    ("SMTP_SENDER", uploader.awsUsername ++ "@" ++ String.ofList domain),
    ("SMTP_RECIPIENTS", config.adminEmail),
    ("SMTP_HOST", config.mailServer),
    ("SMTP_PORT", config.mailPort),
    ("SMTP_USERNAME", ""),
    ("SMTP_PASSWORD", ""),
    ("SITE_ID", toString siteId)]

/-- The files of the zip, each under the name of its template. -/
def downloadDataagentConfig (config : AppConfig) (templates : List (String × String))
    (order : IterationOrder (String × String)) (s : DataAgents) (siteId : Nat) :
    Option (List (String × String)) := do
  let settings ← configSettings config (s.uploaders siteId) siteId
  pure (templates.map (fun file =>
    (file.1, ConfigGenerator.generateConfig file.2 (order.visit settings))))

/-- A name without a blank or a brace. -/
def plainKey (key : String) : Bool :=
  key.toList.all (fun c => c != ' ' && c != '\x7b' && c != '\x7d')

/-- A place of a template, with or without blanks between the braces and the key. -/
structure Placeholder where
  key : String
  spaced : Bool
  plain : plainKey key = true
deriving DecidableEq

def Placeholder.mark (p : Placeholder) : List Char :=
  if p.spaced then "\x7b\x7b ".toList ++ p.key.toList ++ " \x7d\x7d".toList
  else "\x7b\x7b".toList ++ p.key.toList ++ "\x7d\x7d".toList

/-- The brace that every placeholder starts with. -/
def NoBrace (text : String) : Prop := '\x7b' ∉ text.toList

instance (text : String) : Decidable (NoBrace text) :=
  inferInstanceAs (Decidable ('\x7b' ∉ text.toList))

/-- What a file of the download is to contain: the text of the template, with the value
of the setting in each place that has one. -/
def configText (settings : List (String × String)) (template : List (Segment Placeholder Char)) :
    List Char :=
  template.flatMap (fun segment => match segment with
    | .text t => t
    | .hole p => match settings.lookup p.key with
      | some value => value.toList
      | none => p.mark)

theorem eq_of_prefix_append_cons {α : Type*} {a : α} {k k' x y : List α} (hk : a ∉ k) (hk' : a ∉ k')
    (h : k ++ a :: x <+: k' ++ a :: y) : k = k' := by
  induction k generalizing k' with
  | nil =>
    cases k' with
    | nil => rfl
    | cons b k' =>
      rw [List.nil_append, List.cons_append, List.cons_prefix_cons] at h
      exact absurd (h.1 ▸ List.mem_cons_self) hk'
  | cons b k ih =>
    cases k' with
    | nil =>
      rw [List.nil_append, List.cons_append, List.cons_prefix_cons] at h
      exact absurd (h.1 ▸ List.mem_cons_self) hk
    | cons b' k' =>
      rw [List.cons_append, List.cons_append, List.cons_prefix_cons] at h
      rw [h.1, ih (fun hm => hk (List.mem_cons_of_mem _ hm)) (fun hm => hk' (List.mem_cons_of_mem _ hm))
        h.2]

theorem Placeholder.not_mem_key (p : Placeholder) {c : Char}
    (hc : c = ' ' ∨ c = '\x7b' ∨ c = '\x7d') : c ∉ p.key.toList := by
  intro hm
  have hplain := List.all_eq_true.mp p.plain c hm
  rcases hc with rfl | rfl | rfl <;> exact absurd hplain (by decide)

/-- A blank after the braces is not the beginning of a key. -/
theorem Placeholder.spaced_ne {p : Placeholder} {x y : List Char} :
    ¬ p.key.toList ++ '\x7d' :: x <+: ' ' :: y ∧ ¬ ' ' :: y <+: p.key.toList ++ '\x7d' :: x := by
  have hblank := p.not_mem_key (Or.inl rfl)
  cases hkey : p.key.toList with
  | nil => simp [List.cons_prefix_cons]
  | cons c key =>
    rw [hkey] at hblank
    have hc : c ≠ ' ' := fun he => hblank (he ▸ List.mem_cons_self)
    simp [List.cons_prefix_cons, hc, Ne.symm hc]

theorem Placeholder.mark_spaced {p : Placeholder} (h : p.spaced = true) :
    p.mark = '\x7b' :: '\x7b' :: ' ' :: (p.key.toList ++ [' ', '\x7d', '\x7d']) := by
  rw [Placeholder.mark, if_pos h]
  simp only [String.reduceToList, List.cons_append, List.nil_append]

theorem Placeholder.mark_tight {p : Placeholder} (h : p.spaced = false) :
    p.mark = '\x7b' :: '\x7b' :: (p.key.toList ++ ['\x7d', '\x7d']) := by
  rw [Placeholder.mark, if_neg (by rw [h]; exact Bool.false_ne_true)]
  simp only [String.reduceToList, List.cons_append, List.nil_append]

theorem Placeholder.separate {p p' : Placeholder} {rest : List Char}
    (h : p.mark <+: p'.mark ++ rest) : p = p' := by
  have hkey : p.key.toList = p'.key.toList ∧ p.spaced = p'.spaced := by
    cases hs : p.spaced <;> cases hs' : p'.spaced <;>
      simp only [mark_spaced, mark_tight, hs, hs', List.cons_append, List.nil_append,
        List.append_assoc, List.cons_prefix_cons, true_and] at h
    · exact ⟨eq_of_prefix_append_cons (p.not_mem_key (by simp)) (p'.not_mem_key (by simp)) h, rfl⟩
    · exact absurd h p.spaced_ne.1
    · exact absurd h p'.spaced_ne.2
    · exact ⟨eq_of_prefix_append_cons (p.not_mem_key (by simp)) (p'.not_mem_key (by simp)) h, rfl⟩
  obtain ⟨key, spaced, plain⟩ := p
  obtain ⟨key', spaced', plain'⟩ := p'
  obtain rfl : key = key' := String.toList_injective hkey.1
  obtain rfl : spaced = spaced' := hkey.2
  rfl

def placeholders : Marks Placeholder Char where
  start := '\x7b'
  mark := Placeholder.mark
  starts := by
    intro p
    have hopen := p.not_mem_key (Or.inr (Or.inl rfl))
    cases hs : p.spaced with
    | true => exact ⟨_, p.mark_spaced hs, by simpa using hopen, by simp⟩
    | false => exact ⟨_, p.mark_tight hs, by simpa using hopen, by simp⟩
  separate := Placeholder.separate

/-- The name of a setting can stand in a placeholder, and its value starts none. -/
def Settable (setting : String × String) : Prop :=
  plainKey setting.1 = true ∧ NoBrace setting.2

def fillSetting (settings : List (String × String)) :
    Segment Placeholder Char → Segment Placeholder Char
  | .text t => .text t
  | .hole p => match settings.lookup p.key with
    | some value => .text value.toList
    | none => .hole p

theorem source_fillSetting (settings : List (String × String))
    (template : List (Segment Placeholder Char)) :
    placeholders.source (template.map (fillSetting settings)) = configText settings template := by
  rw [Marks.source, configText, List.flatMap_map]
  refine List.flatMap_congr ?_
  intro segment _
  cases segment with
  | text t => rfl
  | hole p =>
    simp only [fillSetting]
    cases settings.lookup p.key <;> rfl

theorem ConfigGenerator.replacePlaceholder_source {template : List (Segment Placeholder Char)}
    (h : placeholders.Plain template) {setting : String × String} (hset : Settable setting) :
    replacePlaceholder (String.ofList (placeholders.source template)) setting.1 setting.2 =
        String.ofList (placeholders.source (template.map (fillSetting [setting]))) ∧
      placeholders.Plain (template.map (fillSetting [setting])) := by
  obtain ⟨key, value⟩ := setting
  let spaced : Placeholder := ⟨key, true, hset.1⟩
  let tight : Placeholder := ⟨key, false, hset.1⟩
  have hvalues : ∀ x ∈ [(spaced, value.toList), (tight, value.toList)], placeholders.start ∉ x.2 := by
    intro x hx
    rcases List.mem_pair.mp hx with rfl | rfl <;> exact hset.2
  have hfill : Segment.fill [(spaced, value.toList), (tight, value.toList)] =
      fillSetting [(key, value)] := by
    funext segment
    cases segment with
    | text t => rfl
    | hole p =>
      simp only [Segment.fill, fillSetting, List.lookup_cons, List.lookup_nil]
      obtain ⟨key', b, plain⟩ := p
      by_cases hk : key' = key
      · subst hk
        cases b with
        | true => simp [spaced]
        | false =>
          have hne : ((⟨key', false, plain⟩ : Placeholder) == spaced) = false :=
            beq_eq_false_iff_ne.mpr (by simp [spaced])
          simp [hne, tight]
      · have hne : ∀ b', ((⟨key', b, plain⟩ : Placeholder) == ⟨key, b', hset.1⟩) = false := by
          intro b'
          simp [hk]
        have hkey : (key' == key) = false := beq_eq_false_iff_ne.mpr hk
        simp only [spaced, tight, hne, hkey]
  have hfilled := Marks.foldl_replaceAll_source h hvalues
  rw [hfill] at hfilled
  constructor
  · rw [← hfilled]
    simp [replacePlaceholder, replace, getTemplatePlaceholder, spaced, tight, placeholders, Placeholder.mark]
  · rw [← hfill]
    exact Marks.plain_fill h hvalues

theorem fillSetting_cons (setting : String × String) (settings : List (String × String)) :
    fillSetting settings ∘ fillSetting [setting] = fillSetting (setting :: settings) := by
  obtain ⟨key, value⟩ := setting
  funext segment
  cases segment with
  | text t => rfl
  | hole p =>
    cases hk : p.key == key <;> simp [fillSetting, List.lookup_cons, hk]

/-- The loop over the settings fills the template. -/
theorem ConfigGenerator.generateConfig_source {settings : List (String × String)}
    {template : List (Segment Placeholder Char)} (h : placeholders.Plain template)
    (hset : ∀ setting ∈ settings, Settable setting) :
    generateConfig (String.ofList (placeholders.source template)) settings =
      String.ofList (configText settings template) := by
  rw [← source_fillSetting]
  induction settings generalizing template with
  | nil =>
    have hid : fillSetting [] = id := by
      funext segment
      cases segment <;> rfl
    rw [hid, List.map_id]
    rfl
  | cons setting settings ih =>
    obtain ⟨hreplaced, hplain⟩ := replacePlaceholder_source h (hset setting List.mem_cons_self)
    have hrest := ih hplain (fun x hx => hset x (List.mem_cons_of_mem _ hx))
    rw [List.map_map, fillSetting_cons] at hrest
    rw [← hrest, ← hreplaced, generateConfig, List.foldl_cons, generateConfig]

theorem makeIamUsername_injective {base : String} {m n : Nat}
    (h : AwsIamManager.makeIamUsername base m = AwsIamManager.makeIamUsername base n) : m = n := by
  have hrepr : m.repr = n.repr := (String.append_right_inj _).mp h
  have hread := congrArg (fun digits => Nat.ofDigitChars 10 digits.toList 0) hrepr
  simpa using hread

/-- The state that a request leaves the agent of its site in, if there was one key at most. -/
def SiteAgent.Follows (s : SiteAgent) (username : String) (r : KeyRequest) : Prop :=
  if r.isChecked = 0 then s.account = none ∧ s.uploader = some ⟨false, username, none, none⟩
  else (∃ user, s.account = some user ∧ user.inGroup = true ∧ user.accessKeys = [r.key]) ∧
    s.uploader = some ⟨true, username, some r.key.accessKeyId, some r.key.secretAccessKey⟩

theorem SiteAgent.Follows.oneKey {s : SiteAgent} {username : String} {r : KeyRequest}
    (h : s.Follows username r) : Account.OneKey s.account := by
  intro user huser
  unfold SiteAgent.Follows at h
  split at h
  · rw [h.1] at huser
    exact absurd huser.symm (Option.some_ne_none user)
  · obtain ⟨⟨user', huser', -, hkeys⟩, -⟩ := h
    obtain rfl : user' = user := Option.some.inj (huser'.symm.trans huser)
    simp [hkeys]

theorem generateAccessKeys_follows {limit : Nat} (hlimit : 0 < limit) (base : String)
    (r : KeyRequest) {s : SiteAgent} (h : Account.OneKey s.account) :
    (generateAccessKeys limit base r.siteId r.isChecked r.key s).Follows
      (AwsIamManager.makeIamUsername base r.siteId) r := by
  have hgone := ((AwsIamManager.cleared_cases s.account).resolve_right (fun hmany => hmany.1 h)).2
  unfold generateAccessKeys SiteAgent.Follows
  by_cases hchecked : r.isChecked = 0
  · simp only [hgone, hchecked, if_true]
    exact ⟨rfl, rfl⟩
  · obtain ⟨user, hnew, hgroup, hkeys⟩ := Client.createAccessKey_new hlimit r.key
    obtain ⟨created, hcreated, hkey⟩ := Option.bind_eq_some_iff.mp hnew
    simp only [hgone, hchecked, if_false, hcreated, hkey]
    exact ⟨⟨user, rfl, hgroup, hkeys⟩, rfl⟩

section Requests

variable {limit : Nat} {base : String}

theorem DataAgents.generate_site (s : DataAgents) (r : KeyRequest) :
    (s.generate limit base r).site base r.siteId =
      generateAccessKeys limit base r.siteId r.isChecked r.key (s.site base r.siteId) := by
  simp [DataAgents.site, DataAgents.generate]

theorem DataAgents.generate_other (s : DataAgents) (r : KeyRequest) {siteId : Nat}
    (hne : siteId ≠ r.siteId) : (s.generate limit base r).site base siteId = s.site base siteId := by
  have hname : AwsIamManager.makeIamUsername base siteId ≠
      AwsIamManager.makeIamUsername base r.siteId := fun h => hne (makeIamUsername_injective h)
  simp [DataAgents.site, DataAgents.generate, hne, hname]

/-- Each agent is in the state that the last request for its site asks for. -/
theorem DataAgents.foldl_generate (hlimit : 0 < limit) (base : String) (requests : List KeyRequest)
    (siteId : Nat) :
    let agent := (requests.foldl (DataAgents.generate limit base) .empty).site base siteId
    match (requests.filter (fun r => r.siteId == siteId)).getLast? with
    | none => agent = ⟨none, none⟩
    | some r => agent.Follows (AwsIamManager.makeIamUsername base siteId) r := by
  induction requests using List.reverseRecOn with
  | nil => rfl
  | append_singleton requests r ih =>
    simp only [List.foldl_append, List.foldl_cons, List.foldl_nil, List.filter_append] at ih ⊢
    by_cases hsite : r.siteId = siteId
    · subst hsite
      rw [DataAgents.generate_site]
      simp only [List.filter_cons, beq_self_eq_true, if_true, List.filter_nil,
        List.getLast?_append, List.getLast?_singleton, Option.some_or]
      refine generateAccessKeys_follows hlimit base r ?_
      split at ih
      · rw [ih]
        exact fun _ h => absurd h.symm (Option.some_ne_none _)
      · exact SiteAgent.Follows.oneKey ih
    · rw [DataAgents.generate_other _ _ (Ne.symm hsite)]
      simpa [List.filter_cons, hsite] using ih

end Requests

/-- No value of the configuration starts a placeholder, and the sender has a domain. -/
structure AppConfig.Plain (config : AppConfig) : Prop where
  bucket : NoBrace config.awsS3SitedataBucket
  path : NoBrace config.awsS3SitedataPath
  region : NoBrace config.awsS3Region
  sender : NoBrace config.mailDefaultSender
  admin : NoBrace config.adminEmail
  server : NoBrace config.mailServer
  port : NoBrace config.mailPort
  domain : '@' ∈ config.mailDefaultSender.toList

def AccessKey.Plain (key : AccessKey) : Prop := NoBrace key.accessKeyId ∧ NoBrace key.secretAccessKey

theorem noBrace_append {a b : String} (ha : NoBrace a) (hb : NoBrace b) : NoBrace (a ++ b) := by
  unfold NoBrace at *
  rw [String.toList_append, List.mem_append]
  exact fun h => h.elim ha hb

theorem noBrace_repr (n : Nat) : NoBrace n.repr := by
  intro h
  rw [Nat.toList_repr] at h
  exact absurd (Nat.isDigit_of_mem_toDigits (by decide) (by decide) h) (by decide)

theorem pyStr_noBrace {text : Option String} (h : ∀ t, text = some t → NoBrace t) :
    NoBrace (pyStr text) := by
  cases text with
  | none => decide
  | some t => exact h t rfl

def settingNames : List String :=
  ["AWS_S3_SITEDATA_BUCKET", "AWS_S3_SITEDATA_PATH", "AWS_S3_REGION", "AWS_ACCESS_KEY_ID",
    "AWS_SECRET_ACCESS_KEY", "SMTP_SENDER", "SMTP_RECIPIENTS", "SMTP_HOST", "SMTP_PORT",
    "SMTP_USERNAME", "SMTP_PASSWORD", "SITE_ID"]

theorem settingNames_nodup : settingNames.Nodup := by decide

theorem settingNames_plain : settingNames.all plainKey = true := by decide

/-- The settings for a row, with what the files of an agent take from it. -/
theorem configSettings_row {config : AppConfig} (h : config.Plain) {uploader : SiteDataUploader}
    (hname : NoBrace uploader.awsUsername)
    (hid : ∀ t, uploader.awsAccessKeyId = some t → NoBrace t)
    (hsecret : ∀ t, uploader.awsSecretAccessKey = some t → NoBrace t) (siteId : Nat) :
    ∃ settings, configSettings config (some uploader) siteId = some settings ∧
      (settings.map Prod.fst).Nodup ∧ (∀ setting ∈ settings, Settable setting) ∧
      settings.lookup "AWS_ACCESS_KEY_ID" = some (pyStr uploader.awsAccessKeyId) ∧
      settings.lookup "AWS_SECRET_ACCESS_KEY" = some (pyStr uploader.awsSecretAccessKey) ∧
      settings.lookup "SITE_ID" = some (toString siteId) := by
  obtain ⟨before, after, hsender, hbefore⟩ := List.eq_append_cons_of_mem h.domain
  obtain ⟨domain, more, hafter⟩ := List.exists_cons_of_ne_nil (List.splitOn_ne_nil '@' after)
  have hsplit : config.mailDefaultSender.toList.splitOn '@' = before :: domain :: more := by
    rw [hsender, splitOn_append_cons, List.splitOn_eq_singleton hbefore, hafter]
    rfl
  have hdomain : NoBrace (String.ofList domain) := by
    obtain ⟨-, front, back, htext, -⟩ := mem_splitOn_iff.mp
      (hsplit ▸ List.mem_cons_of_mem before List.mem_cons_self :
        domain ∈ config.mailDefaultSender.toList.splitOn '@')
    intro hbrace
    rw [String.toList_ofList] at hbrace
    exact h.sender (htext ▸ by simp [hbrace])
  simp only [configSettings, hsplit]
  refine ⟨_, rfl, settingNames_nodup, ?_, rfl, rfl, rfl⟩
  intro setting hmem
  constructor
  · have hname : setting.1 ∈ settingNames := List.mem_map_of_mem (f := Prod.fst) hmem
    exact List.all_eq_true.mp settingNames_plain setting.1 hname
  · simp only [List.mem_cons, List.not_mem_nil, or_false] at hmem
    rcases hmem with rfl | rfl | rfl | rfl | rfl | rfl | rfl | rfl | rfl | rfl | rfl | rfl
    · exact h.bucket
    · exact h.path
    · exact h.region
    · exact pyStr_noBrace hid
    · exact pyStr_noBrace hsecret
    · exact noBrace_append (noBrace_append hname (by decide)) hdomain
    · exact h.admin
    · exact h.server
    · exact h.port
    · decide
    · decide
    · exact noBrace_repr siteId

def DataAgents.liveKeys (s : DataAgents) (base : String) (siteId : Nat) : List AccessKey :=
  match (s.site base siteId).account with
  | none => []
  | some user => user.accessKeys

theorem SiteAgent.Follows.row {s : SiteAgent} {username : String} {r : KeyRequest}
    (h : s.Follows username r) (hname : NoBrace username) (hkey : r.key.Plain) :
    ∃ row, s.uploader = some row ∧ NoBrace row.awsUsername ∧
      (∀ t, row.awsAccessKeyId = some t → NoBrace t) ∧
      (∀ t, row.awsSecretAccessKey = some t → NoBrace t) ∧
      ∃ key : Option AccessKey, (key = if r.isChecked = 0 then none else some r.key) ∧
        row.awsAccessKeyId = key.map AccessKey.accessKeyId ∧
        row.awsSecretAccessKey = key.map AccessKey.secretAccessKey ∧
        (match s.account with | none => [] | some user => user.accessKeys) = key.toList := by
  unfold SiteAgent.Follows at h
  by_cases hchecked : r.isChecked = 0
  · rw [if_pos hchecked] at h
    refine ⟨_, h.2, hname, by simp, by simp, none, by simp [hchecked], rfl, rfl, ?_⟩
    rw [h.1]
    rfl
  · rw [if_neg hchecked] at h
    obtain ⟨⟨user, huser, -, hkeys⟩, hrow⟩ := h
    refine ⟨_, hrow, hname, ?_, ?_, some r.key, by simp [hchecked], rfl, rfl, ?_⟩
    · exact fun t ht => Option.some.inj ht ▸ hkey.1
    · exact fun t ht => Option.some.inj ht ▸ hkey.2
    · rw [huser]
      exact hkeys

def sampleConfig : AppConfig where
  awsS3SitedataBucket := "sitedata"
  awsS3SitedataPath := "incoming"
  awsS3Region := "ap-southeast-2"
  mailDefaultSender := "medusa@example.com"
  adminEmail := "admin@example.com"
  mailServer := "smtp.example.com"
  mailPort := "587"

def sampleTemplate : List (Segment Placeholder Char) :=
  [.text "id: ".toList, .hole ⟨"AWS_ACCESS_KEY_ID", true, rfl⟩, .text " site: ".toList,
    .hole ⟨"SITE_ID", false, rfl⟩]

end Medusa
