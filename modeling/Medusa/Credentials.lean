import Mathlib.Data.List.Nodup

/-! The credentials of the data uploader of a site: the user that a site has in the
AWS account, its access keys, and the row in which the current key is kept. Before a
new key is made, and when the uploader is disabled, the old user is to be deleted
with all its keys. -/

namespace Medusa

structure AccessKey where
  accessKeyId : String
  secretAccessKey : String
deriving DecidableEq

/-- The user of a site, with its keys in the order in which AWS lists them. -/
structure IamUser where
  accessKeys : List AccessKey
  nodup : (accessKeys.map AccessKey.accessKeyId).Nodup
  inGroup : Bool

/-- The user of a site in the AWS account, if there is one. -/
abbrev Account := Option IamUser

/-! The calls of the AWS client. A call whose precondition does not hold raises, which
is `none`. -/

namespace Client

def removeUserFromGroup (account : Account) : Option Account := do
  let user ← account
  pure (some { user with inGroup := false })

def deleteUser (account : Account) : Option Account := do
  let user ← account
  guard (user.accessKeys = [] ∧ user.inGroup = false)
  pure none

def listAccessKeys (account : Account) : Option (List AccessKey) := do
  let user ← account
  pure user.accessKeys

def deleteAccessKey (account : Account) (accessKeyId : String) : Option Account := do
  let user ← account
  guard (accessKeyId ∈ user.accessKeys.map AccessKey.accessKeyId)
  pure (some { user with
    accessKeys := user.accessKeys.filter (fun k => k.accessKeyId != accessKeyId)
    nodup := user.nodup.sublist (List.filter_sublist.map _) })

def createUser (account : Account) : Option Account := do
  guard (account.isNone = true)
  pure (some ⟨[], List.nodup_nil, false⟩)

def addUserToGroup (account : Account) : Option Account := do
  let user ← account
  pure (some { user with inGroup := true })

/-- AWS gives every key a new id, and limits how many keys a user has. -/
def createAccessKey (limit : Nat) (account : Account) (key : AccessKey) : Option Account := do
  let user ← account
  if h : key.accessKeyId ∉ user.accessKeys.map AccessKey.accessKeyId ∧
      user.accessKeys.length < limit then
    pure (some { user with
      accessKeys := user.accessKeys ++ [key]
      nodup := by
        rw [List.map_append, List.nodup_append_comm]
        exact List.nodup_cons.mpr ⟨h.1, user.nodup⟩ })
  else none

end Client

/-! The methods of the class that wraps the client. -/

namespace AwsIamManager

def makeIamUsername (base : String) (siteId : Nat) : String := base ++ "-" ++ toString siteId

/-- The loop returns when it has deleted a key. An exception ends it as well. -/
def deleteEach (account : Account) : List AccessKey → Account
  | [] => account
  | key :: _ => (Client.deleteAccessKey account key.accessKeyId).getD account

def deleteAccessKey (account : Account) : Account :=
  match Client.listAccessKeys account with
  | none => account
  | some keys => deleteEach account keys

/-- Both calls are tried, and what fails is not reported. -/
def deleteUser (account : Account) : Account :=
  let removed := (Client.removeUserFromGroup account).getD account
  (Client.deleteUser removed).getD removed

/-- A user that is there is left as it is. The list of users is taken to be complete. -/
def createUser (account : Account) : Option Account :=
  if account.isSome then some account
  else do
    let created ← Client.createUser account
    Client.addUserToGroup created

end AwsIamManager

structure SiteDataUploader where
  enabled : Bool
  awsUsername : String
  awsAccessKeyId : Option String
  awsSecretAccessKey : Option String
deriving DecidableEq

/-- What the request reads and writes: the user of the site, and the uploader row of
the site. There is one row at most, since the user name in it is made from the site
and is unique. -/
structure SiteAgent where
  account : Account
  uploader : Option SiteDataUploader

def SiteAgent.write (s : SiteAgent) (enabled : Bool) (username : String) (key : Option AccessKey) :
    SiteAgent :=
  { s with uploader := some {
    enabled := enabled
    awsUsername := username
    awsAccessKeyId := key.map AccessKey.accessKeyId
    awsSecretAccessKey := key.map AccessKey.secretAccessKey } }

/-- `key` is the key that AWS would make next. After an exception the row is as
before, but not the account. -/
def generateAccessKeys (limit : Nat) (base : String) (siteId : Nat) (isChecked : Int)
    (key : AccessKey) (s : SiteAgent) : SiteAgent :=
  let username := AwsIamManager.makeIamUsername base siteId
  let cleared := AwsIamManager.deleteUser (AwsIamManager.deleteAccessKey s.account)
  if isChecked = 0 then
    SiteAgent.write { s with account := cleared } false username none
  else
    match AwsIamManager.createUser cleared with
    | none => { s with account := cleared }
    | some created =>
      match Client.createAccessKey limit created key with
      | none => { s with account := created }
      | some account => SiteAgent.write { s with account := account } true username (some key)

/-- The user of the site, if there is one, has one key at most. -/
def Account.OneKey (account : Account) : Prop :=
  ∀ user, account = some user → user.accessKeys.length ≤ 1

/-- No key of the user exists any more. -/
def SiteAgent.Revoked (s : SiteAgent) : Prop :=
  ∀ user, s.account = some user → user.accessKeys = []

/-- The user is in the group, and its only key is the one in the row of the site. -/
def SiteAgent.Renewed (s : SiteAgent) : Prop :=
  ∃ user key row, s.account = some user ∧ user.inGroup = true ∧ user.accessKeys = [key] ∧
    s.uploader = some row ∧ row.awsAccessKeyId = some key.accessKeyId ∧
    row.awsSecretAccessKey = some key.secretAccessKey

namespace AwsIamManager

/-- The first key is gone, and the others are still there. -/
theorem deleteAccessKey_some (user : IamUser) :
    ∃ user', deleteAccessKey (some user) = some user' ∧
      user'.accessKeys = user.accessKeys.tail ∧ user'.inGroup = user.inGroup := by
  obtain ⟨keys, hnd, inGroup⟩ := user
  cases keys with
  | nil => exact ⟨_, rfl, rfl, rfl⟩
  | cons key rest =>
    have hrest : (key :: rest).filter (fun k => k.accessKeyId != key.accessKeyId) = rest := by
      rw [List.filter_cons_of_neg (by simp), List.filter_eq_self]
      intro k hk
      have hne : k.accessKeyId ≠ key.accessKeyId :=
        fun he => (List.nodup_cons.mp hnd).1 (he ▸ List.mem_map_of_mem hk)
      simp [hne]
    simp only [deleteAccessKey, Client.listAccessKeys, deleteEach, Client.deleteAccessKey, guard,
      Option.bind_eq_bind, Option.bind_some, Option.pure_def, List.map_cons, List.mem_cons,
      true_or, if_true, Option.getD_some]
    exact ⟨_, rfl, hrest, rfl⟩

theorem deleteUser_some (user : IamUser) :
    (user.accessKeys = [] ∧ deleteUser (some user) = none) ∨
      user.accessKeys ≠ [] ∧ ∃ user', deleteUser (some user) = some user' ∧
        user'.accessKeys = user.accessKeys ∧ user'.inGroup = false := by
  by_cases hkeys : user.accessKeys = []
  · refine Or.inl ⟨hkeys, ?_⟩
    simp [deleteUser, Client.removeUserFromGroup, Client.deleteUser, guard, hkeys]
  · refine Or.inr ⟨hkeys, { user with inGroup := false }, ?_, rfl, rfl⟩
    simp only [deleteUser, Client.removeUserFromGroup, Client.deleteUser, guard, hkeys, false_and,
      if_false, Option.bind_eq_bind, Option.bind_some, Option.pure_def, Option.getD_some]
    rfl

/-- The user is deleted exactly if it had one key at most. Otherwise it still has keys,
but is no longer in the group. -/
theorem cleared_cases (account : Account) :
    (Account.OneKey account ∧ deleteUser (deleteAccessKey account) = none) ∨
      ¬ Account.OneKey account ∧ ∃ user, deleteUser (deleteAccessKey account) = some user ∧
        user.accessKeys ≠ [] ∧ user.inGroup = false := by
  cases account with
  | none => exact Or.inl ⟨fun _ h => absurd h.symm (Option.some_ne_none _), rfl⟩
  | some user =>
    have hone : Account.OneKey (some user) ↔ user.accessKeys.tail = [] := by
      unfold Account.OneKey
      simp only [Option.some.injEq, forall_eq']
      cases user.accessKeys <;> simp
    obtain ⟨user', hdelete, hkeys, -⟩ := deleteAccessKey_some user
    rw [hdelete, hone, ← hkeys]
    rcases deleteUser_some user' with hgone | ⟨hleft, user'', hstays, hkeys', hgroup⟩
    · exact Or.inl hgone
    · exact Or.inr ⟨hleft, user'', hstays, hkeys' ▸ hleft, hgroup⟩

end AwsIamManager

theorem Client.createAccessKey_new {limit : Nat} (hlimit : 0 < limit) (key : AccessKey) :
    ∃ user, (AwsIamManager.createUser none).bind
        (fun account => Client.createAccessKey limit account key) = some (some user) ∧
      user.inGroup = true ∧ user.accessKeys = [key] := by
  simp only [AwsIamManager.createUser, Client.createUser, Client.addUserToGroup,
    Client.createAccessKey, guard, Option.isSome_none, Option.isNone_none, if_true,
    Bool.false_eq_true, if_false, Option.bind_eq_bind, Option.bind_some, Option.pure_def]
  rw [dif_pos ⟨List.not_mem_nil, hlimit⟩]
  exact ⟨_, rfl, rfl, rfl⟩

theorem Client.createAccessKey_inGroup {limit : Nat} {user : IamUser} {key : AccessKey}
    {account : Account} (h : Client.createAccessKey limit (some user) key = some account) :
    ∃ user', account = some user' ∧ user'.inGroup = user.inGroup := by
  simp only [Client.createAccessKey, Option.bind_eq_bind, Option.bind_some] at h
  split at h
  · exact ⟨_, (Option.some.inj h).symm, rfl⟩
  · exact absurd h.symm (Option.some_ne_none account)

theorem SiteAgent.not_renewed {s : SiteAgent} {user : IamUser} (h : s.account = some user)
    (hgroup : user.inGroup = false) : ¬ s.Renewed := by
  rintro ⟨user', -, -, huser, htrue, -⟩
  rw [h, Option.some.injEq] at huser
  rw [← huser, hgroup] at htrue
  exact Bool.false_ne_true htrue

/-- Disabling the uploader revokes all its keys, and enabling it leaves the new key as the
only one, exactly if the user was absent or had one key at most. -/
theorem generateAccessKeys_iff (limit : Nat) (hlimit : 0 < limit) (base : String) (siteId : Nat)
    (isChecked : Int) (key : AccessKey) (s : SiteAgent) :
    (if isChecked = 0 then (generateAccessKeys limit base siteId isChecked key s).Revoked
      else (generateAccessKeys limit base siteId isChecked key s).Renewed) ↔
      Account.OneKey s.account := by
  unfold generateAccessKeys
  rcases AwsIamManager.cleared_cases s.account with ⟨hone, hgone⟩ | ⟨hmany, user, hleft, hkeys, hgroup⟩
  · refine iff_of_true ?_ hone
    by_cases hchecked : isChecked = 0
    · simp only [hgone, hchecked, if_true]
      exact fun user hu => absurd hu.symm (Option.some_ne_none user)
    · obtain ⟨user, hnew, hgroup, hkeys⟩ := Client.createAccessKey_new hlimit key
      obtain ⟨created, hcreated, hkey⟩ := Option.bind_eq_some_iff.mp hnew
      simp only [hgone, hchecked, if_false, hcreated, hkey]
      exact ⟨user, key, _, rfl, hgroup, hkeys, rfl, rfl, rfl⟩
  · refine iff_of_false ?_ hmany
    by_cases hchecked : isChecked = 0
    · simp only [hleft, hchecked, if_true]
      exact fun hrevoked => hkeys (hrevoked user rfl)
    · simp only [hleft, hchecked, if_false, AwsIamManager.createUser, Option.isSome_some, if_true]
      split
      · exact SiteAgent.not_renewed rfl hgroup
      · next account haccount =>
        obtain ⟨user', rfl, hgroup'⟩ := Client.createAccessKey_inGroup haccount
        exact SiteAgent.not_renewed rfl (hgroup'.trans hgroup)

/-- A user without keys, as a request that was cut short may have left it. -/
theorem generateAccessKeys_iff_noKeys :
    (generateAccessKeys 2 "uploader" 1 0 ⟨"K2", "S2"⟩
      ⟨some ⟨[], List.nodup_nil, true⟩, none⟩).Revoked ∧
    (generateAccessKeys 2 "uploader" 1 1 ⟨"K2", "S2"⟩
      ⟨some ⟨[], List.nodup_nil, true⟩, none⟩).Renewed := by
  have hone : Account.OneKey (some ⟨[], List.nodup_nil, true⟩) := by
    intro user huser
    obtain rfl := Option.some.inj huser
    exact Nat.zero_le 1
  constructor
  · exact (generateAccessKeys_iff 2 (by decide) "uploader" 1 0 ⟨"K2", "S2"⟩
      ⟨some ⟨[], List.nodup_nil, true⟩, none⟩).mpr hone
  · exact (generateAccessKeys_iff 2 (by decide) "uploader" 1 1 ⟨"K2", "S2"⟩
      ⟨some ⟨[], List.nodup_nil, true⟩, none⟩).mpr hone

/-- With two keys one of them survives the uploader being disabled. When it is enabled
instead, the old key is valid beside the new one, and the user is not in the group. -/
theorem generateAccessKeys_keeps_second_key :
    ((generateAccessKeys 2 "uploader" 1 0 ⟨"K3", "S3"⟩
      ⟨some ⟨[⟨"K1", "S1"⟩, ⟨"K2", "S2"⟩], by simp, true⟩, none⟩).account.map
        IamUser.accessKeys) = some [⟨"K2", "S2"⟩] ∧
    ((generateAccessKeys 2 "uploader" 1 1 ⟨"K3", "S3"⟩
      ⟨some ⟨[⟨"K1", "S1"⟩, ⟨"K2", "S2"⟩], by simp, true⟩, none⟩).account.map
        (fun user => (user.accessKeys, user.inGroup))) =
          some ([⟨"K2", "S2"⟩, ⟨"K3", "S3"⟩], false) := by
  decide +kernel

end Medusa
