import Medusa.Children
import Medusa.Model
import Medusa.Requests
import Medusa.Sweep

/-! The IT assets of the sites and the Salt master that their minions report to. The master
knows a minion by its name and talks to it once its key is accepted. -/

namespace Medusa

open Relational

structure ItAsset where
  id : Nat
  minionName : String
  minionKeyAccepted : Option Bool
  ipAddress : Option String
  operatingSystem : Option String
  platform : Option String
  siteId : Option Nat
  online : Option Bool
  lastChecked : Option Nat
deriving DecidableEq

abbrev ItAssets := Table ItAsset ItAsset.id

structure SaltMaster where
  accepted : List String
  unaccepted : List String

structure Fleet where
  sites : Table Site Site.id
  assets : ItAssets
  master : SaltMaster

structure AddItAssetForm where
  site : String
  deviceType : String
  deviceNumber : String

structure EditItAssetForm where
  minionName : String
  platform : String
  ipAddress : String
  operatingSystem : String

/-- `DataRequired`. -/
def required (text : String) : Bool := text.toList.any (fun c => !c.isWhitespace)

def AddItAssetForm.minionName (form : AddItAssetForm) : String :=
  if form.deviceNumber = "" then form.site ++ "-" ++ form.deviceType
  else form.site ++ "-" ++ form.deviceType ++ "-" ++ form.deviceNumber

def newItAsset (name : String) (site id : Nat) : ItAsset :=
  ⟨id, name, none, none, none, none, some site, none, none⟩

theorem newItAsset_id (name : String) (site id : Nat) : (newItAsset name site id).id = id := rfl

def addItAsset (fleet : Fleet) (sitename : String) (form : AddItAssetForm) : Option Fleet := do
  let site ← fleet.sites.one? (fun s => s.name == sitename)
  guard (required form.site && required form.deviceType)
  guard (fleet.assets.rows.countP (fun a => a.minionName == form.minionName) = 0)
  pure { fleet with
    assets := fleet.assets.insert (newItAsset form.minionName site.id) (newItAsset_id _ _) }

def ItAsset.populate (form : EditItAssetForm) (a : ItAsset) : ItAsset :=
  { a with
    minionName := form.minionName
    platform := some form.platform
    ipAddress := some form.ipAddress
    operatingSystem := some form.operatingSystem }

theorem ItAsset.populate_id (form : EditItAssetForm) (a : ItAsset) : (a.populate form).id = a.id := rfl

/-- The name is not looked up first, but it is unique in the database. -/
def editItAsset (fleet : Fleet) (sitename : String) (minionid : Nat) (form : EditItAssetForm) :
    Option Fleet := do
  let _ ← fleet.sites.one? (fun s => s.name == sitename)
  let asset ← fleet.assets.one? (fun a => a.id == minionid)
  guard (required form.minionName)
  guard (∀ a ∈ fleet.assets.rows, a.id ≠ asset.id → a.minionName ≠ form.minionName)
  pure { fleet with
    assets := fleet.assets.update (fun a => a.id == asset.id) (ItAsset.populate form)
      (ItAsset.populate_id form) }

def deleteItAsset (fleet : Fleet) (minionid : Nat) : Option Fleet := do
  let asset ← fleet.assets.one? (fun a => a.id == minionid)
  pure { fleet with assets := fleet.assets.delete (fun a => a.id == asset.id) }

structure Grains where
  ipv4 : List String
  osfullname : String

/-- What the master answers while a request runs. A reply without the minion raises. -/
structure SaltReplies where
  reachable : String → Bool
  grains : String → Option Grains
  services : String → Option (List String)

def ItAsset.seen (now : Nat) (online : Bool) (a : ItAsset) : ItAsset :=
  { a with online := some online, lastChecked := some now }

theorem ItAsset.seen_id (now : Nat) (online : Bool) (a : ItAsset) : (a.seen now online).id = a.id := rfl

def ItAsset.reported (ip os : String) (a : ItAsset) : ItAsset :=
  { a with ipAddress := some ip, operatingSystem := some os }

theorem ItAsset.reported_id (ip os : String) (a : ItAsset) : (a.reported ip os).id = a.id := rfl

def ItAsset.setPlatform (platform : String) (a : ItAsset) : ItAsset :=
  { a with platform := some platform }

theorem ItAsset.setPlatform_id (platform : String) (a : ItAsset) :
    (a.setPlatform platform).id = a.id := rfl

/-- The grains are asked for only if the minion is online. -/
def rescanMinion (now : Nat) (salt : SaltReplies) (t : ItAssets) (asset : ItAsset) :
    Option ItAssets :=
  let online := salt.reachable asset.minionName
  let seen := t.update (fun a => a.id == asset.id) (ItAsset.seen now online) (ItAsset.seen_id now online)
  if online then do
    let grains ← salt.grains asset.minionName
    let ip ← grains.ipv4.head?
    pure (seen.update (fun a => a.id == asset.id) (ItAsset.reported ip grains.osfullname)
      (ItAsset.reported_id _ _))
  else pure seen

def updateMinionData (fleet : Fleet) (sitename : String) (now : Nat) (salt : SaltReplies) :
    Option Fleet := do
  let site ← fleet.sites.one? (fun s => s.name == sitename)
  let assets ← (fleet.assets.rows.filter (fun a => a.siteId == some site.id)).foldlM
    (rescanMinion now salt) fleet.assets
  pure { fleet with assets := assets }

def platformList : List String :=
  ["Building Operation 1.9 Enterprise Server", "Building Operation 1.8 Enterprise Server",
    "Building Operation 1.7 Enterprise Server", "Building Operation 1.6 Enterprise Server",
    "INet7IoSrv"]

def platforms (services : List String) : String :=
  platformList.foldl (fun text item => if item ∈ services then item ++ ", " ++ text else text) ""

def updateOneMinionData (fleet : Fleet) (minionid now : Nat) (salt : SaltReplies) : Option Fleet := do
  let asset ← fleet.assets.one? (fun a => a.id == minionid)
  let rescanned ← rescanMinion now salt fleet.assets asset
  if salt.reachable asset.minionName then do
    let services ← salt.services asset.minionName
    pure { fleet with
      assets := rescanned.update (fun a => a.id == asset.id) (ItAsset.setPlatform (platforms services))
        (ItAsset.setPlatform_id _) }
  else pure { fleet with assets := rescanned }

/-- The answer to a request to accept the keys that match a name: the names whose keys
were accepted, unless it failed. -/
inductive KeyReply
  | failed
  | granted (names : List String)

def SaltMaster.grant (master : SaltMaster) (names : List String) : SaltMaster where
  accepted := master.accepted ++ master.unaccepted.filter (fun n => names.contains n)
  unaccepted := master.unaccepted.filter (fun n => !names.contains n)

def ItAsset.setKeyAccepted (accepted : Bool) (a : ItAsset) : ItAsset :=
  { a with minionKeyAccepted := some accepted }

theorem ItAsset.setKeyAccepted_id (accepted : Bool) (a : ItAsset) :
    (a.setKeyAccepted accepted).id = a.id := rfl

def Fleet.record (fleet : Fleet) (minionid : Nat) (accepted : Bool) : Fleet :=
  { fleet with
    assets := fleet.assets.update (fun a => a.id == minionid) (ItAsset.setKeyAccepted accepted)
      (ItAsset.setKeyAccepted_id accepted) }

/-- The first name of the answer is compared; there is one, or the request raises. -/
def acceptkeyItAsset (fleet : Fleet) (sitename : String) (minionid : Nat) (reply : KeyReply) :
    Option Fleet := do
  let _ ← fleet.sites.one? (fun s => s.name == sitename)
  let asset ← fleet.assets.one? (fun a => a.id == minionid)
  if asset.minionName ∈ fleet.master.accepted then pure (fleet.record asset.id true)
  else if asset.minionName ∈ fleet.master.unaccepted then
    match reply with
    | .failed => pure (fleet.record asset.id false)
    | .granted names => do
      let first ← names.head?
      pure ({ fleet with master := fleet.master.grant names }.record asset.id
        (first == asset.minionName))
  else pure (fleet.record asset.id false)

/-- A minion that the master does not know asks for its key to be accepted. -/
def SaltMaster.arrive (master : SaltMaster) (name : String) : SaltMaster :=
  if name ∈ master.accepted ∨ name ∈ master.unaccepted then master
  else { master with unaccepted := master.unaccepted ++ [name] }

def SaltMaster.forget (master : SaltMaster) (name : String) : SaltMaster where
  accepted := master.accepted.filter (fun n => n != name)
  unaccepted := master.unaccepted.filter (fun n => n != name)

/-- The requests, and what happens at the master without them. -/
inductive FleetEvent
  | addItAsset (sitename : String) (form : AddItAssetForm)
  | editItAsset (sitename : String) (minionid : Nat) (form : EditItAssetForm)
  | deleteItAsset (minionid : Nat)
  | updateMinionData (sitename : String) (now : Nat) (salt : SaltReplies)
  | updateOneMinionData (minionid now : Nat) (salt : SaltReplies)
  | acceptkeyItAsset (sitename : String) (minionid : Nat) (reply : KeyReply)
  | keyArrives (name : String)
  | keyDeleted (name : String)

def FleetEvent.commit (fleet : Fleet) : FleetEvent → Option Fleet
  | addItAsset sitename form => Medusa.addItAsset fleet sitename form
  | editItAsset sitename minionid form => Medusa.editItAsset fleet sitename minionid form
  | deleteItAsset minionid => Medusa.deleteItAsset fleet minionid
  | updateMinionData sitename now salt => Medusa.updateMinionData fleet sitename now salt
  | updateOneMinionData minionid now salt => Medusa.updateOneMinionData fleet minionid now salt
  | acceptkeyItAsset sitename minionid reply => Medusa.acceptkeyItAsset fleet sitename minionid reply
  | keyArrives name => some { fleet with master := fleet.master.arrive name }
  | keyDeleted name => some { fleet with master := fleet.master.forget name }

section Rescans

/-- The address and the operating system that the grains of a minion give. -/
def SaltReplies.report (salt : SaltReplies) (name : String) : Option (String × String) := do
  let grains ← salt.grains name
  let ip ← grains.ipv4.head?
  pure (ip, grains.osfullname)

/-- A rescan of the minion does not raise. -/
def SaltReplies.answers (salt : SaltReplies) (name : String) : Bool :=
  !salt.reachable name || (salt.report name).isSome

/-- What is known of an asset after a rescan. An asset that is offline keeps the address
and the operating system that it had. -/
def ItAsset.rescan (now : Nat) (salt : SaltReplies) (name : String) (a : ItAsset) : ItAsset :=
  if salt.reachable name then
    match salt.report name with
    | some (ip, os) => (a.seen now true).reported ip os
    | none => a.seen now true
  else a.seen now false

theorem ItAsset.rescan_place (now : Nat) (salt : SaltReplies) (name : String) (a : ItAsset) :
    (a.rescan now salt name).id = a.id ∧ (a.rescan now salt name).minionName = a.minionName ∧
      (a.rescan now salt name).siteId = a.siteId ∧
      (a.rescan now salt name).minionKeyAccepted = a.minionKeyAccepted := by
  unfold rescan
  split
  · split <;> exact ⟨rfl, rfl, rfl, rfl⟩
  · exact ⟨rfl, rfl, rfl, rfl⟩

theorem ItAsset.rescan_id (now : Nat) (salt : SaltReplies) (name : String) (a : ItAsset) :
    (a.rescan now salt name).id = a.id := (a.rescan_place now salt name).1

theorem ItAsset.rescan_offline {salt : SaltReplies} {name : String}
    (h : salt.reachable name = false) (now : Nat) :
    ItAsset.rescan now salt name = ItAsset.seen now false := by
  funext a
  simp [rescan, h]

theorem ItAsset.rescan_online {salt : SaltReplies} {name ip os : String}
    (h : salt.reachable name = true) (hreport : salt.report name = some (ip, os)) (now : Nat) :
    ItAsset.rescan now salt name = fun a => (a.seen now true).reported ip os := by
  funext a
  simp [rescan, h, hreport]

theorem update_congr_fun {t : ItAssets} {p : ItAsset → Bool} {f g : ItAsset → ItAsset}
    (hf : ∀ a, (f a).id = a.id) (hg : ∀ a, (g a).id = a.id) (h : f = g) :
    t.update p f hf = t.update p g hg := by
  subst h
  rfl

theorem rescanMinion_eq (now : Nat) (salt : SaltReplies) (t : ItAssets) (asset : ItAsset) :
    rescanMinion now salt t asset = if salt.answers asset.minionName = true then
      some (t.update (fun a => a.id == asset.id) (ItAsset.rescan now salt asset.minionName)
        (ItAsset.rescan_id now salt asset.minionName)) else none := by
  by_cases honline : salt.reachable asset.minionName = true
  · simp only [rescanMinion, honline, if_true, SaltReplies.answers, Bool.not_true, Bool.false_or]
    cases hgrains : salt.grains asset.minionName with
    | none => simp [SaltReplies.report, hgrains]
    | some grains =>
      cases hip : grains.ipv4.head? with
      | none => simp [SaltReplies.report, hgrains, hip]
      | some ip =>
        have hreport : salt.report asset.minionName = some (ip, grains.osfullname) := by
          simp [SaltReplies.report, hgrains, hip]
        simp only [Option.bind_eq_bind, Option.bind_some, hip, hreport, Option.isSome_some, if_true,
          Option.pure_def, Option.some.injEq]
        rw [Table.update_update_key]
        exact update_congr_fun _ _ (ItAsset.rescan_online honline hreport now).symm
  · have hoffline : salt.reachable asset.minionName = false := by simpa using honline
    simp only [rescanMinion, hoffline, SaltReplies.answers, Bool.not_false, Bool.true_or, if_true,
      Bool.false_eq_true, if_false, Option.pure_def, Option.some.injEq]
    exact update_congr_fun _ _ (ItAsset.rescan_offline hoffline now).symm

/-- The assets of a site are rescanned all or none. -/
theorem updateMinionData_eq (fleet : Fleet) (sitename : String) (now : Nat) (salt : SaltReplies) :
    updateMinionData fleet sitename now salt =
      (fleet.sites.one? (fun s => s.name == sitename)).bind (fun site =>
        if ∀ a ∈ fleet.assets.rows, (a.siteId == some site.id) = true →
            salt.answers a.minionName = true then
          some { fleet with
            assets := fleet.assets.update (fun a => a.siteId == some site.id)
              (fun a => a.rescan now salt a.minionName) (fun a => a.rescan_id now salt a.minionName) }
        else none) := by
  unfold updateMinionData
  cases fleet.sites.one? (fun s => s.name == sitename) with
  | none => rfl
  | some site =>
    have hloop := Table.foldlM_update_filter (f := fun x => ItAsset.rescan now salt x.minionName)
      (fun x a => a.rescan_id now salt x.minionName) (rescanMinion_eq now salt)
      (fun a => a.siteId == some site.id) fleet.assets
    simp only [Option.bind_eq_bind, Option.bind_some, hloop]
    split <;> rfl

inductive Rescan
  | site (sitename : String) (now : Nat) (salt : SaltReplies)
  | one (minionid now : Nat) (salt : SaltReplies)

namespace Rescan

def event : Rescan → FleetEvent
  | site sitename now salt => .updateMinionData sitename now salt
  | one minionid now salt => .updateOneMinionData minionid now salt

/-- The assets that a rescan is about, if it finds its site or its asset. -/
def target (fleet : Fleet) : Rescan → Option (ItAsset → Bool)
  | site sitename _ _ =>
    (fleet.sites.one? (fun s => s.name == sitename)).map (fun s a => a.siteId == some s.id)
  | one minionid _ _ =>
    (fleet.assets.one? (fun a => a.id == minionid)).map (fun _ a => a.id == minionid)

/-- The master answers what is asked about the asset. -/
def answered (a : ItAsset) : Rescan → Bool
  | site _ _ salt => salt.answers a.minionName
  | one _ _ salt => salt.answers a.minionName &&
      (!salt.reachable a.minionName || (salt.services a.minionName).isSome)

def apply (a : ItAsset) : Rescan → ItAsset
  | site _ now salt => a.rescan now salt a.minionName
  | one _ now salt =>
    if salt.reachable a.minionName then
      (a.rescan now salt a.minionName).setPlatform (platforms ((salt.services a.minionName).getD []))
    else a.rescan now salt a.minionName

/-- What a rescan of the fleet does to an asset: it is rescanned with all the others that
the rescan is about, or none of them is. -/
def onAsset (fleet : Fleet) (a : ItAsset) (r : Rescan) : ItAsset :=
  (r.target fleet).elim a (fun p =>
    if (∀ b ∈ fleet.assets.rows, p b = true → r.answered b = true) ∧ p a = true then r.apply a else a)

theorem apply_place (r : Rescan) (a : ItAsset) : (r.apply a).id = a.id ∧
    (r.apply a).minionName = a.minionName ∧ (r.apply a).siteId = a.siteId ∧
    (r.apply a).minionKeyAccepted = a.minionKeyAccepted := by
  cases r with
  | site sitename now salt => exact a.rescan_place now salt a.minionName
  | one minionid now salt =>
    rw [apply]
    by_cases honline : salt.reachable a.minionName = true
    · rw [if_pos honline]
      exact a.rescan_place now salt a.minionName
    · rw [if_neg honline]
      exact a.rescan_place now salt a.minionName

theorem apply_id (r : Rescan) (a : ItAsset) : (r.apply a).id = a.id := (r.apply_place a).1

theorem commit_one (fleet : Fleet) (now : Nat) (salt : SaltReplies) {asset : ItAsset}
    (hasset : asset ∈ fleet.assets.rows) :
    updateOneMinionData fleet asset.id now salt =
      if (one asset.id now salt).answered asset = true then
        some { fleet with
          assets := fleet.assets.update (fun a => a.id == asset.id) (one asset.id now salt).apply
            (one asset.id now salt).apply_id }
      else none := by
  -- the only row of that id is the asset
  have hupdate : ∀ {f : ItAsset → ItAsset} (hf : ∀ a, (f a).id = a.id),
      f asset = (one asset.id now salt).apply asset →
      fleet.assets.update (fun a => a.id == asset.id) f hf =
        fleet.assets.update (fun a => a.id == asset.id) (one asset.id now salt).apply
          (one asset.id now salt).apply_id := by
    intro f hf he
    apply Table.ext
    rw [Table.rows_update, Table.rows_update]
    refine List.map_congr_left ?_
    intro a ha
    by_cases hid : a.id = asset.id
    · rw [Table.eq_of_key_eq ha hasset hid]
      simp [he]
    · simp [hid]
  simp only [updateOneMinionData, Table.one?_key hasset, Option.bind_eq_bind, Option.bind_some,
    rescanMinion_eq, answered]
  by_cases hanswers : salt.answers asset.minionName = true
  · simp only [hanswers, if_true, Option.bind_some, Bool.true_and]
    by_cases honline : salt.reachable asset.minionName = true
    · simp only [honline, if_true, Bool.not_true, Bool.false_or]
      cases hservices : salt.services asset.minionName with
      | none => rfl
      | some services =>
        simp only [Option.bind_some, Option.isSome_some, if_true, Option.pure_def, Option.some.injEq]
        rw [Table.update_update_key, hupdate]
        simp [apply, honline, hservices]
    · have hoffline : salt.reachable asset.minionName = false := by simpa using honline
      simp only [hoffline, Bool.false_eq_true, if_false, Bool.not_false, Bool.true_or, if_true,
        Option.pure_def, Option.some.injEq]
      rw [hupdate]
      simp [apply, hoffline]
  · simp [hanswers]

/-- The requests as updates of the rows that they are about. -/
theorem commit_eq (fleet : Fleet) (r : Rescan) : r.event.commit fleet = (r.target fleet).bind (fun p =>
    if ∀ a ∈ fleet.assets.rows, p a = true → r.answered a = true then
      some { fleet with assets := fleet.assets.update p r.apply r.apply_id }
    else none) := by
  cases r with
  | site sitename now salt =>
    rw [target, Option.bind_map]
    exact updateMinionData_eq fleet sitename now salt
  | one minionid now salt =>
    rw [target, Option.bind_map]
    cases hone : fleet.assets.one? (fun a => a.id == minionid) with
    | none => simp [event, FleetEvent.commit, updateOneMinionData, hone]
    | some asset =>
      obtain ⟨⟨hasset, hid⟩, -⟩ := Table.one?_eq_some.mp hone
      obtain rfl := beq_iff_eq.mp hid
      have hall : (∀ a ∈ fleet.assets.rows, (a.id == asset.id) = true →
          (one asset.id now salt).answered a = true) ↔
            (one asset.id now salt).answered asset = true := by
        constructor
        · intro h
          exact h asset hasset (beq_self_eq_true _)
        · intro h a ha haid
          rwa [Table.eq_of_key_eq ha hasset (beq_iff_eq.mp haid)]
      simp only [Option.bind_some, Function.comp_apply, hall]
      exact commit_one fleet now salt hasset

theorem serve_event (fleet : Fleet) (r : Rescan) :
    (serve FleetEvent.commit fleet r.event).sites = fleet.sites ∧
      (serve FleetEvent.commit fleet r.event).assets.rows =
        fleet.assets.rows.map (fun a => r.onAsset fleet a) := by
  rw [serve, commit_eq]
  unfold onAsset
  cases r.target fleet with
  | none => simp
  | some p =>
    by_cases hall : ∀ a ∈ fleet.assets.rows, p a = true → r.answered a = true
    · rw [Option.bind_some, if_pos hall]
      refine ⟨rfl, ?_⟩
      rw [Option.getD_some, Table.rows_update]
      refine List.map_congr_left ?_
      intro a _
      simp only [Option.elim_some, eq_true hall, true_and]
    · rw [Option.bind_some, if_neg hall]
      simp [hall]

theorem onAsset_place (fleet : Fleet) (a : ItAsset) (r : Rescan) :
    (r.onAsset fleet a).id = a.id ∧ (r.onAsset fleet a).minionName = a.minionName ∧
      (r.onAsset fleet a).siteId = a.siteId := by
  unfold onAsset
  cases r.target fleet with
  | none => exact ⟨rfl, rfl, rfl⟩
  | some p =>
    rw [Option.elim_some]
    split
    · exact ⟨(r.apply_place a).1, (r.apply_place a).2.1, (r.apply_place a).2.2.1⟩
    · exact ⟨rfl, rfl, rfl⟩

section Congr

variable {fleet fleet' : Fleet} {g : ItAsset → ItAsset}
  (hg : ∀ a, (g a).id = a.id ∧ (g a).minionName = a.minionName ∧ (g a).siteId = a.siteId)

include hg

theorem target_congr (hsites : fleet'.sites = fleet.sites)
    (hrows : fleet'.assets.rows = fleet.assets.rows.map g) (r : Rescan) :
    r.target fleet' = r.target fleet := by
  cases r with
  | site sitename now salt => rw [target, target, hsites]
  | one minionid now salt =>
    have hone := Table.one?_of_map hrows (q := fun a => a.id == minionid)
      (fun a => by rw [(hg a).1])
    simp only [target, hone, Option.map_map]
    rfl

theorem target_place {r : Rescan} {p : ItAsset → Bool} (hp : r.target fleet = some p) (a : ItAsset) :
    p (g a) = p a := by
  cases r with
  | site sitename now salt =>
    obtain ⟨s, -, rfl⟩ := Option.map_eq_some_iff.mp hp
    simp only [(hg a).2.2]
  | one minionid now salt =>
    obtain ⟨asset, -, rfl⟩ := Option.map_eq_some_iff.mp hp
    simp only [(hg a).1]

theorem answered_place (r : Rescan) (a : ItAsset) : r.answered (g a) = r.answered a := by
  cases r <;> simp only [answered, (hg a).2.1]

/-- What a rescan does depends on the names and the sites of the assets only, and no rescan
changes these. -/
theorem onAsset_congr (hsites : fleet'.sites = fleet.sites)
    (hrows : fleet'.assets.rows = fleet.assets.rows.map g) (a : ItAsset) (r : Rescan) :
    r.onAsset fleet' a = r.onAsset fleet a := by
  unfold onAsset
  rw [target_congr hg hsites hrows]
  cases hp : r.target fleet with
  | none => rfl
  | some p =>
    simp only [Option.elim_some, hrows, List.forall_mem_map, target_place hg hp, answered_place hg]

end Congr

end Rescan

/-- In every run of rescans, of sites and of single assets, an asset is rescanned by each of
those that are about it and for which the master answers all that is asked; what is known of
it before does not matter, nor do the other rescans. -/
theorem rescans_independent (fleet : Fleet) (rescans : List Rescan) :
    (serveAll FleetEvent.commit fleet (rescans.map Rescan.event)).assets.rows =
      fleet.assets.rows.map (fun a => rescans.foldl (fun a r => r.onAsset fleet a) a) := by
  induction rescans generalizing fleet with
  | nil => simp [serveAll]
  | cons r rest ih =>
    obtain ⟨hsites, hrows⟩ := r.serve_event fleet
    have hrest := ih (serve FleetEvent.commit fleet r.event)
    rw [hrows, List.map_map] at hrest
    refine hrest.trans (List.map_congr_left ?_)
    intro a _
    simp only [Function.comp_apply, List.foldl_cons,
      Rescan.onAsset_congr (fun a => r.onAsset_place fleet a) hsites hrows]

end Rescans

section Keys

/-- The asset is recorded as accepted only if the master has accepted its key. -/
def Fleet.KnownOf (fleet : Fleet) (a : ItAsset) : Prop :=
  a.minionKeyAccepted = some true → a.minionName ∈ fleet.master.accepted

def Fleet.Known (fleet : Fleet) : Prop := ∀ a ∈ fleet.assets.rows, fleet.KnownOf a

def ItAsset.name? (a : ItAsset) : Option String := some a.minionName

/-- What the records of the keys depend on: no key in use is deleted at the master, and no
asset that is recorded as accepted is given a name whose key is not. -/
def FleetEvent.KeepsKeys (fleet : Fleet) : FleetEvent → Prop
  | keyDeleted name => ∀ a ∈ fleet.assets.rows, a.minionKeyAccepted = some true → a.minionName ≠ name
  | editItAsset sitename minionid form =>
    (Medusa.editItAsset fleet sitename minionid form).isSome = true →
      ∀ a ∈ fleet.assets.rows, a.id = minionid → a.minionKeyAccepted = some true →
        form.minionName ∈ fleet.master.accepted
  | _ => True

variable {fleet fleet' : Fleet}

theorem addItAsset_cases {sitename : String} {form : AddItAssetForm}
    (h : addItAsset fleet sitename form = some fleet') :
    ∃ site, (∀ a ∈ fleet.assets.rows, a.minionName ≠ form.minionName) ∧ fleet' = { fleet with
      assets := fleet.assets.insert (newItAsset form.minionName site) (newItAsset_id _ _) } := by
  simp only [addItAsset, Option.bind_eq_bind, Option.bind_eq_some_iff, guard_eq_some,
    Option.pure_def, Option.some.injEq, List.countP_eq_zero, beq_iff_eq] at h
  obtain ⟨site, -, _, -, _, hfree, rfl⟩ := h
  exact ⟨site.id, hfree, rfl⟩

theorem editItAsset_cases {sitename : String} {minionid : Nat} {form : EditItAssetForm}
    (h : editItAsset fleet sitename minionid form = some fleet') :
    (∃ a ∈ fleet.assets.rows, a.id = minionid) ∧
    (∀ a ∈ fleet.assets.rows, a.id ≠ minionid → a.minionName ≠ form.minionName) ∧
      fleet' = { fleet with
        assets := fleet.assets.update (fun a => a.id == minionid) (ItAsset.populate form)
          (ItAsset.populate_id form) } := by
  simp only [editItAsset, Option.bind_eq_bind, Option.bind_eq_some_iff, guard_eq_some,
    Option.pure_def, Option.some.injEq] at h
  obtain ⟨site, -, asset, hone, _, -, _, hfree, rfl⟩ := h
  obtain ⟨⟨hasset, hid⟩, -⟩ := Table.one?_eq_some.mp hone
  obtain rfl := beq_iff_eq.mp hid
  exact ⟨⟨asset, hasset, rfl⟩, hfree, rfl⟩

theorem SaltMaster.mem_grant {master : SaltMaster} {names : List String} {name : String} :
    name ∈ (master.grant names).accepted ↔
      name ∈ master.accepted ∨ name ∈ master.unaccepted ∧ name ∈ names := by
  simp [grant]

theorem SaltMaster.arrive_accepted (master : SaltMaster) (name : String) :
    (master.arrive name).accepted = master.accepted := by
  unfold arrive
  split <;> rfl

/-- The request records what the master answers, and the master keeps what it has. -/
theorem acceptkeyItAsset_cases {sitename : String} {minionid : Nat} {reply : KeyReply}
    (h : acceptkeyItAsset fleet sitename minionid reply = some fleet') :
    ∃ asset ∈ fleet.assets.rows, asset.id = minionid ∧ ∃ master accepted,
      fleet.master.accepted ⊆ master.accepted ∧
      (accepted = true → asset.minionName ∈ master.accepted) ∧
      fleet' = { fleet with master := master }.record minionid accepted := by
  simp only [acceptkeyItAsset, Option.bind_eq_bind, Option.bind_eq_some_iff] at h
  obtain ⟨site, -, asset, hone, h⟩ := h
  obtain ⟨⟨hasset, hid⟩, -⟩ := Table.one?_eq_some.mp hone
  obtain rfl := beq_iff_eq.mp hid
  refine ⟨asset, hasset, rfl, ?_⟩
  by_cases haccepted : asset.minionName ∈ fleet.master.accepted
  · rw [if_pos haccepted] at h
    exact ⟨fleet.master, true, List.Subset.refl _, fun _ => haccepted, (Option.some.inj h).symm⟩
  · rw [if_neg haccepted] at h
    by_cases hunaccepted : asset.minionName ∈ fleet.master.unaccepted
    · rw [if_pos hunaccepted] at h
      cases reply with
      | failed =>
        exact ⟨fleet.master, false, List.Subset.refl _, fun hf => Bool.noConfusion hf,
          (Option.some.inj h).symm⟩
      | granted names =>
        obtain ⟨first, hfirst, hdb⟩ := Option.bind_eq_some_iff.mp h
        refine ⟨fleet.master.grant names, first == asset.minionName, ?_, ?_,
          (Option.some.inj hdb).symm⟩
        · exact fun name hname => SaltMaster.mem_grant.mpr (Or.inl hname)
        · intro hname
          rw [beq_iff_eq] at hname
          refine SaltMaster.mem_grant.mpr (Or.inr ⟨hunaccepted, ?_⟩)
          rw [← hname]
          exact List.mem_of_mem_head? hfirst
    · rw [if_neg hunaccepted] at h
      exact ⟨fleet.master, false, List.Subset.refl _, fun hf => Bool.noConfusion hf,
        (Option.some.inj h).symm⟩

theorem Rescan.commit_cases {r : Rescan} (h : r.event.commit fleet = some fleet') :
    ∃ p, fleet' = { fleet with assets := fleet.assets.update p r.apply r.apply_id } := by
  rw [commit_eq, Option.bind_eq_some_iff] at h
  obtain ⟨p, -, h⟩ := h
  split at h
  · exact ⟨p, (Option.some.inj h).symm⟩
  · exact absurd h (by simp)

theorem FleetEvent.commit_distinct {e : FleetEvent} (h : e.commit fleet = some fleet')
    (hnames : fleet.assets.Distinct ItAsset.name?) : fleet'.assets.Distinct ItAsset.name? := by
  have hrescan : ∀ r : Rescan, r.event.commit fleet = some fleet' →
      fleet'.assets.Distinct ItAsset.name? := by
    intro r hr
    obtain ⟨p, rfl⟩ := r.commit_cases hr
    exact hnames.update r.apply_id (fun a => congrArg some (r.apply_place a).2.1)
  cases e with
  | addItAsset sitename form =>
    obtain ⟨site, hfree, rfl⟩ := addItAsset_cases h
    refine (Table.distinct_insert_iff hnames (newItAsset_id _ _)).mpr ?_
    intro a ha _ _ he
    exact hfree a ha (Option.some.inj he)
  | editItAsset sitename minionid form =>
    obtain ⟨-, hfree, rfl⟩ := editItAsset_cases h
    refine (Table.distinct_update_iff hnames minionid (ItAsset.populate_id form)).mpr ?_
    intro _ _ _ a ha hid _ he
    exact hfree a ha hid (Option.some.inj he)
  | deleteItAsset minionid =>
    obtain ⟨asset, -, hdb⟩ := Option.bind_eq_some_iff.mp h
    cases hdb
    exact hnames.delete _
  | updateMinionData sitename now salt => exact hrescan (.site sitename now salt) h
  | updateOneMinionData minionid now salt => exact hrescan (.one minionid now salt) h
  | acceptkeyItAsset sitename minionid reply =>
    obtain ⟨asset, -, -, master, accepted, -, -, rfl⟩ := acceptkeyItAsset_cases h
    exact hnames.update (ItAsset.setKeyAccepted_id accepted) (fun _ => rfl)
  | keyArrives name =>
    cases h
    exact hnames
  | keyDeleted name =>
    cases h
    exact hnames

/-- The asset is known after its key was asked for, whatever was recorded before. -/
theorem acceptkeyItAsset_known {sitename : String} {minionid : Nat} {reply : KeyReply}
    (h : acceptkeyItAsset fleet sitename minionid reply = some fleet') :
    ∀ a ∈ fleet'.assets.rows, (a.id = minionid → fleet'.KnownOf a) ∧
      (a.id ≠ minionid → a ∈ fleet.assets.rows ∧ (fleet.KnownOf a → fleet'.KnownOf a)) := by
  obtain ⟨asset, hasset, hid, master, accepted, hsub, htrue, rfl⟩ := acceptkeyItAsset_cases h
  intro a ha
  rcases (Table.mem_update_key (ItAsset.setKeyAccepted_id accepted)).mp ha with
    ⟨a₀, ha₀, hk₀, rfl⟩ | ⟨ha, hk⟩
  · refine ⟨?_, fun hne => absurd hk₀ hne⟩
    intro _ haccepted
    rw [Table.eq_of_key_eq ha₀ hasset (hk₀.trans hid.symm)]
    exact htrue (Option.some.inj haccepted)
  · refine ⟨fun he => absurd he hk, fun _ => ⟨ha, ?_⟩⟩
    intro hknown haccepted
    exact hsub (hknown haccepted)

theorem FleetEvent.serve_known_iff (hknown : fleet.Known) (e : FleetEvent) :
    (serve FleetEvent.commit fleet e).Known ↔ e.KeepsKeys fleet := by
  have hrescan : ∀ r : Rescan, (serve FleetEvent.commit fleet r.event).Known := by
    intro r
    refine serve_of_commit hknown ?_
    intro fleet' hr
    obtain ⟨p, rfl⟩ := r.commit_cases hr
    intro a ha
    have hrow : a ∈ (fleet.assets.update p r.apply r.apply_id).rows := ha
    obtain ⟨a₀, ha₀, rfl⟩ := Table.mem_update.mp hrow
    split
    · intro haccepted
      rw [(r.apply_place a₀).2.2.2] at haccepted
      rw [(r.apply_place a₀).2.1]
      exact hknown a₀ ha₀ haccepted
    · exact hknown a₀ ha₀
  cases e with
  | addItAsset sitename form =>
    refine iff_of_true (serve_of_commit hknown ?_) trivial
    intro fleet' h
    obtain ⟨site, -, rfl⟩ := addItAsset_cases h
    intro a ha haccepted
    have hrow : a ∈ (fleet.assets.insert (newItAsset form.minionName site)
      (newItAsset_id form.minionName site)).rows := ha
    rcases Table.mem_insert.mp hrow with ha | rfl
    · exact hknown a ha haccepted
    · exact absurd haccepted (by simp [newItAsset])
  | editItAsset sitename minionid form =>
    refine serve_iff hknown ?_ ?_
    · intro hnone hsome
      rw [show Medusa.editItAsset fleet sitename minionid form = none from hnone] at hsome
      exact absurd hsome (by simp)
    · intro fleet' h
      have hsome : (Medusa.editItAsset fleet sitename minionid form).isSome = true :=
        Option.isSome_iff_exists.mpr ⟨fleet', h⟩
      obtain ⟨-, -, rfl⟩ := editItAsset_cases h
      have hrows := fun a => Table.mem_update_key (t := fleet.assets) (k := minionid) (r := a)
        (ItAsset.populate_id form)
      constructor
      · intro hafter _ a ha hid haccepted
        exact hafter (a.populate form) ((hrows _).mpr (Or.inl ⟨a, ha, hid, rfl⟩)) haccepted
      · intro hkeeps a ha
        rcases (hrows a).mp ha with ⟨a₀, ha₀, hid, rfl⟩ | ⟨ha, -⟩
        · exact fun haccepted => hkeeps hsome a₀ ha₀ hid haccepted
        · exact hknown a ha
  | deleteItAsset minionid =>
    refine iff_of_true (serve_of_commit hknown ?_) trivial
    intro fleet' h
    obtain ⟨asset, -, hdb⟩ := Option.bind_eq_some_iff.mp h
    cases hdb
    intro a ha
    exact hknown a (Table.mem_delete.mp ha).1
  | updateMinionData sitename now salt => exact iff_of_true (hrescan (.site sitename now salt)) trivial
  | updateOneMinionData minionid now salt =>
    exact iff_of_true (hrescan (.one minionid now salt)) trivial
  | acceptkeyItAsset sitename minionid reply =>
    refine iff_of_true (serve_of_commit hknown ?_) trivial
    intro fleet' h a ha
    obtain ⟨hsame, hother⟩ := acceptkeyItAsset_known h a ha
    by_cases hid : a.id = minionid
    · exact hsame hid
    · obtain ⟨hmem, hkeeps⟩ := hother hid
      exact hkeeps (hknown a hmem)
  | keyArrives name =>
    refine iff_of_true ?_ trivial
    intro a ha haccepted
    have hmem : a.minionName ∈ (fleet.master.arrive name).accepted := by
      rw [SaltMaster.arrive_accepted]
      exact hknown a ha haccepted
    exact hmem
  | keyDeleted name =>
    constructor
    · intro hafter a ha haccepted
      have hmem : a.minionName ∈ (fleet.master.forget name).accepted := hafter a ha haccepted
      simpa using (List.mem_filter.mp hmem).2
    · intro hkeeps a ha haccepted
      have hmem : a.minionName ∈ (fleet.master.forget name).accepted :=
        List.mem_filter.mpr ⟨hknown a ha haccepted, by simpa using hkeeps a ha haccepted⟩
      exact hmem

/-- In every run of requests and of events at the master, the names of the assets stay
apart. The assets that are recorded as accepted are known to the master after every step
exactly if no key in use is deleted and no asset in use is given a name that the master has
not accepted; and an asset is known, whatever happened before, once a request has asked for
its key. -/
theorem fleet_known_iff (hnames : fleet.assets.Distinct ItAsset.name?) (hknown : fleet.Known)
    (events : List FleetEvent) :
    (serveAll FleetEvent.commit fleet events).assets.Distinct ItAsset.name? ∧
    ((∀ pre post, events = pre ++ post → (serveAll FleetEvent.commit fleet pre).Known) ↔
      ∀ pre e post, events = pre ++ e :: post →
        e.KeepsKeys (serveAll FleetEvent.commit fleet pre)) ∧
    ∀ sitename minionid reply fleet',
      acceptkeyItAsset (serveAll FleetEvent.commit fleet events) sitename minionid reply = some fleet' →
        ∀ a ∈ fleet'.assets.rows, a.id = minionid → fleet'.KnownOf a := by
  refine ⟨?_, ?_, ?_⟩
  · exact serveAll_keeps (P := fun fleet : Fleet => fleet.assets.Distinct ItAsset.name?)
      FleetEvent.commit_distinct events hnames
  · exact serveAll_good_iff (I := Fleet.Known) (C := fun fleet e => e.KeepsKeys fleet)
      (fun _ e h => FleetEvent.serve_known_iff h e) events hknown
  · intro sitename minionid reply fleet' h a ha
    exact (acceptkeyItAsset_known h a ha).1

end Keys

def chillerPc : ItAsset := newItAsset "plant-pc" 1 1

theorem chillerPc_nodup : ([chillerPc].map ItAsset.id).Nodup := by simp

/-- A plant with one asset, whose minion waits for its key to be accepted. -/
def plantFleet : Fleet where
  sites := ⟨[plantSite], plantSite_nodup⟩
  assets := ⟨[chillerPc], chillerPc_nodup⟩
  master := ⟨[], ["plant-pc"]⟩

/-- The key is accepted, and then the asset gets another name. -/
def renamedAfter : List FleetEvent :=
  [.acceptkeyItAsset plantSite.name 1 (.granted ["plant-pc"]),
    .editItAsset plantSite.name 1 ⟨"plant-server", "", "", ""⟩]

theorem fleet_known_iff_plant :
    plantFleet.assets.Distinct ItAsset.name? ∧ plantFleet.Known ∧
    (serveAll FleetEvent.commit plantFleet renamedAfter).assets.rows =
      [⟨1, "plant-server", some true, some "", some "", some "", some 1, none, none⟩] ∧
    (serveAll FleetEvent.commit plantFleet renamedAfter).assets.Distinct ItAsset.name? := by
  have hnames : plantFleet.assets.Distinct ItAsset.name? := by
    intro a ha a' ha' _ _
    rw [List.mem_singleton.mp ha, List.mem_singleton.mp ha']
  have hknown : plantFleet.Known := by
    intro a ha haccepted
    rw [List.mem_singleton.mp ha] at haccepted
    exact absurd haccepted (by simp [chillerPc, newItAsset])
  exact ⟨hnames, hknown, by decide +kernel, (fleet_known_iff hnames hknown renamedAfter).1⟩

end Medusa
