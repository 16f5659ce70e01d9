import Medusa.Exclusions

/-! The algorithms that an edit leaves to be run. The page ticks those that the asset runs
before the edit, and shows the others only if they are mapped to the asset. The request
excludes whatever is not ticked, also what the edit itself makes applicable. -/

namespace Medusa

open Relational

/-- What `Asset.map` asks of the stored rows. -/
def Db.MapsTo (db : Db) (asset : Nat) (g : Algorithm) : Prop :=
  g.isMapped = true ∧
  (∀ t, (g.id, t) ∈ db.algoPointMapping → ∃ p ∈ db.pointsOf asset, p.typeId = t) ∧
  ∀ f, (g.id, f) ∈ db.algoFunctionMapping → (asset, f) ∈ db.assetFunctionMapping

/-- The asset has the descriptors of the algorithm after the edit, and had or gets a point of
every type. -/
def EditPlan.Maps (plan : EditPlan) (db : Db) (asset : Nat) (g : Algorithm) : Prop :=
  g.isMapped = true ∧
  (∀ f, (g.id, f) ∈ db.algoFunctionMapping → (asset, f) ∈ plan.functions) ∧
  ∀ t, (g.id, t) ∈ db.algoPointMapping →
    (∃ p ∈ db.pointsOf asset, p.typeId = t) ∨ t ∈ plan.added

def EditPlan.LosesType (plan : EditPlan) (db : Db) (asset : Nat) (g : Algorithm) : Prop :=
  ∃ t, (g.id, t) ∈ db.algoPointMapping ∧ t ∉ plan.added ∧
    ∀ p ∈ db.pointsOf asset, p.typeId = t → p.id ∈ plan.dropped

/-- What an edit of points and descriptors should leave of the choice of algorithms. -/
structure ChoiceKept (db db' : Db) (asset : Asset) : Prop where
  runs : ∀ g, g ∈ db'.toRun asset ↔ g ∈ db.algorithms.rows ∧ db'.MapsTo asset.id g ∧
    (asset.id, g.id) ∉ db.algoExclusions
  unseen : ∀ g ∈ db.algorithms.rows, (asset.id, g.id) ∉ db.algoAssetMapping →
    (asset.id, g.id) ∉ db.algoExclusions → (asset.id, g.id) ∉ db'.algoExclusions

section Session

variable {db : Db} {a : Nat} {form : AssetForm} {s s' : Session}

/-- The session has deleted no point of `db`, and the mapping of the asset is right unless it
has pending changes. -/
def EditingAt (db : Db) (a : Nat) (s : Session) : Prop := PointsKept db s ∧ TidyAt a s

def ReadyAt (db : Db) (a : Nat) (s : Session) : Prop := TypesHeld db s ∧ TidyAt a s

theorem ReadyAt.access (h : ReadyAt db a s) : ReadyAt db a s.access := ⟨h.1.access, h.2.access⟩

theorem ReadyAt.touched (h : ReadyAt db a s) (ht : Touched a s s') (hghosts : s'.ghosts = s.ghosts)
    (hpoints : s'.db.assetPoints = s.db.assetPoints) : ReadyAt db a s' :=
  ⟨h.1.of_points hghosts hpoints, h.2.touched ht⟩

theorem EditingAt.fieldRule : FieldRule a form (EditingAt db a) :=
  FieldRule.of_assignLog (fun h => ⟨h.1.access, h.2.access⟩)
    (fun {s} type name h =>
      ⟨h.1.createPoint a type name, h.2.touched (Touched.createPoint s a type name)⟩)
    (fun {s} point log h =>
      ⟨h.1.assignLog a point log, h.2.touched (Touched.assignLog s a point log)⟩)

theorem EditingAt.editDetails (hs : EditingAt db a s) (hpoints : s.db.assetPoints = db.assetPoints)
    (h : editDetails a form s = some s') : ReadyAt db a s' := by
  have hdelete : ∀ {s₁ : Session} {old : List Nat}, EditingAt db a s₁ →
      (∀ id ∈ old, ∃ p₀ ∈ db.assetPoints.rows, p₀.id = id) →
      ReadyAt db a ((s₁.deletePoints a old).access.clearDescriptors a) := by
    intro s₁ old h₁ hold
    have hdeleted : ReadyAt db a (s₁.deletePoints a old) :=
      ⟨h₁.1.deletePoints a hold, h₁.2.touched (Touched.deletePoints s₁ a old)⟩
    exact hdeleted.access.touched (Touched.clearDescriptors _ a) rfl rfl
  exact EditingAt.fieldRule.editDetails (Q := ReadyAt db a) h hs hpoints hdelete
    ReadyAt.access (fun f h => h.touched (Touched.addDescriptor _ a f) rfl rfl)
    (fun h => h.touched (Touched.clearExclusions _ a) rfl rfl)
    (fun inclusions h => h.touched (Touched.exclude _ a inclusions) rfl rfl)

theorem EditingAt.edited (loads : Nat → Bool) (db : Db) (assets : Table Asset Asset.id)
    (a : Nat) :
    EditingAt db a (Session.edited loads db assets a).commit := by
  have hkept : PointsKept db (Session.edited loads db assets a) :=
    ⟨rfl, fun p₀ hp₀ => ⟨p₀, hp₀, rfl, rfl, rfl⟩⟩
  have htidy : TidyAt a (Session.edited loads db assets a) :=
    fun g _ hd => absurd List.mem_cons_self hd
  exact ⟨hkept.commit, hkept.commit_tidyAt htidy⟩

/-- The mapping of the asset after the edit: a point that the edit deletes still counts. -/
theorem ReadyAt.commit_iff {plan : EditPlan} (h : ReadyAt db a s) (hfollows : Follows db a plan s)
    {g : Algorithm} (hg : g ∈ db.algorithms.rows) :
    (a, g.id) ∈ s.commit.db.algoAssetMapping ↔ plan.Maps db a g := by
  have hA : s.db.algorithms = db.algorithms := (congrArg Db.algorithms hfollows.lookups :)
  have hrow : g ∈ s.db.algorithms.rows := hA ▸ hg
  have hP : s.db.algoPointMapping = db.algoPointMapping :=
    (congrArg Db.algoPointMapping hfollows.lookups :)
  have hF : s.db.algoFunctionMapping = db.algoFunctionMapping :=
    (congrArg Db.algoFunctionMapping hfollows.lookups :)
  have htypes : ∀ t, t ∈ s.getPointTypes a ↔
      (∃ p ∈ db.pointsOf a, p.typeId = t) ∨ t ∈ plan.added := by
    intro t
    rw [h.1 a t, hfollows.types_iff]
    constructor
    · rintro ((⟨p, hp, -, ht⟩ | ⟨-, ht⟩) | hp)
      · exact Or.inl ⟨p, hp, ht⟩
      · exact Or.inr ht
      · exact Or.inl hp
    · rintro (hp | ht)
      · exact Or.inr hp
      · exact Or.inl (Or.inr ⟨rfl, ht⟩)
  refine (h.2.flush g.id (List.mem_map_of_mem hrow)).trans ?_
  rw [Session.related_iff hrow, hP, hF, hfollows.functions]
  simp only [htypes, EditPlan.Maps]
  exact and_congr_right fun _ => and_comm

theorem Follows.mapsTo_iff {plan : EditPlan} (h : Follows db a plan s) (g : Algorithm) :
    s.db.MapsTo a g ↔ plan.Maps db a g ∧ ¬ plan.LosesType db a g := by
  have hP : s.db.algoPointMapping = db.algoPointMapping := (congrArg Db.algoPointMapping h.lookups :)
  have hF : s.db.algoFunctionMapping = db.algoFunctionMapping :=
    (congrArg Db.algoFunctionMapping h.lookups :)
  unfold Db.MapsTo EditPlan.Maps EditPlan.LosesType
  rw [hP, hF, h.functions]
  simp only [h.types_iff, true_and]
  constructor
  · rintro ⟨hmapped, htypes, hfunctions⟩
    refine ⟨⟨hmapped, hfunctions, ?_⟩, ?_⟩
    · intro t ht
      rcases htypes t ht with ⟨p, hp, -, hpt⟩ | hnew
      · exact Or.inl ⟨p, hp, hpt⟩
      · exact Or.inr hnew
    · rintro ⟨t, ht, hadded, hlast⟩
      rcases htypes t ht with ⟨p, hp, hid, hpt⟩ | hnew
      · exact hid (hlast p hp hpt)
      · exact hadded hnew
  · rintro ⟨⟨hmapped, hfunctions, -⟩, hkept⟩
    refine ⟨hmapped, ?_, hfunctions⟩
    intro t ht
    by_contra hno
    obtain ⟨hlost, hadded⟩ := not_or.mp hno
    refine hkept ⟨t, ht, hadded, ?_⟩
    intro p hp hpt
    by_contra hid
    exact hlost ⟨p, hp, hid, hpt⟩

end Session

/-- The ticks of the page: the algorithms that are mapped to the asset and not excluded. -/
def AssetForm.TicksKept (form : AssetForm) (db : Db) (asset : Asset) : Prop :=
  ∀ descr, descr ∈ form.algorithms ↔ ∃ g ∈ db.toRun asset, g.descr = descr

theorem Db.mem_toRun {db : Db} {asset : Asset} {g : Algorithm} :
    g ∈ db.toRun asset ↔ g ∈ db.algorithms.rows ∧ (asset.id, g.id) ∈ db.algoAssetMapping ∧
      (asset.id, g.id) ∉ db.algoExclusions := by
  simp [Db.toRun]

theorem AssetForm.TicksKept.ticked_iff {form : AssetForm} {db : Db} {asset : Asset} {ids : List Nat}
    (h : form.TicksKept db asset) (hids : db.ticked form.algorithms = some ids) {g : Algorithm}
    (hg : g ∈ db.algorithms.rows) : g.id ∈ ids ↔ g ∈ db.toRun asset := by
  constructor
  · intro hid
    obtain ⟨descr, hdescr, g', hg', he⟩ := Db.exists_of_ticked hids hid
    obtain ⟨hrow, hunique⟩ := Table.one?_eq_some.mp hg'
    obtain rfl := Table.eq_of_key_eq hrow.1 hg he
    obtain ⟨r, hr, rfl⟩ := (h descr).mp hdescr
    obtain rfl := hunique r (Db.mem_toRun.mp hr).1 (by simp)
    exact hr
  · intro hrun
    obtain ⟨g', hg', hid⟩ := Db.one?_of_ticked hids ((h g.descr).mpr ⟨g, hrun, rfl⟩)
    obtain ⟨-, hunique⟩ := Table.one?_eq_some.mp hg'
    rw [hunique g hg (by simp)]
    exact hid

/-- What an edit with the ticks as they were does to the choice of algorithms. -/
theorem editAsset_choice (loads : Nat → Bool) {db : Db} {sitename : String} {asset : Asset}
    {form : AssetForm} {plan : EditPlan} (hpage : form.TicksKept db asset)
    (hplan : form.plan db sitename asset.id = some plan) {g : Algorithm}
    (hg : g ∈ db.algorithms.rows) :
    ((asset.id, g.id) ∈ (editAsset loads db sitename asset.id form).algoAssetMapping ↔
      plan.Maps db asset.id g) ∧
    ((asset.id, g.id) ∈ (editAsset loads db sitename asset.id form).algoExclusions ↔
      g ∉ db.toRun asset) ∧
    ((editAsset loads db sitename asset.id form).MapsTo asset.id g ↔
      plan.Maps db asset.id g ∧ ¬ plan.LosesType db asset.id g) := by
  obtain ⟨ids, hids, hexclusions⟩ := editAsset_exclusions loads hplan
  obtain ⟨assets, s', -, -, hdetails, hedit, hfollows, -⟩ := editAsset_of_plan loads hplan
  have hready := (EditingAt.edited loads db assets asset.id).editDetails
    (Session.edited_points loads db assets asset.id) hdetails
  refine ⟨?_, ?_, ?_⟩
  · rw [hedit]
    exact hready.commit_iff hfollows hg
  · rw [← Db.mem_exclusionsOf, hexclusions, Db.mem_allBut, hpage.ticked_iff hids hg]
    exact and_iff_right (List.mem_map_of_mem hg)
  · rw [hedit]
    exact hfollows.commit.mapsTo_iff g

/-- An edit with the ticks as they were leaves the right algorithms to be run, and excludes
none that the page did not show, exactly if before it every algorithm is mapped to the asset or
excluded, and it takes the last point of no algorithm that applies otherwise. -/
theorem editAsset_choiceKept_iff (loads : Nat → Bool) {db : Db} {sitename : String} {asset : Asset}
    {form : AssetForm} {plan : EditPlan} (hpage : form.TicksKept db asset)
    (hplan : form.plan db sitename asset.id = some plan) :
    ChoiceKept db (editAsset loads db sitename asset.id form) asset ↔
      ∀ g ∈ db.algorithms.rows, (asset.id, g.id) ∉ db.algoExclusions →
        (asset.id, g.id) ∈ db.algoAssetMapping ∧
          ¬ (plan.Maps db asset.id g ∧ plan.LosesType db asset.id g) := by
  have halgorithms : (editAsset loads db sitename asset.id form).algorithms = db.algorithms := by
    obtain ⟨assets, s', -, -, -, hedit, hfollows, -⟩ := editAsset_of_plan loads hplan
    rw [hedit]
    exact (congrArg Db.algorithms hfollows.commit.lookups :)
  have hchoice := fun {g} (hg : g ∈ db.algorithms.rows) => editAsset_choice loads hpage hplan hg
  constructor
  · rintro ⟨hruns, hunseen⟩ g hg hnot
    obtain ⟨hmapping, hexcluded, hmaps⟩ := hchoice hg
    -- an algorithm that the page does not show is not ticked, so the edit excludes it
    have hmapped : (asset.id, g.id) ∈ db.algoAssetMapping := by
      by_contra hno
      refine hunseen g hg hno hnot (hexcluded.mpr ?_)
      intro hrun
      exact hno (Db.mem_toRun.mp hrun).2.1
    have hrun : g ∈ db.toRun asset := Db.mem_toRun.mpr ⟨hg, hmapped, hnot⟩
    refine ⟨hmapped, ?_⟩
    rintro ⟨hplanned, hloses⟩
    have hafter : g ∈ (editAsset loads db sitename asset.id form).toRun asset :=
      Db.mem_toRun.mpr ⟨halgorithms ▸ hg, hmapping.mpr hplanned, fun he => hexcluded.mp he hrun⟩
    exact (hmaps.mp ((hruns g).mp hafter).2.1).2 hloses
  · intro hall
    refine ⟨?_, ?_⟩
    · intro g
      rw [Db.mem_toRun, halgorithms]
      refine and_congr_right fun hg => ?_
      obtain ⟨hmapping, hexcluded, hmaps⟩ := hchoice hg
      rw [hmapping, hexcluded, hmaps, not_not, Db.mem_toRun]
      constructor
      · rintro ⟨hplanned, -, -, hnot⟩
        exact ⟨⟨hplanned, fun hloses => (hall g hg hnot).2 ⟨hplanned, hloses⟩⟩, hnot⟩
      · rintro ⟨⟨hplanned, -⟩, hnot⟩
        exact ⟨hplanned, hg, (hall g hg hnot).1, hnot⟩
    · intro g hg hno hnot
      exact absurd (hall g hg hnot).1 hno

/-- The plant with a second algorithm, for which the fan unit has no point yet. -/
def filterPlant : Db :=
  { twoChecks with
    pointTypes := ⟨[⟨1, "fan status"⟩, ⟨2, "filter pressure"⟩], by decide⟩
    algoPointMapping := {(1, 1), (2, 2)} }

def filterForm : AssetForm :=
  fanForm fun i => match i with
    | 1 => ⟨some (some 1), none, some ""⟩
    | 2 => ⟨none, some "filter pressure", some ""⟩
    | _ => noField

theorem filterForm_ticksKept {db : Db} (h : db.toRun fanUnit = [fanCheck]) :
    filterForm.TicksKept db fanUnit := by
  intro descr
  rw [h]
  simp [filterForm, fanForm, fanCheck, eq_comm]

theorem editAsset_choiceKept_iff_excludedFilter :
    let db := { filterPlant with algoExclusions := {(1, 2)} }
    filterForm.TicksKept db fanUnit ∧ filterForm.plan db "plant" 1 = some ⟨[], [2], ∅⟩ ∧
      ChoiceKept db (editAsset (fun _ => true) db "plant" 1 filterForm) fanUnit := by
  intro db
  have hpage : filterForm.TicksKept db fanUnit := filterForm_ticksKept (by decide +kernel)
  have hplan : filterForm.plan db "plant" fanUnit.id = some ⟨[], [2], ∅⟩ := by decide +kernel
  refine ⟨hpage, hplan, (editAsset_choiceKept_iff (fun _ => true) hpage hplan).mpr ?_⟩
  intro g hg hnot
  have hcases : g = fanCheck ∨ g.id = 2 := by
    rcases List.mem_cons.mp hg with rfl | hg
    · exact Or.inl rfl
    · exact Or.inr (congrArg Algorithm.id (List.mem_singleton.mp hg))
  rcases hcases with rfl | hid
  · refine ⟨by decide, ?_⟩
    -- the one point of the unit stays
    rintro ⟨-, t, ht, -, hlast⟩
    obtain rfl : t = 1 := by simpa [db, filterPlant, fanCheck] using ht
    have hpoint : (⟨1, "fan status", 1, 1, none⟩ : AssetPoint) ∈ db.pointsOf 1 := by decide
    exact List.not_mem_nil (hlast _ hpoint rfl)
  · rw [hid] at hnot
    exact absurd (by decide) hnot

/-- The new point makes the second algorithm applicable, which the page did not show. It is
mapped to the unit and excluded by one and the same request. -/
theorem editAsset_excludes_unseen :
    let db' := editAsset (fun _ => true) filterPlant "plant" 1 filterForm
    filterForm.TicksKept filterPlant fanUnit ∧ (1, 2) ∉ filterPlant.algoAssetMapping ∧
      (1, 2) ∉ filterPlant.algoExclusions ∧ (1, 2) ∈ db'.algoAssetMapping ∧
      (1, 2) ∈ db'.algoExclusions ∧ db'.toRun fanUnit = [fanCheck] ∧
      ¬ ChoiceKept filterPlant db' fanUnit := by
  intro db'
  have hexcluded : (1, 2) ∈ db'.algoExclusions := by decide +kernel
  refine ⟨filterForm_ticksKept (by decide +kernel), by decide, by decide, by decide +kernel,
    hexcluded, by decide +kernel, ?_⟩
  intro h
  exact h.unseen ⟨2, "FilterCheck", "filter is blocked", true⟩ (by decide) (by decide) (by decide)
    hexcluded

end Medusa
