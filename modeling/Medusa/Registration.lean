import Medusa.Base64
import Medusa.Model
import Medusa.Requests
import Medusa.Separated

/-! Trend logs and the points they are for. `asset_xml_download` writes an identifier of
each point into the description of its trend log, and `register_points` looks for the log
with this description after the logs of a site have been imported. Its two versions, in
the scheduled tasks and in the event handler, do the same. -/

namespace Medusa

open Relational

/-- `'{}.{}.{}'.format(site, asset, point)` -/
def dotted (site asset point : Nat) : String :=
  ".".intercalate [site.repr, asset.repr, point.repr]

def asciiBytes (text : String) : List UInt8 := text.toList.map (fun c => UInt8.ofNat c.toNat)

def identifier (site asset point : Nat) : String :=
  "DONOTMODIFY:" ++ String.ofList (Base64.encode (asciiBytes (dotted site asset point)))

theorem dot_not_mem_repr (n : Nat) : '.' ∉ n.repr.toList := by
  intro h
  rw [Nat.toList_repr] at h
  exact absurd (Nat.isDigit_of_mem_toDigits (by omega) (by omega) h) (by decide)

theorem repr_toList_injective {m n : Nat} (h : m.repr.toList = n.repr.toList) : m = n := by
  rw [Nat.toList_repr, Nat.toList_repr] at h
  rw [← Nat.ofDigitChars_ten_toDigits (n := m), h, Nat.ofDigitChars_ten_toDigits]

theorem dotted_toList (site asset point : Nat) :
    (dotted site asset point).toList =
      ['.'].intercalate [site.repr.toList, asset.repr.toList, point.repr.toList] :=
  String.toList_intercalate

theorem dotted_injective {site asset point site' asset' point' : Nat}
    (h : dotted site asset point = dotted site' asset' point') :
    site = site' ∧ asset = asset' ∧ point = point' := by
  have hsplit : ∀ a b c : Nat, (dotted a b c).toList.splitOn '.' =
      [a.repr.toList, b.repr.toList, c.repr.toList] := by
    intro a b c
    rw [dotted_toList, List.splitOn_intercalate _ _ (by simp)]
    intro item hitem
    simp only [List.mem_cons, List.not_mem_nil, or_false] at hitem
    rcases hitem with rfl | rfl | rfl <;> exact dot_not_mem_repr _
  have hitems := hsplit site asset point
  rw [h, hsplit] at hitems
  simp only [List.cons.injEq, and_true] at hitems
  exact ⟨repr_toList_injective hitems.1.symm, repr_toList_injective hitems.2.1.symm,
    repr_toList_injective hitems.2.2.symm⟩

theorem ascii_of_mem_dotted {site asset point : Nat} {c : Char}
    (h : c ∈ (dotted site asset point).toList) : c.toNat < 256 := by
  rw [dotted_toList] at h
  rcases mem_intercalate h with rfl | ⟨item, hitem, hc⟩
  · decide
  · have hdigit : c.isDigit = true := by
      simp only [List.mem_cons, List.not_mem_nil, or_false] at hitem
      rcases hitem with rfl | rfl | rfl <;> rw [Nat.toList_repr] at hc <;>
        exact Nat.isDigit_of_mem_toDigits (by omega) (by omega) hc
    exact lt_of_le_of_lt (Char.isDigit_iff_toNat.mp hdigit).2 (by decide)

theorem asciiBytes_dotted (site asset point : Nat) :
    (asciiBytes (dotted site asset point)).map (fun b => Char.ofNat b.toNat) =
      (dotted site asset point).toList := by
  rw [asciiBytes, List.map_map]
  refine (List.map_congr_left ?_).trans (List.map_id _)
  intro c hc
  have hbyte : c.toNat % 2 ^ 8 = c.toNat := Nat.mod_eq_of_lt (ascii_of_mem_dotted hc)
  simp only [Function.comp_apply, UInt8.toNat_ofNat', hbyte, Char.ofNat_toNat, id]

theorem identifier_injective {site asset point site' asset' point' : Nat}
    (h : identifier site asset point = identifier site' asset' point') :
    site = site' ∧ asset = asset' ∧ point = point' := by
  have hbytes : asciiBytes (dotted site asset point) = asciiBytes (dotted site' asset' point') :=
    Base64.encode_injective (String.ofList_inj.mp ((String.append_right_inj _).mp h))
  apply dotted_injective
  rw [← String.toList_inj, ← asciiBytes_dotted, ← asciiBytes_dotted, hbytes]

example : identifier 1 2 3 = "DONOTMODIFY:MS4yLjM=" := by decide

/-- A log with its description. -/
structure TrendLog extends LoggedEntity where
  descr : Option String
deriving DecidableEq

def TrendLog.key (log : TrendLog) : Nat := log.medusaId

structure LogDb where
  sites : Table Site Site.id
  assets : Table Asset Asset.id
  assetPoints : Table AssetPoint AssetPoint.id
  loggedEntities : Table TrendLog TrendLog.key

def LogDb.identifier (db : LogDb) (point : AssetPoint) : Option String := do
  let asset ← db.assets.get? point.assetId
  let site ← db.sites.get? asset.siteId
  pure (Medusa.identifier site.id asset.id point.id)

structure Trend where
  name : String
  descr : String
deriving DecidableEq

structure Folder where
  name : String
  trends : List Trend
deriving DecidableEq

def LogDb.folder (db : LogDb) (asset : Asset) : Option Folder := do
  let trends ← (db.assetPoints.rows.filter (fun p => p.assetId == asset.id)).mapM (fun p =>
    (db.sites.get? asset.siteId).map (fun site =>
      Trend.mk (p.name ++ " Extended") (Medusa.identifier site.id asset.id p.id)))
  pure ⟨asset.name, trends⟩

def assetXmlDownload (db : LogDb) (assetIds : List Nat) : Option (List Folder) := do
  let assets ← assetIds.mapM (fun id => db.assets.one? (fun a => a.id == id))
  assets.mapM db.folder

def AssetPoint.record (log : Option Nat) (p : AssetPoint) : AssetPoint :=
  { p with loggedentityId := log }

theorem AssetPoint.record_id (log : Option Nat) (p : AssetPoint) : (p.record log).id = p.id := rfl

def LogDb.bind (db : LogDb) (point : Nat) (log : Option Nat) : LogDb :=
  { db with
    assetPoints := db.assetPoints.update (fun p => p.id == point) (AssetPoint.record log)
      (AssetPoint.record_id log) }

/-- Points and the logs that they are registered with, by their keys. -/
abbrev Bindings := List (Nat × Nat)

/-- One round of the loop. A log without a number leaves its point as it is. -/
def LogDb.registerPoint (db : LogDb) (point : AssetPoint) : Option (LogDb × Bindings) := do
  let identifier ← db.identifier point
  match db.loggedEntities.first? (fun e => e.descr == some identifier) with
  | none => pure (db, [])
  | some log =>
    pure (db.bind point.id log.id, if log.id.isSome then [(point.id, log.medusaId)] else [])

/-- Each point is committed on its own, and an exception ends the loop. -/
def LogDb.registerEach : LogDb → List AssetPoint → LogDb × Bindings
  | db, [] => (db, [])
  | db, point :: rest =>
    match db.registerPoint point with
    | none => (db, [])
    | some (db, bindings) => ((db.registerEach rest).1, bindings ++ (db.registerEach rest).2)

def LogDb.registerPoints (db : LogDb) : LogDb × Bindings :=
  db.registerEach (db.assetPoints.rows.filter (fun p => p.loggedentityId.isNone))

def TrendLog.withKey (log : TrendLog) (key : Nat) : TrendLog := { log with medusaId := key }

theorem TrendLog.withKey_key (log : TrendLog) (key : Nat) : (log.withKey key).key = key := rfl

def LogDb.importLog (db : LogDb) (log : TrendLog) : LogDb :=
  { db with loggedEntities := db.loggedEntities.insert log.withKey log.withKey_key }

inductive LogAction
  | importLog (log : TrendLog)
  | registerPoints

def LogDb.act (db : LogDb) : LogAction → LogDb × Bindings
  | .importLog log => (db.importLog log, [])
  | .registerPoints => db.registerPoints

def LogDb.run : LogDb → List LogAction → LogDb × Bindings
  | db, [] => (db, [])
  | db, action :: rest =>
    (((db.act action).1.run rest).1, (db.act action).2 ++ ((db.act action).1.run rest).2)

/-- The point has the number of the log, and the log has the identifier of the point. -/
def LogDb.Exact (db : LogDb) (b : Nat × Nat) : Prop :=
  ∃ p ∈ db.assetPoints.rows, ∃ log ∈ db.loggedEntities.rows, p.id = b.1 ∧ log.medusaId = b.2 ∧
    p.loggedentityId = log.id ∧ log.id.isSome = true ∧
    ∃ identifier, db.identifier p = some identifier ∧ log.descr = some identifier

/-- What imports and registrations do to the database. -/
structure Registers (db db' : LogDb) (bindings : Bindings) : Prop where
  sites : db'.sites = db.sites
  assets : db'.assets = db.assets
  logs : ∀ log ∈ db.loggedEntities.rows, log ∈ db'.loggedEntities.rows
  bound : ∀ b ∈ bindings, db'.Exact b
  once : (bindings.map Prod.fst).Nodup
  unbound : ∀ b ∈ bindings, ∃ p ∈ db.assetPoints.rows, p.id = b.1 ∧ p.loggedentityId = none
  kept : ∀ p : AssetPoint, p.id ∉ bindings.map Prod.fst →
    (p ∈ db'.assetPoints.rows ↔ p ∈ db.assetPoints.rows)

theorem LogDb.identifier_congr {db db' : LogDb} (hsites : db'.sites = db.sites)
    (hassets : db'.assets = db.assets) (p : AssetPoint) : db'.identifier p = db.identifier p := by
  unfold LogDb.identifier
  rw [hsites, hassets]

theorem Registers.refl (db : LogDb) : Registers db db [] :=
  ⟨rfl, rfl, fun _ h => h, by simp, by simp, by simp, fun _ _ => Iff.rfl⟩

/-- A point that is registered once is bound, so it is not registered again. -/
theorem Registers.disjoint {db db' db'' : LogDb} {first second : Bindings}
    (h : Registers db db' first) (h' : Registers db' db'' second) {p : Nat}
    (hp : p ∈ first.map Prod.fst) : p ∉ second.map Prod.fst := by
  intro hp'
  obtain ⟨b, hb, rfl⟩ := List.mem_map.mp hp
  obtain ⟨b', hb', hid⟩ := List.mem_map.mp hp'
  obtain ⟨q, hq, log, -, hqid, -, hbound, hnumber, -⟩ := h.bound b hb
  obtain ⟨q', hq', hqid', hfree⟩ := h'.unbound b' hb'
  have he : q' = q := Table.eq_of_key_eq hq' hq (by rw [hqid', hid, hqid])
  rw [he, hbound] at hfree
  rw [hfree] at hnumber
  exact absurd hnumber (by simp)

theorem Registers.trans {db db' db'' : LogDb} {first second : Bindings}
    (h : Registers db db' first) (h' : Registers db' db'' second) :
    Registers db db'' (first ++ second) := by
  refine ⟨h'.sites.trans h.sites, h'.assets.trans h.assets,
    fun log hlog => h'.logs log (h.logs log hlog), ?_, ?_, ?_, ?_⟩
  · intro b hb
    rcases List.mem_append.mp hb with hb | hb
    · obtain ⟨p, hp, log, hlog, hid, hkey, hbound, hnumber, identifier, hident, hdescr⟩ := h.bound b hb
      have hnot : p.id ∉ second.map Prod.fst :=
        hid ▸ h.disjoint h' (List.mem_map_of_mem hb)
      exact ⟨p, (h'.kept p hnot).mpr hp, log, h'.logs log hlog, hid, hkey, hbound, hnumber,
        identifier, by rw [LogDb.identifier_congr h'.sites h'.assets, hident], hdescr⟩
    · exact h'.bound b hb
  · rw [List.map_append, List.nodup_append]
    refine ⟨h.once, h'.once, ?_⟩
    rintro p hp _ hp' rfl
    exact h.disjoint h' hp hp'
  · intro b hb
    rcases List.mem_append.mp hb with hb | hb
    · exact h.unbound b hb
    · obtain ⟨p, hp, hid, hfree⟩ := h'.unbound b hb
      have hnot : p.id ∉ first.map Prod.fst := by
        intro hin
        exact h.disjoint h' hin (hid ▸ List.mem_map_of_mem hb)
      exact ⟨p, (h.kept p hnot).mp hp, hid, hfree⟩
  · intro p hp
    rw [List.map_append, List.mem_append, not_or] at hp
    rw [h'.kept p hp.2, h.kept p hp.1]

/-- Either no log has the identifier of the point, or the point is given the number of
one that has it. -/
theorem LogDb.registerPoint_cases {db db' : LogDb} {point : AssetPoint} {bindings : Bindings}
    (h : db.registerPoint point = some (db', bindings)) :
    (db' = db ∧ bindings = []) ∨
    ∃ log ∈ db.loggedEntities.rows, ∃ identifier, db.identifier point = some identifier ∧
      log.descr = some identifier ∧ db' = db.bind point.id log.id ∧
      bindings = if log.id.isSome then [(point.id, log.medusaId)] else [] := by
  simp only [LogDb.registerPoint, Option.bind_eq_bind, Option.bind_eq_some_iff] at h
  obtain ⟨identifier, hident, h⟩ := h
  split at h
  · obtain ⟨rfl, rfl⟩ := Prod.mk.inj (Option.some.inj h)
    exact Or.inl ⟨rfl, rfl⟩
  · next log hlog =>
    obtain ⟨rfl, rfl⟩ := Prod.mk.inj (Option.some.inj h)
    obtain ⟨hmem, hdescr⟩ := Table.mem_of_first? hlog
    exact Or.inr ⟨log, hmem, identifier, hident, by simpa using hdescr, rfl, rfl⟩

theorem LogDb.registers_point {db db' : LogDb} {point : AssetPoint} {bindings : Bindings}
    (hpoint : point ∈ db.assetPoints.rows) (hfree : point.loggedentityId = none)
    (h : db.registerPoint point = some (db', bindings)) : Registers db db' bindings := by
  rcases LogDb.registerPoint_cases h with
    ⟨rfl, rfl⟩ | ⟨log, hmem, identifier, hident, hdescr, rfl, rfl⟩
  · exact Registers.refl db'
  · have hrows : ∀ p : AssetPoint, p ∈ (db.bind point.id log.id).assetPoints.rows ↔
        p = point.record log.id ∨ (p ∈ db.assetPoints.rows ∧ p.id ≠ point.id) :=
      fun p => Table.mem_update_row hpoint (AssetPoint.record_id log.id)
    cases hnumber : log.id with
    | none =>
      -- nothing is assigned, since the point had no number either
      have hsame : point.record none = point := by rw [← hfree]; rfl
      rw [hnumber, hsame] at hrows
      refine ⟨rfl, rfl, fun _ hlog => hlog, by simp, by simp, by simp, fun p _ => ?_⟩
      rw [hrows]
      constructor
      · rintro (rfl | ⟨hp, -⟩)
        · exact hpoint
        · exact hp
      · intro hp
        by_cases hid : p.id = point.id
        · exact Or.inl (Table.eq_of_key_eq hp hpoint hid)
        · exact Or.inr ⟨hp, hid⟩
    | some number =>
      rw [hnumber] at hrows
      refine ⟨rfl, rfl, fun _ hlog => hlog, ?_, by simp, ?_, ?_⟩
      · intro b hb
        rw [List.mem_singleton.mp hb]
        exact ⟨_, (hrows _).mpr (Or.inl rfl), log, hmem, rfl, rfl, hnumber.symm, by simp [hnumber],
          identifier, hident, hdescr⟩
      · intro b hb
        rw [List.mem_singleton.mp hb]
        exact ⟨point, hpoint, rfl, hfree⟩
      · intro p hp
        have hid : p.id ≠ point.id := by simpa using hp
        rw [hrows]
        constructor
        · rintro (rfl | ⟨hp, -⟩)
          · exact absurd rfl hid
          · exact hp
        · exact fun hp => Or.inr ⟨hp, hid⟩

theorem LogDb.registerPoint_own {db db' : LogDb} {point : AssetPoint} {bindings : Bindings}
    (h : db.registerPoint point = some (db', bindings)) : ∀ b ∈ bindings, b.1 = point.id := by
  rcases LogDb.registerPoint_cases h with ⟨-, rfl⟩ | ⟨log, -, identifier, -, -, -, rfl⟩
  · simp
  · intro b hb
    split at hb
    · rw [List.mem_singleton.mp hb]
    · simp at hb

theorem LogDb.registers_each {points : List AssetPoint} {db : LogDb}
    (hpoints : ∀ p ∈ points, p ∈ db.assetPoints.rows ∧ p.loggedentityId = none)
    (hnodup : (points.map AssetPoint.id).Nodup) :
    Registers db (db.registerEach points).1 (db.registerEach points).2 := by
  induction points generalizing db with
  | nil => exact Registers.refl db
  | cons point rest ih =>
    rw [List.map_cons, List.nodup_cons] at hnodup
    obtain ⟨hpoint, hfree⟩ := hpoints point List.mem_cons_self
    unfold LogDb.registerEach
    split
    · exact Registers.refl db
    · next db' bindings hregister =>
      have hfirst := LogDb.registers_point hpoint hfree hregister
      -- the points that come later are still as they were read
      refine hfirst.trans (ih ?_ hnodup.2)
      intro p hp
      have hrow := hpoints p (List.mem_cons_of_mem _ hp)
      refine ⟨(hfirst.kept p ?_).mpr hrow.1, hrow.2⟩
      intro hin
      obtain ⟨b, hb, hid⟩ := List.mem_map.mp hin
      have hown := LogDb.registerPoint_own hregister b hb
      exact hnodup.1 (List.mem_map.mpr ⟨p, hp, hid.symm.trans hown⟩)

theorem LogDb.registers_act (db : LogDb) (action : LogAction) :
    Registers db (db.act action).1 (db.act action).2 := by
  cases action with
  | importLog log =>
    refine ⟨rfl, rfl, ?_, by simp [LogDb.act], by simp [LogDb.act], by simp [LogDb.act], fun _ _ => Iff.rfl⟩
    intro log' hlog'
    exact List.mem_append_left _ hlog'
  | registerPoints =>
    apply LogDb.registers_each
    · intro p hp
      simpa using List.mem_filter.mp hp
    · exact db.assetPoints.nodup.sublist (List.filter_sublist.map _)

theorem LogDb.registers_run (db : LogDb) (actions : List LogAction) :
    Registers db (db.run actions).1 (db.run actions).2 := by
  induction actions generalizing db with
  | nil => exact Registers.refl db
  | cons action rest ih => exact (db.registers_act action).trans (ih _)

/-- Two logs would have the same identifier if one log were registered for two points. -/
theorem Registers.logs_nodup {db db' : LogDb} {bindings : Bindings}
    (h : Registers db db' bindings) : (bindings.map Prod.snd).Nodup := by
  refine List.Nodup.map_on ?_ (List.Nodup.of_map _ h.once)
  intro b hb b' hb' hsame
  obtain ⟨p, -, log, hlog, hid, hkey, -, -, identifier, hident, hdescr⟩ := h.bound b hb
  obtain ⟨p', -, log', hlog', hid', hkey', -, -, identifier', hident', hdescr'⟩ := h.bound b' hb'
  obtain rfl : log = log' := Table.eq_of_key_eq hlog hlog' (hkey.trans (hsame.trans hkey'.symm))
  obtain rfl : identifier = identifier' := Option.some.inj (hdescr.symm.trans hdescr')
  simp only [LogDb.identifier, Option.bind_eq_bind, Option.bind_eq_some_iff, Option.pure_def,
    Option.some.injEq] at hident hident'
  obtain ⟨_, -, _, -, he⟩ := hident
  obtain ⟨_, -, _, -, he'⟩ := hident'
  have hpoints := (identifier_injective (he.trans he'.symm)).2.2
  exact Prod.ext (hid.symm.trans (hpoints.trans hid')) hsame

/-- The file for the assets has a trend log for each of their points, with the identifier
that the registration looks for. -/
theorem assetXmlDownload_identifier {db : LogDb} {assetIds : List Nat} {folders : List Folder}
    (h : assetXmlDownload db assetIds = some folders) {p : AssetPoint}
    (hp : p ∈ db.assetPoints.rows) (hasset : p.assetId ∈ assetIds) :
    ∃ identifier, db.identifier p = some identifier ∧ ∃ folder ∈ folders,
      ⟨p.name ++ " Extended", identifier⟩ ∈ folder.trends := by
  simp only [assetXmlDownload, Option.bind_eq_bind, Option.bind_eq_some_iff] at h
  obtain ⟨assets, hassets, hfolders⟩ := h
  rw [mapM_eq_some] at hassets hfolders
  obtain ⟨a, ha, hone⟩ := List.mem_map.mp (hassets ▸ List.mem_map_of_mem hasset)
  obtain ⟨folder, hfolder, hf⟩ := List.mem_map.mp (hfolders ▸ List.mem_map_of_mem ha)
  have hrow := (Table.one?_eq_some.mp hone.symm).1
  have hid : a.id = p.assetId := beq_iff_eq.mp hrow.2
  simp only [LogDb.folder, Option.bind_eq_bind] at hf
  obtain ⟨trends, htrends, he⟩ := Option.bind_eq_some_iff.mp hf.symm
  rw [mapM_eq_some] at htrends
  have hown : p ∈ db.assetPoints.rows.filter (fun p => p.assetId == a.id) :=
    List.mem_filter.mpr ⟨hp, beq_iff_eq.mpr hid.symm⟩
  obtain ⟨trend, htrend, ht⟩ := List.mem_map.mp (htrends ▸ List.mem_map_of_mem hown)
  obtain ⟨site, hsite, hs⟩ := Option.map_eq_some_iff.mp ht.symm
  refine ⟨Medusa.identifier site.id a.id p.id, ?_, folder, hfolder, ?_⟩
  · have hget : db.assets.get? p.assetId = some a := Table.get?_eq_some.mpr ⟨hrow.1, hid⟩
    simp [LogDb.identifier, hget, hsite]
  · rw [← Option.some.inj he, hs]
    exact htrend

/-- Identifiers tell points apart. Along any run of imports and registrations, each point
that is registered has the number of a log with the identifier that is exported for it,
it is registered once and with a log of its own, and the points that had a log keep it. -/
theorem registration_exact (db : LogDb) (actions : List LogAction) :
    (∀ site asset point site' asset' point' : Nat,
      identifier site asset point = identifier site' asset' point' →
        site = site' ∧ asset = asset' ∧ point = point') ∧
    let db' := (db.run actions).1
    let bindings := (db.run actions).2
    (∀ b ∈ bindings, ∃ p ∈ db'.assetPoints.rows, ∃ log ∈ db'.loggedEntities.rows,
      p.id = b.1 ∧ log.medusaId = b.2 ∧ p.loggedentityId = log.id ∧ log.id.isSome = true ∧
      ∃ identifier, db'.identifier p = some identifier ∧ log.descr = some identifier ∧
        ∀ assetIds folders, assetXmlDownload db' assetIds = some folders → p.assetId ∈ assetIds →
          ∃ folder ∈ folders, ⟨p.name ++ " Extended", identifier⟩ ∈ folder.trends) ∧
    (bindings.map Prod.fst).Nodup ∧ (bindings.map Prod.snd).Nodup ∧
    (∀ p ∈ db'.assetPoints.rows, p ∈ db.assetPoints.rows ∨ p.id ∈ bindings.map Prod.fst) ∧
    ∀ p ∈ db.assetPoints.rows, p.loggedentityId.isSome = true →
      p ∈ db'.assetPoints.rows ∧ p.id ∉ bindings.map Prod.fst := by
  have hrun := db.registers_run actions
  refine ⟨fun _ _ _ _ _ _ h => identifier_injective h, ?_, hrun.once, hrun.logs_nodup, ?_, ?_⟩
  · intro b hb
    obtain ⟨p, hp, log, hlog, hid, hkey, hbound, hnumber, identifier, hident, hdescr⟩ :=
      hrun.bound b hb
    refine ⟨p, hp, log, hlog, hid, hkey, hbound, hnumber, identifier, hident, hdescr, ?_⟩
    intro assetIds folders hfile hasset
    obtain ⟨identifier', hident', hfolder⟩ := assetXmlDownload_identifier hfile hp hasset
    obtain rfl : identifier' = identifier := Option.some.inj (hident'.symm.trans hident)
    exact hfolder
  · intro p hp
    by_cases hin : p.id ∈ (db.run actions).2.map Prod.fst
    · exact Or.inr hin
    · exact Or.inl ((hrun.kept p hin).mp hp)
  · intro p hp hbound
    have hnot : p.id ∉ (db.run actions).2.map Prod.fst := by
      intro hin
      obtain ⟨b, hb, hid⟩ := List.mem_map.mp hin
      obtain ⟨q, hq, hqid, hfree⟩ := hrun.unbound b hb
      rw [Table.eq_of_key_eq hp hq (hid.symm.trans hqid.symm), hfree] at hbound
      simp at hbound
    exact ⟨(hrun.kept p hnot).mpr hp, hnot⟩

end Medusa
