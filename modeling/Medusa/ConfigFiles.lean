import Mathlib.Data.List.Dedup
import Medusa.Listing
import Medusa.Requests

/-! The listing of the configuration files in their bucket. The store lists the keys
under a source with all keys of a subdirectory rolled up into one entry, in pages, and
the subdirectories are listed by recursion. -/

namespace Medusa

open Relational

/-- An entry of a listing: a subdirectory with all that is below it, or an object. -/
inductive ListEntry
  | subdir (path : List Char)
  | object (key : List Char)
deriving DecidableEq

def ListEntry.subdir? : ListEntry → Option (List Char)
  | .subdir path => some path
  | .object _ => none

def ListEntry.object? : ListEntry → Option (List Char)
  | .subdir _ => none
  | .object key => some key

/-- The entry under which a key is listed: up to the first delimiter after the source. -/
def rollUp (source key : List Char) : ListEntry :=
  let rest := key.drop source.length
  if '/' ∈ rest then .subdir (source ++ rest.takeWhile (fun c => c != '/') ++ ['/'])
  else .object key

/-- The keys in a bucket are different. -/
structure Bucket where
  keys : List (List Char)
  nodup : keys.Nodup

def Bucket.listObjects (bucket : Bucket) (source : List Char) : List ListEntry :=
  ((bucket.keys.filter (fun key => source.isPrefixOf key)).map (rollUp source)).dedup

/-- How the store divides a listing into pages. -/
structure Paginator where
  paginate : List ListEntry → List (List ListEntry)
  flatten_paginate : ∀ entries, (paginate entries).flatten = entries

/-- A key that ends in the delimiter stands for a directory. -/
def isFile (key : List Char) : Bool := key.getLast? != some '/'

/-- `none` if the recursion goes deeper than the fuel. -/
def listFiles (paginator : Paginator) (bucket : Bucket) : Nat → List Char →
    Option (List (List Char))
  | 0, _ => none
  | fuel + 1, source => do
    let results ← (paginator.paginate (bucket.listObjects source)).mapM (fun result => do
      let nested ← (result.filterMap ListEntry.subdir?).mapM (listFiles paginator bucket fuel)
      pure (nested.flatten ++ (result.filterMap ListEntry.object?).filter isFile))
    pure results.flatten

/-- No recursion goes deeper than the longest key. -/
def Bucket.depth (bucket : Bucket) : Nat := (bucket.keys.map List.length).foldr max 0 + 1

/-- The path of a file below the local directory. -/
def relPath (source fullPath : List Char) : List Char := fullPath.drop (source.length + 1)

/-- What is to be listed: the files whose keys start with the source. -/
def Bucket.filesUnder (bucket : Bucket) (source : List Char) : List (List Char) :=
  bucket.keys.filter (fun key => source.isPrefixOf key && isFile key)

/-- The files of one entry. -/
def Bucket.filesOf (bucket : Bucket) : ListEntry → List (List Char)
  | .subdir path => bucket.filesUnder path
  | .object key => [key].filter isFile

theorem rollUp_append_cons (source : List Char) {name : List Char} (hname : '/' ∉ name)
    (more : List Char) :
    rollUp source (source ++ (name ++ '/' :: more)) = .subdir (source ++ name ++ ['/']) := by
  have htake : (name ++ '/' :: more).takeWhile (fun c => c != '/') = name := by
    rw [List.takeWhile_append_of_pos]
    · simp
    · intro c hc
      simpa using fun he : c = '/' => hname (he ▸ hc)
  simp [rollUp, htake]

theorem rollUp_append (source : List Char) {rest : List Char} (hrest : '/' ∉ rest) :
    rollUp source (source ++ rest) = .object (source ++ rest) := by
  simp [rollUp, hrest]

/-- The keys of a subdirectory are those that are listed under it. -/
theorem rollUp_eq_subdir {source key name : List Char} (hname : '/' ∉ name) :
    source <+: key ∧ rollUp source key = .subdir (source ++ name ++ ['/']) ↔
      source ++ name ++ ['/'] <+: key := by
  constructor
  · rintro ⟨⟨rest, rfl⟩, hroll⟩
    by_cases hmem : '/' ∈ rest
    · obtain ⟨name', more, rfl, hname'⟩ := List.eq_append_cons_of_mem hmem
      rw [rollUp_append_cons source hname'] at hroll
      obtain rfl : name' = name := by simpa using hroll
      exact ⟨more, by simp⟩
    · rw [rollUp_append source hmem] at hroll
      cases hroll
  · rintro ⟨more, rfl⟩
    refine ⟨⟨name ++ '/' :: more, by simp⟩, ?_⟩
    have hroll := rollUp_append_cons source hname more
    simpa using hroll

theorem rollUp_eq_object {source key key' : List Char} (h : rollUp source key = .object key') :
    key = key' := by
  simp only [rollUp] at h
  split at h
  · cases h
  · simpa using h

/-- Every entry of a listing has the keys that are rolled up into it. -/
theorem Bucket.filesOf_eq {bucket : Bucket} {source : List Char} {entry : ListEntry}
    (h : entry ∈ bucket.listObjects source) :
    bucket.filesOf entry =
      (bucket.filesUnder source).filter (fun key => decide (rollUp source key = entry)) := by
  simp only [Bucket.listObjects, List.mem_dedup, List.mem_map, List.mem_filter,
    List.isPrefixOf_iff_prefix] at h
  obtain ⟨key, ⟨hmem, rest, rfl⟩, rfl⟩ := h
  by_cases hslash : '/' ∈ rest
  · obtain ⟨name, more, rfl, hname⟩ := List.eq_append_cons_of_mem hslash
    rw [rollUp_append_cons source hname, Bucket.filesOf, Bucket.filesUnder, Bucket.filesUnder,
      List.filter_filter]
    refine List.filter_congr ?_
    intro key _
    have hiff : source <+: key ∧ rollUp source key = _ ↔ _ := rollUp_eq_subdir hname
    rw [Bool.eq_iff_iff]
    simp only [Bool.and_eq_true, List.isPrefixOf_iff_prefix, decide_eq_true_eq, ← hiff]
    constructor
    · rintro ⟨⟨hsource, hroll⟩, hfile⟩
      exact ⟨hroll, hsource, hfile⟩
    · rintro ⟨hroll, hsource, hfile⟩
      exact ⟨⟨hsource, hroll⟩, hfile⟩
  · rw [rollUp_append source hslash, Bucket.filesOf, Bucket.filesUnder, List.filter_filter]
    have honce : bucket.keys.filter (fun key => decide (key = source ++ rest)) = [source ++ rest] := by
      rw [List.filter_eq, List.count_eq_one_of_mem bucket.nodup hmem]
      rfl
    rw [← honce, List.filter_filter]
    refine List.filter_congr ?_
    intro key _
    rw [Bool.eq_iff_iff]
    simp only [Bool.and_eq_true, List.isPrefixOf_iff_prefix, decide_eq_true_eq]
    constructor
    · rintro ⟨hfile, rfl⟩
      exact ⟨rollUp_append source hslash, ⟨rest, rfl⟩, hfile⟩
    · rintro ⟨hroll, -, hfile⟩
      exact ⟨hfile, rollUp_eq_object hroll⟩

theorem Bucket.flatMap_filesOf (bucket : Bucket) (source : List Char) :
    ((bucket.listObjects source).flatMap bucket.filesOf).Perm (bucket.filesUnder source) := by
  rw [List.flatMap_congr (fun entry h => Bucket.filesOf_eq h)]
  refine flatMap_fibers_perm (List.nodup_dedup _) ?_
  intro key hkey
  have hkey := List.mem_filter.mp hkey
  rw [Bool.and_eq_true] at hkey
  exact List.mem_dedup.mpr (List.mem_map_of_mem (List.mem_filter.mpr ⟨hkey.1, hkey.2.1⟩))

theorem filter_cons_eq_append {α : Type*} (p : α → Bool) (x : α) (l : List α) :
    (x :: l).filter p = [x].filter p ++ l.filter p := List.filter_append [x] l

/-- The objects of a page come after what is nested. -/
theorem page_perm (bucket : Bucket) (page : List ListEntry) :
    ((page.filterMap ListEntry.subdir?).flatMap bucket.filesUnder ++
      (page.filterMap ListEntry.object?).filter isFile).Perm (page.flatMap bucket.filesOf) := by
  induction page with
  | nil => exact List.Perm.refl _
  | cons entry page ih =>
    cases entry with
    | subdir path =>
      rw [List.filterMap_cons_some (f := ListEntry.subdir?) rfl,
        List.filterMap_cons_none (f := ListEntry.object?) rfl, List.flatMap_cons, List.flatMap_cons,
        List.append_assoc]
      exact ih.append_left _
    | object key =>
      rw [List.filterMap_cons_none (f := ListEntry.subdir?) rfl,
        List.filterMap_cons_some (f := ListEntry.object?) rfl, List.flatMap_cons,
        filter_cons_eq_append]
      exact (List.perm_append_comm_assoc _ _ _).trans (ih.append_left _)

/-- Whatever the pages, each file under the source is listed once, and nothing else. -/
theorem listFiles_perm (paginator : Paginator) (bucket : Bucket) {fuel : Nat} {source : List Char}
    (hpos : 0 < fuel)
    (hfuel : ∀ key ∈ bucket.keys, source <+: key → key.length < source.length + fuel) :
    ∃ files, listFiles paginator bucket fuel source = some files ∧
      files.Perm (bucket.filesUnder source) := by
  induction fuel generalizing source with
  | zero => exact absurd hpos (lt_irrefl 0)
  | succ fuel ih =>
    -- the keys of a subdirectory are long enough for one level less
    have hnested : ∀ path, ListEntry.subdir path ∈ bucket.listObjects source →
        ∃ files, listFiles paginator bucket fuel path = some files ∧
          files.Perm (bucket.filesUnder path) := by
      intro path hpath
      simp only [Bucket.listObjects, List.mem_dedup, List.mem_map, List.mem_filter,
        List.isPrefixOf_iff_prefix] at hpath
      obtain ⟨key, ⟨hkey, rest, rfl⟩, hroll⟩ := hpath
      by_cases hslash : '/' ∈ rest
      · obtain ⟨name, more, rfl, hname⟩ := List.eq_append_cons_of_mem hslash
        rw [rollUp_append_cons source hname] at hroll
        obtain rfl : source ++ name ++ ['/'] = path := by simpa using hroll
        have hlong := hfuel _ hkey ⟨_, rfl⟩
        simp only [List.length_append, List.length_cons] at hlong
        refine ih (by omega) ?_
        intro key' hkey' hpath
        have hsource : source <+: key' :=
          (List.prefix_append source (name ++ ['/'])).trans (by simpa using hpath)
        have hshort := hfuel key' hkey' hsource
        simp only [List.length_append, List.length_cons, List.length_nil]
        omega
      · rw [rollUp_append source hslash] at hroll
        cases hroll
    have hpages : ∀ page ∈ paginator.paginate (bucket.listObjects source),
        ∃ files, (do
            let nested ← (page.filterMap ListEntry.subdir?).mapM (listFiles paginator bucket fuel)
            pure (nested.flatten ++ (page.filterMap ListEntry.object?).filter isFile)) = some files ∧
          files.Perm (page.flatMap bucket.filesOf) := by
      intro page hpage
      have hentries : ∀ entry ∈ page, entry ∈ bucket.listObjects source := by
        intro entry hentry
        rw [← paginator.flatten_paginate (bucket.listObjects source)]
        exact List.mem_flatten.mpr ⟨page, hpage, hentry⟩
      obtain ⟨nested, hmap, hperm⟩ := exists_mapM_flatten_perm
        (f := listFiles paginator bucket fuel) (g := bucket.filesUnder)
        (l := page.filterMap ListEntry.subdir?) (by
          intro path hpath
          obtain ⟨entry, hentry, hsubdir⟩ := List.mem_filterMap.mp hpath
          cases entry with
          | subdir path' =>
            obtain rfl : path' = path := Option.some.inj hsubdir
            exact hnested path' (hentries _ hentry)
          | object key => cases hsubdir)
      refine ⟨_, by rw [hmap]; rfl, ?_⟩
      exact (hperm.append_right _).trans (page_perm bucket page)
    obtain ⟨results, hmap, hperm⟩ := exists_mapM_flatten_perm hpages
    refine ⟨results.flatten, by rw [listFiles, hmap]; rfl, hperm.trans ?_⟩
    have hflatten : (paginator.paginate (bucket.listObjects source)).flatMap
        (fun page => page.flatMap bucket.filesOf) = (bucket.listObjects source).flatMap bucket.filesOf := by
      conv_rhs => rw [← paginator.flatten_paginate (bucket.listObjects source)]
      rw [← List.flatMap_id, List.flatMap_assoc]
      rfl
    rw [hflatten]
    exact bucket.flatMap_filesOf source

theorem Bucket.length_lt_depth {bucket : Bucket} {key : List Char} (h : key ∈ bucket.keys) :
    key.length < bucket.depth := by
  have hmax : ∀ (l : List Nat), ∀ n ∈ l, n ≤ l.foldr max 0 := by
    intro l
    induction l with
    | nil => simp
    | cons m l ih =>
      intro n hn
      rcases List.mem_cons.mp hn with rfl | hn
      · exact le_max_left _ _
      · exact (ih n hn).trans (le_max_right _ _)
  exact Nat.lt_succ_of_le (hmax _ _ (List.mem_map_of_mem h))

theorem relPath_eq {source key : List Char} (h : source ++ ['/'] <+: key) :
    key = source ++ '/' :: relPath source key := by
  obtain ⟨rest, rfl⟩ := h
  have hlength : (source ++ ['/']).length = source.length + 1 := by simp
  rw [relPath, ← hlength, List.drop_left]
  simp

end Medusa
