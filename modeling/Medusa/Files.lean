import Mathlib.Data.List.Nodup
import Mathlib.Logic.Function.Basic
import Medusa.Requests

/-! A directory of files, in which writing a file replaces the one of its name. -/

namespace Relational

/-- What each file holds, if it is there. -/
abbrev Files (γ : Type*) := String → Option γ

namespace Files

variable {γ : Type*}

def write (files : Files γ) (name : String) (content : γ) : Files γ :=
  Function.update files name (some content)

def writeAll (files : Files γ) (named : List (String × γ)) : Files γ :=
  named.foldl (fun files f => files.write f.1 f.2) files

def removeAll (files : Files γ) (names : List String) : Files γ :=
  fun name => if name ∈ names then none else files name

/-- Read files in the given order. A missing one is an error. -/
def readAll (files : Files γ) (names : List String) : Option (List γ) := names.mapM files

theorem writeAll_of_not_mem {files : Files γ} {named : List (String × γ)} {name : String}
    (h : name ∉ named.map Prod.fst) : files.writeAll named name = files name := by
  induction named generalizing files with
  | nil => rfl
  | cons f named ih =>
    simp only [List.map_cons, List.mem_cons, not_or] at h
    calc (files.write f.1 f.2).writeAll named name
        = files.write f.1 f.2 name := ih h.2
      _ = files name := Function.update_of_ne h.1 _ _

theorem writeAll_of_mem {files : Files γ} {named : List (String × γ)}
    (hnodup : (named.map Prod.fst).Nodup) {f : String × γ} (h : f ∈ named) :
    files.writeAll named f.1 = some f.2 := by
  induction named generalizing files with
  | nil => cases h
  | cons g named ih =>
    rw [List.map_cons, List.nodup_cons] at hnodup
    rcases List.mem_cons.mp h with rfl | h
    · exact (writeAll_of_not_mem hnodup.1).trans (Function.update_self _ _ _)
    · exact ih hnodup.2 h

/-- Files of different names that have just been written are read back, whatever was in
the directory before. -/
theorem readAll_writeAll (files : Files γ) {named : List (String × γ)}
    (hnodup : (named.map Prod.fst).Nodup) :
    (files.writeAll named).readAll (named.map Prod.fst) = some (named.map Prod.snd) := by
  rw [readAll, mapM_eq_some, List.map_map, List.map_map]
  apply List.map_congr_left
  intro f hf
  exact writeAll_of_mem hnodup hf

end Files

end Relational
