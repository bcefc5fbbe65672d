import Mathlib.Data.List.Basic
import Mathlib.Data.List.Induction
import Mathlib.Data.List.TakeWhile

/-! # Directory trees

Directory trees without symbolic links, and what the names in a path lead to: the
system is handed the path up to its first NUL, and looks the names up one after the
other. -/

namespace Nanocap

abbrev FileName := List Char

/-- The names of the directories on the way, and of the file or directory itself. -/
abbrev Location := List FileName

def nul : Char := '\x00'

/-- `c_str` -/
def cString (path : List Char) : List Char := path.takeWhile (· ≠ nul)

namespace FileName

def dot : FileName := ['.']

def dotDot : FileName := ['.', '.']

structure Valid (name : FileName) : Prop where
  nonempty : name ≠ []
  noSlash : '/' ∉ name
  noNul : nul ∉ name
  notDot : name ≠ dot
  notDotDot : name ≠ dotDot

instance (name : FileName) : Decidable name.Valid :=
  decidable_of_iff (name ≠ [] ∧ '/' ∉ name ∧ nul ∉ name ∧ name ≠ dot ∧ name ≠ dotDot)
    ⟨fun ⟨nonempty, noSlash, noNul, notDot, notDotDot⟩ =>
        ⟨nonempty, noSlash, noNul, notDot, notDotDot⟩,
      fun valid => ⟨valid.nonempty, valid.noSlash, valid.noNul, valid.notDot, valid.notDotDot⟩⟩

end FileName

inductive Entry where
  | file (contents : List UInt8)
  | directory
deriving DecidableEq

structure FileTree where
  entry : Location → Option Entry
  root : entry [] = some .directory
  /-- What is there is in a directory. -/
  parent : ∀ location name, (entry (location ++ [name])).isSome → entry location = some .directory
  valid : ∀ location, (entry location).isSome → ∀ name ∈ location, name.Valid

namespace FileTree

def find (listing : List (Location × Entry)) (location : Location) : Option Entry :=
  if location = [] then some .directory
  else (listing.find? (·.1 = location)).map Prod.snd

/-- The tree of a list in which everything is in a directory. -/
def ofListing (listing : List (Location × Entry))
    (wellFormed : ∀ item ∈ listing, find listing item.1.dropLast = some .directory ∧
      ∀ name ∈ item.1, name.Valid) : FileTree where
  entry := find listing
  root := rfl
  parent location name present := by
    rw [find, if_neg (by simp), Option.isSome_map] at present
    obtain ⟨item, found⟩ := Option.isSome_iff_exists.mp present
    have same : item.1 = location ++ [name] := by simpa using List.find?_some found
    have directory := (wellFormed item (List.mem_of_find?_eq_some found)).1
    rwa [same, List.dropLast_concat] at directory
  valid location present := by
    unfold find at present
    split at present
    · rename_i root
      simp [root]
    · rw [Option.isSome_map] at present
      obtain ⟨item, found⟩ := Option.isSome_iff_exists.mp present
      have same : item.1 = location := by simpa using List.find?_some found
      rw [← same]
      exact (wellFormed item (List.mem_of_find?_eq_some found)).2

variable (tree : FileTree)

/-- Look a name up; no name at all stands for the directory itself. -/
def enter (location : Location) (name : FileName) : Option Location :=
  if tree.entry location = some .directory then
    if name = [] ∨ name = .dot then some location
    else if name = .dotDot then some location.dropLast
    else if (tree.entry (location ++ [name])).isSome then some (location ++ [name])
    else none
  else none

def resolve (path : List Char) : Option Location :=
  ((cString path).splitOn '/').foldlM tree.enter []

def follow (location : Location) (name : FileName) : Location :=
  if name = [] ∨ name = .dot then location
  else if name = .dotDot then location.dropLast
  else location ++ [name]

def pathname (location : Location) : List Char :=
  location.flatMap ('/' :: ·)

variable {tree}

end FileTree

end Nanocap
