import Tabular.Error

/-!
# Stored files

A store is a tree of directories with files in them, and the directory in which a program was started.
Paths lead through it as they do in a system without links, in which all files may be read and written.
-/
namespace Tabular

/-- A place in the tree, as the names on the way from its root. -/
abbrev Place := List String

inductive Entry
  | file (bytes : ByteArray)
  | directory

structure Store where
  /-- The directory from which paths lead that do not begin at the root. -/
  current : Place
  /-- What is at each place below the root; the first entry of a place counts. -/
  entries : List (Place × Entry)

abbrev Lookup := String → Option Entry

namespace Store

def content? (s : Store) (place : Place) : Option Entry :=
  if place = [] then some .directory else s.entries.lookup place

def isDirectory (s : Store) (place : Place) : Bool :=
  match s.content? place with
  | some .directory => true
  | _ => false

/-- The place to which one part of a path leads. Only directories are left by any part, even by an empty
one, which is found between two slashes and behind a last one. -/
def follow (s : Store) (place : Place) (part : String) : Option Place :=
  if !s.isDirectory place then none
  else if part = "" ∨ part = "." then some place
  else if part = ".." then some place.dropLast
  else some (place ++ [part])

/-- The place to which a path leads; there may be nothing at it. -/
def place? (s : Store) (path : String) : Option Place :=
  if path = "" then none
  else
    let start := if path.toList.head? = some '/' then [] else s.current
    ((Text.pieces '/' path.toList).map String.ofList).foldlM s.follow start

def lookup (s : Store) : Lookup := fun path => s.place? path >>= s.content?

def put (s : Store) (place : Place) (bytes : ByteArray) : Store :=
  { s with entries := (place, .file bytes) :: s.entries }

/-- The store with a file at a path, where there is no directory. -/
def write? (s : Store) (path : String) (bytes : ByteArray) : Option Store := do
  let place ← s.place? path
  if s.isDirectory place then none else some (s.put place bytes)

end Store

end Tabular
