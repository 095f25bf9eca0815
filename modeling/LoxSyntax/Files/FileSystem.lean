/-!
File systems as values. A file system says what is at each address; addresses are lists of names
from the root on, and the root itself is always a folder.
-/

namespace LoxSyntax.Files

/-- The names that lead from the root to a place. -/
abbrev Address := List String

inductive Entry
  | file (content : List UInt8)
  | folder
  deriving DecidableEq, Repr

/-- What is at each address, and the address that relative paths start from. -/
structure FileSystem where
  entries : List (Address × Entry)
  workingFolder : Address
  deriving DecidableEq, Repr

def find? (address : Address) : List (Address × Entry) → Option Entry
  | [] => none
  | item :: rest => if item.1 = address then some item.2 else find? address rest

def put (address : Address) (entry : Entry) :
    List (Address × Entry) → List (Address × Entry)
  | [] => [(address, entry)]
  | item :: rest =>
      if item.1 = address then (address, entry) :: rest else item :: put address entry rest

def erase (address : Address) (entries : List (Address × Entry)) :
    List (Address × Entry) :=
  entries.filter fun item => item.1 ≠ address

theorem find?_put (address place : Address) (entry : Entry)
    (entries : List (Address × Entry)) :
    find? place (put address entry entries) =
      if place = address then some entry else find? place entries := by
  induction entries with
  | nil => simp [put, find?, eq_comm]
  | cons item rest ih => grind [put, find?]

theorem erase_put (address : Address) (entry : Entry) (entries : List (Address × Entry)) :
    erase address (put address entry entries) = erase address entries := by
  induction entries with
  | nil => simp [put, erase]
  | cons item rest ih => grind [put, erase]

theorem erase_of_find?_eq_none {address : Address} {entries : List (Address × Entry)}
    (h : find? address entries = none) : erase address entries = entries := by
  induction entries with
  | nil => rfl
  | cons item rest ih => grind [erase, find?]

theorem put_of_find? {address : Address} {entry : Entry} {entries : List (Address × Entry)}
    (h : find? address entries = some entry) : put address entry entries = entries := by
  induction entries with
  | nil => simp [find?] at h
  | cons item rest ih => grind [put, find?]

namespace FileSystem

def entry? (files : FileSystem) (address : Address) : Option Entry :=
  if address = [] then some .folder else find? address files.entries

def put (files : FileSystem) (address : Address) (entry : Entry) : FileSystem :=
  { files with entries := Files.put address entry files.entries }

def erase (files : FileSystem) (address : Address) : FileSystem :=
  { files with entries := Files.erase address files.entries }

def eraseTree (files : FileSystem) (address : Address) : FileSystem :=
  { files with entries := files.entries.filter fun item => !address.isPrefixOf item.1 }

/-- Puts an entry at an address, with folders above it where nothing is. -/
def install (files : FileSystem) (address : Address) (entry : Entry) : FileSystem :=
  let above := (List.range address.length).map address.take
  let missing := above.filter fun folder => (files.entry? folder).isNone
  (missing.foldl (fun files folder => files.put folder .folder) files).put address entry

/-- The entries below the working folder, each with its path from there. -/
def listing (files : FileSystem) : List (String × Entry) :=
  files.entries.filterMap fun (address, entry) =>
    if files.workingFolder.isPrefixOf address && address ≠ files.workingFolder then
      some (String.intercalate "/" (address.drop files.workingFolder.length), entry)
    else none

/-- A name that nothing in the file system has: it is longer than all names there. -/
def freshName (files : FileSystem) : String :=
  let length := files.entries.foldr (fun item n => (String.join item.1).length + n) 0
  ".tmp" ++ String.ofList (List.replicate length 'x')

end FileSystem

end LoxSyntax.Files
