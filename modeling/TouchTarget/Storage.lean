import Std.Data.ExtTreeMap

/-!
# Files

A storage holds the files and directories below the working directory. Of what lies outside nothing
is known but that the directories above it are there, and the null device: it reads as an empty file
and keeps nothing of what is written to it.

A path is followed part by part, and every part but the last has to name a directory. Reading gives
text. Writing first creates one file or empties it, and then fills it. Either can fail: if the file
is not created, nothing has changed, and if it is not filled, the beginning of the text stands in
it.
-/

namespace TouchTarget

/-- Why a file could not be read or written. -/
inductive StorageError
  | notFound
  | notDirectory
  | isDirectory
  | notText
  /-- Any other reason, in the words of the system. -/
  | other (reason : String)
deriving DecidableEq, Repr, Inhabited

def StorageError.message : StorageError → String
  | notFound => "No such file or directory (os error 2)"
  | notDirectory => "Not a directory (os error 20)"
  | isDirectory => "Is a directory (os error 21)"
  | notText => "stream did not contain valid UTF-8"
  | other reason => reason

/-- What keeps files from being read and written, each given by its path, for reasons that do not
show in a storage. -/
structure Faults where
  reading? : String → Option StorageError := fun _ ↦ none
  creating? : String → Option StorageError := fun _ ↦ none
  /-- How many bytes go into a file, and why no more. -/
  filling? : String → Option (Nat × StorageError) := fun _ ↦ none
deriving Inhabited

/-- Why a text does not fit into the file at a path, and how much of it does. -/
def Faults.shortage? (faults : Faults) (path text : String) : Option (Nat × StorageError) :=
  (faults.filling? path).filter fun (room, _) ↦ room < text.toUTF8.size

inductive Entry
  | file (content : ByteArray)
  | directory
deriving Inhabited

instance : DecidableEq Entry
  | .file left, .file right =>
    match ByteArray.instDecidableEq left right with
    | isTrue h => isTrue (congrArg Entry.file h)
    | isFalse h => isFalse fun heq ↦ h (Entry.file.inj heq)
  | .directory, .directory => isTrue rfl
  | .file _, .directory | .directory, .file _ => isFalse nofun

structure Storage where
  /-- What stands at each place, given by the names on the way to it. -/
  entries : Std.ExtTreeMap (List String) Entry := ∅
deriving DecidableEq, Inhabited

namespace Storage

instance : EmptyCollection Storage := ⟨{}⟩

/-- The parts of a path between its slashes, at least one. -/
def parts : List Char → List (List Char)
  | [] => [[]]
  | c :: rest =>
    if c = '/' then [] :: parts rest
    else match parts rest with
      | [] => [[c]]
      | part :: others => (c :: part) :: others

/-- The place of the root directory. -/
def root : List String := ["/"]

/-- The working directory, or a directory on the way from it to the root. -/
def isAbove (place : List String) : Bool :=
  place.all (· = "..") || place = root

/-- The directory that holds a place. -/
def parent (place : List String) : List String :=
  if place = root then root else if isAbove place then place ++ [".."] else place.dropLast

/-- The place of the null device. -/
def nullDevice : List String := root ++ ["dev", "null"]

/-- What stands at the places outside the working directory that are known. -/
def outside? (place : List String) : Option Entry :=
  if isAbove place || place = nullDevice.dropLast then some .directory
  else if place = nullDevice then some (.file .empty)
  else none

def entry? (storage : Storage) (place : List String) : Option Entry :=
  (outside? place).or storage.entries[place]?

/-- Follows a path from a place. -/
def follow (storage : Storage) (place : List String) :
    List (List Char) → Except StorageError (List String)
  | [] => pure place
  | part :: others =>
    match storage.entry? place with
    | none => throw .notFound
    | some (.file _) => throw .notDirectory
    | some .directory =>
      match part with
      | [] | ['.'] => storage.follow place others
      | ['.', '.'] => storage.follow (parent place) others
      | name => storage.follow (place ++ [.ofList name]) others

/-- The place where a path starts, and the parts that lead on from there. -/
def start : List (List Char) → Except StorageError (List String × List (List Char))
  | [[]] => throw .notFound
  | [] :: others => pure (root, others)
  | path => pure ([], path)

/-- The text of the file at a path. -/
def read (storage : Storage) (path : String) (faults : Faults := {}) :
    Except StorageError String := do
  if let some error := faults.reading? path then throw error
  let (place, path) ← start (parts path.toList)
  match storage.entry? (← storage.follow place path) with
  | none => throw .notFound
  | some .directory => throw .isDirectory
  | some (.file content) =>
    match String.fromUTF8? content with
    | some text => return text
    | none => throw .notText

/-- The parts of a path on the way to its last one, and that one, without slashes at the end. -/
def splitLast (path : List (List Char)) : List (List Char) × List Char :=
  let named := (path.reverse.dropWhile List.isEmpty).reverse
  (named.dropLast, named.getLast?.getD [])

/-- Whether a path can only name a directory. -/
def namesDirectory (path : List (List Char)) : Bool :=
  let last := path.getLast?.getD []
  last.isEmpty || last = ['.'] || last = ['.', '.']

/-- The place at which a file is created, or emptied if it is there already. -/
def create (storage : Storage) (path : String) (faults : Faults := {}) :
    Except StorageError (List String) := do
  if let some error := faults.creating? path then throw error
  let (place, path) ← start (parts path.toList)
  let (way, last) := splitLast path
  let place ← storage.follow place way
  match storage.entry? place with
  | none => throw .notFound
  | some (.file _) => throw .notDirectory
  | some .directory =>
    if namesDirectory path then throw .isDirectory
    let place := place ++ [.ofList last]
    match storage.entry? place with
    | some .directory => throw .isDirectory
    | _ => return place

/-- The storage with a content for the file at a place. -/
def put (storage : Storage) (place : List String) (content : ByteArray) : Storage :=
  ⟨storage.entries.insert place (.file content)⟩

/-- Writes a text to the file at a path. Where there is an error, it may have come before anything
was written or behind the last byte that went into the file. -/
def write (storage : Storage) (path text : String) (faults : Faults := {}) :
    Storage × Option StorageError :=
  match storage.create path faults with
  | .error error => (storage, some error)
  | .ok place =>
    if place = nullDevice then (storage, none)
    else match faults.shortage? path text with
      | none => (storage.put place text.toUTF8, none)
      | some (room, error) => (storage.put place (text.toUTF8.extract 0 room), some error)

end Storage

end TouchTarget
