import FormChart.Storage.Basic

/-!
# A storage in a folder of files

Each key has a document of its own, the file `<key>.json` in a home folder.  A document is written
to a temporary file beside it first and then renamed, so a document is replaced as a whole.  The
home folder is made by the first write.

Keys are taken literally: slashes in a key name folders below the home folder, which have to be
there, and a key that begins with a slash leaves the home folder altogether.  Names and whole paths
have a greatest length in bytes.  The disk is a value: folders and files by their paths from the
root.
-/

namespace FormChart

/-- What stands under a path. -/
inductive DiskEntry where
  | folder
  | file (content : ByteArray)

instance : DecidableEq DiskEntry
  | .folder, .folder => .isTrue rfl
  | .folder, .file _ => .isFalse nofun
  | .file _, .folder => .isFalse nofun
  | .file a, .file b =>
    match ByteArray.instDecidableEq a b with
    | .isTrue h => .isTrue (congrArg DiskEntry.file h)
    | .isFalse h => .isFalse fun heq => h (DiskEntry.file.inj heq)

/-- A place on a disk: the names of the folders from the root on, and the last name. -/
abbrev DiskPath := List String

/-- Folders and files by their paths from the root; the root itself is always there. -/
structure Disk where
  entries : Dict DiskEntry := {}
  deriving DecidableEq, Inhabited

namespace Disk

/-- The text of a path, under which it is entered. -/
def pathText (path : DiskPath) : String := "/".intercalate path

/-- The names in the text of a path; the text may have empty names at its ends and between. -/
def pathNames (text : String) : List String := (text.toList.splitOn '/').map String.ofList

/-- What stands under a path. -/
def get? (d : Disk) : DiskPath → Option DiskEntry
  | [] => some .folder
  | path => d.entries.get? (pathText path)

/-- Puts a file or a folder under a path. -/
def put (d : Disk) (path : DiskPath) (e : DiskEntry) : Disk :=
  ⟨d.entries.insert (pathText path) e⟩

/-- Deletes what stands under a path. -/
def delete (d : Disk) (path : DiskPath) : Disk := ⟨d.entries.erase (pathText path)⟩

/-- The names right below a folder, in ascending order. -/
def names (d : Disk) (path : DiskPath) : List String :=
  d.entries.keys.filterMap fun k =>
    let names := pathNames k
    if names.length = path.length + 1 ∧ names.take path.length = path then names.getLast?
    else none

/-- Why there is no way to a path. -/
inductive PathError where
  /-- A folder on the way does not exist. -/
  | missing
  /-- A file stands in the way, or a name or the whole path is too long. -/
  | blocked
  deriving DecidableEq, Repr

/-- The length in bytes that a name may have. -/
def maxNameBytes : Nat := 255

/-- The length in bytes that the text of a path may have.  A longer path is refused before any of
    its names is looked up. -/
def maxPathBytes : Nat := 4095

/-- Whether the text of a path, as it is spelled, is too long. -/
def isTooLong (names : List String) : Bool := maxPathBytes < (pathText names).utf8ByteSize

/-- Goes down from a folder that exists, name by name. -/
def walk (d : Disk) (path : DiskPath) : List String → Except PathError DiskPath
  | [] => .ok path
  | name :: rest =>
    if name = "" ∨ name = "." then walk d path rest
    else if name = ".." then walk d path.dropLast rest
    else if maxNameBytes < name.utf8ByteSize then .error .blocked
    else
      match d.get? (path ++ [name]) with
      | some .folder => walk d (path ++ [name]) rest
      | some (.file _) => .error .blocked
      | none => .error .missing

/-- The path of a name in a folder that is reached by other names. -/
def locate (d : Disk) (folders : List String) (name : String) : Except PathError DiskPath :=
  if isTooLong (folders ++ [name]) then .error .blocked
  else do
    let path ← d.walk [] folders
    if maxNameBytes < name.utf8ByteSize then .error .blocked else .ok (path ++ [name])

/-- Goes down from a folder that exists, name by name, and makes the folders that are missing.
    What was made before a file or a long name stops the way stays. -/
def makeFolders (d : Disk) (path : DiskPath) : List String → Disk × Option DiskPath
  | [] => (d, some path)
  | name :: rest =>
    if name = "" ∨ name = "." then makeFolders d path rest
    else if name = ".." then makeFolders d path.dropLast rest
    else if maxNameBytes < name.utf8ByteSize then (d, none)
    else
      match d.get? (path ++ [name]) with
      | some .folder => makeFolders d (path ++ [name]) rest
      | some (.file _) => (d, none)
      | none => makeFolders (d.put (path ++ [name]) .folder) (path ++ [name]) rest

end Disk

/-- A storage in a folder of a disk. -/
structure Folder where
  disk : Disk := {}
  /-- The name of the home folder, which stands right below the root. -/
  home : String := "home"
  deriving DecidableEq, Inhabited

namespace Folder

/-- The folders that a key names, and its last part. -/
def splitKey (f : Folder) (key : String) : List String × String :=
  let names := Disk.pathNames key
  let folders := names.dropLast
  (if key.startsWith "/" then folders else f.home :: folders, names.getLastD "")

/-- Whether a key can be part of a path at all. -/
def isName (key : String) : Bool := !key.toList.contains '\x00'

/-- The name of the document of a key, given its last part. -/
def documentName (part : String) : String := part ++ ".json"

/-- The name of the file that a document is written to first: the document's name with another
    extension.  A document named by its extension alone keeps the whole name, and a lone dot has no
    such file. -/
def temporaryName? (part : String) : Option String :=
  if part = "." then none
  else if part = "" then some ".json.json.tmp"
  else some (part ++ ".json.tmp")

/-- Makes the home folder if it is not there. -/
def makeHome (f : Folder) : Except Unit Folder :=
  match f.disk.get? [f.home] with
  | some .folder => .ok f
  | some (.file _) => .error ()
  | none => .ok { f with disk := f.disk.put [f.home] .folder }

/-- Reads the document of a key.  A missing document, or one in a missing folder, is none. -/
def read (f : Folder) (key : String) : Except StorageError (Option String) :=
  if !isName key then .error (.io key)
  else
    let (folders, part) := f.splitKey key
    match f.disk.locate folders (documentName part) with
    | .error .missing => .ok none
    | .error .blocked => .error (.io key)
    | .ok path =>
      match f.disk.get? path with
      | none => .ok none
      | some .folder => .error (.io key)
      | some (.file content) =>
        match String.fromUTF8? content with
        | some text => .ok (some text)
        | none => .error (.io key)

/-- Writes a file, unless a folder has its name. -/
def writeFile (d : Disk) (path : DiskPath) (content : ByteArray) : Option Disk :=
  if d.get? path = some .folder then none else some (d.put path (.file content))

/-- Gives a file another name, unless a folder has it. -/
def rename (d : Disk) (source target : DiskPath) (content : ByteArray) : Option Disk :=
  if d.get? target = some .folder then none
  else some ((d.delete source).put target (.file content))

/-- Writes the document of a key by way of its temporary file. -/
def write (f : Folder) (key text : String) : Except StorageError Unit × Folder :=
  match f.makeHome with
  | .error _ => (.error (.io key), f)
  | .ok f =>
    let refused := (Except.error (StorageError.io key), f)
    let (folders, part) := f.splitKey key
    match isName key, temporaryName? part with
    | true, some temporary =>
      match f.disk.locate folders temporary, f.disk.locate folders (documentName part) with
      | .ok temporary, .ok document =>
        match writeFile f.disk temporary text.toUTF8 with
        | none => refused
        | some disk =>
          match rename disk temporary document text.toUTF8 with
          | none => (.error (.io key), { f with disk := disk })
          | some disk => (.ok (), { f with disk := disk })
      | _, _ => refused
    | _, _ => refused

/-- Deletes the document of a key, if there is one. -/
def remove (f : Folder) (key : String) : Except StorageError Unit × Folder :=
  if !isName key then (.error (.io key), f)
  else
    let (folders, part) := f.splitKey key
    match f.disk.locate folders (documentName part) with
    | .error .missing => (.ok (), f)
    | .error .blocked => (.error (.io key), f)
    | .ok path =>
      match f.disk.get? path with
      | none => (.ok (), f)
      | some .folder => (.error (.io key), f)
      | some (.file _) => (.ok (), { f with disk := f.disk.delete path })

instance : Storage Folder where
  read f key := (f.read key, f)
  write := write
  remove := remove

/-- The names in the home folder, in ascending order. -/
def names (f : Folder) : List String := f.disk.names [f.home]

/-- Puts a file or a folder below the home folder without a call on the storage, with the folders on
    the way to it.  The name is taken as a key is; what cannot be made there is left out. -/
def place (f : Folder) (name : String) (e : DiskEntry) : Folder :=
  let (folders, part) := f.splitKey name
  if !isName name || Disk.isTooLong (folders ++ [part]) then f
  else
    match e with
    | .folder => { f with disk := (f.disk.makeFolders [] (folders ++ [part])).1 }
    | .file content =>
      let (disk, path?) := f.disk.makeFolders [] folders
      let written := path?.bind fun path =>
        if part ∈ ["", ".", ".."] ∨ Disk.maxNameBytes < part.utf8ByteSize then none
        else writeFile disk (path ++ [part]) content
      { f with disk := written.getD disk }

end Folder

end FormChart
