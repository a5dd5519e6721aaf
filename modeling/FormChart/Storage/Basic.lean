import FormChart.Patch

/-!
# Storages

A storage keeps one text per key.  What it does is given by three operations on its state
(`Storage`), any of which may fail, and each of which may change the state even then.
-/

namespace FormChart

/-- Why kept data could not be written or read. -/
inductive StorageError where
  /-- The storage could not be reached. -/
  | io (key : String)
  /-- The text under the key is no JSON. -/
  | corrupt (key : String)
  /-- The text under the key is JSON, but no context. -/
  | incompatible (cause : PatchError)
  /-- The storage is locked for good. -/
  | poisoned
  deriving DecidableEq, Repr

/-- The wording of a storage error. -/
def StorageError.message : StorageError → String
  | .io key => "Storage I/O failed for '" ++ key ++ "'"
  | .corrupt key => "Snapshot for '" ++ key ++ "' is corrupt"
  | .incompatible cause => "Snapshot does not fit the context: " ++ cause.message
  | .poisoned => "Storage lock poisoned"

/-- A place that keeps texts under keys. -/
class Storage (S : Type) where
  /-- The text of a key; none if there is none. -/
  read : S → String → Except StorageError (Option String) × S
  /-- Keeps a text under a key. -/
  write : S → String → String → Except StorageError Unit × S
  /-- Forgets the text of a key, if there is one. -/
  remove : S → String → Except StorageError Unit × S

/-- A storage that lives as long as the program. -/
structure Memory where
  slots : Dict String := {}
  deriving DecidableEq, Inhabited

instance : Storage Memory where
  read m key := (.ok (m.slots.get? key), m)
  write m key text := (.ok (), ⟨m.slots.insert key text⟩)
  remove m key := (.ok (), ⟨m.slots.erase key⟩)

end FormChart
