import FormChart.Storage.Basic

/-!
# A storage that is watched

Notes every call that reaches a storage, and refuses the kinds of calls that it was told to
refuse.  A refused call is noted too, but never reaches the storage.
-/

namespace FormChart

/-- The kinds of calls to a storage. -/
inductive StorageCall where
  | read
  | write
  | remove
  deriving DecidableEq, Repr

/-- A storage with a list of refused kinds of calls and the calls so far. -/
structure Watched (S : Type) where
  inner : S
  refused : List StorageCall := []
  /-- Every call with its key, the oldest first. -/
  calls : List (StorageCall × String) := []

namespace Watched

variable {S : Type}

/-- Notes a call, and lets it through unless its kind is refused. -/
def call {α : Type} (w : Watched S) (kind : StorageCall) (key : String)
    (run : S → Except StorageError α × S) : Except StorageError α × Watched S :=
  let w := { w with calls := w.calls ++ [(kind, key)] }
  if w.refused.contains kind then (.error .poisoned, w)
  else
    let (result, inner) := run w.inner
    (result, { w with inner := inner })

instance [Storage S] : Storage (Watched S) where
  read w key := w.call .read key (Storage.read · key)
  write w key text := w.call .write key (Storage.write · key text)
  remove w key := w.call .remove key (Storage.remove · key)

end Watched

end FormChart
