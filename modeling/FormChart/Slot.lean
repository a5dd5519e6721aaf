import FormChart.Notice
import FormChart.Json.Parser
import FormChart.Json.Printer

/-!
# Keeping a context in a slot

A slot is a key of a storage.  What is kept there is a snapshot: the fields of the context with the
fields of the last event written over them, **without the transient fields** in either
(`snapshot`).  Reading it back writes the snapshot over a fresh context.

None of this ever fails: a context that cannot be written is not kept, one that cannot be read is a
fresh one, and a notice says so.

The operations of the persistence layer and their names here: `persist` is `keep`, with the document
of `write_snapshot` as `snapshot`; `restore` is `reopen`, with the decoding of `read_snapshot` as
`contextOf`; `restore_or_seed` is `resume`, `seed` is `fill`, and `clear` is `forget`.
-/

namespace FormChart

/-- A key of a storage. -/
structure Slot (S : Type) where
  storage : S
  key : String

namespace Slot

variable {C S : Type} [Model C]

/-- The fields that are kept of a context and of the fields that came with an event. -/
def snapshot (context : C) (payload : Patch) : Object :=
  merge .shallow ((Model.encode context).fieldsOrEmpty.without (Model.transientFields C))
    (payload.without (Model.transientFields C))

/-- The context that a kept text stands for. -/
def contextOf (key text : String) : Except StorageError C :=
  match Json.parse text with
  | none => .error (.corrupt key)
  | some stored =>
    let kept := stored.fieldsOrEmpty.without (Model.transientFields C)
    match apply (Model.fresh : C) kept .replace with
    | .ok context => .ok context
    | .error cause => .error (.incompatible cause)

variable [Storage S]

/-- Keeps a context, if it wants to be kept. -/
def keep (slot : Slot S) (context : C) (payload : Patch) : Slot S × List Notice :=
  if Model.wantsKeeping context then
    let text := (Json.ofObject (snapshot context payload)).compact
    match Storage.write slot.storage slot.key text with
    | (.ok _, storage) => ({ slot with storage }, [])
    | (.error cause, storage) => ({ slot with storage }, [.notKept slot.key cause])
  else (slot, [])

/-- The kept context; a fresh one if there is none or it cannot be read. -/
def reopen (slot : Slot S) : C × Slot S × List Notice :=
  match Storage.read slot.storage slot.key with
  | (.error cause, storage) =>
    (Model.fresh, { slot with storage }, [.discarded slot.key cause])
  | (.ok none, storage) => (Model.fresh, { slot with storage }, [])
  | (.ok (some text), storage) =>
    match contextOf slot.key text with
    | .ok context => (context, { slot with storage }, [])
    | .error cause => (Model.fresh, { slot with storage }, [.discarded slot.key cause])

/-- Fills the slot, if it is empty, with the text of a fixture, if it is JSON.  A fixture that
    cannot be read has no text. -/
def fill (slot : Slot S) (fixture : Option String) : Slot S × List Notice :=
  let failed (storage : S) (cause : StorageError) (notices : List Notice) :=
    ({ slot with storage }, notices ++ [Notice.notFilled slot.key cause])
  match Storage.read slot.storage slot.key with
  | (.error cause, storage) => failed storage cause []
  | (.ok (some _), storage) => ({ slot with storage }, [])
  | (.ok none, storage) =>
    match fixture with
    | none => failed storage (.io slot.key) []
    | some text =>
      if (Json.parse text).isNone then failed storage (.corrupt slot.key) []
      else
        match Storage.write storage slot.key text with
        | (.ok _, storage) => ({ slot with storage }, [.filling slot.key])
        | (.error cause, storage) => failed storage cause [.filling slot.key]

/-- The kept context, after an empty slot was filled from the fixture, if one is given. -/
def resume (slot : Slot S) (fixture : Option (Option String)) : C × Slot S × List Notice :=
  match fixture with
  | none => slot.reopen (C := C)
  | some text =>
    let (slot, seeded) := slot.fill text
    let (context, slot, restored) := slot.reopen (C := C)
    (context, slot, seeded ++ restored)

/-- Forgets the kept context. -/
def forget (slot : Slot S) : Slot S × List Notice :=
  match Storage.remove slot.storage slot.key with
  | (.ok _, storage) => ({ slot with storage }, [])
  | (.error cause, storage) => ({ slot with storage }, [.notForgotten slot.key cause])

end Slot

end FormChart
