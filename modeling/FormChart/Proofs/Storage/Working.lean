import Mathlib.Tactic.Lemma
import FormChart.Slot

/-!
# Working storages

A storage works if it does what it is told: what is written is there, what is removed is gone, and
reading finds what is there and leaves it alone (`WorkingStorage`).  A slot of a working storage has
a content, and every operation on the slot is described by what it does to the content.
-/

namespace FormChart

/-- A storage without failures.  Only the key in question is spoken of, so keys may share a
place. -/
class WorkingStorage (S : Type) [Storage S] where
  /-- The text under a key. -/
  content : S → String → Option String
  read : ∀ (s : S) (key : String), ∃ s', Storage.read s key = (.ok (content s key), s') ∧
    content s' key = content s key
  write : ∀ (s : S) (key text : String), ∃ s', Storage.write s key text = (.ok (), s') ∧
    content s' key = some text
  remove : ∀ (s : S) (key : String), ∃ s', Storage.remove s key = (.ok (), s') ∧
    content s' key = none

instance : WorkingStorage Memory where
  content m key := m.slots.get? key
  read m key := ⟨m, rfl, rfl⟩
  write m key text := by
    refine ⟨⟨m.slots.insert key text⟩, rfl, ?_⟩
    rw [Dict.get?_insert, if_pos rfl]
  remove m key := by
    refine ⟨⟨m.slots.erase key⟩, rfl, ?_⟩
    rw [Dict.get?_erase, if_pos rfl]

namespace Slot

variable {C S : Type} [Model C] [Storage S] [WorkingStorage S]

/-- The text that is kept in a slot. -/
def content (slot : Slot S) : Option String := WorkingStorage.content slot.storage slot.key

/-- The text that is written for a context and the fields that came with an event. -/
def text (context : C) (payload : Patch) : String :=
  (Json.ofObject (snapshot context payload)).compact

omit [WorkingStorage S] in
lemma keep_of_unwanted (slot : Slot S) {context : C} (payload : Patch)
    (h : Model.wantsKeeping context = false) : slot.keep context payload = (slot, []) := by
  rw [keep, h]
  rfl

lemma content_keep (slot : Slot S) {context : C} (payload : Patch)
    (h : Model.wantsKeeping context = true) :
    (slot.keep context payload).1.content = some (text context payload) := by
  obtain ⟨storage, hwrite, hcontent⟩ :=
    WorkingStorage.write slot.storage slot.key (text context payload)
  rw [text] at hwrite hcontent
  rw [keep, if_pos h]
  dsimp only
  rw [hwrite]
  exact hcontent

lemma content_forget (slot : Slot S) : slot.forget.1.content = none := by
  obtain ⟨storage, hremove, hcontent⟩ := WorkingStorage.remove slot.storage slot.key
  rw [forget, hremove]
  exact hcontent

omit [WorkingStorage S] in
/-- Whether a slot is read back as a context, and nothing is discarded. -/
def Reopens (slot : Slot S) (context : C) : Prop :=
  ∃ slot', slot.reopen (C := C) = (context, slot', [])

/-- **What is read back of a slot** depends on its content alone. -/
lemma reopens_iff {slot : Slot S} {text : String} (h : slot.content = some text) (context : C) :
    slot.Reopens context ↔ contextOf slot.key text = .ok context := by
  obtain ⟨storage, hread, -⟩ := WorkingStorage.read slot.storage slot.key
  rw [show WorkingStorage.content slot.storage slot.key = some text from h] at hread
  rw [Reopens, reopen, hread]
  dsimp only
  cases contextOf (C := C) slot.key text with
  | ok found => simp
  | error cause => simp

/-- A slot whose content cannot be read is reopened with a fresh context. -/
lemma fst_reopen_of_refused {slot : Slot S} {text : String} (h : slot.content = some text)
    (hrefused : ∀ context : C, contextOf slot.key text ≠ .ok context) :
    (slot.reopen (C := C)).1 = Model.fresh := by
  obtain ⟨storage, hread, -⟩ := WorkingStorage.read slot.storage slot.key
  rw [show WorkingStorage.content slot.storage slot.key = some text from h] at hread
  rw [reopen, hread]
  dsimp only
  cases hfound : contextOf (C := C) slot.key text with
  | ok found => exact absurd hfound (hrefused found)
  | error cause => rfl

end Slot

end FormChart
