import FormChart.Proofs.Session.Effects

/-!
# Coalescing and the storage

Of equal effects that follow one another, only one is carried out (`coalesce`).  To the storage this
makes no difference (`Session.coalescing_spares_the_storage`): in a memory each effect does just as
well once as twice (`Effect.writes_writes`), so the memory is left as if every effect had been
carried out, and the last one that touches the slot decides.

To what is logged it does make a difference, see `FormChart.Proofs.Session.Logging`.
-/

namespace FormChart

variable {C Env : Type}

namespace Effect

/-- What an effect makes of the texts in a memory; the first argument is the text that would be
written under the key, if there is one. -/
def writes (text : Option String) (key : String) (slots : Dict String) : Effect → Dict String
  | .keep => text.elim slots (slots.insert key)
  | .forget => slots.erase key
  | .log _ => slots

variable (text : Option String) (key : String)

/-- Only the text under the key changes. -/
lemma get?_writes (slots : Dict String) (e : Effect) (k : String) :
    (writes text key slots e).get? k =
      if k = key then leaves text (slots.get? key) e else slots.get? k := by
  cases e with
  | keep =>
      cases text with
      | none => by_cases h : k = key <;> simp [writes, leaves, h]
      | some text => rw [writes, Option.elim_some, Dict.get?_insert]; rfl
  | forget => exact Dict.get?_erase slots key k
  | log message => by_cases h : k = key <;> simp [writes, leaves, h]

/-- **Twice is as good as once.** -/
lemma writes_writes (slots : Dict String) (e : Effect) :
    writes text key (writes text key slots e) e = writes text key slots e := by
  refine Dict.ext_get? fun k => ?_
  rw [get?_writes, get?_writes, if_pos rfl, leaves_leaves, get?_writes]
  split <;> rfl

lemma get?_foldl_writes (slots : Dict String) (effects : List Effect) (k : String) :
    (effects.foldl (writes text key) slots).get? k =
      if k = key then effects.foldl (leaves text) (slots.get? key) else slots.get? k := by
  induction effects generalizing slots with
  | nil => by_cases h : k = key <;> simp [h]
  | cons e rest ih =>
      rw [List.foldl_cons, List.foldl_cons, ih, get?_writes, if_pos rfl, get?_writes]
      split <;> rfl

end Effect

variable [Model C]

/-- Keeping a context in a memory. -/
lemma Slot.keep_memory (slots : Dict String) (key : String) (context : C) (payload : Patch) :
    (⟨⟨slots⟩, key⟩ : Slot Memory).keep context payload =
      (⟨⟨Effect.writes (text? context payload) key slots .keep⟩, key⟩, []) := by
  unfold keep text?
  split <;> rfl

namespace Session

variable {s : Session C Env Memory} {slots : Dict String} {key : String}

/-- An effect on a session that keeps its context in a memory. -/
lemma slot_carryOut (hslot : s.slot = some ⟨⟨slots⟩, key⟩) (payload : Patch) (e : Effect) :
    (s.carryOut payload e).slot =
      some ⟨⟨e.writes (Slot.text? s.machine.context payload) key slots⟩, key⟩ := by
  cases e with
  | keep =>
      rw [carryOut, withSlot, hslot]
      dsimp only
      rw [Slot.keep_memory]
      rfl
  | forget => rw [carryOut, withSlot, hslot]; rfl
  | log message => exact hslot

lemma slot_foldl_carryOut (hslot : s.slot = some ⟨⟨slots⟩, key⟩) (payload : Patch)
    (effects : List Effect) :
    (effects.foldl (carryOut payload) s).slot =
      some ⟨⟨effects.foldl (Effect.writes (Slot.text? s.machine.context payload) key) slots⟩,
        key⟩ := by
  induction effects generalizing s slots with
  | nil => exact hslot
  | cons e rest ih =>
      obtain ⟨slot, notices, he⟩ := carryOut_eq payload s e
      have hmachine : (s.carryOut payload e).machine = s.machine := by rw [he]
      rw [List.foldl_cons, ih (slot_carryOut hslot payload e), hmachine, List.foldl_cons]

/-- **Coalescing makes no difference to the storage.**  Whatever effects have been collected, and
whatever the memory holds,

* the memory is left as if every single effect had been carried out, in order;
* if the context wants to be kept, the last effect that touches the slot decides: the slot holds the
  text of the context with the fields of the event that set the macrostep off, or nothing;
* if it does not, the slot is empty if anything was to be forgotten, and left alone otherwise;
* nothing changes under other keys. -/
theorem coalescing_spares_the_storage (hslot : s.slot = some ⟨⟨slots⟩, key⟩)
    (effects : List Effect) (trigger : Event) :
    ∃ slots' : Dict String,
      (s.carryOutAll effects trigger).slot = some ⟨⟨slots'⟩, key⟩ ∧
      (effects.foldl (carryOut trigger.payload) s).slot = some ⟨⟨slots'⟩, key⟩ ∧
      (slots'.get? key =
        if Model.wantsKeeping s.machine.context then
          match lastTouch? effects with
          | some .keep => some (Slot.text s.machine.context trigger.payload)
          | some .forget => none
          | _ => slots.get? key
        else if .forget ∈ effects then none else slots.get? key) ∧
      ∀ other, other ≠ key → slots'.get? other = slots.get? other := by
  set text := Slot.text? s.machine.context trigger.payload with htext
  refine ⟨effects.foldl (Effect.writes text key) slots, ?_, slot_foldl_carryOut hslot _ _, ?_,
    fun other hother => ?_⟩
  · rw [carryOutAll, slot_foldl_carryOut hslot,
      foldl_coalesce_of_idempotent (Effect.writes_writes text key)]
  · rw [Effect.get?_foldl_writes, if_pos rfl, htext, Slot.text?]
    split
    next => exact foldl_leaves_some effects _ _
    next => exact foldl_leaves_none effects _
  · rw [Effect.get?_foldl_writes, if_neg hother]

/-- A session whose memory also holds something of others. -/
def lodging : Session Tally Unit Memory :=
  { chart := errand.outline.chart, machine := { context := { count := 3, cursor := 1 } }
    slot := some ⟨⟨Dict.ofList [("mine", "old"), ("others", "new")]⟩, "mine"⟩ }

/-- Kept twice, forgotten, and kept again behind a log: the slot holds the context with the fields
that came with the event, without the one that is for the moment. -/
theorem coalescing_spares_the_storage_lodging :
    lodging.slot = some ⟨⟨Dict.ofList [("mine", "old"), ("others", "new")]⟩, "mine"⟩ ∧
    ∃ slots : Dict String,
      (lodging.carryOutAll [.keep, .keep, .forget, .keep, .log "kept"]
        { name := "go", data := .record [("flag", .bool true), ("cursor", Json.nat 9)] }).slot =
          some ⟨⟨slots⟩, "mine"⟩ ∧
      slots.get? "mine" =
        some "\x7b\"count\":3,\"flag\":true,\"log\":[],\"obj\":\x7b\x7d,\"store\":true\x7d" ∧
      slots.get? "others" = some "new" := by
  obtain ⟨slots, hslots, -, hmine, hothers⟩ := coalescing_spares_the_storage (s := lodging) rfl
    [.keep, .keep, .forget, .keep, .log "kept"]
    { name := "go", data := .record [("flag", .bool true), ("cursor", Json.nat 9)] }
  refine ⟨rfl, slots, hslots, hmine.trans ?_, hothers "others" (by decide)⟩
  decide +kernel

end Session

end FormChart
