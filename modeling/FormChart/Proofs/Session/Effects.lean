import Mathlib.Data.List.Induction
import FormChart.Proofs.Storage.Working
import FormChart.Proofs.Session.Journey

/-!
# What effects leave in the slot

The effects of a macrostep all see the same context and the same payload, so each of them can leave
one of three things in the slot: what was there, nothing, or the text of the context at rest
(`Effect.leaves`).  A slot is therefore followed through a list of effects without looking at the
session again (`Session.kept_carryOutAll`), immediate repetitions make no difference
(`foldl_coalesce`), and **the last effect that touches the slot decides** (`foldl_leaves_some`).
-/

namespace FormChart

/-- What an effect leaves in a slot; the first argument is the text that would be written, if there
is one. -/
def Effect.leaves (text kept : Option String) : Effect → Option String
  | .keep => text.or kept
  | .forget => none
  | .log _ => kept

/-- Whether an effect touches the slot. -/
def Effect.touchesSlot : Effect → Bool
  | .keep | .forget => true
  | .log _ => false

/-- The last effect that touches the slot. -/
def lastTouch? (effects : List Effect) : Option Effect :=
  (effects.filter Effect.touchesSlot).getLast?

/-! ## Lists of effects -/

lemma Effect.leaves_leaves (text kept : Option String) (e : Effect) :
    e.leaves text (e.leaves text kept) = e.leaves text kept := by
  cases e with
  | keep => cases text <;> rfl
  | forget => rfl
  | log message => rfl

/-- Immediate repetitions make no difference to what is done just as well once as twice. -/
lemma foldl_coalesce_of_idempotent {σ : Type} {f : σ → Effect → σ}
    (hf : ∀ state e, f (f state e) e = f state e) (effects : List Effect) (state : σ) :
    (coalesce effects).foldl f state = effects.foldl f state := by
  induction effects using coalesce.induct generalizing state with
  | case1 => rfl
  | case2 e => rfl
  | case3 e rest ih =>
      rw [coalesce, if_pos rfl, ih]
      simp only [List.foldl_cons, hf]
  | case4 e f rest hne ih =>
      rw [coalesce, if_neg hne, List.foldl_cons, ih]
      rfl

lemma foldl_coalesce (text kept : Option String) (effects : List Effect) :
    (coalesce effects).foldl (Effect.leaves text) kept =
      effects.foldl (Effect.leaves text) kept :=
  foldl_coalesce_of_idempotent (Effect.leaves_leaves text) effects kept

lemma lastTouch?_append (effects : List Effect) (e : Effect) :
    lastTouch? (effects ++ [e]) = if e.touchesSlot then some e else lastTouch? effects := by
  cases h : e.touchesSlot <;> simp [lastTouch?, List.filter_append, h]

/-- **The last effect that touches the slot decides**, if there is a text to be written. -/
lemma foldl_leaves_some (effects : List Effect) (text : String) (kept : Option String) :
    effects.foldl (Effect.leaves (some text)) kept =
      match lastTouch? effects with
      | some .keep => some text
      | some .forget => none
      | _ => kept := by
  induction effects using List.reverseRecOn with
  | nil => rfl
  | append_singleton effects e ih =>
      rw [List.foldl_append, List.foldl_cons, List.foldl_nil, lastTouch?_append]
      cases e with
      | keep => rfl
      | forget => rfl
      | log message => exact ih

/-- Otherwise it only matters whether something is to be forgotten. -/
lemma foldl_leaves_none (effects : List Effect) (kept : Option String) :
    effects.foldl (Effect.leaves none) kept = if .forget ∈ effects then none else kept := by
  induction effects using List.reverseRecOn with
  | nil => rfl
  | append_singleton effects e ih =>
      rw [List.foldl_append, List.foldl_cons, List.foldl_nil, ih]
      cases e with
      | keep => simp [Effect.leaves]
      | forget => simp [Effect.leaves]
      | log message => simp [Effect.leaves]

lemma foldl_leaves_of_lastTouch {effects : List Effect} (h : lastTouch? effects = some .keep)
    (text : String) (kept : Option String) :
    effects.foldl (Effect.leaves (some text)) kept = some text := by
  rw [foldl_leaves_some, h]

/-- Nothing else is ever left. -/
lemma foldl_leaves_cases (effects : List Effect) (text kept : Option String) :
    effects.foldl (Effect.leaves text) kept = kept ∨
      effects.foldl (Effect.leaves text) kept = none ∨
      effects.foldl (Effect.leaves text) kept = text := by
  induction effects using List.reverseRecOn with
  | nil => exact .inl rfl
  | append_singleton effects e ih =>
      rw [List.foldl_append, List.foldl_cons, List.foldl_nil]
      cases e with
      | keep =>
          cases text with
          | none => exact ih
          | some text => exact .inr (.inr rfl)
      | forget => exact .inr (.inl rfl)
      | log message => exact ih

/-! ## Sessions -/

variable {C Env S : Type} [Model C] [Storage S] [WorkingStorage S]

namespace Slot

omit [Storage S] [WorkingStorage S] in
/-- The text that is written, if the context wants to be kept. -/
def text? (context : C) (payload : Patch) : Option String :=
  if Model.wantsKeeping context then some (text context payload) else none

lemma content_keep_eq (slot : Slot S) (context : C) (payload : Patch) :
    (slot.keep context payload).1.content = (text? context payload).or slot.content := by
  cases h : Model.wantsKeeping context with
  | false => rw [keep_of_unwanted slot payload h, text?, h]; rfl
  | true => rw [content_keep slot payload h, text?, h]; rfl

end Slot

namespace Session

omit [Model C] in
/-- What is kept of a session. -/
def kept (s : Session C Env S) : Option String := s.slot.bind Slot.content

omit [WorkingStorage S] in
/-- Effects neither add a slot nor take one away. -/
lemma isSome_slot_carryOutAll (s : Session C Env S) (effects : List Effect) (trigger : Event) :
    (s.carryOutAll effects trigger).slot.isSome = s.slot.isSome := by
  have hslot : ∀ (s : Session C Env S) (f : Slot S → Slot S × List Notice),
      (s.withSlot f).slot.isSome = s.slot.isSome := by
    intro s f
    unfold withSlot
    cases h : s.slot <;> simp [h, tell]
  unfold carryOutAll
  induction coalesce effects generalizing s with
  | nil => rfl
  | cons e rest ih =>
      rw [List.foldl_cons, ih]
      cases e with
      | keep => exact hslot s _
      | forget => exact hslot s _
      | log message => rfl

/-- An effect on a session with a slot. -/
lemma kept_carryOut {s : Session C Env S} (hslot : s.slot.isSome = true) (payload : Patch)
    (e : Effect) :
    (s.carryOut payload e).slot.isSome = true ∧ (s.carryOut payload e).machine = s.machine ∧
      (s.carryOut payload e).kept = e.leaves (Slot.text? s.machine.context payload) s.kept := by
  obtain ⟨slot, hslot⟩ := Option.isSome_iff_exists.1 hslot
  have hkept : s.kept = slot.content := by rw [kept, hslot, Option.bind_some]
  rw [hkept]
  cases e with
  | keep =>
      rw [carryOut, withSlot, hslot]
      exact ⟨rfl, rfl, slot.content_keep_eq _ _⟩
  | forget =>
      rw [carryOut, withSlot, hslot]
      exact ⟨rfl, rfl, slot.content_forget⟩
  | log message => exact ⟨Option.isSome_of_eq_some hslot, rfl, hkept⟩

/-- **What effects leave in the slot** of a session. -/
lemma kept_carryOutAll {s : Session C Env S} (hslot : s.slot.isSome = true)
    (effects : List Effect) (trigger : Event) :
    (s.carryOutAll effects trigger).kept =
      effects.foldl (Effect.leaves (Slot.text? s.machine.context trigger.payload)) s.kept := by
  rw [← foldl_coalesce]
  unfold carryOutAll
  induction coalesce effects generalizing s with
  | nil => rfl
  | cons e rest ih =>
      obtain ⟨hslot', hmachine, hkept⟩ := kept_carryOut hslot trigger.payload e
      rw [List.foldl_cons, List.foldl_cons, ih hslot', hmachine, hkept]

/-! ## Macrosteps at rest -/

omit [WorkingStorage S] in
@[simp] lemma isSome_slot_rest (s : Session C Env S) (trigger : Event) (m : Macrostep C Env) :
    (s.rest trigger m).slot.isSome = s.slot.isSome := isSome_slot_carryOutAll _ _ _

lemma kept_rest {s : Session C Env S} (hslot : s.slot.isSome = true) (trigger : Event)
    (m : Macrostep C Env) :
    (s.rest trigger m).kept =
      m.effects.foldl (Effect.leaves (Slot.text? m.machine.context trigger.payload)) s.kept := by
  have hmoved : ({ s with machine := m.machine }.tell m.notices).slot.isSome = true := hslot
  rw [rest, kept_carryOutAll hmoved]
  rfl

/-- What is kept once a macrostep is at rest: what was, nothing, or the text of the context at rest
with the payload of the event that set the macrostep off. -/
lemma kept_rest_cases (s : Session C Env S) (trigger : Event) (m : Macrostep C Env) :
    (s.rest trigger m).kept = s.kept ∨ (s.rest trigger m).kept = none ∨
      (s.rest trigger m).kept = some (Slot.text m.machine.context trigger.payload) := by
  cases hslot : s.slot.isSome with
  | false =>
      have hnone := isSome_slot_rest s trigger m
      rw [hslot, Option.isSome_eq_false_iff, Option.isNone_iff_eq_none] at hnone
      exact .inr (.inl (by rw [kept, hnone, Option.bind_none]))
  | true =>
      rw [kept_rest hslot]
      rcases foldl_leaves_cases m.effects (Slot.text? m.machine.context trigger.payload) s.kept with
        h | h | h
      · exact .inl h
      · exact .inr (.inl h)
      · rw [h, Slot.text?]
        split
        next => exact .inr (.inr rfl)
        next => exact .inr (.inl rfl)

/-- What is kept once a macrostep is at rest that has asked last for the context to be kept. -/
lemma kept_rest_of_lastTouch {s : Session C Env S} (hslot : s.slot.isSome = true)
    {m : Macrostep C Env} (hlast : lastTouch? m.effects = some .keep)
    (hwants : Model.wantsKeeping m.machine.context = true) (trigger : Event) :
    (s.rest trigger m).kept = some (Slot.text m.machine.context trigger.payload) := by
  rw [kept_rest hslot, Slot.text?, if_pos hwants, foldl_leaves_of_lastTouch hlast]

end Session

end FormChart
