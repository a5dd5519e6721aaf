import FormChart.Proofs.Registration.Context

/-!
# Which patches fit

A patch that is written over a context in the mode `shallow` is refused if the result cannot be
read.  Whether it can is **a property of the patch alone**: a patch fits one context exactly if it
fits all of them, and exactly if it could be read as a context by itself (`Context.apply_isOk_iff`).

Two facts make this so.  Readings of records judge field by field (`Fieldwise`), and no judgement of
a field changes when a new value is merged into an old one that passed (`Mergeable`): an object is
written over an object field by field, and anything else takes its place.
-/

namespace FormChart

/-- Whether merging into a value that passes a test leaves the judgement to the new value. -/
def Mergeable (test : Json → Bool) : Prop :=
  ∀ old new, test old = true →
    (test (mergeValue .shallow (some old) new) = true ↔ test new = true)

section

variable {α : Type} {read : Json → Option α}

lemma Fieldwise.mergeable (h : Fieldwise read) : Mergeable fun v => (read v).isSome := by
  intro old new hold
  cases old with
  | obj old =>
      cases new with
      | obj new => exact h.overlay hold
      | _ => rfl
  | _ => rfl

/-- Values that are no objects are replaced. -/
lemma mergeable_of_obj (h : ∀ fields, read (.obj fields) = none) :
    Mergeable fun v => (read v).isSome := by
  intro old new hold
  cases old with
  | obj old => simp [h] at hold
  | _ => rfl

lemma merge_of_isEmpty {mode : MergeMode} {base : Object} {patch : Patch}
    (h : patch.isEmpty = true) : merge mode base patch = base := by
  have hentries : patch.entries = [] := List.isEmpty_iff.1 h
  rw [merge, hentries, List.foldl_nil]

/-- A field that is written over another one; without a new value it is read as before. -/
lemma Object.fieldOr_merge_replace {α : Type} {name : String} {default a : α}
    {read : Json → Option α} {base : Object} (hbase : base.fieldOr name default read = some a)
    (fields : Object) :
    Object.fieldOr (merge .replace base fields) name default read = fields.fieldOr name a read := by
  unfold fieldOr at hbase ⊢
  rw [get?_merge]
  cases fields.get? name with
  | none => exact hbase
  | some v => rfl

/-- Merged fields pass the tests that the new ones pass, if the old ones have passed. -/
lemma Object.passes_merge {tests : List (String × (Json → Bool))}
    (htests : ∀ t ∈ tests, Mergeable t.2) {base : Object} (hbase : base.Passes tests)
    (patch : Patch) :
    Object.Passes tests (merge .shallow base patch) ↔ Object.Passes tests patch := by
  refine forall₂_congr fun t ht => ?_
  rw [get?_merge]
  cases hnew : Dict.get? patch t.1 with
  | none => simpa using hbase t ht
  | some v =>
      cases hold : Dict.get? base t.1 with
      | none => simp [mergeValue]
      | some old => simpa using htests t ht old v (hbase t ht old hold)

end

namespace Registration

/-! ## Records -/

lemma BasicInfo.fieldwise : Fieldwise decode :=
  ⟨_, fun _ => Object.isSome_bind_fieldOr fun _ => Object.isSome_some _⟩

lemma Household.fieldwise : Fieldwise decode :=
  ⟨_, fun _ => Object.isSome_bind_fieldOr fun _ => Object.isSome_bind_fieldOr fun _ =>
    Object.isSome_bind_fieldOr fun _ => Object.isSome_some _⟩

lemma Resources.fieldwise : Fieldwise decode :=
  ⟨_, fun _ => Object.isSome_bind_fieldOr fun _ => Object.isSome_bind_fieldOr fun _ =>
    Object.isSome_some _⟩

lemma Catalog.fieldwise : Fieldwise decode :=
  ⟨_, fun _ => Object.isSome_bind_fieldOr fun _ => Object.isSome_some _⟩

lemma Filing.fieldwise : Fieldwise decode :=
  ⟨_, fun _ => Object.isSome_bind_fieldOr fun _ => Object.isSome_bind_fieldOr fun _ =>
    Object.isSome_bind_fieldOr fun _ => Object.isSome_bind_fieldOr fun _ =>
    Object.isSome_bind_fieldOr fun _ => Object.isSome_some _⟩

lemma Preferences.fieldwise : Fieldwise decode :=
  ⟨_, fun _ => Object.isSome_bind_fieldOr fun _ => Object.isSome_bind_fieldOr fun _ =>
    Object.isSome_bind_fieldOr fun _ => Object.isSome_some _⟩

lemma Activity.fieldwise : Fieldwise decode :=
  ⟨_, fun _ => Object.isSome_bind_fieldOr fun _ => Object.isSome_some _⟩

lemma fieldwise_object? : Fieldwise Json.object? := ⟨[], fun _ => Object.isSome_some _⟩

/-! ## Contexts -/

namespace Context

/-- The test of every field of a context. -/
def tests : List (String × (Json → Bool)) :=
  [("basicInfo", fun v => (BasicInfo.decode v).isSome),
    ("household", fun v => (Household.decode v).isSome), ("impact", fun v => v.object?.isSome),
    ("resources", fun v => (Resources.decode v).isSome), ("submit", fun v => v.object?.isSome),
    ("disasters", fun v => (Catalog.decode v).isSome),
    ("registration", fun v => (Filing.decode v).isSome),
    ("config", fun v => (Preferences.decode v).isSome),
    ("meta", fun v => (Activity.decode v).isSome), ("prefix", fun v => v.str?.isSome),
    ("currentSection", fun v => v.str?.isSome), ("currentStep", fun v => v.str?.isSome),
    ("previousSection", fun v => v.str?.isSome), ("previousStep", fun v => v.str?.isSome),
    ("step", fun v => v.nat32?.isSome), ("totalSteps", fun v => v.nat32?.isSome),
    ("errors", fun v => (some (Faults.decode v)).isSome)]

lemma mergeable_tests : ∀ t ∈ tests, Mergeable t.2 := by
  have htext : Mergeable fun v => v.str?.isSome := mergeable_of_obj fun _ => rfl
  have hnat : Mergeable fun v => v.nat32?.isSome := mergeable_of_obj fun _ => rfl
  have hany : Mergeable fun v => (some (Faults.decode v)).isSome := fun _ _ _ => Iff.rfl
  simp only [tests, List.forall_mem_cons]
  exact ⟨BasicInfo.fieldwise.mergeable, Household.fieldwise.mergeable,
    fieldwise_object?.mergeable, Resources.fieldwise.mergeable, fieldwise_object?.mergeable,
    Catalog.fieldwise.mergeable, Filing.fieldwise.mergeable, Preferences.fieldwise.mergeable,
    Activity.fieldwise.mergeable, htext, htext, htext, htext, htext, hnat, hnat, hany, nofun⟩

/-- Fields can be read as a context if each of them passes its test. -/
lemma isSome_decode (fields : Object) :
    (decode (.ofObject fields)).isSome = true ↔ fields.Passes tests := by
  rw [decode, bind_of_eq_some (Json.asRecord_ofObject _ _)]
  unfold tests
  iterate 17 refine Object.isSome_bind_fieldOr fun _ => ?_
  exact Object.isSome_some _

/-- Whether a patch fits: whether it could be read as a context by itself. -/
def Fits (patch : Patch) : Prop := (decode (.ofObject patch)).isSome = true

instance (patch : Patch) : Decidable (Fits patch) := inferInstanceAs (Decidable (_ = true))

/-- A part of a patch that fits fits too. -/
lemma Fits.without {patch : Patch} (h : Fits patch) (names : List String) :
    Fits (patch.without names) := by
  rw [Fits, isSome_decode] at h ⊢
  intro t ht v hv
  rw [Dict.get?_without] at hv
  split at hv
  next => cases hv
  next => exact h t ht v hv

/-! ## Patches -/

/-- What a patch does to a valid context: its fields are merged in and the result is read. -/
lemma apply_eq {c : Context} (h : c.Valid) (patch : Patch) (mode : MergeMode) :
    apply c patch mode =
      match decode (.ofObject (merge mode c.toPatch patch)) with
      | some next => .ok next
      | none => .error (.rejected patch.keys) := by
  have hobject : (Model.encode c).object? = some c.toPatch := by
    rw [show Model.encode c = c.encode from rfl, ← ofObject_toPatch, Json.object?_ofObject]
  unfold apply
  split
  next hempty =>
      rw [merge_of_isEmpty hempty, ofObject_toPatch, decode_encode h]
  next =>
      have hmodel : (Model.decode : Json → Option Context) = decode := rfl
      simp only [hobject, hmodel]
      cases decode (.ofObject (merge mode c.toPatch patch)) <;> rfl

/-- What a patch makes of a valid context is what the merged fields are read as. -/
lemma Valid.apply_eq_ok_iff {c c' : Context} (h : c.Valid) {patch : Patch} {mode : MergeMode} :
    FormChart.apply c patch mode = .ok c' ↔ Reads (merge mode c.toPatch patch) c' := by
  rw [apply_eq h, ← decode_ofObject_iff]
  cases decode (.ofObject (merge mode c.toPatch patch)) <;> simp

/-- Patches leave valid contexts. -/
lemma Valid.apply {c c' : Context} (h : c.Valid) {patch : Patch} {mode : MergeMode}
    (happly : apply c patch mode = .ok c') : c'.Valid :=
  valid_of_decode (decode_ofObject_iff.2 (h.apply_eq_ok_iff.1 happly))

/-- **Whether a patch can be written over a context depends on the patch alone.** -/
theorem apply_isOk_iff {c : Context} (h : c.Valid) (patch : Patch) :
    (∃ c', FormChart.apply c patch .shallow = .ok c') ↔ Fits patch := by
  have hbase : Object.Passes tests c.toPatch := by
    rw [← isSome_decode, ofObject_toPatch]
    exact Option.isSome_of_eq_some (decode_encode h)
  rw [Fits, isSome_decode, ← Object.passes_merge mergeable_tests hbase, ← isSome_decode, apply_eq h]
  cases decode (.ofObject (merge .shallow c.toPatch patch)) <;> simp

end Context

end Registration

end FormChart
