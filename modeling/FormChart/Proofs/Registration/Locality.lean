import FormChart.Proofs.Registration.Fitting
import FormChart.Proofs.Session.Contexts

/-!
# Patches field by field

A patch is written over a context by way of the JSON form: all fields are written out, the patch is
merged in, and all fields are read again.  Here the fields of a context are listed as data
(`Context.fields`), each with its writing and its reading, so that what a patch does to a context
can be said of one field after the other.

**A patch works field by field** (`Context.apply_fieldwise`).  It fits if each field that it names
can be read by itself once the new value is merged in, and then exactly these fields change.  Keys
that are no fields do nothing.  A patch that does not fit does nothing at all, and the actions after
it go on as if it had not been there, but for a notice.
-/

namespace FormChart

namespace Action

variable {C Env : Type}

/-- Whether an action writes a patch over a context. -/
def Writes (event : Event) (context : C) (patch : Patch) (mode : MergeMode) : Action C → Prop
  | .assign write _ => write context event = patch ∧ mode = .replace
  | .forward => event.payload = patch ∧ mode = .shallow
  | .raise _ | .effect _ => False

/-- **A patch that does not fit** leaves everything as it is, but for what is told. -/
lemma perform_of_rejected [Model C] (chart : Chart C Env) {event : Event} {m : Macrostep C Env}
    {a : Action C} {patch : Patch} {mode : MergeMode} {cause : PatchError}
    (hwrites : a.Writes event m.machine.context patch mode)
    (hrejected : apply m.machine.context patch mode = .error cause) :
    ∃ remarks, m.perform chart event a =
      m.tell (remarks ++ [.patchSkipped (m.machine.leafPath chart) cause]) := by
  cases a with
  | assign write remarks =>
      obtain ⟨rfl, rfl⟩ := hwrites
      refine ⟨remarks m.machine.context event, ?_⟩
      rw [Macrostep.perform, Macrostep.write]
      simp only [Macrostep.tell, hrejected, List.append_assoc]
  | forward =>
      obtain ⟨rfl, rfl⟩ := hwrites
      refine ⟨[], ?_⟩
      rw [Macrostep.perform, Macrostep.write, hrejected]
      rfl
  | raise name => exact hwrites.elim
  | effect e => exact hwrites.elim

end Action

namespace Registration

/-- A field of contexts, with its default, its writing and its reading. -/
structure Field where
  name : String
  Value : Type
  default : Value
  encode : Value → Json
  read : Json → Option Value
  get : Context → Value

namespace Field

/-- What a field holds once a new value is merged in. -/
def merged (f : Field) (c : Context) (mode : MergeMode) (new : Json) : Json :=
  mergeValue mode (some (f.encode (f.get c))) new

/-- What a patch makes of a field, judged by itself; none if it cannot be read. -/
def patched? (f : Field) (c : Context) (patch : Patch) (mode : MergeMode) : Option f.Value :=
  match patch.get? f.name with
  | some new => f.read (f.merged c mode new)
  | none => some (f.get c)

end Field

namespace Context

/-- The fields of a context in their order. -/
def fields : List Field :=
  [⟨"basicInfo", BasicInfo, {}, BasicInfo.encode, BasicInfo.decode, basicInfo⟩,
    ⟨"household", Household, {}, Household.encode, Household.decode, household⟩,
    ⟨"impact", Object, {}, Json.ofObject, Json.object?, impact⟩,
    ⟨"resources", Resources, {}, Resources.encode, Resources.decode, resources⟩,
    ⟨"submit", Object, {}, Json.ofObject, Json.object?, submit⟩,
    ⟨"disasters", Catalog, {}, Catalog.encode, Catalog.decode, disasters⟩,
    ⟨"registration", Filing, {}, Filing.encode, Filing.decode, registration⟩,
    ⟨"config", Preferences, {}, Preferences.encode, Preferences.decode, config⟩,
    ⟨"meta", Activity, {}, Activity.encode, Activity.decode, activity⟩,
    ⟨"prefix", String, "", Json.str, Json.str?, area⟩,
    ⟨"currentSection", String, "welcome", Json.str, Json.str?, currentSection⟩,
    ⟨"currentStep", String, "", Json.str, Json.str?, currentStep⟩,
    ⟨"previousSection", String, "", Json.str, Json.str?, previousSection⟩,
    ⟨"previousStep", String, "", Json.str, Json.str?, previousStep⟩,
    ⟨"step", Nat, 0, Json.nat, Json.nat32?, step⟩,
    ⟨"totalSteps", Nat, Registration.totalSteps, Json.nat, Json.nat32?, totalSteps⟩,
    ⟨"errors", Faults, {}, Faults.encode, fun v => some (Faults.decode v), errors⟩]

lemma map_name_fields : fields.map Field.name = fieldNames := rfl

lemma tests_eq_map_fields : tests = fields.map fun f => (f.name, fun v => (f.read v).isSome) := rfl

variable {c c' : Context}

/-- A context is written field by field. -/
lemma get?_toPatch_field (c : Context) :
    ∀ f ∈ fields, c.toPatch.get? f.name = some (f.encode (f.get c)) := by
  have hpatch : c.toPatch = Dict.ofList _ := Json.fieldsOrEmpty_record _
  simp only [hpatch, fields, List.forall_mem_cons, Dict.get?_ofList]
  exact ⟨rfl, rfl, rfl, rfl, rfl, rfl, rfl, rfl, rfl, rfl, rfl, rfl, rfl, rfl, rfl, rfl, rfl, nofun⟩

/-- A context is read field by field. -/
lemma reads_iff {record : Object} :
    Reads record c ↔ ∀ f ∈ fields, record.fieldOr f.name f.default f.read = some (f.get c) := by
  simp only [fields, List.forall_mem_cons]
  constructor
  · intro h
    exact ⟨h.basicInfo, h.household, h.impact, h.resources, h.submit, h.disasters, h.registration,
      h.config, h.activity, h.area, h.currentSection, h.currentStep, h.previousSection,
      h.previousStep, h.step, h.totalSteps, h.errors, nofun⟩
  · rintro ⟨hbasicInfo, hhousehold, himpact, hresources, hsubmit, hdisasters, hregistration,
      hconfig, hactivity, harea, hcurrentSection, hcurrentStep, hpreviousSection, hpreviousStep,
      hstep, htotalSteps, herrors, -⟩
    exact ⟨hbasicInfo, hhousehold, himpact, hresources, hsubmit, hdisasters, hregistration,
      hconfig, hactivity, harea, hcurrentSection, hcurrentStep, hpreviousSection, hpreviousStep,
      hstep, htotalSteps, herrors⟩

/-- A field of a valid context is read back. -/
lemma Valid.read_encode (h : c.Valid) :
    ∀ f ∈ fields, f.read (f.encode (f.get c)) = some (f.get c) := by
  intro f hf
  have hread := reads_iff.1 h.reads f hf
  rwa [Object.fieldOr, get?_toPatch_field c f hf] at hread

/-- What is read of a field once a patch is merged in depends on this field alone. -/
lemma Valid.fieldOr_merge (h : c.Valid) {f : Field} (hf : f ∈ fields) (patch : Patch)
    (mode : MergeMode) :
    Object.fieldOr (merge mode c.toPatch patch) f.name f.default f.read =
      f.patched? c patch mode := by
  have hold := get?_toPatch_field c f hf
  rw [Object.fieldOr, get?_merge, hold, Field.patched?]
  cases hnew : patch.get? f.name with
  | none => exact h.read_encode f hf
  | some new => rfl

/-- What a patch that fits makes of a context. -/
lemma Valid.apply_eq_ok_iff_patched (h : c.Valid) {patch : Patch} {mode : MergeMode} :
    FormChart.apply c patch mode = .ok c' ↔
      ∀ f ∈ fields, f.patched? c patch mode = some (f.get c') := by
  rw [h.apply_eq_ok_iff, reads_iff]
  exact forall₂_congr fun f hf => by rw [h.fieldOr_merge hf]

/-- Which patches fit. -/
lemma Valid.exists_apply_iff (h : c.Valid) {patch : Patch} {mode : MergeMode} :
    (∃ c', FormChart.apply c patch mode = .ok c') ↔
      ∀ f ∈ fields, (f.patched? c patch mode).isSome = true := by
  have hdecode : (∃ c', FormChart.apply c patch mode = .ok c') ↔
      (decode (.ofObject (merge mode c.toPatch patch))).isSome = true := by
    rw [apply_eq h]
    cases decode (.ofObject (merge mode c.toPatch patch)) <;> simp
  rw [hdecode, isSome_decode, tests_eq_map_fields]
  simp only [Object.Passes, List.forall_mem_map]
  refine forall₂_congr fun f hf => ?_
  rw [← h.fieldOr_merge hf, Object.isSome_fieldOr]

/-- A patch with every field of another context makes that context. -/
lemma Valid.apply_toPatch (h : c.Valid) (h' : c'.Valid) :
    FormChart.apply c c'.toPatch .replace = .ok c' := by
  rw [h.apply_eq_ok_iff_patched]
  intro f hf
  rw [Field.patched?, get?_toPatch_field c' f hf]
  exact h'.read_encode f hf

/-- An action that writes every field of another context makes that context. -/
lemma Valid.outcome_toPatch (h : c.Valid) {f : Context → Event → Context} {event : Event}
    {remarks : Context → Event → List Notice} (h' : (f c event).Valid) :
    (Action.assign (fun c e => (f c e).toPatch) remarks).outcome event c = f c event := by
  rw [Action.outcome, h.apply_toPatch h']
  rfl

/-- What setting fields that fit makes of a context. -/
lemma Valid.outcome_set (h : c.Valid) {values : List (String × Json)} (event : Event)
    (hvalues : ∀ f ∈ fields, f.patched? c (Dict.ofList values) .replace = some (f.get c')) :
    (Action.set values).outcome event c = c' := by
  rw [Action.set, Action.outcome, h.apply_eq_ok_iff_patched.2 hvalues]
  rfl

/-- **A patch works field by field.**

* It fits exactly if every field that it names can be read by itself with the new value merged in.
* If it fits, every field that it names holds what is read there, and every other field holds what
  it held before.  So keys that are no fields make no difference.
* If it does not fit, an action that writes it leaves everything as it is but for a notice, and the
  actions after it are performed nevertheless. -/
theorem apply_fieldwise {v : Json} {c : Context} (hcontext : decode v = some c) (patch : Patch)
    (mode : MergeMode) :
    ((∃ c', apply c patch mode = .ok c') ↔
      ∀ f ∈ fields, ∀ new, patch.get? f.name = some new →
        ∃ value, f.read (f.merged c mode new) = some value) ∧
    (∀ c', apply c patch mode = .ok c' → ∀ f ∈ fields,
      (∀ new, patch.get? f.name = some new → f.read (f.merged c mode new) = some (f.get c')) ∧
        (patch.get? f.name = none → f.get c' = f.get c)) ∧
    (∀ other : Patch, (∀ name ∈ fieldNames, other.get? name = patch.get? name) →
      ∀ c', apply c other mode = .ok c' ↔ apply c patch mode = .ok c') ∧
    ∀ cause, apply c patch mode = .error cause →
      ∀ {Env : Type} (chart : Chart Context Env) (event : Event) (m : Macrostep Context Env)
        (a : Action Context) (rest : List (Action Context)), m.machine.context = c →
        a.Writes event c patch mode → ∃ remarks,
          let skipped := m.tell (remarks ++ [.patchSkipped (m.machine.leafPath chart) cause])
          skipped.machine.context = c ∧
            m.performAll chart event (a :: rest) = skipped.performAll chart event rest := by
  have hvalid := valid_of_decode hcontext
  refine ⟨?_, fun c' happly f hf => ?_, fun other hsame c' => ?_, ?_⟩
  · rw [hvalid.exists_apply_iff]
    refine forall₂_congr fun f _ => ?_
    rw [Field.patched?]
    cases patch.get? f.name with
    | none => simp
    | some new => simp [Option.isSome_iff_exists]
  · have hpatched := hvalid.apply_eq_ok_iff_patched.1 happly f hf
    rw [Field.patched?] at hpatched
    constructor
    · intro new hnew
      simpa only [hnew] using hpatched
    · intro hnone
      simpa only [hnone, Option.some.injEq, eq_comm] using hpatched
  · rw [hvalid.apply_eq_ok_iff_patched, hvalid.apply_eq_ok_iff_patched]
    refine forall₂_congr fun f hf => ?_
    have hname : f.name ∈ fieldNames := map_name_fields ▸ List.mem_map_of_mem hf
    rw [Field.patched?, Field.patched?, hsame _ hname]
  · rintro cause hrejected Env chart event m a rest rfl hwrites
    obtain ⟨remarks, hperform⟩ := a.perform_of_rejected chart hwrites hrejected
    exact ⟨remarks, rfl, congrArg (Macrostep.performAll chart event · rest) hperform⟩

/-- A context with a household of two. -/
def seeded : Context :=
  { household := { numMembers := some 2, members := [{ name := { first := "Ann" } }, {}] }
    step := 3 }

/-- A patch with the number of members as a text, and with a key that is no field. -/
def growing : Patch :=
  Dict.ofList [("household", .record [("numMembers", .str " 3 ")]), ("currentStep", .str "names"),
    ("nowhere", .null)]

/-- A patch with a step that is no number. -/
def illTyped : Patch := Dict.ofList [("currentStep", .str "names"), ("step", .str "x")]

/-- The first patch grows the household and keeps its members, the second one does nothing. -/
theorem apply_fieldwise_seeded :
    decode seeded.encode = some seeded ∧
      (∃ c', apply seeded growing .shallow = .ok c' ∧ c'.step = 3 ∧
        c'.household = { seeded.household with numMembers := some 3 }) ∧
      ∀ c', apply seeded illTyped .replace ≠ .ok c' := by
  have hread : decode seeded.encode = some seeded := by decide +kernel
  obtain ⟨hfits, hfields, -⟩ := apply_fieldwise hread growing .shallow
  obtain ⟨hrefused, -⟩ := apply_fieldwise hread illTyped .replace
  have hgrowing : (fields.all fun f => (growing.get? f.name).all fun new =>
      (f.read (f.merged seeded .shallow new)).isSome) = true := by decide +kernel
  obtain ⟨c', hc'⟩ := hfits.2 fun f hf new hnew => by
    have hall := List.all_eq_true.1 hgrowing f hf
    rw [hnew] at hall
    exact Option.isSome_iff_exists.1 hall
  refine ⟨hread, ⟨c', hc', ?_, ?_⟩, fun c' hc' => ?_⟩
  · exact (hfields c' hc' ⟨"step", Nat, 0, Json.nat, Json.nat32?, step⟩ (by simp [fields])).2
      (by decide +kernel)
  · have hhousehold := (hfields c' hc'
      ⟨"household", Household, {}, Household.encode, Household.decode, household⟩
      (by simp [fields])).1 (.record [("numMembers", .str " 3 ")]) (by decide +kernel)
    have hmerged : Household.decode (mergeValue .shallow (some seeded.household.encode)
        (.record [("numMembers", .str " 3 ")])) =
          some { seeded.household with numMembers := some 3 } := by decide +kernel
    exact Option.some.inj (hhousehold.symm.trans hmerged)
  · obtain ⟨value, hvalue⟩ := hrefused.1 ⟨c', hc'⟩
      ⟨"step", Nat, 0, Json.nat, Json.nat32?, step⟩ (by simp [fields]) (.str "x")
      (by decide +kernel)
    cases hvalue

end Context

end Registration

end FormChart
