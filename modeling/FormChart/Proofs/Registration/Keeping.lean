import FormChart.Proofs.Json.ReadBack
import FormChart.Proofs.Registration.Fitting
import FormChart.Proofs.Storage.Working

/-!
# Contexts that are kept

What is written of a context is the context **with the payload of the last event written over it
once more**, without the transient fields on either side.  Reading it back gives exactly that: the
context that the payload leads to, with its transient fields as in a new one (`Context.lasting`,
`Context.contextOf_text_of_apply`).

A payload that does not fit is written all the same, and then nothing can be read back.  So whether
what is kept can be read **depends on the payload alone** (`Context.contextOf_text_isOk_iff`).

The same can be said the other way round: what is reopened is what the payload, without its
transient fields, makes of the lasting context (`Context.merge_lasting`, `Context.reopen_keep`).

Both need that the written text is read as the document it was printed from, which is about the
format and not about contexts.
-/

namespace FormChart

namespace Object

variable {α : Type} {name : String} {default : α} {read : Json → Option α}

lemma fieldOr_without (fields : Object) (names : List String) :
    Object.fieldOr (fields.without names) name default read =
      if name ∈ names then some default else fields.fieldOr name default read := by
  unfold fieldOr
  by_cases hname : name ∈ names <;> simp [hname]

end Object

namespace Registration.Context

/-- A context as it is kept: its transient fields are those of a new one. -/
def lasting (c : Context) : Context :=
  let fresh : Context := {}
  { c with
    disasters := fresh.disasters
    activity := fresh.activity
    currentSection := fresh.currentSection
    currentStep := fresh.currentStep
    errors := fresh.errors }

/-! ## Reading without the transient fields, and over a new context -/

/-- Without its transient fields, a record is read as the lasting context. -/
lemma Reads.lasting {fields : Object} {c : Context} (h : Reads fields c) :
    Reads (fields.without transientFields) c.lasting := by
  constructor
  case disasters | activity | currentSection | currentStep | errors =>
    rw [Object.fieldOr_without, if_pos (by decide)]
    rfl
  all_goals rw [Object.fieldOr_without, if_neg (by decide)]
  case basicInfo => exact h.basicInfo
  case household => exact h.household
  case impact => exact h.impact
  case resources => exact h.resources
  case submit => exact h.submit
  case registration => exact h.registration
  case config => exact h.config
  case area => exact h.area
  case previousSection => exact h.previousSection
  case previousStep => exact h.previousStep
  case step => exact h.step
  case totalSteps => exact h.totalSteps

/-- Written over a new context, fields are read as they are by themselves. -/
lemma decode_over_fresh (fields : Object) :
    decode (.ofObject (merge .replace ({} : Context).toPatch fields)) =
      decode (.ofObject fields) := by
  have h := valid_fresh.reads
  rw [decode, decode, bind_of_eq_some (Json.asRecord_ofObject _ _),
    bind_of_eq_some (Json.asRecord_ofObject _ _), Object.fieldOr_merge_replace h.basicInfo,
    Object.fieldOr_merge_replace h.household, Object.fieldOr_merge_replace h.impact,
    Object.fieldOr_merge_replace h.resources, Object.fieldOr_merge_replace h.submit,
    Object.fieldOr_merge_replace h.disasters, Object.fieldOr_merge_replace h.registration,
    Object.fieldOr_merge_replace h.config, Object.fieldOr_merge_replace h.activity,
    Object.fieldOr_merge_replace h.area, Object.fieldOr_merge_replace h.currentSection,
    Object.fieldOr_merge_replace h.currentStep, Object.fieldOr_merge_replace h.previousSection,
    Object.fieldOr_merge_replace h.previousStep, Object.fieldOr_merge_replace h.step,
    Object.fieldOr_merge_replace h.totalSteps, Object.fieldOr_merge_replace h.errors]

/-! ## What is written -/

lemma snapshot_eq (c : Context) (payload : Patch) :
    Slot.snapshot c payload = (merge .shallow c.toPatch payload).without transientFields := by
  have hmodel : (Model.transientFields Context) = transientFields := rfl
  have hfields : (Model.encode c).fieldsOrEmpty = c.toPatch := rfl
  refine Dict.ext_get? fun k => ?_
  rw [Slot.snapshot, hmodel, hfields, get?_merge, Dict.get?_without, Dict.get?_without,
    Dict.get?_without, get?_merge]
  by_cases hk : k ∈ transientFields <;> simp only [hk, if_true, if_false]

lemma snapshot_without (c : Context) (payload : Patch) :
    (Slot.snapshot c payload).without transientFields = Slot.snapshot c payload := by
  refine Dict.ext_get? fun k => ?_
  rw [snapshot_eq, Dict.get?_without, Dict.get?_without]
  by_cases hk : k ∈ transientFields <;> simp only [hk, if_true, if_false]

/-! ## What is read back -/

section

variable {c : Context} {payload : Patch}

/-- What is read back is what the snapshot is read as. -/
lemma contextOf_text (key : String)
    (hread : Json.parse (Slot.text c payload) = some (.ofObject (Slot.snapshot c payload))) :
    Slot.contextOf key (Slot.text c payload) =
      match decode (.ofObject (Slot.snapshot c payload)) with
      | some next => .ok next
      | none => .error (.incompatible (.rejected (Slot.snapshot c payload).keys)) := by
  have htransient : (Model.transientFields Context) = transientFields := rfl
  have hfresh : (Model.fresh : Context) = {} := rfl
  simp only [Slot.contextOf, hread, Json.fieldsOrEmpty_ofObject, htransient, snapshot_without,
    hfresh, apply_eq valid_fresh, decode_over_fresh]
  cases decode (.ofObject (Slot.snapshot c payload)) <;> rfl

/-- **What is read back** after an event with a payload that fits: the context that the payload
leads to, as it is kept. -/
theorem contextOf_text_of_apply (hc : c.Valid) {next : Context}
    (happly : apply c payload .shallow = .ok next) (key : String)
    (hread : Json.parse (Slot.text c payload) = some (.ofObject (Slot.snapshot c payload))) :
    Slot.contextOf key (Slot.text c payload) = .ok next.lasting := by
  have hreads : Reads (merge .shallow c.toPatch payload) next := hc.apply_eq_ok_iff.1 happly
  rw [contextOf_text key hread, snapshot_eq, decode_ofObject_iff.2 hreads.lasting]

/-- **Whether what is kept can be read back** depends on the payload alone. -/
theorem contextOf_text_isOk_iff (hc : c.Valid) (key : String)
    (hread : Json.parse (Slot.text c payload) = some (.ofObject (Slot.snapshot c payload))) :
    (∃ next : Context, Slot.contextOf key (Slot.text c payload) = .ok next) ↔
      Fits (payload.without transientFields) := by
  have hself : Fits c.toPatch := by
    rw [Fits, ofObject_toPatch]
    exact Option.isSome_of_eq_some (decode_encode hc)
  have hbase : Object.Passes tests (c.toPatch.without transientFields) :=
    (isSome_decode _).1 (hself.without transientFields)
  have hsnapshot : Slot.snapshot c payload =
      merge .shallow (c.toPatch.without transientFields) (payload.without transientFields) := rfl
  rw [contextOf_text key hread, Fits, isSome_decode, ← Object.passes_merge mergeable_tests hbase,
    ← hsnapshot, ← isSome_decode]
  cases decode (.ofObject (Slot.snapshot c payload)) <;> simp

end

/-! ## What is kept and what is forwarded -/

/-- The fields of a lasting context: the transient ones are those of a new context. -/
lemma get?_toPatch_lasting (c : Context) (k : String) :
    c.lasting.toPatch.get? k =
      if k ∈ transientFields then ({} : Context).toPatch.get? k else c.toPatch.get? k := by
  have hpatch : ∀ c : Context, c.toPatch = Dict.ofList _ := fun _ => Json.fieldsOrEmpty_record _
  rw [hpatch, hpatch, hpatch, Dict.get?_ofList, Dict.get?_ofList, Dict.get?_ofList]
  by_cases hk : k ∈ transientFields
  · rw [if_pos hk]
    simp only [transientFields, List.mem_cons, List.not_mem_nil, or_false] at hk
    rcases hk with rfl | rfl | rfl | rfl | rfl <;> rfl
  · rw [if_neg hk]
    simp only [transientFields, List.mem_cons, List.not_mem_nil, or_false, not_or] at hk
    obtain ⟨hsection, hstep, herrors, hdisasters, hmeta⟩ := hk
    simp only [List.reverse_cons, List.reverse_nil, List.nil_append, List.cons_append,
      Dict.lookup_cons_if, hsection, hstep, herrors, hdisasters, hmeta, if_false]
    rfl

/-- Every context has the same fields. -/
lemma get?_toPatch_eq_none_iff (c : Context) (k : String) :
    c.toPatch.get? k = none ↔ k ∉ fieldNames := by
  have hpatch : c.toPatch = Dict.ofList _ := Json.fieldsOrEmpty_record _
  rw [hpatch, Dict.get?_ofList, List.lookup_eq_none_iff]
  simp only [List.mem_reverse]
  simp [fieldNames]

/-- **The two ways of writing a payload down agree**: what is kept, written over a new context, is
the payload written over the lasting context. -/
lemma merge_lasting (c : Context) (payload : Patch) :
    merge .shallow c.lasting.toPatch (payload.without transientFields) =
      merge .replace ({} : Context).toPatch (Slot.snapshot c payload) := by
  refine Dict.ext_get? fun k => ?_
  have hnone := (get?_toPatch_eq_none_iff c k).trans (get?_toPatch_eq_none_iff {} k).symm
  rw [get?_merge, get?_merge, snapshot_eq, Dict.get?_without, Dict.get?_without, get?_merge,
    get?_toPatch_lasting]
  generalize ({} : Context).toPatch = fresh at hnone ⊢
  generalize c.toPatch = written at hnone ⊢
  by_cases hk : k ∈ transientFields
  · simp only [hk, if_true]
  · simp only [hk, if_false]
    cases hnew : payload.get? k with
    | some v => rfl
    | none =>
        cases hold : written.get? k with
        | some v => rfl
        | none => exact (hnone.1 hold).symm

lemma Valid.lasting {c : Context} (h : c.Valid) : c.lasting.Valid :=
  { h with disasters := valid_fresh.disasters }

/-- So what is read back is what the payload makes of the lasting context. -/
lemma contextOf_text_eq_ok_iff {c : Context} (hc : c.Valid) {payload : Patch} (key : String)
    (hread : Json.parse (Slot.text c payload) = some (.ofObject (Slot.snapshot c payload)))
    (next : Context) :
    Slot.contextOf key (Slot.text c payload) = .ok next ↔
      apply c.lasting (payload.without transientFields) .shallow = .ok next := by
  rw [contextOf_text key hread, apply_eq hc.lasting, merge_lasting, decode_over_fresh]
  cases decode (.ofObject (Slot.snapshot c payload)) <;> simp

section

variable {S : Type} [Storage S] [WorkingStorage S]

/-- **What is kept and reopened**, for every context that was read and every payload.  No transient
field is written.  The payload, without its transient fields, is written over the lasting context:
if it fits there, the result is reopened, and otherwise a new context. -/
theorem reopen_keep {v : Json} {c : Context} (h : decode v = some c)
    (hwants : Model.wantsKeeping c = true) (payload : Patch) (slot : Slot S)
    (hread : Json.parse (Slot.text c payload) = some (.ofObject (Slot.snapshot c payload))) :
    let kept := (slot.keep c payload).1
    (∃ stored : Object, kept.content.bind Json.parse = some (.ofObject stored) ∧
      ∀ name ∈ transientFields, stored.get? name = none) ∧
    (∀ next, apply c.lasting (payload.without transientFields) .shallow = .ok next →
      kept.Reopens next) ∧
    (∀ cause, apply c.lasting (payload.without transientFields) .shallow = .error cause →
      (kept.reopen (C := Context)).1 = Model.fresh) ∧
    (payload = {} → kept.Reopens c.lasting) := by
  intro kept
  have hcontent : kept.content = some (Slot.text c payload) := slot.content_keep payload hwants
  have hfound := contextOf_text_eq_ok_iff (valid_of_decode h) kept.key hread
  have hreopens : ∀ next, apply c.lasting (payload.without transientFields) .shallow = .ok next →
      kept.Reopens next :=
    fun next hnext => (Slot.reopens_iff hcontent next).2 ((hfound next).2 hnext)
  refine ⟨⟨Slot.snapshot c payload, ?_, ?_⟩, hreopens, ?_, ?_⟩
  · rw [hcontent, Option.bind_some, hread]
  · exact snapshot_without c payload ▸ Object.avoids_without _ transientFields
  · intro cause hcause
    refine Slot.fst_reopen_of_refused hcontent fun next hnext => ?_
    rw [hfound, hcause] at hnext
    cases hnext
  · rintro rfl
    exact hreopens _ rfl

/-- A payload with an object over an object, a list over an object, transient fields and a field
that is not known. -/
def moving : Patch :=
  Dict.ofList [("household", .record [("numMembers", .str "2"), ("size", .null)]),
    ("resources", .arr [.arr [Json.nat 1]]), ("currentSection", .str "review"),
    ("errors", .record [("server", .bool true)]), ("other", .record [])]

/-- The payload over the context that is made of untidy answers. -/
theorem reopen_keep_moving : ∃ (c next : Context),
    decode untidy = some c ∧ Model.wantsKeeping c = true ∧
    apply c.lasting (moving.without transientFields) .shallow = .ok next ∧
    next.household.count = 2 ∧ next.household.members.length = 2 ∧
    next.resources.membersWithIncome = [1] ∧ next.currentSection = "welcome" ∧
    next.errors.server = false ∧
    let slot : Slot Memory := ⟨{}, "answers"⟩
    let kept := (slot.keep c moving).1
    (∃ stored : Object, kept.content.bind Json.parse = some (.ofObject stored) ∧
      ∀ name ∈ transientFields, stored.get? name = none) ∧
    kept.Reopens next := by
  have hcomputed : (decode untidy).any (fun c =>
      Model.wantsKeeping c = true ∧
        (Json.ofObject (Slot.snapshot c moving)).legible Json.maxDepth = true ∧
        (apply c.lasting (moving.without transientFields) .shallow).toOption.any fun next =>
          next.household.count = 2 ∧ next.household.members.length = 2 ∧
            next.resources.membersWithIncome = [1] ∧ next.currentSection = "welcome" ∧
            next.errors.server = false) = true := by
    decide +kernel
  obtain ⟨c, hc, h⟩ := (Option.any_eq_true _ _).1 hcomputed
  obtain ⟨hwants, hlegible, h⟩ := of_decide_eq_true h
  obtain ⟨next, hnext, h⟩ := (Option.any_eq_true _ _).1 h
  obtain ⟨hcount, hlength, hincome, hsection, herrors⟩ := of_decide_eq_true h
  have happly : apply c.lasting (moving.without transientFields) .shallow = .ok next := by
    cases hcase : apply c.lasting (moving.without transientFields) .shallow with
    | ok found =>
        rw [hcase] at hnext
        exact congrArg _ (Option.some.inj hnext)
    | error cause => simp [hcase, Except.toOption] at hnext
  obtain ⟨hstored, hreopens, -⟩ := reopen_keep hc hwants moving (⟨{}, "answers"⟩ : Slot Memory)
    (Json.parse_compact hlegible)
  exact ⟨c, next, hc, hwants, happly, hcount, hlength, hincome, hsection, herrors, hstored,
    hreopens next happly⟩

end

end Registration.Context

end FormChart
