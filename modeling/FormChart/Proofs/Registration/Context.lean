import FormChart.Proofs.Registration.Household
import FormChart.Registration.Context

/-!
# Contexts as JSON and back

The parts of a context besides the household, and the context itself.  As with the household,
readings leave valid contexts (`Context.valid_of_decode`) and **valid contexts are read back**
(`Context.decode_encode`).  Every patch goes through this round trip, so it matters that **what was
read once is fixed from then on** (`Context.encode_fixed_of_decode`), however untidy the answers
were.

A context has many fields, and it is read field by field.  `Context.Reads` says so once, and the
rest is about single fields.
-/

namespace FormChart

namespace Json

variable {α : Type}

/-- A dictionary whose values are read back. -/
lemma dict?_map {encode : α → Json} {read : Json → Option α} {d : Dict α}
    (hvalues : ∀ e ∈ d.entries, read (encode e.2) = some e.2) :
    dict? read (.ofObject (d.map encode)) = some d := by
  have hentries : ∀ entries : List (String × α), (∀ e ∈ entries, read (encode e.2) = some e.2) →
      (entries.map fun e => (e.1, encode e.2)).mapM (fun e => (read e.2).map (e.1, ·)) =
        some entries := by
    intro entries h
    induction entries with
    | nil => rfl
    | cons e rest ih =>
        rw [List.map_cons, List.mapM_cons, h e List.mem_cons_self,
          ih fun e' he' => h e' (List.mem_cons_of_mem _ he')]
        rfl
  have hread := hentries d.entries hvalues
  simp only [dict?, object?_ofObject, Option.bind_eq_bind, Option.bind_some]
  rw [show (d.map encode).entries = d.entries.map fun e => (e.1, encode e.2) from rfl, hread,
    Option.bind_some, Dict.ofList_entries]

/-- Every value of a dictionary was read from some value. -/
lemma exists_of_mem_dict? {read : Json → Option α} {v : Json} {d : Dict α}
    (h : dict? read v = some d) : ∀ e ∈ d.entries, ∃ u, read u = some e.2 := by
  simp only [dict?, Option.bind_eq_bind, Option.bind_eq_some_iff, Option.some.injEq] at h
  obtain ⟨fields, -, results, hresults, rfl⟩ := h
  intro e he
  have hget := Dict.get?_of_mem he
  rw [Dict.get?_ofList, List.lookup_eq_some_iff] at hget
  obtain ⟨before, after, hsplit, -⟩ := hget
  have hmem : e ∈ results := by
    rw [← List.mem_reverse, hsplit]
    simp
  obtain ⟨field, -, hread⟩ := mem_mapM hresults e hmem
  obtain ⟨a, ha, rfl⟩ := Option.map_eq_some_iff.1 hread
  exact ⟨field.2, ha⟩

end Json

namespace Registration

/-! ## Answers about the applicant -/

namespace BasicInfo

/-- Whether answers are as readings leave them. -/
def Valid (b : BasicInfo) : Prop := b.extra.Avoids fieldNames

lemma valid_of_decode {v : Json} {b : BasicInfo} (h : decode v = some b) : b.Valid := by
  simp only [decode, Option.bind_eq_bind, Option.bind_eq_some_iff, Option.some.injEq] at h
  obtain ⟨fields, -, answer, -, rfl⟩ := h
  exact Object.avoids_without _ _

lemma decode_encode {b : BasicInfo} (h : b.Valid) : decode b.encode = some b := by
  simp only [decode, encode, Json.object?_record, Option.bind_eq_bind, Option.bind_some,
    Object.fieldOr]
  rw [Object.get?_record_extra h (by decide), Object.without_record h rfl]
  simp

end BasicInfo

/-! ## Resources -/

namespace Resources

/-- Whether resources are as readings leave them. -/
structure Valid (r : Resources) : Prop where
  membersWithIncome : ∀ n ∈ r.membersWithIncome, n < wordBound
  currentMember : r.currentMember < wordBound

lemma valid_of_decode {v : Json} {r : Resources} (h : decode v = some r) : r.Valid := by
  simp only [decode, Option.bind_eq_bind, Option.bind_eq_some_iff, Option.some.injEq] at h
  obtain ⟨fields, -, members, hmembers, currentMember, hcurrent, rfl⟩ := h
  refine ⟨fun n hn => ?_, ?_⟩
  · rcases Object.fieldOr_eq_some hmembers with rfl | ⟨u, hu⟩
    · cases hn
    · obtain ⟨w, hw⟩ := Json.exists_of_mem_list? hu n hn
      exact Json.lt_of_natBelow? hw
  · rcases Object.fieldOr_eq_some hcurrent with rfl | ⟨u, hu⟩
    · exact Nat.two_pow_pos 64
    · cases hu
      exact Answer.index_lt u

/-- Resources are read back with a cursor that fits 64 bits. -/
lemma decode_encode_eq {r : Resources} (h : ∀ n ∈ r.membersWithIncome, n < wordBound) :
    decode r.encode =
      some { r with currentMember := Answer.index (Json.nat r.currentMember) } := by
  have hmembers : Json.list? Json.nat64? (.arr (r.membersWithIncome.map Json.nat)) =
      some r.membersWithIncome :=
    Json.list?_map fun n hn => Json.natBelow?_nat (h n hn)
  simp [decode, encode, Object.fieldOr, Dict.get?_ofList, List.lookup_cons, hmembers]

lemma decode_encode {r : Resources} (h : r.Valid) : decode r.encode = some r := by
  rw [decode_encode_eq h.membersWithIncome, Answer.index_nat h.currentMember]

end Resources

/-! ## The catalog -/

namespace Disaster

/-- Whether a disaster is as readings leave it. -/
def Valid (d : Disaster) : Prop := d.extra.Avoids fieldNames

lemma valid_of_decode {v : Json} {d : Disaster} (h : decode v = some d) : d.Valid := by
  simp only [decode, Option.bind_eq_bind, Option.bind_eq_some_iff, Option.some.injEq] at h
  obtain ⟨fields, -, id, -, title, -, requestNo, -, state, -, rfl⟩ := h
  exact Object.avoids_without _ _

lemma decode_encode {d : Disaster} (h : d.Valid) : decode d.encode = some d := by
  simp only [decode, encode, Json.object?_record, Option.bind_eq_bind, Option.bind_some,
    Object.fieldOr]
  rw [Object.get?_record_extra h (by decide), Object.get?_record_extra h (by decide),
    Object.get?_record_extra h (by decide), Object.get?_record_extra h (by decide),
    Object.without_record h rfl]
  simp [List.lookup_cons, Json.str?, Answer.text]

end Disaster

namespace Catalog

/-- Whether a catalog is as readings leave it. -/
def Valid (c : Catalog) : Prop := ∀ e ∈ c.data.entries, e.2.Valid

lemma valid_of_decode {v : Json} {c : Catalog} (h : decode v = some c) : c.Valid := by
  simp only [decode, Option.bind_eq_bind, Option.bind_eq_some_iff, Option.some.injEq] at h
  obtain ⟨fields, -, data, hdata, rfl⟩ := h
  intro e he
  rcases Object.fieldOr_eq_some hdata with rfl | ⟨u, hu⟩
  · cases he
  · obtain ⟨w, hw⟩ := Json.exists_of_mem_dict? hu e he
    exact Disaster.valid_of_decode hw

lemma decode_encode {c : Catalog} (h : c.Valid) : decode c.encode = some c := by
  have hdata := Json.dict?_map fun e he => Disaster.decode_encode (h e he)
  simp [decode, encode, Object.fieldOr, Dict.get?_ofList, hdata]

end Catalog

/-! ## Parts that any value is valid for -/

lemma Filing.decode_encode (f : Filing) : decode f.encode = some f := by
  simp [decode, encode, Object.fieldOr, Dict.get?_ofList, List.lookup_cons, Json.str?, Answer.text]

lemma Preferences.decode_encode (p : Preferences) : decode p.encode = some p := by
  simp [decode, encode, Object.fieldOr, Dict.get?_ofList, List.lookup_cons, Json.str?]

lemma Activity.decode_encode (a : Activity) : decode a.encode = some a := by
  have hloading : Json.optional? Json.bool? (Json.ofOption .bool a.loading) = some a.loading := by
    cases a.loading <;> rfl
  simp [decode, encode, Object.fieldOr, Dict.get?_ofList, hloading]

lemma Faults.decode_encode (f : Faults) : decode f.encode = f := by
  simp [decode, encode, Json.field?, Dict.get?_ofList, Answer.flag?]

/-! ## Contexts -/

namespace Context

/-- Whether a context is as readings leave it. -/
structure Valid (c : Context) : Prop where
  basicInfo : c.basicInfo.Valid
  household : c.household.Valid
  resources : c.resources.Valid
  disasters : c.disasters.Valid
  step : c.step < Nat.pow 2 32
  totalSteps : c.totalSteps < Nat.pow 2 32

/-- A new context is valid. -/
lemma valid_fresh : Valid {} where
  basicInfo := Object.avoids_empty _
  household := ⟨nofun, Nat.two_pow_pos 64, nofun⟩
  resources := ⟨nofun, Nat.two_pow_pos 64⟩
  disasters := nofun
  step := Nat.two_pow_pos 32
  totalSteps := by decide

/-- Whether the fields of a record are read as those of a context. -/
structure Reads (fields : Object) (c : Context) : Prop where
  basicInfo : fields.fieldOr "basicInfo" {} BasicInfo.decode = some c.basicInfo
  household : fields.fieldOr "household" {} Household.decode = some c.household
  impact : fields.fieldOr "impact" {} Json.object? = some c.impact
  resources : fields.fieldOr "resources" {} Resources.decode = some c.resources
  submit : fields.fieldOr "submit" {} Json.object? = some c.submit
  disasters : fields.fieldOr "disasters" {} Catalog.decode = some c.disasters
  registration : fields.fieldOr "registration" {} Filing.decode = some c.registration
  config : fields.fieldOr "config" {} Preferences.decode = some c.config
  activity : fields.fieldOr "meta" {} Activity.decode = some c.activity
  area : fields.fieldOr "prefix" "" Json.str? = some c.area
  currentSection : fields.fieldOr "currentSection" "welcome" Json.str? = some c.currentSection
  currentStep : fields.fieldOr "currentStep" "" Json.str? = some c.currentStep
  previousSection : fields.fieldOr "previousSection" "" Json.str? = some c.previousSection
  previousStep : fields.fieldOr "previousStep" "" Json.str? = some c.previousStep
  step : fields.fieldOr "step" 0 Json.nat32? = some c.step
  totalSteps :
    fields.fieldOr "totalSteps" Registration.totalSteps Json.nat32? = some c.totalSteps
  errors : fields.fieldOr "errors" {} (fun v => some (Faults.decode v)) = some c.errors

/-- **A context is read field by field.** -/
lemma decode_eq_some_iff {v : Json} {c : Context} :
    decode v = some c ↔ ∃ fields, v.asRecord fieldNames = some fields ∧ Reads fields c := by
  constructor
  · intro h
    obtain ⟨fields, hfields, h⟩ := Option.bind_eq_some_iff.1 h
    obtain ⟨basicInfo, hbasicInfo, h⟩ := Option.bind_eq_some_iff.1 h
    obtain ⟨household, hhousehold, h⟩ := Option.bind_eq_some_iff.1 h
    obtain ⟨impact, himpact, h⟩ := Option.bind_eq_some_iff.1 h
    obtain ⟨resources, hresources, h⟩ := Option.bind_eq_some_iff.1 h
    obtain ⟨submit, hsubmit, h⟩ := Option.bind_eq_some_iff.1 h
    obtain ⟨disasters, hdisasters, h⟩ := Option.bind_eq_some_iff.1 h
    obtain ⟨registration, hregistration, h⟩ := Option.bind_eq_some_iff.1 h
    obtain ⟨config, hconfig, h⟩ := Option.bind_eq_some_iff.1 h
    obtain ⟨activity, hactivity, h⟩ := Option.bind_eq_some_iff.1 h
    obtain ⟨area, harea, h⟩ := Option.bind_eq_some_iff.1 h
    obtain ⟨currentSection, hcurrentSection, h⟩ := Option.bind_eq_some_iff.1 h
    obtain ⟨currentStep, hcurrentStep, h⟩ := Option.bind_eq_some_iff.1 h
    obtain ⟨previousSection, hpreviousSection, h⟩ := Option.bind_eq_some_iff.1 h
    obtain ⟨previousStep, hpreviousStep, h⟩ := Option.bind_eq_some_iff.1 h
    obtain ⟨step, hstep, h⟩ := Option.bind_eq_some_iff.1 h
    obtain ⟨totalSteps, htotalSteps, h⟩ := Option.bind_eq_some_iff.1 h
    obtain ⟨errors, herrors, h⟩ := Option.bind_eq_some_iff.1 h
    cases h
    exact ⟨fields, hfields, hbasicInfo, hhousehold, himpact, hresources, hsubmit, hdisasters,
      hregistration, hconfig, hactivity, harea, hcurrentSection, hcurrentStep, hpreviousSection,
      hpreviousStep, hstep, htotalSteps, herrors⟩
  · rintro ⟨fields, hfields, h⟩
    rw [decode, bind_of_eq_some hfields, bind_of_eq_some h.basicInfo,
      bind_of_eq_some h.household, bind_of_eq_some h.impact, bind_of_eq_some h.resources,
      bind_of_eq_some h.submit, bind_of_eq_some h.disasters, bind_of_eq_some h.registration,
      bind_of_eq_some h.config, bind_of_eq_some h.activity, bind_of_eq_some h.area,
      bind_of_eq_some h.currentSection, bind_of_eq_some h.currentStep,
      bind_of_eq_some h.previousSection, bind_of_eq_some h.previousStep,
      bind_of_eq_some h.step, bind_of_eq_some h.totalSteps, bind_of_eq_some h.errors]

lemma decode_ofObject_iff {fields : Object} {c : Context} :
    decode (.ofObject fields) = some c ↔ Reads fields c := by
  simp [decode_eq_some_iff]

/-- **Readings leave valid contexts.** -/
theorem valid_of_decode {v : Json} {c : Context} (h : decode v = some c) : c.Valid := by
  obtain ⟨fields, -, h⟩ := decode_eq_some_iff.1 h
  have hfresh := valid_fresh
  constructor
  case basicInfo =>
    rcases Object.fieldOr_eq_some h.basicInfo with heq | ⟨u, hu⟩
    · exact heq ▸ hfresh.basicInfo
    · exact BasicInfo.valid_of_decode hu
  case household =>
    rcases Object.fieldOr_eq_some h.household with heq | ⟨u, hu⟩
    · exact heq ▸ hfresh.household
    · exact Household.valid_of_decode hu
  case resources =>
    rcases Object.fieldOr_eq_some h.resources with heq | ⟨u, hu⟩
    · exact heq ▸ hfresh.resources
    · exact Resources.valid_of_decode hu
  case disasters =>
    rcases Object.fieldOr_eq_some h.disasters with heq | ⟨u, hu⟩
    · exact heq ▸ hfresh.disasters
    · exact Catalog.valid_of_decode hu
  case step =>
    rcases Object.fieldOr_eq_some h.step with heq | ⟨u, hu⟩
    · exact heq ▸ hfresh.step
    · exact Json.lt_of_natBelow? hu
  case totalSteps =>
    rcases Object.fieldOr_eq_some h.totalSteps with heq | ⟨u, hu⟩
    · exact heq ▸ hfresh.totalSteps
    · exact Json.lt_of_natBelow? hu

lemma ofObject_toPatch (c : Context) : Json.ofObject c.toPatch = c.encode := by
  rw [toPatch, encode, Json.fieldsOrEmpty_record, Json.record]

/-- The fields of a valid context are read as its own. -/
lemma Valid.reads {c : Context} (h : c.Valid) : Reads c.toPatch c := by
  have hpatch : c.toPatch = Dict.ofList _ := Json.fieldsOrEmpty_record _
  rw [hpatch]
  constructor <;> simp only [Object.fieldOr, Dict.get?_ofList]
  case basicInfo => exact BasicInfo.decode_encode h.basicInfo
  case household => exact Household.decode_encode h.household
  case resources => exact Resources.decode_encode h.resources
  case disasters => exact Catalog.decode_encode h.disasters
  case registration => exact Filing.decode_encode c.registration
  case config => exact Preferences.decode_encode c.config
  case activity => exact Activity.decode_encode c.activity
  case errors => exact congrArg some (Faults.decode_encode c.errors)
  case step => exact Json.natBelow?_nat h.step
  case totalSteps => exact Json.natBelow?_nat h.totalSteps
  case impact => exact Json.object?_ofObject c.impact
  case submit => exact Json.object?_ofObject c.submit
  all_goals rfl

/-- **Valid contexts are read back.** -/
theorem decode_encode {c : Context} (h : c.Valid) : decode c.encode = some c := by
  rw [← ofObject_toPatch]
  exact decode_ofObject_iff.2 h.reads

/-- **What was read once is fixed from then on**: it is written as an object, the object is read as
the same context, and this is written as the same object. -/
theorem encode_fixed_of_decode {v : Json} {c : Context} (h : decode v = some c) :
    ∃ fields : Object, c.encode = .ofObject fields ∧
      ∃ c', decode (.ofObject fields) = some c' ∧ c' = c ∧ c'.encode = .ofObject fields := by
  have hwritten : c.encode = .ofObject c.toPatch := (ofObject_toPatch c).symm
  have hread : decode (.ofObject c.toPatch) = some c := by
    rw [ofObject_toPatch]
    exact decode_encode (valid_of_decode h)
  exact ⟨c.toPatch, hwritten, c, hread, rfl, hwritten⟩

/-- Answers in many shapes: flags and counts as texts and numbers, records as lists of their fields,
fields that are not known, and errors that are no record. -/
def untidy : Json :=
  .record [
    ("basicInfo", .record [("currentMailingAddress", .str " NO "), ("city", .str "Anytown")]),
    ("household", .arr [.str "3", .bool true,
      .arr [.record [("name", .arr [.str "Ann", .str "", .str "Lee"]), ("hasJobs", Json.nat 1),
          ("age", Json.nat 40),
          ("assetsAndIncome", .record [("currentJobIndex", .str "1"), ("cash", .null),
            ("jobs", .arr [.arr [.str "Mill", Json.nat 12, .str "yes"], .record []])])],
        .record [("hasOtherJobs", .str "maybe")]]]),
    ("resources", .record [("membersWithIncome", .arr [Json.nat 0]),
      ("currentMemberIndex", .null)]),
    ("disasters", .record [("data", .record [("7", .record [("id", Json.nat 7),
      ("title", .str "Flood"), ("county", .str "Lake")])])]),
    ("config", .arr [Json.nat 1, .str "es", .str "7"]),
    ("impact", .record [("loss", .arr [.null])]), ("errors", .bool true), ("other", .null)]

/-- What is made of the answers in many shapes. -/
theorem encode_fixed_of_decode_untidy : ∃ c, decode untidy = some c ∧
    c.basicInfo.currentMailingAddress = some false ∧ c.household.count = 3 ∧
    c.household.currentMember = 0 ∧
    c.household.members.map (·.income.jobs.map (·.pay)) = [["12", ""], []] ∧
    c.household.members.map (·.hasOtherJobs) = [none, none] ∧
    c.config.useLocalStorage = some true ∧ c.errors.server = false ∧
    ∃ fields : Object, c.encode = .ofObject fields ∧
      ∃ c', decode (.ofObject fields) = some c' ∧ c' = c ∧ c'.encode = .ofObject fields := by
  have hcomputed : (decode untidy).any (fun c =>
      c.basicInfo.currentMailingAddress = some false ∧ c.household.count = 3 ∧
        c.household.currentMember = 0 ∧
        c.household.members.map (·.income.jobs.map (·.pay)) = [["12", ""], []] ∧
        c.household.members.map (·.hasOtherJobs) = [none, none] ∧
        c.config.useLocalStorage = some true ∧ c.errors.server = false) = true := by
    decide +kernel
  obtain ⟨c, hc, h⟩ := (Option.any_eq_true _ _).1 hcomputed
  obtain ⟨hmail, hcount, hcursor, hpay, hother, hstorage, herrors⟩ := of_decide_eq_true h
  exact ⟨c, hc, hmail, hcount, hcursor, hpay, hother, hstorage, herrors, encode_fixed_of_decode hc⟩

end Context

end Registration

end FormChart
