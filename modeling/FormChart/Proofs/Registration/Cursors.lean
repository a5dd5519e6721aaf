import FormChart.Proofs.Session.Contexts
import FormChart.Proofs.Registration.Fitting
import FormChart.Registration.Wizard.Jobs
import FormChart.Registration.Wizard.Members

/-!
# What actions do to the cursors

The cursors of the wizard lie in two fields of the context: the household, with its members and
their jobs, and the resources.  Most actions write other fields and leave both alone
(`Action.KeepsCursors`).  The others are followed here through the JSON form that every patch takes:

* a cursor that is moved is read back where it was put, or at the first position if that does not
  fit 64 bits (`Context.resources_setHolder`), so **it is never read further on than it was put**;
* the member whose income is asked about is read back as it was changed
  (`Context.holder?_changeHolder`), and **its current job exists** once that was made sure of
  (`Context.isOnJob_ensureJob`).
-/

namespace FormChart.Registration

/-- Whether the member whose income is asked about has a job, and the cursor is on one. -/
def Context.IsOnJob (c : Context) : Prop :=
  ∃ m, c.holder? = some m ∧ m.hasJob = true ∧ m.income.currentJob < m.income.jobs.length

namespace Context

variable {c : Context} {event : Event}

/-! ## Writing over the fields of the cursors -/

/-- A patch for the household and the resources alone, where it can be read. -/
lemma Reads.merge_cursors {base : Object} (h : Reads base c) {patch : Patch}
    (hothers : ∀ name, name ≠ "household" → name ≠ "resources" → patch.get? name = none)
    {household : Household} {resources : Resources}
    (hhousehold : Object.fieldOr patch "household" c.household Household.decode = some household)
    (hresources : Object.fieldOr patch "resources" c.resources Resources.decode = some resources) :
    Reads (merge .replace base patch) { c with household, resources } := by
  have hkeep : ∀ {α : Type} {name : String} {default a : α} {read : Json → Option α},
      base.fieldOr name default read = some a → name ≠ "household" → name ≠ "resources" →
      Object.fieldOr (merge .replace base patch) name default read = some a := by
    intro α name default a read hbase hne hne'
    rw [Object.fieldOr_merge_replace hbase, Object.fieldOr, hothers name hne hne']
  constructor
  case household => rw [Object.fieldOr_merge_replace h.household, hhousehold]
  case resources => rw [Object.fieldOr_merge_replace h.resources, hresources]
  case basicInfo => exact hkeep h.basicInfo (by decide) (by decide)
  case impact => exact hkeep h.impact (by decide) (by decide)
  case submit => exact hkeep h.submit (by decide) (by decide)
  case disasters => exact hkeep h.disasters (by decide) (by decide)
  case registration => exact hkeep h.registration (by decide) (by decide)
  case config => exact hkeep h.config (by decide) (by decide)
  case activity => exact hkeep h.activity (by decide) (by decide)
  case area => exact hkeep h.area (by decide) (by decide)
  case currentSection => exact hkeep h.currentSection (by decide) (by decide)
  case currentStep => exact hkeep h.currentStep (by decide) (by decide)
  case previousSection => exact hkeep h.previousSection (by decide) (by decide)
  case previousStep => exact hkeep h.previousStep (by decide) (by decide)
  case step => exact hkeep h.step (by decide) (by decide)
  case totalSteps => exact hkeep h.totalSteps (by decide) (by decide)
  case errors => exact hkeep h.errors (by decide) (by decide)

/-- Actions leave valid contexts. -/
lemma Valid.outcome (h : c.Valid) (event : Event) (a : Action Context) :
    (a.outcome event c).Valid := by
  have hwrite : ∀ (patch : Patch) (mode : MergeMode),
      ((FormChart.apply c patch mode).toOption.getD c).Valid := by
    intro patch mode
    cases happly : FormChart.apply c patch mode with
    | ok next => exact h.apply happly
    | error cause => exact h
  cases a with
  | assign patch remarks => exact hwrite _ _
  | forward => exact hwrite _ _
  | raise name => exact h
  | effect e => exact h

lemma Valid.outcomes (h : c.Valid) (event : Event) (actions : List (Action Context)) :
    (Action.outcomes event actions c).Valid :=
  Action.outcomes_keep (fun a _ _ hc => hc.outcome event a) h

/-- Fields that a patch does not name stay as they are, whether it fits or not. -/
lemma household_assign (h : c.Valid) {patch : Context → Event → Patch}
    {remarks : Context → Event → List Notice} (hpatch : (patch c event).get? "household" = none) :
    ((Action.assign patch remarks).outcome event c).household = c.household := by
  rw [Action.outcome]
  cases happly : apply c (patch c event) .replace with
  | error cause => rfl
  | ok next =>
      have hread := (h.apply_eq_ok_iff.1 happly).household
      rw [Object.fieldOr_merge_replace h.reads.household, Object.fieldOr, hpatch] at hread
      exact (Option.some.inj hread).symm

lemma resources_assign (h : c.Valid) {patch : Context → Event → Patch}
    {remarks : Context → Event → List Notice} (hpatch : (patch c event).get? "resources" = none) :
    ((Action.assign patch remarks).outcome event c).resources = c.resources := by
  rw [Action.outcome]
  cases happly : apply c (patch c event) .replace with
  | error cause => rfl
  | ok next =>
      have hread := (h.apply_eq_ok_iff.1 happly).resources
      rw [Object.fieldOr_merge_replace h.reads.resources, Object.fieldOr, hpatch] at hread
      exact (Option.some.inj hread).symm

end Context

/-! ## Actions that leave the cursors alone -/

/-- Whether an action changes neither the household nor the resources. -/
def KeepsCursors (a : Action Context) : Prop :=
  ∀ (event : Event) (c : Context), c.Valid →
    (a.outcome event c).household = c.household ∧ (a.outcome event c).resources = c.resources

lemma keepsCursors_effect (e : Effect) : KeepsCursors (.effect e) := fun _ _ _ => ⟨rfl, rfl⟩

/-- Setting other fields. -/
lemma keepsCursors_set {fields : List (String × Json)}
    (h : ∀ f ∈ fields, f.1 ≠ "household" ∧ f.1 ≠ "resources") : KeepsCursors (.set fields) := by
  have hnone : ∀ name, (∀ f ∈ fields, f.1 ≠ name) → (Dict.ofList fields).get? name = none := by
    intro name hname
    rw [Dict.get?_ofList, List.lookup_eq_none_iff]
    intro f hf
    exact bne_iff_ne.2 (hname f (List.mem_reverse.1 hf)).symm
  exact fun event c hc => ⟨Context.household_assign hc (hnone _ fun f hf => (h f hf).1),
    Context.resources_assign hc (hnone _ fun f hf => (h f hf).2)⟩

namespace Context

variable {c : Context}

/-- Whether a context is valid and agrees with another one on the cursors and what they walk
over. -/
structure AgreesWith (c₀ c : Context) : Prop where
  valid : c.Valid
  household : c.household = c₀.household
  resources : c.resources = c₀.resources

lemma Valid.agreesWith (h : c.Valid) : AgreesWith c c := ⟨h, rfl, rfl⟩

lemma AgreesWith.holder? {c₀ : Context} (h : AgreesWith c₀ c) : c.holder? = c₀.holder? := by
  rw [Context.holder?, Context.holder?, h.household, h.resources]

lemma AgreesWith.outcomes {c₀ : Context} (h : AgreesWith c₀ c) {actions : List (Action Context)}
    (hactions : ∀ a ∈ actions, KeepsCursors a) (event : Event) :
    AgreesWith c₀ (Action.outcomes event actions c) := by
  refine Action.outcomes_keep (fun a ha c hc => ?_) h
  obtain ⟨hhousehold, hresources⟩ := hactions a ha event c hc.valid
  exact ⟨hc.valid.outcome event a, hhousehold.trans hc.household, hresources.trans hc.resources⟩

/-! ## Actions that move a cursor -/

/-- A patch for the household and the resources alone is taken over, where it can be read. -/
lemma outcome_assign (h : c.Valid) {event : Event} {patch : Context → Event → Patch}
    {remarks : Context → Event → List Notice}
    (hothers : ∀ name, name ≠ "household" → name ≠ "resources" →
      (patch c event).get? name = none)
    {household : Household} {resources : Resources}
    (hhousehold : Object.fieldOr (patch c event) "household" c.household Household.decode =
      some household)
    (hresources : Object.fieldOr (patch c event) "resources" c.resources Resources.decode =
      some resources) :
    (Action.assign patch remarks).outcome event c = { c with household, resources } := by
  rw [Action.outcome, h.apply_eq_ok_iff.2 (h.reads.merge_cursors hothers hhousehold hresources)]
  rfl

/-- The resources that were set are read back. -/
lemma outcome_setResources (h : c.Valid) {f : Resources → Resources} {resources : Resources}
    (hread : Resources.decode (f c.resources).encode = some resources) (event : Event) :
    (Wizard.setResources f).outcome event c = { c with resources } := by
  refine outcome_assign h (fun name _ hne => ?_) ?_ ?_
  · simp [Dict.get?_ofList, hne]
  · simp [Object.fieldOr, Dict.get?_ofList, List.lookup_cons]
  · simpa [Object.fieldOr, Dict.get?_ofList] using hread

/-- A cursor over the members with an income is read back where it was put, if it fits. -/
lemma resources_setHolder (h : c.Valid) (index : Resources → Nat) (event : Event) :
    ((Wizard.setHolder index).outcome event c).resources =
      { c.resources with currentMember := Answer.index (Json.nat (index c.resources)) } := by
  have hread := Resources.decode_encode_eq (r := c.resources.movedTo (index c.resources))
    h.resources.membersWithIncome
  rw [Wizard.setHolder, outcome_setResources h (f := fun r => r.movedTo (index r)) hread]
  rfl

/-- The household that was set is read back. -/
lemma outcome_setHousehold (h : c.Valid) {f : Context → Household} {household : Household}
    (hread : Household.decode (f c).encode = some household) (event : Event) :
    (Wizard.setHousehold f).outcome event c = { c with household } := by
  refine outcome_assign h (fun name hne _ => ?_) ?_ ?_
  · simp [Dict.get?_ofList, hne]
  · simpa [Object.fieldOr, Dict.get?_ofList] using hread
  · simp [Object.fieldOr, Dict.get?_ofList, List.lookup_cons]

/-- Moving the cursor over the jobs leaves the resources alone, whether it fits or not. -/
lemma resources_setJob (h : c.Valid) (index : Income → Nat) (event : Event) :
    ((Wizard.setJob index).outcome event c).resources = c.resources :=
  resources_assign h (by simp [Dict.get?_ofList])

/-- A household with one member changed is read back. -/
lemma decode_encode_modifyMember {h : Household} (hv : h.Valid) {i : Nat} {f : Member → Member}
    {m : Member} (hm : h.members[i]? = some m) (hextra : (f m).extra = m.extra)
    (hincome : (f m).income.extra = m.income.extra) :
    Household.decode (h.modifyMember i f).encode = some (h.modifyMember i f).reread := by
  refine Household.decode_encode_eq (h := h.modifyMember i f) hv.numMembers fun k hk => ?_
  obtain ⟨j, hj⟩ := List.mem_iff_getElem?.1 hk
  rw [Household.modifyMember, List.getElem?_modify] at hj
  split at hj
  next heq =>
      rw [← heq, hm] at hj
      obtain rfl : f m = k := Option.some.inj hj
      have hvalid := hv.members m (List.mem_of_getElem? hm)
      exact ⟨hextra ▸ hvalid.extra, hincome ▸ hvalid.income.extra⟩
  next =>
      have hj : h.members[j]? = some k := by simpa using hj
      have hvalid := hv.members k (List.mem_of_getElem? hj)
      exact ⟨hvalid.extra, hvalid.income.extra⟩

/-- The member whose income is asked about is read back as it was changed. -/
lemma holder?_changeHolder (h : c.Valid) {f : Member → Member} {m : Member}
    (hm : c.holder? = some m) (hextra : (f m).extra = m.extra)
    (hincome : (f m).income.extra = m.income.extra) (event : Event) :
    ((Wizard.changeHolder f).outcome event c).holder? = some (f m).reread := by
  obtain ⟨i, hi, hmember⟩ := Option.bind_eq_some_iff.1 hm
  have hread := decode_encode_modifyMember h.household hmember hextra hincome
  have hchanged : c.withHolderChanged f = c.household.modifyMember i f := by
    rw [withHolderChanged, hi]
  rw [← hchanged] at hread
  have hholder : ∀ household : Household,
      ({ c with household } : Context).holder? = household.members[i]? := by
    intro household
    rw [holder?, hi, Option.bind_some]
  rw [Wizard.changeHolder, outcome_setHousehold h (f := (·.withHolderChanged f)) hread, hholder]
  simp [hchanged, hmember, Household.reread, Household.modifyMember]

lemma holderHasJob_iff : Wizard.holderHasJob c = true ↔ ∃ m, c.holder? = some m ∧ m.hasJob = true :=
  Option.any_eq_true _ _

/-- Whoever has a job still has it when the cursor moves. -/
lemma holderHasJob_setJob (h : c.Valid) (hjob : Wizard.holderHasJob c = true)
    (index : Income → Nat) (event : Event) :
    Wizard.holderHasJob ((Wizard.setJob index).outcome event c) = true := by
  obtain ⟨m, hm, hhas⟩ := holderHasJob_iff.1 hjob
  exact holderHasJob_iff.2
    ⟨_, holder?_changeHolder h (f := Wizard.withJob index) hm rfl rfl event, hhas⟩

/-- **The current job exists** once it was made sure of. -/
theorem isOnJob_ensureJob (h : c.Valid) (hjob : Wizard.holderHasJob c = true) (event : Event) :
    (Wizard.ensureJob.outcome event c).IsOnJob := by
  obtain ⟨m, hm, hhas⟩ := holderHasJob_iff.1 hjob
  have hsame : (Wizard.withCurrentJob m).extra = m.extra ∧
      (Wizard.withCurrentJob m).income.extra = m.income.extra ∧
      (Wizard.withCurrentJob m).hasJobs = m.hasJobs ∧
      (Wizard.withCurrentJob m).income.currentJob <
        (Wizard.withCurrentJob m).income.jobs.length := by
    unfold Wizard.withCurrentJob
    split
    next hlt => exact ⟨rfl, rfl, rfl, hlt⟩
    next => exact ⟨rfl, rfl, rfl, by simp⟩
  obtain ⟨hextra, hincome, hjobs, hlt⟩ := hsame
  refine ⟨_, holder?_changeHolder h hm hextra hincome event, ?_, ?_⟩
  · rw [← hhas]
    exact congrArg (· == some true) hjobs
  -- reading the cursor back can only move it towards the first job
  · exact Nat.lt_of_le_of_lt (Answer.index_nat_le _) hlt

end Context

end FormChart.Registration
