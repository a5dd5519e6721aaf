import FormChart.Proofs.Registration.Cursors
import FormChart.Registration.Wizard.Calls

/-!
# What actions do to the screen

Three fields of the context say what is shown: the names of the section and of the page, and the
number of the section.  The nodes of the wizard set them to constants when they are entered
(`Wizard.marks`), and **most other actions leave them alone**, as long as nobody forwards fields of
these names (`Wizard.Silent`).  The exceptions set all three, since they replace the whole context.

Which fields an action sets is found out by a probe on a new context.  `Wizard.Honest` says that the
probe did not miss any.
-/

namespace FormChart.Registration

/-- The fields that say what is shown. -/
def screenNames : List String := ["currentSection", "currentStep", "step"]

namespace Context

/-- A field of a context as it is written. -/
def shown (c : Context) (name : String) : Option Json := c.toPatch.get? name

variable {c : Context}

lemma shown_currentSection : c.shown "currentSection" = some (.str c.currentSection) := by
  simp [shown, toPatch, encode, Dict.get?_ofList, List.lookup_cons]

lemma shown_currentStep : c.shown "currentStep" = some (.str c.currentStep) := by
  simp [shown, toPatch, encode, Dict.get?_ofList, List.lookup_cons]

lemma shown_step : c.shown "step" = some (Json.nat c.step) := by
  simp [shown, toPatch, encode, Dict.get?_ofList, List.lookup_cons]

lemma isSome_shown {name : String} (hname : name ∈ screenNames) :
    ∃ v, c.shown name = some v := by
  simp only [screenNames, List.mem_cons, List.not_mem_nil, or_false] at hname
  rcases hname with rfl | rfl | rfl
  · exact ⟨_, shown_currentSection⟩
  · exact ⟨_, shown_currentStep⟩
  · exact ⟨_, shown_step⟩

/-- What is shown is written as it was read. -/
lemma Reads.shown {fields : Object} (h : Reads fields c) {name : String}
    (hname : name ∈ screenNames) {v : Json} (hv : fields.get? name = some v) :
    c.shown name = some v := by
  have hnumber : ∀ {v : Json} {n : Nat}, v.nat32? = some n → v = Json.nat n := by
    intro v n hn
    unfold Json.nat32? Json.natBelow? at hn
    split at hn
    next k =>
        split at hn
        next =>
            cases hn
            rfl
        next => cases hn
    next => cases hn
  simp only [screenNames, List.mem_cons, List.not_mem_nil, or_false] at hname
  rcases hname with rfl | rfl | rfl
  · have hread := h.currentSection
    rw [Object.fieldOr, hv] at hread
    rw [shown_currentSection, Json.eq_str_of_str? hread]
  · have hread := h.currentStep
    rw [Object.fieldOr, hv] at hread
    rw [shown_currentStep, Json.eq_str_of_str? hread]
  · have hread := h.step
    rw [Object.fieldOr, hv] at hread
    rw [shown_step, hnumber hread]

/-- What is shown after a patch that fits. -/
lemma Valid.shown_of_apply (h : c.Valid) {c' : Context} {patch : Patch} {mode : MergeMode}
    (happly : FormChart.apply c patch mode = .ok c') {name : String} (hname : name ∈ screenNames) :
    c'.shown name = match patch.get? name with
      | some v => some (mergeValue mode (c.shown name) v)
      | none => c.shown name := by
  have hreads := h.apply_eq_ok_iff.1 happly
  have hmerge := get?_merge mode c.toPatch patch name
  obtain ⟨old, hold⟩ := c.isSome_shown hname
  cases hnew : patch.get? name with
  | none =>
      rw [hnew] at hmerge
      dsimp only
      rw [hold]
      exact hreads.shown hname (hmerge.trans hold)
  | some v =>
      rw [hnew] at hmerge
      exact hreads.shown hname hmerge

/-- A patch that fits can replace fields. -/
lemma Valid.exists_apply_replace (h : c.Valid) {patch : Patch} (hfits : Fits patch) :
    ∃ c', FormChart.apply c patch .replace = .ok c' := by
  have hbase : Object.Passes tests c.toPatch := by
    rw [← isSome_decode, ofObject_toPatch]
    exact Option.isSome_of_eq_some (decode_encode h)
  have hmerged : (decode (.ofObject (merge .replace c.toPatch patch))).isSome = true := by
    rw [Fits, isSome_decode] at hfits
    rw [isSome_decode]
    intro t ht v hv
    rw [get?_merge] at hv
    cases hnew : patch.get? t.1 with
    | none =>
        rw [hnew] at hv
        exact hbase t ht v hv
    | some w =>
        rw [hnew] at hv
        cases hv
        exact hfits t ht w hnew
  obtain ⟨c', hc'⟩ := Option.isSome_iff_exists.1 hmerged
  exact ⟨c', by rw [apply_eq h, hc']⟩

/-- Whether certain fields are shown as they are given. -/
def Shows (c : Context) (fields : List (String × Json)) : Prop :=
  ∀ e ∈ fields, e.1 ∈ screenNames ∧ c.shown e.1 = some e.2

lemma shows_append {first rest : List (String × Json)} :
    c.Shows (first ++ rest) ↔ c.Shows first ∧ c.Shows rest := List.forall_mem_append

lemma Shows.mono {fields fewer : List (String × Json)} (h : c.Shows fields)
    (hsub : fewer ⊆ fields) : c.Shows fewer := fun e he => h e (hsub he)

end Context

namespace Wizard

/-- Whether an event brings no field that says what is shown. -/
def Silent (event : Event) : Prop := Object.Avoids event.payload screenNames

/-- Whether an action forwards the fields of an event. -/
def forwards : Action Context → Bool
  | .forward => true
  | _ => false

/-- What an action would write over a new context. -/
def probe : Action Context → Patch
  | .assign patch _ => patch {} .init
  | _ => {}

/-- What some actions would show. -/
def marks (actions : List (Action Context)) : List (String × Json) :=
  actions.flatMap fun a => (probe a).entries.filter (·.1 ∈ screenNames)

lemma marks_cons (a : Action Context) (rest : List (Action Context)) :
    marks (a :: rest) = marks [a] ++ marks rest := by
  simp [marks]

lemma marks_singleton {actions : List (Action Context)} (h : marks actions = [])
    {a : Action Context} (ha : a ∈ actions) : marks [a] = [] := by
  rw [marks, List.flatMap_eq_nil_iff] at h
  simpa [marks] using h a ha

/-- Whether an action does not change what is shown.  If it forwards an event, that has to be
silent. -/
def KeepsScreen (a : Action Context) : Prop :=
  ∀ (event : Event) (c : Context), c.Valid → (forwards a = true → Silent event) →
    ∀ name ∈ screenNames, (a.outcome event c).shown name = c.shown name

/-- Whether an action that is not seen to show anything keeps the screen. -/
def Honest (a : Action Context) : Prop := marks [a] = [] → KeepsScreen a

/-- Whether an action shows constants or nothing. -/
def Posts (a : Action Context) : Prop := Honest a ∧ (marks [a] = [] ∨ ∃ fields, a = .set fields)

/-! ## Single actions -/

/-- A patch that does not name what is shown, whether it fits or not. -/
lemma shown_apply {c : Context} (hc : c.Valid) {patch : Patch}
    (hpatch : Object.Avoids patch screenNames) (mode : MergeMode) {name : String}
    (hname : name ∈ screenNames) :
    ((apply c patch mode).toOption.getD c).shown name = c.shown name := by
  cases happly : apply c patch mode with
  | error cause => rfl
  | ok next =>
      have hshown := hc.shown_of_apply happly hname
      rw [hpatch name hname] at hshown
      exact hshown

lemma keepsScreen_assign {patch : Context → Event → Patch}
    {remarks : Context → Event → List Notice}
    (h : ∀ c event, Object.Avoids (patch c event) screenNames) :
    KeepsScreen (.assign patch remarks) :=
  fun event c hc _ _ hname => shown_apply hc (h c event) .replace hname

/-- Forwarding the fields of a silent event. -/
lemma keepsScreen_forward : KeepsScreen .forward :=
  fun _ _ hc hsilent _ hname => shown_apply hc (hsilent rfl) .shallow hname

lemma keepsScreen_effect (e : Effect) : KeepsScreen (.effect e) := fun _ _ _ _ _ _ => rfl

/-- An action that keeps the screen and is not seen to show anything. -/
lemma KeepsScreen.posts {a : Action Context} (h : KeepsScreen a) (hmarks : marks [a] = []) :
    Posts a := ⟨fun _ => h, .inl hmarks⟩

lemma mem_marks_set {fields : List (String × Json)} {e : String × Json} :
    e ∈ marks [.set fields] ↔ e.1 ∈ screenNames ∧ (Dict.ofList fields).get? e.1 = some e.2 := by
  have hmarks : e ∈ marks [.set fields] ↔
      e ∈ (Dict.ofList fields).entries ∧ e.1 ∈ screenNames := by
    simp only [marks, List.flatMap_cons, List.flatMap_nil, List.append_nil, List.mem_filter,
      decide_eq_true_eq]
    rfl
  rw [hmarks, and_comm]
  exact and_congr_right fun _ => ⟨Dict.get?_of_mem, Dict.mem_of_get?⟩

@[simp] lemma posts_set (fields : List (String × Json)) : Posts (.set fields) := by
  refine ⟨fun hmarks => keepsScreen_assign fun _ _ name hname => ?_, .inr ⟨fields, rfl⟩⟩
  by_contra hsome
  obtain ⟨v, hv⟩ := Option.ne_none_iff_exists'.1 hsome
  have hmem : (name, v) ∈ marks [.set fields] := mem_marks_set.2 ⟨hname, hv⟩
  rw [hmarks] at hmem
  cases hmem

/-- Constants that fit are shown. -/
lemma shown_set {c : Context} {event : Event} {fields : List (String × Json)} (hc : c.Valid)
    (hfits : Context.Fits (Dict.ofList fields)) {name : String} (hname : name ∈ screenNames) :
    ((Action.set fields).outcome event c).shown name =
      ((Dict.ofList fields).get? name).or (c.shown name) := by
  obtain ⟨next, hnext⟩ := hc.exists_apply_replace hfits
  have houtcome : (Action.set fields).outcome event c = next := by
    rw [Action.set, Action.outcome, hnext]
    rfl
  rw [houtcome, hc.shown_of_apply hnext hname]
  cases hnew : (Dict.ofList fields).get? name with
  | none => rw [Option.none_or]
  | some v => exact (Option.some_or ..).symm

@[simp] lemma posts_setHousehold (f : Context → Household) : Posts (setHousehold f) :=
  (keepsScreen_assign fun _ _ => by simp [Object.Avoids, screenNames, Dict.get?_ofList,
    List.lookup_cons]).posts rfl

@[simp] lemma posts_setResources (f : Resources → Resources) : Posts (setResources f) :=
  (keepsScreen_assign fun _ _ => by simp [Object.Avoids, screenNames, Dict.get?_ofList,
    List.lookup_cons]).posts rfl

@[simp] lemma posts_forward : Posts .forward := keepsScreen_forward.posts rfl

@[simp] lemma posts_keep : Posts .keep := (keepsScreen_effect _).posts rfl

@[simp] lemma posts_forget : Posts .forget := (keepsScreen_effect _).posts rfl

@[simp] lemma posts_log (message : String) : Posts (.log message) :=
  (keepsScreen_effect _).posts rfl

@[simp] lemma Posts.honest {a : Action Context} (h : Posts a) : Honest a := h.1

@[simp] lemma honest_storeCatalog : Honest storeCatalog := fun _ =>
  keepsScreen_assign fun _ _ => by
    simp [Object.Avoids, screenNames, Dict.get?_ofList, List.lookup_cons, loadingField,
      failureField]

@[simp] lemma honest_startOver : Honest startOver := fun hmarks => absurd hmarks (by decide +kernel)

@[simp] lemma honest_filed : Honest (.assign fun c e => (filed c e.data).toPatch) :=
  fun hmarks => absurd hmarks (by decide +kernel)

/-! ## Several actions -/

/-- **An action of an entry shows what is seen of it**, beside what was shown before. -/
lemma shows_outcome {a : Action Context} {event : Event} {c : Context} (hposts : Posts a)
    (hfits : Context.Fits (probe a)) (hclear : forwards a = true → Silent event) (hc : c.Valid)
    {before : List (String × Json)} (hdistinct : ((marks [a] ++ before).map (·.1)).Nodup)
    (h : c.Shows before) : (a.outcome event c).Shows (marks [a] ++ before) := by
  obtain ⟨hhonest, hmarks | ⟨fields, rfl⟩⟩ := hposts
  · intro e he
    rw [hmarks, List.nil_append] at he
    obtain ⟨hname, hshown⟩ := h e he
    exact ⟨hname, (hhonest hmarks event c hc hclear e.1 hname).trans hshown⟩
  · rw [Context.shows_append]
    constructor
    · intro e he
      obtain ⟨hname, hnew⟩ := mem_marks_set.1 he
      exact ⟨hname, by rw [shown_set hc hfits hname, hnew, Option.some_or]⟩
    · intro e he
      obtain ⟨hname, hshown⟩ := h e he
      have hnone : (Dict.ofList fields).get? e.1 = none := by
        by_contra hsome
        obtain ⟨v, hv⟩ := Option.ne_none_iff_exists'.1 hsome
        have hmark : (e.1, v) ∈ marks [.set fields] := mem_marks_set.2 ⟨hname, hv⟩
        rw [List.map_append, List.nodup_append] at hdistinct
        exact hdistinct.2.2 e.1 (List.mem_map.2 ⟨_, hmark, rfl⟩) e.1 (List.mem_map_of_mem he) rfl
      exact ⟨hname, by rw [shown_set hc hfits hname, hnone, Option.none_or, hshown]⟩

/-- So do all the actions of an entry. -/
lemma shows_outcomes {actions : List (Action Context)} {event : Event} {c : Context}
    (hactions : ∀ a ∈ actions, Posts a ∧ Context.Fits (probe a) ∧
      (forwards a = true → Silent event)) (hc : c.Valid) {before : List (String × Json)}
    (hdistinct : ((marks actions ++ before).map (·.1)).Nodup) (h : c.Shows before) :
    (Action.outcomes event actions c).Shows (marks actions ++ before) := by
  induction actions generalizing c before with
  | nil => exact h
  | cons a rest ih =>
      obtain ⟨⟨hposts, hfits, hclear⟩, hrest⟩ := List.forall_mem_cons.1 hactions
      have hperm : (marks (a :: rest) ++ before).Perm (marks rest ++ (marks [a] ++ before)) := by
        rw [marks_cons, List.append_assoc]
        exact List.perm_append_comm_assoc _ _ _
      have hdistinct := ((hperm.map (·.1)).nodup_iff).1 hdistinct
      have hfirst : ((marks [a] ++ before).map (·.1)).Nodup := by
        rw [List.map_append] at hdistinct
        exact (List.nodup_append.1 hdistinct).2.1
      exact (ih hrest (hc.outcome event a) hdistinct
        (shows_outcome hposts hfits hclear hc hfirst h)).mono hperm.subset

/-- Actions that show nothing leave everything as it is. -/
lemma shows_keep {actions : List (Action Context)} {event : Event} {c : Context}
    (hhonest : ∀ a ∈ actions, Honest a) (hmarks : marks actions = [])
    (hclear : ∀ a ∈ actions, forwards a = true → Silent event) {before : List (String × Json)}
    (h : c.Valid ∧ c.Shows before) :
    (Action.outcomes event actions c).Valid ∧ (Action.outcomes event actions c).Shows before := by
  refine Action.outcomes_keep (Q := fun c : Context => c.Valid ∧ c.Shows before)
    (fun a ha c hc => ?_) h
  refine ⟨hc.1.outcome event a, fun e he => ?_⟩
  obtain ⟨hname, hshown⟩ := hc.2 e he
  exact ⟨hname, (hhonest a ha (marks_singleton hmarks ha) event c hc.1 (hclear a ha) e.1
    hname).trans hshown⟩

end Wizard

end FormChart.Registration
