import FormChart.Proofs.Registration.Locality

/-!
# Answering twice

When answers are given a second time, they do not meet what they met the first time: the context has
been read and written anew, and everything in it has the shape that it is written in.  It has to be
shown that nothing depends on this.

A field that holds an object keeps the parts of it that the answers do not name.  The first time
these are parts of the old object, the second time parts of the object that was written in between.
So the object that is read the second time is **blended** from the one that was read the first time
and the one that was written then (`Object.Blends`), and these two are read as the same value.
Readings look at one part at a time, hence **what two objects are read as, all objects are read as
that are blended from them** (`Blendable`).

It follows that **the same answers change nothing the second time** (`Context.apply_again`),
whatever their shapes.
-/

namespace FormChart

/-! ## Blended objects -/

namespace Object

/-- Whether an object has each of its fields from one of two others. -/
def Blends (c a b : Object) : Prop := ∀ k, c.get? k = a.get? k ∨ c.get? k = b.get? k

/-- The same new fields over an object `b` are blended from `b` and the new fields over any
object. -/
lemma blends_insertAll (a b : Object) (new : List (String × Json)) :
    Blends (b.insertAll new) (a.insertAll new) b := by
  intro k
  rw [Dict.get?_insertAll, Dict.get?_insertAll]
  cases new.reverse.lookup k with
  | none => exact .inr Option.none_or
  | some v => exact .inl rfl

variable {a b c : Object}

lemma Blends.fieldOr (h : Blends c a b) {α : Type} {name : String} {default value : α}
    {read : Json → Option α} (ha : a.fieldOr name default read = some value)
    (hb : b.fieldOr name default read = some value) :
    c.fieldOr name default read = some value := by
  unfold Object.fieldOr at ha hb ⊢
  rcases h name with heq | heq <;> rwa [heq]

lemma Blends.without (h : Blends c a b) {names : List String}
    (hab : a.without names = b.without names) : c.without names = b.without names := by
  refine Dict.ext_get? fun k => ?_
  have hk := congrArg (fun fields : Object => fields.get? k) hab
  simp only [Dict.get?_without] at hk ⊢
  rcases h k with heq | heq <;> rw [heq]
  exact hk

lemma Blends.eq_self (h : Blends c a a) : c = a := Dict.ext_get? fun k => (h k).elim id id

end Object

/-- Whether what two objects are read as, all objects are read as that are blended from them. -/
def Blendable {α : Type} (read : Json → Option α) : Prop :=
  ∀ {value : α} {a b c : Object}, c.Blends a b → read (.ofObject a) = some value →
    read (.ofObject b) = some value → read (.ofObject c) = some value

lemma blendable_object? : Blendable Json.object? := by
  intro value a b c h ha hb
  rw [Json.object?_ofObject, Option.some.injEq] at ha hb ⊢
  subst ha hb
  exact h.eq_self

/-- **The same value a second time.**  What is read once a new value is merged in, is read again
once the same value is merged into what was written in between. -/
lemma Blendable.mergeValue_again {α : Type} {read : Json → Option α} (hread : Blendable read)
    {old written : Object} {new : Json} {mode : MergeMode} {value : α}
    (hmerged : read (mergeValue mode (some (.ofObject old)) new) = some value)
    (hwritten : read (.ofObject written) = some value) :
    read (mergeValue mode (some (.ofObject written)) new) = some value := by
  cases mode with
  | replace => exact hmerged
  | shallow =>
      cases new with
      | obj fields =>
          -- what the new fields leave alone came from `old` and comes from `written` now
          simp only [Json.ofObject, mergeValue, Dict.ofList_entries] at hmerged ⊢
          exact hread (Object.blends_insertAll old written fields) hmerged hwritten
      | null | bool _ | num _ | str _ | arr _ => exact hmerged

namespace Registration

/-! ## Records -/

lemma BasicInfo.blendable : Blendable decode := by
  intro _ x y z h hx hy
  simp only [decode, Json.object?_ofObject, Option.bind_eq_bind, Option.bind_some,
    Option.bind_eq_some_iff, Option.some.injEq] at hx hy ⊢
  obtain ⟨answer, hanswer, rfl⟩ := hy
  obtain ⟨answer', hanswer', heq⟩ := hx
  obtain ⟨rfl, hextra⟩ := BasicInfo.mk.inj heq
  exact ⟨answer', h.fieldOr hanswer' hanswer, by rw [h.without hextra]⟩

lemma Household.blendable : Blendable decode := by
  intro _ x y z h hx hy
  simp only [decode, Json.asRecord_ofObject, Option.bind_eq_bind, Option.bind_some,
    Option.bind_eq_some_iff, Option.some.injEq] at hx hy ⊢
  obtain ⟨count, hcount, cursor, hcursor, members, hmembers, rfl⟩ := hx
  obtain ⟨_, hcount', _, hcursor', _, hmembers', heq⟩ := hy
  cases heq
  exact ⟨count, h.fieldOr hcount hcount', cursor, h.fieldOr hcursor hcursor',
    members, h.fieldOr hmembers hmembers', rfl⟩

lemma Resources.blendable : Blendable decode := by
  intro _ x y z h hx hy
  simp only [decode, Json.asRecord_ofObject, Option.bind_eq_bind, Option.bind_some,
    Option.bind_eq_some_iff, Option.some.injEq] at hx hy ⊢
  obtain ⟨members, hmembers, cursor, hcursor, rfl⟩ := hx
  obtain ⟨_, hmembers', _, hcursor', heq⟩ := hy
  cases heq
  exact ⟨members, h.fieldOr hmembers hmembers', cursor, h.fieldOr hcursor hcursor', rfl⟩

lemma Catalog.blendable : Blendable decode := by
  intro _ x y z h hx hy
  simp only [decode, Json.asRecord_ofObject, Option.bind_eq_bind, Option.bind_some,
    Option.bind_eq_some_iff, Option.some.injEq] at hx hy ⊢
  obtain ⟨data, hdata, rfl⟩ := hx
  obtain ⟨_, hdata', heq⟩ := hy
  cases heq
  exact ⟨data, h.fieldOr hdata hdata', rfl⟩

lemma Filing.blendable : Blendable decode := by
  intro _ x y z h hx hy
  simp only [decode, Json.asRecord_ofObject, Option.bind_eq_bind, Option.bind_some,
    Option.bind_eq_some_iff, Option.some.injEq] at hx hy ⊢
  obtain ⟨id, hid, created, hcreated, updated, hupdated, eligible, heligible, name, hname, rfl⟩ :=
    hx
  obtain ⟨_, hid', _, hcreated', _, hupdated', _, heligible', _, hname', heq⟩ := hy
  cases heq
  exact ⟨id, h.fieldOr hid hid', created, h.fieldOr hcreated hcreated',
    updated, h.fieldOr hupdated hupdated', eligible, h.fieldOr heligible heligible',
    name, h.fieldOr hname hname', rfl⟩

lemma Preferences.blendable : Blendable decode := by
  intro _ x y z h hx hy
  simp only [decode, Json.asRecord_ofObject, Option.bind_eq_bind, Option.bind_some,
    Option.bind_eq_some_iff, Option.some.injEq] at hx hy ⊢
  obtain ⟨storage, hstorage, language, hlanguage, disaster, hdisaster, rfl⟩ := hx
  obtain ⟨_, hstorage', _, hlanguage', _, hdisaster', heq⟩ := hy
  cases heq
  exact ⟨storage, h.fieldOr hstorage hstorage', language, h.fieldOr hlanguage hlanguage',
    disaster, h.fieldOr hdisaster hdisaster', rfl⟩

lemma Activity.blendable : Blendable decode := by
  intro _ x y z h hx hy
  simp only [decode, Json.asRecord_ofObject, Option.bind_eq_bind, Option.bind_some,
    Option.bind_eq_some_iff, Option.some.injEq] at hx hy ⊢
  obtain ⟨loading, hloading, rfl⟩ := hx
  obtain ⟨_, hloading', heq⟩ := hy
  cases heq
  exact ⟨loading, h.fieldOr hloading hloading', rfl⟩

lemma Faults.blendable : Blendable fun v => some (decode v) := by
  intro _ x y z h hx hy
  simp only [decode, Json.field?, Json.fieldsOrEmpty_ofObject] at hx hy ⊢
  rcases h "server" with heq | heq <;> rwa [heq]

/-! ## Fields of contexts -/

/-- Whether a value may be merged into a field again: what is made of the field the first time, is
made of it once more. -/
def Field.Repeatable (f : Field) : Prop :=
  ∀ {old value : f.Value} {new : Json} {mode : MergeMode},
    f.read (mergeValue mode (some (f.encode old)) new) = some value →
    f.read (f.encode value) = some value →
      f.read (mergeValue mode (some (f.encode value)) new) = some value

/-- A field that holds objects. -/
lemma Field.repeatable_of_blendable {f : Field} (hread : Blendable f.read)
    (hencode : ∀ value, ∃ fields : Object, f.encode value = .ofObject fields) :
    f.Repeatable := by
  intro old value new mode hmerged hwritten
  obtain ⟨before, hbefore⟩ := hencode old
  obtain ⟨written, hbetween⟩ := hencode value
  rw [hbefore] at hmerged
  rw [hbetween] at hwritten ⊢
  exact hread.mergeValue_again hmerged hwritten

/-- A field that holds no objects is exchanged as a whole. -/
lemma Field.repeatable_of_atoms {f : Field}
    (hencode : ∀ value mode new, mergeValue mode (some (f.encode value)) new = new) :
    f.Repeatable := by
  intro old value new mode hmerged _
  rw [hencode] at hmerged ⊢
  exact hmerged

namespace Context

/-- **Into every field a value may be merged again.** -/
lemma repeatable : ∀ f ∈ fields, f.Repeatable := by
  have htext : ∀ (text : String) (mode : MergeMode) (new : Json),
      mergeValue mode (some (.str text)) new = new := by
    intro text mode new
    cases mode <;> rfl
  have hnumber : ∀ (n : Nat) (mode : MergeMode) (new : Json),
      mergeValue mode (some (Json.nat n)) new = new := by
    intro n mode new
    cases mode <;> rfl
  simp only [fields, List.forall_mem_cons]
  refine ⟨?basicInfo, ?household, ?impact, ?resources, ?submit, ?disasters, ?registration, ?config,
    ?activity, ?area, ?currentSection, ?currentStep, ?previousSection, ?previousStep, ?step,
    ?totalSteps, ?errors, List.forall_mem_nil _⟩
  case basicInfo => exact Field.repeatable_of_blendable BasicInfo.blendable fun _ => ⟨_, rfl⟩
  case household => exact Field.repeatable_of_blendable Household.blendable fun _ => ⟨_, rfl⟩
  case resources => exact Field.repeatable_of_blendable Resources.blendable fun _ => ⟨_, rfl⟩
  case disasters => exact Field.repeatable_of_blendable Catalog.blendable fun _ => ⟨_, rfl⟩
  case registration => exact Field.repeatable_of_blendable Filing.blendable fun _ => ⟨_, rfl⟩
  case config => exact Field.repeatable_of_blendable Preferences.blendable fun _ => ⟨_, rfl⟩
  case activity => exact Field.repeatable_of_blendable Activity.blendable fun _ => ⟨_, rfl⟩
  case errors => exact Field.repeatable_of_blendable Faults.blendable fun _ => ⟨_, rfl⟩
  case impact | submit =>
    exact Field.repeatable_of_blendable blendable_object? fun _ => ⟨_, rfl⟩
  case step | totalSteps => exact Field.repeatable_of_atoms hnumber
  all_goals exact Field.repeatable_of_atoms htext

/-- **The same answers change nothing the second time.**  A patch that fits a context fits what it
makes of the context, and makes the same of it.  So a page whose answers are given twice leaves the
same data as if they had been given once, whether they fit or not. -/
theorem apply_again {v : Json} {c : Context} (hcontext : decode v = some c) :
    (∀ patch mode c₁, apply c patch mode = .ok c₁ → apply c₁ patch mode = .ok c₁) ∧
    ∀ {Env : Type} (chart : Chart Context Env) (m : Macrostep Context Env) (event again : Event),
      m.machine.context = c → again.payload = event.payload →
        ((m.perform chart event .forward).perform chart again .forward).machine.context =
          (m.perform chart event .forward).machine.context := by
  have hvalid := valid_of_decode hcontext
  have hagain : ∀ patch mode c₁, apply c patch mode = .ok c₁ → apply c₁ patch mode = .ok c₁ := by
    intro patch mode c₁ happly
    have hvalid₁ := hvalid.apply happly
    rw [hvalid₁.apply_eq_ok_iff_patched]
    intro f hf
    have hfirst := hvalid.apply_eq_ok_iff_patched.1 happly f hf
    rw [Field.patched?] at hfirst ⊢
    cases hnew : patch.get? f.name with
    | none => rfl
    | some new =>
        -- the second time, the new value meets the field of `c₁` as it is written
        rw [hnew] at hfirst
        exact repeatable f hf hfirst (hvalid₁.read_encode f hf)
  refine ⟨hagain, ?_⟩
  rintro Env chart m event again rfl hpayload
  rw [Macrostep.perform_context, Macrostep.perform_context, Action.outcome, Action.outcome,
    hpayload]
  cases happly : apply m.machine.context event.payload .shallow with
  | ok c₁ =>
      have hsecond := hagain _ _ _ happly
      exact congrArg (fun r : Except PatchError Context => r.toOption.getD c₁) hsecond
  | error cause =>
      exact congrArg (fun r : Except PatchError Context => r.toOption.getD m.machine.context) happly

/-- Answers in many shapes to pages that were answered before: an object over an object with a new
field and a number for a flag, a text for a count, a list for a record, and a field that is not
known. -/
def correcting : Event where
  name := "NEXT"
  data := .record [
    ("basicInfo", .record [("currentMailingAddress", Json.nat 1), ("zip", .str "12345")]),
    ("household", .record [("numMembers", .str " 2 "), ("size", .null)]),
    ("resources", .arr [.arr [Json.nat 0, Json.nat 1], .str "1"]),
    ("config", .record [("useLocalStorage", .str "No")]), ("other", .null)]

/-- What the first time changes, and that it is the same after the second time. -/
theorem apply_again_correcting : ∃ c c₁ : Context, decode untidy = some c ∧
    apply c correcting.payload .shallow = .ok c₁ ∧
    c.basicInfo.currentMailingAddress = some false ∧
    c₁.basicInfo.currentMailingAddress = some true ∧ c₁.basicInfo.extra.keys = ["city", "zip"] ∧
    c₁.household = { c.household with numMembers := some 2 } ∧
    c₁.resources = ⟨[0, 1], 1⟩ ∧ c₁.config = { c.config with useLocalStorage := some false } ∧
    apply c₁ correcting.payload .shallow = .ok c₁ ∧
    ∀ (chart : Chart Context Unit) (m : Macrostep Context Unit), m.machine.context = c →
      ((m.perform chart correcting .forward).perform chart correcting .forward).machine.context =
        c₁ := by
  have hcomputed : (decode untidy).any (fun c =>
      c.basicInfo.currentMailingAddress = some false ∧
        (apply c correcting.payload .shallow).toOption.any fun c₁ =>
          c₁.basicInfo.currentMailingAddress = some true ∧
            c₁.basicInfo.extra.keys = ["city", "zip"] ∧
            c₁.household = { c.household with numMembers := some 2 } ∧
            c₁.resources = ⟨[0, 1], 1⟩ ∧
            c₁.config = { c.config with useLocalStorage := some false }) = true := by
    decide +kernel
  obtain ⟨c, hc, h⟩ := (Option.any_eq_true _ _).1 hcomputed
  obtain ⟨hbefore, h⟩ := of_decide_eq_true h
  obtain ⟨c₁, hc₁, h⟩ := (Option.any_eq_true _ _).1 h
  obtain ⟨hmail, hextra, hhousehold, hresources, hconfig⟩ := of_decide_eq_true h
  have happly : apply c correcting.payload .shallow = .ok c₁ := by
    cases hcase : apply c correcting.payload .shallow with
    | ok found =>
        rw [hcase] at hc₁
        exact congrArg _ (Option.some.inj hc₁)
    | error cause => simp [hcase, Except.toOption] at hc₁
  obtain ⟨hagain, hforward⟩ := apply_again hc
  refine ⟨c, c₁, hc, happly, hbefore, hmail, hextra, hhousehold, hresources, hconfig,
    hagain _ _ c₁ happly, fun chart m hm => ?_⟩
  rw [hforward chart m correcting correcting hm rfl, Macrostep.perform_context, hm, Action.outcome,
    happly]
  rfl

end Context

end Registration

end FormChart
