import FormChart.Proofs.Session.Runs
import FormChart.Proofs.Registration.Keeping
import FormChart.Proofs.Json.ReadBack
import FormChart.Registration.Wizard.Chart
import FormChart.Registration.Script

/-!
# Resuming the wizard

What the next session of the wizard finds of this one.  Contexts are valid all along a run
(`Wizard.valid_of_run`), so what is known about contexts that are kept applies to whatever a run
leaves in the slot, for the chart of the wizard as for any other over contexts.

* After an event that ends with the context being kept, the next session resumes **the context at
  rest with the payload of the event written over it once more** (`Wizard.reopens_after_keep`).
  That is the context at rest, unless an action has overruled the payload in the meantime.
* An event whose payload does not fit leaves the context alone, but the payload is kept with it.  So
  **what a run leaves can be resumed exactly if the payload that was kept last fits**
  (`Wizard.reopens_iff_fits`).
-/

namespace FormChart.Registration

variable {Env S : Type} [Storage S]

/-! ## Contexts along a run -/

lemma Context.preserved_valid : Preserved Context.Valid := fun _ _ _ _ hc happly => hc.apply happly

/-- What is read back of a slot is valid, whatever was in it. -/
lemma Context.valid_reopen (slot : Slot S) : (slot.reopen (C := Context)).1.Valid := by
  have hfresh : (Model.fresh : Context).Valid := Context.valid_fresh
  unfold Slot.reopen
  split
  next => exact hfresh
  next => exact hfresh
  next text _ _ =>
      split
      next context hcontext =>
          unfold Slot.contextOf at hcontext
          split at hcontext
          next => cases hcontext
          next =>
              dsimp only at hcontext
              split at hcontext
              next happly =>
                  cases hcontext
                  exact hfresh.apply happly
              next => cases hcontext
      next => exact hfresh

namespace Wizard

/-- The wizard resumes a valid context. -/
lemma valid_session (chart : Chart Context Env) (settings : Settings) (storage : S)
    (readFixture : String → Option String) :
    (session chart settings storage readFixture).machine.context.Valid := by
  change (Slot.resume (C := Context) ⟨storage, settings.storageKey⟩
    (settings.fixturePath.map readFixture)).1.Valid
  unfold Slot.resume
  split
  next => exact Context.valid_reopen _
  next => exact Context.valid_reopen _

section

variable {chart : Chart Context Env} {settings : Settings} {storage : S}
  {readFixture : String → Option String} {calls : List Call} {s : Session Context Env S}

/-- Contexts are valid all along a run of the wizard. -/
theorem valid_of_run (run : Run (session chart settings storage readFixture) calls s) :
    s.machine.context.Valid :=
  run.preserves Context.preserved_valid (valid_session chart settings storage readFixture)

/-- So are those at the end of a macrostep. -/
lemma valid_of_macrostep? (run : Run (session chart settings storage readFixture) calls s)
    {event : Event} {budget : Nat} {m : Macrostep Context Env}
    (hm : s.macrostep? budget event = some m) : m.machine.context.Valid := by
  rw [← Session.rest_machine s event m]
  exact valid_of_run (run.snoc budget (.send event) (Session.send_of_macrostep? hm))

end

/-! ## The wizard over an empty storage -/

/-- The wizard with scripted services, before its start. -/
def scripted : Session Context Script Memory := session blueprint.outline.chart {} {} fun _ => none

lemma scripted_chart :
    (chart : Except (List Defect) (Chart Context Script)) = .ok scripted.chart :=
  Blueprint.build_of_defects_eq_nil (by decide +kernel)

/-- Leaving the form with a field that the form sets itself. -/
def leaving : Event := { name := quit, data := .record [("prefix", .str "x")] }

/-- Editing with a field that does not fit. -/
def editing : Event := { name := edit, data := .record [("step", .str "x")] }

/-- What is asked about an event at the first page of a section: what is done last with the slot,
whether the context is to be kept, the area before and after the payload is written over it again,
and whether what is kept can be read. -/
def answersAt (page : String) (event : Event) :
    Option (Option Effect × Bool × String × Option String × Bool) :=
  (scripted.call 8 (.startAt page)).bind fun s =>
    (s.macrostep? 8 event).map fun m =>
      (lastTouch? m.effects, Model.wantsKeeping m.machine.context, m.machine.context.area,
        (apply m.machine.context event.payload .shallow).toOption.map (·.area),
        (Json.ofObject (Slot.snapshot m.machine.context event.payload)).legible Json.maxDepth)

set_option synthInstance.maxSize 512 in
set_option maxRecDepth 100000 in
lemma answersAt_computed :
    answersAt "form.pre-registration.set-up" leaving =
        some (some .keep, true, "form", some "x", true) ∧
      answersAt "form.review.default" editing = some (some .keep, true, "form", none, true) := by
  decide +kernel

/-- The form is left, the context is kept, and the field of the event is kept with it. -/
lemma leaving_leads : ∃ (s : Session Context Script Memory) (m : Macrostep Context Script)
    (found : Context), Run scripted [.startAt "form.pre-registration.set-up"] s ∧
      s.macrostep? 8 leaving = some m ∧ lastTouch? m.effects = some .keep ∧
      Model.wantsKeeping m.machine.context = true ∧ m.machine.context.area = "form" ∧
      apply m.machine.context leaving.payload .shallow = .ok found ∧ found.area = "x" ∧
      Json.parse (Slot.text m.machine.context leaving.payload) =
        some (.ofObject (Slot.snapshot m.machine.context leaving.payload)) := by
  obtain ⟨s, hstart, h⟩ := Option.bind_eq_some_iff.1 answersAt_computed.1
  obtain ⟨m, hm, h⟩ := Option.map_eq_some_iff.1 h
  simp only [Prod.mk.injEq] at h
  obtain ⟨hlast, hwants, harea, hfound, hlegible⟩ := h
  cases happly : apply m.machine.context leaving.payload .shallow with
  | error cause => simp [happly, Except.toOption] at hfound
  | ok found =>
      refine ⟨s, m, found, Run.nil.snoc 8 _ hstart, hm, hlast, hwants, harea, happly, ?_,
        Json.parse_compact hlegible⟩
      simpa [happly, Except.toOption] using hfound

/-- The context is kept after the editing, although nothing was edited. -/
lemma editing_leads : ∃ (s : Session Context Script Memory) (m : Macrostep Context Script)
    (slot : Slot Memory), Run scripted [.startAt "form.review.default", .send editing] s ∧
      m.machine.context.Valid ∧ s.slot = some slot ∧
      slot.content = some (Slot.text m.machine.context editing.payload) ∧
      Json.parse (Slot.text m.machine.context editing.payload) =
        some (.ofObject (Slot.snapshot m.machine.context editing.payload)) := by
  obtain ⟨s, hstart, h⟩ := Option.bind_eq_some_iff.1 answersAt_computed.2
  obtain ⟨m, hm, h⟩ := Option.map_eq_some_iff.1 h
  simp only [Prod.mk.injEq] at h
  obtain ⟨hlast, hwants, -, -, hlegible⟩ := h
  have run : Run scripted [.startAt "form.review.default"] s := Run.nil.snoc 8 _ hstart
  have hslot : s.slot.isSome = true := run.isSome_slot
  have hkept := Session.kept_rest_of_lastTouch hslot hlast hwants editing
  obtain ⟨slot, hslot', hcontent⟩ := Option.bind_eq_some_iff.1 hkept
  exact ⟨_, m, slot, run.snoc 8 (.send editing) (Session.send_of_macrostep? hm),
    valid_of_macrostep? run hm, hslot', hcontent, Json.parse_compact hlegible⟩

section

variable {chart : Chart Context Env} {settings : Settings} {storage : S}
  {readFixture : String → Option String} {calls : List Call} {s : Session Context Env S}

variable [WorkingStorage S]

/-! ## After an event -/

/-- What is found of a macrostep at rest that has asked last for the context to be kept. -/
lemma reopens_rest {s : Session Context Env S} (hslot : s.slot.isSome = true)
    {m : Macrostep Context Env} (hm : m.machine.context.Valid)
    (hlast : lastTouch? m.effects = some .keep)
    (hwants : Model.wantsKeeping m.machine.context = true) {trigger : Event} {found : Context}
    (happly : apply m.machine.context trigger.payload .shallow = .ok found)
    (hread : Json.parse (Slot.text m.machine.context trigger.payload) =
      some (.ofObject (Slot.snapshot m.machine.context trigger.payload))) :
    ∃ slot, (s.rest trigger m).slot = some slot ∧ slot.Reopens found.lasting := by
  have hkept := Session.kept_rest_of_lastTouch hslot hlast hwants trigger
  obtain ⟨slot, hslot', hcontent⟩ := Option.bind_eq_some_iff.1 hkept
  refine ⟨slot, hslot', (Slot.reopens_iff hcontent _).2 ?_⟩
  exact Context.contextOf_text_of_apply hm happly slot.key hread

/-- **What is resumed after an event** that fits and ends with the context being kept: the context
at rest, with the payload of the event written over it once more and the transient fields as in a
new context. -/
theorem reopens_after_keep (run : Run (session chart settings storage readFixture) calls s)
    {event : Event} (hfits : ∃ c, apply s.machine.context event.payload .shallow = .ok c)
    {budget : Nat} {m : Macrostep Context Env} (hm : s.macrostep? budget event = some m)
    (hlast : lastTouch? m.effects = some .keep)
    (hwants : Model.wantsKeeping m.machine.context = true)
    (hread : Json.parse (Slot.text m.machine.context event.payload) =
      some (.ofObject (Slot.snapshot m.machine.context event.payload))) :
    ∃ s' slot found, s.send budget event = some s' ∧ s'.machine = m.machine ∧
      s'.slot = some slot ∧ apply m.machine.context event.payload .shallow = .ok found ∧
      slot.Reopens found.lasting := by
  have hvalid := valid_of_macrostep? run hm
  -- fitting is about the payload, so it is not lost on the way to rest
  rw [Context.apply_isOk_iff (valid_of_run run), ← Context.apply_isOk_iff hvalid] at hfits
  obtain ⟨found, happly⟩ := hfits
  have hslot : s.slot.isSome = true := run.isSome_slot
  obtain ⟨slot, hslot', hreopens⟩ := reopens_rest hslot hvalid hlast hwants happly hread
  exact ⟨_, slot, found, Session.send_of_macrostep? hm, Session.rest_machine s event m, hslot',
    happly, hreopens⟩

/-- The form is left with a field that the form sets itself. -/
theorem reopens_after_keep_leaving : ∃ s m s' slot found,
    Run scripted [.startAt "form.pre-registration.set-up"] s ∧ s.macrostep? 8 leaving = some m ∧
      s.send 8 leaving = some s' ∧ s'.slot = some slot ∧
      apply m.machine.context leaving.payload .shallow = .ok found ∧
      slot.Reopens found.lasting := by
  obtain ⟨s, m, found, run, hm, hlast, hwants, -, -, -, hread⟩ := leaving_leads
  have hfits : ∃ c, apply s.machine.context leaving.payload .shallow = .ok c := by
    rw [Context.apply_isOk_iff (valid_of_run run)]
    decide +kernel
  obtain ⟨s', slot, found, hsend, -, hslot, happly, hreopens⟩ :=
    reopens_after_keep run hfits hm hlast hwants hread
  exact ⟨s, m, s', slot, found, run, hm, hsend, hslot, happly, hreopens⟩

/-- **What is resumed is not always the context at rest**: the event that left the form has brought
a field that no action has taken over, and the field is resumed. -/
theorem reopens_other_than_settled :
    (Wizard.chart : Except (List Defect) (Chart Context Script)) = .ok scripted.chart ∧
    ∃ s m s' slot found,
      Run scripted [.startAt "form.pre-registration.set-up"] s ∧
      (∃ c, apply s.machine.context leaving.payload .shallow = .ok c) ∧
      s.macrostep? 8 leaving = some m ∧ lastTouch? m.effects = some .keep ∧
      Model.wantsKeeping m.machine.context = true ∧
      Json.parse (Slot.text m.machine.context leaving.payload) =
        some (.ofObject (Slot.snapshot m.machine.context leaving.payload)) ∧
      s.send 8 leaving = some s' ∧ s'.machine = m.machine ∧ s'.slot = some slot ∧
      slot.Reopens found ∧ found ≠ m.machine.context.lasting := by
  refine ⟨scripted_chart, ?_⟩
  obtain ⟨s, m, found, run, hm, hlast, hwants, harea, happly, hfound, hread⟩ := leaving_leads
  have hvalid := valid_of_macrostep? run hm
  have hfits := (Context.apply_isOk_iff hvalid leaving.payload).1 ⟨found, happly⟩
  have hslot : s.slot.isSome = true := run.isSome_slot
  obtain ⟨slot, hslot', hreopens⟩ := reopens_rest hslot hvalid hlast hwants happly hread
  refine ⟨s, m, _, slot, found.lasting, run,
    (Context.apply_isOk_iff (valid_of_run run) leaving.payload).2 hfits, hm, hlast, hwants, hread,
    Session.send_of_macrostep? hm, Session.rest_machine s leaving m, hslot', hreopens,
    fun heq => ?_⟩
  have hsame : found.lasting.area = m.machine.context.lasting.area := by rw [heq]
  change found.area = m.machine.context.area at hsame
  rw [hfound, harea] at hsame
  exact absurd hsame (by decide)

/-! ## After a run -/

/-- **What is resumed after a run** that began with an empty slot: nothing, if the slot is empty
again; or else what was kept after one of its calls, and this is accepted exactly if the payload of
that call fits, its transient fields aside. -/
theorem reopens_iff_fits (hempty : (session chart settings storage readFixture).kept = none)
    (run : Run (session chart settings storage readFixture) calls s) :
    s.kept = none ∨
      ∃ before c after s₁ slot, calls = before ++ c :: after ∧
        Run (session chart settings storage readFixture) (before ++ [c]) s₁ ∧
        s.slot = some slot ∧ slot.content = some (Slot.text s₁.machine.context c.payload) ∧
        (Json.parse (Slot.text s₁.machine.context c.payload) =
            some (.ofObject (Slot.snapshot s₁.machine.context c.payload)) →
          ((∃ found : Context, slot.Reopens found) ↔
            Context.Fits (c.payload.without Context.transientFields))) := by
  rcases run.kept_cases with hnone | hinit | ⟨before, c, after, s₁, hcalls, hrun, hkept⟩
  · exact .inl hnone
  · exact .inl (hinit.trans hempty)
  · obtain ⟨slot, hslot, hcontent⟩ := Option.bind_eq_some_iff.1 hkept
    refine .inr ⟨before, c, after, s₁, slot, hcalls, hrun, hslot, hcontent, fun hread => ?_⟩
    rw [← Context.contextOf_text_isOk_iff (valid_of_run hrun) slot.key hread]
    exact exists_congr fun found => Slot.reopens_iff hcontent found

/-- Editing with a field that does not fit. -/
theorem reopens_iff_fits_editing : ∃ s : Session Context Script Memory,
    scripted.kept = none ∧
    Run scripted [.startAt "form.review.default", .send editing] s ∧ s.kept.isSome = true ∧
    ∃ before c after s₁ slot,
      [.startAt "form.review.default", .send editing] = before ++ c :: after ∧
        Run scripted (before ++ [c]) s₁ ∧ s.slot = some slot ∧
        slot.content = some (Slot.text s₁.machine.context c.payload) ∧
        (Json.parse (Slot.text s₁.machine.context c.payload) =
            some (.ofObject (Slot.snapshot s₁.machine.context c.payload)) →
          ((∃ found : Context, slot.Reopens found) ↔
            Context.Fits (c.payload.without Context.transientFields))) := by
  obtain ⟨s, m, slot, run, -, hslot, hcontent, -⟩ := editing_leads
  have hempty : scripted.kept = none := by decide +kernel
  have hkept : s.kept = some (Slot.text m.machine.context editing.payload) := by
    rw [Session.kept, hslot, Option.bind_some, hcontent]
  rcases reopens_iff_fits hempty run with hnone | hsome
  · rw [hkept] at hnone
    cases hnone
  · exact ⟨s, hempty, run, Option.isSome_of_eq_some hkept, hsome⟩

/-- **What is left of a run cannot always be resumed**: editing with a field that does not fit makes
the kept context unreadable. -/
theorem editing_not_reopened :
    (Wizard.chart : Except (List Defect) (Chart Context Script)) = .ok scripted.chart ∧
    scripted.kept = none ∧
    ∃ s slot, Run scripted [.startAt "form.review.default", .send editing] s ∧
      s.slot = some slot ∧ slot.content.isSome = true ∧
        ¬ ∃ found : Context, slot.Reopens found := by
  obtain ⟨s, m, slot, run, hm, hslot, hcontent, hread⟩ := editing_leads
  refine ⟨scripted_chart, by decide +kernel, s, slot, run, hslot,
    Option.isSome_of_eq_some hcontent, ?_⟩
  rintro ⟨found, hfound⟩
  rw [Slot.reopens_iff hcontent] at hfound
  have hfits := (Context.contextOf_text_isOk_iff hm slot.key hread).1 ⟨found, hfound⟩
  exact absurd hfits (by decide +kernel)

end

end Wizard

end FormChart.Registration
