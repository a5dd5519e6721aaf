import FormChart.Proofs.Registration.Members
import FormChart.Proofs.Registration.Ranges

/-!
# Stepping back in a household that shrinks

From the page for a member, and from the page after the loop over the members, one event steps back.
Where it leads depends on the size of the household and on the cursor, and a page may come with
another size while the cursor stays where it is.  Unlike the cursor over the members with an income
(`Resources.previousMember`), this one is not brought back into range then.

So **stepping back leads back unless the cursor has overshot the household**
(`Wizard.stepping_back_among_members`).  If it has, one stays on the page after the loop
(`Wizard.shrinking_stays`).
-/

namespace FormChart.Registration

/-- Whether the cursor is further on than going on from page to page gets it: after the loop it is
one behind the number of members. -/
def Household.HasOvershot (h : Household) : Prop := 1 < h.count ∧ h.count ≤ h.currentMember

instance (h : Household) : Decidable h.HasOvershot := inferInstanceAs (Decidable (_ ∧ _))

/-- Where a member is left at the cursor, it has not overshot. -/
lemma Household.not_hasOvershot {h : Household} (hleft : h.hasMemberAtCursor = true) :
    ¬ h.HasOvershot := fun hover => by
  have hlt : h.currentMember + 1 < h.count := of_decide_eq_true hleft
  exact absurd hover.2 (Nat.not_le.2 (Nat.lt_of_succ_lt hlt))

namespace Wizard

variable {Env S : Type} [Services Env] [Storage S]

/-- Whether a session is on a page to which stepping back may lead: one before the loop, or the page
for a member that is left at the cursor. -/
def IsBack (s : Session Context Env S) : Prop :=
  s.leafPath = "form.household.how-many" ∨ s.leafPath = "form.household.get-prepared" ∨
    s.leafPath = "form.household.member-details" ∧
      s.machine.context.household.hasMemberAtCursor = true

/-- What stepping back comes to: the question about the size if there is nobody but the applicant,
the page before the loop from the first position, and the page for the member before from a later
one.  From a cursor that has overshot it is the page after the loop, with the cursor one less. -/
structure HouseholdSteppedBack (h : Household) (s' : Session Context Env S) : Prop where
  alone : h.count ≤ 1 →
    s'.leafPath = "form.household.how-many" ∧ s'.machine.context.household = h
  first : 1 < h.count → h.currentMember = 0 →
    s'.leafPath = "form.household.get-prepared" ∧ s'.machine.context.household = h
  later : ∀ k, h.currentMember = k + 1 → k + 1 < h.count →
    s'.leafPath = "form.household.member-details" ∧ s'.machine.context.household = h.movedTo k
  overshot : h.HasOvershot → s'.leafPath = "form.household.food-assistance" ∧
    s'.machine.context.household = h.movedTo (h.currentMember - 1)

omit [Services Env] [Storage S] in
/-- **Stepping back leads back** just if the cursor has not overshot. -/
lemma HouseholdSteppedBack.isBack_iff {h : Household} {s' : Session Context Env S}
    (hback : HouseholdSteppedBack h s') : IsBack s' ↔ ¬ h.HasOvershot := by
  constructor
  · intro hs' hover
    obtain ⟨hpage, -⟩ := hback.overshot hover
    rw [IsBack, hpage] at hs'
    simp at hs'
  · intro hover
    by_cases halone : h.count ≤ 1
    · exact .inl (hback.alone halone).1
    · have hcount : 1 < h.count := Nat.lt_of_not_le halone
      rcases hcursor : h.currentMember with - | k
      · exact .inr (.inl (hback.first hcount hcursor).1)
      · have hlt : k + 1 < h.count := by
          rw [← hcursor]
          exact Nat.lt_of_not_le fun hle => hover ⟨hcount, hle⟩
        obtain ⟨hpage, hhousehold⟩ := hback.later k hcursor hlt
        exact .inr (.inr ⟨hpage, hhousehold ▸ decide_eq_true hlt⟩)

section

variable {s : Session Context Env S} {page : NodeId} {c : Context} {event : Event}

/-- Back from the page for a member or from the page after the loop. -/
lemma Stands.exists_householdSteppedBack (hs : Stands page c s)
    (hpage : page ∈ [Leaf.memberDetails, Leaf.foodAssistance])
    (hname : event.name = previousMember) :
    ∃ s', s.ComesTo event s' ∧ HouseholdSteppedBack c.household s' := by
  by_cases halone : c.household.count ≤ 1
  · obtain ⟨s', hcomes, hs'⟩ := hs.exists_comesTo (isPage_of_mem (by decide))
      ((takes_howMany hname hpage halone).reaches (settles_page (by decide) _))
    have hfew : ¬ 1 < c.household.count := Nat.not_lt.2 halone
    exact ⟨s', hcomes, fun _ => ⟨hs'.leafPath_of_mem (by decide), hs'.agrees.household⟩,
      fun hmany => absurd hmany hfew,
      fun k _ hlt => absurd (Nat.lt_of_le_of_lt k.succ_pos hlt) hfew,
      fun hover => absurd hover.1 hfew⟩
  have hcount : 1 < c.household.count := Nat.lt_of_not_le halone
  rcases hcursor : c.household.currentMember with - | k
  · obtain ⟨s', hcomes, hs'⟩ := hs.exists_comesTo (isPage_of_mem (by decide))
      ((takes_getPrepared hname hpage hcount hcursor).reaches (settles_page (by decide) _))
    exact ⟨s', hcomes, fun h => absurd h halone,
      fun _ _ => ⟨hs'.leafPath_of_mem (by decide), hs'.agrees.household⟩, by simp [hcursor],
      fun hover => absurd (hover.1.trans_le hover.2) (by simp [hcursor])⟩
  -- the loop decides with the cursor one less
  have hbound : c.household.currentMember < wordBound :=
    hs.agrees.household ▸ hs.agrees.valid.household.currentMember
  have hback : Takes event page c Leaf.memberDetailsLoop (c.atMember k) := by
    simpa [hcursor] using takes_memberDetailsLoop hname hpage hcount (by simp [hcursor]) hbound
  obtain ⟨s', hcomes, hs'⟩ := hs.exists_comesTo (isPage_stop _ _)
    (hback.reaches (settles_stop c k))
  refine ⟨s', hcomes, fun h => absurd h halone, by simp [hcursor], fun k' hk' hlt => ?_,
    fun hover => ?_⟩
  · obtain rfl : k = k' := by omega
    rw [stop_of_pos k.succ_pos hlt] at hs'
    exact ⟨hs'.leafPath_of_mem (by decide), hs'.agrees.household⟩
  · rw [stop_of_le k.succ_pos (hover.2.trans hcursor.le)] at hs'
    exact ⟨hs'.leafPath_of_mem (by decide), by rw [hcursor]; exact hs'.agrees.household⟩

end

/-- A run that starts at the root or at global ids stays on course. -/
lemma onCourse_of_run {s₀ s : Session Context Env S} {calls : List Call}
    (hchart : Wizard.chart = .ok s₀.chart) (hceiling : 5 ≤ s₀.settings.maxEventlessSteps)
    (hnew : s₀.machine.leaf = none) (hvalid : s₀.machine.context.Valid)
    (hcalls : ∀ reference, .startAt reference ∈ calls →
      ∃ i n id, s₀.chart.node? i = some n ∧ n.id = some id ∧ reference = "#" ++ id)
    (run : Run s₀ calls s) :
    s.chart = s₀.chart ∧ s.settings = s₀.settings ∧ OnCourse s₀.chart s.machine := by
  have hpermits : ∀ c ∈ calls, ∀ target, c.Enters s₀.chart target → permits s₀.chart target := by
    rintro c hc target (⟨rfl, rfl⟩ | ⟨reference, rfl, hfound⟩)
    · exact ⟨keyOf_landing_root hchart, .inl rfl⟩
    · obtain ⟨i, n, id, hn, hid, rfl⟩ := hcalls reference hc
      exact ⟨keyOf_landing_notMem hchart hn hid hfound, .inr (Chart.node?_of_lookup? hfound)⟩
  obtain ⟨hsame, hsettings, -, hcourse⟩ :=
    run.settled (settlesWithin hchart) hceiling (steady_onCourse hchart)
      (Machine.atRest_of_not_started hnew) ⟨hvalid, by simp [hnew]⟩ hpermits
  exact ⟨hsame, hsettings, hcourse⟩

/-- **Stepping back among the members.**  Take a run of the wizard from whatever context, started at
the root or at global ids, and whatever its events come with.  If it ends on the page for a member
or on the page after the loop, then the event that steps back is answered, as `HouseholdSteppedBack`
says.

It leads to a page before the loop, or to the page for a member that is left at the cursor, unless
the cursor has overshot.  That is so only on the page after the loop. -/
theorem stepping_back_among_members {s₀ s : Session Context Env S} {calls : List Call}
    (hchart : Wizard.chart = .ok s₀.chart) (hceiling : 5 ≤ s₀.settings.maxEventlessSteps)
    (hnew : s₀.machine.leaf = none) {v : Json}
    (hcontext : Context.decode v = some s₀.machine.context)
    (hcalls : ∀ reference, .startAt reference ∈ calls →
      ∃ i n id, s₀.chart.node? i = some n ∧ n.id = some id ∧ reference = "#" ++ id)
    (run : Run s₀ calls s)
    (hpage : s.leafPath = "form.household.member-details" ∨
      s.leafPath = "form.household.food-assistance")
    (back : Event) (hback : back.name = previousMember) :
    ∃ s', s.ComesTo back s' ∧ HouseholdSteppedBack s.machine.context.household s' ∧
      (IsBack s' ↔ ¬ s.machine.context.household.HasOvershot) ∧
      (s.machine.context.household.HasOvershot →
        s.leafPath = "form.household.food-assistance") := by
  obtain ⟨hsame, hsettings, hcourse⟩ :=
    onCourse_of_run hchart hceiling hnew (Context.valid_of_decode hcontext) hcalls run
  rw [← hsame] at hchart hcourse
  rw [← hsettings] at hceiling
  obtain ⟨page, hmem, hs⟩ : ∃ page ∈ [Leaf.memberDetails, Leaf.foodAssistance],
      Stands page s.machine.context s := by
    rcases hpage with hpage | hpage
    · exact ⟨Leaf.memberDetails, by decide,
        stands_of_leafPath (by decide) hchart hceiling hcourse.valid hpage⟩
    · exact ⟨Leaf.foodAssistance, by decide,
        stands_of_leafPath (by decide) hchart hceiling hcourse.valid hpage⟩
  obtain ⟨s', hcomes, hstepped⟩ := hs.exists_householdSteppedBack hmem hback
  refine ⟨s', hcomes, hstepped, hstepped.isBack_iff, fun hover => hpage.resolve_left ?_⟩
  intro hdetails
  exact Household.not_hasOvershot ((hcourse.inRange hchart).memberDetails hdetails) hover

/-- A size given as an answer. -/
def sized (n : Nat) : Json := .record [("household", .record [("numMembers", Json.nat n)])]

/-- On to the page for the second member after the applicant. -/
def advancing : List Call := .startAt "#household" :: List.replicate 4 (.send { name := next })

/-- The answer that the household has two members, with which one goes on. -/
def shrinking : Call := .send { name := next, data := sized 2 }

set_option maxRecDepth 100000 in
lemma shrinking_computed :
    ((Context.decode (sized 3)).any fun c =>
      let s₀ : Session Context Script Memory := Session.new scripted.chart c
      (advancing.foldlM (Session.call · 8 ·) s₀).any fun s =>
        decide (s.leafPath = "form.household.member-details" ∧
          s.machine.context.household.currentMember = 1 ∧
          s.machine.context.household.count = 3) &&
        (s.call 8 shrinking).any fun s' =>
          decide (s'.leafPath = "form.household.food-assistance" ∧
            s'.machine.context.household.HasOvershot)) = true := by
  decide +kernel

/-- What is computed of the household that shrinks. -/
lemma shrinking_leads : ∃ (c : Context) (s s' : Session Context Script Memory),
    Context.decode (sized 3) = some c ∧ Run (Session.new scripted.chart c) advancing s ∧
      (s.leafPath = "form.household.member-details" ∧
        s.machine.context.household.currentMember = 1 ∧
        s.machine.context.household.count = 3) ∧
      Run (Session.new scripted.chart c) (advancing ++ [shrinking]) s' ∧
      s'.leafPath = "form.household.food-assistance" ∧
      s'.machine.context.household.HasOvershot := by
  obtain ⟨c, hc, h⟩ := (Option.any_eq_true _ _).1 shrinking_computed
  obtain ⟨s, hs, h⟩ := (Option.any_eq_true _ _).1 h
  obtain ⟨hbefore, h⟩ := Bool.and_eq_true_iff.1 h
  obtain ⟨s', hs', h⟩ := (Option.any_eq_true _ _).1 h
  have run : Run (Session.new scripted.chart c) advancing s := .of_foldlM hs
  exact ⟨c, s, s', hc, run, of_decide_eq_true hbefore, run.snoc 8 shrinking hs',
    of_decide_eq_true h⟩

/-- The wizard is started at the section about the household, which has a global id. -/
lemma startsAtId_shrinking : ∀ reference, .startAt reference ∈ advancing ++ [shrinking] →
    ∃ i n id, scripted.chart.node? i = some n ∧ n.id = some id ∧ reference = "#" ++ id := by
  have hknown : (scripted.chart.nodes.zipIdx.any fun e => e.1.id == some "household") = true := by
    decide +kernel
  intro reference hreference
  obtain rfl : reference = "#household" := by
    simpa [advancing, shrinking] using hreference
  obtain ⟨e, he, hid⟩ := List.any_eq_true.1 hknown
  exact ⟨e.2, e.1, "household", List.mk_mem_zipIdx_iff_getElem?.1 he, beq_iff_eq.1 hid, rfl⟩

/-- From the second member after the applicant back to the first one. -/
theorem stepping_back_among_members_advancing :
    ∃ (c : Context) (s s' : Session Context Script Memory),
      Context.decode (sized 3) = some c ∧ Run (Session.new scripted.chart c) advancing s ∧
        s.machine.context.household.currentMember = 1 ∧
        s.ComesTo { name := previousMember } s' ∧ s'.leafPath = "form.household.member-details" ∧
        s'.machine.context.household = s.machine.context.household.movedTo 0 ∧ IsBack s' := by
  obtain ⟨c, s, -, hc, run, ⟨hpage, hcursor, hcount⟩, -⟩ := shrinking_leads
  have hchart : Wizard.chart =
      .ok (Session.new scripted.chart c : Session Context Script Memory).chart := scripted_chart
  have hceiling : 5 ≤ ({} : Settings).maxEventlessSteps := by decide
  obtain ⟨s', hcomes, hstepped, hback, -⟩ := stepping_back_among_members hchart hceiling rfl hc
    (fun reference h => startsAtId_shrinking reference (List.mem_append_left _ h)) run (.inl hpage)
    { name := previousMember } rfl
  obtain ⟨hpage', hhousehold⟩ := hstepped.later 0 hcursor (by rw [hcount]; decide)
  have hrange : ¬ s.machine.context.household.HasOvershot := by
    rw [Household.HasOvershot, hcursor, hcount]
    decide
  exact ⟨c, s, s', hc, run, hcursor, hcomes, hpage', hhousehold, hback.2 hrange⟩

/-- **In a household that shrinks one does not get back**: with two members left, stepping back from
the page after the loop leads to this page again. -/
theorem shrinking_stays : ∃ (c : Context) (s s' : Session Context Script Memory),
    Context.decode (sized 3) = some c ∧
      Run (Session.new scripted.chart c) (advancing ++ [shrinking]) s ∧
      s.leafPath = "form.household.food-assistance" ∧
      s.ComesTo { name := previousMember } s' ∧
      s'.leafPath = "form.household.food-assistance" ∧ ¬ IsBack s' := by
  obtain ⟨c, -, s, hc, -, -, run, hpage, hover⟩ := shrinking_leads
  have hchart : Wizard.chart =
      .ok (Session.new scripted.chart c : Session Context Script Memory).chart := scripted_chart
  have hceiling : 5 ≤ ({} : Settings).maxEventlessSteps := by decide
  obtain ⟨hsame, hsettings, hcourse⟩ :=
    onCourse_of_run hchart hceiling rfl (Context.valid_of_decode hc) startsAtId_shrinking run
  have hs : Stands Leaf.foodAssistance s.machine.context s :=
    stands_of_leafPath (by decide) (hsame ▸ hchart) (hsettings ▸ hceiling) hcourse.valid hpage
  obtain ⟨s', hcomes, hstepped⟩ := hs.exists_householdSteppedBack (by decide)
    (rfl : ({ name := previousMember } : Event).name = previousMember)
  exact ⟨c, s, s', hc, run, hpage, hcomes, (hstepped.overshot hover).1,
    fun hback => hstepped.isBack_iff.1 hback hover⟩

end Wizard

end FormChart.Registration
