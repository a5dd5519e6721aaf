import FormChart.Proofs.Registration.Steps

/-!
# The loop over the members

Between the pages `get-prepared` and `food-assistance` there is a page for every member of the
household after the applicant.  The way has `n + 1` stops if there are `n` members: stop 0 is
`get-prepared`, stop `n` is `food-assistance`, and at each stop but the first the cursor is one
behind the number of the stop (`Wizard.stop`).

An event that goes on leads from every stop to the next one, and one that steps back leads to the
one before (`Wizard.reaches_next_stop`, `Wizard.reaches_previous_stop`).  So **the members are
visited in their order and back**, and stepping back undoes going on
(`Wizard.members_are_visited`).
-/

namespace FormChart.Registration

namespace Wizard

/-! ## The steps of the loop -/

section

variable {c : Context} {event : Event}

/-- The decision whether there is a member to show. -/
lemma declared_memberDetailsLoop : layout.declared Leaf.memberDetailsLoop Event.eventless.name =
    [⟨some Leaf.memberDetails, some fun c => c.household.hasMemberAtCursor, [], false⟩,
      ⟨some Leaf.foodAssistance, none, [], false⟩] :=
  declared_of_mem Leaf.memberDetailsLoop [some Leaf.memberDetails, some Leaf.foodAssistance]
    (by decide) rfl rfl

lemma declared_memberDetailsNext : layout.declared Leaf.memberDetailsNext Event.eventless.name =
    [⟨some Leaf.memberDetailsLoop, none, [setMember fun h => h.currentMember + 1], false⟩] :=
  declared_of_mem Leaf.memberDetailsNext [some Leaf.memberDetailsLoop] (by decide) rfl rfl

/-- What stepping back does is up to the section. -/
lemma declared_previousMember_household {page : NodeId}
    (hpage : page ∈ [Leaf.memberDetails, Leaf.foodAssistance]) :
    layout.declared page previousMember =
      [⟨some Leaf.howMany, some fun c => c.household.count ≤ 1, [], false⟩,
        ⟨some Leaf.getPrepared, some fun c => c.household.currentMember == 0, [], false⟩,
        ⟨some Leaf.memberDetailsLoop, none, [setMember fun h => h.currentMember - 1, .keep],
          false⟩] := by
  have hoffer : ⟨page, previousMember, householdSection,
      [some Leaf.howMany, some Leaf.getPrepared, some Leaf.memberDetailsLoop]⟩ ∈ offers := by
    revert page
    decide
  exact declared_of_mem householdSection _ hoffer rfl rfl

/-- On to a member that is left. -/
lemma takes_memberDetails (h : c.household.hasMemberAtCursor = true) :
    Takes .eventless Leaf.memberDetailsLoop c Leaf.memberDetails c :=
  takes_of_declared [] declared_memberDetailsLoop (by simp)
    (fun c' hc' => by simp [hc'.household, h]) (way_of_mem (_, _) (by decide)) (turns_nil c)
    (turns_page Leaf.memberDetails rfl rfl (turns_nil c))

/-- On to the next page if no member is left. -/
lemma takes_foodAssistance (h : c.household.hasMemberAtCursor = false) :
    Takes .eventless Leaf.memberDetailsLoop c Leaf.foodAssistance c :=
  takes_of_declared [_] declared_memberDetailsLoop
    (fun c' hc' => by simp [Transition.isEnabled, hc'.household, h]) (fun _ _ => rfl)
    (way_of_mem (_, _) (by decide)) (turns_nil c)
    (turns_page Leaf.foodAssistance rfl rfl (turns_nil c))

/-- One member is done. -/
lemma takes_memberDetailsNext (h : c.household.currentMember + 1 < wordBound) :
    Takes .eventless Leaf.memberDetailsNext c Leaf.memberDetailsLoop
      (c.atMember (c.household.currentMember + 1)) :=
  takes_of_declared [] declared_memberDetailsNext (by simp) (fun _ _ => rfl)
    (way_of_mem (_, _) (by decide)) (turns_setMember h)
    (turns_of_entry_nil Leaf.memberDetailsLoop rfl rfl _)

/-- Back to the question about the size if there is nobody but the applicant. -/
lemma takes_howMany {page : NodeId} (hname : event.name = previousMember)
    (hpage : page ∈ [Leaf.memberDetails, Leaf.foodAssistance]) (halone : c.household.count ≤ 1) :
    Takes event page c Leaf.howMany c := by
  have hway : (page, Leaf.howMany) ∈ directWays := by revert page; decide
  have hdeclared := declared_previousMember_household hpage
  rw [← hname] at hdeclared
  exact takes_of_declared [] hdeclared (by simp)
    (fun c' hc' => by simpa [hc'.household] using halone) (way_of_mem _ hway) (turns_nil c)
    (turns_page Leaf.howMany rfl rfl (turns_nil c))

/-- Back from the first member. -/
lemma takes_getPrepared {page : NodeId} (hname : event.name = previousMember)
    (hpage : page ∈ [Leaf.memberDetails, Leaf.foodAssistance]) (hcount : 1 < c.household.count)
    (hfirst : c.household.currentMember = 0) : Takes event page c Leaf.getPrepared c := by
  have hway : (page, Leaf.getPrepared) ∈ directWays := by revert page; decide
  have hdeclared := declared_previousMember_household hpage
  rw [← hname] at hdeclared
  refine takes_of_declared [_] hdeclared (fun c' hc' => ?_) (fun c' hc' => ?_) (way_of_mem _ hway)
    (turns_nil c) (turns_page Leaf.getPrepared rfl rfl (turns_nil c))
  · simpa [Transition.isEnabled, hc'.household] using hcount
  · simp [hc'.household, hfirst]

/-- Back to the member before. -/
lemma takes_memberDetailsLoop {page : NodeId} (hname : event.name = previousMember)
    (hpage : page ∈ [Leaf.memberDetails, Leaf.foodAssistance]) (hcount : 1 < c.household.count)
    (hnotFirst : c.household.currentMember ≠ 0) (hbound : c.household.currentMember < wordBound) :
    Takes event page c Leaf.memberDetailsLoop (c.atMember (c.household.currentMember - 1)) := by
  have hway : (page, Leaf.memberDetailsLoop) ∈ directWays := by revert page; decide
  have hdeclared := declared_previousMember_household hpage
  rw [← hname] at hdeclared
  refine takes_of_declared [_, _] hdeclared (fun c' hc' => ?_) (fun _ _ => rfl) (way_of_mem _ hway)
    (turns_setMember (Nat.lt_of_le_of_lt (Nat.sub_le _ 1) hbound)).keep
    (turns_of_entry_nil Leaf.memberDetailsLoop rfl rfl _)
  simpa [Transition.isEnabled, hc'.household, hnotFirst] using hcount

end

/-! ## From stop to stop -/

/-- The page at a stop of the way through a household of a certain size. -/
def stop (count k : Nat) : NodeId :=
  if k = 0 then Leaf.getPrepared else if k < count then Leaf.memberDetails else Leaf.foodAssistance

lemma stop_of_pos {count k : Nat} (hpos : 0 < k) (hlt : k < count) :
    stop count k = Leaf.memberDetails := by
  rw [stop, if_neg (Nat.ne_of_gt hpos), if_pos hlt]

lemma stop_of_le {count k : Nat} (hpos : 0 < k) (hle : count ≤ k) :
    stop count k = Leaf.foodAssistance := by
  rw [stop, if_neg (Nat.ne_of_gt hpos), if_neg (Nat.not_lt.2 hle)]

lemma isPage_stop (count k : Nat) : IsPage (stop count k) := by
  unfold stop
  split_ifs <;> exact isPage_of_mem (by decide)

/-- A stop after the first one is a page from which one can step back. -/
lemma stop_mem {count k : Nat} (hpos : 0 < k) :
    stop count k ∈ [Leaf.memberDetails, Leaf.foodAssistance] := by
  rw [stop, if_neg (Nat.ne_of_gt hpos)]
  split_ifs <;> simp

section

variable {c : Context} {event : Event} {k : Nat}

/-- The decision leads to the stop that is one ahead of the cursor. -/
lemma settles_stop (c : Context) (k : Nat) :
    Settles Leaf.memberDetailsLoop (c.atMember k) (stop c.household.count (k + 1))
      (c.atMember k) := by
  have hrests := (isPage_stop c.household.count (k + 1)).rests
  by_cases hleft : k + 1 < c.household.count
  · rw [stop_of_pos (Nat.succ_pos k) hleft] at hrests ⊢
    exact (takes_memberDetails (decide_eq_true hleft)).settles (settles_refl hrests _)
  · rw [stop_of_le (Nat.succ_pos k) (Nat.le_of_not_lt hleft)] at hrests ⊢
    exact (takes_foodAssistance (decide_eq_false hleft)).settles (settles_refl hrests _)

/-- **On to the next stop.** -/
lemma reaches_next_stop (hname : event.name = next) (hpayload : event.payload = {})
    (hbound : c.household.count < wordBound) (hk : k < c.household.count) :
    Reaches event (stop c.household.count k) (c.atMember (k - 1)) (stop c.household.count (k + 1))
      (c.atMember k) := by
  cases k with
  | zero =>
      have hon : Takes event Leaf.getPrepared (c.atMember 0) Leaf.memberDetailsLoop
          (c.atMember 0) := takes_onward (by decide) hname hpayload _
      exact hon.reaches (settles_stop c 0)
  | succ k =>
      rw [stop_of_pos (Nat.succ_pos k) hk]
      -- the member is done, so the cursor moves before the decision
      have hdone : Takes .eventless Leaf.memberDetailsNext (c.atMember k) Leaf.memberDetailsLoop
          (c.atMember (k + 1)) := takes_memberDetailsNext (hk.trans hbound)
      exact (takes_onward (by decide) hname hpayload _).reaches
        (hdone.settles (settles_stop c (k + 1)))

/-- **Back to the stop before.** -/
lemma reaches_previous_stop (hname : event.name = previousMember)
    (hbound : c.household.count < wordBound) (hcount : 1 < c.household.count)
    (hk : k < c.household.count) :
    Reaches event (stop c.household.count (k + 1)) (c.atMember k) (stop c.household.count k)
      (c.atMember (k - 1)) := by
  have hmem : stop c.household.count (k + 1) ∈ _ := stop_mem (Nat.succ_pos k)
  cases k with
  | zero =>
      have hback : Takes event (stop c.household.count 1) (c.atMember 0) Leaf.getPrepared
          (c.atMember 0) := takes_getPrepared hname hmem hcount rfl
      exact hback.reaches (settles_refl (isPage_stop c.household.count 0).rests _)
  | succ k =>
      have hback : Takes event (stop c.household.count (k + 1 + 1)) (c.atMember (k + 1))
          Leaf.memberDetailsLoop (c.atMember k) :=
        takes_memberDetailsLoop hname hmem hcount (Nat.succ_ne_zero k) (hk.trans hbound)
      exact hback.reaches (settles_stop c k)

end

/-! ## The whole way -/

variable {Env S : Type} [Services Env] [Storage S]

/-- Whether a session shows a page, with the household of a context but for the cursor over the
members. -/
structure ShowsMember (c : Context) (page : String) (index : Nat) (s : Session Context Env S) :
    Prop where
  page : s.leafPath = page
  household : s.machine.context.household = c.household.movedTo index

/-- Whether one event undoes another one: sent one after the other, they lead back to the page and
the household. -/
def Undone (event undoing : Event) (s : Session Context Env S) : Prop :=
  ∃ s' s'', s.ComesTo event s' ∧ s'.ComesTo undoing s'' ∧ s''.leafPath = s.leafPath ∧
    s''.machine.context.household = s.machine.context.household

section

variable {s : Session Context Env S} {c : Context} {k : Nat} {forward backward : Event}

omit [Storage S] in
/-- What is seen at a stop. -/
lemma Stands.showsMember {index : Nat}
    (h : Stands (stop c.household.count k) (c.atMember index) s) :
    ShowsMember c (layout.pathOf (stop c.household.count k)) index s :=
  ⟨h.leafPath, h.agrees.household⟩

/-- A step back from the next stop undoes the step to it. -/
lemma undone_of_stands (h : Stands (stop c.household.count k) (c.atMember (k - 1)) s)
    (hforward : forward.name = next) (hpayload : forward.payload = {})
    (hbackward : backward.name = previousMember) (hbound : c.household.count < wordBound)
    (hcount : 1 < c.household.count) (hk : k < c.household.count) :
    Undone forward backward s := by
  obtain ⟨s', hnext, hs'⟩ := h.exists_comesTo (isPage_stop _ _)
    (reaches_next_stop hforward hpayload hbound hk)
  obtain ⟨s'', hback, hs''⟩ := hs'.exists_comesTo (isPage_stop _ _)
    (reaches_previous_stop hbackward hbound hcount hk)
  exact ⟨s', s'', hnext, hback, hs''.leafPath.trans h.leafPath.symm,
    hs''.agrees.household.trans h.agrees.household.symm⟩

end

/-- **The members are visited in their order, and back.**  Take a session that shows the page before
the loop, with the cursor at the first member after the applicant, and a household of two members at
least.

* As many events that go on as there are members lead to the page after the loop.  In between, the
  page for a member is shown, with the cursor first at 0 and then one further each time.
* As many events that step back lead to the page before the loop again, by the same pages with the
  same cursors in the opposite order.
* Wherever one goes on from, a step back right after it leads to the same page with the same
  household. -/
theorem members_are_visited {s : Session Context Env S} (hchart : Wizard.chart = .ok s.chart)
    (hceiling : 5 ≤ s.settings.maxEventlessSteps) {v : Json}
    (hcontext : Context.decode v = some s.machine.context) (hbounded : s.machine.context.Bounded)
    (hpage : s.leafPath = "form.household.get-prepared")
    (hcursor : s.machine.context.household.currentMember = 0) {n : Nat}
    (hn : s.machine.context.household.count = n) (hcount : 2 ≤ n) (forward backward : Event)
    (hforward : forward.name = next) (hpayload : forward.payload = {})
    (hbackward : backward.name = previousMember) :
    ∃ forth back : Nat → Session Context Env S, forth 0 = s ∧ back 0 = forth n ∧
      (∀ k < n, (forth k).ComesTo forward (forth (k + 1)) ∧
        (back k).ComesTo backward (back (k + 1))) ∧
      (∀ k, 1 ≤ k → k ≤ n - 1 →
        ShowsMember s.machine.context "form.household.member-details" (k - 1) (forth k) ∧
        ShowsMember s.machine.context "form.household.member-details" (n - 1 - k) (back k)) ∧
      ShowsMember s.machine.context "form.household.food-assistance" (n - 1) (forth n) ∧
      ShowsMember s.machine.context "form.household.get-prepared" 0 (back n) ∧
      ∀ k < n, Undone forward backward (forth k) ∧ Undone forward backward (back (k + 1)) := by
  have hvalid := Context.valid_of_decode hcontext
  have hbound := hbounded.count_lt hvalid.household
  have hstart : Stands Leaf.getPrepared s.machine.context s :=
    stands_of_leafPath (by decide) hchart hceiling hvalid hpage
  have hfirst : s.machine.context.atMember 0 = s.machine.context := by
    rw [Context.atMember, Household.movedTo, ← hcursor]
  generalize s.machine.context = c at *
  subst hn
  have hzero : Stands (stop c.household.count 0) (c.atMember 0) s := hfirst ▸ hstart
  obtain ⟨forth, hforth₀, hforth, hat⟩ := Session.exists_walk
    (P := fun k => Stands (stop c.household.count k) (c.atMember (k - 1)))
    (fun k hk t ht => ht.exists_comesTo (isPage_stop _ _)
      (reaches_next_stop hforward hpayload hbound hk)) hzero
  obtain ⟨back, hback₀, hback, hat'⟩ := Session.exists_walk
    (n := c.household.count) (s := forth c.household.count)
    (P := fun k => Stands (stop c.household.count (c.household.count - k))
      (c.atMember (c.household.count - k - 1)))
    (fun k hk t ht => by
      obtain ⟨j, hj⟩ : ∃ j, c.household.count - k = j + 1 := ⟨c.household.count - k - 1, by omega⟩
      rw [hj] at ht
      rw [show c.household.count - (k + 1) = j by omega]
      have hlt : j < c.household.count := by omega
      exact ht.exists_comesTo (isPage_stop _ _)
        (reaches_previous_stop hbackward hbound hcount hlt)) (hat _ le_rfl)
  have hinside : ∀ k, 1 ≤ k → k ≤ c.household.count - 1 →
      layout.pathOf (stop c.household.count k) = "form.household.member-details" := by
    intro k hpos hle
    rw [stop_of_pos hpos (by omega)]
    exact pathOf_of_mem (by decide)
  refine ⟨forth, back, hforth₀, hback₀, fun k hk => ⟨hforth k hk, hback k hk⟩,
    fun k hpos hle => ⟨?_, ?_⟩, ?_, ?_, fun k hk => ⟨?_, ?_⟩⟩
  · exact hinside k hpos hle ▸ (hat k (by omega)).showsMember
  · have hshown := (hat' k (by omega)).showsMember
    rwa [hinside _ (by omega) (by omega), Nat.sub_right_comm] at hshown
  · have hshown := (hat _ le_rfl).showsMember
    rwa [stop_of_le (by omega) le_rfl] at hshown
  · have hshown := (hat' _ le_rfl).showsMember
    rwa [Nat.sub_self] at hshown
  · exact undone_of_stands (hat k hk.le) hforward hpayload hbackward hbound hcount hk
  · have hlt : c.household.count - (k + 1) < c.household.count := by omega
    exact undone_of_stands (hat' (k + 1) hk) hforward hpayload hbackward hbound hcount hlt

/-- A session before the pages for the two members after the applicant. -/
def gathering : Session Context Script Memory :=
  { Session.new scripted.chart {} with
    machine := {
      context := {
        household := {
          numMembers := some 3
          members := [{ name := { first := "Ann" } }, { name := { first := "Bea" } },
            { name := { first := "Cal" } }] } }
      leaf := some Leaf.getPrepared } }

/-- Two members are shown, and then shown again on the way back. -/
theorem members_are_visited_gathering :
    ∃ forth back : Nat → Session Context Script Memory, forth 0 = gathering ∧ back 0 = forth 3 ∧
      (∀ k < 3, (forth k).ComesTo { name := next } (forth (k + 1)) ∧
        (back k).ComesTo { name := previousMember } (back (k + 1))) ∧
      ShowsMember gathering.machine.context "form.household.member-details" 0 (forth 1) ∧
      ShowsMember gathering.machine.context "form.household.member-details" 1 (forth 2) ∧
      ShowsMember gathering.machine.context "form.household.food-assistance" 2 (forth 3) ∧
      ShowsMember gathering.machine.context "form.household.member-details" 1 (back 1) ∧
      ShowsMember gathering.machine.context "form.household.member-details" 0 (back 2) ∧
      ShowsMember gathering.machine.context "form.household.get-prepared" 0 (back 3) := by
  have hchart : Wizard.chart = .ok gathering.chart := scripted_chart
  have hceiling : 5 ≤ gathering.settings.maxEventlessSteps := by decide
  have hcontext : Context.decode gathering.machine.context.encode =
      some gathering.machine.context := by decide +kernel
  have hbounded : gathering.machine.context.Bounded :=
    ⟨by decide +kernel, by decide +kernel, by decide +kernel⟩
  have hpage : gathering.leafPath = "form.household.get-prepared" :=
    (leafPath_eq_layout hchart rfl).trans (pathOf_of_mem (by decide))
  obtain ⟨forth, back, hforth, hback, hsteps, hinside, hlast, hfirst, -⟩ :=
    members_are_visited (n := 3) hchart hceiling hcontext hbounded hpage rfl rfl (by decide)
      { name := next } { name := previousMember } rfl rfl rfl
  exact ⟨forth, back, hforth, hback, hsteps, (hinside 1 (by decide) (by decide)).1,
    (hinside 2 (by decide) (by decide)).1, hlast, (hinside 1 (by decide) (by decide)).2,
    (hinside 2 (by decide) (by decide)).2, hfirst⟩

end Wizard

end FormChart.Registration
