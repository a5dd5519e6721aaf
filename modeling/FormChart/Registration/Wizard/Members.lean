import FormChart.Registration.Wizard.Parts

/-!
# The section about the household

After the number of members and their names, a page is shown for every member after the applicant.
The cursor of the household walks over them: forward from `member-details` through
`member-details-next`, back by the event `previousMember`, and `member-details-loop` decides
whether there is a member to show.  `setMember` is the section's `set_cursor`.
-/

namespace FormChart.Registration.Wizard

variable {Env : Type}

/-- Moves the cursor over the members. -/
def setMember (index : Household → Nat) : Action Context :=
  setHousehold fun c => c.household.movedTo (index c.household)

/-- The section about the household. -/
def household : WizardNode Env :=
  { sectionNode "household" 3 "how-many"
      [ pageTo "household" "how-many" "member-info-branch"
      , decision "member-info-branch"
          [.gotoIf "member-names" fun c => 1 < c.household.count, .goto "food-assistance"]
      , entering (pageTo "household" "member-names" "get-prepared") [setMember fun _ => 0]
      , pageTo "household" "get-prepared" "member-details-loop"
      , decision "member-details-loop"
          [.gotoIf "member-details" fun c => c.household.hasMemberAtCursor,
            .goto "food-assistance"]
      , pageTo "household" "member-details" "member-details-next"
      , decision "member-details-next"
          [(Arrow.goto "member-details-loop").doing [setMember fun h => h.currentMember + 1]]
      , pageTo "household" "food-assistance" "#impact" ] with
    on :=
      [ (previousMember, .gotoIf ".how-many" fun c => c.household.count ≤ 1)
      , (previousMember, .gotoIf ".get-prepared" fun c => c.household.currentMember == 0)
      , (previousMember,
          (Arrow.goto ".member-details-loop").doing
            [setMember fun h => h.currentMember - 1, .keep]) ] }

end FormChart.Registration.Wizard
