import FormChart.Registration.Wizard.Members
import FormChart.Registration.Wizard.Jobs
import FormChart.Registration.Wizard.Calls
import FormChart.Chart.Build
import FormChart.Session.Basic

/-!
# The registration wizard

The whole wizard: the welcome page, then the form with its sections in order, the review of the
answers, the submission and its outcome.  `Wizard.blueprint` is the tree (`app`), `Wizard.chart`
what is built of it, and `Wizard.session` an interpreter over it that resumes what was kept of an
earlier one.
-/

namespace FormChart.Registration.Wizard

variable {Env : Type}

/-- The page before the form. -/
def welcome : WizardNode Env :=
  { compound "welcome" "welcome"
      [ { atomic "welcome" with
          route := some "/welcome"
          entry := [.set [("currentSection", .str "welcome"), ("currentStep", .str "")], .keep]
          exit := [.set [("previousSection", .str "welcome")], .keep]
          on := [(next, .forwardTo "#form")] } ] with
    id := some "welcome" }

/-- The page that says what to have at hand. -/
def getPrepared : WizardNode Env :=
  { atomic "get-prepared" with
    id := some "get-prepared"
    route := some "/form/get-prepared"
    entry := [.set [("currentSection", .str "get-prepared"), ("currentStep", .str "")]]
    exit := [.set [("previousSection", .str "get-prepared"), ("previousStep", .str "")]]
    on := [(next, .forwardTo "#basic-info")] }

/-- The section about the applicant. -/
def basicInfo : WizardNode Env :=
  sectionNode "basic-info" 1 "applicant-name"
    [ entering (pageTo "basic-info" "applicant-name" "address") [.log "enter applicant name"]
    , pageTo "basic-info" "address" "mailing-address-check"
    , decision "mailing-address-check"
        [.gotoIf "mailing-address" fun c => c.basicInfo.asksForMailingAddress, .goto "shortcut"]
    , pageTo "basic-info" "mailing-address" "shortcut"
    , { page "basic-info" "shortcut" with
        on := [(exit, .goto "#submit"), (next, .forwardTo "#identity")] } ]

/-- The section about the applicant's identity. -/
def identity : WizardNode Env :=
  sectionNode "identity" 2 "personal-info" [pageTo "identity" "personal-info" "#household"]

/-- The section about what the disaster did. -/
def impact : WizardNode Env :=
  sectionNode "impact" 4 "adverse-effects" [pageTo "impact" "adverse-effects" "#resources"]

/-- The review of the answers, in which they can be edited. -/
def review : WizardNode Env :=
  { compound "review" "default"
      [ { atomic "default" with
          route := some "/form/review"
          on := [(next, .forwardTo "#submit"), (edit, .goto "edit")] }
      , { atomic "edit" with
          route := some "/form/review"
          entry := [.forward, .keep]
          on := [(next, .forwardTo "#submit")] } ] with
    id := some "review"
    entry := [.set [("currentSection", .str "review"), ("currentStep", .str "review"),
      ("step", .nat 6)], .keep]
    exit := [.set [("previousSection", .str "review"), ("previousStep", .str "review")]]
    on := [(firstMember, .goto "#resources")] }

/-- An end of the wizard. -/
def outcome (key : String) : WizardNode Env :=
  { key, kind := .final
    route := some ("/form/next-steps/" ++ key)
    entry := [.set [("currentStep", .str key)]] }

/-- What comes of the application. -/
def nextSteps : WizardNode Env :=
  { compound "next-steps" "eligibility"
      [ decision "eligibility"
          [.gotoIf "eligible" fun c => c.registration.isEligible, .goto "ineligible"]
      , outcome "eligible"
      , outcome "ineligible" ] with
    id := some "next-steps"
    entry := [.set [("currentSection", .str "next-steps")]] }

/-- The form. -/
def form [Services Env] : WizardNode Env :=
  { compound "form" "pre-registration"
      [preRegistration, getPrepared, basicInfo, identity, household, impact, resources, review,
        submit, nextSteps, quitting] with
    id := some "form"
    entry := [.set [("prefix", .str "form")]]
    exit := [.set [("prefix", .str "")]]
    on := [(quit, .goto ".quit"),
      (reset, (Arrow.goto "#welcome").doing [.forget, startOver])] }

/-- The whole wizard. -/
def blueprint [Services Env] : WizardNode Env :=
  compound "app" "idle" [atomic "idle", welcome, form]

/-- The chart of the wizard. -/
def chart [Services Env] : Except (List Defect) (Chart Context Env) := blueprint.build

/-- A session of a chart that resumes what is kept in a storage.  An empty slot is filled from the
    fixture that the settings name; `readFixture` gives the text of a fixture, if it can be
    read. -/
def session {S : Type} [Storage S] (chart : Chart Context Env) (settings : Settings) (storage : S)
    (readFixture : String → Option String) : Session Context Env S :=
  let slot : Slot S := ⟨storage, settings.storageKey⟩
  let (context, slot, notices) :=
    slot.resume (C := Context) (settings.fixturePath.map readFixture)
  { chart, machine := { context }, settings, slot := some slot, notices }

end FormChart.Registration.Wizard
