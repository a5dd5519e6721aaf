import FormChart.Registration.Wizard.Parts

/-!
# The parts of the wizard that call services

The catalog is fetched before the first page of the form, and the application is submitted at the
end; both go on whatever the outcome is, and a failure is noted in the context.  Quitting drops
everything.

These are the sections `pre_registration`, `submit` and `quit` of the wizard, and the patches
`loading` and `server_error` that they write are `loadingField` and `failureField`.
-/

namespace FormChart.Registration.Wizard

variable {Env : Type}

/-- Notes whether the wizard waits for a service. -/
def loadingField (flag : Bool) : String × Json :=
  ("meta", (Activity.mk (some flag)).encode)

/-- Notes whether a service failed. -/
def failureField (failed : Bool) : String × Json := ("errors", (Faults.mk failed).encode)

/-- Takes over the catalog that was fetched. -/
def storeCatalog : Action Context :=
  .assign
    (fun _ e => Dict.ofList
      [loadingField false, failureField false, ("disasters", (Catalog.ofAnswer e.data).encode)])
    (fun _ e => if (Catalog.ofAnswer? e.data).isNone then [.catalogUnreadable] else [])

/-- Does without a catalog. -/
def missCatalog : Action Context :=
  .set [loadingField false, failureField true, ("disasters", ({} : Catalog).encode)]

/-- A context without answers, but with the registration that was filed in the applicant's
    name. -/
def filed (c : Context) (result : Json) : Context :=
  let filing := Filing.ofResult result
  let filing :=
    match c.household.applicant? with
    | some applicant => { filing with applicantName := applicant.name.full }
    | none => filing
  { c.reset with errors := {}, registration := filing }

/-- The section before the form. -/
def preRegistration [Services Env] : WizardNode Env :=
  { compound "pre-registration" "loading"
      [ { atomic "loading" with
          entry := [.set [loadingField true]]
          invoke := some {
            id := "getDisasters"
            task := fun _ => fetchCatalog
            onDone := [(Arrow.goto "set-up").doing [storeCatalog]]
            onError := [(Arrow.goto "set-up").doing [missCatalog]] } }
      , { atomic "set-up" with
          route := some "/form/pre-registration"
          entry := [.set [("currentSection", .str "pre-registration"), ("currentStep", .str "")]]
          on := [(next, .forwardTo "#get-prepared")] } ] with
    id := some "pre-registration"
    entry := [.keep]
    exit := [.set [("previousSection", .str "pre-registration")], .keep] }

/-- The section that submits the application. -/
def submit [Services Env] : WizardNode Env :=
  { compound "submit" "sign-and-submit"
      [ { atomic "sign-and-submit" with
          route := some "/form/submit/sign-and-submit"
          on := [(next, .forwardTo "finalize")] }
      , { atomic "finalize" with
          invoke := some {
            id := "submitApplication"
            task := fileApplication
            onDone := [(Arrow.goto "#next-steps").doing
              [.forget, .assign fun c e => (filed c e.data).toPatch]]
            onError := [(Arrow.goto "sign-and-submit").doing [.set [failureField true]]] } } ] with
    id := some "submit"
    entry := [.set [("currentSection", .str "submit"), ("currentStep", .str "sign-and-submit")]] }

/-- The way out, which drops all answers. -/
def quitting : WizardNode Env :=
  { atomic "quit" with
    invoke := some {
      id := "clearSessionState"
      task := fun _ => Task.succeed .null
      onDone := [(Arrow.goto "#welcome").doing [.forget, startOver]] } }

end FormChart.Registration.Wizard
