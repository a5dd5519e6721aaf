import FormChart.Registration.Context
import FormChart.Json.Printer
import FormChart.Task

/-!
# The services behind the wizard

The wizard asks for the catalog of disasters, files a registration, and asks whether the applicant
is eligible.  Who answers is a parameter (`Services`): the operations act on states of the
environment, so answers may depend on what was asked before.

* `fetchCatalog` is the task that asks for the catalog;
* `fileApplication` files the registration and then asks about eligibility, with the data that
  the filing was answered with.  **If the filing fails nothing is asked about eligibility.**

The requests `disasters`, `create_registration` and `create_eligibility` are the fields `catalog`,
`file` and `judge` of `Services`; the tasks `fetch_disasters` and `submit_application` are
`fetchCatalog` and `fileApplication`, and `registration_from` is `Filing.ofResult`.
-/

namespace FormChart.Registration

/-- Why a service did not answer. -/
inductive ServiceError where
  | http (status : Nat) (message : String)
  | unreachable (message : String)
  | invalidResponse (message : String)
  deriving DecidableEq, Repr

namespace ServiceError

/-- The wording of a service error. -/
def message : ServiceError → String
  | .http status message =>
    "Request failed with status " ++ toString status ++ ": " ++ message
  | .unreachable message => "Service unreachable: " ++ message
  | .invalidResponse message => "Unexpected response: " ++ message

/-- The error of the task that asked. -/
def toTaskError : ServiceError → TaskError
  | .unreachable message => .unavailable message
  | e => .rejected e.message

end ServiceError

/-- The answer to a filing. -/
structure Receipt where
  id : Json
  createdDate : String
  modifiedDate : String
  /-- What the question about eligibility has to repeat. -/
  filedData : Json
  deriving DecidableEq

namespace Receipt

def decode (v : Json) : Option Receipt := do
  let fields ← v.asRecord ["id", "created_date", "modified_date", "original_data"]
  some {
    id := ← fields.field "id" some
    createdDate := ← fields.field "created_date" Json.str?
    modifiedDate := ← fields.field "modified_date" Json.str?
    filedData := ← fields.field "original_data" some }

/-- The id as text: a text as it is, any other value in its compact form. -/
def idText (r : Receipt) : String :=
  match r.id with
  | .str s => s
  | v => v.compact

end Receipt

/-- The answer about eligibility. -/
structure Verdict where
  eligible : Bool
  deriving DecidableEq, Repr

namespace Verdict

def decode (v : Json) : Option Verdict := do
  let fields ← v.asRecord ["eligible"]
  some { eligible := ← fields.field "eligible" Json.bool? }

end Verdict

/-- Environments in which the services can be asked. -/
class Services (Env : Type) where
  /-- Asks for the catalog of disasters. -/
  catalog : Env → Except ServiceError (List Json) × Env
  /-- Files a registration. -/
  file : Env → Context → Except ServiceError Receipt × Env
  /-- Asks whether the applicant is eligible. -/
  judge : Env → Json → Except ServiceError Verdict × Env

/-- The registration as it stands after both answers; it does not bear a name yet. -/
def Filing.ofAnswers (receipt : Receipt) (verdict : Verdict) : Filing :=
  { id := receipt.idText
    createdAt := receipt.createdDate
    updatedAt := receipt.modifiedDate
    eligible := some verdict.eligible }

variable {Env : Type} [Services Env]

/-- Asks for the catalog of disasters. -/
def fetchCatalog : Task Env := fun env =>
  match Services.catalog env with
  | (.error e, env) => (.error e.toTaskError, env)
  | (.ok disasters, env) => (.ok (.arr disasters), env)

/-- Files the registration of a context and asks about eligibility. -/
def fileApplication (context : Context) : Task Env := fun env =>
  match Services.file env context with
  | (.error e, env) => (.error e.toTaskError, env)
  | (.ok receipt, env) =>
    match Services.judge env receipt.filedData with
    | (.error e, env) => (.error e.toTaskError, env)
    | (.ok verdict, env) =>
      (.ok (.record [("registration", (Filing.ofAnswers receipt verdict).encode)]), env)

end FormChart.Registration
