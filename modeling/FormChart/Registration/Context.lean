import FormChart.Registration.Household
import FormChart.Patch

/-!
# The context of the registration wizard

Everything that the wizard knows: the answers of the pages, the catalog of disasters, the filed
registration, the preferences, and where in the wizard the user stands.  The catalog, the activity,
the faults and the names of the current section and page are for the moment only
(`Context.transientFields`).

Each part is a record with an `encode` and a `decode`.  Decoding fills missing fields with the
defaults of the record and never refuses an answer that a form may give in several shapes.

What the context offers to the sections of the wizard: `reset` keeps the preferences and the catalog
only, `toPatch` is `to_patch`, `holder?` is `resource_member`, `withHolderChanged` is
`with_resource_member`.  Of the resources, `holderIndex?` is `current_holder`, `isOnMember` is
`has_pending_members`, `previousMember` is `previous_member_index` and `movedTo` is `with_cursor`.
-/

namespace FormChart.Registration

/-- Answers about the applicant. -/
structure BasicInfo where
  /-- Whether mail reaches the applicant at the address given. -/
  currentMailingAddress : Option Bool := none
  /-- Fields that the wizard has no use for. -/
  extra : Object := {}
  deriving DecidableEq, Inhabited

namespace BasicInfo

/-- The names of the fields that the wizard reads. -/
def fieldNames : List String := ["currentMailingAddress"]

/-- Whether a mailing address has to be asked for. -/
def asksForMailingAddress (b : BasicInfo) : Bool := b.currentMailingAddress == some false

def encode (b : BasicInfo) : Json :=
  .record ([("currentMailingAddress", Answer.ofFlag b.currentMailingAddress)] ++ b.extra.entries)

def decode (v : Json) : Option BasicInfo := do
  let fields ← v.object?
  some {
    currentMailingAddress :=
      ← fields.fieldOr "currentMailingAddress" none fun v => some (Answer.flag? v)
    extra := fields.without fieldNames }

end BasicInfo

/-- The members who have an income, and the cursor over them. -/
structure Resources where
  /-- Positions in the list of members. -/
  membersWithIncome : List Nat := []
  /-- The position in `membersWithIncome` whose pages are shown. -/
  currentMember : Nat := 0
  deriving DecidableEq, Inhabited

namespace Resources

/-- The position of the member at the cursor. -/
def holderIndex? (r : Resources) : Option Nat := r.membersWithIncome[r.currentMember]?

/-- Whether the cursor is still on a member. -/
def isOnMember (r : Resources) : Bool := r.currentMember < r.membersWithIncome.length

/-- The cursor one member back; a cursor beyond the end goes to the last member. -/
def previousMember (r : Resources) : Nat := min r.currentMember r.membersWithIncome.length - 1

/-- The resources with the cursor at another member. -/
def movedTo (r : Resources) (index : Nat) : Resources := { r with currentMember := index }

def encode (r : Resources) : Json :=
  .record [("membersWithIncome", .arr (r.membersWithIncome.map Json.nat)),
    ("currentMemberIndex", Json.nat r.currentMember)]

def decode (v : Json) : Option Resources := do
  let fields ← v.asRecord ["membersWithIncome", "currentMemberIndex"]
  some {
    membersWithIncome := ← fields.fieldOr "membersWithIncome" [] (Json.list? Json.nat64?)
    currentMember := ← fields.fieldOr "currentMemberIndex" 0 fun v => some (Answer.index v) }

end Resources

/-- A disaster for which one may register. -/
structure Disaster where
  id : String := ""
  title : String := ""
  requestNo : String := ""
  state : String := ""
  /-- Fields that the wizard has no use for. -/
  extra : Object := {}
  deriving DecidableEq, Inhabited

namespace Disaster

/-- The names of the fields that the wizard reads. -/
def fieldNames : List String := ["id", "title", "disaster_request_no", "state"]

def encode (d : Disaster) : Json :=
  .record ([("id", .str d.id), ("title", .str d.title), ("disaster_request_no", .str d.requestNo),
    ("state", .str d.state)] ++ d.extra.entries)

def decode (v : Json) : Option Disaster := do
  let fields ← v.object?
  some {
    id := ← fields.fieldOr "id" "" fun v => some (Answer.text v)
    title := ← fields.fieldOr "title" "" Json.str?
    requestNo := ← fields.fieldOr "disaster_request_no" "" Json.str?
    state := ← fields.fieldOr "state" "" Json.str?
    extra := fields.without fieldNames }

end Disaster

/-- The disasters by their ids. -/
structure Catalog where
  data : Dict Disaster := {}
  deriving DecidableEq, Inhabited

namespace Catalog

/-- The catalog of a list of disasters; the last one of an id counts. -/
def ofDisasters (disasters : List Disaster) : Catalog :=
  ⟨Dict.ofList (disasters.map fun d => (d.id, d))⟩

/-- The catalog that a service answered with; none if the answer is no list of disasters. -/
def ofAnswer? (v : Json) : Option Catalog := (v.list? Disaster.decode).map ofDisasters

/-- The catalog that a service answered with, empty if the answer makes no sense. -/
def ofAnswer (v : Json) : Catalog := (ofAnswer? v).getD {}

def encode (c : Catalog) : Json := .record [("data", .ofObject (c.data.map Disaster.encode))]

def decode (v : Json) : Option Catalog := do
  let fields ← v.asRecord ["data"]
  some { data := ← fields.fieldOr "data" {} (Json.dict? Disaster.decode) }

end Catalog

/-- The registration as it was filed. -/
structure Filing where
  id : String := ""
  createdAt : String := ""
  updatedAt : String := ""
  eligible : Option Bool := none
  applicantName : String := ""
  deriving DecidableEq, Inhabited

namespace Filing

/-- Whether the applicant was found eligible. -/
def isEligible (f : Filing) : Bool := f.eligible == some true

def encode (f : Filing) : Json :=
  .record [("id", .str f.id), ("createdAt", .str f.createdAt), ("updatedAt", .str f.updatedAt),
    ("eligible", Answer.ofFlag f.eligible), ("applicantName", .str f.applicantName)]

def decode (v : Json) : Option Filing := do
  let fields ← v.asRecord ["id", "createdAt", "updatedAt", "eligible", "applicantName"]
  some {
    id := ← fields.fieldOr "id" "" fun v => some (Answer.text v)
    createdAt := ← fields.fieldOr "createdAt" "" Json.str?
    updatedAt := ← fields.fieldOr "updatedAt" "" Json.str?
    eligible := ← fields.fieldOr "eligible" none fun v => some (Answer.flag? v)
    applicantName := ← fields.fieldOr "applicantName" "" Json.str? }

/-- The filing in the result of a submission; the blank filing if there is none. -/
def ofResult (v : Json) : Filing := ((v.field? "registration").bind decode).getD {}

end Filing

/-- Preferences of the user. -/
structure Preferences where
  /-- Whether progress may be kept. -/
  useLocalStorage : Option Bool := none
  language : String := "en"
  /-- The id of the disaster that was chosen. -/
  disaster : String := ""
  deriving DecidableEq, Inhabited

namespace Preferences

def encode (p : Preferences) : Json :=
  .record [("useLocalStorage", Answer.ofFlag p.useLocalStorage), ("language", .str p.language),
    ("disaster", .str p.disaster)]

def decode (v : Json) : Option Preferences := do
  let fields ← v.asRecord ["useLocalStorage", "language", "disaster"]
  some {
    useLocalStorage := ← fields.fieldOr "useLocalStorage" none fun v => some (Answer.flag? v)
    language := ← fields.fieldOr "language" "en" Json.str?
    disaster := ← fields.fieldOr "disaster" "" Json.str? }

end Preferences

/-- What the wizard is busy with. -/
structure Activity where
  loading : Option Bool := none
  deriving DecidableEq, Inhabited

namespace Activity

def encode (a : Activity) : Json := .record [("loading", Json.ofOption .bool a.loading)]

def decode (v : Json) : Option Activity := do
  let fields ← v.asRecord ["loading"]
  some { loading := ← fields.fieldOr "loading" none (Json.optional? Json.bool?) }

end Activity

/-- What went wrong. -/
structure Faults where
  /-- Whether a service failed. -/
  server : Bool := false
  deriving DecidableEq, Inhabited

namespace Faults

def encode (f : Faults) : Json := .record [("server", .bool f.server)]

/-- Any value is read; one without a sensible answer means that nothing went wrong. -/
def decode (v : Json) : Faults := ⟨((v.field? "server").bind Answer.flag?).getD false⟩

end Faults

/-- The number of numbered sections. -/
def totalSteps : Nat := 6

/-- The data behind the pages of the wizard. -/
structure Context where
  basicInfo : BasicInfo := {}
  household : Household := {}
  impact : Object := {}
  resources : Resources := {}
  submit : Object := {}
  disasters : Catalog := {}
  registration : Filing := {}
  config : Preferences := {}
  activity : Activity := {}
  /-- The part of the wizard that the current page belongs to, as it begins the page's address. -/
  area : String := ""
  currentSection : String := "welcome"
  currentStep : String := ""
  previousSection : String := ""
  previousStep : String := ""
  /-- The number of the current section. -/
  step : Nat := 0
  totalSteps : Nat := Registration.totalSteps
  errors : Faults := {}
  deriving DecidableEq, Inhabited

namespace Context

/-- The names of the fields in their order. -/
def fieldNames : List String :=
  ["basicInfo", "household", "impact", "resources", "submit", "disasters", "registration",
    "config", "meta", "prefix", "currentSection", "currentStep", "previousSection",
    "previousStep", "step", "totalSteps", "errors"]

/-- The fields that are for the moment only. -/
def transientFields : List String :=
  ["currentSection", "currentStep", "errors", "disasters", "meta"]

def encode (c : Context) : Json :=
  .record [("basicInfo", c.basicInfo.encode), ("household", c.household.encode),
    ("impact", .ofObject c.impact), ("resources", c.resources.encode),
    ("submit", .ofObject c.submit), ("disasters", c.disasters.encode),
    ("registration", c.registration.encode), ("config", c.config.encode),
    ("meta", c.activity.encode), ("prefix", .str c.area), ("currentSection", .str c.currentSection),
    ("currentStep", .str c.currentStep), ("previousSection", .str c.previousSection),
    ("previousStep", .str c.previousStep), ("step", Json.nat c.step),
    ("totalSteps", Json.nat c.totalSteps), ("errors", c.errors.encode)]

def decode (v : Json) : Option Context := do
  let fields ← v.asRecord fieldNames
  some {
    basicInfo := ← fields.fieldOr "basicInfo" {} BasicInfo.decode
    household := ← fields.fieldOr "household" {} Household.decode
    impact := ← fields.fieldOr "impact" {} Json.object?
    resources := ← fields.fieldOr "resources" {} Resources.decode
    submit := ← fields.fieldOr "submit" {} Json.object?
    disasters := ← fields.fieldOr "disasters" {} Catalog.decode
    registration := ← fields.fieldOr "registration" {} Filing.decode
    config := ← fields.fieldOr "config" {} Preferences.decode
    activity := ← fields.fieldOr "meta" {} Activity.decode
    area := ← fields.fieldOr "prefix" "" Json.str?
    currentSection := ← fields.fieldOr "currentSection" "welcome" Json.str?
    currentStep := ← fields.fieldOr "currentStep" "" Json.str?
    previousSection := ← fields.fieldOr "previousSection" "" Json.str?
    previousStep := ← fields.fieldOr "previousStep" "" Json.str?
    step := ← fields.fieldOr "step" 0 Json.nat32?
    totalSteps := ← fields.fieldOr "totalSteps" Registration.totalSteps Json.nat32?
    errors := ← fields.fieldOr "errors" {} fun v => some (Faults.decode v) }

instance : Model Context where
  fresh := {}
  encode := encode
  decode := decode
  transientFields := transientFields
  wantsKeeping c := c.config.useLocalStorage != some false

/-- A context without answers, with the preferences and the catalog of this one. -/
def reset (c : Context) : Context := { config := c.config, disasters := c.disasters }

/-- The patch that writes every field of a context. -/
def toPatch (c : Context) : Patch := c.encode.fieldsOrEmpty

/-- The member whose income is asked about. -/
def holder? (c : Context) : Option Member :=
  c.resources.holderIndex?.bind fun i => c.household.members[i]?

/-- The household with the member changed whose income is asked about. -/
def withHolderChanged (c : Context) (f : Member → Member) : Household :=
  match c.resources.holderIndex? with
  | some i => c.household.modifyMember i f
  | none => c.household

end Context

end FormChart.Registration
