import FormChart.Registration.Answer

/-!
# The household

The people of a household, their jobs, and the two cursors with which the wizard walks over them:
one over the members after the applicant (`Household.currentMember`), and one over the jobs of a
member (`Income.currentJob`).  Members and their incomes also hold fields that the wizard has no
use for; these are kept in `extra` and written back beside the others.

`Member.hasJob` and `Member.hasOtherJob` are the readings `has_job` and `has_other_jobs` of the
member's answers, `hasMemberAtCursor` is `has_additional_members`, and `movedTo` is `with_cursor`.
-/

namespace FormChart.Registration

/-- The name of a person. -/
structure Name where
  first : String := ""
  middle : String := ""
  last : String := ""
  deriving DecidableEq, Inhabited

namespace Name

/-- The parts of a name that are not blank, in order, with one space between them. -/
def full (n : Name) : String :=
  " ".intercalate (([n.first, n.middle, n.last].map trim).filter (· != ""))

def encode (n : Name) : Json :=
  .record [("firstName", .str n.first), ("middleName", .str n.middle), ("lastName", .str n.last)]

def decode (v : Json) : Option Name := do
  let fields ← v.asRecord ["firstName", "middleName", "lastName"]
  some {
    first := ← fields.fieldOr "firstName" "" Json.str?
    middle := ← fields.fieldOr "middleName" "" Json.str?
    last := ← fields.fieldOr "lastName" "" Json.str? }

end Name

/-- A job of a member. -/
structure Job where
  employer : String := ""
  /-- What the job pays, as it was answered. -/
  pay : String := ""
  /-- Whether the employer is an agency of the programme. -/
  isAgency : Option Bool := none
  deriving DecidableEq, Inhabited

namespace Job

def encode (j : Job) : Json :=
  .record [("employerName", .str j.employer), ("pay", .str j.pay),
    ("isDsnapAgency", Answer.ofFlag j.isAgency)]

def decode (v : Json) : Option Job := do
  let fields ← v.asRecord ["employerName", "pay", "isDsnapAgency"]
  some {
    employer := ← fields.fieldOr "employerName" "" Json.str?
    pay := ← fields.fieldOr "pay" "" fun v => some (Answer.text v)
    isAgency := ← fields.fieldOr "isDsnapAgency" none fun v => some (Answer.flag? v) }

end Job

/-- What a member owns and earns. -/
structure Income where
  hasIncome : Option Bool := none
  /-- The job whose page is shown. -/
  currentJob : Nat := 0
  jobs : List Job := []
  /-- Fields that the wizard has no use for. -/
  extra : Object := {}
  deriving DecidableEq, Inhabited

namespace Income

/-- The names of the fields that the wizard reads. -/
def fieldNames : List String := ["hasIncome", "currentJobIndex", "jobs"]

def encode (i : Income) : Json :=
  .record ([("hasIncome", Answer.ofFlag i.hasIncome), ("currentJobIndex", Json.nat i.currentJob),
    ("jobs", .arr (i.jobs.map Job.encode))] ++ i.extra.entries)

def decode (v : Json) : Option Income := do
  let fields ← v.object?
  some {
    hasIncome := ← fields.fieldOr "hasIncome" none fun v => some (Answer.flag? v)
    currentJob := ← fields.fieldOr "currentJobIndex" 0 fun v => some (Answer.index v)
    jobs := ← fields.fieldOr "jobs" [] (Json.list? Job.decode)
    extra := fields.without fieldNames }

end Income

/-- A member of the household. -/
structure Member where
  name : Name := {}
  hasJobs : Option Bool := none
  hasOtherJobs : Option Bool := none
  income : Income := {}
  /-- Fields that the wizard has no use for. -/
  extra : Object := {}
  deriving DecidableEq, Inhabited

namespace Member

/-- The names of the fields that the wizard reads. -/
def fieldNames : List String := ["name", "hasJobs", "hasOtherJobs", "assetsAndIncome"]

/-- Whether the member answered to have a job. -/
def hasJob (m : Member) : Bool := m.hasJobs == some true

/-- Whether the member answered to have a job besides those already described. -/
def hasOtherJob (m : Member) : Bool := m.hasOtherJobs == some true

def encode (m : Member) : Json :=
  .record ([("name", m.name.encode), ("hasJobs", Answer.ofFlag m.hasJobs),
    ("hasOtherJobs", Answer.ofFlag m.hasOtherJobs), ("assetsAndIncome", m.income.encode)]
      ++ m.extra.entries)

def decode (v : Json) : Option Member := do
  let fields ← v.object?
  some {
    name := ← fields.fieldOr "name" {} Name.decode
    hasJobs := ← fields.fieldOr "hasJobs" none fun v => some (Answer.flag? v)
    hasOtherJobs := ← fields.fieldOr "hasOtherJobs" none fun v => some (Answer.flag? v)
    income := ← fields.fieldOr "assetsAndIncome" {} Income.decode
    extra := fields.without fieldNames }

end Member

/-- The people who live together.  The first member is the applicant. -/
structure Household where
  /-- The number of members as it was answered. -/
  numMembers : Option Nat := none
  /-- The member whose page is shown, counted from the one after the applicant. -/
  currentMember : Nat := 0
  members : List Member := []
  deriving DecidableEq, Inhabited

namespace Household

/-- The size of the household: the answer, or else the number of members described. -/
def count (h : Household) : Nat := h.numMembers.getD h.members.length

/-- Whether a member after the applicant is left at the cursor. -/
def hasMemberAtCursor (h : Household) : Bool := h.currentMember + 1 < h.count

/-- The first member. -/
def applicant? (h : Household) : Option Member := h.members.head?

/-- The household with the cursor at another member. -/
def movedTo (h : Household) (index : Nat) : Household := { h with currentMember := index }

/-- The household with one member changed; nothing changes if there is no such member. -/
def modifyMember (h : Household) (index : Nat) (f : Member → Member) : Household :=
  { h with members := h.members.modify index f }

def encode (h : Household) : Json :=
  .record [("numMembers", Answer.ofCount h.numMembers),
    ("currentMemberIndex", Json.nat h.currentMember),
    ("members", .arr (h.members.map Member.encode))]

def decode (v : Json) : Option Household := do
  let fields ← v.asRecord ["numMembers", "currentMemberIndex", "members"]
  some {
    numMembers := ← fields.fieldOr "numMembers" none fun v => some (Answer.count? v)
    currentMember := ← fields.fieldOr "currentMemberIndex" 0 fun v => some (Answer.index v)
    members := ← fields.fieldOr "members" [] (Json.list? Member.decode) }

end Household

end FormChart.Registration
