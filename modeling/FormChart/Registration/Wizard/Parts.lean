import FormChart.Registration.Services
import FormChart.Chart.Blueprint

/-!
# Parts of the wizard

The events of the wizard, and the two kinds of nodes that most of it consists of: numbered sections
and the pages in them.  Both keep track of where the user is and was, and ask for the context to be
kept whenever they are entered or left.

`sectionNode` and `page` are the builders `section` and `page` of the wizard, and `startOver` is its
action `reset_context`.
-/

namespace FormChart.Registration.Wizard

/-! ## Events -/

def next : String := "NEXT"

def edit : String := "EDIT"

def exit : String := "EXIT"

def quit : String := "QUIT"

def reset : String := "RESET"

def previousMember : String := "DECREMENT_CURRENT_MEMBER_INDEX"

def previousJob : String := "DECREMENT_CURRENT_JOB_INDEX"

def firstMember : String := "RESET_CURRENT_RESOURCE_MEMBER_INDEX"

/-! ## Nodes -/

/-- A node of the wizard. -/
abbrev WizardNode (Env : Type) := Blueprint Context Env

variable {Env : Type}

/-- A node with children. -/
def compound (key : String) (initial : String) (children : List (WizardNode Env)) :
    WizardNode Env :=
  { key, kind := .compound, initial := some initial, children }

/-- A node without children. -/
def atomic (key : String) : WizardNode Env := { key, kind := .atomic }

/-- A numbered section with a global id. -/
def sectionNode (key : String) (number : Nat) (initial : String) (pages : List (WizardNode Env)) :
    WizardNode Env :=
  { compound key initial pages with
    id := some key
    entry := [.set [("currentSection", .str key), ("step", .nat number)], .keep]
    exit := [.set [("previousSection", .str key)], .keep] }

/-- A page of a section. -/
def page (sectionKey key : String) : WizardNode Env :=
  { atomic key with
    route := some ("/form/" ++ sectionKey ++ "/" ++ key)
    entry := [.set [("currentStep", .str key)], .keep]
    exit := [.set [("previousStep", .str key)], .keep] }

/-- A page that goes on to a target and forwards its answers. -/
def pageTo (sectionKey key target : String) : WizardNode Env :=
  { page sectionKey key with on := [(next, .forwardTo target)] }

/-- A node that is never shown: it goes on at once by the first transition that is enabled. -/
def decision (key : String) (arrows : List (Arrow Context)) : WizardNode Env :=
  { atomic key with on := arrows.map (Event.eventless.name, ·) }

/-- The node with entry actions added after the others. -/
def entering (n : WizardNode Env) (actions : List (Action Context)) : WizardNode Env :=
  { n with entry := n.entry ++ actions }

/-! ## Actions -/

/-- Drops all answers. -/
def startOver : Action Context := .assign fun c _ => c.reset.toPatch

/-- Replaces the household. -/
def setHousehold (f : Context → Household) : Action Context :=
  .assign fun c _ => Dict.ofList [("household", (f c).encode)]

/-- Replaces the resources. -/
def setResources (f : Resources → Resources) : Action Context :=
  .assign fun c _ => Dict.ofList [("resources", (f c.resources).encode)]

end FormChart.Registration.Wizard
