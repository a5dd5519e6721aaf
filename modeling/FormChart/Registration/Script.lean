import FormChart.Registration.Services

/-!
# Services by script

For rehearsals the services answer from a script: a list of replies for each of the three
questions.  Every question uses up the first reply of its list, but the last reply stays and is
given again; without replies a service is unreachable.  The script notes what it was asked.
-/

namespace FormChart.Registration

/-- A reply as it is written into a script. -/
abbrev Reply := Except ServiceError Json

/-- Something that a service was asked. -/
inductive ServiceCall where
  | catalog
  | filing (step : Nat)
  | judgement (filedData : Json)
  deriving DecidableEq

/-- Replies to come and questions so far. -/
structure Script where
  catalog : List Reply := []
  create : List Reply := []
  eligibility : List Reply := []
  calls : List ServiceCall := []

namespace Script

/-- The next reply, and the replies after it. -/
def nextReply : List Reply → Reply × List Reply
  | [] => (.error (.unreachable "unscripted"), [])
  | [r] => (r, [r])
  | r :: rest => (r, rest)

/-- The receipt that a reply stands for.  A reply with the mark `echo` repeats the context. -/
def receipt (context : Context) (v : Json) : Except ServiceError Receipt :=
  let fields := v.fieldsOrEmpty
  let v :=
    if fields.get? "echo" = some (.bool true) then
      Json.ofObject (fields.insert "original_data" context.encode)
    else v
  match Receipt.decode v with
  | some r => .ok r
  | none => .error (.invalidResponse "receipt")

/-- The verdict that a reply stands for. -/
def verdict (v : Json) : Except ServiceError Verdict :=
  match Verdict.decode v with
  | some r => .ok r
  | none => .error (.invalidResponse "eligibility")

instance : Services Script where
  catalog s :=
    let (reply, rest) := nextReply s.catalog
    (reply.map fun v => v.items?.getD [],
      { s with catalog := rest, calls := s.calls ++ [.catalog] })
  file s context :=
    let (reply, rest) := nextReply s.create
    (reply.bind (receipt context),
      { s with create := rest, calls := s.calls ++ [.filing context.step] })
  judge s filedData :=
    let (reply, rest) := nextReply s.eligibility
    (reply.bind verdict,
      { s with eligibility := rest, calls := s.calls ++ [.judgement filedData] })

end Script

end FormChart.Registration
