import FormChart.Proofs.Session.Queue

/-!
# When the ceiling is reported

A row is a sequence of automatic transitions that are taken one after another, with no turn to the
queue in between.  `Macrostep.row` follows it on the chart, up to a number of transitions: it ends
earlier just where no further one is enabled.

**A row is reported if it is as long as the ceiling** (`Session.rows_are_reported`), and then it is
not asked whether it would go on: a row that has settled in the last step is reported as well
(`settled_row_is_reported`).  The invariant is that what a macrostep counts is the length of the row
so far; rows begin where this number is zero.
-/

namespace FormChart

variable {C Env S : Type} [Model C]

namespace Macrostep

/-- The automatic transitions that are taken one after another, at most so many: how many they are,
and where they lead. -/
def row (chart : Chart C Env) : Nat → Macrostep C Env → Nat × Macrostep C Env
  | 0, m => (0, m)
  | n + 1, m =>
    match m.handle? chart .eventless with
    | some taken =>
      let (fired, last) := row chart n { taken with streak := m.streak + 1 }
      (fired + 1, last)
    | none => (0, m)

/-- What becomes of the row from a macrostep.  It is no longer than the ceiling, and it is followed
to its end; a shorter one ends where no automatic transition is enabled.  There the queue is turned
to, and the ceiling is reported before just if the row is as long. -/
structure RowIsReported (chart : Chart C Env) (ceiling : Nat) (m : Macrostep C Env) : Prop where
  bounded : (m.row chart ceiling).1 ≤ ceiling
  followed : ∀ budget, m.toRest chart ceiling ((m.row chart ceiling).1 + budget) =
    (m.row chart ceiling).2.toRest chart ceiling budget
  settled : (m.row chart ceiling).1 < ceiling →
    (m.row chart ceiling).2.handle? chart .eventless = none
  reported : (m.row chart ceiling).2.next chart ceiling =
    ((m.row chart ceiling).2.tell (if (m.row chart ceiling).1 = ceiling then
      [.unsettled ((m.row chart ceiling).2.machine.leafPath chart) ceiling] else [])).dequeue chart

variable {chart : Chart C Env} {ceiling n : Nat} {m taken : Macrostep C Env}

lemma row_of_some (h : m.handle? chart .eventless = some taken) :
    m.row chart (n + 1) =
      ((row chart n { taken with streak := m.streak + 1 }).1 + 1,
        (row chart n { taken with streak := m.streak + 1 }).2) := by
  rw [row, h]

lemma row_of_none (h : m.handle? chart .eventless = none) : m.row chart (n + 1) = (0, m) := by
  rw [row, h]

lemma row_le (chart : Chart C Env) (n : Nat) (m : Macrostep C Env) : (m.row chart n).1 ≤ n := by
  induction n generalizing m with
  | zero => exact Nat.le_refl 0
  | succ n ih =>
      cases h : m.handle? chart .eventless with
      | some taken => rw [row_of_some h]; exact Nat.succ_le_succ (ih _)
      | none => rw [row_of_none h]; exact Nat.zero_le _

/-- **What is counted** is the length of the row. -/
lemma streak_row (chart : Chart C Env) (n : Nat) (m : Macrostep C Env) :
    (m.row chart n).2.streak = m.streak + (m.row chart n).1 := by
  induction n generalizing m with
  | zero => rfl
  | succ n ih =>
      cases h : m.handle? chart .eventless with
      | some taken => rw [row_of_some h]; simp only [ih]; omega
      | none => rw [row_of_none h]; rfl

lemma handle?_row (h : (m.row chart n).1 < n) :
    (m.row chart n).2.handle? chart .eventless = none := by
  induction n generalizing m with
  | zero => cases h
  | succ n ih =>
      cases hhandle : m.handle? chart .eventless with
      | some taken =>
          rw [row_of_some hhandle] at h ⊢
          exact ih (Nat.lt_of_succ_lt_succ h)
      | none => rwa [row_of_none hhandle]

/-- Below the ceiling a macrostep follows the row. -/
lemma toRest_row (hceiling : m.streak + n ≤ ceiling) (budget : Nat) :
    m.toRest chart ceiling ((m.row chart n).1 + budget) =
      (m.row chart n).2.toRest chart ceiling budget := by
  induction n generalizing m with
  | zero => rw [row, Nat.zero_add]
  | succ n ih =>
      cases h : m.handle? chart .eventless with
      | some taken =>
          have hbelow : m.streak ≠ ceiling := by omega
          have hnext : m.next chart ceiling = .running { taken with streak := m.streak + 1 } := by
            rw [next, if_neg hbelow, h]
          rw [row_of_some h, Nat.add_right_comm, toRest, hnext]
          exact ih (by simp only; omega)
      | none => rw [row_of_none h, Nat.zero_add]

/-- **Rows that begin with nothing counted are reported.** -/
lemma rowIsReported (hbegin : m.streak = 0) : m.RowIsReported chart ceiling := by
  constructor
  case bounded => exact row_le chart ceiling m
  case followed => exact toRest_row (by rw [hbegin, Nat.zero_add])
  case settled => exact handle?_row
  case reported =>
    have hstreak := streak_row chart ceiling m
    rw [hbegin, Nat.zero_add] at hstreak
    rw [next, hstreak]
    by_cases hfull : (m.row chart ceiling).1 = ceiling
    · rw [if_pos hfull, if_pos hfull]
    · have hsettled := handle?_row (Nat.lt_of_le_of_ne (row_le chart ceiling m) hfull)
      rw [if_neg hfull, if_neg hfull, hsettled, tell, List.append_nil]

/-- After a turn to the queue nothing is counted. -/
lemma streak_of_dequeue {m' : Macrostep C Env} (h : m.dequeue chart = .running m') :
    m'.streak = 0 := by
  rw [dequeue] at h
  split at h
  next => cases h
  next event rest _ =>
      cases h
      cases hhandle : handle? chart event { m with raised := rest, streak := 0 } with
      | none => rfl
      | some taken => exact (handle?_aside chart event hhandle).1

end Macrostep

/-- The macrosteps with which the rows of a call begin: that which the call sets off, and those
after the turns to the queue. -/
inductive Session.BeginsRow (s : Session C Env S) (c : Call) : Macrostep C Env → Prop
  | call {s₁ : Session C Env S} {m : Macrostep C Env} {trigger : Event}
      (h : (s.begin c).2 = .under s₁ m trigger) : BeginsRow s c m
  | queue {m m' : Macrostep C Env} (before : BeginsRow s c m)
      (h : (m.row s.chart s.settings.maxEventlessSteps).2.next s.chart
        s.settings.maxEventlessSteps = .running m') : BeginsRow s c m'

/-- No row is under way where one begins. -/
lemma Session.BeginsRow.streak {s : Session C Env S} {b : Blueprint C Env}
    (hbuild : b.build = .ok s.chart) {c : Call} {m : Macrostep C Env} (h : s.BeginsRow c m) :
    m.streak = 0 := by
  induction h with
  | call hcall => exact (begin_begun (Blueprint.isTree_of_build hbuild) hcall).streak
  | queue _ hturn ih =>
      rw [(Macrostep.rowIsReported ih).reported] at hturn
      exact Macrostep.streak_of_dequeue hturn

/-- **Rows are reported by their length.**  In any state of a session, each row of automatic
transitions that a call sets off is followed to its end, and the ceiling is reported there just if
the row is as long as the ceiling, whether or not it would go on. -/
theorem Session.rows_are_reported {s : Session C Env S} {b : Blueprint C Env}
    (hbuild : b.build = .ok s.chart) {c : Call} {m : Macrostep C Env} (h : s.BeginsRow c m) :
    m.RowIsReported s.chart s.settings.maxEventlessSteps :=
  Macrostep.rowIsReported (h.streak hbuild)

/-- A small chart: out of the door and onto the street, where one stays. -/
def walk : Blueprint Tally Unit :=
  { key := "walk", kind := .compound, initial := some "door"
    children := [
      { key := "door", kind := .atomic, on := [(Event.eventless.name, .goto "street")] },
      { key := "street", kind := .atomic }] }

/-- The walk before its start, with a ceiling of one. -/
def walkSession : Session Tally Unit Memory :=
  { Session.new walk.outline.chart {} with settings := { maxEventlessSteps := 1 } }

lemma walk_build : walk.build = .ok walkSession.chart :=
  Blueprint.build_of_defects_eq_nil (by decide +kernel)

/-- The row of the walk is one transition long, and is reported. -/
theorem Session.rows_are_reported_walk : ∃ m last, walkSession.BeginsRow .start m ∧
    m.row walkSession.chart 1 = (1, last) ∧
    last.next walkSession.chart 1 =
      (last.tell [.unsettled "street" 1]).dequeue walkSession.chart := by
  set m : Macrostep Tally Unit := Macrostep.take walkSession.chart .init
    { machine := walkSession.machine } (walkSession.chart.firstMoves Chart.root)
  have hbegins : walkSession.BeginsRow .start m := .call rfl
  have hfired : (m.row walkSession.chart 1).1 = 1 := by decide +kernel
  have hleaf : (m.row walkSession.chart 1).2.machine.leafPath walkSession.chart = "street" := by
    decide +kernel
  have hrow : m.RowIsReported walkSession.chart 1 := rows_are_reported walk_build hbegins
  have hreported := hrow.reported
  rw [if_pos hfired, hleaf] at hreported
  exact ⟨m, _, hbegins, Prod.ext hfired rfl, hreported⟩

/-- **A row that has settled is reported as well**, if it was as long as the ceiling: the walk ends
on the street, from which no automatic transition leads on. -/
theorem settled_row_is_reported :
    walk.build = .ok walkSession.chart ∧ walkSession.settings.maxEventlessSteps = 1 ∧
    ∃ s, walkSession.call 9 .start = some s ∧
      s.machine.events = ["init", Event.eventless.name] ∧ s.notices = [.unsettled "street" 1] ∧
      Macrostep.handle? s.chart .eventless { machine := s.machine } = none := by
  have hcomputed : (walkSession.call 9 .start).any (fun s =>
      s.machine.events == ["init", Event.eventless.name] &&
        decide (s.notices = [.unsettled "street" 1]) &&
        (Macrostep.handle? s.chart .eventless { machine := s.machine }).isNone) = true := by
    decide +kernel
  obtain ⟨s, hs, h⟩ := (Option.any_eq_true _ _).1 hcomputed
  obtain ⟨h, hnone⟩ := Bool.and_eq_true_iff.1 h
  obtain ⟨hevents, hnotices⟩ := Bool.and_eq_true_iff.1 h
  exact ⟨walk_build, rfl, s, hs, beq_iff_eq.1 hevents, of_decide_eq_true hnotices,
    Option.isNone_iff_eq_none.1 hnone⟩

end FormChart
