import FormChart.Proofs.Session.Steady
import FormChart.Proofs.Session.Outcomes
import FormChart.Session.Drive

/-!
# What happens while a session is driven

A session that is driven takes orders (`Order`), and each order is a call with everything that has
to be run after it (`Session.drive`).  `Session.driveTrace` writes down what happens: the episodes
of the calls, and which tasks are run in between.

**Driving is a journey**: the only outcomes that are delivered are those of tasks that were handed
out, so everything that is known of journeys is known of sessions that are driven.  A call that
returns leads on by what happens in it (`Journey.record`).
-/

namespace FormChart

variable {C Env S : Type}

/-- What a session that is driven can be asked for. -/
inductive Order where
  | start
  | startAt (reference : String)
  | send (event : Event)

/-- The call that an order begins with. -/
def Order.call : Order → Call
  | .start => .start
  | .startAt reference => .startAt reference
  | .send event => .send event

/-- No order begins with a request for tasks. -/
lemma Order.call_ne_handOut (order : Order) : order.call ≠ .handOut := by
  cases order <;> simp [call]

/-- Something that happens while a session is driven. -/
inductive Happening (C : Type) where
  /-- An episode of a call. -/
  | episode (e : Episode C)
  /-- A task is run. -/
  | run (token : Token)

/-- The episodes of a trace. -/
def episodesIn (trace : List (Happening C)) : List (Episode C) :=
  trace.filterMap fun
    | .episode e => some e
    | .run _ => none

/-- The tasks that are run in a trace. -/
def ranIn (trace : List (Happening C)) : List Token :=
  trace.filterMap fun
    | .episode _ => none
    | .run token => some token

section

variable (first rest : List (Happening C)) (episodes : List (Episode C))

@[simp] lemma episodesIn_append :
    episodesIn (first ++ rest) = episodesIn first ++ episodesIn rest :=
  List.filterMap_append

@[simp] lemma ranIn_append : ranIn (first ++ rest) = ranIn first ++ ranIn rest :=
  List.filterMap_append

@[simp] lemma episodesIn_run (token : Token) :
    episodesIn (.run token :: rest) = episodesIn rest := rfl

@[simp] lemma ranIn_run (token : Token) : ranIn (.run token :: rest) = token :: ranIn rest := rfl

@[simp] lemma episodesIn_map : episodesIn (episodes.map .episode) = episodes := by
  simp [episodesIn, List.filterMap_map]

@[simp] lemma ranIn_map : ranIn (episodes.map .episode) = [] := by
  simp [ranIn, List.filterMap_map]

end

variable [Model C]

/-! ## What happens in a call -/

/-- What happens on the way to rest. -/
def Macrostep.restEpisodes (chart : Chart C Env) (ceiling : Nat) :
    Nat → Macrostep C Env → List (Episode C)
  | 0, _ => []
  | budget + 1, m =>
    m.nextEpisodes chart ceiling ++
      match m.next chart ceiling with
      | .running m' => restEpisodes chart ceiling budget m'
      | .atRest _ => []

/-- What happens from a moment within a call to its end. -/
def Moment.episodes (budget : Nat) : Moment C Env S → List (Episode C)
  | .quiet _ => []
  | .under s m _ => m.restEpisodes s.chart s.settings.maxEventlessSteps budget

/-- What happens in a call. -/
def Session.episodes (s : Session C Env S) (budget : Nat) (c : Call) : List (Episode C) :=
  (s.begin c).1 ++ (s.begin c).2.episodes budget

variable [Storage S]

namespace Journey

variable {permits : List (Episode C) → Call → Prop} {s₀ s s' : Session C Env S}
  {episodes : List (Episode C)} {budget : Nat}

/-- A moment within a call leads to its end, by what happens then. -/
lemma finish {moment : Moment C Env S} (run : Journey permits s₀ episodes moment)
    (h : moment.finish budget = some s') :
    Journey permits s₀ (episodes ++ moment.episodes budget) (.quiet s') := by
  cases moment with
  | quiet s =>
      cases h
      rwa [Moment.episodes, List.append_nil]
  | under s m trigger =>
      simp only [Moment.finish, Session.finish, Option.bind_eq_bind, Option.bind_eq_some_iff,
        Option.some.injEq] at h
      obtain ⟨final, hrest, rfl⟩ := h
      rw [Moment.episodes]
      induction budget generalizing episodes m with
      | zero => cases hrest
      | succ budget ih =>
          have hnext := run.decide
          rw [Macrostep.toRest] at hrest
          rw [Macrostep.restEpisodes]
          cases hp : m.next s.chart s.settings.maxEventlessSteps with
          | running m' =>
              rw [hp] at hrest hnext
              rw [← List.append_assoc]
              exact ih m' hnext hrest
          | atRest m' =>
              rw [hp] at hrest hnext
              cases hrest
              rw [List.append_nil]
              exact hnext

/-- **A call that returns leads on by what happens in it.** -/
lemma record (run : Journey permits s₀ episodes (.quiet s)) {c : Call} (hc : permits episodes c)
    (h : s.call budget c = some s') :
    Journey permits s₀ (episodes ++ s.episodes budget c) (.quiet s') := by
  rw [Session.call_eq_finish] at h
  rw [Session.episodes, ← List.append_assoc]
  exact (run.call c hc).finish h

end Journey

/-! ## What happens while tasks are run -/

namespace Session

/-- What happens while tasks are run one after the other. -/
def runTrace (budget : Nat) : List (PendingTask Env) → Session C Env S → Env → List (Happening C)
  | [], _, _ => []
  | p :: rest, s, env =>
    .run p.token :: (s.episodes budget (.deliver (p.run env).1)).map .episode ++
      (s.deliver budget (p.run env).1).elim [] fun s => runTrace budget rest s (p.run env).2

lemma runAll_cons (budget : Nat) (p : PendingTask Env) (rest : List (PendingTask Env))
    (s : Session C Env S) (env : Env) :
    runAll budget (p :: rest) s env =
      (s.deliver budget (p.run env).1).bind fun s => runAll budget rest s (p.run env).2 := by
  rw [runAll]
  obtain ⟨settlement, env⟩ := p.run env
  dsimp only
  cases s.deliver budget settlement <;> rfl

/-- What happens while tasks are run until none is left. -/
def pendingTrace (budget : Nat) : Nat → Session C Env S → Env → List (Happening C)
  | 0, _, _ => []
  | rounds + 1, s, env =>
    let tasks := s.machine.invocations.queue
    (s.episodes budget .handOut).map .episode ++
      if tasks.isEmpty then []
      else
        runTrace budget tasks s.handOut.2 env ++
          (runAll budget tasks s.handOut.2 env).elim [] fun (s, env) =>
            pendingTrace budget rounds s env

lemma runPending_succ (budget rounds : Nat) (s : Session C Env S) (env : Env) :
    s.runPending budget (rounds + 1) env =
      if s.machine.invocations.queue.isEmpty then some (s.handOut.2, env)
      else (runAll budget s.machine.invocations.queue s.handOut.2 env).bind fun (s, env) =>
        s.runPending budget rounds env := by
  rw [runPending, show s.handOut = (s.machine.invocations.queue, s.handOut.2) from rfl]
  cases s.machine.invocations.queue with
  | nil => rfl
  | cons p rest =>
      simp only [List.isEmpty_cons, Bool.false_eq_true, if_false]
      cases runAll budget (p :: rest) s.handOut.2 env <;> rfl

/-- Whether an order is refused. -/
def refuses (s : Session C Env S) : Order → Bool
  | .start => s.isStarted
  | .startAt reference => (s.chart.lookup? reference).isNone || s.isStarted
  | .send _ => false

/-- Carries out an order; none if a budget does not suffice.  An order that is refused changes
nothing. -/
def drive (s : Session C Env S) (budget rounds : Nat) (env : Env) :
    Order → Option (Session C Env S × Env)
  | .start => (s.driveStart budget rounds env).toOption.getD (some (s, env))
  | .startAt reference => (s.driveStartAt budget rounds reference env).toOption.getD (some (s, env))
  | .send event => s.driveSend budget rounds event env

/-- What happens while an order is carried out. -/
def driveTrace (s : Session C Env S) (budget rounds : Nat) (env : Env) (order : Order) :
    List (Happening C) :=
  if s.refuses order then []
  else
    (s.episodes budget order.call).map .episode ++
      (s.call budget order.call).elim [] fun s => s.pendingTrace budget rounds env

/-- **What driving comes to**: nothing if the order is refused, or else a call and the tasks after
it. -/
lemma drive_eq (s : Session C Env S) (budget rounds : Nat) (env : Env) (order : Order) :
    s.drive budget rounds env order =
      if s.refuses order then some (s, env)
      else (s.call budget order.call).bind fun s => s.runPending budget rounds env := by
  cases order with
  | start =>
      simp only [drive, driveStart, start, refuses, Order.call, call]
      split <;> simp_all [Except.map, Except.toOption, runPendingAfter]
  | startAt reference =>
      rcases Option.eq_none_or_eq_some (s.chart.lookup? reference) with hlookup | ⟨target, hlookup⟩
      · simp [drive, driveStartAt, startAt, refuses, hlookup, Except.map, Except.toOption]
      · simp only [drive, driveStartAt, startAt, refuses, Order.call, call, hlookup]
        split <;> simp_all [Except.map, Except.toOption, runPendingAfter]
  | send event => rfl

/-! ### Larger budgets -/

variable {budget larger : Nat} {s s' : Session C Env S} {env env' : Env}

lemma runAll_mono (hle : budget ≤ larger) {tasks : List (PendingTask Env)}
    (h : runAll budget tasks s env = some (s', env')) :
    runAll larger tasks s env = some (s', env') := by
  induction tasks generalizing s env with
  | nil => exact h
  | cons p rest ih =>
      rw [runAll_cons, Option.bind_eq_some_iff] at h ⊢
      obtain ⟨s₁, hdeliver, hrest⟩ := h
      exact ⟨s₁, call_mono (c := .deliver (p.run env).1) hdeliver hle, ih hrest⟩

lemma runPending_mono (hle : budget ≤ larger) {rounds more : Nat} (hrounds : rounds ≤ more)
    (h : s.runPending budget rounds env = some (s', env')) :
    s.runPending larger more env = some (s', env') := by
  induction rounds generalizing s env more with
  | zero => cases h
  | succ rounds ih =>
      obtain ⟨more, rfl⟩ :=
        Nat.exists_eq_add_of_le' (Nat.lt_of_lt_of_le (Nat.succ_pos _) hrounds)
      rw [runPending_succ] at h ⊢
      split at h
      next hnone => rwa [if_pos hnone]
      next hsome =>
          rw [if_neg hsome]
          obtain ⟨⟨s₁, env₁⟩, htasks, hrest⟩ := Option.bind_eq_some_iff.1 h
          rw [runAll_mono hle htasks]
          exact ih (Nat.le_of_succ_le_succ hrounds) hrest

/-- **Larger budgets give the same result.** -/
lemma drive_mono (hle : budget ≤ larger) {rounds more : Nat} (hrounds : rounds ≤ more)
    {order : Order} (h : s.drive budget rounds env order = some (s', env')) :
    s.drive larger more env order = some (s', env') := by
  rw [drive_eq] at h ⊢
  split at h
  next hrefused => rwa [if_pos hrefused]
  next haccepted =>
      rw [if_neg haccepted]
      obtain ⟨s₁, hcall, hrest⟩ := Option.bind_eq_some_iff.1 h
      rw [call_mono hcall hle]
      exact runPending_mono hle hrounds hrest

end Session

/-- Whether driving leads from one session to another; what is outside may change between the
orders. -/
inductive Driven (s₀ : Session C Env S) : Session C Env S → Prop
  | nil : Driven s₀ s₀
  | order {s s' : Session C Env S} {env env' : Env} (budget rounds : Nat) (order : Order) :
      Driven s₀ s → s.drive budget rounds env order = some (s', env') → Driven s₀ s'

end FormChart
