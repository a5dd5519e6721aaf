import Mathlib.Data.List.Count
import FormChart.Proofs.Session.Driving

/-!
# The fate of a task

A task that is started is either run once, or dropped because its node was left before anybody took
it.  **When an order is done, nothing waits and nothing is live** (`Driven.settled`): the tasks are
run in rounds until none waits, and every outcome is delivered at once, so it is either taken, or it
comes too late because its node was left.

The invariant of journeys is `Accounted`, which adds to the ledger that every token is started once
and handed out once, and what is started and when.  What driving adds to it is that outcomes are not
kept waiting (`Answered`).
-/

namespace FormChart

variable {C Env S : Type} [Model C]

/-! ## What is handed out, and when -/

namespace Macrostep

variable {chart : Chart C Env} {token : Token}

lemma handedOut_notMem_deeds (event : Event) (plan : List (Move C)) (m : Macrostep C Env) :
    .handedOut token ∉ m.deeds chart event plan := by
  induction plan generalizing m with
  | nil => exact List.not_mem_nil
  | cons part rest ih =>
      rw [deeds, List.mem_append, not_or]
      refine ⟨?_, ih _⟩
      cases part with
      | leave i => cases hn : chart.node? i <;> simp [deed, hn]
      | act actions => simp [deed]
      | arrive i =>
          cases hn : chart.node? i with
          | none => simp [deed, hn]
          | some n => cases hv : n.invoke <;> simp [deed, hn, hv]

lemma handedOut_notMem_restEpisodes (ceiling budget : Nat) (m : Macrostep C Env) :
    .handedOut token ∉ deedsOf (m.restEpisodes chart ceiling budget) := by
  induction budget generalizing m with
  | zero => exact List.not_mem_nil
  | succ budget ih =>
      rw [restEpisodes, deedsOf_append, List.mem_append, not_or]
      constructor
      · rcases next_cases chart ceiling m with
          ⟨-, hepisodes⟩ | ⟨event, k, leaf, t, -, -, -, -, hepisodes⟩
        · rw [hepisodes]
          exact List.not_mem_nil
        · rw [hepisodes, deedsOf_singleton]
          exact handedOut_notMem_deeds event _ k
      · cases m.next chart ceiling with
        | running m' => exact ih m'
        | atRest m' => exact List.not_mem_nil

omit [Model C] in
lemma handedOut_notMem_starts {n : Node C Env} {i : NodeId} {serial : Nat} {token : Token} :
    .handedOut token ∉ starts n i serial := by
  rw [starts]
  cases n.invoke <;> simp

omit [Model C] in
/-- At most one token is started, and once. -/
lemma count_started_starts (n : Node C Env) (i : NodeId) (serial : Nat) (token : Token) :
    (starts n i serial).count (.started token) = 0 ∨
      (token = ⟨i, serial⟩ ∧ (starts n i serial).count (.started token) ≤ 1) := by
  rw [starts]
  cases n.invoke with
  | none => exact .inl rfl
  | some v =>
      by_cases hsame : token = ⟨i, serial⟩
      · exact .inr ⟨hsame, List.count_le_length⟩
      · exact .inl (List.count_eq_zero.2 (by simpa using hsame))

end Macrostep

namespace Session

/-- Calls hand out nothing, but for the one that does. -/
lemma handedOut_notMem_episodes [Storage S] (s : Session C Env S) (budget : Nat) {c : Call}
    (hc : c ≠ .handOut) (token : Token) : .handedOut token ∉ deedsOf (s.episodes budget c) := by
  have hsend : ∀ (s : Session C Env S) (event : Event),
      .handedOut token ∉ deedsOf (s.beginSend event).1 := by
    intro s event
    unfold beginSend
    split
    next => exact List.not_mem_nil
    next =>
        dsimp only
        cases hhandle : Macrostep.handle? s.chart event { machine := s.machine } with
        | none => exact List.not_mem_nil
        | some taken =>
            obtain ⟨leaf, t, -, -, -, hepisodes⟩ := Macrostep.handle?_cases hhandle
            rw [hepisodes, deedsOf_singleton]
            exact Macrostep.handedOut_notMem_deeds _ _ _
  have hentry : ∀ target, .handedOut token ∉ deedsOf (s.beginEntry target).1 := by
    intro target
    rw [beginEntry, deedsOf_singleton]
    exact Macrostep.handedOut_notMem_deeds _ _ _
  rw [episodes, deedsOf_append, List.mem_append, not_or]
  constructor
  · cases c with
    | start =>
        rw [begin]
        split
        · exact List.not_mem_nil
        · exact hentry Chart.root
    | startAt reference =>
        rw [begin]
        split
        · exact List.not_mem_nil
        · split
          · exact List.not_mem_nil
          · exact hentry _
    | send event => exact hsend s event
    | deliver settlement =>
        rw [begin]
        split
        · exact List.not_mem_nil
        · simpa [deedsOf, Episode.deeds] using hsend _ _
    | handOut => exact absurd rfl hc
    | wait clock => exact List.not_mem_nil
  · cases (s.begin c).2 with
    | quiet s => exact List.not_mem_nil
    | under s m trigger => exact Macrostep.handedOut_notMem_restEpisodes _ _ _

/-- Handing out hands out what waits. -/
lemma deedsOf_episodes_handOut [Storage S] (s : Session C Env S) (budget : Nat) :
    deedsOf (s.episodes budget .handOut) =
      (s.machine.invocations.queue.map (·.token)).map .handedOut := by
  simp [episodes, begin, Moment.episodes, Episode.deeds]

end Session

/-! ## The account -/

/-- What is known of the tokens after some episodes. -/
structure Accounted (chart : Chart C Env) (episodes : List (Episode C))
    (machine : Machine C Env) : Prop where
  ledger : ∃ token?, Ledger chart (deedsOf episodes) machine.leaf machine.invocations token?
  startedOnce : ∀ token, (deedsOf episodes).count (.started token) ≤ 1
  handedOutOnce : ∀ token,
    (deedsOf episodes).count (.handedOut token) ≤ (deedsOf episodes).count (.started token)
  /-- Where one is and an invocation belongs to, it was started. -/
  current : ∀ leaf n, machine.leaf = some leaf → chart.node? leaf = some n → n.invoke.isSome →
    ∃ token, Current token (deedsOf episodes)
  /-- What waits is a task of its node. -/
  task : ∀ p ∈ machine.invocations.queue, ∃ n v context,
    chart.node? p.token.node = some n ∧ n.invoke = some v ∧ p.task = v.task context

namespace Accounted

variable {chart : Chart C Env} {episodes more : List (Episode C)} {machine machine' : Machine C Env}

omit [Model C] in
/-- Before the first entry there is nothing to account for. -/
lemma nil (hstopped : machine.leaf = none) (hempty : machine.invocations = {}) :
    Accounted chart [] machine where
  ledger := by
    rw [hstopped, hempty]
    exact ⟨none, Ledger.nil chart⟩
  startedOnce := by simp
  handedOutOnce := by simp
  current := by simp [hstopped]
  task := by simp [hempty]

omit [Model C] in
/-- Where nothing is started and one stays where one is, what was started and was not handed out
before may be handed out. -/
lemma stay (h : Accounted chart episodes machine)
    (hledger : ∃ token?, Ledger chart (deedsOf (episodes ++ more)) machine'.leaf
      machine'.invocations token?)
    (hmore : ∀ token, .started token ∉ deedsOf more ∧ .left token.node ∉ deedsOf more)
    (hhanded : ∀ token, (deedsOf (episodes ++ more)).count (.handedOut token) ≤
      (deedsOf episodes).count (.started token))
    (hleaf : machine'.leaf = machine.leaf)
    (hqueue : ∀ p ∈ machine'.invocations.queue, p ∈ machine.invocations.queue) :
    Accounted chart (episodes ++ more) machine' := by
  have hstarted : ∀ token, (deedsOf (episodes ++ more)).count (.started token) =
      (deedsOf episodes).count (.started token) := by
    intro token
    rw [deedsOf_append, List.count_append, List.count_eq_zero.2 (hmore token).1, Nat.add_zero]
  constructor
  case ledger => exact hledger
  case startedOnce => exact fun token => hstarted token ▸ h.startedOnce token
  case handedOutOnce => exact fun token => hstarted token ▸ hhanded token
  case current =>
    intro leaf n hactive hn hv
    obtain ⟨token, htoken⟩ := h.current leaf n (hleaf ▸ hactive) hn hv
    refine ⟨token, ?_⟩
    rw [deedsOf_append]
    exact current_append.2 (.inl ⟨htoken, (hmore token).2⟩)
  case task => exact fun p hp => h.task p (hqueue p hp)

omit [Model C] in
/-- **An arrival at a leaf** starts its invocation, if it has one, under a token that is new. -/
lemma arrive (h : Accounted chart episodes machine) (before : List Deed) {e : Episode C}
    {landing : NodeId} {n : Node C Env}
    (hledger : ∃ token?, Ledger chart (deedsOf (episodes ++ [e])) machine'.leaf
      machine'.invocations token?)
    (hn : chart.node? landing = some n) (hactive : machine'.leaf = some landing)
    (hdeeds : e.deeds =
      before ++ Macrostep.starts n landing machine.invocations.nextSerial)
    (hbefore : ∀ token, .started token ∉ before ∧ .handedOut token ∉ before)
    (hinvocations : ∃ (base : Invocations Env) (context : C), base.queue = [] ∧
      machine'.invocations =
        n.invoke.elim base fun v => base.start landing v.id (v.task context)) :
    Accounted chart (episodes ++ [e]) machine' := by
  obtain ⟨token?, hold⟩ := h.ledger
  have hnew : .started ⟨landing, machine.invocations.nextSerial⟩ ∉ deedsOf episodes := fun hmem =>
    lt_irrefl _ (hold.serial _ (.inl hmem))
  constructor
  case ledger => exact hledger
  case startedOnce =>
    intro token
    rw [deedsOf_append, deedsOf_singleton, hdeeds, List.count_append, List.count_append,
      List.count_eq_zero.2 (hbefore token).1, Nat.zero_add]
    rcases Macrostep.count_started_starts n landing machine.invocations.nextSerial token with
      hzero | ⟨rfl, hone⟩
    · rw [hzero, Nat.add_zero]
      exact h.startedOnce token
    · rw [List.count_eq_zero.2 hnew, Nat.zero_add]
      exact hone
  case handedOutOnce =>
    intro token
    rw [deedsOf_append, deedsOf_singleton, hdeeds]
    simp only [List.count_append, List.count_eq_zero.2 (hbefore token).2,
      List.count_eq_zero.2 Macrostep.handedOut_notMem_starts, Nat.add_zero]
    exact (h.handedOutOnce token).trans (Nat.le_add_right _ _)
  case current =>
    intro leaf n' hleaf hn' hv
    obtain rfl := Option.some.inj (hactive.symm.trans hleaf)
    obtain rfl := Option.some.inj (hn.symm.trans hn')
    obtain ⟨v, hv⟩ := Option.isSome_iff_exists.1 hv
    refine ⟨⟨landing, machine.invocations.nextSerial⟩, ?_⟩
    rw [deedsOf_append, deedsOf_singleton, hdeeds, Macrostep.starts, hv]
    exact current_append.2 (.inr (current_append.2 (.inr (current_started.2 rfl))))
  case task =>
    obtain ⟨base, context, hbase, hinvocations⟩ := hinvocations
    intro p hp
    rw [hinvocations] at hp
    cases hv : n.invoke with
    | none =>
        rw [hv, Option.elim_none, hbase] at hp
        cases hp
    | some v =>
        rw [hv, Option.elim_some, Invocations.start, hbase, List.nil_append,
          List.mem_singleton] at hp
        exact ⟨n, v, context, by rw [hp]; exact hn, hv, by rw [hp]⟩

/-- The first entry arrives at a leaf. -/
lemma entry (htree : chart.IsTree) (h : Accounted chart episodes machine)
    (hstopped : machine.leaf = none) {target : NodeId}
    (htarget : target = Chart.root ∨ ∃ n, chart.node? target = some n) :
    Accounted chart
      (episodes ++ [.entry (Macrostep.deeds chart .init { machine } (chart.firstMoves target))])
      (Macrostep.take chart .init { machine } (chart.firstMoves target)).machine := by
  obtain ⟨token?, hledger⟩ := h.ledger
  obtain ⟨n, hn⟩ := htree.exists_of_entry htarget
  obtain ⟨down, hline, hmoves⟩ := htree.firstMoves_eq hn
  obtain ⟨l, hl, -⟩ := htree.isLeaf_landing hn
  rw [← List.append_nil down.reverse] at hline
  obtain ⟨context, hinvocations⟩ :=
    Macrostep.foldl_entry_invocations .init htree hl hline { machine }
  have hqueue : machine.invocations.queue = [] := by
    rw [hstopped] at hledger
    cases token? with
    | none => exact hledger.eq_nil.2
    | some token => cases hledger.node token rfl
  refine h.arrive ((down ++ [chart.landing target]).map .entered)
    ((Ledger.sustained htree).entry episodes machine target h.ledger hstopped htarget) hl ?_ ?_
    (by simp) ⟨_, context, hqueue, ?_⟩
  · rw [hmoves, Macrostep.take_leaf, Macrostep.foldl_entry_leaf hl]
  · rw [Episode.deeds, hmoves, Macrostep.deeds_entry htree hl hline]
  · rw [hmoves, Macrostep.take_invocations, hinvocations]

/-- A transition stays where it is or arrives at another leaf. -/
lemma transition (htree : chart.IsTree) {m : Macrostep C Env}
    (h : Accounted chart episodes m.machine) {event : Event} {leaf : NodeId}
    (hactive : m.machine.leaf = some leaf) {t : Transition C}
    (hchoose : chart.choose? leaf m.machine.context event.name = some t) :
    Accounted chart
      (episodes ++ [.transition leaf t (m.deeds chart event (chart.moves leaf t))])
      (m.take chart event (chart.moves leaf t)).machine := by
  have hledger :=
    (Ledger.sustained htree).transition episodes m event leaf t h.ledger hactive hchoose
  obtain ⟨token?, hold⟩ := h.ledger
  rw [hactive] at hold
  rcases htree.moves_cases (hold.isLeaf leaf rfl) hchoose with
    ⟨-, hmoves⟩ | ⟨up, down, landing, -, hpass, hmoves⟩
  · rw [hmoves] at hledger ⊢
    refine h.stay hledger (by simp [Episode.deeds, Macrostep.deeds, Macrostep.deed]) ?_
      (Macrostep.move_act_leaf chart event m t.actions) ?_
    · simpa [Episode.deeds, Macrostep.deeds, Macrostep.deed] using h.handedOutOnce
    · rw [Macrostep.take_invocations, List.foldl_cons, List.foldl_nil,
        Macrostep.move_act_invocations]
      exact fun p hp => hp
  · obtain ⟨n, hn, -⟩ := hpass.target
    obtain ⟨base, -, hline⟩ := hpass.above
    obtain ⟨-, hqueue⟩ := hold.leave_invocations event htree hpass
    set up' := ((leaf :: up).map .leave).foldl (Macrostep.move chart event) m with hup'
    obtain ⟨context, hinvocations⟩ := Macrostep.foldl_entry_invocations event htree hn hline
      (up'.move chart event (.act t.actions))
    rw [Macrostep.move_act_invocations] at hinvocations
    refine h.arrive ((leaf :: up).map .left ++ .acted :: (down ++ [landing]).map .entered) hledger
      hn ?_ ?_ (by simp) ⟨_, context, hqueue, ?_⟩
    · rw [hmoves, Macrostep.take_passage_leaf hn]
    · rw [Episode.deeds, hmoves, Macrostep.deeds_passage htree hpass hn, List.append_assoc]
      rfl
    · rw [hmoves, Macrostep.take_invocations, List.foldl_append, List.foldl_cons, ← hup',
        hinvocations]

/-- What is handed out is the current token, if it was not handed out before. -/
lemma handOut (htree : chart.IsTree) (h : Accounted chart episodes machine) :
    Accounted chart (episodes ++ [.handOut (machine.invocations.queue.map (·.token))])
      { machine with invocations := machine.invocations.handOut.2 } := by
  have hledger := (Ledger.sustained htree).handOut episodes machine h.ledger
  obtain ⟨token?, hold⟩ := h.ledger
  refine h.stay hledger (by simp [Episode.deeds]) (fun token => ?_) rfl (List.forall_mem_nil _)
  rw [deedsOf_append, deedsOf_singleton, Episode.deeds, List.count_append, hold.queue]
  by_cases hwaits : token? = some token ∧ .handedOut token ∉ deedsOf episodes
  · obtain ⟨rfl, hwaits⟩ := hwaits
    have hstarted := ((hold.current token).2 rfl).started
    rw [List.count_eq_zero.2 hwaits, Option.filter_some_pos (by simpa using hwaits)]
    simpa using List.one_le_count_iff.2 hstarted
  · have hnone : Deed.handedOut token ∉
        ((token?.filter (.handedOut · ∉ deedsOf episodes)).toList).map .handedOut := by
      simpa [Option.filter_eq_some_iff] using hwaits
    rw [List.count_eq_zero.2 hnone]
    exact h.handedOutOnce token

/-- **The account is kept**, if outcomes are only delivered of what was handed out. -/
lemma sustained (htree : chart.IsTree) : Sustained HandedOutOnly chart (Accounted chart) where
  entry _ _ _ h hstopped htarget := h.entry htree hstopped htarget
  transition _ _ _ _ _ h hactive hchoose := h.transition htree hactive hchoose
  claim episodes machine settlement id invocations h hpermits hclaim := by
    have hledger := (Ledger.sustained htree).claim episodes machine settlement id invocations
      h.ledger hpermits hclaim
    obtain ⟨token?, hold⟩ := h.ledger
    obtain ⟨-, -, rfl, -⟩ := hold.claim hpermits hclaim
    exact h.stay hledger (by simp [Episode.deeds])
      (by simpa [Episode.deeds] using h.handedOutOnce) rfl fun p hp => hp
  handOut _ _ h := h.handOut htree
  wait _ _ _ h := ⟨h.ledger, h.startedOnce, h.handedOutOnce, h.current, h.task⟩

end Accounted

/-! ## Outcomes are not kept waiting -/

/-- Whether of what was handed out only some tasks are still to be answered. -/
def Answered (waiting : List Token) (deeds : List Deed) : Prop :=
  ∀ token, .handedOut token ∈ deeds → Current token deeds →
    .resolved token ∈ deeds ∨ token ∈ waiting

namespace Accounted

variable {chart : Chart C Env} {episodes more : List (Episode C)} {machine machine' : Machine C Env}
  {token : Token}

omit [Model C] in
/-- What was started before is not started again. -/
lemma notMem_of_started (h : Accounted chart (episodes ++ more) machine)
    (hstarted : .started token ∈ deedsOf episodes) : .started token ∉ deedsOf more := by
  have hcount := h.startedOnce token
  rw [deedsOf_append, List.count_append] at hcount
  have := List.one_le_count_iff.2 hstarted
  exact List.count_eq_zero.1 (by omega)

omit [Model C] in
lemma started_of_handedOut (h : Accounted chart episodes machine)
    (hhanded : .handedOut token ∈ deedsOf episodes) : .started token ∈ deedsOf episodes :=
  List.one_le_count_iff.1 ((List.one_le_count_iff.2 hhanded).trans (h.handedOutOnce token))

omit [Model C] in
/-- So if it is current, it was current all the time. -/
lemma current_of_current (h : Accounted chart (episodes ++ more) machine)
    (hstarted : .started token ∈ deedsOf episodes)
    (hcurrent : Current token (deedsOf (episodes ++ more))) : Current token (deedsOf episodes) := by
  rw [deedsOf_append] at hcurrent
  exact ((current_append_of_not_started (h.notMem_of_started hstarted)).1 hcurrent).1

omit [Model C] in
/-- Where nothing is handed out, nothing more has to be answered. -/
lemma answered_append (hbefore : Accounted chart episodes machine)
    (hafter : Accounted chart (episodes ++ more) machine')
    (hmore : ∀ token, .handedOut token ∉ deedsOf more) {waiting : List Token}
    (h : Answered waiting (deedsOf episodes)) : Answered waiting (deedsOf (episodes ++ more)) := by
  intro token hhanded hcurrent
  rw [deedsOf_append, List.mem_append, or_iff_left (hmore token)] at hhanded
  have hstarted := hbefore.started_of_handedOut hhanded
  refine (h token hhanded (hafter.current_of_current hstarted hcurrent)).imp_left
    fun hresolved => ?_
  rw [deedsOf_append]
  exact List.mem_append_left _ hresolved

end Accounted

lemma count_map_handedOut (token : Token) (tokens : List Token) :
    (tokens.map Deed.handedOut).count (.handedOut token) = tokens.count token :=
  List.count_map_of_injective tokens _ (fun _ _ => Deed.handedOut.inj) token

/-- What is known of a session that is driven, at one of its quiet moments: tasks that were handed
out were answered, but for some that are being run. -/
structure Attended [Storage S] (s₀ : Session C Env S) (episodes : List (Episode C))
    (waiting : List Token) (s : Session C Env S) : Prop where
  journey : Journey HandedOutOnly s₀ episodes (.quiet s)
  accounted : Accounted s₀.chart episodes s.machine
  chart : s.chart = s₀.chart
  handedOut : ∀ token ∈ waiting, .handedOut token ∈ deedsOf episodes
  answered : Answered waiting (deedsOf episodes)

namespace Attended

variable [Storage S] {s₀ s s' : Session C Env S} {episodes : List (Episode C)}
  {waiting : List Token}

/-- A new session. -/
lemma nil (hstopped : s₀.machine.leaf = none) (hempty : s₀.machine.invocations = {}) :
    Attended s₀ [] [] s₀ :=
  ⟨.nil, .nil hstopped hempty, rfl, nofun, nofun⟩

variable (htree : s₀.chart.IsTree) (hstopped : s₀.machine.leaf = none)
  (hempty : s₀.machine.invocations = {})

include htree hstopped hempty

/-- A journey is attended if what it has handed out is answered. -/
lemma of_journey (run : Journey HandedOutOnly s₀ episodes (.quiet s))
    (hhanded : ∀ token ∈ waiting, .handedOut token ∈ deedsOf episodes)
    (h : Answered waiting (deedsOf episodes)) : Attended s₀ episodes waiting s := by
  obtain ⟨hchart, haccounted⟩ :=
    run.invariant (Accounted.sustained htree) (Accounted.nil hstopped hempty)
  exact ⟨run, haccounted, hchart, hhanded, h⟩

/-- **A call** that hands out nothing leaves nothing more to be answered. -/
lemma call (h : Attended s₀ episodes waiting s) {budget : Nat} {c : Call}
    (hc : HandedOutOnly episodes c) (hhandOut : c ≠ .handOut)
    (hcall : s.call budget c = some s') :
    Attended s₀ (episodes ++ s.episodes budget c) waiting s' := by
  have run := h.journey.record hc hcall
  obtain ⟨-, haccounted⟩ :=
    run.invariant (Accounted.sustained htree) (Accounted.nil hstopped hempty)
  refine of_journey htree hstopped hempty run (fun token htoken => ?_)
    (h.accounted.answered_append haccounted (s.handedOut_notMem_episodes budget hhandOut)
      h.answered)
  rw [deedsOf_append]
  exact List.mem_append_left _ (h.handedOut token htoken)

/-- **The delivery of an outcome** answers the task: either it is taken, or its time is over. -/
lemma deliver (settlement : Settlement) {budget : Nat}
    (h : Attended s₀ episodes (settlement.token :: waiting) s)
    (hdeliver : s.deliver budget settlement = some s') :
    Attended s₀ (episodes ++ s.episodes budget (.deliver settlement)) waiting s' := by
  have hhanded := h.handedOut settlement.token List.mem_cons_self
  have hafter := h.call htree hstopped hempty (c := .deliver settlement) hhanded nofun hdeliver
  refine of_journey htree hstopped hempty hafter.journey
    (fun other hother => hafter.handedOut other (List.mem_cons_of_mem _ hother))
    fun token htoken hcurrent => ?_
  rcases hafter.answered token htoken hcurrent with hresolved | hwaits
  · exact .inl hresolved
  rcases List.mem_cons.1 hwaits with rfl | hwaits
  · left
    rw [deedsOf_append, List.mem_append]
    by_cases hopen : .resolved settlement.token ∈ deedsOf episodes
    · exact .inl hopen
    · obtain ⟨token?, hledger⟩ := h.accounted.ledger
      obtain ⟨id, hclaim⟩ := hledger.exists_claim (hafter.accounted.current_of_current
        (h.accounted.started_of_handedOut hhanded) hcurrent) hopen
      right
      simp [Session.episodes, Session.begin, hclaim, deedsOf, Episode.deeds]
  · exact .inr hwaits

/-- **Tasks are run** one after the other, and all of them are answered. -/
lemma runAll {budget : Nat} {tasks : List (PendingTask Env)} {env env' : Env}
    (h : Attended s₀ episodes (tasks.map (·.token)) s)
    (hrun : Session.runAll budget tasks s env = some (s', env')) :
    Attended s₀ (episodes ++ episodesIn (Session.runTrace budget tasks s env)) [] s' ∧
      ranIn (Session.runTrace budget tasks s env) = tasks.map (·.token) ∧
      ∀ token, .handedOut token ∉ deedsOf (episodesIn (Session.runTrace budget tasks s env)) := by
  induction tasks generalizing s env episodes with
  | nil =>
      cases hrun
      simpa [Session.runTrace, episodesIn, ranIn] using h
  | cons p rest ih =>
      rw [Session.runAll_cons, Option.bind_eq_some_iff] at hrun
      obtain ⟨s₁, hdeliver, hrun⟩ := hrun
      obtain ⟨hrest, hran, hnone⟩ :=
        ih (h.deliver htree hstopped hempty (p.run env).1 hdeliver) hrun
      have hhere := s.handedOut_notMem_episodes budget (c := .deliver (p.run env).1) (by simp)
      rw [Session.runTrace, hdeliver]
      refine ⟨?_, ?_, fun token => ?_⟩
      · simpa [List.append_assoc] using hrest
      · simpa using hran
      · simpa using ⟨hhere token, hnone token⟩

/-- What is handed out has to be answered. -/
lemma handOut (h : Attended s₀ episodes [] s) (budget : Nat) :
    Attended s₀ (episodes ++ s.episodes budget .handOut)
      (s.machine.invocations.queue.map (·.token)) s.handOut.2 := by
  have htokens := s.deedsOf_episodes_handOut budget
  have hcall : s.call budget .handOut = some s.handOut.2 := rfl
  refine of_journey htree hstopped hempty (h.journey.record trivial hcall) ?_ ?_
  · intro token htoken
    rw [deedsOf_append, htokens]
    exact List.mem_append_right _ (List.mem_map_of_mem htoken)
  · intro token hhanded hcurrent
    rw [deedsOf_append, htokens, current_append_of_not_started (by simp)] at hcurrent
    rw [deedsOf_append, htokens, List.mem_append] at hhanded ⊢
    rcases hhanded with hold | hnew
    · exact (h.answered token hold hcurrent.1).imp .inl nofun
    · exact .inr (by simpa using hnew)

/-- **Tasks are run until none waits**, and what is run is what is handed out. -/
lemma runPending {budget rounds : Nat} {env env' : Env} (h : Attended s₀ episodes [] s)
    (hrun : s.runPending budget rounds env = some (s', env')) :
    Attended s₀ (episodes ++ episodesIn (s.pendingTrace budget rounds env)) [] s' ∧
      s'.machine.invocations.queue = [] ∧
      ∀ token, (ranIn (s.pendingTrace budget rounds env)).count token =
        (deedsOf (episodesIn (s.pendingTrace budget rounds env))).count (.handedOut token) := by
  induction rounds generalizing s env episodes with
  | zero => cases hrun
  | succ rounds ih =>
      have htokens := s.deedsOf_episodes_handOut budget
      have htaken := h.handOut htree hstopped hempty budget
      rw [Session.runPending_succ] at hrun
      rw [Session.pendingTrace]
      dsimp only
      split at hrun
      next hnone =>
          cases hrun
          have hqueue := List.isEmpty_iff.1 hnone
          rw [if_pos hnone]
          rw [hqueue] at htaken htokens
          refine ⟨by simpa using htaken, rfl, fun token => ?_⟩
          simp [htokens]
      next hsome =>
          rw [Option.bind_eq_some_iff] at hrun
          obtain ⟨⟨s₁, env₁⟩, htasks, hrun⟩ := hrun
          obtain ⟨hall, hran, hnothing⟩ := htaken.runAll htree hstopped hempty htasks
          obtain ⟨hdone, hqueue, hcounts⟩ := ih hall hrun
          rw [if_neg hsome, htasks]
          refine ⟨by simpa [List.append_assoc] using hdone, hqueue, fun token => ?_⟩
          have hcount := hcounts token
          have hzero := List.count_eq_zero.2 (hnothing token)
          simp [hran, htokens, hzero, hcount, count_map_handedOut, -List.map_map]

/-- **An order** that is carried out leaves nothing waiting. -/
lemma drive {budget rounds : Nat} {env env' : Env} {order : Order}
    (h : Attended s₀ episodes [] s) (hqueue : s.machine.invocations.queue = [])
    (hdrive : s.drive budget rounds env order = some (s', env')) :
    Attended s₀ (episodes ++ episodesIn (s.driveTrace budget rounds env order)) [] s' ∧
      s'.machine.invocations.queue = [] ∧
      ∀ token, (ranIn (s.driveTrace budget rounds env order)).count token =
        (deedsOf (episodesIn (s.driveTrace budget rounds env order))).count
          (.handedOut token) := by
  rw [Session.drive_eq] at hdrive
  rw [Session.driveTrace]
  split at hdrive
  next hrefused =>
      cases hdrive
      rw [if_pos hrefused]
      exact ⟨by simpa [episodesIn] using h, hqueue, fun token => by simp [episodesIn, ranIn]⟩
  next haccepted =>
      obtain ⟨s₁, hcall, hrun⟩ := Option.bind_eq_some_iff.1 hdrive
      have hpermits : HandedOutOnly episodes order.call := by cases order <;> trivial
      have hcalled := h.call htree hstopped hempty hpermits order.call_ne_handOut hcall
      obtain ⟨hdone, hempty', hcounts⟩ := hcalled.runPending htree hstopped hempty hrun
      rw [if_neg haccepted, hcall]
      refine ⟨by simpa [List.append_assoc] using hdone, hempty', fun token => ?_⟩
      have hzero := List.count_eq_zero.2
        (s.handedOut_notMem_episodes budget order.call_ne_handOut token)
      simp [hzero, hcounts token]

/-- Whatever is done with a driven session, it stays attended, and nothing waits between orders. -/
lemma of_driven (h : Driven s₀ s) :
    ∃ episodes, Attended s₀ episodes [] s ∧ s.machine.invocations.queue = [] := by
  induction h with
  | nil => exact ⟨[], .nil hstopped hempty, by rw [hempty]⟩
  | order budget rounds order _ hdrive ih =>
      obtain ⟨episodes, hattended, hqueue⟩ := ih
      obtain ⟨hdone, hempty', -⟩ := hattended.drive htree hstopped hempty hqueue hdrive
      exact ⟨_, hdone, hempty'⟩

omit htree hstopped hempty in
/-- Where nothing waits and nothing is to be answered, nothing is live. -/
lemma live_eq_nil (h : Attended s₀ episodes [] s) (hqueue : s.machine.invocations.queue = []) :
    s.machine.invocations.live = [] := by
  obtain ⟨token?, hledger⟩ := h.accounted.ledger
  rw [List.eq_nil_iff_forall_not_mem]
  intro l hl
  obtain ⟨-, htoken, hopen⟩ := hledger.live_eq hl
  have hhanded : .handedOut l.token ∈ deedsOf episodes := by
    by_contra hwaits
    have hwaiting := hledger.queue
    rw [hqueue, htoken, Option.filter_some_pos (by simpa using hwaits)] at hwaiting
    cases hwaiting
  rcases h.answered l.token hhanded ((hledger.current _).2 htoken) with hresolved | hnone
  · exact hopen hresolved
  · cases hnone

end Attended

/-! ## What becomes of a task -/

/-- Whether a task was dropped: its node was left after the start, and it was never handed out. -/
def Dropped (token : Token) (deeds : List Deed) : Prop :=
  .handedOut token ∉ deeds ∧
    ∃ before mid after, deeds = before ++ .started token :: (mid ++ .left token.node :: after)

omit [Model C] in
/-- A start that is not current any more was followed by the end of the stay. -/
lemma left_of_not_current {token : Token} {deeds : List Deed} (hstarted : .started token ∈ deeds)
    (hcurrent : ¬ Current token deeds) :
    ∃ before mid after, deeds = before ++ .started token :: (mid ++ .left token.node :: after) := by
  obtain ⟨before, after, rfl⟩ := List.append_of_mem hstarted
  have hleft : .left token.node ∈ after := by
    by_contra hstays
    exact hcurrent ⟨before, after, rfl, hstays⟩
  obtain ⟨mid, after, rfl⟩ := List.append_of_mem hleft
  exact ⟨before, mid, after, rfl⟩

/-- **When an order is done, nothing waits and nothing is live.**  Take any chart that is built, any
new session over it that is driven, and any order that is carried out.  Of all tasks that were
started meanwhile, each was run once, or was dropped and not run. -/
theorem Driven.settled [Storage S] {b : Blueprint C Env} {s₀ s s' : Session C Env S}
    (hbuild : b.build = .ok s₀.chart) (hstopped : s₀.machine.leaf = none)
    (hempty : s₀.machine.invocations = {}) (h : Driven s₀ s) {budget rounds : Nat} {order : Order}
    {env env' : Env} (hdrive : s.drive budget rounds env order = some (s', env')) :
    s'.machine.invocations.queue = [] ∧ s'.machine.invocations.liveCount = 0 ∧
      ∀ token, .started token ∈ deedsOf (episodesIn (s.driveTrace budget rounds env order)) →
        (ranIn (s.driveTrace budget rounds env order)).count token = 1 ∨
          ((ranIn (s.driveTrace budget rounds env order)).count token = 0 ∧
            Dropped token (deedsOf (episodesIn (s.driveTrace budget rounds env order)))) := by
  have htree := Blueprint.isTree_of_build hbuild
  obtain ⟨episodes, hbefore, hqueue⟩ := Attended.of_driven htree hstopped hempty h
  obtain ⟨hafter, hqueue', hcounts⟩ := hbefore.drive htree hstopped hempty hqueue hdrive
  refine ⟨hqueue', List.length_eq_zero_iff.2 (hafter.live_eq_nil hqueue'), fun token hstarted => ?_⟩
  set more := episodesIn (s.driveTrace budget rounds env order)
  rw [hcounts token]
  by_cases hhanded : .handedOut token ∈ deedsOf more
  · left
    have hle := (hafter.accounted.handedOutOnce token).trans (hafter.accounted.startedOnce token)
    have hone := List.one_le_count_iff.2 hhanded
    rw [deedsOf_append, List.count_append] at hle
    omega
  · refine .inr ⟨List.count_eq_zero.2 hhanded, hhanded,
      left_of_not_current hstarted fun hcurrent => ?_⟩
    -- otherwise it would still wait
    obtain ⟨token?, hledger⟩ := hafter.accounted.ledger
    have htoken := (hledger.current token).1 (by
      rw [deedsOf_append]
      exact current_append.2 (.inr hcurrent))
    have hnew : .handedOut token ∉ deedsOf episodes := fun hold =>
      hafter.accounted.notMem_of_started (hbefore.accounted.started_of_handedOut hold) hstarted
    have hwaiting := hledger.queue
    rw [hqueue', htoken, Option.filter_some_pos (by simpa using ⟨hnew, hhanded⟩)] at hwaiting
    cases hwaiting

end FormChart
