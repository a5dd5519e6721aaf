import FormChart.Proofs.Session.Plan
import FormChart.Proofs.Session.Journey

/-!
# Outcomes reach the stay that asked for them

An outcome bears the token of the start that it goes back to.  It is taken if and only if the stay
that started the invocation still lasts and has not had its outcome; anything else that is
delivered, late or repeated, leaves the session as it is (`Journey.outcomes_reach_their_stay`).

The invariant is `Ledger`, which reads everything that the ledger of invocations holds off the
record of the journey: **there is at most one current token**, that of the present stay in the
active leaf (`Current`).  It is live until it is resolved, and its task waits until it is handed
out.
-/

namespace FormChart

variable {C Env S : Type}

/-- Whether the stay that started a token still lasts: the node was not left since. -/
def Current (token : Token) (deeds : List Deed) : Prop :=
  ∃ before after, deeds = before ++ .started token :: after ∧ .left token.node ∉ after

/-- Whether all outcomes so far were those of current tokens, and no token has had two. -/
def ResolvedOnce (deeds : List Deed) : Prop :=
  ∀ before token after, deeds = before ++ .resolved token :: after →
    Current token before ∧ .resolved token ∉ before

/-- Callers deliver the outcomes of tasks that they were given, in any order, late or repeatedly. -/
def HandedOutOnly (episodes : List (Episode C)) : Call → Prop
  | .deliver settlement => .handedOut settlement.token ∈ deedsOf episodes
  | _ => True

/-! ## Current tokens -/

/-- A deed of two records that follow each other belongs to one of them. -/
lemma split_at_deed {deeds more before after : List Deed} {d : Deed}
    (heq : deeds ++ more = before ++ d :: after) :
    (∃ mid, deeds = before ++ d :: mid ∧ after = mid ++ more) ∨
      ∃ mid, before = deeds ++ mid ∧ more = mid ++ d :: after := by
  rcases List.append_eq_append_iff.1 heq with ⟨mid, hbefore, hmore⟩ | ⟨mid, hdeeds, hafter⟩
  · exact .inr ⟨mid, hbefore, hmore⟩
  · cases mid with
    | nil => exact .inr ⟨[], by simpa using hdeeds.symm, hafter.symm⟩
    | cons d' mid =>
        rw [List.cons_append, List.cons.injEq] at hafter
        obtain ⟨rfl, hafter⟩ := hafter
        exact .inl ⟨mid, hdeeds, hafter⟩

section Current

variable {token : Token} {deeds more : List Deed}

lemma current_append :
    Current token (deeds ++ more) ↔
      (Current token deeds ∧ .left token.node ∉ more) ∨ Current token more := by
  constructor
  · rintro ⟨before, after, heq, hafter⟩
    rcases split_at_deed heq with ⟨mid, hdeeds, rfl⟩ | ⟨mid, -, hmore⟩
    · rw [List.mem_append, not_or] at hafter
      exact .inl ⟨⟨before, mid, hdeeds, hafter.1⟩, hafter.2⟩
    · exact .inr ⟨mid, after, hmore, hafter⟩
  · rintro (⟨⟨before, after, rfl, hafter⟩, hmore⟩ | ⟨before, after, rfl, hafter⟩)
    · exact ⟨before, after ++ more, by simp, by simp [hafter, hmore]⟩
    · exact ⟨deeds ++ before, after, by simp, hafter⟩

lemma Current.started (h : Current token deeds) : .started token ∈ deeds := by
  obtain ⟨before, after, rfl, -⟩ := h
  simp

/-- Where nothing starts, tokens can only cease to be current. -/
lemma current_append_of_not_started (hmore : .started token ∉ more) :
    Current token (deeds ++ more) ↔ Current token deeds ∧ .left token.node ∉ more := by
  rw [current_append]
  exact or_iff_left fun h => hmore h.started

lemma current_started {other : Token} : Current token [.started other] ↔ token = other := by
  constructor
  · intro h
    simpa using h.started
  · rintro rfl
    exact ⟨[], [], rfl, by simp⟩

end Current

/-! ## Outcomes of the past -/

namespace ResolvedOnce

variable {deeds more : List Deed}

lemma nil : ResolvedOnce [] := by
  intro before token after heq
  simp at heq

lemma append (h : ResolvedOnce deeds) (hmore : ∀ token, .resolved token ∉ more) :
    ResolvedOnce (deeds ++ more) := by
  intro before token after heq
  rcases split_at_deed heq with ⟨mid, hdeeds, -⟩ | ⟨mid, -, hmid⟩
  · exact h before token mid hdeeds
  · exact absurd (hmid ▸ by simp) (hmore token)

lemma append_resolved (h : ResolvedOnce deeds) {token : Token} (hcurrent : Current token deeds)
    (hnew : .resolved token ∉ deeds) : ResolvedOnce (deeds ++ [.resolved token]) := by
  intro before token' after heq
  rcases split_at_deed heq with ⟨mid, hdeeds, -⟩ | ⟨mid, rfl, hmid⟩
  · exact h before token' mid hdeeds
  · cases mid with
    | nil =>
        rw [List.nil_append, List.cons.injEq, Deed.resolved.injEq] at hmid
        obtain ⟨rfl, -⟩ := hmid
        rw [List.append_nil]
        exact ⟨hcurrent, hnew⟩
    | cons d mid => simp at hmid

end ResolvedOnce

/-! ## The ledger of invocations -/

/-- What the ledger of invocations holds after some deeds.  The last parameter is the current token
of the active leaf, if it has one. -/
structure Ledger (chart : Chart C Env) (deeds : List Deed) (leaf : Option NodeId)
    (i : Invocations Env) (token? : Option Token) : Prop where
  isLeaf : ∀ node, leaf = some node → chart.IsLeaf node
  current : ∀ token, Current token deeds ↔ token? = some token
  /-- The current token is that of the active leaf. -/
  node : ∀ token, token? = some token → leaf = some token.node
  /-- The current token is live until it is resolved. -/
  live : i.live.map (·.token) = (token?.filter (.resolved · ∉ deeds)).toList
  /-- Its task waits until it is handed out. -/
  queue : i.queue.map (·.token) = (token?.filter (.handedOut · ∉ deeds)).toList
  /-- Live invocations bear the ids of their nodes. -/
  named : ∀ l ∈ i.live, ∃ n v, chart.node? l.token.node = some n ∧ n.invoke = some v ∧ l.id = v.id
  /-- The next token is new. -/
  serial : ∀ token : Token,
    .started token ∈ deeds ∨ .handedOut token ∈ deeds ∨ .resolved token ∈ deeds →
      token.serial < i.nextSerial
  handedOut : ∀ token, .resolved token ∈ deeds → .handedOut token ∈ deeds
  once : ResolvedOnce deeds

namespace Ledger

variable {chart : Chart C Env} {deeds : List Deed} {leaf : Option NodeId} {i : Invocations Env}
  {token? : Option Token}

/-- Before the first entry there is nothing. -/
lemma nil (chart : Chart C Env) : Ledger chart [] none ({} : Invocations Env) none where
  isLeaf := nofun
  current := by
    intro token
    simp [Current]
  node := nofun
  live := rfl
  queue := rfl
  named := nofun
  serial := by simp
  handedOut := nofun
  once := ResolvedOnce.nil

/-- Without a current token nothing is live and nothing waits. -/
lemma eq_nil (h : Ledger chart deeds leaf i none) : i.live = [] ∧ i.queue = [] :=
  ⟨List.map_eq_nil_iff.1 h.live, List.map_eq_nil_iff.1 h.queue⟩

/-- Deeds that neither start, hand out, nor resolve anything, and do not end the stay of the current
token, leave the ledger as it is. -/
lemma append (h : Ledger chart deeds leaf i token?) {more : List Deed} {leaf' : Option NodeId}
    (hmore : ∀ token, .started token ∉ more ∧ .handedOut token ∉ more ∧ .resolved token ∉ more)
    (hleft : ∀ token, token? = some token → .left token.node ∉ more)
    (hleaf : ∀ node, leaf' = some node → chart.IsLeaf node)
    (hnode : ∀ token, token? = some token → leaf' = some token.node) :
    Ledger chart (deeds ++ more) leaf' i token? where
  isLeaf := hleaf
  current := by
    intro token
    rw [current_append_of_not_started (hmore token).1, h.current]
    exact and_iff_left_of_imp (hleft token)
  node := hnode
  live := by simp [h.live, hmore]
  queue := by simp [h.queue, hmore]
  named := h.named
  serial := by
    intro token htoken
    exact h.serial token (by simpa [hmore] using htoken)
  handedOut := by
    intro token htoken
    simpa [hmore] using h.handedOut token (by simpa [hmore] using htoken)
  once := h.once.append fun token => (hmore token).2.2

/-- A task waits only for a live invocation. -/
lemma queue_of_live (h : Ledger chart deeds leaf i token?) (hlive : i.live = []) :
    i.queue = [] := by
  cases token? with
  | none => exact h.eq_nil.2
  | some token =>
      have hresolved : .resolved token ∈ deeds := by
        by_contra hopen
        have := h.live
        simp [hlive, hopen] at this
      have := h.queue
      rwa [Option.filter_some_neg (by simpa using h.handedOut token hresolved), Option.toList_none,
        List.map_eq_nil_iff] at this

/-- What is live, if anything is. -/
lemma live_eq (h : Ledger chart deeds leaf i token?) {l : LiveInvocation} (hl : l ∈ i.live) :
    i.live = [l] ∧ token? = some l.token ∧ .resolved l.token ∉ deeds := by
  have hlive := h.live
  cases token? with
  | none =>
      rw [h.eq_nil.1] at hl
      cases hl
  | some token =>
      by_cases hresolved : .resolved token ∈ deeds
      · rw [Option.filter_some_neg (by simpa using hresolved), Option.toList_none,
          List.map_eq_nil_iff] at hlive
        rw [hlive] at hl
        cases hl
      · rw [Option.filter_some_pos (by simpa using hresolved), Option.toList_some,
          List.map_eq_singleton_iff] at hlive
        obtain ⟨l', hl', rfl⟩ := hlive
        rw [hl', List.mem_singleton] at hl
        subst hl
        exact ⟨hl', rfl, hresolved⟩

/-- The end of the stay in the active leaf. -/
lemma leave {node : NodeId} {i' : Invocations Env} (h : Ledger chart deeds (some node) i token?)
    {more : List Deed}
    (hmore : ∀ token, .started token ∉ more ∧ .handedOut token ∉ more ∧ .resolved token ∉ more)
    (hleft : .left node ∈ more) (hlive : i'.live = []) (hqueue : i'.queue = [])
    (hserial : i'.nextSerial = i.nextSerial) :
    Ledger chart (deeds ++ more) (some node) i' none where
  isLeaf := h.isLeaf
  current := by
    intro token
    rw [current_append_of_not_started (hmore token).1, h.current]
    refine iff_of_false ?_ nofun
    rintro ⟨htoken, hstays⟩
    have hnode := h.node token htoken
    cases hnode
    exact hstays hleft
  node := nofun
  live := by rw [hlive]; rfl
  queue := by rw [hqueue]; rfl
  named := by simp [hlive]
  serial := by
    intro token htoken
    rw [hserial]
    exact h.serial token (by simpa [hmore] using htoken)
  handedOut := by
    intro token htoken
    simpa [hmore] using h.handedOut token (by simpa [hmore] using htoken)
  once := h.once.append fun token => (hmore token).2.2

/-- The invocation of the active leaf is cancelled. -/
lemma cancel {node : NodeId} (h : Ledger chart deeds (some node) i token?) :
    (i.cancel node).live = [] ∧ (i.cancel node).queue = [] := by
  cases hl : i.live with
  | nil =>
      have hcancel : i.cancel node = i := by simp [Invocations.cancel, Invocations.find?, hl]
      rw [hcancel]
      exact ⟨hl, h.queue_of_live hl⟩
  | cons l rest =>
      obtain ⟨hlive, htoken, -⟩ := h.live_eq (l := l) (by simp [hl])
      have hnode : node = l.token.node := Option.some.inj (h.node _ htoken)
      have hqueue : ∀ p ∈ i.queue, p.token = l.token := by
        intro p hp
        have hmem : p.token ∈ i.queue.map (·.token) := List.mem_map_of_mem hp
        rw [h.queue, htoken, Option.mem_toList, Option.filter_eq_some_iff] at hmem
        exact (Option.some.inj hmem.1).symm
      simpa [Invocations.cancel, Invocations.find?, Invocations.others, hlive, hnode] using hqueue

/-- The start of the invocation of the active leaf. -/
lemma start {node : NodeId} {n : Node C Env} {v : Invocation C Env}
    (h : Ledger chart deeds (some node) i none) (hn : chart.node? node = some n)
    (hv : n.invoke = some v) (task : Task Env) :
    Ledger chart (deeds ++ [.started (i.nextToken node)]) (some node) (i.start node v.id task)
      (some (i.nextToken node)) where
  isLeaf := h.isLeaf
  current := by
    intro token
    rw [current_append, h.current, current_started]
    simp [eq_comm]
  node := by
    rintro token ⟨⟩
    rfl
  live := by
    have hnew : .resolved (i.nextToken node) ∉ deeds := fun hold =>
      lt_irrefl _ (h.serial _ (.inr (.inr hold)))
    rw [Option.filter_some_pos (by simpa using hnew)]
    simp [Invocations.start, Invocations.others, h.eq_nil.1]
  queue := by
    have hnew : .handedOut (i.nextToken node) ∉ deeds := fun hold =>
      lt_irrefl _ (h.serial _ (.inr (.inl hold)))
    rw [Option.filter_some_pos (by simpa using hnew)]
    simp [Invocations.start, h.eq_nil.2]
  named := by
    intro l hl
    rw [Invocations.start, Invocations.others, h.eq_nil.1, List.filter_nil,
      List.mem_singleton] at hl
    subst hl
    exact ⟨n, v, hn, hv, rfl⟩
  serial := by
    intro token htoken
    simp only [List.mem_append, List.mem_singleton, Deed.started.injEq, reduceCtorEq,
      or_false] at htoken
    rcases htoken with (hold | rfl) | hold
    · exact Nat.lt_succ_of_lt (h.serial token (.inl hold))
    · exact Nat.lt_succ_self _
    · exact Nat.lt_succ_of_lt (h.serial token (.inr hold))
  handedOut := by
    intro token htoken
    simpa using h.handedOut token (by simpa using htoken)
  once := h.once.append (by simp)

/-- The outcome of the live invocation arrives. -/
lemma claim {token : Token} {id : String} {i' : Invocations Env}
    (h : Ledger chart deeds leaf i token?) (hhanded : .handedOut token ∈ deeds)
    (hclaim : i.claim token = some (id, i')) :
    token? = some token ∧ .resolved token ∉ deeds ∧ i' = { i with live := [] } ∧
      (∃ n v, chart.node? token.node = some n ∧ n.invoke = some v ∧ id = v.id) ∧
      Ledger chart (deeds ++ [.resolved token]) leaf i' token? := by
  have hfound : ∃ l ∈ i.live, l.token = token ∧ l.id = id ∧
      { i with live := i.others token.node } = i' := by
    unfold Invocations.claim at hclaim
    split at hclaim
    next l hfind =>
        split at hclaim
        next htoken =>
            simp only [Option.some.injEq, Prod.mk.injEq] at hclaim
            exact ⟨l, List.mem_of_find?_eq_some hfind, htoken, hclaim.1, hclaim.2⟩
        next => cases hclaim
    next => cases hclaim
  obtain ⟨l, hl, rfl, rfl, rfl⟩ := hfound
  obtain ⟨hlive, htoken, hopen⟩ := h.live_eq hl
  have hothers : i.others l.token.node = [] := by simp [Invocations.others, hlive]
  have hcurrent : Current l.token deeds := (h.current l.token).2 htoken
  rw [hothers]
  refine ⟨htoken, hopen, rfl, h.named l hl, ?_⟩
  constructor
  case isLeaf => exact h.isLeaf
  case current =>
    intro token
    rw [current_append_of_not_started (by simp), h.current]
    simp
  case node => exact h.node
  case live =>
    rw [htoken, Option.filter_some_neg (by simp)]
    rfl
  case queue => simp [h.queue]
  case named => exact nofun
  case serial =>
    intro token hmem
    simp only [List.mem_append, List.mem_singleton, Deed.resolved.injEq, reduceCtorEq,
      or_false] at hmem
    rcases hmem with hold | hold | hold | rfl
    · exact h.serial token (.inl hold)
    · exact h.serial token (.inr (.inl hold))
    · exact h.serial token (.inr (.inr hold))
    · exact h.serial _ (.inl hcurrent.started)
  case handedOut =>
    intro token hmem
    simp only [List.mem_append, List.mem_singleton, Deed.resolved.injEq, reduceCtorEq,
      or_false] at hmem ⊢
    rcases hmem with hold | rfl
    · exact h.handedOut token hold
    · exact hhanded
  case once => exact h.once.append_resolved hcurrent hopen

/-- The waiting tasks are handed out. -/
lemma handOut (h : Ledger chart deeds leaf i token?) :
    Ledger chart (deeds ++ (i.queue.map (·.token)).map .handedOut) leaf i.handOut.2 token? := by
  have hwaiting : ∀ token, token ∈ i.queue.map (·.token) → token? = some token := by
    intro token hmem
    rw [h.queue, Option.mem_toList, Option.filter_eq_some_iff] at hmem
    exact hmem.1
  constructor
  case isLeaf => exact h.isLeaf
  case current =>
    intro token
    rw [current_append_of_not_started (by simp), h.current]
    simp
  case node => exact h.node
  case live => simpa [Invocations.handOut] using h.live
  case queue =>
    cases token? with
    | none => rfl
    | some token =>
        refine (congrArg Option.toList (Option.filter_some_neg ?_)).symm
        by_cases hold : .handedOut token ∈ deeds
        · simp [hold]
        · have hqueue := h.queue
          rw [Option.filter_some_pos (by simpa using hold), Option.toList_some] at hqueue
          simp [hqueue]
  case named => exact h.named
  case serial =>
    intro token hmem
    simp only [List.mem_append, List.mem_map, Deed.handedOut.injEq, exists_eq_right, reduceCtorEq,
      and_false, exists_false, or_false] at hmem
    rcases hmem with hold | (hold | hnew) | hold
    · exact h.serial token (.inl hold)
    · exact h.serial token (.inr (.inl hold))
    · have hcurrent := (h.current token).2 (hwaiting token (by simpa using hnew))
      exact h.serial token (.inl hcurrent.started)
    · exact h.serial token (.inr (.inr hold))
  case handedOut =>
    intro token hmem
    exact List.mem_append_left _ (h.handedOut token (by simpa using hmem))
  case once => exact h.once.append (by simp)

/-! ## Transitions -/

section Transition

variable [Model C] {m : Macrostep C Env} {event : Event}

variable (event) in
/-- An entry that ends in a leaf, after everything was left. -/
lemma descend (htree : chart.IsTree) {landing : NodeId} {down base : List NodeId} {n : Node C Env}
    (hn : chart.node? landing = some n)
    (hline : chart.lineage landing = landing :: (down.reverse ++ base))
    (hlanding : chart.IsLeaf landing)
    (h : Ledger chart deeds leaf m.machine.invocations none) :
    ∃ token?, Ledger chart
      (deeds ++ ((down ++ [landing]).map .entered ++
        Macrostep.starts n landing m.machine.invocations.nextSerial))
      (some landing)
      (((down ++ [landing]).map .arrive).foldl (Macrostep.move chart event) m).machine.invocations
      token? := by
  have hentered : Ledger chart (deeds ++ (down ++ [landing]).map .entered) (some landing)
      m.machine.invocations none := by
    refine h.append (by simp) nofun (fun node hnode => ?_) nofun
    cases hnode
    exact hlanding
  obtain ⟨context, hinvocations⟩ :=
    Macrostep.foldl_entry_invocations event htree hn hline m
  rw [hinvocations, ← List.append_assoc, Macrostep.starts]
  cases hv : n.invoke with
  | none =>
      rw [Option.elim_none, Option.elim_none, List.append_nil]
      exact ⟨none, hentered⟩
  | some v => exact ⟨_, hentered.start hn hv _⟩

variable (event) in
/-- Once the leaf and what lies above it are left, nothing is live and nothing waits. -/
lemma leave_invocations (htree : chart.IsTree) {node landing : NodeId} {up down : List NodeId}
    (hpass : chart.Passage node up down landing)
    (h : Ledger chart deeds (some node) m.machine.invocations token?) :
    let up' := ((node :: up).map .leave).foldl (Macrostep.move chart event) m
    up'.machine.invocations.live = [] ∧ up'.machine.invocations.queue = [] := by
  obtain ⟨n, hn, -⟩ := hpass.source
  dsimp only
  rw [List.map_cons, List.foldl_cons,
    Macrostep.foldl_leave_invocations (Macrostep.invoke_up htree hpass),
    Macrostep.move_leave_invocations event hn]
  cases hv : n.invoke with
  | some v => exact h.cancel
  | none =>
      have hlive : m.machine.invocations.live = [] := by
        rw [List.eq_nil_iff_forall_not_mem]
        intro l hl
        obtain ⟨-, htoken, -⟩ := h.live_eq hl
        obtain ⟨k, v, hk, hv', -⟩ := h.named l hl
        have hnode : node = l.token.node := Option.some.inj (h.node _ htoken)
        rw [← hnode, hn] at hk
        cases hk
        rw [hv] at hv'
        cases hv'
      exact ⟨hlive, h.queue_of_live hlive⟩

/-- **One transition** keeps the ledger in step with the record. -/
lemma transition (htree : chart.IsTree) {node : NodeId} {t : Transition C}
    (h : Ledger chart deeds (some node) m.machine.invocations token?)
    (hm : m.machine.leaf = some node)
    (ht : chart.choose? node m.machine.context event.name = some t) :
    ∃ token?, Ledger chart (deeds ++ m.deeds chart event (chart.moves node t))
      (m.take chart event (chart.moves node t)).machine.leaf
      (m.take chart event (chart.moves node t)).machine.invocations token? := by
  rcases htree.moves_cases (h.isLeaf node rfl) ht with
    ⟨-, hmoves⟩ | ⟨up, down, landing, -, hpass, hmoves⟩
  · have hdeeds : m.deeds chart event (chart.moves node t) = [.acted] := by rw [hmoves]; rfl
    have hleaf : (m.take chart event (chart.moves node t)).machine.leaf = some node := by
      rw [hmoves, ← hm]
      exact Macrostep.move_act_leaf chart event m t.actions
    have hinvocations : (m.take chart event (chart.moves node t)).machine.invocations =
        m.machine.invocations := by
      rw [hmoves]
      exact Macrostep.move_act_invocations chart event m t.actions
    rw [hdeeds, hleaf, hinvocations]
    exact ⟨token?, h.append (by simp) (by simp) h.isLeaf h.node⟩
  · obtain ⟨n, hn, -⟩ := hpass.target
    obtain ⟨base, -, hline⟩ := hpass.above
    obtain ⟨hlive, hqueue⟩ := h.leave_invocations event htree hpass
    set up' := ((node :: up).map .leave).foldl (Macrostep.move chart event) m with hup'
    have hserial : up'.machine.invocations.nextSerial = m.machine.invocations.nextSerial :=
      Macrostep.foldl_leave_nextSerial (Macrostep.node_of_up htree hpass) m
    have hleft : Ledger chart (deeds ++ ((node :: up).map .left ++ [.acted])) (some node)
        (up'.move chart event (.act t.actions)).machine.invocations none := by
      rw [Macrostep.move_act_invocations]
      exact h.leave (by simp) (by simp) hlive hqueue hserial
    obtain ⟨token', hentered⟩ := hleft.descend event htree hn hline hpass.target
    refine ⟨token', ?_⟩
    rw [hmoves, Macrostep.deeds_passage htree hpass hn, Macrostep.take_passage_leaf hn,
      Macrostep.take_invocations, List.foldl_append, List.foldl_cons, ← hup']
    rw [Macrostep.move_act_invocations, hserial] at hentered
    simpa using hentered

/-- **The first entry** begins the ledger. -/
lemma entry (htree : chart.IsTree) {target : NodeId} {n : Node C Env}
    (hn : chart.node? target = some n)
    (h : Ledger chart deeds none m.machine.invocations token?) :
    ∃ token?, Ledger chart (deeds ++ m.deeds chart event (chart.firstMoves target))
      (m.take chart event (chart.firstMoves target)).machine.leaf
      (m.take chart event (chart.firstMoves target)).machine.invocations token? := by
  have hnone : token? = none := by
    cases token? with
    | none => rfl
    | some token => cases h.node token rfl
  subst hnone
  obtain ⟨down, hline, hmoves⟩ := htree.firstMoves_eq hn
  obtain ⟨k, hk, -⟩ := htree.isLeaf_landing hn
  set landing := chart.landing target with hlanding
  have hline' : chart.lineage landing = landing :: (down.reverse ++ []) := by
    rw [hline, List.append_nil]
  rw [hmoves, Macrostep.deeds_entry htree hk hline', Macrostep.take_leaf,
    Macrostep.foldl_entry_leaf hk, Macrostep.take_invocations]
  exact h.descend event htree hk hline' (htree.isLeaf_landing hn)

end Transition

/-- A current token that was handed out and not resolved can be claimed. -/
lemma exists_claim {token : Token} (h : Ledger chart deeds leaf i token?)
    (hcurrent : Current token deeds) (hopen : .resolved token ∉ deeds) :
    ∃ id, i.claim token = some (id, { i with live := [] }) := by
  have htoken := (h.current token).1 hcurrent
  have hlive := h.live
  rw [htoken, Option.filter_some_pos (by simpa using hopen), Option.toList_some,
    List.map_eq_singleton_iff] at hlive
  obtain ⟨l, hl, rfl⟩ := hlive
  exact ⟨l.id, by simp [Invocations.claim, Invocations.find?, Invocations.others, hl]⟩

/-- What waits is live, if outcomes are only delivered of what was handed out. -/
lemma isLive_of_queue (h : Ledger chart deeds leaf i token?) {p : PendingTask Env}
    (hp : p ∈ i.queue) : i.isLive p.token = true := by
  have hmem : p.token ∈ i.queue.map (·.token) := List.mem_map_of_mem hp
  rw [h.queue, Option.mem_toList, Option.filter_eq_some_iff] at hmem
  obtain ⟨htoken, hwaiting⟩ := hmem
  have hopen : .resolved p.token ∉ deeds := fun hresolved => by
    simp [h.handedOut _ hresolved] at hwaiting
  have hlive := h.live
  rw [htoken, Option.filter_some_pos (by simpa using hopen), Option.toList_some,
    List.map_eq_singleton_iff] at hlive
  obtain ⟨l, hl, hltoken⟩ := hlive
  simp [Invocations.isLive, Invocations.find?, hl, hltoken]

/-- **The ledger and the record** are kept in step, if outcomes are only delivered of what was
handed out. -/
lemma sustained [Model C] (htree : chart.IsTree) :
    Sustained HandedOutOnly chart fun episodes machine =>
      ∃ token?, Ledger chart (deedsOf episodes) machine.leaf machine.invocations token? where
  entry episodes machine target hledger hleaf htarget := by
    obtain ⟨token?, hledger⟩ := hledger
    obtain ⟨n, hn⟩ := htree.exists_of_entry htarget
    rw [hleaf] at hledger
    rw [deedsOf_append, deedsOf_singleton]
    exact Ledger.entry htree hn hledger
  transition episodes m event leaf t hledger hleaf hchoose := by
    obtain ⟨token?, hledger⟩ := hledger
    rw [hleaf] at hledger
    rw [deedsOf_append, deedsOf_singleton]
    exact hledger.transition htree hleaf hchoose
  claim episodes machine settlement id invocations hledger hpermits hclaim := by
    obtain ⟨token?, hledger⟩ := hledger
    obtain ⟨-, -, -, -, hclaimed⟩ := hledger.claim hpermits hclaim
    rw [deedsOf_append, deedsOf_singleton]
    exact ⟨token?, hclaimed⟩
  handOut episodes machine hledger := by
    obtain ⟨token?, hledger⟩ := hledger
    rw [deedsOf_append, deedsOf_singleton]
    exact ⟨token?, hledger.handOut⟩
  wait episodes machine clock hledger := hledger

end Ledger

namespace Journey

variable [Model C] [Storage S]

/-- **Outcomes reach the stay that asked for them, once.**  Take any chart that is built, any new
session over it, and any run of it in which outcomes are delivered only of tasks that were handed
out.  Between calls

* at most the active leaf has a live invocation, at most one task waits, and what waits is live;
* an outcome is turned into an event of the invocation's id exactly if its token was started in the
  present stay in the active leaf and has had no outcome yet; the delivery of any other outcome
  returns the session as it is;
* all outcomes so far were taken in the stay that started them, and no token has had two. -/
theorem outcomes_reach_their_stay {b : Blueprint C Env} {s₀ s : Session C Env S}
    (hbuild : b.build = .ok s₀.chart) (hstopped : s₀.machine.leaf = none)
    (hempty : s₀.machine.invocations = {}) {episodes : List (Episode C)}
    (run : Journey HandedOutOnly s₀ episodes (.quiet s)) :
    ((∀ l ∈ s.machine.invocations.live, s.machine.leaf = some l.token.node) ∧
      s.machine.invocations.live.length ≤ 1 ∧ s.machine.invocations.queue.length ≤ 1 ∧
      ∀ p ∈ s.machine.invocations.queue, s.machine.invocations.isLive p.token = true) ∧
    (∀ settlement : Settlement, .handedOut settlement.token ∈ deedsOf episodes →
      (s.machine.leaf = some settlement.token.node ∧
          Current settlement.token (deedsOf episodes) ∧
          .resolved settlement.token ∉ deedsOf episodes →
        ∃ n v, s.chart.node? settlement.token.node = some n ∧ n.invoke = some v ∧
          ∀ budget, s.deliver budget settlement =
            Session.send { s with machine := { s.machine with
                invocations := { s.machine.invocations with live := [] } } }
              budget (Event.ofOutcome v.id settlement.outcome)) ∧
      (¬ (s.machine.leaf = some settlement.token.node ∧
          Current settlement.token (deedsOf episodes) ∧
          .resolved settlement.token ∉ deedsOf episodes) →
        ∀ budget, s.deliver budget settlement = some s)) ∧
    ResolvedOnce (deedsOf episodes) := by
  have htree := Blueprint.isTree_of_build hbuild
  have hnil : ∃ token?, Ledger s₀.chart (deedsOf ([] : List (Episode C))) s₀.machine.leaf
      s₀.machine.invocations token? := by
    rw [hstopped, hempty]
    exact ⟨none, Ledger.nil _⟩
  obtain ⟨hchart, token?, hledger⟩ := run.invariant (Ledger.sustained htree) hnil
  change s.chart = s₀.chart at hchart
  change Ledger _ _ s.machine.leaf s.machine.invocations _ at hledger
  refine ⟨⟨?_, ?_, ?_, fun p hp => hledger.isLive_of_queue hp⟩, fun settlement hhanded => ⟨?_, ?_⟩,
    hledger.once⟩
  · intro l hl
    obtain ⟨-, htoken, -⟩ := hledger.live_eq hl
    exact hledger.node _ htoken
  · rw [← List.length_map (·.token), hledger.live]
    exact Option.length_toList_le
  · rw [← List.length_map (·.token), hledger.queue]
    exact Option.length_toList_le
  · rintro ⟨-, hcurrent, hopen⟩
    obtain ⟨id, hclaim⟩ := hledger.exists_claim hcurrent hopen
    obtain ⟨-, -, -, ⟨n, v, hn, hv, rfl⟩, -⟩ := hledger.claim hhanded hclaim
    refine ⟨n, v, hchart ▸ hn, hv, fun budget => ?_⟩
    rw [Session.deliver, hclaim]
  · intro hstale budget
    cases hclaim : s.machine.invocations.claim settlement.token with
    | none => rw [Session.deliver, hclaim]
    | some claimed =>
        obtain ⟨name, invocations⟩ := claimed
        obtain ⟨htoken, hopen, -⟩ := hledger.claim hhanded hclaim
        exact absurd ⟨hledger.node _ htoken, (hledger.current _).2 htoken, hopen⟩ hstale

/-- The errand in the shop, its task handed out: the outcome is still awaited. -/
theorem outcomes_reach_their_stay_errand :
    errand.build = .ok errandSession.chart ∧ errandSession.machine.leaf = none ∧
    errandSession.machine.invocations = {} ∧
    ∃ s episodes, ((errandSession.call 9 .start).bind (·.call 9 (.send { name := "go" }))).bind
        (·.call 9 .handOut) = some s ∧
      Journey HandedOutOnly errandSession episodes (.quiet s) ∧
      .handedOut ⟨3, 0⟩ ∈ deedsOf episodes ∧ Current ⟨3, 0⟩ (deedsOf episodes) ∧
      .resolved ⟨3, 0⟩ ∉ deedsOf episodes ∧ s.machine.invocations.queue.length ≤ 1 := by
  have hdone : (((errandSession.call 9 .start).bind (·.call 9 (.send { name := "go" }))).bind
      fun s => if s.machine.invocations.queue.map (·.token) = [⟨3, 0⟩] then
        ((s.call 9 .handOut).bind (·.deliver 9 ⟨⟨3, 0⟩, .ok .null⟩)).bind (·.machine.leaf)
      else none) = some 4 := by decide +kernel
  have hshop : ((errandSession.call 9 .start).bind (·.call 9 (.send { name := "go" }))).bind
      (·.machine.leaf) = some 3 := by decide +kernel
  obtain ⟨s, hs, hdone⟩ := Option.bind_eq_some_iff.1 hdone
  obtain ⟨s', hstart, hgo⟩ := Option.bind_eq_some_iff.1 hs
  rw [hs, Option.bind_some] at hshop
  have hqueue : s.machine.invocations.queue.map (·.token) = [⟨3, 0⟩] := by
    by_contra hne
    rw [if_neg hne] at hdone
    cases hdone
  rw [if_pos hqueue] at hdone
  have before : Journey HandedOutOnly errandSession [] (.quiet errandSession) := .nil
  obtain ⟨first, hfirst⟩ := before.of_call (c := .start) trivial hstart
  obtain ⟨more, hmore⟩ := hfirst.of_call (c := .send { name := "go" }) trivial hgo
  have run : Journey HandedOutOnly errandSession _ (.quiet s.handOut.2) :=
    hmore.call .handOut trivial
  obtain ⟨⟨-, -, hlength, -⟩, houtcomes, -⟩ :=
    outcomes_reach_their_stay errand_build rfl rfl run
  have hhanded : .handedOut ⟨3, 0⟩ ∈ deedsOf (([] ++ first ++ more) ++ (s.begin .handOut).1) := by
    simp [Session.begin, Episode.deeds, hqueue]
  -- a delivery that leads on is not the delivery of a stale outcome
  have hawaited := by_contra fun hstale => by
    rw [Session.call, Option.bind_some,
      (houtcomes ⟨⟨3, 0⟩, .ok .null⟩ hhanded).2 hstale 9, Option.bind_some] at hdone
    exact absurd (hshop.symm.trans hdone) (by decide)
  exact ⟨errand_build, rfl, rfl, _, _, by rw [hs]; rfl, run, hhanded, hawaited.2.1, hawaited.2.2,
    hlength⟩

end Journey

end FormChart
