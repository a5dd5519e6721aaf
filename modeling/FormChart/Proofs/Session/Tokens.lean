import Mathlib.Data.Finset.Card
import Mathlib.Data.List.Induction
import FormChart.Invocations

/-!
# What becomes of tokens

A ledger of invocations is used in four ways, in any order: tasks are started, nodes are cancelled,
tokens are claimed, and what waits is handed out.  **The uses alone tell what the ledger answers**
(`Invocations.uses_tell`):

* a token can be claimed as long as it is open: its node was neither started again nor cancelled
  since, and it was not claimed before (`Invocations.IsOpen`);
* the tasks that are handed out are those that were started, in their order and once each, but for
  those that still wait (`Invocations.Waits`) and those that were dropped when their node was
  cancelled (`Invocations.IsDropped`).

All of this is by induction on the uses, with the last one as the step.
-/

namespace FormChart.Invocations

variable {Env : Type}

/-! ## Uses -/

/-- A use that is made of a ledger. -/
inductive Use (Env : Type) where
  | start (node : NodeId) (id : String) (task : Task Env)
  | cancel (node : NodeId)
  | claim (token : Token)
  | handOut

/-- The ledger after it was used.  A claim that fails leaves it as it is. -/
def use (i : Invocations Env) : Use Env → Invocations Env
  | .start node id task => i.start node id task
  | .cancel node => i.cancel node
  | .claim token => ((i.claim token).map Prod.snd).getD i
  | .handOut => i.handOut.2

/-- The tasks that a use hands out. -/
def given (i : Invocations Env) : Use Env → List (PendingTask Env)
  | .handOut => i.handOut.1
  | .start .. | .cancel _ | .claim _ => []

/-- What a use starts, if the token gets a certain number. -/
def Use.starts (serial : Nat) : Use Env → List (PendingTask Env)
  | .start node id task => [⟨⟨node, serial⟩, id, task⟩]
  | .cancel _ | .claim _ | .handOut => []

/-- A new ledger after some uses. -/
def after (uses : List (Use Env)) : Invocations Env := uses.foldl use {}

/-- How many tasks some uses start. -/
def startCount : List (Use Env) → Nat
  | [] => 0
  | u :: uses => (u.starts 0).length + startCount uses

/-- The tasks that some uses start, in order, with the tokens numbered from a certain number on. -/
def startedFrom (serial : Nat) : List (Use Env) → List (PendingTask Env)
  | [] => []
  | u :: uses => u.starts serial ++ startedFrom (serial + (u.starts 0).length) uses

/-- The tasks that some uses of a new ledger start, in order. -/
def started (uses : List (Use Env)) : List (PendingTask Env) := startedFrom 0 uses

/-- What some uses hand out, one after the other. -/
def givenFrom (i : Invocations Env) : List (Use Env) → List (PendingTask Env)
  | [] => []
  | u :: uses => i.given u ++ givenFrom (i.use u) uses

/-- What some uses of a new ledger hand out, one after the other. -/
def handedOut (uses : List (Use Env)) : List (PendingTask Env) := givenFrom {} uses

/-! ## What the uses tell -/

/-- Whether a task was started, and certain uses have been made since then. -/
def Since (uses : List (Use Env)) (p : PendingTask Env) (rest : List (Use Env)) : Prop :=
  ∃ before, uses = before ++ .start p.token.node p.id p.task :: rest ∧
    p.token.serial = startCount before

/-- Whether a token was never claimed with success. -/
def IsUnclaimed (uses : List (Use Env)) (token : Token) : Prop :=
  ∀ done later, uses = done ++ .claim token :: later → (after done).claim token = none

/-- Whether a token is open for an invocation with an id: since it was started, its node was not
started again and not cancelled, and the token was not claimed with success. -/
structure IsOpen (uses : List (Use Env)) (token : Token) (id : String) : Prop where
  undisturbed : ∃ task rest, Since uses ⟨token, id, task⟩ rest ∧
    (∀ id' task', .start token.node id' task' ∉ rest) ∧ .cancel token.node ∉ rest
  unclaimed : IsUnclaimed uses token

/-- Whether nothing was handed out since a task was started. -/
def Waits (uses : List (Use Env)) (p : PendingTask Env) : Prop :=
  ∃ rest, Since uses p rest ∧ .handOut ∉ rest

/-- Whether a task was dropped: its node was cancelled while it waited and its token was open. -/
def IsDropped (uses : List (Use Env)) (p : PendingTask Env) : Prop :=
  ∃ done later, uses = done ++ .cancel p.token.node :: later ∧ Waits done p ∧
    IsOpen done p.token p.id

/-! ## One more use -/

section Snoc

variable {uses rest : List (Use Env)} {u : Use Env} {p : PendingTask Env} {token : Token}
  {id : String}

lemma after_snoc (uses : List (Use Env)) (u : Use Env) :
    after (uses ++ [u]) = (after uses).use u := by
  rw [after, List.foldl_append]
  rfl

lemma startCount_append (uses more : List (Use Env)) :
    startCount (uses ++ more) = startCount uses + startCount more := by
  induction uses with
  | nil => simp [startCount]
  | cons v uses ih => simp [startCount, ih, Nat.add_assoc]

lemma startCount_snoc (uses : List (Use Env)) (u : Use Env) :
    startCount (uses ++ [u]) = startCount uses + (u.starts 0).length :=
  startCount_append uses [u]

lemma startedFrom_snoc (serial : Nat) (uses : List (Use Env)) (u : Use Env) :
    startedFrom serial (uses ++ [u]) =
      startedFrom serial uses ++ u.starts (serial + startCount uses) := by
  induction uses generalizing serial with
  | nil => simp [startedFrom, startCount]
  | cons v uses ih => simp [startedFrom, startCount, ih, Nat.add_assoc]

lemma started_snoc (uses : List (Use Env)) (u : Use Env) :
    started (uses ++ [u]) = started uses ++ u.starts (startCount uses) := by
  rw [started, startedFrom_snoc, Nat.zero_add, started]

lemma givenFrom_snoc (i : Invocations Env) (uses : List (Use Env)) (u : Use Env) :
    givenFrom i (uses ++ [u]) = givenFrom i uses ++ (uses.foldl use i).given u := by
  induction uses generalizing i with
  | nil => simp [givenFrom]
  | cons v uses ih => simp [givenFrom, ih]

lemma handedOut_snoc (uses : List (Use Env)) (u : Use Env) :
    handedOut (uses ++ [u]) = handedOut uses ++ (after uses).given u :=
  givenFrom_snoc {} uses u

lemma mem_starts {serial : Nat} :
    p ∈ u.starts serial ↔ u = .start p.token.node p.id p.task ∧ p.token.serial = serial := by
  obtain ⟨⟨node, number⟩, id, task⟩ := p
  cases u <;> simp [Use.starts]
  grind

/-- A list that ends with one more element is split either there or before. -/
lemma snoc_eq_append_cons_iff {v : Use Env} {before : List (Use Env)} :
    uses ++ [u] = before ++ v :: rest ↔ (rest = [] ∧ uses = before ∧ u = v) ∨
      ∃ rest', rest = rest' ++ [u] ∧ uses = before ++ v :: rest' := by
  rcases List.eq_nil_or_concat rest with rfl | ⟨rest', w, rfl⟩
  · simp [List.append_singleton_inj]
  · rw [List.concat_eq_append, show before ++ v :: (rest' ++ [w]) = (before ++ v :: rest') ++ [w] by
      simp, List.append_singleton_inj]
    simp only [List.append_eq_nil_iff, List.cons_ne_self, and_false, false_and, false_or,
      List.append_singleton_inj]
    constructor
    · rintro ⟨rfl, rfl⟩
      exact ⟨rest', ⟨rfl, rfl⟩, rfl⟩
    · rintro ⟨_, ⟨rfl, rfl⟩, rfl⟩
      exact ⟨rfl, rfl⟩

lemma since_snoc : Since (uses ++ [u]) p rest ↔
    (rest = [] ∧ p ∈ u.starts (startCount uses)) ∨
      ∃ rest', rest = rest' ++ [u] ∧ Since uses p rest' := by
  simp only [Since, snoc_eq_append_cons_iff, mem_starts]
  grind

lemma waits_snoc : Waits (uses ++ [u]) p ↔
    p ∈ u.starts (startCount uses) ∨ (Waits uses p ∧ u ≠ .handOut) := by
  simp only [Waits, since_snoc]
  constructor
  · rintro ⟨rest, ⟨rfl, hstarts⟩ | ⟨rest', rfl, hsince⟩, hnone⟩
    · exact .inl hstarts
    · simp only [List.mem_append, List.mem_singleton, not_or] at hnone
      exact .inr ⟨⟨rest', hsince, hnone.1⟩, fun hu => hnone.2 hu.symm⟩
  · rintro (hstarts | ⟨⟨rest', hsince, hnone⟩, hu⟩)
    · exact ⟨[], .inl ⟨rfl, hstarts⟩, List.not_mem_nil⟩
    · refine ⟨rest' ++ [u], .inr ⟨rest', rfl, hsince⟩, ?_⟩
      simpa [hnone] using hu.symm

lemma isUnclaimed_snoc : IsUnclaimed (uses ++ [u]) token ↔
    IsUnclaimed uses token ∧ (u = .claim token → (after uses).claim token = none) := by
  simp only [IsUnclaimed, snoc_eq_append_cons_iff]
  constructor
  · exact fun h => ⟨fun done later hsplit => h done _ (.inr ⟨later, rfl, hsplit⟩),
      fun hu => h uses [] (.inl ⟨rfl, rfl, hu⟩)⟩
  · rintro ⟨h, hlast⟩ done later (⟨rfl, rfl, hu⟩ | ⟨later', rfl, hsplit⟩)
    · exact hlast hu
    · exact h done later' hsplit

/-- Whether a use ends the invocation that holds a token, if it is live. -/
def Use.Ends (token : Token) : Use Env → Prop
  | .start node _ _ => node = token.node
  | .cancel node => node = token.node
  | .claim token' => token' = token
  | .handOut => False

/-- What is open after one more use was opened by it, or was open and has not been ended by it. -/
lemma isOpen_snoc (hclaim : IsOpen uses token id → (after uses).claim token ≠ none)
    (hfresh : ∀ task, ⟨token, id, task⟩ ∈ u.starts (startCount uses) → IsUnclaimed uses token) :
    IsOpen (uses ++ [u]) token id ↔
      (∃ task, ⟨token, id, task⟩ ∈ u.starts (startCount uses)) ∨
        (IsOpen uses token id ∧ ¬ u.Ends token) := by
  constructor
  · rintro ⟨⟨task, rest, hsince, hstart, hcancel⟩, hunclaimed⟩
    obtain ⟨hunclaimed, hlast⟩ := isUnclaimed_snoc.1 hunclaimed
    rcases since_snoc.1 hsince with ⟨-, hstarts⟩ | ⟨rest, rfl, hbefore⟩
    · exact .inl ⟨task, hstarts⟩
    simp only [List.mem_append, List.mem_singleton, not_or] at hstart hcancel
    have hopen : IsOpen uses token id :=
      ⟨⟨task, rest, hbefore, fun id' task' => (hstart id' task').1, hcancel.1⟩, hunclaimed⟩
    refine .inr ⟨hopen, fun hends => ?_⟩
    cases u with
    | start node id' task' => exact (hstart id' task').2 (by rw [hends])
    | cancel node => exact hcancel.2 (by rw [hends])
    | claim token' => exact hclaim hopen (hlast (by rw [hends]))
    | handOut => exact hends
  · rintro (⟨task, hstarts⟩ | ⟨⟨⟨task, rest, hsince, hstart, hcancel⟩, hunclaimed⟩, hspares⟩)
    · refine ⟨⟨task, [], since_snoc.2 (.inl ⟨rfl, hstarts⟩), by simp, by simp⟩,
        isUnclaimed_snoc.2 ⟨hfresh task hstarts, fun hu => ?_⟩⟩
      rw [hu] at hstarts
      cases hstarts
    · refine ⟨⟨task, rest ++ [u], since_snoc.2 (.inr ⟨rest, rfl, hsince⟩), ?_, ?_⟩,
        isUnclaimed_snoc.2 ⟨hunclaimed, fun hu => absurd (hu ▸ rfl) hspares⟩⟩
      · intro id' task' hmem
        rcases List.mem_append.1 hmem with hmem | hmem
        · exact hstart id' task' hmem
        · exact hspares (List.mem_singleton.1 hmem ▸ rfl)
      · intro hmem
        rcases List.mem_append.1 hmem with hmem | hmem
        · exact hcancel hmem
        · exact hspares (List.mem_singleton.1 hmem ▸ rfl)

lemma isDropped_snoc : IsDropped (uses ++ [u]) p ↔
    IsDropped uses p ∨ (u = .cancel p.token.node ∧ Waits uses p ∧ IsOpen uses p.token p.id) := by
  simp only [IsDropped, snoc_eq_append_cons_iff]
  constructor
  · rintro ⟨done, later, ⟨rfl, rfl, hu⟩ | ⟨later', rfl, hsplit⟩, hwaits, hopen⟩
    · exact .inr ⟨hu, hwaits, hopen⟩
    · exact .inl ⟨done, later', hsplit, hwaits, hopen⟩
  · rintro (⟨done, later, hsplit, hdropped⟩ | ⟨hu, hdropped⟩)
    · exact ⟨done, later ++ [u], .inr ⟨later, rfl, hsplit⟩, hdropped⟩
    · exact ⟨uses, [], .inl ⟨rfl, rfl, hu⟩, hdropped⟩

end Snoc

/-! ## What was started -/

section Started

variable {uses : List (Use Env)} {p q : PendingTask Env}

lemma mem_started_iff : p ∈ started uses ↔ ∃ rest, Since uses p rest := by
  induction uses using List.reverseRecOn with
  | nil => simp [started, startedFrom, Since]
  | append_singleton uses u ih =>
      rw [started_snoc, List.mem_append, ih]
      simp only [since_snoc]
      grind

lemma Waits.mem_started (h : Waits uses p) : p ∈ started uses := by
  obtain ⟨rest, hsince, -⟩ := h
  exact mem_started_iff.2 ⟨rest, hsince⟩

/-- **Tokens are numbered**, so those given out so far have smaller numbers than the next one. -/
lemma serial_lt_of_mem_started (h : p ∈ started uses) : p.token.serial < startCount uses := by
  induction uses using List.reverseRecOn with
  | nil => cases h
  | append_singleton uses u ih =>
      rw [startCount_snoc]
      rw [started_snoc] at h
      rcases List.mem_append.1 h with h | h
      · exact Nat.lt_add_right _ (ih h)
      · have hsome : 0 < (u.starts 0).length := by
          rw [(mem_starts.1 h).1]
          exact Nat.one_pos
        exact (mem_starts.1 h).2 ▸ Nat.lt_add_of_pos_right hsome

lemma nodup_tokens (uses : List (Use Env)) : ((started uses).map (·.token)).Nodup := by
  induction uses using List.reverseRecOn with
  | nil => exact List.nodup_nil
  | append_singleton uses u ih =>
      rw [started_snoc, List.map_append]
      refine ih.append ?_ ?_
      · cases u <;> simp [Use.starts]
      · intro token hold hnew
        obtain ⟨p, hp, rfl⟩ := List.mem_map.1 hold
        obtain ⟨q, hq, hsame⟩ := List.mem_map.1 hnew
        have hlt := serial_lt_of_mem_started hp
        rw [← hsame, (mem_starts.1 hq).2] at hlt
        exact Nat.lt_irrefl _ hlt

/-- A token tells which task was started. -/
lemma eq_of_token_eq (hp : p ∈ started uses) (hq : q ∈ started uses) (h : p.token = q.token) :
    p = q :=
  List.inj_on_of_nodup_map (nodup_tokens uses) hp hq h

end Started

/-! ## What a use does to a ledger -/

/-- Whether no node has two live invocations. -/
def HasOnePerNode (i : Invocations Env) : Prop := (i.live.map (·.token.node)).Nodup

section Ledger

variable {i : Invocations Env} {u : Use Env} {l k : LiveInvocation} {node : NodeId} {token : Token}
  {id : String} {p : PendingTask Env}

lemma mem_others : l ∈ i.others node ↔ l ∈ i.live ∧ l.token.node ≠ node := by
  simp [others]

lemma find?_cases (i : Invocations Env) (node : NodeId) :
    (∃ l ∈ i.live, l.token.node = node ∧ i.find? node = some l) ∨
      ((∀ l ∈ i.live, l.token.node ≠ node) ∧ i.find? node = none) := by
  cases hfind : i.find? node with
  | some l =>
      have hnode := List.find?_some hfind
      exact .inl ⟨l, List.mem_of_find?_eq_some hfind, beq_iff_eq.1 hnode, rfl⟩
  | none => exact .inr ⟨by simpa [find?] using hfind, rfl⟩

lemma HasOnePerNode.eq_of_node_eq (h : i.HasOnePerNode) (hl : l ∈ i.live) (hk : k ∈ i.live)
    (hnode : l.token.node = k.token.node) : l = k :=
  List.inj_on_of_nodup_map h hl hk hnode

/-- **What is live is found** at its node. -/
lemma HasOnePerNode.find?_eq (h : i.HasOnePerNode) (hl : l ∈ i.live) :
    i.find? l.token.node = some l := by
  rcases find?_cases i l.token.node with ⟨k, hk, hnode, hfind⟩ | ⟨hnone, -⟩
  · rw [hfind, h.eq_of_node_eq hk hl hnode]
  · exact absurd rfl (hnone l hl)

/-- **A claim** succeeds just if the token is live. -/
lemma HasOnePerNode.claim_cases (h : i.HasOnePerNode) (token : Token) :
    (∃ id, ⟨token, id⟩ ∈ i.live ∧
      i.claim token = some (id, { i with live := i.others token.node })) ∨
    (∀ id, ⟨token, id⟩ ∉ i.live) ∧ i.claim token = none := by
  by_cases hlive : ∃ id, ⟨token, id⟩ ∈ i.live
  · obtain ⟨id, hlive⟩ := hlive
    exact .inl ⟨id, hlive, by simp [claim, h.find?_eq hlive]⟩
  · refine .inr ⟨not_exists.1 hlive, ?_⟩
    rcases find?_cases i token.node with ⟨l, hl, -, hfind⟩ | ⟨-, hfind⟩
    · have hother : l.token ≠ token := fun htoken => hlive ⟨l.id, htoken ▸ hl⟩
      simp [claim, hfind, hother]
    · simp [claim, hfind]

lemma HasOnePerNode.claim_iff (h : i.HasOnePerNode) :
    (∃ i', i.claim token = some (id, i')) ↔ ⟨token, id⟩ ∈ i.live := by
  rcases h.claim_cases token with ⟨id', hlive, hclaim⟩ | ⟨hnone, hclaim⟩
  · rw [hclaim]
    constructor
    · rintro ⟨i', heq⟩
      cases heq
      exact hlive
    · intro hlive'
      cases h.eq_of_node_eq hlive hlive' rfl
      exact ⟨_, rfl⟩
  · simp [hclaim, hnone id]

lemma HasOnePerNode.isLive_iff (h : i.HasOnePerNode) :
    i.isLive token = true ↔ ∃ id, ⟨token, id⟩ ∈ i.live := by
  constructor
  · intro hlive
    obtain ⟨l, hl, htoken⟩ := (Option.any_eq_true _ _).1 hlive
    exact ⟨l.id, beq_iff_eq.1 htoken ▸ List.mem_of_find?_eq_some hl⟩
  · rintro ⟨id, hlive⟩
    simp [isLive, h.find?_eq hlive]

/-- **What is live after a use** was started by it, or was live and has not been ended by it. -/
lemma HasOnePerNode.mem_live_use (h : i.HasOnePerNode) : l ∈ (i.use u).live ↔
    (∃ task, ⟨l.token, l.id, task⟩ ∈ u.starts i.nextSerial) ∨
      (l ∈ i.live ∧ ¬ u.Ends l.token) := by
  obtain ⟨⟨node, serial⟩, id⟩ := l
  cases u with
  | start node' id' task =>
      simp [use, start, mem_others, Use.starts, Use.Ends, nextToken, eq_comm]
  | cancel node' =>
      rcases find?_cases i node' with ⟨k, hk, hnode, hfind⟩ | ⟨hnone, hfind⟩
      · simp [use, cancel, hfind, mem_others, Use.starts, Use.Ends, eq_comm]
      · simp only [use, cancel, hfind, Use.starts, Use.Ends, List.not_mem_nil, exists_false,
          false_or]
        exact ⟨fun hl => ⟨hl, fun heq => hnone _ hl heq.symm⟩, And.left⟩
  | claim token' =>
      rcases h.claim_cases token' with ⟨id', hlive, hclaim⟩ | ⟨hnone, hclaim⟩
      · simp only [use, hclaim, Option.map_some, Option.getD_some, mem_others, Use.starts, Use.Ends,
          List.not_mem_nil, exists_false, false_or]
        -- the node has no other live invocation than the one that is claimed
        refine and_congr_right fun hl => not_congr ⟨fun hnode => ?_, fun htoken => htoken ▸ rfl⟩
        exact congrArg LiveInvocation.token (h.eq_of_node_eq hlive hl hnode.symm)
      · simp only [use, hclaim, Option.map_none, Option.getD_none, Use.starts, Use.Ends,
          List.not_mem_nil, exists_false, false_or]
        exact ⟨fun hl => ⟨hl, fun heq => hnone id (heq ▸ hl)⟩, And.left⟩
  | handOut => simp [use, handOut, Use.starts, Use.Ends]

lemma HasOnePerNode.use (h : i.HasOnePerNode) (u : Use Env) : (i.use u).HasOnePerNode := by
  have hothers : ∀ node, ((i.others node).map (·.token.node)).Nodup :=
    fun node => h.sublist (List.filter_sublist.map _)
  cases u with
  | start node id task =>
      refine List.nodup_cons.2 ⟨fun hmem => ?_, hothers node⟩
      obtain ⟨l, hl, hnode⟩ := List.mem_map.1 hmem
      exact (mem_others.1 hl).2 hnode
  | cancel node =>
      rcases find?_cases i node with ⟨l, -, -, hfind⟩ | ⟨-, hfind⟩
      · simpa [Invocations.use, cancel, hfind, HasOnePerNode] using hothers node
      · simpa [Invocations.use, cancel, hfind] using h
  | claim token =>
      rcases h.claim_cases token with ⟨id, -, hclaim⟩ | ⟨-, hclaim⟩
      · simpa [Invocations.use, hclaim, HasOnePerNode] using hothers token.node
      · simpa [Invocations.use, hclaim] using h
  | handOut => exact h

/-- Claims touch nothing but what is live. -/
lemma use_claim (i : Invocations Env) (token : Token) :
    (i.use (.claim token)).queue = i.queue ∧ (i.use (.claim token)).nextSerial = i.nextSerial := by
  simp only [use, claim]
  cases i.find? token.node with
  | none => exact ⟨rfl, rfl⟩
  | some l => dsimp only; split <;> exact ⟨rfl, rfl⟩

lemma nextSerial_use (i : Invocations Env) (u : Use Env) :
    (i.use u).nextSerial = i.nextSerial + (u.starts 0).length := by
  cases u with
  | start => rfl
  | cancel node => simp only [use, cancel]; split <;> rfl
  | claim token => exact (use_claim i token).2
  | handOut => rfl

/-- **What waits after a use** was started by it, or waited and was not handed out or dropped. -/
lemma mem_queue_use : p ∈ (i.use u).queue ↔
    p ∈ u.starts i.nextSerial ∨ (p ∈ i.queue ∧ u ≠ .handOut ∧
      ¬ (u = .cancel p.token.node ∧ i.isLive p.token = true)) := by
  cases u with
  | start node id task => simp [use, start, Use.starts, nextToken, or_comm]
  | cancel node =>
      rcases find?_cases i node with ⟨l, -, rfl, hfind⟩ | ⟨-, hfind⟩
      · have hdrops : (l.token.node = p.token.node ∧ i.isLive p.token = true) ↔
            p.token = l.token := by
          constructor
          · rintro ⟨hnode, hlive⟩
            rw [isLive, ← hnode, hfind] at hlive
            exact (beq_iff_eq.1 hlive).symm
          · intro htoken
            rw [htoken]
            exact ⟨rfl, by simp [isLive, hfind]⟩
        simp [use, cancel, hfind, Use.starts, hdrops]
      · have hspares : ¬ (node = p.token.node ∧ i.isLive p.token = true) := by
          rintro ⟨rfl, hlive⟩
          simp [isLive, hfind] at hlive
        simp [use, cancel, hfind, Use.starts, hspares]
  | claim token => simp [use_claim, Use.starts]
  | handOut => simp [use, handOut, Use.starts]

/-- **Tasks go from the start into the queue, and from there out**, in their order. -/
lemma sublist_use (i : Invocations Env) (u : Use Env) :
    (i.given u ++ (i.use u).queue).Sublist (i.queue ++ u.starts i.nextSerial) := by
  cases u with
  | start node id task => exact .refl _
  | cancel node =>
      rcases find?_cases i node with ⟨l, -, -, hfind⟩ | ⟨-, hfind⟩
      · simp [use, given, cancel, hfind, Use.starts]
      · simp [use, given, cancel, hfind, Use.starts]
  | claim token => simp [use_claim, given, Use.starts]
  | handOut => simp [use, given, handOut, Use.starts]

end Ledger

/-! ## After any uses -/

section After

variable {uses : List (Use Env)} {l : LiveInvocation} {p : PendingTask Env} {token : Token}
  {id : String}

lemma nextSerial_after (uses : List (Use Env)) : (after uses).nextSerial = startCount uses := by
  induction uses using List.reverseRecOn with
  | nil => rfl
  | append_singleton uses u ih => rw [after_snoc, nextSerial_use, ih, startCount_snoc]

lemma hasOnePerNode_after (uses : List (Use Env)) : (after uses).HasOnePerNode := by
  induction uses using List.reverseRecOn with
  | nil => exact List.nodup_nil
  | append_singleton uses u ih => exact after_snoc uses u ▸ ih.use u

lemma exists_started_of_mem_live (h : l ∈ (after uses).live) :
    ∃ task, ⟨l.token, l.id, task⟩ ∈ started uses := by
  induction uses using List.reverseRecOn with
  | nil => cases h
  | append_singleton uses u ih =>
      rw [after_snoc, (hasOnePerNode_after uses).mem_live_use, nextSerial_after] at h
      rw [started_snoc]
      rcases h with ⟨task, hstarts⟩ | ⟨hlive, -⟩
      · exact ⟨task, List.mem_append_right _ hstarts⟩
      · obtain ⟨task, hstarted⟩ := ih hlive
        exact ⟨task, List.mem_append_left _ hstarted⟩

/-- A token that was not made yet cannot have been claimed. -/
lemma isUnclaimed_of_le (h : startCount uses ≤ token.serial) : IsUnclaimed uses token := by
  rintro done later rfl
  rcases (hasOnePerNode_after done).claim_cases token with ⟨id, hlive, -⟩ | ⟨-, hnone⟩
  · obtain ⟨task, hstarted⟩ := exists_started_of_mem_live hlive
    have hlt : token.serial < startCount done := serial_lt_of_mem_started hstarted
    rw [startCount_append] at h
    exact absurd (Nat.le_of_add_right_le h) (Nat.not_le.2 hlt)
  · exact hnone

/-- **What is live is what is open.** -/
lemma mem_live_after : l ∈ (after uses).live ↔ IsOpen uses l.token l.id := by
  induction uses using List.reverseRecOn with
  | nil => exact ⟨nofun, fun ⟨⟨_, _, ⟨_, hsplit, _⟩, _⟩, _⟩ => by simp at hsplit⟩
  | append_singleton uses u ih =>
      have hone := hasOnePerNode_after uses
      rw [after_snoc, hone.mem_live_use, nextSerial_after, ih, isOpen_snoc]
      · intro hopen hnone
        obtain ⟨i', hclaim⟩ := hone.claim_iff.2 (ih.2 hopen)
        rw [hclaim] at hnone
        cases hnone
      · exact fun task hstarts => isUnclaimed_of_le (mem_starts.1 hstarts).2.ge

lemma claim_after_iff : (∃ i', (after uses).claim token = some (id, i')) ↔ IsOpen uses token id :=
  (hasOnePerNode_after uses).claim_iff.trans mem_live_after

/-- The live invocations are counted by the nodes that have an open token. -/
lemma exists_open_nodes (uses : List (Use Env)) :
    ∃ nodes : Finset NodeId, nodes.card = (after uses).liveCount ∧
      ∀ node, node ∈ nodes ↔ ∃ token id, token.node = node ∧ IsOpen uses token id := by
  have hone : ((after uses).live.map (·.token.node)).Nodup := hasOnePerNode_after uses
  refine ⟨⟨_, Multiset.coe_nodup.2 hone⟩, List.length_map _, fun node => ?_⟩
  simp only [Finset.mem_mk, Multiset.mem_coe, List.mem_map]
  constructor
  · rintro ⟨l, hl, rfl⟩
    exact ⟨l.token, l.id, rfl, mem_live_after.1 hl⟩
  · rintro ⟨token, id, rfl, hopen⟩
    exact ⟨⟨token, id⟩, mem_live_after.2 hopen, rfl⟩

lemma isLive_after_iff : (after uses).isLive token = true ↔ ∃ id, IsOpen uses token id :=
  (hasOnePerNode_after uses).isLive_iff.trans (exists_congr fun _ => mem_live_after)

/-- The id of an open token is the one with which its task was started. -/
lemma isOpen_token_iff (h : p ∈ started uses) :
    (∃ id, IsOpen uses p.token id) ↔ IsOpen uses p.token p.id := by
  refine ⟨?_, fun hopen => ⟨_, hopen⟩⟩
  rintro ⟨id, hopen⟩
  obtain ⟨task, rest, hsince, -⟩ := hopen.undisturbed
  have hsame := eq_of_token_eq h (mem_started_iff.2 ⟨rest, hsince⟩) rfl
  rwa [show p.id = id from congrArg PendingTask.id hsame]

lemma IsDropped.mem_started (h : IsDropped uses p) : p ∈ started uses := by
  obtain ⟨done, later, rfl, ⟨rest, ⟨before, rfl, hserial⟩, -⟩, -⟩ := h
  exact mem_started_iff.2 ⟨rest ++ .cancel p.token.node :: later, before, by simp, hserial⟩

/-- Tasks that are started now were not started before. -/
lemma not_mem_started_of_mem_starts {u : Use Env} (h : p ∈ u.starts (startCount uses)) :
    p ∉ started uses :=
  fun hold => Nat.lt_irrefl _ ((mem_starts.1 h).2 ▸ serial_lt_of_mem_started hold)

/-- **What waits in the queue** was not handed out and not dropped. -/
lemma mem_queue_after : p ∈ (after uses).queue ↔ Waits uses p ∧ ¬ IsDropped uses p := by
  induction uses using List.reverseRecOn with
  | nil => exact ⟨nofun, fun ⟨hwaits, _⟩ => by cases hwaits.mem_started⟩
  | append_singleton uses u ih =>
      rw [after_snoc, mem_queue_use, nextSerial_after, ih, waits_snoc, isDropped_snoc]
      by_cases hstarts : p ∈ u.starts (startCount uses)
      · have hnew := not_mem_started_of_mem_starts hstarts
        have hdropped : ¬ IsDropped uses p := fun h => hnew h.mem_started
        have hwaits : ¬ Waits uses p := fun h => hnew h.mem_started
        simp [hstarts, hdropped, hwaits]
      · have hopen : Waits uses p →
            ((after uses).isLive p.token = true ↔ IsOpen uses p.token p.id) :=
          fun h => isLive_after_iff.trans (isOpen_token_iff h.mem_started)
        simp only [hstarts, false_or]
        grind

/-- **What was handed out** does not wait and was not dropped. -/
lemma mem_handedOut_iff : p ∈ handedOut uses ↔
    p ∈ started uses ∧ ¬ Waits uses p ∧ ¬ IsDropped uses p := by
  induction uses using List.reverseRecOn with
  | nil => simp [handedOut, givenFrom, started, startedFrom]
  | append_singleton uses u ih =>
      have hgiven : p ∈ (after uses).given u ↔
          u = .handOut ∧ Waits uses p ∧ ¬ IsDropped uses p := by
        rw [← mem_queue_after]
        cases u <;> simp [given, handOut]
      rw [handedOut_snoc, started_snoc, List.mem_append, List.mem_append, ih, hgiven, waits_snoc,
        isDropped_snoc]
      have hnew : p ∈ u.starts (startCount uses) → p ∉ started uses := not_mem_started_of_mem_starts
      have hold : Waits uses p → p ∈ started uses := Waits.mem_started
      have hnothing : u = .handOut → p ∉ u.starts (startCount uses) := by
        rintro rfl
        exact List.not_mem_nil
      have hother : u = .cancel p.token.node → u ≠ .handOut := by
        rintro rfl
        nofun
      grind

lemma sublist_started (uses : List (Use Env)) :
    (handedOut uses ++ (after uses).queue).Sublist (started uses) := by
  induction uses using List.reverseRecOn with
  | nil => exact .refl _
  | append_singleton uses u ih =>
      rw [handedOut_snoc, after_snoc, started_snoc, List.append_assoc, ← nextSerial_after]
      refine ((sublist_use (after uses) u).append_left _).trans ?_
      rw [← List.append_assoc]
      exact ih.append_right _

end After

/-- **The uses of a ledger tell what it answers**, whatever they are.

* A claim gives an id just if the token is open for an invocation with this id, and a token is live
  just if it is open.
* As many invocations are live as there are nodes with an open token.
* The tasks that are handed out are among those that were started, in their order and once each, and
  all of them but for those that still wait and those that were dropped. -/
theorem uses_tell (uses : List (Use Env)) :
    (∀ token id, (∃ i', (after uses).claim token = some (id, i')) ↔ IsOpen uses token id) ∧
    (∀ token, (after uses).isLive token = true ↔ ∃ id, IsOpen uses token id) ∧
    (∃ nodes : Finset NodeId, nodes.card = (after uses).liveCount ∧
      ∀ node, node ∈ nodes ↔ ∃ token id, token.node = node ∧ IsOpen uses token id) ∧
    (handedOut uses).Sublist (started uses) ∧ ((started uses).map (·.token)).Nodup ∧
    ∀ p, p ∈ handedOut uses ↔ p ∈ started uses ∧ ¬ Waits uses p ∧ ¬ IsDropped uses p := by
  exact ⟨fun _ _ => claim_after_iff, fun _ => isLive_after_iff, exists_open_nodes uses,
    (List.sublist_append_left _ _).trans (sublist_started uses), nodup_tokens uses,
    fun _ => mem_handedOut_iff⟩

/-- A node that is entered again gets another token, and the first one is stale. -/
example : let i : Invocations Unit := after [.start 4 "submit" (Task.succeed .null), .cancel 4,
      .start 4 "submit" (Task.succeed .null)]
    i.isLive ⟨4, 0⟩ = false ∧ i.isLive ⟨4, 1⟩ = true ∧ i.liveCount = 1 := by
  decide

end FormChart.Invocations
