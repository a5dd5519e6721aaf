import Mathlib.Data.List.Nodup
import FormChart.Proofs.Session.Enactment

/-!
# Entries and exits are well nested

Along every journey of a session over a tree, **each node is entered and left by turns**, and the
nodes that are entered but not left are the active leaf and what lies above it
(`Journey.entries_and_exits_alternate`).  What is recorded there is what the machine performs
(`Enacted`).

The invariant is `Nested`: for every node the crossings of its border swing between outside and
inside, and have ended inside exactly if the node contains the active leaf.  A passage takes a
lineage `out ++ keep` to a lineage `into ++ keep`; since lineages have no repetitions, every node
is crossed outwards at most once, then inwards at most once, and not at all if it is kept
(`swings_passage`).
-/

namespace FormChart

/-- How a deed crosses the border of a node: inwards (true), outwards (false) or not at all. -/
def Deed.crossing? (node : NodeId) : Deed → Option Bool
  | .entered i => if i = node then some true else none
  | .left i => if i = node then some false else none
  | _ => none

/-- The deed that crosses the border of a node. -/
def Deed.across (inwards : Bool) (node : NodeId) : Deed :=
  if inwards then .entered node else .left node

/-- The crossings of the border of a node, in order. -/
def crossings (node : NodeId) (deeds : List Deed) : List Bool :=
  deeds.filterMap (Deed.crossing? node)

/-- Whether crossings take turns, coming from one side and ending up on another. -/
def Swings : Bool → List Bool → Bool → Prop
  | before, [], after => before = after
  | before, x :: rest, after => x ≠ before ∧ Swings x rest after

namespace Swings

lemma append {first rest : List Bool} {before between after : Bool}
    (hfirst : Swings before first between) (hrest : Swings between rest after) :
    Swings before (first ++ rest) after := by
  induction first generalizing before with
  | nil => exact hfirst ▸ hrest
  | cons x first ih => exact ⟨hfirst.1, ih hfirst.2⟩

lemma isChain {xs : List Bool} {before after : Bool} (h : Swings before xs after) :
    (before :: xs).IsChain (· ≠ ·) := by
  induction xs generalizing before with
  | nil => exact List.isChain_singleton _
  | cons x xs ih => exact List.isChain_cons_cons.2 ⟨h.1.symm, ih h.2⟩

/-- There is one more crossing inwards than outwards, or the other way round, or neither, as the
sides tell. -/
lemma count {xs : List Bool} {before after : Bool} (h : Swings before xs after) :
    xs.count true + before.toNat = xs.count false + after.toNat := by
  induction xs generalizing before with
  | nil => exact congrArg (fun side : Bool => 0 + side.toNat) h
  | cons x xs ih =>
      have hxs := ih h.2
      have hne := h.1
      cases x <;> cases before <;> simp_all
      omega

end Swings

/-! ## Crossings of deeds -/

section Crossings

variable (node : NodeId)

lemma crossings_append (first rest : List Deed) :
    crossings node (first ++ rest) = crossings node first ++ crossings node rest :=
  List.filterMap_append

lemma crossings_acted (rest : List Deed) :
    crossings node (.acted :: rest) = crossings node rest := rfl

lemma crossing?_eq_some {d : Deed} {inwards : Bool} :
    d.crossing? node = some inwards ↔ d = .across inwards node := by
  cases d <;> cases inwards <;> simp [Deed.crossing?, Deed.across]

lemma count_crossings (inwards : Bool) (deeds : List Deed) :
    (crossings node deeds).count inwards = deeds.count (.across inwards node) := by
  rw [List.count, List.count, crossings, List.countP_filterMap]
  refine List.countP_congr fun d _ => ?_
  rw [beq_iff_eq, ← crossing?_eq_some]
  cases d.crossing? node <;> simp

/-- Nodes that are crossed once each. -/
lemma crossings_across (inwards : Bool) {nodes : List NodeId} (hnd : nodes.Nodup) :
    crossings node (nodes.map (.across inwards)) = if node ∈ nodes then [inwards] else [] := by
  induction nodes with
  | nil => rfl
  | cons i rest ih =>
      obtain ⟨hi, hrest⟩ := List.nodup_cons.1 hnd
      rw [List.map_cons, ← List.singleton_append, crossings_append, ih hrest]
      by_cases hnode : i = node
      · subst hnode
        have hcross := (crossing?_eq_some i).2 (Eq.refl (Deed.across inwards i))
        simp [crossings, hcross, hi]
      · have hcross : (Deed.across inwards i).crossing? node = none := by
          cases inwards <;> simp [Deed.across, Deed.crossing?, hnode]
        simp [crossings, hcross, Ne.symm hnode]

lemma crossings_starts {C Env : Type} (n : Node C Env) (i : NodeId) (serial : Nat) :
    crossings node (Macrostep.starts n i serial) = [] := by
  unfold Macrostep.starts
  cases n.invoke <;> rfl

/-- **A passage swings every border**: from where the old lineage has the node to where the new
one has it. -/
lemma swings_passage {out into keep : List NodeId} (hout : (out ++ keep).Nodup)
    (hinto : (into.reverse ++ keep).Nodup) :
    Swings (decide (node ∈ out ++ keep))
      (crossings node (out.map .left) ++ crossings node (into.map .entered))
      (decide (node ∈ into.reverse ++ keep)) := by
  obtain ⟨hnout, -, hdisjout⟩ := List.nodup_append.1 hout
  obtain ⟨hninto, -, hdisjinto⟩ := List.nodup_append.1 hinto
  have hleft := crossings_across node false hnout
  have hentered := crossings_across node true (List.nodup_reverse.1 hninto)
  rw [show Deed.left = Deed.across false from rfl, show Deed.entered = Deed.across true from rfl,
    hleft, hentered]
  by_cases hkeep : node ∈ keep
  · -- a node that is kept is neither left nor entered
    have hnotout : node ∉ out := fun hmem => hdisjout node hmem node hkeep rfl
    have hnotinto : node ∉ into := fun hmem =>
      hdisjinto node (List.mem_reverse.2 hmem) node hkeep rfl
    simp [hnotout, hnotinto, hkeep, Swings]
  · by_cases hmemout : node ∈ out <;> by_cases hmeminto : node ∈ into <;>
      simp [hmemout, hmeminto, hkeep, Swings]

end Crossings

/-! ## Orderly episodes -/

variable {C Env S : Type}

/-- What an episode of a journey may look like.

A transition that stays does nothing but act.  Any other transition first leaves nodes, beginning
with the leaf and each followed by its parent, then acts, then enters nodes, each followed by a
child of its own; an invocation can start only when all of them are entered. -/
def Episode.Orderly (chart : Chart C Env) : Episode C → Prop
  | .transition leaf t deeds =>
    if t.stays chart leaf then deeds = [.acted]
    else ∃ (exits entries : List NodeId) (tokens : List Token),
      deeds = exits.map .left ++ .acted :: (entries.map .entered ++ tokens.map .started) ∧
      exits.head? = some leaf ∧ exits.IsChain (fun a b => chart.parent? a = some b) ∧
      entries ≠ [] ∧ entries.IsChain (fun a b => chart.parent? b = some a)
  | .entry deeds => ∃ (entries : List NodeId) (tokens : List Token),
      deeds = entries.map .entered ++ tokens.map .started ∧
      entries.head? = some Chart.root ∧ entries.IsChain (fun a b => chart.parent? b = some a)
  | .handOut _ | .claim _ => True

/-- Whether a node contains the active leaf, if there is one. -/
def Chart.isActive (chart : Chart C Env) (leaf : Option NodeId) (node : NodeId) : Bool :=
  leaf.any (chart.encloses node)

/-- The episodes of a journey and the active leaf that they have led to. -/
structure Nested (chart : Chart C Env) (episodes : List (Episode C)) (leaf : Option NodeId) :
    Prop where
  isLeaf : ∀ i, leaf = some i → chart.IsLeaf i
  swings : ∀ node, Swings false (crossings node (deedsOf episodes)) (chart.isActive leaf node)
  orderly : ∀ e ∈ episodes, e.Orderly chart

namespace Nested

variable {chart : Chart C Env} {episodes : List (Episode C)}

/-- Before the first entry nothing has happened that crosses a border. -/
lemma nil (chart : Chart C Env) : Nested chart ([] : List (Episode C)) none :=
  ⟨nofun, fun _ => rfl, nofun⟩

lemma append {leaf leaf' : Option NodeId} {e : Episode C} (h : Nested chart episodes leaf)
    (hleaf : ∀ i, leaf' = some i → chart.IsLeaf i)
    (hswings : ∀ node, Swings (chart.isActive leaf node) (crossings node e.deeds)
      (chart.isActive leaf' node))
    (horderly : e.Orderly chart) : Nested chart (episodes ++ [e]) leaf' := by
  refine ⟨hleaf, fun node => ?_, fun e' he' => ?_⟩
  · rw [deedsOf_append, deedsOf_singleton, crossings_append]
    exact (h.swings node).append (hswings node)
  · rcases List.mem_append.1 he' with he' | he'
    · exact h.orderly e' he'
    · exact List.mem_singleton.1 he' ▸ horderly

/-- An episode without crossings. -/
lemma append_quiet {leaf : Option NodeId} {e : Episode C} (h : Nested chart episodes leaf)
    (hquiet : ∀ node, crossings node e.deeds = []) (horderly : e.Orderly chart) :
    Nested chart (episodes ++ [e]) leaf :=
  h.append h.isLeaf (fun node => by rw [hquiet]; rfl) horderly

/-- The start of an invocation crosses no border, and is the start of at most one token. -/
lemma exists_starts (n : Node C Env) (i : NodeId) (serial : Nat) :
    ∃ tokens : List Token, Macrostep.starts n i serial = tokens.map .started := by
  unfold Macrostep.starts
  cases n.invoke with
  | none => exact ⟨[], rfl⟩
  | some v => exact ⟨[⟨i, serial⟩], rfl⟩

lemma isActive_some (leaf node : NodeId) :
    chart.isActive (some leaf) node = decide (node ∈ chart.lineage leaf) := by
  simp [Chart.isActive, Chart.encloses]

variable [Model C] (h : chart.IsTree)

include h

/-- **One transition** keeps entries and exits nested. -/
lemma transition {leaf : NodeId} {t : Transition C} {m : Macrostep C Env} {event : Event}
    (hnested : Nested chart episodes (some leaf)) (hm : m.machine.leaf = some leaf)
    (ht : chart.choose? leaf m.machine.context event.name = some t) :
    Nested chart (episodes ++ [.transition leaf t (m.deeds chart event (chart.moves leaf t))])
      (m.take chart event (chart.moves leaf t)).machine.leaf := by
  rcases h.moves_cases (hnested.isLeaf leaf rfl) ht with
    ⟨hstays, hmoves⟩ | ⟨up, down, landing, hstays, hpass, hmoves⟩
  · have hdeeds : m.deeds chart event (chart.moves leaf t) = [.acted] := by rw [hmoves]; rfl
    have hleaf : (m.take chart event (chart.moves leaf t)).machine.leaf = some leaf := by
      rw [hmoves, ← hm]
      exact Macrostep.move_act_leaf chart event m t.actions
    rw [hdeeds, hleaf]
    refine hnested.append_quiet (fun node => rfl) ?_
    simp only [Episode.Orderly, hstays, if_true]
  · obtain ⟨n, hn, -⟩ := hpass.target
    obtain ⟨l, hl, -⟩ := hpass.source
    obtain ⟨base, hline, hline'⟩ := hpass.above
    obtain ⟨tokens, htokens⟩ := exists_starts n landing m.machine.invocations.nextSerial
    have hout : chart.lineage leaf = (leaf :: up) ++ base := hline
    have hinto : chart.lineage landing = (down ++ [landing]).reverse ++ base := by
      rw [hline', List.reverse_append, List.reverse_singleton, List.singleton_append,
        List.cons_append]
    rw [hmoves, Macrostep.deeds_passage h hpass hn, Macrostep.take_passage_leaf hn]
    refine hnested.append (fun i hi => ?_) (fun node => ?_) ?_
    · cases hi
      exact hpass.target
    · rw [isActive_some, isActive_some, hout, hinto, Episode.deeds, crossings_append,
        crossings_acted, crossings_append, crossings_starts, List.append_nil]
      exact swings_passage node (hout ▸ h.lineage_nodup hl) (hinto ▸ h.lineage_nodup hn)
    · have hup := h.isChain_lineage hl
      have hdown := h.isChain_lineage hn
      rw [hout] at hup
      rw [hinto] at hdown
      simp only [Episode.Orderly, hstays, Bool.false_eq_true, if_false]
      refine ⟨leaf :: up, down ++ [landing], tokens, by rw [htokens], rfl,
        hup.left_of_append, by simp, ?_⟩
      exact List.isChain_reverse.1 hdown.left_of_append

/-- **The first entry** begins the nesting. -/
lemma entry {target : NodeId} {n : Node C Env} (hn : chart.node? target = some n)
    {m : Macrostep C Env} {event : Event} (hnested : Nested chart episodes none) :
    Nested chart (episodes ++ [.entry (m.deeds chart event (chart.firstMoves target))])
      (m.take chart event (chart.firstMoves target)).machine.leaf := by
  obtain ⟨down, hline, hmoves⟩ := h.firstMoves_eq hn
  obtain ⟨k, hk, -⟩ := h.isLeaf_landing hn
  set landing := chart.landing target
  have hline' : chart.lineage landing = landing :: (down.reverse ++ []) := by
    rw [hline, List.append_nil]
  have hinto : chart.lineage landing = (down ++ [landing]).reverse := by
    rw [hline, List.reverse_append, List.reverse_singleton, List.singleton_append]
  obtain ⟨tokens, htokens⟩ := exists_starts k landing m.machine.invocations.nextSerial
  rw [hmoves, Macrostep.deeds_entry h hk hline', Macrostep.take_leaf,
    Macrostep.foldl_entry_leaf hk]
  refine hnested.append (fun i hi => ?_) (fun node => ?_) ?_
  · cases hi
    exact h.isLeaf_landing hn
  · have hnd : ((down ++ [landing]).reverse ++ []).Nodup := by
      rw [List.append_nil, ← hinto]
      exact h.lineage_nodup hk
    have hout : (([] : List NodeId) ++ []).Nodup := List.nodup_nil
    have hswings := swings_passage node hout hnd
    rw [List.append_nil, List.append_nil, ← hinto] at hswings
    rw [isActive_some, Episode.deeds, crossings_append, crossings_starts, List.append_nil]
    exact hswings
  · have hdown := h.isChain_lineage hk
    rw [hinto] at hdown
    refine ⟨down ++ [landing], tokens, by rw [htokens], ?_, List.isChain_reverse.1 hdown⟩
    rw [← List.getLast?_reverse, ← hinto, h.lineage_eq_append hk (h.root_mem_lineage hk),
      h.lineage_root, List.getLast?_append, List.getLast?_singleton, Option.some_or]

variable (permits : List (Episode C) → Call → Prop)

/-- **Nesting is sustained.** -/
lemma sustained : Sustained permits chart fun episodes machine =>
    Nested chart episodes machine.leaf where
  entry episodes machine target hnested hleaf htarget := by
    obtain ⟨n, hn⟩ := h.exists_of_entry htarget
    rw [hleaf] at hnested
    exact hnested.entry h hn
  transition episodes m event leaf t hnested hleaf hchoose := by
    rw [hleaf] at hnested
    exact hnested.transition h hleaf hchoose
  claim episodes machine settlement id invocations hnested _ _ :=
    hnested.append_quiet (fun node => rfl) trivial
  handOut episodes machine hnested := by
    refine hnested.append_quiet (fun node => ?_) trivial
    simp [crossings, Episode.deeds, Deed.crossing?]
  wait episodes machine clock hnested := hnested

end Nested

namespace Journey

variable [Model C] [Storage S]

/-- **Entries and exits alternate.**  Take any chart that is built, any session over it that was not
started yet, and any run of it, seen at any moment: after a call, or between the transitions of a
macrostep.

* The active leaf is atomic or final.
* The exits and entries of any node take turns, an entry coming first, and the node was entered once
  more than it was left if it contains the active leaf, and as often as it was left if not.
* All transitions so far were orderly.
* The recorded exits, actions and entries are those that were performed: the context, the queue of
  raised events and the effects that were asked for are what the exit lists, the actions of the
  transitions and the entry lists have made of the context at first, in the recorded order. -/
theorem entries_and_exits_alternate {b : Blueprint C Env}
    {permits : List (Episode C) → Call → Prop} {s₀ : Session C Env S}
    (hbuild : b.build = .ok s₀.chart) (hstopped : s₀.machine.leaf = none)
    {episodes : List (Episode C)} {moment : Moment C Env S}
    (run : Journey permits s₀ episodes moment) :
    (∀ leaf, moment.machine.leaf = some leaf → s₀.chart.IsLeaf leaf) ∧
    (∀ node, (false :: crossings node (deedsOf episodes)).IsChain (· ≠ ·) ∧
      (deedsOf episodes).count (.entered node) =
        (deedsOf episodes).count (.left node) +
          if s₀.chart.isActive moment.machine.leaf node then 1 else 0) ∧
    (∀ e ∈ episodes, e.Orderly s₀.chart) ∧
    Enacted s₀.chart s₀.machine.context episodes moment.stage := by
  have htree := Blueprint.isTree_of_build hbuild
  have hnil : Nested s₀.chart ([] : List (Episode C)) s₀.machine.leaf := by
    rw [hstopped]
    exact Nested.nil _
  have hnested := (run.invariant (Nested.sustained htree permits) hnil).2
  refine ⟨hnested.isLeaf, fun node => ⟨(hnested.swings node).isChain, ?_⟩, hnested.orderly,
    run.enacted⟩
  have hcount := (hnested.swings node).count
  rw [count_crossings, count_crossings] at hcount
  cases hactive : s₀.chart.isActive moment.machine.leaf node <;>
    simpa [hactive, Deed.across] using hcount

end Journey

/-! ## A visit -/

/-- A small chart: a ring leads from the street into the hall of a house.  Exits, actions and
entries write a line each, and raise an event or ask for a log. -/
def visit : Blueprint Tally Unit :=
  { key := "visit", kind := .compound, initial := some "street"
    children := [
      { key := "street", kind := .atomic
        exit := [(Tally.Change.note "street").action, .raise "gone"]
        on := [("ring", {
          target := some "house", actions := [(Tally.Change.note "bell").action] })] },
      { key := "house", kind := .compound, initial := some "hall"
        entry := [(Tally.Change.note "house").action, .log "ding"]
        children := [
          { key := "hall", kind := .atomic
            entry := [(Tally.Change.note "hall").action] }] }] }

/-- The visit before its start. -/
def visitSession : Session Tally Unit Memory := .new visit.outline.chart {}

lemma visit_build : visit.build = .ok visitSession.chart :=
  Blueprint.build_of_defects_eq_nil (by decide +kernel)

namespace Journey

/-- After the ring, and before anything else is decided, the exit list of the street, the actions of
the transition and the entry lists of the house and of the hall have been performed in this order,
and the hall was entered once and not left. -/
theorem entries_and_exits_alternate_visit :
    visit.build = .ok visitSession.chart ∧ visitSession.machine.leaf = none ∧
    ∃ s episodes,
      visitSession.call 9 .start = some s ∧
      Journey (fun _ _ => True) visitSession episodes (s.begin (.send { name := "ring" })).2 ∧
      (s.begin (.send { name := "ring" })).2.machine.leaf = some 3 ∧
      visitSession.chart.IsLeaf 3 ∧
      (deedsOf episodes).count (.entered 3) = (deedsOf episodes).count (.left 3) + 1 ∧
      Enacted visitSession.chart {} episodes
        (.under { name := "ring" } { log := ["street", "bell", "house", "hall"] }
          [{ name := "gone" }] [.log "ding"]) := by
  have hrun : ((visitSession.call 9 .start).map fun s =>
      let moment := (s.begin (.send { name := "ring" })).2
      (moment.machine.leaf, moment.stage)) =
      some (some 3, .under { name := "ring" } { log := ["street", "bell", "house", "hall"] }
        [{ name := "gone" }] [.log "ding"]) := by decide +kernel
  obtain ⟨s, hstart, hring⟩ := Option.map_eq_some_iff.1 hrun
  obtain ⟨hleaf, hstage⟩ := Prod.mk.inj hring
  have before : Journey (fun _ _ => True) visitSession [] (.quiet visitSession) := .nil
  obtain ⟨first, hfirst⟩ := before.of_call trivial hstart
  have run := hfirst.call (.send { name := "ring" }) trivial
  obtain ⟨hisLeaf, hcount, -, henacted⟩ := entries_and_exits_alternate visit_build rfl run
  rw [hstage] at henacted
  refine ⟨visit_build, rfl, s, _, hstart, run, hleaf, hisLeaf 3 hleaf, ?_, henacted⟩
  have hactive : visitSession.chart.isActive (some 3) 3 = true := by decide +kernel
  have := (hcount 3).2
  rwa [hleaf, hactive, if_pos rfl] at this

end Journey

end FormChart
