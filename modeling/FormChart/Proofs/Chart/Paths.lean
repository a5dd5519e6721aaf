import FormChart.Proofs.Chart.Validity
import FormChart.Tally

/-!
# Paths

A node can be named by its path, or by keys that lead down to it from a node with a global id.  Both
are texts in which **points stand between the keys**, and keys and ids are texts themselves: nothing
keeps a key from having a point in it, or from being empty, and a path may begin with the sign of
global ids.  A chart with such keys is built all the same, and then names may be shared or lead
nowhere (`Chart.not_addressable`).

Apart from this names are reliable (`Chart.addressable`).  In a chart whose keys can be told apart
in a path (`Chart.Legible`) no two nodes have the same path, and every path is found that does not
begin with the sign of global ids.  What is found from a global id depends on the id and on the keys
that follow it, and on no other.
-/

namespace FormChart

variable {C Env : Type}

namespace Chart

/-- Whether keys lead from a node to another one, from child to child. -/
inductive Leads (chart : Chart C Env) (i : NodeId) : List String → NodeId → Prop
  | here : Leads chart i [] i
  | down {keys : List String} {j k : NodeId} {n m : Node C Env} :
      Leads chart i keys j → chart.node? j = some n → k ∈ n.children → chart.node? k = some m →
      Leads chart i (keys ++ [m.key]) k

/-- Whether the keys can be told apart in every path: those below the root have no points in them,
and those right below it are not empty. -/
structure Legible (chart : Chart C Env) : Prop where
  key : ∀ {i n}, chart.node? i = some n → i ≠ root → '.' ∉ n.key.toList
  child : ∀ {i n}, chart.node? i = some n → n.parent? = some root → n.key ≠ ""

/-- What has to be checked of the table. -/
lemma Legible.of_nodes {chart : Chart C Env}
    (hkeys : ∀ n ∈ chart.nodes.tail, '.' ∉ n.key.toList)
    (hchildren : ∀ n ∈ chart.nodes, n.parent? = some root → n.key ≠ "") : chart.Legible where
  key := by
    intro i n hn hi
    obtain ⟨i, rfl⟩ := Nat.exists_eq_succ_of_ne_zero hi
    refine hkeys n (List.mem_of_getElem? (i := i) ?_)
    rwa [List.getElem?_tail]
  child := fun hn => hchildren _ (List.mem_of_getElem? hn)

end Chart

/-! ## Keys with points between them -/

/-- The keys with points between them. -/
def joined (keys : List String) : String := ".".intercalate keys

lemma joined_concat {keys : List String} (hne : keys ≠ []) (key : String) :
    joined (keys ++ [key]) = joined keys ++ "." ++ key := by
  rw [joined, String.intercalate_append_of_ne_nil hne (List.cons_ne_nil _ _),
    String.intercalate_singleton, joined]

/-- **Keys without points can be told apart.** -/
lemma segments_joined {keys : List String} (hne : keys ≠ [])
    (hkeys : ∀ key ∈ keys, '.' ∉ key.toList) : segments (joined keys).toList = keys := by
  have hsplit : (joined keys).toList.splitOn '.' = keys.map String.toList := by
    rw [joined, String.toList_intercalate]
    exact List.splitOn_intercalate _ (by simpa using hkeys) (by simpa using hne)
  rw [segments, hsplit, List.map_map]
  simp

lemma joined_inj {keys more : List String} (hne : keys ≠ []) (hne' : more ≠ [])
    (hkeys : ∀ key ∈ keys, '.' ∉ key.toList) (hmore : ∀ key ∈ more, '.' ∉ key.toList)
    (h : joined keys = joined more) : keys = more := by
  rw [← segments_joined hne hkeys, h, segments_joined hne' hmore]


/-! ## Children, paths and ids in the table -/

/-- The chart of an outline keeps the places of its nodes. -/
lemma Outline.skeleton_chart (o : Outline C Env) : o.chart.skeleton = o.skeleton := by
  refine List.ext_getElem? fun i => ?_
  rw [Chart.skeleton, List.getElem?_map, getElem?_skeleton, ← Chart.node?, node?_chart,
    Option.map_map]
  rfl

namespace Blueprint

variable {b : Blueprint C Env}

lemma isSound_of_build {chart : Chart C Env} (h : b.build = .ok chart) : b.IsSound := by
  refine isSound_iff.2 fun d hflaw => ?_
  have hd := mem_defects_iff.2 hflaw
  unfold build at h
  split at h
  next hnil =>
      rw [hnil] at hd
      cases hd
  next => cases h

/-- Every node of the chart is that of an address. -/
lemma exists_address_of_node {i : NodeId} {n : Node C Env} (hn : b.outline.chart.node? i = some n) :
    ∃ w m, b.at? w = some m ∧ b.index w = i ∧ n = b.outline.node i (b.entryAt m w) := by
  obtain ⟨o, ho, rfl⟩ := Outline.node?_chart_eq_some.1 hn
  obtain ⟨w, m, hm, hi, rfl⟩ := exists_address ho
  exact ⟨w, m, hm, hi, rfl⟩

/-- A child of a node, by the address of the node. -/
lemma exists_position {w : List Nat} {n : Blueprint C Env} (hn : b.at? w = some n) {k : NodeId}
    (hk : k ∈ b.outline.skeleton.childrenOf (b.index w)) :
    ∃ p c, n.children[p]? = some c ∧ b.at? (w ++ [p]) = some c ∧ b.index (w ++ [p]) = k := by
  rw [childrenOf_index hn, List.mem_map] at hk
  obtain ⟨p, hp, rfl⟩ := hk
  have hlt : p < n.children.length := List.mem_range.1 hp
  have hc : n.children[p]? = some n.children[p] := List.getElem?_eq_getElem hlt
  exact ⟨p, n.children[p], hc, (at?_concat hn p).trans hc, rfl⟩

lemma pathFrom_concat {path : String} {w : List Nat} {k : Nat} {c : Blueprint C Env}
    (hc : b.at? (w ++ [k]) = some c) :
    b.pathFrom path (w ++ [k]) = Place.childPath (b.pathFrom path w) c.key := by
  induction w generalizing b path with
  | nil =>
      obtain ⟨d, hd, hc⟩ := at?_cons_eq_some.1 hc
      obtain rfl : d = c := by simpa using hc
      rw [List.nil_append, pathFrom_cons hd, pathFrom, pathFrom]
  | cons l w ih =>
      obtain ⟨d, hd, hc⟩ := at?_cons_eq_some.1 hc
      rw [List.cons_append, pathFrom_cons hd, pathFrom_cons hd, ih hc]

end Blueprint

namespace Chart

section Build

variable {b : Blueprint C Env} {chart : Chart C Env} (h : b.build = .ok chart) {i j k : NodeId}
  {n m : Node C Env} {keys : List String}

include h

/-- A child and its parent: **the path is prolonged by the key**, and the key leads to the child. -/
lemma child_of_build (hn : chart.node? i = some n) (hk : k ∈ n.children)
    (hm : chart.node? k = some m) :
    m.parent? = some i ∧ m.path = Place.childPath n.path m.key ∧
      chart.skeleton.child? i m.key = some k := by
  have hsound := Blueprint.isSound_of_build h
  obtain rfl := Blueprint.chart_of_build h
  obtain ⟨w, o, ho, rfl, rfl⟩ := Blueprint.exists_address_of_node hn
  obtain ⟨p, c, hp, hc, rfl⟩ := Blueprint.exists_position ho hk
  obtain ⟨v, d, hd, hindex, rfl⟩ := Blueprint.exists_address_of_node hm
  obtain rfl := (Blueprint.index_inj hd hc).1 hindex
  obtain rfl := Option.some.inj (hd.symm.trans hc)
  refine ⟨Blueprint.parent?_concat hd, Blueprint.pathFrom_concat hd, ?_⟩
  -- siblings have different keys, so the first child with the key is the child itself
  have hfirst : o.children.findIdx? (·.key == d.key) = some p := by
    obtain ⟨hlt, rfl⟩ := List.getElem?_eq_some_iff.1 hp
    refine List.findIdx?_eq_some_iff_getElem.2 ⟨hlt, by simp, fun q hq heq => ?_⟩
    have hkeys := hsound.keys ho
    have hbefore : q < (o.children.map (·.key)).length := by simpa using hq.trans hlt
    have hplace : p < (o.children.map (·.key)).length := by simpa using hlt
    have hsame : (o.children.map (·.key))[q] = (o.children.map (·.key))[p] := by simpa using heq
    exact Nat.ne_of_lt hq (hkeys.getElem_inj_iff.1 hsame)
  have hchild : b.outline.skeleton.child? (b.index w) d.key =
      (b.child? w d.key).map b.index := Blueprint.child?_index ho
  rw [Blueprint.child?_eq ho, hfirst] at hchild
  rw [Outline.skeleton_chart]
  exact hchild

/-- **Keys that lead to a node find it.** -/
lemma Leads.descend?_eq (hlead : chart.Leads i keys j) :
    chart.skeleton.descend? i keys = some j := by
  induction hlead with
  | here => rfl
  | down _ hn hk hm ih =>
      rw [Skeleton.descend?, List.foldlM_append, ← Skeleton.descend?, ih]
      obtain ⟨-, -, hchild⟩ := child_of_build h hn hk hm
      simp [hchild]

/-- The keys that lead to a node from one above it. -/
lemma exists_leads (hm : chart.node? j = some m) (hi : chart.encloses i j) :
    ∃ keys, chart.Leads i keys j := by
  have htree := Blueprint.isTree_of_build h
  have hmem : i ∈ chart.lineage j := List.contains_iff_mem.1 hi
  clear hi
  revert hmem
  refine htree.induct (fun j => i ∈ chart.lineage j → ∃ keys, chart.Leads i keys j) ?_ ?_ hm
  · intro hmem
    rw [htree.lineage_root, List.mem_singleton] at hmem
    exact ⟨[], hmem ▸ .here⟩
  · intro j p q hq _ hparent hline _ ih hmem
    rw [hline, List.mem_cons] at hmem
    rcases hmem with rfl | hmem
    · exact ⟨[], .here⟩
    · obtain ⟨keys, hkeys⟩ := ih hmem
      obtain ⟨n, hn, hp⟩ := Option.bind_eq_some_iff.1 hparent
      refine ⟨_, hkeys.down hq ?_ hn⟩
      obtain rfl := Blueprint.chart_of_build h
      obtain ⟨o, ho, rfl⟩ := Outline.node?_chart_eq_some.1 hq
      obtain ⟨o', ho', rfl⟩ := Outline.node?_chart_eq_some.1 hn
      exact Skeleton.mem_childrenOf.2
        ⟨o'.toPlace, by rw [Outline.getElem?_skeleton, ho', Option.map_some], hp⟩

omit h in
lemma Leads.eq_of_nil (hlead : chart.Leads i [] j) : j = i := by
  generalize hkeys : ([] : List String) = keys at hlead
  cases hlead with
  | here => rfl
  | down _ _ _ _ => simp at hkeys

omit h in
lemma exists_path_root (h : b.build = .ok chart) :
    ∃ n, chart.node? root = some n ∧ n.path = "" := by
  obtain rfl := Blueprint.chart_of_build h
  exact ⟨_, Outline.node?_chart_eq_some.2 ⟨_, Outline.root_in_table b, rfl⟩, rfl⟩

namespace Legible

variable (hlegible : chart.Legible)

include hlegible

/-- The keys that lead to a node have no points in them. -/
lemma no_points (hlead : chart.Leads root keys i) : ∀ key ∈ keys, '.' ∉ key.toList := by
  induction hlead with
  | here => simp
  | @down keys j k n m _ hn hk hm ih =>
      have hbelow : k ≠ root := by
        rintro rfl
        obtain ⟨hparent, -, -⟩ := child_of_build h hn hk hm
        have hnone := (Blueprint.isTree_of_build h).parent?_root
        simp [parent?, hm, hparent] at hnone
      intro key hmem
      rcases List.mem_append.1 hmem with hmem | hmem
      · exact ih key hmem
      · rw [List.mem_singleton.1 hmem]
        exact hlegible.key hm hbelow

/-- Only the root has an empty path. -/
lemma joined_ne_empty (hlead : chart.Leads root keys i) (hne : keys ≠ []) : joined keys ≠ "" := by
  cases hlead with
  | here => exact absurd rfl hne
  | @down keys j _ n m hlead hn hk hm =>
      rcases eq_or_ne keys [] with rfl | hkeys
      · obtain rfl := hlead.eq_of_nil
        obtain ⟨hparent, -, -⟩ := child_of_build h hn hk hm
        simpa [joined] using hlegible.child hm hparent
      · simp [joined_concat hkeys]

/-- **A path is the keys that lead to the node.** -/
lemma path_eq (hlead : chart.Leads root keys i) (hn : chart.node? i = some n) :
    n.path = joined keys := by
  induction hlead generalizing n with
  | here =>
      obtain ⟨m, hm, hpath⟩ := exists_path_root h
      obtain rfl := Option.some.inj (hm.symm.trans hn)
      exact hpath
  | @down keys j k p m hlead hp hk hm ih =>
      obtain rfl := Option.some.inj (hm.symm.trans hn)
      obtain ⟨-, hprolonged, -⟩ := child_of_build h hp hk hm
      rw [hprolonged, ih hp, Place.childPath]
      rcases eq_or_ne keys [] with rfl | hne
      · simp [joined]
      · rw [if_neg (hlegible.joined_ne_empty h hlead hne), joined_concat hne]

/-- **No two nodes have the same path.** -/
lemma path_inj (hn : chart.node? i = some n) (hm : chart.node? j = some m)
    (hpath : n.path = m.path) : i = j := by
  have htree := Blueprint.isTree_of_build h
  have hkeys : ∀ {i n}, chart.node? i = some n → ∃ keys, chart.Leads root keys i := fun hn =>
    exists_leads h hn (List.contains_iff_mem.2 (htree.root_mem_lineage hn))
  obtain ⟨keys, hlead⟩ := hkeys hn
  obtain ⟨more, hmore⟩ := hkeys hm
  rw [hlegible.path_eq h hlead hn, hlegible.path_eq h hmore hm] at hpath
  have hsame : keys = more := by
    rcases eq_or_ne keys [] with rfl | hne
    · by_contra hmore'
      exact hlegible.joined_ne_empty h hmore (Ne.symm hmore') hpath.symm
    · rcases eq_or_ne more [] with rfl | hne'
      · exact absurd hpath (hlegible.joined_ne_empty h hlead hne)
      · exact joined_inj hne hne' (hlegible.no_points h hlead) (hlegible.no_points h hmore) hpath
  subst hsame
  exact Option.some.inj ((hlead.descend?_eq h).symm.trans (hmore.descend?_eq h))

/-- **A path is found**, if it does not begin with the sign of global ids. -/
lemma lookup?_path (hn : chart.node? i = some n) (hsign : n.path.toList.head? ≠ some '#') :
    chart.lookup? n.path = some i := by
  have hskeleton : ∀ {j p}, chart.skeleton[j]? = some p →
      ∃ m, chart.node? j = some m ∧ m.toPlace = p := by
    intro j p hp
    rwa [skeleton, List.getElem?_map, Option.map_eq_some_iff] at hp
  have hfound : chart.skeleton.withPath? n.path = some i := by
    refine Skeleton.findLast?_eq_some.2 ⟨?_, fun j hj => ?_⟩
    · rw [skeleton, List.getElem?_map, ← node?, hn]
      simp
    · obtain ⟨p, hp, hsame⟩ := (Option.any_eq_true _ _).1 hj
      obtain ⟨m, hm, rfl⟩ := hskeleton hp
      exact Nat.le_of_eq (hlegible.path_inj h hm hn (by simpa using hsame))
  rw [lookup?, Skeleton.lookup?]
  split
  next cs hcs => simp [hcs] at hsign
  next => exact hfound

end Legible

/-- **What a global id and the keys after it lead to.** -/
lemma lookup?_id {id : String} (hn : chart.node? i = some n) (hid : n.id = some id)
    (hlead : chart.Leads i keys j) (hplain : ∀ key ∈ id :: keys, '.' ∉ key.toList) :
    chart.lookup? ("#" ++ joined (id :: keys)) = some j := by
  have hsound := Blueprint.isSound_of_build h
  have hwith : chart.skeleton.withId? id = some i := by
    obtain rfl := Blueprint.chart_of_build h
    obtain ⟨w, o, ho, rfl, rfl⟩ := Blueprint.exists_address_of_node hn
    have hdeclares : b.Declares id w := ⟨o, ho, hid⟩
    rw [Outline.skeleton_chart]
    exact Blueprint.withId?_eq_some.2
      ⟨w, ⟨hdeclares, fun v hv => le_of_eq (hsound.ids hv hdeclares)⟩, rfl⟩
  have hchars : ("#" ++ joined (id :: keys)).toList = '#' :: (joined (id :: keys)).toList := by
    rw [String.toList_append]
    rfl
  rw [lookup?, Skeleton.lookup?, hchars]
  simp only [Skeleton.resolve?, hchars, segments_joined (List.cons_ne_nil _ _) hplain, hwith]
  exact hlead.descend?_eq h

end Build

/-! ## Addresses of a chart -/

/-- **What names denote in a chart that is built**: paths tell the nodes apart and are found, and
global ids and the keys after them are found, as far as keys and ids can be told apart. -/
theorem addressable {b : Blueprint C Env} {chart : Chart C Env} (h : b.build = .ok chart) :
    (chart.Legible →
      (∀ i j n m, chart.node? i = some n → chart.node? j = some m → n.path = m.path → i = j) ∧
      ∀ i n, chart.node? i = some n → n.path.toList.head? ≠ some '#' →
        chart.lookup? n.path = some i) ∧
    (∀ i n id, chart.node? i = some n → n.id = some id → '.' ∉ id.toList →
      chart.lookup? ("#" ++ id) = some i) ∧
    ∀ i n id j m, chart.node? i = some n → n.id = some id → chart.node? j = some m →
      (chart.encloses i j → ∃ keys, chart.Leads i keys j) ∧
      ∀ keys, chart.Leads i keys j → (∀ key ∈ id :: keys, '.' ∉ key.toList) →
        chart.lookup? ("#" ++ joined (id :: keys)) = some j ∧
        (chart.Legible → m.path.toList.head? ≠ some '#' →
          chart.lookup? ("#" ++ joined (id :: keys)) = chart.lookup? m.path) := by
  refine ⟨fun hlegible => ⟨fun i j n m => hlegible.path_inj h, fun i n => hlegible.lookup?_path h⟩,
    fun i n id hn hid hplain => ?_, fun i n id j m hn hid hm =>
      ⟨fun hbelow => exists_leads h hm hbelow, fun keys hlead hplain => ?_⟩⟩
  · have hfound := lookup?_id h hn hid .here (by simpa using hplain)
    rwa [joined, String.intercalate_singleton] at hfound
  · have hfound := lookup?_id h hn hid hlead hplain
    exact ⟨hfound, fun hlegible hsign => hfound.trans (hlegible.lookup?_path h hm hsign).symm⟩

end Chart

/-! ## A village and a crossing -/

/-- A chart with names that can be told apart. -/
def village : Blueprint Tally Unit :=
  { key := "village", kind := .compound, initial := some "mill"
    children := [
      { key := "mill", kind := .compound, id := some "work", initial := some "wheel"
        children := [{ key := "wheel", kind := .atomic }, { key := "loft", kind := .atomic }] },
      { key := "inn", kind := .atomic, id := some "rest" }] }

/-- A chart with names that cannot. -/
def crossing : Blueprint Tally Unit :=
  { key := "crossing", kind := .compound, initial := some "north"
    children := [
      { key := "north", kind := .compound, id := some "n", initial := some "west"
        children := [{ key := "west", kind := .atomic }, { key := "far.east", kind := .atomic }] },
      { key := "north.west", kind := .atomic, id := some "n.w" },
      { key := "", kind := .atomic },
      { key := "#south", kind := .atomic }] }

namespace Chart

/-- In the village everything is found. -/
theorem addressable_village :
    village.build = .ok village.outline.chart ∧ village.outline.chart.Legible ∧
      (village.outline.chart.node? 3).map (·.path) = some "mill.loft" ∧
      village.outline.chart.lookup? "mill.loft" = some 3 ∧
      village.outline.chart.lookup? "#work" = some 1 ∧
      village.outline.chart.Leads 1 ["loft"] 3 ∧
      village.outline.chart.lookup? "#work.loft" = some 3 := by
  have hbuild : village.build = .ok village.outline.chart :=
    Blueprint.build_of_defects_eq_nil (by decide +kernel)
  have hlegible : village.outline.chart.Legible := by
    refine .of_nodes ?_ ?_ <;> decide +kernel
  obtain ⟨mill, hmill, hid, hloft⟩ : ∃ n, village.outline.chart.node? 1 = some n ∧
      n.id = some "work" ∧ 3 ∈ n.children := ⟨_, rfl, rfl, by decide +kernel⟩
  obtain ⟨loft, hn, hkey, hpath⟩ : ∃ n, village.outline.chart.node? 3 = some n ∧
      n.key = "loft" ∧ n.path = "mill.loft" := ⟨_, rfl, rfl, by decide +kernel⟩
  have hlead : village.outline.chart.Leads 1 ["loft"] 3 := by
    rw [← hkey]
    exact .down .here hmill hloft hn
  obtain ⟨hpaths, hids, hkeys⟩ := addressable hbuild
  have hfound := (hpaths hlegible).2 3 loft hn (by rw [hpath]; decide)
  rw [hpath] at hfound
  exact ⟨hbuild, hlegible, by rw [hn, Option.map_some, hpath], hfound,
    hids 1 mill "work" hmill hid (by decide), hlead,
    ((hkeys 1 mill "work" 3 loft hmill hid hn).2 ["loft"] hlead (by decide)).1⟩

/-- At the crossing two nodes share a path, another one has that of the root, one cannot be found by
its path and one not by its id, and one not by the keys that lead to it. -/
theorem not_addressable :
    ∃ chart, crossing.build = .ok chart ∧
      chart.pathOf 2 = chart.pathOf 4 ∧ chart.pathOf 5 = chart.pathOf root ∧
      chart.pathOf 6 = "#south" ∧ chart.lookup? "#south" = none ∧
      (∃ n, chart.node? 4 = some n ∧ n.id = some "n.w") ∧ chart.lookup? "#n.w" = none ∧
      (∃ n, chart.node? 1 = some n ∧ n.id = some "n") ∧ chart.Leads 1 ["far.east"] 3 ∧
      chart.lookup? "#n.far.east" = none := by
  have hbuild : crossing.build = .ok crossing.outline.chart :=
    Blueprint.build_of_defects_eq_nil (by decide +kernel)
  obtain ⟨north, hnorth, hid, heast⟩ : ∃ n, crossing.outline.chart.node? 1 = some n ∧
      n.id = some "n" ∧ 3 ∈ n.children := ⟨_, rfl, rfl, by decide +kernel⟩
  obtain ⟨east, hn, hkey⟩ : ∃ n, crossing.outline.chart.node? 3 = some n ∧
      n.key = "far.east" := ⟨_, rfl, rfl⟩
  have hlead : crossing.outline.chart.Leads 1 ["far.east"] 3 := by
    rw [← hkey]
    exact .down .here hnorth heast hn
  refine ⟨_, hbuild, ?_, ?_, ?_, ?_, ⟨_, rfl, rfl⟩, ?_, ⟨north, hnorth, hid⟩, hlead, ?_⟩ <;>
    decide +kernel

end Chart

end FormChart
