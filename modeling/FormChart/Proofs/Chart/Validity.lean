import Mathlib.Data.List.Duplicate
import FormChart.Proofs.Chart.Naming

/-!
# Which blueprints make charts

What a blueprint should be like is said node by node, with addresses and what names denote
(`Blueprint.IsSound`), and so is everything that may be wrong with it (`Blueprint.Flaw`).  Neither
mentions the table that is made of the blueprint.

**A blueprint makes a chart exactly if it is sound, and the defects that are reported otherwise are
exactly its flaws** (`Blueprint.build_iff_sound`).
-/

namespace FormChart

variable {C Env : Type}

namespace Blueprint

/-- The name under which the node at an address is mentioned. -/
def nameAt (b n : Blueprint C Env) (w : List Nat) : String :=
  if b.pathAt w = "" then n.key else b.pathAt w

/-- The name under which the transitions for an event are mentioned. -/
def eventName (event : String) : String :=
  if event = Event.eventless.name then "(always)" else event

/-- What a blueprint should be like. -/
structure IsSound (b : Blueprint C Env) : Prop where
  /-- A compound node has children, and declares one of them to be entered with it. -/
  compound : ∀ {w n}, b.at? w = some n → n.kind = .compound →
    n.children ≠ [] ∧ ∃ key, n.initial = some key ∧ ∃ c ∈ n.children, c.key = key
  /-- No other node has any. -/
  leaf : ∀ {w n}, b.at? w = some n → n.kind ≠ .compound → n.children = [] ∧ n.initial = none
  keys : ∀ {w n}, b.at? w = some n → (n.children.map (·.key)).Nodup
  ids : ∀ {id v w}, b.Declares id v → b.Declares id w → v = w
  invoke : ∀ {w n}, b.at? w = some n → n.invoke.isSome → n.kind = .atomic
  /-- Targets are nodes below the root. -/
  target : ∀ {w n event a target}, b.at? w = some n → (event, a) ∈ n.arrows →
    a.target = some target → ∃ v, b.Names w target v ∧ v ≠ []

/-- What is wrong with a blueprint. -/
inductive Flaw (b : Blueprint C Env) : Defect → Prop
  | noChildren {w n} : b.at? w = some n → n.kind = .compound → n.children = [] →
      Flaw b (.noChildren (b.nameAt n w))
  | noInitial {w n} : b.at? w = some n → n.kind = .compound → n.initial = none →
      Flaw b (.noInitial (b.nameAt n w))
  | unknownInitial {w n key} : b.at? w = some n → n.kind = .compound → n.initial = some key →
      (∀ c ∈ n.children, c.key ≠ key) → Flaw b (.unknownInitial (b.nameAt n w) key)
  | leafChildren {w n} : b.at? w = some n → n.kind ≠ .compound → n.children ≠ [] →
      Flaw b (.leafChildren (b.nameAt n w))
  | leafInitial {w n} : b.at? w = some n → n.kind ≠ .compound → n.initial ≠ none →
      Flaw b (.leafInitial (b.nameAt n w))
  | repeatedKey {w n key} : b.at? w = some n → (n.children.map (·.key)).Duplicate key →
      Flaw b (.repeatedKey (b.nameAt n w) key)
  | repeatedId {id v w} : b.Declares id v → b.Declares id w → v ≠ w → Flaw b (.repeatedId id)
  | misplacedInvoke {w n} : b.at? w = some n → n.invoke.isSome → n.kind ≠ .atomic →
      Flaw b (.misplacedInvoke (b.nameAt n w))
  | unknownTarget {w n event a target} : b.at? w = some n → (event, a) ∈ n.arrows →
      a.target = some target → (∀ v, ¬ b.Names w target v) →
      Flaw b (.unknownTarget (b.nameAt n w) (eventName event) target)
  | targetIsRoot {w n event a target} : b.at? w = some n → (event, a) ∈ n.arrows →
      a.target = some target → b.Names w target [] →
      Flaw b (.targetIsRoot (b.nameAt n w) (eventName event))

end Blueprint

/-! ## Repetitions -/

lemma mem_repeats {s : String} {seen l : List String} :
    s ∈ repeats seen l ↔ (s ∈ seen ∧ s ∈ l) ∨ l.Duplicate s := by
  induction l generalizing seen with
  | nil => simp [repeats]
  | cons t rest ih =>
      rw [repeats, List.duplicate_cons_iff]
      by_cases hseen : seen.contains t
      · rw [if_pos hseen, List.mem_cons, ih]
        have ht : t ∈ seen := List.contains_iff_mem.1 hseen
        grind
      · rw [if_neg hseen, ih]
        have ht : t ∉ seen := fun h => hseen (List.contains_iff_mem.2 h)
        grind

lemma duplicate_filterMap {α β : Type} {f : α → Option β} {l : List α} {s : β} :
    (l.filterMap f).Duplicate s ↔
      ∃ i j : Nat, i < j ∧ l[i]?.bind f = some s ∧ l[j]?.bind f = some s := by
  induction l with
  | nil => simp
  | cons a rest ih =>
      have hmem : s ∈ rest.filterMap f ↔ ∃ j : Nat, rest[j]?.bind f = some s := by
        rw [List.mem_filterMap]
        simp only [List.mem_iff_getElem?, Option.bind_eq_some_iff]
        constructor
        · rintro ⟨x, ⟨j, hj⟩, hx⟩
          exact ⟨j, x, hj, hx⟩
        · rintro ⟨j, x, hj, hx⟩
          exact ⟨x, ⟨j, hj⟩, hx⟩
      have hsplit : (∃ i j : Nat, i < j ∧ (a :: rest)[i]?.bind f = some s ∧
          (a :: rest)[j]?.bind f = some s) ↔
          (f a = some s ∧ s ∈ rest.filterMap f) ∨ (rest.filterMap f).Duplicate s := by
        rw [ih, hmem]
        constructor
        · rintro ⟨i, j, hij, hi, hj⟩
          obtain ⟨j, rfl⟩ := Nat.exists_eq_add_of_le' (Nat.lt_of_le_of_lt (Nat.zero_le i) hij)
          cases i with
          | zero => exact .inl ⟨by simpa using hi, j, by simpa using hj⟩
          | succ i => exact .inr ⟨i, j, by omega, by simpa using hi, by simpa using hj⟩
        · rintro (⟨ha, j, hj⟩ | ⟨i, j, hij, hi, hj⟩)
          · exact ⟨0, j + 1, by omega, by simpa using ha, by simpa using hj⟩
          · exact ⟨i + 1, j + 1, by omega, by simpa using hi, by simpa using hj⟩
      rw [hsplit]
      cases ha : f a with
      | none => simp [List.filterMap_cons_none ha]
      | some t =>
          rw [List.filterMap_cons_some ha, List.duplicate_cons_iff, Option.some.injEq]

/-! ## The rounds of the check -/

lemma mem_defect_unless {ok : Bool} {d e : Defect} :
    d ∈ Defect.unless ok e ↔ ok = false ∧ d = e := by
  cases ok <;> simp [Defect.unless]

namespace Blueprint

variable {b n : Blueprint C Env} {w : List Nat} {d : Defect}

lemma mem_shapeDefects : d ∈ (b.entryAt n w).shapeDefects ↔
    (n.kind = .compound ∧ n.children = [] ∧ d = .noChildren (b.nameAt n w)) ∨
    (n.kind ≠ .compound ∧ n.children ≠ [] ∧ d = .leafChildren (b.nameAt n w)) ∨
    (n.kind ≠ .compound ∧ n.initial ≠ none ∧ d = .leafInitial (b.nameAt n w)) ∨
    (n.invoke.isSome ∧ n.kind ≠ .atomic ∧ d = .misplacedInvoke (b.nameAt n w)) ∨
    ∃ key, (n.children.map (·.key)).Duplicate key ∧ d = .repeatedKey (b.nameAt n w) key := by
  have hname : (b.entryAt n w).display = b.nameAt n w := rfl
  have hblueprint : (b.entryAt n w).blueprint = n := rfl
  have hkey : d ∈ (repeats [] (n.children.map (·.key))).map (.repeatedKey (b.nameAt n w)) ↔
      ∃ key, (n.children.map (·.key)).Duplicate key ∧ d = .repeatedKey (b.nameAt n w) key := by
    simp [mem_repeats, eq_comm]
  have hinvoke : (n.invoke.isNone || n.kind == .atomic) = false ↔
      n.invoke.isSome ∧ n.kind ≠ .atomic := by
    cases n.invoke <;> simp
  simp only [Outlined.shapeDefects, hname, hblueprint, List.mem_append, hkey, mem_defect_unless,
    hinvoke]
  by_cases hk : n.kind = .compound
  · simp [hk, mem_defect_unless, or_assoc]
  · simp [hk, mem_defect_unless, or_assoc, and_assoc, Option.isSome_iff_ne_none]

lemma mem_idDefects : d ∈ b.outline.idDefects ↔
    ∃ id v w, b.Declares id v ∧ b.Declares id w ∧ v ≠ w ∧ d = .repeatedId id := by
  have hdeclares : ∀ (id : String) (i : Nat), b.outline[i]?.bind (·.id) = some id ↔
      ∃ v, b.Declares id v ∧ b.index v = i := by
    intro id i
    rw [Option.bind_eq_some_iff]
    constructor
    · rintro ⟨m, hm, hid⟩
      obtain ⟨v, n, hn, hi, rfl⟩ := exists_address hm
      exact ⟨v, ⟨n, hn, hid⟩, hi⟩
    · rintro ⟨v, ⟨n, hn, hid⟩, rfl⟩
      exact ⟨_, getElem?_outline hn, hid⟩
  simp only [Outline.idDefects, List.mem_map, mem_repeats, List.not_mem_nil, false_and, false_or,
    duplicate_filterMap, hdeclares]
  constructor
  · rintro ⟨id, ⟨_, _, hlt, ⟨v, hv, rfl⟩, ⟨w, hw, rfl⟩⟩, rfl⟩
    exact ⟨id, v, w, hv, hw, fun h => Nat.ne_of_lt hlt (h ▸ rfl), rfl⟩
  · rintro ⟨id, v, w, hv, hw, hne, rfl⟩
    have ⟨_, hm, _⟩ := hv
    have ⟨_, hn, _⟩ := hw
    have hne' : b.index v ≠ b.index w := fun h => hne ((index_inj hm hn).1 h)
    rcases Nat.lt_or_gt_of_ne hne' with hlt | hlt
    · exact ⟨id, ⟨_, _, hlt, ⟨v, hv, rfl⟩, ⟨w, hw, rfl⟩⟩, rfl⟩
    · exact ⟨id, ⟨_, _, hlt, ⟨w, hw, rfl⟩, ⟨v, hv, rfl⟩⟩, rfl⟩

lemma mem_initialDefects (hn : b.at? w = some n) :
    d ∈ b.outline.initialDefects (b.index w) (b.entryAt n w) ↔
    (n.kind = .compound ∧ n.initial = none ∧ d = .noInitial (b.nameAt n w)) ∨
    (n.kind = .compound ∧ ∃ key, n.initial = some key ∧ (∀ c ∈ n.children, c.key ≠ key) ∧
      d = .unknownInitial (b.nameAt n w) key) := by
  have hname : (b.entryAt n w).display = b.nameAt n w := rfl
  have hblueprint : (b.entryAt n w).blueprint = n := rfl
  have hfound : ∀ key, (b.outline.skeleton.child? (b.index w) key).isSome = false ↔
      ∀ c ∈ n.children, c.key ≠ key := by
    intro key
    rw [child?_index hn, Option.isSome_map, ← Bool.not_eq_true, isSome_child? hn]
    push Not
    exact Iff.rfl
  simp only [Outline.initialDefects, hname, hblueprint]
  by_cases hk : n.kind = .compound
  · cases hi : n.initial with
    | none => simp [hk]
    | some key => simp [hk, mem_defect_unless, hfound]
  · simp [hk]

lemma mem_targetDefects (hn : b.at? w = some n) {event : String} {a : Arrow C} :
    d ∈ b.outline.targetDefects (b.index w) (b.entryAt n w) (event, a) ↔
    ∃ target, a.target = some target ∧
      (((∀ v, ¬ b.Names w target v) ∧
        d = .unknownTarget (b.nameAt n w) (eventName event) target) ∨
      (b.Names w target [] ∧ d = .targetIsRoot (b.nameAt n w) (eventName event))) := by
  have hname : (b.entryAt n w).display = b.nameAt n w := rfl
  have hevent : (if event = "" then "(always)" else event) = eventName event := rfl
  simp only [Outline.targetDefects, hname, hevent]
  cases a.target with
  | none => simp
  | some target =>
      have hnames : ∀ i, b.outline.skeleton.resolve? (b.index w) target = some i ↔
          ∃ v, b.Names w target v ∧ b.index v = i := fun i => resolve?_index hn
      have hroot : b.outline.skeleton.resolve? (b.index w) target = some Skeleton.root ↔
          b.Names w target [] := by
        rw [hnames]
        constructor
        · rintro ⟨v, hv, hindex⟩
          obtain ⟨m, hm⟩ := exists_of_names hn hv
          rwa [(index_eq_root hm).1 hindex] at hv
        · exact fun h => ⟨[], h, (index_eq_root (at?_nil b)).2 rfl⟩
      have hnone : b.outline.skeleton.resolve? (b.index w) target = none ↔
          ∀ v, ¬ b.Names w target v := by
        rw [Option.eq_none_iff_forall_ne_some]
        constructor
        · exact fun h v hv => h _ ((hnames _).2 ⟨v, hv, rfl⟩)
        · rintro h i hi
          obtain ⟨v, hv, -⟩ := (hnames i).1 hi
          exact h v hv
      simp only [Option.some.injEq, exists_eq_left', ← hnone, ← hroot]
      cases b.outline.skeleton.resolve? (b.index w) target with
      | none => simp
      | some i => simp [mem_defect_unless]

/-- What is reported, node by node. -/
lemma mem_defects : d ∈ b.outline.defects ↔
    (∃ w n, b.at? w = some n ∧ d ∈ (b.entryAt n w).shapeDefects) ∨
    d ∈ b.outline.idDefects ∨
    (∃ w n, b.at? w = some n ∧ d ∈ b.outline.initialDefects (b.index w) (b.entryAt n w)) ∨
    ∃ w n event a, b.at? w = some n ∧ (event, a) ∈ n.arrows ∧
      d ∈ b.outline.targetDefects (b.index w) (b.entryAt n w) (event, a) := by
  simp only [Outline.defects, List.mem_append, List.mem_flatMap, Outline.referenceDefects]
  constructor
  · rintro ((⟨m, hm, hd⟩ | hd) | ⟨⟨m, i⟩, hm, hd⟩)
    · obtain ⟨i, hi⟩ := List.mem_iff_getElem?.1 hm
      obtain ⟨w, n, hn, -, rfl⟩ := exists_address hi
      exact .inl ⟨w, n, hn, hd⟩
    · exact .inr (.inl hd)
    · obtain ⟨w, n, hn, rfl, rfl⟩ := exists_address (List.mk_mem_zipIdx_iff_getElem?.1 hm)
      rcases hd with hd | ⟨⟨event, a⟩, ha, hd⟩
      · exact .inr (.inr (.inl ⟨w, n, hn, hd⟩))
      · exact .inr (.inr (.inr ⟨w, n, event, a, hn, ha, hd⟩))
  · rintro (⟨w, n, hn, hd⟩ | hd | ⟨w, n, hn, hd⟩ | ⟨w, n, event, a, hn, ha, hd⟩)
    · exact .inl (.inl ⟨_, List.mem_of_getElem? (getElem?_outline hn), hd⟩)
    · exact .inl (.inr hd)
    · exact .inr ⟨_, List.mk_mem_zipIdx_iff_getElem?.2 (getElem?_outline hn), .inl hd⟩
    · exact .inr ⟨_, List.mk_mem_zipIdx_iff_getElem?.2 (getElem?_outline hn),
        .inr ⟨_, ha, hd⟩⟩

/-- **The defects that are reported are the flaws.** -/
lemma mem_defects_iff : d ∈ b.outline.defects ↔ b.Flaw d := by
  rw [mem_defects]
  constructor
  · rintro (⟨w, n, hn, hd⟩ | hd | ⟨w, n, hn, hd⟩ | ⟨w, n, event, a, hn, ha, hd⟩)
    · rcases mem_shapeDefects.1 hd with ⟨hk, hc, rfl⟩ | ⟨hk, hc, rfl⟩ | ⟨hk, hi, rfl⟩ |
        ⟨hv, hk, rfl⟩ | ⟨key, hkey, rfl⟩
      · exact .noChildren hn hk hc
      · exact .leafChildren hn hk hc
      · exact .leafInitial hn hk hi
      · exact .misplacedInvoke hn hv hk
      · exact .repeatedKey hn hkey
    · obtain ⟨id, v, w, hv, hw, hne, rfl⟩ := mem_idDefects.1 hd
      exact .repeatedId hv hw hne
    · rcases (mem_initialDefects hn).1 hd with ⟨hk, hi, rfl⟩ | ⟨hk, key, hi, hc, rfl⟩
      · exact .noInitial hn hk hi
      · exact .unknownInitial hn hk hi hc
    · obtain ⟨target, ht, ⟨hv, rfl⟩ | ⟨hv, rfl⟩⟩ := (mem_targetDefects hn).1 hd
      · exact .unknownTarget hn ha ht hv
      · exact .targetIsRoot hn ha ht hv
  · intro hflaw
    cases hflaw with
    | noChildren hn hk hc => exact .inl ⟨_, _, hn, mem_shapeDefects.2 (by simp [hk, hc])⟩
    | leafChildren hn hk hc => exact .inl ⟨_, _, hn, mem_shapeDefects.2 (by simp [hk, hc])⟩
    | leafInitial hn hk hi => exact .inl ⟨_, _, hn, mem_shapeDefects.2 (by simp [hk, hi])⟩
    | misplacedInvoke hn hv hk => exact .inl ⟨_, _, hn, mem_shapeDefects.2 (by simp [hv, hk])⟩
    | repeatedKey hn hkey => exact .inl ⟨_, _, hn, mem_shapeDefects.2 (by simp [hkey])⟩
    | repeatedId hv hw hne => exact .inr (.inl (mem_idDefects.2 ⟨_, _, _, hv, hw, hne, rfl⟩))
    | noInitial hn hk hi =>
        exact .inr (.inr (.inl ⟨_, _, hn, (mem_initialDefects hn).2 (.inl ⟨hk, hi, rfl⟩)⟩))
    | unknownInitial hn hk hi hc =>
        exact .inr (.inr (.inl ⟨_, _, hn, (mem_initialDefects hn).2 (.inr ⟨hk, _, hi, hc, rfl⟩)⟩))
    | unknownTarget hn ha ht hv =>
        exact .inr (.inr (.inr ⟨_, _, _, _, hn, ha,
          (mem_targetDefects hn).2 ⟨_, ht, .inl ⟨hv, rfl⟩⟩⟩))
    | targetIsRoot hn ha ht hv =>
        exact .inr (.inr (.inr ⟨_, _, _, _, hn, ha,
          (mem_targetDefects hn).2 ⟨_, ht, .inr ⟨hv, rfl⟩⟩⟩))

/-- A blueprint is sound if it has no flaws. -/
lemma isSound_iff : b.IsSound ↔ ∀ d, ¬ b.Flaw d := by
  constructor
  · intro hsound d hflaw
    cases hflaw with
    | noChildren hn hk hc => exact (hsound.compound hn hk).1 hc
    | leafChildren hn hk hc => exact hc (hsound.leaf hn hk).1
    | leafInitial hn hk hi => exact hi (hsound.leaf hn hk).2
    | misplacedInvoke hn hv hk => exact hk (hsound.invoke hn hv)
    | repeatedKey hn hkey => exact List.nodup_iff_forall_not_duplicate.1 (hsound.keys hn) _ hkey
    | repeatedId hv hw hne => exact hne (hsound.ids hv hw)
    | noInitial hn hk hi =>
        obtain ⟨-, key, hkey, -⟩ := hsound.compound hn hk
        rw [hi] at hkey
        cases hkey
    | unknownInitial hn hk hi hc =>
        obtain ⟨-, key, hkey, c, hmem, hc'⟩ := hsound.compound hn hk
        rw [hi] at hkey
        cases hkey
        exact hc c hmem hc'
    | unknownTarget hn ha ht hv =>
        obtain ⟨v, hnames, -⟩ := hsound.target hn ha ht
        exact hv v hnames
    | targetIsRoot hn ha ht hv =>
        obtain ⟨v, hnames, hne⟩ := hsound.target hn ha ht
        exact hne (names_unique hn hnames hv)
  · intro h
    refine ⟨fun hn hk => ⟨fun hc => h _ (.noChildren hn hk hc), ?_⟩,
      fun hn hk => ⟨by_contra fun hc => h _ (.leafChildren hn hk hc),
        by_contra fun hi => h _ (.leafInitial hn hk hi)⟩,
      fun hn => List.nodup_iff_forall_not_duplicate.2 fun key hkey => h _ (.repeatedKey hn hkey),
      fun hv hw => by_contra fun hne => h _ (.repeatedId hv hw hne),
      fun hn hv => by_contra fun hk => h _ (.misplacedInvoke hn hv hk), fun hn ha ht => ?_⟩
    · rename_i w n
      cases hi : n.initial with
      | none => exact absurd (.noInitial hn hk hi) (h _)
      | some key =>
          refine ⟨key, rfl,
            by_contra fun hc => h _ (.unknownInitial hn hk hi fun c hmem hkey => ?_)⟩
          exact hc ⟨c, hmem, hkey⟩
    · by_contra hno
      refine h _ (.unknownTarget hn ha ht fun v hv => ?_)
      rcases eq_or_ne v [] with rfl | hne
      · exact h _ (.targetIsRoot hn ha ht hv)
      · exact hno ⟨v, hv, hne⟩

/-- **A blueprint makes a chart exactly if it is sound**, and the defects that are reported
otherwise are exactly its flaws. -/
theorem build_iff_sound (b : Blueprint C Env) :
    ((∃ chart, b.build = .ok chart) ↔ b.IsSound) ∧
      ∀ d, (∃ defects, b.build = .error defects ∧ d ∈ defects) ↔ b.Flaw d := by
  have hnil : b.outline.defects = [] ↔ b.IsSound := by
    rw [isSound_iff, List.eq_nil_iff_forall_not_mem]
    exact forall_congr' fun d => not_congr mem_defects_iff
  rw [← hnil]
  simp only [← mem_defects_iff]
  cases hdefects : b.outline.defects with
  | nil =>
      simp [build_of_defects_eq_nil hdefects]
  | cons first rest =>
      have hbuild : b.build = .error (first :: rest) := by simp only [build, hdefects]
      simp [hbuild]

end Blueprint

end FormChart
