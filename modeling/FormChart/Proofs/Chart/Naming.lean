import FormChart.Proofs.Chart.Addresses

/-!
# What names denote

Targets of transitions are texts.  What they denote is said here **on the blueprint**, by addresses:
the first child with a key (`Blueprint.child?`), the node that keys lead down to
(`Blueprint.descend?`), the last node that declares a global id (`Blueprint.Denotes`), and with
these the node that a target names, seen from its owner (`Blueprint.Names`).

The look-ups in the table find exactly these nodes (`Blueprint.resolve?_index`).
-/

namespace FormChart

/-- What is found from behind is the last that passes. -/
lemma Skeleton.findLast?_eq_some {s : Skeleton} {test : Place → Bool} {i : NodeId} :
    s.findLast? test = some i ↔ s[i]?.any test ∧ ∀ j, s[j]?.any test → j ≤ i := by
  have hrange : ∀ (p : Nat → Bool) (n : Nat), (List.range n).reverse.find? p = some i ↔
      p i ∧ i < n ∧ ∀ j < n, p j → j ≤ i := by
    intro p n
    induction n with
    | zero => simp
    | succ n ih =>
        rw [List.range_succ, List.reverse_append, List.reverse_singleton, List.singleton_append,
          List.find?_cons]
        cases hn : p n <;> grind
  have hlt : ∀ j, s[j]?.any test → j < s.length := by
    intro j hj
    by_contra hle
    rw [List.getElem?_eq_none (Nat.not_lt.1 hle)] at hj
    cases hj
  rw [findLast?, hrange]
  exact ⟨fun h => ⟨h.1, fun j hj => h.2.2 j (hlt j hj) hj⟩,
    fun h => ⟨h.1, hlt i h.1, fun j _ hj => h.2 j hj⟩⟩

namespace Blueprint

variable {C Env : Type}

/-- The address of the first child with a key. -/
def child? (b : Blueprint C Env) (w : List Nat) (key : String) : Option (List Nat) := do
  let n ← b.at? w
  let k ← n.children.findIdx? (·.key == key)
  some (w ++ [k])

/-- The address that keys lead to, from child to child. -/
def descend? (b : Blueprint C Env) (w : List Nat) (keys : List String) : Option (List Nat) :=
  keys.foldlM b.child? w

/-- Whether the node at an address declares a global id. -/
def Declares (b : Blueprint C Env) (id : String) (w : List Nat) : Prop :=
  ∃ n, b.at? w = some n ∧ n.id = some id

/-- Whether a global id denotes the node at an address: the last one that declares it. -/
def Denotes (b : Blueprint C Env) (id : String) (w : List Nat) : Prop :=
  b.Declares id w ∧ ∀ v, b.Declares id v → v ≤ w

/-- Whether a target names the node at an address, seen from the owner of the transition: a global
id with keys after it, keys that lead down from the owner, or keys that lead down from the parent of
the owner. -/
def Names (b : Blueprint C Env) (owner : List Nat) (target : String) (w : List Nat) : Prop :=
  match target.toList with
  | '#' :: cs => ∃ id keys start, segments cs = id :: keys ∧ b.Denotes id start ∧
      b.descend? start keys = some w
  | '.' :: cs => b.descend? owner (segments cs) = some w
  | cs => ∃ parent k, owner = parent ++ [k] ∧ b.descend? parent (segments cs) = some w

section

variable {b n : Blueprint C Env} {v w : List Nat} {key : String} {keys : List String}

lemma child?_eq (hn : b.at? w = some n) :
    b.child? w key = (n.children.findIdx? (·.key == key)).map fun k => w ++ [k] := by
  simp [child?, hn, Option.map_eq_bind]

/-- A child that is found is a child, and has the key. -/
lemma exists_of_child? (h : b.child? w key = some v) :
    ∃ k c, v = w ++ [k] ∧ b.at? v = some c ∧ c.key = key := by
  simp only [child?, Option.bind_eq_bind, Option.bind_eq_some_iff, Option.some.injEq] at h
  obtain ⟨n, hn, k, hk, rfl⟩ := h
  obtain ⟨hlt, hkey, -⟩ := List.findIdx?_eq_some_iff_getElem.1 hk
  exact ⟨k, n.children[k], rfl, (at?_concat hn k).trans (List.getElem?_eq_getElem hlt),
    by simpa using hkey⟩

/-- There is such a child exactly if one of the children has the key. -/
lemma isSome_child? (hn : b.at? w = some n) :
    (b.child? w key).isSome ↔ ∃ c ∈ n.children, c.key = key := by
  rw [child?_eq hn, Option.isSome_map, List.findIdx?_isSome, List.any_eq_true]
  simp

/-- **The table finds the first child with a key.** -/
lemma child?_index (hn : b.at? w = some n) :
    b.outline.skeleton.child? (b.index w) key = (b.child? w key).map b.index := by
  have hkey : ∀ k < n.children.length,
      (b.outline.skeleton[b.index (w ++ [k])]?.any fun p => p.key == key) =
        n.children[k]?.any fun c => c.key == key := by
    intro k hk
    have hc := List.getElem?_eq_getElem hk
    rw [getElem?_skeleton ((at?_concat hn k).trans hc), hc]
    rfl
  rw [Skeleton.child?, childrenOf_index hn, List.find?_map, child?_eq hn, Option.map_map]
  refine congrArg (Option.map _) (Option.ext fun k => ?_)
  rw [List.find?_range_eq_some, List.findIdx?_eq_some_iff_getElem]
  simp only [List.mem_range, Function.comp_apply]
  constructor
  · rintro ⟨hfound, hk, hfirst⟩
    refine ⟨hk, by simpa [hkey k hk, hk] using hfound, fun j hj => ?_⟩
    have hlt := Nat.lt_trans hj hk
    simpa [hkey j hlt, hlt] using hfirst j hj
  · rintro ⟨hk, hfound, hfirst⟩
    refine ⟨by simpa [hkey k hk, hk] using hfound, hk, fun j hj => ?_⟩
    have hlt := Nat.lt_trans hj hk
    simpa [hkey j hlt, hlt] using hfirst j hj

lemma descend?_cons : b.descend? w (key :: keys) = (b.child? w key).bind (b.descend? · keys) := rfl

/-- Descending leads to a node. -/
lemma exists_of_descend? (hn : b.at? w = some n) (h : b.descend? w keys = some v) :
    ∃ m, b.at? v = some m := by
  induction keys generalizing w n with
  | nil =>
      obtain rfl : w = v := Option.some.inj h
      exact ⟨n, hn⟩
  | cons key keys ih =>
      rw [descend?_cons, Option.bind_eq_some_iff] at h
      obtain ⟨u, hu, hrest⟩ := h
      obtain ⟨-, c, -, hc, -⟩ := exists_of_child? hu
      exact ih hc hrest

lemma descend?_index (hn : b.at? w = some n) :
    b.outline.skeleton.descend? (b.index w) keys = (b.descend? w keys).map b.index := by
  induction keys generalizing w n with
  | nil => rfl
  | cons key keys ih =>
      rw [descend?_cons, Skeleton.descend?, List.foldlM_cons, child?_index hn]
      cases hc : b.child? w key with
      | none => rfl
      | some u =>
          obtain ⟨-, c, -, hc, -⟩ := exists_of_child? hc
          exact ih hc

lemma declares_iff {id : String} :
    b.Declares id w ↔ (∃ n, b.at? w = some n) ∧
      b.outline.skeleton[b.index w]?.any (·.id == some id) := by
  constructor
  · rintro ⟨n, hn, hid⟩
    rw [getElem?_skeleton hn]
    exact ⟨⟨n, hn⟩, by simpa [entryAt] using hid⟩
  · rintro ⟨⟨n, hn⟩, hid⟩
    rw [getElem?_skeleton hn] at hid
    exact ⟨n, hn, by simpa [entryAt] using hid⟩

/-- **The table finds the last node that declares an id.** -/
lemma withId?_eq_some {id : String} {i : NodeId} :
    b.outline.skeleton.withId? id = some i ↔ ∃ w, b.Denotes id w ∧ b.index w = i := by
  have haddress : ∀ j, b.outline.skeleton[j]?.any (·.id == some id) →
      ∃ v, b.Declares id v ∧ b.index v = j := by
    intro j hj
    obtain ⟨p, hp, -⟩ := (Option.any_eq_true _ _).1 hj
    obtain ⟨v, n, hn, rfl, -⟩ := exists_address_of_skeleton hp
    exact ⟨v, declares_iff.2 ⟨⟨n, hn⟩, hj⟩, rfl⟩
  have hle : ∀ {v w}, b.Declares id v → b.Declares id w → (b.index v ≤ b.index w ↔ v ≤ w) :=
    fun ⟨_, hm, _⟩ ⟨_, hn, _⟩ => index_le_index hm hn
  rw [Skeleton.withId?, Skeleton.findLast?_eq_some]
  constructor
  · rintro ⟨hi, hlast⟩
    obtain ⟨w, hw, rfl⟩ := haddress i hi
    exact ⟨w, ⟨hw, fun v hv => (hle hv hw).1 (hlast _ (declares_iff.1 hv).2)⟩, rfl⟩
  · rintro ⟨w, ⟨hw, hlast⟩, rfl⟩
    refine ⟨(declares_iff.1 hw).2, fun j hj => ?_⟩
    obtain ⟨v, hv, rfl⟩ := haddress j hj
    exact (hle hv hw).2 (hlast v hv)

lemma descend?_index_eq_some (hn : b.at? w = some n) {i : NodeId} :
    b.outline.skeleton.descend? (b.index w) keys = some i ↔
      ∃ v, b.descend? w keys = some v ∧ b.index v = i := by
  rw [descend?_index hn, Option.map_eq_some_iff]

/-- The parent of a node in the table, by its address. -/
lemma parent?_eq_some (hn : b.at? w = some n) {i : NodeId} :
    b.outline.skeleton[b.index w]?.bind Place.parent? = some i ↔
      ∃ parent k p, w = parent ++ [k] ∧ b.at? parent = some p ∧ b.index parent = i := by
  rw [getElem?_skeleton hn, Option.bind_some]
  rcases List.eq_nil_or_concat' w with rfl | ⟨parent, k, rfl⟩
  · simp [parent?_root]
  · obtain ⟨p, hp, -⟩ := exists_at?_of_concat hn
    rw [parent?_concat hn, Option.some.injEq]
    constructor
    · rintro rfl
      exact ⟨parent, k, p, rfl, hp, rfl⟩
    · rintro ⟨v, l, q, hv, -, rfl⟩
      rw [(List.append_inj' hv rfl).1]

/-- What is named is there. -/
lemma exists_of_names (hn : b.at? w = some n) {target : String} (h : b.Names w target v) :
    ∃ m, b.at? v = some m := by
  unfold Names at h
  split at h
  · obtain ⟨_, _, _, -, ⟨⟨m, hm, -⟩, -⟩, hv⟩ := h
    exact exists_of_descend? hm hv
  · exact exists_of_descend? hn h
  · obtain ⟨parent, k, rfl, hv⟩ := h
    obtain ⟨p, hp, -⟩ := exists_at?_of_concat hn
    exact exists_of_descend? hp hv

/-- **A target resolves to the node that it names.** -/
theorem resolve?_index (hn : b.at? w = some n) {target : String} {i : NodeId} :
    b.outline.skeleton.resolve? (b.index w) target = some i ↔
      ∃ v, b.Names w target v ∧ b.index v = i := by
  unfold Skeleton.resolve?
  split
  next cs htarget =>
      simp only [Names, htarget]
      cases segments cs with
      | nil => simp
      | cons name keys =>
          simp only [Option.bind_eq_bind, Option.bind_eq_some_iff, withId?_eq_some]
          constructor
          · rintro ⟨_, ⟨start, hstart, rfl⟩, hkeys⟩
            obtain ⟨m, hm, -⟩ := hstart.1
            obtain ⟨v, hv, rfl⟩ := (descend?_index_eq_some hm).1 hkeys
            exact ⟨v, ⟨name, keys, start, rfl, hstart, hv⟩, rfl⟩
          · rintro ⟨v, ⟨_, _, start, hsegments, hstart, hv⟩, rfl⟩
            cases hsegments
            obtain ⟨m, hm, -⟩ := hstart.1
            exact ⟨_, ⟨start, hstart, rfl⟩, (descend?_index_eq_some hm).2 ⟨v, hv, rfl⟩⟩
  next cs htarget =>
      simp only [Names, htarget]
      exact descend?_index_eq_some hn
  next cs hglobal hbelow =>
      have hnames : ∀ v, b.Names w target v ↔ ∃ parent k, w = parent ++ [k] ∧
          b.descend? parent (segments target.toList) = some v := by
        intro v
        unfold Names
        split
        next cs htarget => exact absurd htarget (hglobal cs)
        next cs htarget => exact absurd htarget (hbelow cs)
        next => exact Iff.rfl
      simp only [hnames, Option.bind_eq_bind, Option.bind_eq_some_iff (x := Option.bind _ _),
        parent?_eq_some hn]
      constructor
      · rintro ⟨_, ⟨parent, k, p, hw, hp, rfl⟩, hkeys⟩
        obtain ⟨v, hv, rfl⟩ := (descend?_index_eq_some hp).1 hkeys
        exact ⟨v, ⟨parent, k, hw, hv⟩, rfl⟩
      · rintro ⟨v, ⟨parent, k, rfl, hv⟩, rfl⟩
        obtain ⟨p, hp, -⟩ := exists_at?_of_concat hn
        exact ⟨_, ⟨parent, k, p, rfl, hp, rfl⟩, (descend?_index_eq_some hp).2 ⟨v, hv, rfl⟩⟩

/-- A target names one node at most. -/
lemma names_unique (hn : b.at? w = some n) {target : String} {u : List Nat}
    (hu : b.Names w target u) (hv : b.Names w target v) : u = v := by
  obtain ⟨m, hm⟩ := exists_of_names hn hu
  obtain ⟨p, hp⟩ := exists_of_names hn hv
  have hindex :=
    ((resolve?_index hn).2 ⟨u, hu, rfl⟩).symm.trans ((resolve?_index hn).2 ⟨v, hv, rfl⟩)
  exact (index_inj hm hp).1 (Option.some.inj hindex)

end

end Blueprint

end FormChart
