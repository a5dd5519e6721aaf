import Mathlib.Tactic.Lemma
import FormChart.Json.Decode

/-!
# Reading back the fields of a record

A record is written as an object and read field by field, so everything about either comes down to
look-ups in a dictionary.  The lemmas here say what a look-up in a written record finds, whether its
fields are all known or stand beside others that were only carried along (`extra`).

* `Dict.get?_ofList`, `Dict.get?_ofList_append` — look-ups in a record that is being written.
* `Object.Avoids` — carried fields do not bear the names of known ones; they are found again by
  dropping the known fields (`Object.without_record`).
* `Fieldwise` — a reading that judges every field on its own.  Almost all readings of records do,
  and then **writing new fields over a record that could be read gives one that can be read exactly
  if the new fields can** (`Fieldwise.overlay`).
-/

namespace FormChart

namespace Dict

variable {α : Type}

/-- In a dictionary the order of search does not matter. -/
lemma lookup_reverse_entries (d : Dict α) (k : String) : d.entries.reverse.lookup k = d.get? k := by
  have h := get?_insertAll k d.entries empty
  rw [get?_empty, Option.or_none] at h
  rw [← h]
  exact congrArg (fun e : Dict α => e.get? k) (ofList_entries d)

lemma get?_ofList (entries : List (String × α)) (k : String) :
    (ofList entries).get? k = entries.reverse.lookup k := by
  rw [ofList, get?_insertAll, get?_empty, Option.or_none]

/-- Entries of a dictionary written behind others win. -/
lemma get?_ofList_append (known : List (String × α)) (d : Dict α) (k : String) :
    (ofList (known ++ d.entries)).get? k = (d.get? k).or (known.reverse.lookup k) := by
  rw [get?_ofList, List.reverse_append, List.lookup_append, lookup_reverse_entries]

lemma lookup_map {β : Type} (f : α → β) (k : String) :
    ∀ entries : List (String × α),
      (entries.map fun e => (e.1, f e.2)).lookup k = (entries.lookup k).map f
  | [] => rfl
  | (l, v) :: rest => by
      rw [List.map_cons, lookup_cons_if, lookup_cons_if, lookup_map f k rest]
      split <;> rfl

@[simp] lemma get?_map {β : Type} (f : α → β) (d : Dict α) (k : String) :
    (d.map f).get? k = (d.get? k).map f := lookup_map f k d.entries

/-- The values of a dictionary are found under their keys. -/
lemma get?_of_mem {d : Dict α} {e : String × α} (he : e ∈ d.entries) : d.get? e.1 = some e.2 := by
  obtain ⟨entries, hasc⟩ := d
  change entries.lookup e.1 = some e.2
  induction entries with
  | nil => cases he
  | cons first rest ih =>
      obtain ⟨hfirst, hrest⟩ := List.pairwise_cons.1 hasc
      obtain ⟨l, w⟩ := first
      rw [lookup_cons_if]
      rcases List.mem_cons.1 he with rfl | hmem
      · exact if_pos rfl
      · have hne : e.1 ≠ l := fun heq => String.lt_irrefl _ (heq ▸ hfirst e hmem)
        rw [if_neg hne]
        exact ih hrest hmem

/-- What is found is there. -/
lemma mem_of_get? {d : Dict α} {k : String} {v : α} (h : d.get? k = some v) :
    (k, v) ∈ d.entries := by
  obtain ⟨before, after, hsplit, -⟩ := List.lookup_eq_some_iff.1 h
  rw [hsplit]
  exact List.mem_append_right _ List.mem_cons_self

end Dict

namespace Json

lemma eq_str_of_str? {v : Json} {s : String} (h : v.str? = some s) : v = .str s := by
  cases v <;> cases h
  rfl

@[simp] lemma asRecord_ofObject (names : List String) (d : Object) :
    (ofObject d).asRecord names = some d := by
  simp [ofObject, asRecord]

@[simp] lemma asRecord_record (names : List String) (fields : List (String × Json)) :
    (record fields).asRecord names = some (Dict.ofList fields) := asRecord_ofObject _ _

@[simp] lemma object?_record (fields : List (String × Json)) :
    (record fields).object? = some (Dict.ofList fields) := object?_ofObject _

@[simp] lemma fieldsOrEmpty_record (fields : List (String × Json)) :
    (record fields).fieldsOrEmpty = Dict.ofList fields := fieldsOrEmpty_ofObject _

/-- Numbers that are read below a bound are below it. -/
lemma lt_of_natBelow? {bound n : Nat} {v : Json} (h : natBelow? bound v = some n) : n < bound := by
  unfold natBelow? at h
  split at h
  next k =>
      split at h
      next hlt =>
          cases h
          exact hlt
      next => cases h
  next => cases h

lemma natBelow?_nat {bound n : Nat} (h : n < bound) : natBelow? bound (nat n) = some n := by
  simp [natBelow?, nat, h]

end Json

/-- What is read, before the reading of the rest. -/
lemma bind_of_eq_some {α β : Type} {o : Option α} {a : α} (h : o = some a) (rest : α → Option β) :
    (o >>= rest) = rest a := by
  rw [h]
  rfl

namespace Object

variable {α : Type}

/-- Whether an object has no field of certain names. -/
def Avoids (fields : Object) (names : List String) : Prop := ∀ k ∈ names, fields.get? k = none

lemma avoids_empty (names : List String) : Avoids {} names := fun _ _ => rfl

lemma avoids_without (fields : Object) (names : List String) :
    Avoids (fields.without names) names := by
  intro k hk
  rw [Dict.get?_without, if_pos hk]

/-- **Carried fields are found again** behind known ones. -/
lemma without_record {known : List (String × Json)} {extra : Object} {names : List String}
    (hextra : extra.Avoids names) (hnames : known.map (·.1) = names) :
    (Dict.ofList (known ++ extra.entries)).without names = extra := by
  refine Dict.ext_get? fun k => ?_
  rw [Dict.get?_without, Dict.get?_ofList_append]
  split
  next hk => exact (hextra k hk).symm
  next hk =>
      have hnone : known.reverse.lookup k = none := by
        rw [List.lookup_eq_none_iff]
        intro e he
        rw [List.mem_reverse] at he
        have hne : k ≠ e.1 := fun heq => hk (hnames ▸ heq ▸ List.mem_map_of_mem he)
        simpa using hne
      rw [hnone, Option.or_none]

/-- A known field is not hidden by carried ones. -/
lemma get?_record_extra {known : List (String × Json)} {extra : Object} {names : List String}
    (hextra : extra.Avoids names) {k : String} (hk : k ∈ names) :
    Dict.get? (Dict.ofList (known ++ extra.entries)) k = known.reverse.lookup k := by
  rw [Dict.get?_ofList_append, hextra k hk, Option.none_or]

/-! ## Judging fields one by one -/

/-- Whether the fields pass the tests for them, where they are there. -/
def Passes (tests : List (String × (Json → Bool))) (fields : Object) : Prop :=
  ∀ t ∈ tests, ∀ v, fields.get? t.1 = some v → t.2 v = true

lemma passes_nil (fields : Object) : fields.Passes [] := by
  intro t ht
  cases ht

lemma passes_cons {name : String} {test : Json → Bool} {tests : List (String × (Json → Bool))}
    {fields : Object} :
    fields.Passes ((name, test) :: tests) ↔
      (∀ v, fields.get? name = some v → test v = true) ∧ fields.Passes tests := by
  simp [Passes]

lemma isSome_fieldOr (fields : Object) (name : String) (default : α) (read : Json → Option α) :
    (fields.fieldOr name default read).isSome = true ↔
      ∀ v, fields.get? name = some v → (read v).isSome = true := by
  rw [fieldOr]
  cases fields.get? name with
  | none => simp
  | some v => simp

/-- One field of a record, before the reading of the others. -/
lemma isSome_bind_fieldOr {β : Type} {fields : Object} {name : String} {default : α}
    {read : Json → Option α} {rest : α → Option β} {tests : List (String × (Json → Bool))}
    (hrest : ∀ a, (rest a).isSome = true ↔ fields.Passes tests) :
    ((fields.fieldOr name default read).bind rest).isSome = true ↔
      fields.Passes ((name, fun v => (read v).isSome) :: tests) := by
  rw [passes_cons, ← isSome_fieldOr fields name default read]
  cases fields.fieldOr name default read with
  | none => simp
  | some a => simp [hrest]

/-- The last field of a record. -/
lemma isSome_some {β : Type} {fields : Object} (b : β) :
    (some b).isSome = true ↔ fields.Passes [] := by
  simp [passes_nil]

end Object

/-- Whether a reading of objects judges every field on its own. -/
def Fieldwise {α : Type} (read : Json → Option α) : Prop :=
  ∃ tests, ∀ fields : List (String × Json),
    (read (.obj fields)).isSome = true ↔ Object.Passes tests (Dict.ofList fields)

/-- **New fields over old ones** are judged as if they stood alone. -/
lemma Fieldwise.overlay {α : Type} {read : Json → Option α} (h : Fieldwise read)
    {old new : List (String × Json)} (hold : (read (.obj old)).isSome = true) :
    (read (.ofObject ((Dict.ofList old).insertAll new))).isSome = true ↔
      (read (.obj new)).isSome = true := by
  obtain ⟨tests, htests⟩ := h
  rw [htests] at hold ⊢
  rw [Json.ofObject, htests, Dict.ofList_entries]
  refine forall₂_congr fun t ht => ?_
  rw [Dict.get?_insertAll, ← Dict.get?_ofList]
  cases hnew : Dict.get? (Dict.ofList new) t.1 with
  | none => simpa using hold t ht
  | some v => simp

end FormChart
