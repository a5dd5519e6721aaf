/-!
# Dictionaries with text keys

A dictionary keeps its entries in one list, strictly ascending by key (code point by code
point, which is also the order of the UTF-8 bytes).  The order is part of the type, so two
dictionaries that answer every look-up alike **are equal** (`Dict.ext_get?`), and listing a
dictionary needs no sorting.

* `get?` looks a key up, `insert` adds or replaces one entry, `erase` and `without` drop keys;
* `union` writes one dictionary over another, later values winning;
* `ofList` reads entries in any order, the last one for a key winning.

The theorems say what each operation does to `get?`, and for which keys `get?` has an answer.
-/

namespace FormChart

universe u v

/-- Entries in strictly ascending order of their keys; in particular no key occurs twice. -/
abbrev Ascending {α : Type u} (entries : List (String × α)) : Prop :=
  entries.Pairwise fun a b => a.1 < b.1

/-- Puts an entry at its place, replacing an entry of the same key. -/
def insertEntry {α : Type u} (key : String) (value : α) :
    List (String × α) → List (String × α)
  | [] => [(key, value)]
  | entry :: rest =>
    if key < entry.1 then (key, value) :: entry :: rest
    else if key = entry.1 then (key, value) :: rest
    else entry :: insertEntry key value rest

/-- Inserting an entry puts in no entry but that one. -/
theorem mem_insertEntry {α : Type u} {key : String} {value : α} {e : String × α} :
    ∀ {entries : List (String × α)}, e ∈ insertEntry key value entries →
      e = (key, value) ∨ e ∈ entries
  | [], h => by simpa [insertEntry] using h
  | entry :: rest, h => by
    have ih := @mem_insertEntry α key value e rest
    grind [insertEntry]

/-- Inserting an entry keeps the keys in ascending order. -/
theorem ascending_insertEntry {α : Type u} (key : String) (value : α)
    {entries : List (String × α)} (h : Ascending entries) :
    Ascending (insertEntry key value entries) := by
  induction entries with
  | nil => simp [insertEntry]
  | cons entry rest ih =>
    obtain ⟨hhead, hrest⟩ := List.pairwise_cons.1 h
    rw [insertEntry]
    split
    next hlt =>
      refine List.pairwise_cons.2 ⟨fun e he => ?_, h⟩
      rcases List.mem_cons.1 he with rfl | he
      · exact hlt
      · exact String.lt_trans hlt (hhead e he)
    next hnlt =>
      split
      next heq => exact List.pairwise_cons.2 ⟨fun e he => heq ▸ hhead e he, hrest⟩
      next hne =>
        refine List.pairwise_cons.2 ⟨fun e he => ?_, ih hrest⟩
        rcases mem_insertEntry he with rfl | he
        · refine Decidable.byContradiction fun hnot => hne ?_
          exact String.le_antisymm (String.not_lt.1 hnot) (String.not_lt.1 hnlt)
        · exact hhead e he

/-- A finite map from texts to values. -/
structure Dict (α : Type u) where
  /-- The entries, in ascending order of their keys. -/
  entries : List (String × α)
  /-- The order is strict, so a key has one value. -/
  ascending : Ascending entries

namespace Dict

variable {α : Type u} {β : Type v}

/-- A dictionary is determined by its entries. -/
theorem ext_entries {d e : Dict α} (h : d.entries = e.entries) : d = e := by
  cases d; cases e; cases h; rfl

instance [DecidableEq α] : DecidableEq (Dict α) := fun d e =>
  if h : d.entries = e.entries then isTrue (ext_entries h)
  else isFalse fun heq => h (heq ▸ rfl)

/-- The dictionary without entries. -/
def empty : Dict α := ⟨[], List.Pairwise.nil⟩

instance : EmptyCollection (Dict α) := ⟨empty⟩

instance : Inhabited (Dict α) := ⟨empty⟩

/-- The value of a key. -/
def get? (d : Dict α) (key : String) : Option α := d.entries.lookup key

/-- Adds an entry, replacing an earlier one of the same key. -/
def insert (d : Dict α) (key : String) (value : α) : Dict α :=
  ⟨insertEntry key value d.entries, ascending_insertEntry key value d.ascending⟩

/-- Keeps the entries whose key passes the test. -/
def filterKeys (d : Dict α) (keep : String → Bool) : Dict α :=
  ⟨d.entries.filter fun e => keep e.1, d.ascending.filter _⟩

/-- Drops one key. -/
def erase (d : Dict α) (key : String) : Dict α := d.filterKeys (· != key)

/-- Drops every key of a list. -/
def without (d : Dict α) (keys : List String) : Dict α := d.filterKeys fun k => !keys.contains k

/-- Adds entries one after the other, so the last one for a key wins. -/
def insertAll (d : Dict α) (entries : List (String × α)) : Dict α :=
  entries.foldl (fun acc e => acc.insert e.1 e.2) d

/-- The dictionary of some entries in any order; the last one for a key wins. -/
def ofList (entries : List (String × α)) : Dict α := empty.insertAll entries

/-- Writes the second dictionary over the first. -/
def union (d e : Dict α) : Dict α := d.insertAll e.entries

/-- Changes every value. -/
def map (f : α → β) (d : Dict α) : Dict β :=
  ⟨d.entries.map fun e => (e.1, f e.2), d.ascending.map _ fun _ _ h => h⟩

/-- The keys in ascending order. -/
def keys (d : Dict α) : List String := d.entries.map (·.1)

/-- The number of entries. -/
def size (d : Dict α) : Nat := d.entries.length

/-- Whether there is no entry. -/
def isEmpty (d : Dict α) : Bool := d.entries.isEmpty

/-! ## What the operations do to look-ups -/

/-- The empty dictionary has no value for any key. -/
@[simp] theorem get?_empty (key : String) : (empty : Dict α).get? key = none := rfl

/-- Looking a key up in a list compares it with the key of the first entry, and goes on in the rest
if the two differ. -/
theorem lookup_cons_if (k key : String) (value : α) (rest : List (String × α)) :
    ((key, value) :: rest).lookup k = if k = key then some value else rest.lookup k := by
  by_cases h : k = key
  · subst h; simp
  · have hne : (k == key) = false := beq_false_of_ne h
    simp [List.lookup_cons, hne, h]

/-- Looking a key up after an entry was inserted: the new value for its key, and what was found
before for every other. -/
theorem lookup_insertEntry (key : String) (value : α) (k : String) :
    ∀ entries : List (String × α),
      (insertEntry key value entries).lookup k =
        if k = key then some value else entries.lookup k
  | [] => by simp [insertEntry, lookup_cons_if]
  | (l, w) :: rest => by
    have ih := lookup_insertEntry key value k rest
    rw [insertEntry]
    split
    · simp only [lookup_cons_if]
    · split <;> simp only [lookup_cons_if, ih] <;> grind

/-- An inserted key has the new value and every other key its old one. -/
@[simp] theorem get?_insert (d : Dict α) (key : String) (value : α) (k : String) :
    (d.insert key value).get? k = if k = key then some value else d.get? k :=
  lookup_insertEntry key value k d.entries

/-- Looking a key up among the entries whose keys pass a test: nothing is found for a key that fails
it, and what was found before for every other. -/
theorem lookup_filter_fst (keep : String → Bool) (k : String) :
    ∀ entries : List (String × α),
      (entries.filter fun e => keep e.1).lookup k =
        if keep k then entries.lookup k else none
  | [] => by simp
  | (key, value) :: rest => by
    have ih := lookup_filter_fst keep k rest
    rw [List.filter_cons]
    split
    · rw [lookup_cons_if, lookup_cons_if, ih]; grind
    · rw [ih, lookup_cons_if]; grind

/-- A filtered dictionary answers only for the keys that pass. -/
@[simp] theorem get?_filterKeys (d : Dict α) (keep : String → Bool) (k : String) :
    (d.filterKeys keep).get? k = if keep k then d.get? k else none :=
  lookup_filter_fst keep k d.entries

/-- An erased key has no value, and every other key its old one. -/
@[simp] theorem get?_erase (d : Dict α) (key k : String) :
    (d.erase key).get? k = if k = key then none else d.get? k := by
  by_cases h : k = key <;> simp [erase, h]

/-- Dropped keys have no value, and every other key its old one. -/
@[simp] theorem get?_without (d : Dict α) (keys : List String) (k : String) :
    (d.without keys).get? k = if k ∈ keys then none else d.get? k := by
  by_cases h : k ∈ keys <;> simp [without, h]

/-- Adding entries one after the other: a key has the value of the last of them with that key, and
its old one if there is none. -/
theorem get?_insertAll (k : String) :
    ∀ (entries : List (String × α)) (d : Dict α),
      (d.insertAll entries).get? k = (entries.reverse.lookup k).or (d.get? k)
  | [], d => by simp [insertAll]
  | (key, value) :: rest, d => by
    have ih := get?_insertAll k rest (d.insert key value)
    simp only [insertAll, List.foldl_cons] at ih ⊢
    rw [ih, List.reverse_cons, get?_insert, List.lookup_append]
    by_cases h : k = key
    · subst h
      cases rest.reverse.lookup k <;> simp
    · cases rest.reverse.lookup k <;> simp [h, lookup_cons_if]

/-! ## Equal look-ups, equal dictionaries -/

/-- A key below all keys of a list is not found there. -/
theorem lookup_eq_none_of_forall_lt {k : String} :
    ∀ {entries : List (String × α)}, (∀ e ∈ entries, k < e.1) → entries.lookup k = none
  | [], _ => rfl
  | (key, value) :: rest, h => by
    have hlt : k < key := h (key, value) List.mem_cons_self
    have hne : (k == key) = false := by
      simp only [beq_eq_false_iff_ne, ne_eq]
      rintro rfl
      exact String.lt_irrefl _ hlt
    simp only [List.lookup_cons, hne]
    exact lookup_eq_none_of_forall_lt fun e he => h e (List.mem_cons_of_mem _ he)

/-- Lists in strictly ascending order that answer every look-up alike are equal. -/
theorem eq_of_lookup_eq :
    ∀ {a b : List (String × α)}, Ascending a → Ascending b →
      (∀ k, a.lookup k = b.lookup k) → a = b
  | [], [], _, _, _ => rfl
  | [], (k, v) :: _, _, _, h => by simpa using h k
  | (k, v) :: _, [], _, _, h => by simpa using h k
  | (k, v) :: a, (l, w) :: b, hka, hlb, h => by
    obtain ⟨hak, ha⟩ := List.pairwise_cons.1 hka
    obtain ⟨hbl, hb⟩ := List.pairwise_cons.1 hlb
    have hkl : k = l := by
      refine String.le_antisymm (String.not_lt.1 fun hlt => ?_) (String.not_lt.1 fun hlt => ?_)
      · have hnone : (((k, v) :: a).lookup l) = none :=
          lookup_eq_none_of_forall_lt fun e he => by
            rcases List.mem_cons.1 he with rfl | he
            · exact hlt
            · exact String.lt_trans hlt (hak e he)
        rw [h l] at hnone
        simp at hnone
      · have hnone : (((l, w) :: b).lookup k) = none :=
          lookup_eq_none_of_forall_lt fun e he => by
            rcases List.mem_cons.1 he with rfl | he
            · exact hlt
            · exact String.lt_trans hlt (hbl e he)
        rw [← h k] at hnone
        simp at hnone
    subst hkl
    have hv : v = w := by simpa using h k
    subst hv
    refine congrArg _ (eq_of_lookup_eq ha hb fun m => ?_)
    by_cases hm : m = k
    · subst hm
      rw [lookup_eq_none_of_forall_lt hak, lookup_eq_none_of_forall_lt hbl]
    · simpa [lookup_cons_if, hm] using h m

/-- Dictionaries that answer every look-up alike are equal. -/
theorem ext_get? {d e : Dict α} (h : ∀ k, d.get? k = e.get? k) : d = e :=
  ext_entries (eq_of_lookup_eq d.ascending e.ascending h)

/-- Erasing a key without a value changes nothing. -/
theorem erase_of_get?_eq_none {d : Dict α} {key : String} (h : d.get? key = none) :
    d.erase key = d := by
  refine ext_get? fun k => ?_
  rw [get?_erase]
  split
  next heq => rw [heq, h]
  next => rfl

/-! ## The keys -/

/-- The keys are those that have a value. -/
theorem mem_keys {d : Dict α} {key : String} : key ∈ d.keys ↔ d.get? key ≠ none := by
  simp [keys, get?, List.lookup_eq_none_iff]

/-- No key is listed twice. -/
theorem nodup_keys (d : Dict α) : d.keys.Nodup := by
  refine List.pairwise_map.2 (d.ascending.imp fun hlt heq => ?_)
  rw [heq] at hlt
  exact String.lt_irrefl _ hlt

end Dict

end FormChart
