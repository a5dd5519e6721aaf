import FormChart.Dict
import FormChart.Binary64.Basic

/-!
# JSON values

A JSON value as the library holds it.  Numbers come in three kinds that are never mixed up: a
natural number of at most 64 bits, a negative integer of at most 64 bits, and a finite binary64
number, so `3` and `3.0` are different values.  The fields of an object are a list in ascending
order of their names; `Json.ofObject` and `Json.object?` pass between such values and
dictionaries, and **going through a dictionary and back is the identity** (`object?_ofObject`).
-/

namespace FormChart

/-- A JSON number. -/
inductive Number where
  /-- A non-negative integer below `2 ^ 64`. -/
  | natural (n : Nat)
  /-- The integer `-n`, for `0 < n ≤ 2 ^ 63`. -/
  | negative (n : Nat)
  /-- A number written with a fraction or an exponent, or too big for 64 bits. -/
  | float (x : Binary64)
  deriving DecidableEq, Repr, Inhabited

/-- A JSON value. -/
inductive Json where
  /-- The value `null`. -/
  | null
  /-- A truth value. -/
  | bool (b : Bool)
  /-- A number. -/
  | num (n : Number)
  /-- A text. -/
  | str (s : String)
  /-- An array. -/
  | arr (items : List Json)
  /-- An object, its fields in ascending order of their names. -/
  | obj (fields : List (String × Json))
  deriving Inhabited

/-- The fields of an object as a dictionary. -/
abbrev Object := Dict Json

namespace Json

/-! ## Equality is decidable -/

mutual

/-- Decides whether two values are the same. -/
def decEq : (a b : Json) → Decidable (a = b)
  | .null, .null => isTrue rfl
  | .bool a, .bool b => if h : a = b then isTrue (h ▸ rfl) else isFalse (by simpa using h)
  | .num a, .num b => if h : a = b then isTrue (h ▸ rfl) else isFalse (by simpa using h)
  | .str a, .str b => if h : a = b then isTrue (h ▸ rfl) else isFalse (by simpa using h)
  | .arr a, .arr b =>
    match decEqItems a b with
    | isTrue h => isTrue (h ▸ rfl)
    | isFalse h => isFalse (by simpa using h)
  | .obj a, .obj b =>
    match decEqFields a b with
    | isTrue h => isTrue (h ▸ rfl)
    | isFalse h => isFalse (by simpa using h)
  | .null, .bool _ | .null, .num _ | .null, .str _ | .null, .arr _ | .null, .obj _
  | .bool _, .null | .bool _, .num _ | .bool _, .str _ | .bool _, .arr _ | .bool _, .obj _
  | .num _, .null | .num _, .bool _ | .num _, .str _ | .num _, .arr _ | .num _, .obj _
  | .str _, .null | .str _, .bool _ | .str _, .num _ | .str _, .arr _ | .str _, .obj _
  | .arr _, .null | .arr _, .bool _ | .arr _, .num _ | .arr _, .str _ | .arr _, .obj _
  | .obj _, .null | .obj _, .bool _ | .obj _, .num _ | .obj _, .str _ | .obj _, .arr _ =>
    isFalse Json.noConfusion

/-- Decides whether two lists of values are the same. -/
def decEqItems : (a b : List Json) → Decidable (a = b)
  | [], [] => isTrue rfl
  | x :: xs, y :: ys =>
    match decEq x y, decEqItems xs ys with
    | isTrue h, isTrue hs => isTrue (h ▸ hs ▸ rfl)
    | isFalse h, _ => isFalse fun e => h (List.cons.inj e).1
    | _, isFalse hs => isFalse fun e => hs (List.cons.inj e).2
  | [], _ :: _ | _ :: _, [] => isFalse nofun

/-- Decides whether two lists of fields are the same. -/
def decEqFields : (a b : List (String × Json)) → Decidable (a = b)
  | [], [] => isTrue rfl
  | (k, x) :: xs, (l, y) :: ys =>
    if hk : k = l then
      match decEq x y, decEqFields xs ys with
      | isTrue h, isTrue hs => isTrue (hk ▸ h ▸ hs ▸ rfl)
      | isFalse h, _ => isFalse fun e => h (Prod.mk.inj (List.cons.inj e).1).2
      | _, isFalse hs => isFalse fun e => hs (List.cons.inj e).2
    else isFalse fun e => hk (Prod.mk.inj (List.cons.inj e).1).1
  | [], _ :: _ | _ :: _, [] => isFalse nofun

end

instance : DecidableEq Json := decEq

/-! ## Objects and dictionaries -/

/-- The object with the fields of a dictionary. -/
def ofObject (fields : Object) : Json := .obj fields.entries

/-- The fields of an object; no other value has any. -/
def object? : Json → Option Object
  | .obj fields => some (Dict.ofList fields)
  | _ => none

/-- The fields of an object, and none for any other value. -/
def fieldsOrEmpty (v : Json) : Object := v.object?.getD Dict.empty

/-- A field of an object. -/
def field? (v : Json) (name : String) : Option Json := v.fieldsOrEmpty.get? name

/-- The object with the given fields; of two fields of one name the later one counts. -/
def record (fields : List (String × Json)) : Json := ofObject (Dict.ofList fields)

/-- A natural number as a value. -/
def nat (n : Nat) : Json := .num (.natural n)

/-- A text that may be absent. -/
def ofOption {α : Type} (encode : α → Json) : Option α → Json
  | some a => encode a
  | none => .null

/-- A list of texts. -/
def texts (items : List String) : Json := .arr (items.map .str)

end Json

namespace Dict

/-- An entry is inserted at the end of a list if its key is above all others. -/
theorem insertEntry_of_forall_lt {α : Type} {key : String} {value : α} :
    ∀ {entries : List (String × α)}, (∀ e ∈ entries, e.1 < key) →
      insertEntry key value entries = entries ++ [(key, value)]
  | [], _ => rfl
  | entry :: rest, h => by
    have hlt : entry.1 < key := h entry List.mem_cons_self
    have hnlt : ¬ key < entry.1 := fun h' => String.lt_irrefl _ (String.lt_trans h' hlt)
    have hne : key ≠ entry.1 := fun he => String.lt_irrefl _ (he ▸ hlt)
    rw [insertEntry, if_neg hnlt, if_neg hne,
      insertEntry_of_forall_lt fun e he => h e (List.mem_cons_of_mem _ he), List.cons_append]

/-- Adding entries whose keys are above all others, in ascending order, appends them. -/
theorem insertAll_entries {α : Type} :
    ∀ (new : List (String × α)) (d : Dict α), Ascending (d.entries ++ new) →
      (d.insertAll new).entries = d.entries ++ new
  | [], d, _ => by simp [insertAll]
  | (k, v) :: rest, d, h => by
    have hlt : ∀ e ∈ d.entries, e.1 < k := fun e he =>
      (List.pairwise_append.1 h).2.2 e he (k, v) List.mem_cons_self
    have hins : (d.insert k v).entries = d.entries ++ [(k, v)] := insertEntry_of_forall_lt hlt
    have := insertAll_entries rest (d.insert k v) (by rw [hins]; simpa using h)
    simp only [insertAll, List.foldl_cons] at this ⊢
    rw [this, hins, List.append_assoc, List.singleton_append]

/-- Reading a dictionary's own entries gives the dictionary. -/
@[simp] theorem ofList_entries {α : Type} (d : Dict α) : ofList d.entries = d :=
  ext_entries (insertAll_entries d.entries empty d.ascending)

end Dict

/-- A dictionary written as an object is read back unchanged. -/
@[simp] theorem Json.object?_ofObject (fields : Object) :
    (Json.ofObject fields).object? = some fields := by
  simp [Json.ofObject, Json.object?]

/-- The fields of a dictionary that is written as an object are its entries. -/
@[simp] theorem Json.fieldsOrEmpty_ofObject (fields : Object) :
    (Json.ofObject fields).fieldsOrEmpty = fields := by
  simp [Json.fieldsOrEmpty]

end FormChart
