import FormChart.Json.Decode

/-!
# Contexts and patches

The context of a form is the data behind its pages.  A type of contexts says how a context is
written as JSON and read back (`Model`), which of its fields are for the moment only, and whether
a context wants to be kept at all.

A patch is a set of top-level fields to write over a context.  `merge` writes it over the fields
of an object: in the mode `replace` a field is exchanged as a whole, in the mode `shallow` an
object over an object is merged one level deep.  `apply` goes through the JSON form: the context
is encoded, the patch merged in, and the result decoded, so **a patch is applied as a whole or not
at all**.

`fresh`, `transientFields` and `wantsKeeping` are the defaults, the `transient_keys` and the
`persistence_enabled` of a model, and `merge` is `merge_into`.
-/

namespace FormChart

/-- What the library has to know about a type of contexts. -/
class Model (C : Type) where
  /-- The context at the start. -/
  fresh : C
  /-- A context as JSON. -/
  encode : C → Json
  /-- Reads a context. -/
  decode : Json → Option C
  /-- The fields that are never kept beyond a session. -/
  transientFields : List String := []
  /-- Whether a context wants to be kept. -/
  wantsKeeping : C → Bool := fun _ => true

/-- Fields to write over a context. -/
abbrev Patch := Object

/-- How a field of a patch is written over a field that is there already. -/
inductive MergeMode where
  /-- The new value replaces the old one. -/
  | replace
  /-- The fields of a new object are written over those of an old object; any other value
      replaces the old one. -/
  | shallow
  deriving DecidableEq, Repr

/-- The value of a field after a new value is written over an old one. -/
def mergeValue : MergeMode → Option Json → Json → Json
  | .shallow, some (.obj old), .obj new => .ofObject ((Dict.ofList old).insertAll new)
  | _, _, new => new

/-- Writes a patch over the fields of an object. -/
def merge (mode : MergeMode) (base : Object) (patch : Patch) : Object :=
  patch.entries.foldl (fun acc e => acc.insert e.1 (mergeValue mode (acc.get? e.1) e.2)) base

/-- Why a patch could not be applied. -/
inductive PatchError where
  /-- The context is not an object, so it has no fields to write. -/
  | notAnObject
  /-- The context with the patch written over it is not a context. -/
  | rejected (keys : List String)
  deriving DecidableEq, Repr

/-- The wording of a patch error. -/
def PatchError.message : PatchError → String
  | .notAnObject => "Context must encode to a JSON object"
  | .rejected keys =>
    "Patch for keys [" ++ ", ".intercalate keys ++ "] does not fit the context"

/-- Writes a patch over a context. -/
def apply {C : Type} [Model C] (context : C) (patch : Patch) (mode : MergeMode) :
    Except PatchError C :=
  if patch.isEmpty then .ok context
  else
    match (Model.encode context).object? with
    | none => .error .notAnObject
    | some fields =>
      match Model.decode (Json.ofObject (merge mode fields patch)) with
      | some next => .ok next
      | none => .error (.rejected patch.keys)

/-! ## What merging does to look-ups -/

/-- What merging the entries of a patch one after the other leaves under a key.  The keys of the
patch are distinct, so each is merged with the value that the base has for it. -/
theorem get?_foldl_merge (mode : MergeMode) (k : String) :
    ∀ (entries : List (String × Json)) (base : Object), Ascending entries →
      (entries.foldl (fun acc e => acc.insert e.1 (mergeValue mode (acc.get? e.1) e.2))
        base).get? k =
        match entries.lookup k with
        | some v => some (mergeValue mode (base.get? k) v)
        | none => base.get? k
  | [], base, _ => rfl
  | (l, v) :: rest, base, h => by
    obtain ⟨hl, hrest⟩ := List.pairwise_cons.1 h
    rw [List.foldl_cons, get?_foldl_merge mode k rest _ hrest, Dict.lookup_cons_if]
    by_cases hkl : k = l
    · subst hkl
      rw [Dict.lookup_eq_none_of_forall_lt hl]
      simp
    · cases rest.lookup k <;> simp [hkl]

/-- A merged object has the merged value of every field that the patch names, and its own value
    of every other field. -/
theorem get?_merge (mode : MergeMode) (base : Object) (patch : Patch) (k : String) :
    (merge mode base patch).get? k =
      match patch.get? k with
      | some v => some (mergeValue mode (base.get? k) v)
      | none => base.get? k :=
  get?_foldl_merge mode k patch.entries base patch.ascending

end FormChart
