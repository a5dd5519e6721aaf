import FormChart.Proofs.Json.Fields
import FormChart.Registration.Household

/-!
# The household as JSON and back

What was read once can be written and is read again as the same household.  A record that holds
counts or carries fields along has to be as readings leave it (`Valid`): its counts fit 64 bits, and
no field that it carries bears the name of a known one.

For every record there are two lemmas: readings leave valid records (`valid_of_decode`), and valid
records are read back (`decode_encode`).  A member whose cursor has left the 64 bits is read with
the cursor at the first job (`Member.decode_encode_eq`).
-/

namespace FormChart

namespace Json

/-! ## Lists -/

variable {α : Type}

/-- A list whose items are read as others. -/
lemma list?_map_of_read {β : Type} {encode : α → Json} {read : Json → Option β} {f : α → β}
    {items : List α} (hitems : ∀ a ∈ items, read (encode a) = some (f a)) :
    list? read (.arr (items.map encode)) = some (items.map f) := by
  change (items.map encode).mapM read = some (items.map f)
  induction items with
  | nil => rfl
  | cons a rest ih =>
      rw [List.map_cons, List.mapM_cons, hitems a List.mem_cons_self,
        ih fun b hb => hitems b (List.mem_cons_of_mem _ hb)]
      rfl

/-- A list whose items are read back. -/
lemma list?_map {encode : α → Json} {read : Json → Option α} {items : List α}
    (hitems : ∀ a ∈ items, read (encode a) = some a) :
    list? read (.arr (items.map encode)) = some items := by
  simpa using list?_map_of_read (f := id) hitems

lemma mem_mapM {β : Type} {read : α → Option β} {items : List α} {results : List β}
    (h : items.mapM read = some results) : ∀ b ∈ results, ∃ a ∈ items, read a = some b := by
  induction items generalizing results with
  | nil =>
      cases h
      exact nofun
  | cons a rest ih =>
      simp only [List.mapM_cons, Option.bind_eq_bind, Option.bind_eq_some_iff,
        Option.pure_def, Option.some.injEq] at h
      obtain ⟨b, hb, bs, hbs, rfl⟩ := h
      intro c hc
      rcases List.mem_cons.1 hc with rfl | hc
      · exact ⟨a, List.mem_cons_self, hb⟩
      · obtain ⟨a', ha', hread⟩ := ih hbs c hc
        exact ⟨a', List.mem_cons_of_mem _ ha', hread⟩

/-- Every item of a list was read from some value. -/
lemma exists_of_mem_list? {read : Json → Option α} {v : Json} {items : List α}
    (h : list? read v = some items) : ∀ a ∈ items, ∃ u, read u = some a := by
  simp only [list?, Option.bind_eq_bind, Option.bind_eq_some_iff] at h
  obtain ⟨vs, -, hvs⟩ := h
  intro a ha
  obtain ⟨u, -, hu⟩ := mem_mapM hvs a ha
  exact ⟨u, hu⟩

end Json

/-- A field with a default is the default or was read. -/
lemma Object.fieldOr_eq_some {α : Type} {fields : Object} {name : String} {default a : α}
    {read : Json → Option α} (h : fields.fieldOr name default read = some a) :
    a = default ∨ ∃ v, read v = some a := by
  unfold fieldOr at h
  split at h
  next v _ => exact .inr ⟨v, h⟩
  next => exact .inl (Option.some.inj h).symm

namespace Registration

/-! ## Answers -/

namespace Answer

@[simp] lemma flag?_ofFlag (f : Option Bool) : flag? (ofFlag f) = f := by
  cases f <;> rfl

lemma readDigits_lt {cs : List Char} {n : Nat} (h : readDigits cs = some n) : n < wordBound := by
  unfold readDigits at h
  split at h
  next hfits =>
      cases h
      exact hfits.2.2
  next => cases h

/-- Counts fit 64 bits. -/
lemma count?_lt {v : Json} {n : Nat} (h : count? v = some n) : n < wordBound := by
  unfold count? at h
  split at h
  next k =>
      split at h
      next hlt =>
          cases h
          exact hlt
      next => cases h
  next s =>
      unfold readCount at h
      split at h
      · exact readDigits_lt h
      · exact readDigits_lt h
  next => cases h

lemma index_lt (v : Json) : index v < wordBound := by
  unfold index
  cases h : count? v with
  | none => decide
  | some n => exact count?_lt h

lemma count?_nat {n : Nat} (h : n < wordBound) : count? (Json.nat n) = some n := by
  simp [count?, Json.nat, h]

lemma index_nat {n : Nat} (h : n < wordBound) : index (Json.nat n) = n := by
  rw [index, count?_nat h, Option.getD_some]

/-- A position that does not fit 64 bits is read as the first one. -/
lemma index_nat_le (n : Nat) : index (Json.nat n) ≤ n := by
  by_cases h : n < wordBound
  · exact Nat.le_of_eq (index_nat h)
  · simp [index, count?, Json.nat, h]

lemma count?_ofCount {n : Option Nat} (h : ∀ k, n = some k → k < wordBound) :
    count? (ofCount n) = n := by
  cases n with
  | none => rfl
  | some k => exact count?_nat (h k rfl)

end Answer

/-! ## Names and jobs -/

lemma Name.decode_encode (n : Name) : decode n.encode = some n := by
  simp [decode, encode, Object.fieldOr, Dict.get?_ofList, List.lookup_cons, Json.str?]

lemma Job.decode_encode (j : Job) : decode j.encode = some j := by
  simp [decode, encode, Object.fieldOr, Dict.get?_ofList, List.lookup_cons, Json.str?, Answer.text]

/-! ## Incomes -/

namespace Income

/-- Whether an income is as readings leave it. -/
structure Valid (i : Income) : Prop where
  currentJob : i.currentJob < wordBound
  extra : i.extra.Avoids fieldNames

lemma valid_of_decode {v : Json} {i : Income} (h : decode v = some i) : i.Valid := by
  simp only [decode, Option.bind_eq_bind, Option.bind_eq_some_iff, Option.some.injEq] at h
  obtain ⟨fields, -, hasIncome, -, currentJob, hcurrent, jobs, -, rfl⟩ := h
  refine ⟨?_, Object.avoids_without _ _⟩
  rcases Object.fieldOr_eq_some hcurrent with rfl | ⟨u, hu⟩
  · exact Nat.two_pow_pos 64
  · cases hu
    exact Answer.index_lt u

/-- An income as it is read back: a cursor that does not fit 64 bits is the first position. -/
def reread (i : Income) : Income := { i with currentJob := Answer.index (Json.nat i.currentJob) }

lemma decode_encode_eq {i : Income} (hextra : i.extra.Avoids fieldNames) :
    decode i.encode = some i.reread := by
  have hjobs := Json.list?_map fun j (_ : j ∈ i.jobs) => Job.decode_encode j
  simp only [decode, encode, Json.object?_record, Option.bind_eq_bind, Option.bind_some,
    Object.fieldOr]
  rw [Object.get?_record_extra hextra (by decide), Object.get?_record_extra hextra (by decide),
    Object.get?_record_extra hextra (by decide), Object.without_record hextra rfl]
  simp [List.lookup_cons, hjobs, reread]

lemma Valid.reread {i : Income} (h : i.Valid) : i.reread = i := by
  rw [Income.reread, Answer.index_nat h.currentJob]

end Income

/-! ## Members -/

namespace Member

/-- Whether a member is as readings leave it. -/
structure Valid (m : Member) : Prop where
  income : m.income.Valid
  extra : m.extra.Avoids fieldNames

lemma valid_of_decode {v : Json} {m : Member} (h : decode v = some m) : m.Valid := by
  simp only [decode, Option.bind_eq_bind, Option.bind_eq_some_iff, Option.some.injEq] at h
  obtain ⟨fields, -, name, -, hasJobs, -, hasOtherJobs, -, income, hincome, rfl⟩ := h
  refine ⟨?_, Object.avoids_without _ _⟩
  rcases Object.fieldOr_eq_some hincome with rfl | ⟨u, hu⟩
  · exact ⟨Nat.two_pow_pos 64, Object.avoids_empty _⟩
  · exact Income.valid_of_decode hu

/-- A member as it is read back. -/
def reread (m : Member) : Member := { m with income := m.income.reread }

lemma decode_encode_eq {m : Member} (hextra : m.extra.Avoids fieldNames)
    (hincome : m.income.extra.Avoids Income.fieldNames) : decode m.encode = some m.reread := by
  simp only [decode, encode, Json.object?_record, Option.bind_eq_bind, Option.bind_some,
    Object.fieldOr]
  rw [Object.get?_record_extra hextra (by decide), Object.get?_record_extra hextra (by decide),
    Object.get?_record_extra hextra (by decide), Object.get?_record_extra hextra (by decide),
    Object.without_record hextra rfl]
  simp [List.lookup_cons, Name.decode_encode, Income.decode_encode_eq hincome, reread]

lemma Valid.reread {m : Member} (h : m.Valid) : m.reread = m := by
  rw [Member.reread, h.income.reread]

end Member

/-! ## Households -/

namespace Household

/-- Whether a household is as readings leave it. -/
structure Valid (h : Household) : Prop where
  numMembers : ∀ n, h.numMembers = some n → n < wordBound
  currentMember : h.currentMember < wordBound
  members : ∀ m ∈ h.members, m.Valid

lemma valid_of_decode {v : Json} {h : Household} (hd : decode v = some h) : h.Valid := by
  simp only [decode, Option.bind_eq_bind, Option.bind_eq_some_iff, Option.some.injEq] at hd
  obtain ⟨fields, -, numMembers, hnum, currentMember, hcurrent, members, hmembers, rfl⟩ := hd
  refine ⟨fun n hn => ?_, ?_, fun m hm => ?_⟩
  · rcases Object.fieldOr_eq_some hnum with rfl | ⟨u, hu⟩
    · cases hn
    · cases hu
      exact Answer.count?_lt hn
  · rcases Object.fieldOr_eq_some hcurrent with rfl | ⟨u, hu⟩
    · exact Nat.two_pow_pos 64
    · cases hu
      exact Answer.index_lt u
  · rcases Object.fieldOr_eq_some hmembers with rfl | ⟨u, hu⟩
    · cases hm
    · obtain ⟨w, hw⟩ := Json.exists_of_mem_list? hu m hm
      exact Member.valid_of_decode hw

/-- A household as it is read back: cursors that do not fit 64 bits are the first position. -/
def reread (h : Household) : Household :=
  { h with
    currentMember := Answer.index (Json.nat h.currentMember)
    members := h.members.map Member.reread }

/-- A household is read back whatever its cursors are. -/
lemma decode_encode_eq {h : Household} (hnum : ∀ n, h.numMembers = some n → n < wordBound)
    (hmembers : ∀ m ∈ h.members, m.extra.Avoids Member.fieldNames ∧
      m.income.extra.Avoids Income.fieldNames) : decode h.encode = some h.reread := by
  have hread := Json.list?_map_of_read fun m hm =>
    Member.decode_encode_eq (hmembers m hm).1 (hmembers m hm).2
  simp [decode, encode, Object.fieldOr, Dict.get?_ofList, List.lookup_cons, hread,
    Answer.count?_ofCount hnum, reread]

lemma Valid.reread {h : Household} (hv : h.Valid) : h.reread = h := by
  have hmembers : h.members.map Member.reread = h.members :=
    (List.map_congr_left fun m hm => (hv.members m hm).reread).trans (List.map_id' _)
  rw [Household.reread, Answer.index_nat hv.currentMember, hmembers]

lemma decode_encode {h : Household} (hv : h.Valid) : decode h.encode = some h := by
  rw [decode_encode_eq hv.numMembers
    fun m hm => ⟨(hv.members m hm).extra, (hv.members m hm).income.extra⟩, hv.reread]

end Household

end Registration

end FormChart
