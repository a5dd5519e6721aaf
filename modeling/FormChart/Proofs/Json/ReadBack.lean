import Mathlib.Data.List.TakeWhile
import FormChart.Json.Parser
import FormChart.Json.Printer

/-!
# Printed documents are read back

**What is printed is read as what it was printed from** (`parse_compact`), for values that can be
written down at all (`legible`): they are not nested too deep, the fields of their objects are in
ascending order, and their numbers are read back one by one.  The last is so for all integers of
64 bits (`legible_natural`, `legible_negative`), and can be computed for any other number.

The proof follows the printer.  Behind a value there is a comma, a closing bracket or nothing
(`delimits`), so neither a number nor a text can be read too far.
-/

namespace FormChart

/-- Whether a text could stand behind a value: it is empty, or begins with a comma or a closing
bracket. -/
def delimits : List Char → Bool
  | [] => true
  | c :: _ => c == ',' || c == ']' || c == '\x7d'

/-! ## Numbers -/

namespace Numeral

lemma digits_append {rest : List Char} (hrest : delimits rest) (cs : List Char) :
    digits (cs ++ rest) = ((digits cs).1, (digits cs).2 ++ rest) := by
  induction cs with
  | nil =>
      cases rest with
      | nil => rfl
      | cons c rest =>
          have hc : c.isDigit = false := by
            simp only [delimits, Bool.or_eq_true, beq_iff_eq] at hrest
            rcases hrest with (rfl | rfl) | rfl <;> rfl
          simp [digits, hc]
  | cons c cs ih =>
      simp only [digits, Prod.mk.injEq] at ih ⊢
      cases hc : c.isDigit with
      | true => simp [hc, ih.1, ih.2]
      | false => simp [hc]

variable {rest cs left : List Char} (hrest : delimits rest)

include hrest

lemma scanWhole_append {whole : List Char} (h : scanWhole cs = some (whole, left)) :
    scanWhole (cs ++ rest) = some (whole, left ++ rest) := by
  unfold scanWhole at h ⊢
  rw [digits_append hrest]
  generalize digits cs = found at h ⊢
  obtain ⟨ds, left'⟩ := found
  dsimp only
  split at h <;> simp_all

omit hrest in
lemma scanPlaces_of_ne (h : ∀ tail, cs ≠ '.' :: tail) : scanPlaces cs = some (none, cs) := by
  unfold scanPlaces
  split
  next tail => exact absurd rfl (h tail)
  next => rfl

/-- What delimits a value begins with no other character, so what stands in front of it decides. -/
lemma append_ne_cons {c : Char} (hc : delimits [c] = false) (hcs : ∀ tail, cs ≠ c :: tail)
    (tail : List Char) : cs ++ rest ≠ c :: tail := by
  cases cs with
  | nil =>
      rintro rfl
      have hdelimits : delimits [c] = true := hrest
      rw [hc] at hdelimits
      cases hdelimits
  | cons d cs =>
      intro heq
      obtain ⟨rfl, -⟩ := List.cons.inj heq
      exact hcs cs rfl

lemma scanPlaces_append {places : Option (List Char)} (h : scanPlaces cs = some (places, left)) :
    scanPlaces (cs ++ rest) = some (places, left ++ rest) := by
  unfold scanPlaces at h
  split at h
  next tail =>
      rw [List.cons_append, scanPlaces, digits_append hrest]
      generalize digits tail = found at h ⊢
      obtain ⟨ds, left'⟩ := found
      dsimp only at h ⊢
      split at h <;> simp_all
  next hne =>
      cases h
      exact scanPlaces_of_ne (append_ne_cons hrest rfl hne)

lemma scanExponentDigits_append {sign : Int} {e : Option Int}
    (h : scanExponentDigits sign cs = some (e, left)) :
    scanExponentDigits sign (cs ++ rest) = some (e, left ++ rest) := by
  unfold scanExponentDigits at h ⊢
  rw [digits_append hrest]
  generalize digits cs = found at h ⊢
  obtain ⟨ds, left'⟩ := found
  dsimp only at h ⊢
  split at h <;> simp_all

omit hrest in
lemma scanExponent_of_ne (hlower : ∀ tail, cs ≠ 'e' :: tail) (hupper : ∀ tail, cs ≠ 'E' :: tail) :
    scanExponent cs = some (none, cs) := by
  unfold scanExponent
  split
  next tail => exact absurd rfl (hlower _)
  next tail => exact absurd rfl (hupper _)
  next tail => exact absurd rfl (hlower _)
  next tail => exact absurd rfl (hupper _)
  next tail => exact absurd rfl (hlower _)
  next tail => exact absurd rfl (hupper _)
  next => rfl

omit hrest in
lemma scanExponent_letter {c : Char} (hc : c = 'e' ∨ c = 'E') (hplus : ∀ tail, cs ≠ '+' :: tail)
    (hminus : ∀ tail, cs ≠ '-' :: tail) : scanExponent (c :: cs) = scanExponentDigits 1 cs := by
  rcases hc with rfl | rfl
  · rw [scanExponent]
    · exact hplus
    · exact hminus
  · rw [scanExponent]
    · exact hplus
    · exact hminus

lemma scanExponent_append {e : Option Int} (h : scanExponent cs = some (e, left)) :
    scanExponent (cs ++ rest) = some (e, left ++ rest) := by
  -- a sign that is not there does not come from behind either
  have hletter : ∀ {c : Char} {tail : List Char}, c = 'e' ∨ c = 'E' →
      (∀ more, tail ≠ '+' :: more) → (∀ more, tail ≠ '-' :: more) →
      scanExponentDigits 1 tail = some (e, left) →
      scanExponent (c :: tail ++ rest) = some (e, left ++ rest) := by
    intro c tail hc hplus hminus hread
    rw [List.cons_append, scanExponent_letter hc (append_ne_cons hrest rfl hplus)
      (append_ne_cons hrest rfl hminus)]
    exact scanExponentDigits_append hrest hread
  unfold scanExponent at h
  split at h
  next => exact scanExponentDigits_append hrest h
  next => exact scanExponentDigits_append hrest h
  next => exact scanExponentDigits_append hrest h
  next => exact scanExponentDigits_append hrest h
  next hplus hminus => exact hletter (.inl rfl) hplus hminus h
  next hplus hminus => exact hletter (.inr rfl) hplus hminus h
  next hlower hupper =>
      cases h
      exact scanExponent_of_ne (append_ne_cons hrest rfl hlower) (append_ne_cons hrest rfl hupper)

lemma scanUnsigned_append {minus : Bool} {n : Numeral}
    (h : scanUnsigned minus cs = some (n, left)) :
    scanUnsigned minus (cs ++ rest) = some (n, left ++ rest) := by
  simp only [scanUnsigned, Option.bind_eq_bind, Option.bind_eq_some_iff] at h
  obtain ⟨⟨whole, cs₁⟩, hwhole, ⟨places, cs₂⟩, hplaces, ⟨e, cs₃⟩, he, h⟩ := h
  cases h
  simp [scanUnsigned, scanWhole_append hrest hwhole, scanPlaces_append hrest hplaces,
    scanExponent_append hrest he]

/-- A numeral that is read is read just as well in front of what delimits values. -/
lemma scan_append {n : Numeral} (h : scan cs = some (n, left)) :
    scan (cs ++ rest) = some (n, left ++ rest) := by
  unfold scan at h
  split at h
  next tail =>
      rw [List.cons_append, scan]
      exact scanUnsigned_append hrest h
  next hminus =>
      cases cs with
      | nil => cases h
      | cons c cs =>
          rw [List.cons_append, scan]
          · exact scanUnsigned_append hrest h
          · simp_all

omit hrest in
/-- A numeral begins with a digit or a sign. -/
lemma cons_of_scan {n : Numeral} (h : scan cs = some (n, left)) :
    ∃ c tail, cs = c :: tail ∧ (c = '-' ∨ c.isDigit = true) := by
  cases cs with
  | nil => cases h
  | cons c tail =>
      refine ⟨c, tail, rfl, ?_⟩
      by_cases hminus : c = '-'
      · exact .inl hminus
      · cases hdigit : c.isDigit with
        | true => exact .inr rfl
        | false =>
            have hnone : scanUnsigned false (c :: tail) = none := by
              simp [scanUnsigned, scanWhole, digits, hdigit]
            rw [scan, hnone] at h
            · cases h
            · simp_all

end Numeral

/-- Whether a number is read back from its text. -/
def Number.legible (n : Number) : Bool := decide (Json.number n.text = some (n, []))

namespace Json

/-- Legible numbers are read back in front of what delimits values. -/
lemma number_text {n : Number} (h : n.legible = true) {rest : List Char} (hrest : delimits rest) :
    number (n.text ++ rest) = some (n, rest) := by
  have hself : number n.text = some (n, []) := of_decide_eq_true h
  simp only [number, Option.bind_eq_bind, Option.bind_eq_some_iff, Option.some.injEq,
    Prod.mk.injEq] at hself
  obtain ⟨⟨numeral, left⟩, hscan, _, hnumber, rfl, rfl⟩ := hself
  simp [number, Numeral.scan_append hrest hscan, hnumber]

/-- The digits of a positive number do not begin with a zero. -/
lemma natText_ne_zero_cons {n : Nat} (hn : 0 < n) (tail : List Char) : natText n ≠ '0' :: tail := by
  induction n using Nat.strongRecOn generalizing tail with
  | ind n ih =>
      rw [natText, Nat.toDigits_eq_if (by decide)]
      split
      next hlt =>
          intro heq
          have hzero : n.digitChar = '0' := (List.cons.inj heq).1
          rw [Nat.digitChar_eq_zero] at hzero
          omega
      next hge =>
          intro heq
          cases htext : natText (n / 10) with
          | nil => exact Nat.toDigits_ne_nil htext
          | cons c rest =>
              rw [show Nat.toDigits 10 (n / 10) = c :: rest from htext, List.cons_append] at heq
              obtain ⟨rfl, -⟩ := List.cons.inj heq
              exact ih (n / 10) (by omega) (by omega) rest htext

/-- The digits of a number are read as the number before the point. -/
lemma scanUnsigned_natText (minus : Bool) (n : Nat) :
    Numeral.scanUnsigned minus (natText n) = some (⟨minus, natText n, none, none⟩, []) := by
  have hdigits : Numeral.digits (natText n) = (natText n, []) := by
    have hall : ∀ c ∈ natText n, c.isDigit = true :=
      fun c hc => Nat.isDigit_of_mem_toDigits (by decide) (by decide) hc
    rw [Numeral.digits, List.takeWhile_eq_self_iff.2 hall, List.dropWhile_eq_nil_iff.2 hall]
  have hwhole : Numeral.scanWhole (natText n) = some (natText n, []) := by
    unfold Numeral.scanWhole
    rw [hdigits]
    split
    next heq => exact absurd (Prod.mk.inj heq).1 Nat.toDigits_ne_nil
    next heq =>
        have htext := (Prod.mk.inj heq).1
        cases Nat.eq_zero_or_pos n with
        | inl hzero =>
            subst hzero
            cases htext
        | inr hpos => exact absurd htext (natText_ne_zero_cons hpos _)
    next => rfl
  simp [Numeral.scanUnsigned, hwhole, Numeral.scanPlaces, Numeral.scanExponent]

lemma digitsValue_natText (n : Nat) : digitsValue (natText n) = n :=
  Nat.ofDigitChars_ten_toDigits

/-- Natural numbers of 64 bits are legible. -/
lemma legible_natural {n : Nat} (h : n < wordBound) : (Number.natural n).legible = true := by
  have hscan : Numeral.scan (natText n) = some (⟨false, natText n, none, none⟩, []) := by
    unfold Numeral.scan
    split
    next tail heq =>
        have hdigit : '-'.isDigit = true :=
          Nat.isDigit_of_mem_toDigits (by decide) (by decide)
            (show '-' ∈ natText n from heq ▸ List.mem_cons_self)
        cases hdigit
    next => exact scanUnsigned_natText false n
  refine decide_eq_true ?_
  simp [number, Number.text, hscan, Numeral.number?, digitsValue_natText, h]

/-- Negative integers of 64 bits are legible. -/
lemma legible_negative {n : Nat} (hpos : 0 < n) (h : n ≤ Nat.pow 2 63) :
    (Number.negative n).legible = true := by
  have hnumber : Numeral.number? ⟨true, natText n, none, none⟩ = some (.negative n) := by
    rw [Numeral.number?, if_pos ⟨rfl, rfl⟩]
    dsimp only
    rw [digitsValue_natText, if_neg (fun hnatural => nomatch hnatural.1), if_pos ⟨rfl, hpos, h⟩]
  refine decide_eq_true ?_
  simp [number, Number.text, Numeral.scan, scanUnsigned_natText, hnumber]

lemma cons_of_legible {n : Number} (h : n.legible = true) :
    ∃ c tail, n.text = c :: tail ∧ (c = '-' ∨ c.isDigit = true) := by
  have hself : number n.text = some (n, []) := of_decide_eq_true h
  simp only [number, Option.bind_eq_bind, Option.bind_eq_some_iff] at hself
  obtain ⟨⟨numeral, left⟩, hscan, -⟩ := hself
  exact Numeral.cons_of_scan hscan

/-! ## Texts -/

/-- A character is read back from what it is written as. -/
lemma textBody_escapeChar (c : Char) (rest : List Char) :
    textBody (escapeChar c ++ rest) = (textBody rest).map fun (s, rest) => (c :: s, rest) := by
  unfold escapeChar
  split
  next h => subst h; rfl
  next hquote =>
  split
  next h => subst h; rfl
  next hbackslash =>
  split
  next h => subst h; rfl
  next =>
  split
  next h => subst h; rfl
  next =>
  split
  next h => subst h; rfl
  next =>
  split
  next h => subst h; rfl
  next =>
  split
  next h => subst h; rfl
  next =>
  split
  next hcontrol =>
      have hhex : ∀ high < 2, ∀ low < 16,
          hexUnit? '0' '0' (hexDigit high) (hexDigit low) = some (high * 16 + low) := by decide
      have hunit := hhex (c.toNat / 16) (by omega) (c.toNat % 16) (by omega)
      rw [show c.toNat / 16 * 16 + c.toNat % 16 = c.toNat by omega] at hunit
      have htrailing : isTrailing c.toNat = false := by
        simp only [isTrailing, Bool.and_eq_false_iff, decide_eq_false_iff_not]
        omega
      have hleading : isLeading c.toNat = false := by
        simp only [isLeading, Bool.and_eq_false_iff, decide_eq_false_iff_not]
        omega
      simp [textBody, hunit, htrailing, hleading, Char.ofNat_toNat]
  next hplain =>
      rw [List.singleton_append, textBody]
      · rw [if_neg hplain]
      all_goals simp_all

lemma textBody_flatMap (cs rest : List Char) :
    textBody (cs.flatMap escapeChar ++ '"' :: rest) = some (cs, rest) := by
  induction cs with
  | nil => rfl
  | cons c cs ih =>
      rw [List.flatMap_cons, List.append_assoc, textBody_escapeChar, ih]
      rfl

lemma quotedText_quoted (s : String) (rest : List Char) :
    quotedText (quoted s ++ rest) = some (s, rest) := by
  simp only [quoted, List.cons_append, List.append_assoc, List.nil_append, quotedText,
    textBody_flatMap, Option.map_some, String.ofList_toList]

/-! ## Values -/

mutual

/-- Whether a value that may be nested to a given depth is read back from its text. -/
def legible : Nat → Json → Bool
  | _, .null | _, .bool _ | _, .str _ => true
  | _, .num n => n.legible
  | 0, .arr _ | 0, .obj _ => false
  | depth + 1, .arr items => legibleItems depth items
  | depth + 1, .obj fields => decide (Ascending fields) && legibleFields depth fields

/-- The same for the items of an array. -/
def legibleItems : Nat → List Json → Bool
  | _, [] => true
  | depth, v :: rest => legible depth v && legibleItems depth rest

/-- The same for the fields of an object. -/
def legibleFields : Nat → List (String × Json) → Bool
  | _, [] => true
  | depth, (_, v) :: rest => legible depth v && legibleFields depth rest

end

/-- The text of a value begins with none of the characters that the readers look for before a
value. -/
lemma cons_of_chars {depth : Nat} {v : Json} (h : v.legible depth = true) :
    ∃ c tail, v.chars = c :: tail ∧ isSpace c = false ∧ c ≠ ']' := by
  cases v with
  | null => exact ⟨_, _, rfl, rfl, by decide⟩
  | bool b => cases b <;> exact ⟨_, _, rfl, rfl, by decide⟩
  | str s => exact ⟨_, _, rfl, rfl, by decide⟩
  | num n =>
      have hn : n.legible = true := by rwa [legible] at h
      obtain ⟨c, tail, htext, hc⟩ := cons_of_legible hn
      refine ⟨c, tail, htext, ?_⟩
      rcases hc with rfl | hdigit
      · exact ⟨rfl, by decide⟩
      · constructor
        · cases hspace : isSpace c with
          | false => rfl
          | true =>
              simp only [isSpace, Bool.or_eq_true, beq_iff_eq] at hspace
              rcases hspace with ((rfl | rfl) | rfl) | rfl <;> cases hdigit
        · rintro rfl
          cases hdigit
  | arr items => cases items <;> exact ⟨_, _, rfl, rfl, by decide⟩
  | obj fields => cases fields <;> exact ⟨_, _, rfl, rfl, by decide⟩

lemma skipSpace_chars {depth : Nat} {v : Json} (h : v.legible depth = true) (rest : List Char) :
    skipSpace (v.chars ++ rest) = v.chars ++ rest := by
  obtain ⟨c, tail, hchars, hspace, -⟩ := cons_of_chars h
  rw [hchars, List.cons_append, skipSpace, List.dropWhile_cons_of_neg (by simp [hspace])]

/-- A number is read by the reader of values that hold no other. -/
lemma scalar_text {n : Number} (h : n.legible = true) {rest : List Char} (hrest : delimits rest) :
    scalar (n.text ++ rest) = some (.num n, rest) := by
  obtain ⟨c, tail, htext, hc⟩ := cons_of_legible h
  have hread := number_text h hrest
  rw [htext, List.cons_append] at hread ⊢
  rw [scalar]
  · rw [hread, Option.map_some]
  all_goals
    rintro _ heq
    obtain ⟨rfl, -⟩ := List.cons.inj heq
    rcases hc with hc | hc <;> cases hc

lemma value_of_ne {c : Char} (harray : c ≠ '[') (hobject : c ≠ '\x7b') (depth : Nat)
    (tail : List Char) : value depth (c :: tail) = scalar (c :: tail) := by
  cases depth with
  | zero => rfl
  | succ depth =>
      rw [value]
      · simp_all
      · simp_all

lemma delimits_itemChars (items : List Json) (rest : List Char) :
    delimits (itemChars items ++ rest) = true := by
  cases items <;> rfl

lemma length_itemChars (items : List Json) : items.length < (itemChars items).length := by
  induction items with
  | nil => exact Nat.one_pos
  | cons v items ih =>
      simp only [itemChars, List.length_cons, List.length_append]
      omega

lemma length_fieldChars (fields : List (String × Json)) :
    fields.length < (fieldChars fields).length := by
  induction fields with
  | nil => exact Nat.one_pos
  | cons f fields ih =>
      obtain ⟨k, v⟩ := f
      simp only [fieldChars, List.length_cons, List.length_append]
      omega

lemma skipSpace_comma (tail : List Char) : skipSpace (',' :: tail) = ',' :: tail := rfl

lemma skipSpace_quoted (k : String) (tail : List Char) :
    skipSpace (quoted k ++ tail) = quoted k ++ tail := rfl

/-- An array with items is read item by item. -/
lemma arrayBody_of_legible {depth : Nat} {v : Json} (h : v.legible depth = true)
    (read : Reader Json) (tail : List Char) :
    arrayBody read (v.chars ++ tail) =
      (items read (v.chars ++ tail).length (v.chars ++ tail)).map
        fun (vs, rest) => (.arr vs, rest) := by
  obtain ⟨c, rest, hchars, -, hbracket⟩ := cons_of_chars h
  unfold arrayBody
  rw [skipSpace_chars h, hchars, List.cons_append]
  split
  next heq => exact absurd (List.cons.inj heq).1 hbracket
  next => rfl

/-- An object with fields is read field by field. -/
lemma objectBody_quoted (k : String) (read : Reader Json) (tail : List Char) :
    objectBody read (quoted k ++ tail) =
      (fields read (quoted k ++ tail).length (quoted k ++ tail)).map
        fun (fs, rest) => (.record fs, rest) := rfl

section

variable {depth : Nat} {v : Json} (h : v.legible depth = true) {read : Reader Json}
  (fuel : Nat) (k : String)

include h

/-- The last field of an object. -/
lemma fields_last {rest : List Char}
    (hread : read (v.chars ++ '\x7d' :: rest) = some (v, '\x7d' :: rest)) :
    fields read (fuel + 1) (quoted k ++ (':' :: (v.chars ++ '\x7d' :: rest))) =
      some ([(k, v)], rest) := by
  have hcolon : ∀ tail, skipSpace (':' :: tail) = ':' :: tail := fun _ => rfl
  have hbrace : skipSpace ('\x7d' :: rest) = '\x7d' :: rest := rfl
  rw [fields, skipSpace_quoted, quotedText_quoted]
  simp only [hcolon, skipSpace_chars h, hread, hbrace]

/-- A field with others behind it. -/
lemma fields_more {tail : List Char}
    (hread : read (v.chars ++ ',' :: tail) = some (v, ',' :: tail)) :
    fields read (fuel + 1) (quoted k ++ (':' :: (v.chars ++ ',' :: tail))) =
      (fields read fuel tail).map fun (fs, rest) => ((k, v) :: fs, rest) := by
  have hcolon : ∀ tail, skipSpace (':' :: tail) = ':' :: tail := fun _ => rfl
  rw [fields, skipSpace_quoted, quotedText_quoted]
  simp only [hcolon, skipSpace_chars h, hread, skipSpace_comma]

end

mutual

/-- **A legible value is read back** in front of what delimits values. -/
theorem value_chars : ∀ (v : Json) (depth : Nat) {rest : List Char}, v.legible depth = true →
    delimits rest → value depth (v.chars ++ rest) = some (v, rest)
  | .null, depth, rest, _, _ => by
      rw [chars, List.cons_append, value_of_ne (by decide) (by decide)]
      rfl
  | .bool b, depth, rest, _, _ => by
      cases b <;> rw [chars, List.cons_append, value_of_ne (by decide) (by decide)] <;> rfl
  | .str s, depth, rest, _, _ => by
      have hread := quotedText_quoted s rest
      rw [chars, quoted, List.cons_append, List.cons_append,
        value_of_ne (by decide) (by decide), scalar]
      rw [quoted, List.cons_append, List.cons_append] at hread
      rw [hread, Option.map_some]
  | .num n, depth, rest, h, hrest => by
      have hn : n.legible = true := by rwa [legible] at h
      obtain ⟨c, tail, htext, hc⟩ := cons_of_legible hn
      have hread := scalar_text hn hrest
      rw [htext, List.cons_append] at hread
      rw [chars, htext, List.cons_append, value_of_ne, hread]
      · rintro rfl
        rcases hc with hc | hc <;> cases hc
      · rintro rfl
        rcases hc with hc | hc <;> cases hc
  | .arr [], 0, _, h, _ | .arr (_ :: _), 0, _, h, _ => by cases h
  | .obj [], 0, _, h, _ | .obj (_ :: _), 0, _, h, _ => by cases h
  | .arr [], depth + 1, rest, _, _ => rfl
  | .obj [], depth + 1, rest, _, _ => rfl
  | .arr (v :: vs), depth + 1, rest, h, _ => by
      simp only [legible, legibleItems, Bool.and_eq_true] at h
      obtain ⟨hv, hvs⟩ := h
      -- the text of the items is longer than they are many, so the readers do not stop early
      have hlong : vs.length < (v.chars ++ (itemChars vs ++ rest)).length := by
        have hitems := length_itemChars vs
        simp only [List.length_append]
        omega
      obtain ⟨more, hfuel⟩ := Nat.exists_eq_add_of_lt hlong
      have hread := items_chars vs depth _ rest hvs (Nat.le_add_right _ more) v hv
        fun tail => value_chars v depth hv
      rw [chars, List.cons_append, List.cons_append, value, List.append_assoc,
        arrayBody_of_legible hv, hfuel, hread, Option.map_some]
  | .obj ((k, v) :: fs), depth + 1, rest, h, _ => by
      simp only [legible, legibleFields, Bool.and_eq_true, decide_eq_true_eq] at h
      obtain ⟨hasc, hv, hfs⟩ := h
      have hlong : fs.length <
          (quoted k ++ (':' :: (v.chars ++ (fieldChars fs ++ rest)))).length := by
        have hfields := length_fieldChars fs
        simp only [List.length_append, List.length_cons]
        omega
      obtain ⟨more, hfuel⟩ := Nat.exists_eq_add_of_lt hlong
      have hread := fields_chars fs depth _ rest hfs (Nat.le_add_right _ more) k v hv
        fun tail => value_chars v depth hv
      have hrecord : record ((k, v) :: fs) = .obj ((k, v) :: fs) :=
        congrArg (fun d : Object => Json.ofObject d) (Dict.ofList_entries ⟨_, hasc⟩)
      rw [chars]
      simp only [List.cons_append, List.append_assoc]
      rw [value, objectBody_quoted, hfuel, hread, Option.map_some, ← hrecord]

/-- The items of an array behind its first one. -/
theorem items_chars : ∀ (vs : List Json) (depth fuel : Nat) (rest : List Char),
    legibleItems depth vs = true → vs.length ≤ fuel →
    ∀ v : Json, v.legible depth = true →
      (∀ tail, delimits tail → value depth (v.chars ++ tail) = some (v, tail)) →
      items (value depth) (fuel + 1) (v.chars ++ (itemChars vs ++ rest)) = some (v :: vs, rest)
  | [], depth, fuel, rest, _, _, v, hv, hread => by
      rw [items, skipSpace_chars hv, hread _ (delimits_itemChars [] rest)]
      rfl
  | w :: ws, depth, 0, rest, _, hfuel, _, _, _ => by cases hfuel
  | w :: ws, depth, fuel + 1, rest, h, hfuel, v, hv, hread => by
      simp only [legibleItems, Bool.and_eq_true] at h
      have hrest := items_chars ws depth fuel rest h.2 (Nat.le_of_succ_le_succ hfuel) w h.1
        fun tail => value_chars w depth h.1
      rw [items, skipSpace_chars hv, hread _ (delimits_itemChars (w :: ws) rest)]
      rw [itemChars, List.cons_append, List.cons_append, List.append_assoc]
      simp only [skipSpace_comma, hrest, Option.map_some]

/-- The fields of an object behind its first one. -/
theorem fields_chars : ∀ (fs : List (String × Json)) (depth fuel : Nat) (rest : List Char),
    legibleFields depth fs = true → fs.length ≤ fuel →
    ∀ (k : String) (v : Json), v.legible depth = true →
      (∀ tail, delimits tail → value depth (v.chars ++ tail) = some (v, tail)) →
      fields (value depth) (fuel + 1) (quoted k ++ (':' :: (v.chars ++ (fieldChars fs ++ rest)))) =
        some ((k, v) :: fs, rest)
  | [], depth, fuel, rest, _, _, k, v, hv, hread => by
      exact fields_last hv fuel k (hread _ rfl)
  | w :: ws, depth, 0, rest, _, hfuel, _, _, _, _ => by cases hfuel
  | (l, w) :: ws, depth, fuel + 1, rest, h, hfuel, k, v, hv, hread => by
      simp only [legibleFields, Bool.and_eq_true] at h
      have hrest := fields_chars ws depth fuel rest h.2 (Nat.le_of_succ_le_succ hfuel) l w h.1
        fun tail => value_chars w depth h.1
      rw [fieldChars]
      simp only [List.cons_append, List.append_assoc]
      rw [fields_more hv (fuel + 1) k (hread _ rfl), hrest, Option.map_some]

end

/-- **What is printed is read back.** -/
theorem parse_compact {v : Json} (h : v.legible maxDepth = true) : parse v.compact = some v := by
  have hread := @value_chars v maxDepth [] h rfl
  rw [List.append_nil] at hread
  have hspace := skipSpace_chars h []
  rw [List.append_nil] at hspace
  rw [parse, parseWithin, compact, String.toList_ofList, hspace, hread]
  rfl

end Json

end FormChart
