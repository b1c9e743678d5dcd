/-
  Scalars that survive — texts and numbers that are read back as they were written.

  * `escapeChar_cases`: a character is written as a reference to it, or as itself;
  * `unescape?_escape`: the references written for special characters are replaced again;
  * `coerce_integer`: a whole number of sixty-four bits with a sign is read as itself;
  * `coerce_plain`: so is every scalar of the class `isScalar`, but for the empty string, which
    is an element without content.
-/
import SessionGateway.Proofs.Text.Cutting
import SessionGateway.Xml.Writing

namespace SessionGateway.Xml

/-! ## References -/

theorem unescape?_cons_of_ne {c : Char} (h : c ≠ '&') (t : Text) :
    unescape? (c :: t) = (unescape? t).map (c :: ·) := by
  rw [unescape?, if_neg h]

/-- A text without references stays as it is. -/
theorem unescape?_eq_self {t : Text} (h : '&' ∉ t) : unescape? t = some t := by
  induction t with
  | nil => simp [unescape?]
  | cons c t ih =>
    rw [List.mem_cons, not_or] at h
    rw [unescape?_cons_of_ne (Ne.symm h.1), ih h.2, Option.map_some]

theorem unescape?_reference {name : Text} {x : Char} (h : ';' ∉ name)
    (hr : reference? name = some x) (t : Text) :
    unescape? ('&' :: (name ++ ';' :: t)) = (unescape? t).map (x :: ·) := by
  rw [unescape?, if_pos rfl]
  split
  · next heq =>
    rw [cut?_append_cons h] at heq
    cases heq
    rw [hr, Option.bind_some]
  · next heq =>
    rw [cut?_append_cons h] at heq
    cases heq

/-- A character is written as a reference to it, or as itself. -/
theorem escapeChar_cases (c : Char) :
    (∃ name, ';' ∉ name ∧ '<' ∉ name ∧ reference? name = some c ∧
      escapeChar c = '&' :: (name ++ [';'])) ∨
    (c ≠ '&' ∧ c ≠ '<' ∧ escapeChar c = [c]) := by
  unfold escapeChar
  split
  · next h => subst h; exact .inl ⟨"lt".toList, by decide, by decide, rfl, rfl⟩
  split
  · next h => subst h; exact .inl ⟨"gt".toList, by decide, by decide, rfl, rfl⟩
  split
  · next h => subst h; exact .inl ⟨"amp".toList, by decide, by decide, rfl, rfl⟩
  split
  · next h => subst h; exact .inl ⟨"apos".toList, by decide, by decide, rfl, rfl⟩
  split
  · next h => subst h; exact .inl ⟨"quot".toList, by decide, by decide, rfl, rfl⟩
  · next hlt _ hamp _ _ => exact .inr ⟨hamp, hlt, rfl⟩

theorem unescape?_escapeChar (c : Char) (t : Text) :
    unescape? (escapeChar c ++ t) = (unescape? t).map (c :: ·) := by
  rcases escapeChar_cases c with ⟨name, hn, -, hr, he⟩ | ⟨hamp, -, he⟩ <;> rw [he]
  · simpa using unescape?_reference hn hr t
  · exact unescape?_cons_of_ne hamp t

/-- **Escaping is undone by replacing references.** -/
theorem unescape?_escape (t : Text) : unescape? (escape t) = some t := by
  induction t with
  | nil => simp [escape, unescape?]
  | cons c t ih =>
    rw [escape, List.flatMap_cons, unescape?_escapeChar, ← escape, ih]
    rfl

theorem lt_notMem_escape (t : Text) : '<' ∉ escape t := by
  intro h
  obtain ⟨c, -, hc⟩ := List.mem_flatMap.1 h
  rcases escapeChar_cases c with ⟨name, -, hn, -, he⟩ | ⟨-, hlt, he⟩ <;> rw [he] at hc
  · simp [hn] at hc
  · exact hlt (List.mem_singleton.1 hc).symm

/-! ## Ends of a text -/

/-- Whether a text has no white space at either end. -/
def isFlush (t : Text) : Bool :=
  t.head?.all (!Text.isSpace ·) && t.getLast?.all (!Text.isSpace ·)

theorem trimBy_eq_self {t : Text} (h : isFlush t = true) : trimBy Text.isSpace t = t := by
  simp only [isFlush, Bool.and_eq_true] at h
  exact trimBy_of_ends h.1 h.2

/-- What a character is written as begins and ends with the character or with no white space. -/
theorem escapeChar_ends (c : Char) :
    (∃ x t, escapeChar c = x :: t ∧ (x = '&' ∨ x = c)) ∧
      ∃ x t, escapeChar c = t ++ [x] ∧ (x = ';' ∨ x = c) := by
  rcases escapeChar_cases c with ⟨name, -, -, -, he⟩ | ⟨-, -, he⟩ <;> rw [he]
  · exact ⟨⟨'&', _, rfl, .inl rfl⟩, ⟨';', '&' :: name, rfl, .inl rfl⟩⟩
  · exact ⟨⟨c, [], rfl, .inr rfl⟩, ⟨c, [], rfl, .inr rfl⟩⟩

/-- Escaping leaves the ends of a text free of white space. -/
theorem isFlush_escape {t : Text} (h : isFlush t = true) : isFlush (escape t) = true := by
  simp only [isFlush, Bool.and_eq_true] at h ⊢
  constructor
  · cases t with
    | nil => rfl
    | cons c t =>
      obtain ⟨x, u, he, hx⟩ := (escapeChar_ends c).1
      rw [escape, List.flatMap_cons, he]
      rcases hx with rfl | rfl
      · rfl
      · exact h.1
  · rcases List.eq_nil_or_concat t with rfl | ⟨t, c, rfl⟩
    · rfl
    · obtain ⟨x, u, he, hx⟩ := (escapeChar_ends c).2
      rw [escape, List.concat_eq_append, List.flatMap_append, List.flatMap_singleton, he,
        ← List.append_assoc, List.getLast?_concat]
      rcases hx with rfl | rfl
      · rfl
      · simpa using h.2

theorem escape_ne_nil {t : Text} (h : t ≠ []) : escape t ≠ [] := by
  cases t with
  | nil => exact absurd rfl h
  | cons c t =>
    obtain ⟨x, u, he, -⟩ := (escapeChar_ends c).1
    rw [escape, List.flatMap_cons, he]
    exact List.cons_ne_nil _ _

/-! ## Values of texts -/

theorem coerce_eq_string {t u : Text} (h : coerce t = .string u) : u = t := by
  unfold coerce at h
  split at h
  · cases h
  split at h
  · cases h
  split at h
  · cases h
  split at h
  · cases h
  · cases h; rfl

/-- A numeral begins with a minus sign or a digit. -/
theorem integer_eq_cons (i : Int) :
    ∃ c t, Numeral.integer i = c :: t ∧ (c = '-' ∨ ∃ d : Fin 10, c = Numeral.digit d) := by
  obtain ⟨d, t, hd, he, -⟩ := Numeral.decimal_eq_cons i.natAbs
  unfold Numeral.integer
  split
  · exact ⟨'-', _, rfl, .inl rfl⟩
  · exact ⟨_, t, he, .inr ⟨⟨d, hd⟩, rfl⟩⟩

/-- A numeral is none of the words for the other scalars. -/
theorem sameLetters_integer (i : Int) {word : Text} {w : Char} (hw : word.lower.head? = some w)
    (hm : w ≠ '-') (hd : ∀ d : Fin 10, w ≠ (Numeral.digit d).toLower) :
    Text.sameLetters (Numeral.integer i) word = false := by
  obtain ⟨c, t, he, hc⟩ := integer_eq_cons i
  rw [Text.sameLetters, he, beq_eq_false_iff_ne]
  intro h
  have hcw : c.toLower = w := by
    rw [← h] at hw
    exact Option.some.inj hw
  rcases hc with rfl | ⟨d, rfl⟩
  · exact hm hcw.symm
  · exact hd d hcw.symm

theorem looksNumeric_integer (i : Int) : looksNumeric (Numeral.integer i) = true := by
  obtain ⟨d, t, hd, he, hz⟩ := Numeral.decimal_eq_cons i.natAbs
  have hstart : (dropStart? ['-'] (Numeral.integer i)).getD (Numeral.integer i) =
      Numeral.decimal i.natAbs := by
    unfold Numeral.integer
    split
    · rfl
    · have hm : ∀ d : Fin 10, '-' ≠ Numeral.digit d := by decide
      rw [he, dropStart?, if_neg (hm ⟨d, hd⟩)]
      rfl
  rw [looksNumeric, hstart]
  by_cases h0 : d = 0
  · rw [hz h0, Numeral.decimal, if_pos (by decide)]
    decide
  · have hnz : ∀ d : Fin 10, d ≠ 0 → Numeral.digit d ≠ '0' ∧ (Numeral.digit d).isDigit := by decide
    obtain ⟨hne, hdigit⟩ := hnz ⟨d, hd⟩ (by simpa [Fin.ext_iff] using h0)
    rw [he]
    split
    · next heq => exact absurd (List.cons.inj heq).1 hne
    · next heq => rw [← (List.cons.inj heq).1]; exact hdigit
    · next heq => cases heq

/-- A numeral is read as a number. -/
theorem coerce_integer_of_number? {i : Int} {n : Json.Number}
    (h : number? (Numeral.integer i) = some n) : coerce (Numeral.integer i) = .number n := by
  have htrue : Text.sameLetters (Numeral.integer i) "true".toList = false :=
    sameLetters_integer i rfl (by decide) (by decide)
  have hfalse : Text.sameLetters (Numeral.integer i) "false".toList = false :=
    sameLetters_integer i rfl (by decide) (by decide)
  have hnull : Text.sameLetters (Numeral.integer i) "null".toList = false :=
    sameLetters_integer i rfl (by decide) (by decide)
  rw [coerce, htrue, hfalse, hnull, h]
  rfl

/-- **A whole number of sixty-four bits is read as itself.** -/
theorem coerce_integer {i : Int} (h : Numeral.fitsSigned64 i = true) :
    coerce (Numeral.integer i) = .number (.whole i) := by
  refine coerce_integer_of_number? ?_
  rw [number?, if_pos (looksNumeric_integer i), Numeral.signed?_integer, Option.filter_some,
    if_pos h]

/-! ## Scalars -/

/-- Whether a value is a string. -/
def isString : Json → Bool
  | .string _ => true
  | _ => false

/-- Whether a value is a scalar that its text stands for: null, a boolean, a whole number of
    sixty-four bits with a sign, or a string that is empty, or that has no white space at its ends
    and does not look like another scalar. -/
def isScalar : Json → Bool
  | .null | .bool _ => true
  | .number (.whole i) => Numeral.fitsSigned64 i
  | .string t => t.isEmpty || (isFlush t && isString (coerce t))
  | _ => false

theorem isFlush_of_all {t : Text} (h : ∀ c ∈ t, Text.isSpace c = false) : isFlush t = true := by
  have hh : ∀ x : Option Char, (∀ c ∈ x, c ∈ t) → x.all (!Text.isSpace ·) = true := by
    rintro (_ | c) hx
    · rfl
    · simp [h c (hx c rfl)]
  rw [isFlush, hh _ fun c => List.mem_of_mem_head?, hh _ fun c => List.mem_of_mem_getLast?]
  rfl

theorem isFlush_integer (i : Int) : isFlush (Numeral.integer i) = true := by
  have hd : ∀ d : Fin 10, Text.isSpace (Numeral.digit d) = false := by decide
  have hdec : ∀ c ∈ Numeral.decimal i.natAbs, Text.isSpace c = false := by
    intro c hc
    obtain ⟨d, rfl⟩ := Numeral.mem_decimal hc
    exact hd d
  refine isFlush_of_all fun c hc => ?_
  unfold Numeral.integer at hc
  split at hc
  · rcases List.mem_cons.1 hc with rfl | hc
    · rfl
    · exact hdec c hc
  · exact hdec c hc

/-- The empty string is the only scalar without a text. -/
theorem eq_empty_of_plain {v : Json} (h : isScalar v = true) (he : v.plain = []) :
    v = .string [] := by
  cases v with
  | null => cases he
  | bool b => cases b <;> cases he
  | number n =>
    cases n with
    | whole i =>
      obtain ⟨c, t, hi, -⟩ := integer_eq_cons i
      exact absurd (hi.symm.trans he) (List.cons_ne_nil c t)
    | float x => cases h
  | string t => exact congrArg Json.string he
  | array items => cases h
  | object members => cases h

/-- **A scalar is what its text stands for**, and the text has no white space at its ends. -/
theorem coerce_plain {v : Json} (h : isScalar v = true) (hne : v.plain ≠ []) :
    coerce v.plain = v ∧ isFlush v.plain = true := by
  cases v with
  | null => exact ⟨rfl, rfl⟩
  | bool b => cases b <;> exact ⟨rfl, rfl⟩
  | number n =>
    cases n with
    | whole i => exact ⟨coerce_integer h, isFlush_integer i⟩
    | float x => cases h
  | string t =>
    have ht : (t.isEmpty || (isFlush t && isString (coerce t))) = true := h
    have hempty : t.isEmpty = false := List.isEmpty_eq_false_iff.2 hne
    rw [hempty, Bool.false_or, Bool.and_eq_true] at ht
    refine ⟨?_, ht.1⟩
    show coerce t = .string t
    cases hc : coerce t with
    | string u => rw [coerce_eq_string hc]
    | _ => rw [hc] at ht; cases ht.2
  | array items => cases h
  | object members => cases h

end SessionGateway.Xml
