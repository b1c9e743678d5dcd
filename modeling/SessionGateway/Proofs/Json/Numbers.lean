/-
  Numbers in a text — a number that is read to the end is read before a delimiter too.

  What a reader of digits, a fraction or an exponent leaves is an end of its text, and a delimiter
  behind the text stays there.  So a number that is read back from its own text is read back
  wherever it stands in a larger one.

  * `takes_number`: what stands behind a number is left, if no number goes on in it;
  * `isNumeric_of_mem_text`: the characters that numbers are written in;
  * `readsBack_of_parse?`: a number that is the value of its own text is read back;
  * `Proper.legible`: a value that does not nest too deep can be read back if its floats are.
-/
import SessionGateway.Json.Parser
import SessionGateway.Proofs.Json.Tokens
import SessionGateway.Proofs.Text.Utf8

namespace SessionGateway.Json

open Numeral

/-! ## Reading a part of a number -/

/-- A reader takes `u` off the front of a text, and of any text that goes on without a number. -/
def Takes {α : Type} (read : Text → Option (α × Text)) (t : Text) (a : α) (rest : Text) : Prop :=
  rest <:+ t ∧ ∀ more, Breaks more → read (t ++ more) = some (a, rest ++ more)

variable {t rest more : Text}

/-- Digits end where they ended, before a text in which no number goes on. -/
theorem leading_append_of_breaks (hm : Breaks more) (t : Text) :
    leading (t ++ more) = ((leading t).1, (leading t).2 ++ more) := by
  induction t with
  | nil => exact leading_append nofun hm
  | cons c t ih =>
    simp only [leading, List.cons_append, List.takeWhile_cons, List.dropWhile_cons] at ih ⊢
    cases c.isDigit with
    | false => rfl
    | true =>
      obtain ⟨htake, hdrop⟩ := Prod.mk.inj ih
      simp only [if_true, htake, hdrop]

theorem leading_suffix (t : Text) : (leading t).2 <:+ t := List.dropWhile_suffix _

theorem readWhole?_eq_some_iff {ds : Text} :
    readWhole? t = some (ds, rest) ↔
      leading t = (ds, rest) ∧ ds ≠ [] ∧ ∀ d u, ds ≠ '0' :: d :: u := by
  unfold readWhole?
  rcases leading t with ⟨ds', left⟩
  constructor
  · intro h
    split at h
    · cases h
    · cases h
    · next hnil hzero =>
      cases h
      exact ⟨rfl, fun he => hnil rest (by rw [he]), fun d u he => hzero d u rest (by rw [he])⟩
  · rintro ⟨he, hnil, hzero⟩
    cases he
    split
    · next he => exact absurd (Prod.mk.inj he).1 hnil
    · next he => exact absurd (Prod.mk.inj he).1 (hzero _ _)
    · rfl

theorem takes_whole {ds : Text} (h : readWhole? t = some (ds, rest)) :
    Takes readWhole? t ds rest := by
  obtain ⟨hl, hds⟩ := readWhole?_eq_some_iff.1 h
  have hleft := leading_suffix t
  rw [hl] at hleft
  refine ⟨hleft, fun more hm => readWhole?_eq_some_iff.2 ⟨?_, hds⟩⟩
  rw [leading_append_of_breaks hm, hl]

theorem takes_fraction {fraction : Option Text} (h : readFraction? t = some (fraction, rest)) :
    Takes readFraction? t fraction rest := by
  cases t with
  | nil =>
    cases h
    exact ⟨List.suffix_rfl, fun more hm => readFraction?_breaks hm⟩
  | cons c t =>
    by_cases hc : c = '.'
    · subst hc
      have hleft := leading_suffix t
      simp only [readFraction?] at h
      rcases hl : leading t with ⟨_ | ⟨d, ds⟩, left⟩ <;> simp only [hl] at h
      · cases h
      · cases h
        rw [hl] at hleft
        refine ⟨hleft.trans (List.suffix_cons _ _), fun more hm => ?_⟩
        simp only [List.cons_append, readFraction?, leading_append_of_breaks hm, hl]
    · have hplain : ∀ u, readFraction? (c :: u) = some (none, c :: u) := by
        intro u
        unfold readFraction?
        split
        · next he => exact absurd (List.cons.inj he).1 hc
        · rfl
      cases (hplain t).symm.trans h
      exact ⟨List.suffix_rfl, fun more hm => hplain (t ++ more)⟩

theorem sign_suffix (t : Text) : (sign t).2 <:+ t := by
  unfold sign
  split
  · exact List.suffix_cons _ _
  · exact List.suffix_cons _ _
  · exact List.suffix_rfl

/-- A sign stays one before any text that follows the digits behind it. -/
theorem sign_append {down : Bool} {u : Text} (h : sign t = (down, u)) (hu : (leading u).1 ≠ [])
    (more : Text) : sign (t ++ more) = (down, u ++ more) := by
  cases t with
  | nil =>
    cases h
    exact absurd rfl hu
  | cons c t =>
    unfold sign at h ⊢
    split at h
    · next he => cases h; cases he; rfl
    · next he => cases h; cases he; rfl
    · next hminus hplus =>
      cases h
      split
      · next he => exact absurd (congrArg (· :: t) (List.cons.inj he).1) (hminus t)
      · next he => exact absurd (congrArg (· :: t) (List.cons.inj he).1) (hplus t)
      · rfl

theorem takes_exponent {e : Option (Bool × Text)} (h : exponent? t = some (e, rest)) :
    Takes exponent? t e rest := by
  cases t with
  | nil =>
    cases h
    exact ⟨List.suffix_rfl, fun more hm => exponent?_breaks hm⟩
  | cons c t =>
    rw [exponent?] at h
    by_cases hc : c = 'e' ∨ c = 'E'
    · rw [if_pos hc] at h
      have hsign := sign_suffix t
      rcases hs : sign t with ⟨down, u⟩
      have hleft := leading_suffix u
      rw [hs] at h hsign
      rcases hl : leading u with ⟨_ | ⟨d, ds⟩, left⟩ <;> simp only [hl] at h
      · cases h
      · cases h
        rw [hl] at hleft
        refine ⟨(hleft.trans hsign).trans (List.suffix_cons c t), fun more hm => ?_⟩
        have hs' : sign (t ++ more) = (down, u ++ more) :=
          sign_append hs (by rw [hl]; exact List.cons_ne_nil d ds) more
        have hl' : leading (u ++ more) = (d :: ds, rest ++ more) := by
          rw [leading_append_of_breaks hm, hl]
        rw [List.cons_append, exponent?, if_pos hc]
        simp only [hs', hl']
    · rw [if_neg hc] at h
      cases h
      refine ⟨List.suffix_rfl, fun more _ => ?_⟩
      rw [List.cons_append, exponent?, if_neg hc]

/-- **What stands behind a number is left**, if no number goes on in it. -/
theorem takes_number {negative : Bool} {n : Number} (h : readNumber? negative t = some (n, rest)) :
    Takes (readNumber? negative) t n rest := by
  simp only [readNumber?, Option.bind_eq_bind, Option.bind_eq_some_iff, Prod.exists] at h
  obtain ⟨whole, u, hwhole, fraction, v, hfraction, exponent, w, hexponent, n', hn, he⟩ := h
  cases he
  obtain ⟨hu, hwhole⟩ := takes_whole hwhole
  obtain ⟨hv, hfraction⟩ := takes_fraction hfraction
  obtain ⟨hw, hexponent⟩ := takes_exponent hexponent
  refine ⟨(hw.trans hv).trans hu, fun more hm => ?_⟩
  simp only [readNumber?, Option.bind_eq_bind, hwhole more hm, hfraction more hm,
    hexponent more hm, hn, Option.bind_some]

/-! ## Texts of numbers -/

/-- The characters that numbers are written in. -/
def isNumeric (c : Char) : Bool := c.isDigit || "+-.e".toList.contains c

theorem isNumeric_of_isDigit {c : Char} (h : c.isDigit = true) : isNumeric c = true := by
  rw [isNumeric, h, Bool.true_or]

theorem isNumeric_of_mem_decimal {n : Nat} : ∀ c ∈ decimal n, isNumeric c = true :=
  fun _ hc => isNumeric_of_isDigit (isDigit_of_mem_decimal hc)

theorem isNumeric_of_mem_positional {ds : Text} (h : ∀ c ∈ ds, isNumeric c = true) (lead : Int) :
    ∀ c ∈ Decimal.positional ds lead, isNumeric c = true := by
  have hzeros : ∀ n, ∀ c ∈ List.replicate n '0', isNumeric c = true := by
    intro n c hc
    rw [List.eq_of_mem_replicate hc]
    decide
  have hmarks : isNumeric '0' = true ∧ isNumeric '.' = true := by decide
  unfold Decimal.positional
  split
  · simp only [List.forall_mem_cons, List.forall_mem_append]
    exact ⟨hmarks.1, hmarks.2, hzeros _, h⟩
  · dsimp only
    split
    · simp only [List.forall_mem_append, List.forall_mem_cons]
      exact ⟨⟨h, hzeros _⟩, hmarks.2, hmarks.1, nofun⟩
    · simp only [List.forall_mem_append, List.forall_mem_cons]
      exact ⟨fun c hc => h c (List.mem_of_mem_take hc), hmarks.2,
        fun c hc => h c (List.mem_of_mem_drop hc)⟩

theorem isNumeric_of_mem_scientific {ds : Text} (h : ∀ c ∈ ds, isNumeric c = true) (lead : Int) :
    ∀ c ∈ Decimal.scientific ds lead, isNumeric c = true := by
  have hmarks : isNumeric '.' = true ∧ isNumeric 'e' = true ∧ isNumeric '-' = true ∧
      isNumeric '+' = true := by
    decide
  obtain ⟨hpoint, hletter, hminus, hplus⟩ := hmarks
  unfold Decimal.scientific
  simp only [List.forall_mem_append, List.forall_mem_cons]
  refine ⟨⟨fun c hc => h c (List.mem_of_mem_take hc), ?_⟩, hletter, ?_, isNumeric_of_mem_decimal⟩
  · split
    · exact nofun
    · exact List.forall_mem_cons.2 ⟨hpoint, fun c hc => h c (List.mem_of_mem_drop hc)⟩
  · split
    · exact hminus
    · exact hplus

/-- **A number is written in digits**, signs, points and the letter of an exponent. -/
theorem isNumeric_of_mem_text (n : Number) : ∀ c ∈ n.text, isNumeric c = true := by
  have hminus : isNumeric '-' = true := by decide
  cases n with
  | whole i =>
    rw [Number.text, integer]
    split
    · exact List.forall_mem_cons.2 ⟨hminus, isNumeric_of_mem_decimal⟩
    · exact isNumeric_of_mem_decimal
  | float x =>
    have hbody : ∀ (p : Prop) [Decidable p] (d lead), ∀ c ∈ (if p then
        Decimal.positional (decimal d) lead else Decimal.scientific (decimal d) lead),
        isNumeric c = true := by
      intro p _ d lead
      split
      · exact isNumeric_of_mem_positional isNumeric_of_mem_decimal lead
      · exact isNumeric_of_mem_scientific isNumeric_of_mem_decimal lead
    rw [Number.text, Decimal.Layout.write]
    split
    · exact List.forall_mem_cons.2 ⟨hminus, hbody _ _ _⟩
    · exact hbody _ _ _

theorem lt_of_isNumeric {c : Char} (h : isNumeric c = true) : c.toNat < 128 := by
  rw [isNumeric, Bool.or_eq_true, List.contains_iff_mem] at h
  rcases h with h | h
  · have hrange := Bool.and_eq_true_iff.1 h
    simp only [decide_eq_true_eq, UInt32.le_iff_toNat_le, ge_iff_le] at hrange
    show c.val.toNat < 128
    exact Nat.lt_of_le_of_lt hrange.2 (by decide)
  · have hm : ∀ c ∈ "+-.e".toList, c.toNat < 128 := by decide
    exact hm c h

/-- A character of a number begins no token but a number. -/
theorem leads_of_isNumeric {c : Char} (h : isNumeric c = true) :
    Text.isSpace c = false ∧ mark? c = none ∧ c ≠ '\x22' ∧
      (c = '-' ∨ c.isDigit = true ∨ c ≠ 'n' ∧ c ≠ 't' ∧ c ≠ 'f') := by
  have hd : ∀ n : Fin 128, isNumeric (Char.ofNat n.val) = true →
      Text.isSpace (Char.ofNat n.val) = false ∧ (mark? (Char.ofNat n.val)).isNone = true ∧
        Char.ofNat n.val ≠ '\x22' ∧ (Char.ofNat n.val = '-' ∨ (Char.ofNat n.val).isDigit = true ∨
          Char.ofNat n.val ≠ 'n' ∧ Char.ofNat n.val ≠ 't' ∧ Char.ofNat n.val ≠ 'f') := by
    decide +kernel
  have hc := hd ⟨c.toNat, lt_of_isNumeric h⟩
  simp only [Char.ofNat_toNat] at hc
  obtain ⟨hspace, hmark, hquote, hlead⟩ := hc h
  exact ⟨hspace, Option.isNone_iff_eq_none.1 hmark, hquote, hlead⟩

/-! ## Reading back -/

/-- A token that begins like a number is a number, and ends before a delimiter as it ends alone. -/
theorem takes_token {c : Char} (hc : isNumeric c = true) {k : Token}
    (h : readToken? c t = some (k, rest)) :
    (∃ n, k = .scalar (.number n)) ∧ rest <:+ c :: t ∧
      ∀ more, Breaks more → readToken? c (t ++ more) = some (k, rest ++ more) := by
  obtain ⟨-, hmark, hquote, hlead⟩ := leads_of_isNumeric hc
  simp only [readToken?, hmark, if_neg hquote] at h ⊢
  by_cases hminus : c = '-'
  · rw [if_pos hminus] at h
    obtain ⟨⟨n, rest'⟩, hn, he⟩ := Option.map_eq_some_iff.1 h
    cases he
    obtain ⟨hsuffix, hread⟩ := takes_number hn
    refine ⟨⟨n, rfl⟩, hsuffix.trans (List.suffix_cons c t), fun more hm => ?_⟩
    rw [if_pos hminus, hread more hm, Option.map_some]
  by_cases hdigit : c.isDigit = true
  · rw [if_neg hminus, if_pos hdigit] at h
    obtain ⟨⟨n, rest'⟩, hn, he⟩ := Option.map_eq_some_iff.1 h
    cases he
    obtain ⟨hsuffix, hread⟩ := takes_number hn
    refine ⟨⟨n, rfl⟩, hsuffix, fun more hm => ?_⟩
    rw [if_neg hminus, if_pos hdigit, ← List.cons_append, hread more hm, Option.map_some]
  · -- no word begins with such a character
    obtain ⟨hn, ht, hf⟩ := (hlead.resolve_left hminus).resolve_left hdigit
    have hnone : readWord? (c :: t) = none := by
      simp [readWord?, words, dropStart?, Ne.symm hn, Ne.symm ht, Ne.symm hf]
    rw [if_neg hminus, if_neg hdigit, hnone] at h
    cases h

/-- Tokens that are read stand behind those that were read before. -/
theorem tokensOnto_append {done ks : List Token} {fuel : Nat}
    (h : tokensOnto done fuel t = some ks) : ∃ js, ks = done.reverse ++ js := by
  induction fuel generalizing done t with
  | zero =>
    cases t with
    | nil => exact ⟨[], by simpa [tokensOnto] using h.symm⟩
    | cons c t => cases h
  | succ fuel ih =>
    cases t with
    | nil => exact ⟨[], by simpa [tokensOnto] using h.symm⟩
    | cons c t =>
      rw [tokensOnto] at h
      split at h
      · exact ih h
      · split at h
        · next k rest _ =>
          obtain ⟨js, rfl⟩ := ih h
          exact ⟨k :: js, by simp⟩
        · cases h

/-- No value is a scalar with a token behind it. -/
theorem ofTokens?_scalar_cons (v : Json) (k : Token) (ks : List Token) :
    ofTokens? (.scalar v :: k :: ks) = none := by
  cases k <;> rfl

/-- A character of a number that is left behind a scalar begins a second token, and no value has
    two. -/
theorem ofTokens?_of_left {v : Json} {d : Char} (hd : isNumeric d = true) {fuel : Nat}
    {ks : List Token} (h : tokensOnto [.scalar v] fuel (d :: rest) = some ks) :
    ofTokens? ks = none := by
  obtain ⟨hspace, -⟩ := leads_of_isNumeric hd
  cases fuel with
  | zero => cases h
  | succ fuel =>
    rw [tokensOnto, if_neg (by simp [hspace])] at h
    split at h
    · next k rest' _ =>
      obtain ⟨js, rfl⟩ := tokensOnto_append h
      exact ofTokens?_scalar_cons v k js
    · cases h

/-- **A number that is the value of its own text is read back**, before any delimiter. -/
theorem readsBack_of_parse? {n : Number} (h : parse? n.text = some (.number n)) : n.ReadsBack := by
  obtain ⟨ks, hks, hn⟩ := Option.bind_eq_some_iff.1 h
  intro more hm
  have hnumeric := isNumeric_of_mem_text n
  generalize n.text = t at hks hnumeric
  cases t with
  | nil =>
    cases hks
    cases hn
  | cons c t =>
    have hc := hnumeric c List.mem_cons_self
    obtain ⟨hspace, -⟩ := leads_of_isNumeric hc
    rw [tokens?, List.length_cons, tokensOnto, if_neg (by simp [hspace])] at hks
    split at hks
    · next k rest hk =>
      obtain ⟨⟨m, rfl⟩, hsuffix, hread⟩ := takes_token hc hk
      have hread := hread more hm
      cases rest with
      | nil =>
        have hk : ks = [.scalar (.number m)] := by
          cases ht : t.length <;> rw [ht] at hks <;> exact (Option.some.inj hks).symm
        rw [hk] at hn
        cases hn
        exact Lexes.token hspace hread
      | cons d rest =>
        have hd := hnumeric d (hsuffix.subset List.mem_cons_self)
        rw [ofTokens?_of_left hd hks] at hn
        cases hn
    · cases hks

/-! ## Values that can be read back -/

/-- Whether a value is the given number. -/
def isNumber (n : Number) : Json → Bool
  | .number m => m == n
  | _ => false

theorem isNumber_eq_true_iff {n : Number} {v : Json} :
    isNumber n v = true ↔ v = .number n := by
  cases v <;> simp [isNumber]

/-- The floats of a value are the values of their own texts. -/
def FloatsReadBack (v : Json) : Prop :=
  ∀ x, .number (.float x) ∈ v.parts →
    parse? (Number.float x).text = some (.number (.float x))

theorem Proper.readsBack {v : Json} (h : v.Proper) (hfloats : v.FloatsReadBack) :
    ∀ n : Number, .number n ∈ v.parts → n.ReadsBack := by
  rintro (i | x) hn
  · obtain ⟨hlow, hhigh⟩ := h.whole i hn
    exact readsBack_whole hlow hhigh
  · exact readsBack_of_parse? (hfloats x hn)

mutual

theorem legible_of_parts {room : Nat} : ∀ {v : Json}, v.depth ≤ room →
    (∀ n : Number, .number n ∈ v.parts → n.ReadsBack) →
    (∀ members, .object members ∈ v.parts → (members.map (·.1)).Nodup) → Legible room v
  | .null, _, _, _ | .bool _, _, _, _ | .string _, _, _, _ => trivial
  | .number n, _, hn, _ => hn n List.mem_cons_self
  | .array items, hd, hn, ho =>
    have hd : depthItems items + 1 ≤ room := hd
    ⟨by omega, legibleItems_of_parts (by omega) (fun n h => hn n (List.mem_cons_of_mem _ h))
      fun members h => ho members (List.mem_cons_of_mem _ h)⟩
  | .object members, hd, hn, ho =>
    have hd : depthMembers members + 1 ≤ room := hd
    ⟨by omega, ho members List.mem_cons_self,
      legibleMembers_of_parts (by omega) (fun n h => hn n (List.mem_cons_of_mem _ h))
        fun members h => ho members (List.mem_cons_of_mem _ h)⟩

theorem legibleItems_of_parts {room : Nat} : ∀ {items : List Json}, depthItems items ≤ room →
    (∀ n : Number, .number n ∈ partsItems items → n.ReadsBack) →
    (∀ members, .object members ∈ partsItems items → (members.map (·.1)).Nodup) →
      LegibleItems room items
  | [], _, _, _ => trivial
  | v :: items, hd, hn, ho =>
    have hd : max v.depth (depthItems items) ≤ room := hd
    ⟨legible_of_parts (by omega) (fun n h => hn n (List.mem_append_left _ h))
        fun members h => ho members (List.mem_append_left _ h),
      legibleItems_of_parts (by omega) (fun n h => hn n (List.mem_append_right _ h))
        fun members h => ho members (List.mem_append_right _ h)⟩

theorem legibleMembers_of_parts {room : Nat} : ∀ {members : List (Text × Json)},
    depthMembers members ≤ room →
    (∀ n : Number, .number n ∈ partsMembers members → n.ReadsBack) →
    (∀ ms, .object ms ∈ partsMembers members → (ms.map (·.1)).Nodup) →
      LegibleMembers room members
  | [], _, _, _ => trivial
  | (_, v) :: members, hd, hn, ho =>
    have hd : max v.depth (depthMembers members) ≤ room := hd
    ⟨legible_of_parts (by omega) (fun n h => hn n (List.mem_append_left _ h))
        fun ms h => ho ms (List.mem_append_left _ h),
      legibleMembers_of_parts (by omega) (fun n h => hn n (List.mem_append_right _ h))
        fun ms h => ho ms (List.mem_append_right _ h)⟩

end

/-- **A value can be read back** if it nests no deeper than the room there is and its floats are
    read back. -/
theorem Proper.legible {v : Json} {room : Nat} (h : v.Proper) (hdepth : v.depth ≤ room)
    (hfloats : v.FloatsReadBack) : Legible room v :=
  legible_of_parts hdepth (h.readsBack hfloats) h.names

end SessionGateway.Json
