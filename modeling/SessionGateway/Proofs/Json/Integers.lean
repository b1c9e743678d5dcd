/-
  Whole numbers as texts — what is read as a whole number is its numeral.

  A JSON text stands for a whole number in one way only: in decimal digits without a zero in front,
  behind a minus sign if the number is negative.  All that may vary is the white space around.

  * `readToken?_eq_whole`: the token of a whole number is its numeral;
  * `ofTokens?_eq_number_iff`: a number is the value of its own token, and of no others;
  * `parse?_eq_whole_iff`: the texts that are read as a whole number;
  * `parse?_memberText`: they are read so as the member of an object.
-/
import Mathlib.Data.List.TakeWhile
import SessionGateway.Proofs.Json.Numbers
import SessionGateway.Proofs.Text.Numerals

namespace SessionGateway

namespace Json

open Numeral

/-! ## Whole numbers -/

theorem readFraction?_eq_none {t rest : Text} (h : readFraction? t = some (none, rest)) :
    rest = t := by
  unfold readFraction? at h
  split at h
  · split at h <;> cases h
  · cases h
    rfl

theorem exponent?_eq_none {t rest : Text} (h : exponent? t = some (none, rest)) : rest = t := by
  unfold exponent? at h
  split at h
  · cases h
    rfl
  · split at h
    · dsimp only at h
      split at h <;> cases h
    · cases h
      rfl

/-- What is rounded is no whole number. -/
theorem Literal.float?_ne_whole (l : Literal) (i : Int) : l.float? ≠ some (.whole i) := by
  intro h
  unfold Literal.float? at h
  dsimp only at h
  split at h
  · simp at h
  · split at h
    · simp at h
    · split at h <;> cases h

/-- The literal of a whole number has neither fraction nor exponent, and its digits are those of
    the number. -/
theorem Literal.number?_eq_whole {l : Literal} {i : Int} (h : l.number? = some (.whole i)) :
    l.fraction = none ∧ l.exponent = none ∧ (decimal? l.whole).getD 0 = i.natAbs ∧
      (l.negative = true ↔ i < 0) ∧ -0x8000000000000000 ≤ i ∧ i ≤ Numeral.max64 := by
  unfold Literal.number? at h
  split at h
  · next hfraction hexponent =>
    refine ⟨hfraction, hexponent, ?_⟩
    dsimp only at h
    split at h
    · next hnegative =>
      split at h
      · next hn =>
        cases h
        refine ⟨by omega, iff_of_true hnegative (by omega), by omega, ?_⟩
        exact Int.le_trans (by omega) (Int.natCast_nonneg max64)
      · exact absurd h (l.float?_ne_whole i)
    · next hpositive =>
      split at h
      · next hn =>
        cases h
        exact ⟨by omega, iff_of_false hpositive (by omega), by omega, by omega⟩
      · exact absurd h (l.float?_ne_whole i)
  · exact absurd h (l.float?_ne_whole i)

/-- **A number that is whole was written as its numeral**, behind a minus sign if there was one. -/
theorem readNumber?_eq_whole {negative : Bool} {t rest : Text} {i : Int}
    (h : readNumber? negative t = some (.whole i, rest)) :
    t = decimal i.natAbs ++ rest ∧ (negative = true ↔ i < 0) ∧
      -0x8000000000000000 ≤ i ∧ i ≤ Numeral.max64 := by
  simp only [readNumber?, Option.bind_eq_bind, Option.bind_eq_some_iff, Prod.exists] at h
  obtain ⟨whole, u, hwhole, fraction, v, hfraction, exponent, w, hexponent, n, hn, he⟩ := h
  cases he
  obtain ⟨rfl, rfl, hvalue, hsign, hbounds⟩ := Literal.number?_eq_whole hn
  cases readFraction?_eq_none hfraction
  cases exponent?_eq_none hexponent
  obtain ⟨hl, hne, hzero⟩ := readWhole?_eq_some_iff.1 hwhole
  obtain ⟨htake, hdrop⟩ := Prod.mk.inj hl
  have hdigits : ∀ c ∈ whole, c.isDigit = true := fun c hc =>
    List.mem_takeWhile_imp (htake ▸ hc)
  obtain ⟨n, rfl⟩ := exists_eq_decimal hne hzero hdigits
  rw [decimal?_decimal, Option.getD_some] at hvalue
  refine ⟨?_, hsign, hbounds⟩
  rw [← hvalue, ← htake, ← hdrop, List.takeWhile_append_dropWhile]

theorem mark?_ne_scalar (c : Char) (v : Json) : mark? c ≠ some (.scalar v) := by
  unfold mark?
  repeat' split
  all_goals nofun

theorem readWord?_ne_number (t rest : Text) (n : Number) :
    readWord? t ≠ some (.number n, rest) := by
  intro h
  obtain ⟨⟨w, v⟩, hw, h⟩ := List.exists_of_findSome?_eq_some h
  obtain ⟨_, -, he⟩ := Option.map_eq_some_iff.1 h
  cases he
  simp [words] at hw

/-- **The token of a whole number is its numeral.** -/
theorem readToken?_eq_whole {c : Char} {t rest : Text} {i : Int}
    (h : readToken? c t = some (.scalar (.number (.whole i)), rest)) :
    c :: t = integer i ++ rest ∧ -0x8000000000000000 ≤ i ∧ i ≤ Numeral.max64 := by
  unfold readToken? at h
  split at h
  · next k hk =>
    cases h
    exact absurd hk (mark?_ne_scalar c _)
  split at h
  · obtain ⟨_, -, he⟩ := Option.map_eq_some_iff.1 h
    cases he
  split at h
  · next hminus =>
    obtain ⟨⟨n, _⟩, hn, he⟩ := Option.map_eq_some_iff.1 h
    cases he
    obtain ⟨ht, hsign, hbounds⟩ := readNumber?_eq_whole hn
    exact ⟨by rw [integer, if_pos (hsign.1 rfl), hminus, ht, List.cons_append], hbounds⟩
  split at h
  · obtain ⟨⟨n, _⟩, hn, he⟩ := Option.map_eq_some_iff.1 h
    cases he
    obtain ⟨ht, hsign, hbounds⟩ := readNumber?_eq_whole hn
    exact ⟨by rw [integer, if_neg (mt hsign.2 Bool.false_ne_true), ht], hbounds⟩
  · obtain ⟨⟨v, _⟩, hv, he⟩ := Option.map_eq_some_iff.1 h
    cases he
    exact absurd hv (readWord?_ne_number _ _ _)

/-! ## Values of one token -/

/-- Where a value must come next, and something came before, an array or object is open. -/
theorem Reader.ne_nil_of_step_eq_value {s : Reader.State} {k : Token} {around : List Reader.Frame}
    (h : Reader.step s k = some (.value around)) : around ≠ [] := by
  have hbegin : ∀ around', Reader.begin around' k ≠ some (.value around) := by
    intro around' hb
    cases k with
    | beginArray | beginObject =>
      simp only [Reader.begin, Reader.enter] at hb
      split at hb <;> cases hb
    | _ => cases hb
  rintro rfl
  unfold Reader.step at h
  split at h
  all_goals first
    | exact hbegin _ h
    | cases h

/-- A number is complete only by its own token, where a value must come. -/
theorem Reader.eq_of_step_eq_number {s : Reader.State} {k : Token} {n : Number}
    (h : Reader.step s k = some (.complete (.number n) [])) :
    s = .value [] ∧ k = .scalar (.number n) := by
  have hbegin : ∀ around, Reader.begin around k = some (.complete (.number n) []) →
      around = [] ∧ k = .scalar (.number n) := by
    intro around hb
    cases k with
    | scalar v =>
      cases hb
      exact ⟨rfl, rfl⟩
    | beginArray | beginObject =>
      simp only [Reader.begin, Reader.enter] at hb
      split at hb <;> cases hb
    | _ => cases hb
  unfold Reader.step at h
  split at h
  · obtain ⟨rfl, rfl⟩ := hbegin _ h
    exact ⟨rfl, rfl⟩
  · cases h
  · cases (hbegin _ h).1
  all_goals cases h

/-- The last token is read in the state that the others lead to. -/
theorem Reader.run_concat {ks : List Token} {k : Token} {s t : Reader.State}
    (h : (ks ++ [k]).foldlM Reader.step s = some t) :
    ∃ u, ks.foldlM Reader.step s = some u ∧ Reader.step u k = some t := by
  rw [List.foldlM_append] at h
  obtain ⟨u, hu, h⟩ := Option.bind_eq_some_iff.1 h
  rw [List.foldlM_cons] at h
  obtain ⟨v, hv, h⟩ := Option.bind_eq_some_iff.1 h
  cases h
  exact ⟨u, hu, hv⟩

/-- **A number is the value of its own token**, and of no other tokens. -/
theorem ofTokens?_eq_number_iff {ks : List Token} {n : Number} :
    ofTokens? ks = some (.number n) ↔ ks = [.scalar (.number n)] := by
  constructor
  · intro h
    obtain ⟨s, hs, hv⟩ := Option.bind_eq_some_iff.1 h
    have hs' : s = .complete (.number n) [] := by
      unfold Reader.State.result? at hv
      split at hv
      · cases hv
        rfl
      · cases hv
    subst hs'
    obtain rfl | ⟨js, k, rfl⟩ := List.eq_nil_or_concat ks
    · cases hs
    rw [List.concat_eq_append] at hs ⊢
    obtain ⟨_, hjs, hk⟩ := Reader.run_concat hs
    obtain ⟨rfl, rfl⟩ := Reader.eq_of_step_eq_number hk
    -- before the token no value has begun, so nothing has come
    obtain rfl | ⟨is, j, rfl⟩ := List.eq_nil_or_concat js
    · rfl
    rw [List.concat_eq_append] at hjs
    obtain ⟨_, -, hj⟩ := Reader.run_concat hjs
    exact absurd rfl (Reader.ne_nil_of_step_eq_value hj)
  · rintro rfl
    rfl

/-! ## White space around a token -/

/-- White space has no tokens. -/
theorem lexes_blank {pad : Text} (h : pad.all Text.isSpace = true) (rest : Text) :
    Lexes pad [] rest := by
  induction pad with
  | nil => exact fun done fuel hf => ⟨fuel, hf, rfl⟩
  | cons c pad ih =>
    rw [List.all_cons, Bool.and_eq_true] at h
    intro done fuel hf
    cases fuel with
    | zero => cases hf
    | succ fuel =>
      rw [List.cons_append, tokensOnto, if_pos h.1]
      exact ih h.2 done fuel (Nat.le_of_succ_le_succ hf)

/-- Where tokens are read to the end, the text is white space, or has white space in front of the
    next one. -/
theorem tokensOnto_cases {done ks : List Token} {fuel : Nat} {t : Text}
    (h : tokensOnto done fuel t = some ks) :
    t.all Text.isSpace = true ∧ ks = done.reverse ∨
      ∃ pad c u k rest fuel', t = pad ++ c :: u ∧ pad.all Text.isSpace = true ∧
        readToken? c u = some (k, rest) ∧ tokensOnto (k :: done) fuel' rest = some ks := by
  induction fuel generalizing t with
  | zero =>
    cases t with
    | nil =>
      rw [tokensOnto] at h
      exact .inl ⟨rfl, (Option.some.inj h).symm⟩
    | cons c t => cases h
  | succ fuel ih =>
    cases t with
    | nil =>
      rw [tokensOnto] at h
      exact .inl ⟨rfl, (Option.some.inj h).symm⟩
    | cons c t =>
      rw [tokensOnto] at h
      split at h
      · next hc =>
        rcases ih h with ⟨hpad, hks⟩ | ⟨pad, d, u, k, rest, fuel', rfl, hpad, hk, hrest⟩
        · exact .inl ⟨by rw [List.all_cons, hc, hpad]; rfl, hks⟩
        · exact .inr ⟨c :: pad, d, u, k, rest, fuel', rfl,
            by rw [List.all_cons, hc, hpad]; rfl, hk, hrest⟩
      · split at h
        · next k rest hk => exact .inr ⟨[], c, t, k, rest, fuel, rfl, rfl, hk, h⟩
        · cases h

/-- White space ends a number. -/
theorem breaks_blank_append {pad rest : Text} (hpad : pad.all Text.isSpace = true)
    (hr : Breaks rest) : Breaks (pad ++ rest) := by
  cases pad with
  | nil => exact hr
  | cons c pad =>
    rw [List.all_cons, Bool.and_eq_true] at hpad
    refine breaks_cons ?_ _
    rcases Text.isSpace_iff.1 hpad.1 with rfl | rfl | rfl | rfl <;> rfl

/-- A whole number with white space around is one token. -/
theorem lexes_padded {before after rest : Text} {i : Int} (hlow : -0x8000000000000000 ≤ i)
    (hhigh : i ≤ Numeral.max64) (hbefore : before.all Text.isSpace = true)
    (hafter : after.all Text.isSpace = true) (hr : Breaks rest) :
    Lexes (before ++ (integer i ++ after)) [.scalar (.number (.whole i))] rest := by
  have hnumeral : Lexes (integer i) [.scalar (.number (.whole i))] (after ++ rest) :=
    readsBack_whole hlow hhigh _ (breaks_blank_append hafter hr)
  have hend := hnumeral.append (lexes_blank hafter rest)
  exact (lexes_blank hbefore _).append hend

/-- **The texts of a whole number** are its numeral with white space around, if the number fits
    sixty-four bits, with a sign or without one. -/
theorem parse?_eq_whole_iff {t : Text} {i : Int} :
    parse? t = some (.number (.whole i)) ↔
      -0x8000000000000000 ≤ i ∧ i ≤ Numeral.max64 ∧
        ∃ before after, t = before ++ (integer i ++ after) ∧
          before.all Text.isSpace = true ∧ after.all Text.isSpace = true := by
  constructor
  · intro h
    obtain ⟨ks, hks, hv⟩ := Option.bind_eq_some_iff.1 h
    obtain rfl := ofTokens?_eq_number_iff.1 hv
    rcases tokensOnto_cases hks with ⟨-, he⟩ | ⟨before, c, u, k, rest, _, rfl, hbefore, hk, hrest⟩
    · cases he
    rcases tokensOnto_cases hrest with ⟨hafter, he⟩ | ⟨_, _, _, j, rest', _, -, -, -, hlast⟩
    · cases he
      obtain ⟨he, hlow, hhigh⟩ := readToken?_eq_whole hk
      exact ⟨hlow, hhigh, before, rest, by rw [he], hbefore, hafter⟩
    · -- a second token would follow
      obtain ⟨js, he⟩ := tokensOnto_append hlast
      cases he
  · rintro ⟨hlow, hhigh, before, after, rfl, hbefore, hafter⟩
    rw [parse?, (lexes_padded hlow hhigh hbefore hafter breaks_nil).tokens?]
    rfl

/-- The text of an object with one member. -/
def memberText (name t : Text) : Text := '\x7b' :: (quote name ++ ':' :: (t ++ ['\x7d']))

/-- **A whole number is read as a member** wherever it is read alone. -/
theorem parse?_memberText {t : Text} {i : Int} (h : parse? t = some (.number (.whole i)))
    (name : Text) :
    parse? (memberText name t) = some (.object [(name, .number (.whole i))]) := by
  obtain ⟨hlow, hhigh, before, after, rfl, hbefore, hafter⟩ := parse?_eq_whole_iff.1 h
  have hend : Lexes ['\x7d'] [.endObject] [] := Lexes.mark (by decide) rfl []
  have hvalue := (lexes_padded hlow hhigh hbefore hafter (breaks_cons (by decide) _)).append hend
  have hcolon : Lexes (':' :: (before ++ (integer i ++ after) ++ ['\x7d']))
      [.colon, .scalar (.number (.whole i)), .endObject] [] :=
    lexes_mark_append (by decide) rfl hvalue
  have hall : Lexes (memberText name (before ++ (integer i ++ after)))
      [.beginObject, .string name, .colon, .scalar (.number (.whole i)), .endObject] [] :=
    lexes_mark_append (by decide) rfl ((lexes_quote name _).append hcolon)
  rw [parse?, hall.tokens?]
  rfl

end Json

end SessionGateway
