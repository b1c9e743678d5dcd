/-
  Spelling — texts as documents write them.

  A character stands for itself, or as a reference: one of the five names, or its number in
  decimal or hexadecimal digits, with any zeros in front and letters in either case.  Some
  characters are `barred` from standing for themselves, such as `<` in a run of text.

  * `unescape?_spelled`: a spelled text is read as its characters;
  * `trimBy_spelled`: white space at the ends of a text is dropped where it stands for itself,
    and stays where it is written as a reference;
  * `run?_spelled`: what a run of text is read as;
  * `spelled_ofChar`: an escaped text is spelled.
-/
import Mathlib.Data.List.Induction
import Mathlib.Data.List.Basic
import SessionGateway.Proofs.Xml.Scalars

namespace SessionGateway.Xml

/-! ## Characters -/

/-- The characters that have a reference with a name. -/
def special : Text := ['<', '>', '&', '\x27', '\x22']

/-- Whether a number is the one of a character that a reference may stand for. -/
def isCode (n : Nat) : Bool := decide (n ≠ 0 ∧ n.isValidChar)

/-- A character of a text, as a document writes it. -/
inductive Glyph where
  /-- The character itself. -/
  | plain (c : Char)
  /-- The reference with the name of the character. -/
  | named (c : Char)
  /-- The number of the character in decimal digits. -/
  | decimal (digits : List (Fin 10))
  /-- The number of the character in hexadecimal digits, each a capital letter if marked. -/
  | hex (digits : List (Fin 16 × Bool))

namespace Glyph

/-- A decimal digit. -/
def digit (d : Fin 10) : Char := Numeral.digit d

/-- A hexadecimal digit, its letter capital or small. -/
def hexDigit (d : Fin 16 × Bool) : Char :=
  if d.2 then (Numeral.hexDigit d.1).toUpper else Numeral.hexDigit d.1

/-- The number that decimal digits stand for. -/
def decimalCode (digits : List (Fin 10)) : Nat := digits.foldl (fun n d => 10 * n + d.val) 0

/-- The number that hexadecimal digits stand for. -/
def hexCode (digits : List (Fin 16 × Bool)) : Nat := digits.foldl (fun n d => 16 * n + d.1.val) 0

/-- The character that a glyph stands for. -/
def char : Glyph → Char
  | plain c | named c => c
  | decimal ds => Char.ofNat (decimalCode ds)
  | hex ds => Char.ofNat (hexCode ds)

/-- The text of a glyph. -/
def text : Glyph → Text
  | plain c => [c]
  | named c => escapeChar c
  | decimal ds => '&' :: '#' :: (ds.map digit ++ [';'])
  | hex ds => '&' :: '#' :: 'x' :: (ds.map hexDigit ++ [';'])

/-- Whether a glyph stands for a character, and for none of the `barred` ones by itself. -/
def isValid (barred : Text) : Glyph → Bool
  | plain c => !barred.contains c
  | named c => special.contains c
  | decimal ds => !ds.isEmpty && isCode (decimalCode ds)
  | hex ds => !ds.isEmpty && isCode (hexCode ds)

/-- Whether a glyph is white space that stands for itself. -/
def isSpace : Glyph → Bool
  | plain c => Text.isSpace c
  | _ => false

/-- The way in which an escaped text writes a character. -/
def ofChar (c : Char) : Glyph := if special.contains c then named c else plain c

end Glyph

/-- The text that glyphs write. -/
def spelled (gs : List Glyph) : Text := gs.flatMap Glyph.text

/-- The text that glyphs stand for. -/
def chars (gs : List Glyph) : Text := gs.map Glyph.char

/-- The glyphs without white space that stands for itself at either end. -/
def trimmed (gs : List Glyph) : List Glyph := trimBy Glyph.isSpace gs

/-! ## References -/

theorem digits?_map {α : Type} {value? : Char → Option Nat} {digit : α → Char} {value : α → Nat}
    (h : ∀ d, value? (digit d) = some (value d)) (base acc : Nat) (ds : List α) :
    Numeral.digits? value? base acc (ds.map digit) =
      some (ds.foldl (fun n d => base * n + value d) acc) := by
  induction ds generalizing acc with
  | nil => rfl
  | cons d ds ih => rw [List.map_cons, Numeral.digits?, h, Option.bind_some, ih, List.foldl_cons]

theorem charOf?_of_isCode {n : Nat} (h : isCode n = true) : charOf? n = some (Char.ofNat n) :=
  if_pos (of_decide_eq_true h)

theorem reference?_decimal {ds : List (Fin 10)} (hne : ds ≠ [])
    (hc : isCode (Glyph.decimalCode ds) = true) :
    reference? ('#' :: ds.map Glyph.digit) =
      some (Char.ofNat (Glyph.decimalCode ds)) := by
  have hx : ∀ d, Glyph.digit d ≠ 'x' := by decide
  have hread : Numeral.decimal? (ds.map Glyph.digit) = some (Glyph.decimalCode ds) := by
    have hdigit : ∀ d : Fin 10, Numeral.digit? (Glyph.digit d) = some d.val := fun d =>
      Numeral.digit?_digit d.isLt
    rw [Numeral.decimal?, if_neg (by simpa using hne), digits?_map hdigit]
    rfl
  cases ds with
  | nil => exact absurd rfl hne
  | cons d ds =>
    rw [List.map_cons] at hread ⊢
    rw [reference?.eq_2 _ fun t ht => hx d (List.cons.inj ht).1, hread, Option.bind_some,
      charOf?_of_isCode hc]

theorem reference?_hex {ds : List (Fin 16 × Bool)} (hne : ds ≠ [])
    (hc : isCode (Glyph.hexCode ds) = true) :
    reference? ('#' :: 'x' :: ds.map Glyph.hexDigit) = some (Char.ofNat (Glyph.hexCode ds)) := by
  have hall : ∀ d b, Numeral.hexDigit? (Glyph.hexDigit (d, b)) = some d.val := by decide
  have hdigit : ∀ d, Numeral.hexDigit? (Glyph.hexDigit d) = some d.1.val := fun d =>
    hall d.1 d.2
  have hread : Numeral.hex? (ds.map Glyph.hexDigit) = some (Glyph.hexCode ds) := by
    rw [Numeral.hex?, if_neg (by simpa using hne), digits?_map hdigit]
    rfl
  rw [reference?, hread, Option.bind_some, charOf?_of_isCode hc]

/-- Whether a character may stand in a reference, between its first and last one. -/
def isReferenceChar (c : Char) : Bool := c == '#' || c.isAlphanum

/-- **A glyph is a character by itself or a reference to it.** -/
theorem Glyph.text_cases {barred : Text} {g : Glyph} (h : g.isValid barred = true) :
    (∃ c, g = plain c ∧ c ∉ barred) ∨
    ∃ name, g.text = '&' :: (name ++ [';']) ∧ reference? name = some g.char ∧
      name.all isReferenceChar = true ∧ g.isSpace = false := by
  cases g with
  | plain c =>
    have hc : c ∉ barred := by simpa [isValid] using h
    exact .inl ⟨c, rfl, hc⟩
  | named c =>
    have hc : c ∈ special := by simpa [isValid] using h
    simp only [special, List.mem_cons, List.not_mem_nil, or_false] at hc
    rcases hc with rfl | rfl | rfl | rfl | rfl
    · exact .inr ⟨"lt".toList, rfl, rfl, by decide, rfl⟩
    · exact .inr ⟨"gt".toList, rfl, rfl, by decide, rfl⟩
    · exact .inr ⟨"amp".toList, rfl, rfl, by decide, rfl⟩
    · exact .inr ⟨"apos".toList, rfl, rfl, by decide, rfl⟩
    · exact .inr ⟨"quot".toList, rfl, rfl, by decide, rfl⟩
  | decimal ds =>
    have hd : ∀ d, isReferenceChar (digit d) = true := by decide
    simp only [isValid, Bool.and_eq_true, Bool.not_eq_true', List.isEmpty_eq_false_iff] at h
    refine .inr ⟨'#' :: ds.map digit, rfl, reference?_decimal h.1 h.2, ?_, rfl⟩
    have hall : ds.all (isReferenceChar ∘ digit) = true := List.all_eq_true.2 fun d _ => hd d
    rw [List.all_cons, List.all_map, hall]
    rfl
  | hex ds =>
    have hd : ∀ d b, isReferenceChar (hexDigit (d, b)) = true := by decide
    simp only [isValid, Bool.and_eq_true, Bool.not_eq_true', List.isEmpty_eq_false_iff] at h
    refine .inr ⟨'#' :: 'x' :: ds.map hexDigit, rfl, reference?_hex h.1 h.2, ?_, rfl⟩
    have hall : ds.all (isReferenceChar ∘ hexDigit) = true :=
      List.all_eq_true.2 fun d _ => hd d.1 d.2
    rw [List.all_cons, List.all_cons, List.all_map, hall]
    rfl

/-! ## Reading a spelled text -/

section
variable {barred : Text} {gs : List Glyph} (h : ∀ g ∈ gs, g.isValid barred = true)
include h

/-- **A spelled text is read as its characters.** -/
theorem unescape?_spelled (hamp : '&' ∈ barred) : unescape? (spelled gs) = some (chars gs) := by
  induction gs with
  | nil => simp [spelled, chars, unescape?]
  | cons g gs ih =>
    rw [List.forall_mem_cons] at h
    rw [spelled, List.flatMap_cons, ← spelled]
    rcases Glyph.text_cases h.1 with ⟨c, rfl, hc⟩ | ⟨name, ht, hr, hn, -⟩
    · have hne : c ≠ '&' := fun he => hc (he ▸ hamp)
      rw [Glyph.text, List.singleton_append, unescape?_cons_of_ne hne, ih h.2]
      rfl
    · have hsemi : ';' ∉ name := fun hm => absurd (List.all_eq_true.1 hn _ hm) (by decide)
      rw [ht, List.cons_append, List.append_assoc, List.singleton_append,
        unescape?_reference hsemi hr, ih h.2]
      rfl

/-- A barred character does not occur in a spelled text, if no reference has it. -/
theorem notMem_spelled {c : Char} (hc : c ∈ barred) (hr : isReferenceChar c = false)
    (ha : c ≠ '&') (hs : c ≠ ';') : c ∉ spelled gs := by
  intro hm
  obtain ⟨g, hg, hm⟩ := List.mem_flatMap.1 hm
  rcases Glyph.text_cases (h g hg) with ⟨d, rfl, hd⟩ | ⟨name, ht, -, hn, -⟩
  · rw [Glyph.text, List.mem_singleton] at hm
    exact hd (hm ▸ hc)
  · rw [ht, List.mem_cons, List.mem_append, List.mem_singleton] at hm
    rcases hm with hm | hm | hm
    · exact ha hm
    · rw [List.all_eq_true.1 hn c hm] at hr
      cases hr
    · exact hs hm

theorem dropWhile_spelled :
    (spelled gs).dropWhile Text.isSpace = spelled (gs.dropWhile Glyph.isSpace) := by
  induction gs with
  | nil => rfl
  | cons g gs ih =>
    rw [List.forall_mem_cons] at h
    rw [List.dropWhile_cons, spelled, List.flatMap_cons, ← spelled]
    rcases Glyph.text_cases h.1 with ⟨c, rfl, -⟩ | ⟨name, ht, -, -, hs⟩
    · rw [Glyph.text, List.singleton_append, List.dropWhile_cons, ih h.2]
      cases hc : Text.isSpace c <;> simp [Glyph.isSpace, hc, spelled, Glyph.text]
    · rw [hs, ht, List.cons_append, List.dropWhile_cons, if_neg (by decide),
        if_neg Bool.false_ne_true]
      simp [spelled, ht]

theorem trimEndBy_spelled :
    trimEndBy Text.isSpace (spelled gs) = spelled (trimEndBy Glyph.isSpace gs) := by
  induction gs using List.reverseRecOn with
  | nil => rfl
  | append_singleton gs g ih =>
    rw [List.forall_mem_append, List.forall_mem_singleton] at h
    have happend : spelled (gs ++ [g]) = spelled gs ++ g.text := by
      rw [spelled, List.flatMap_append, List.flatMap_singleton, ← spelled]
    rcases Glyph.text_cases h.2 with ⟨c, rfl, -⟩ | ⟨name, ht, -, -, hs⟩
    · cases hc : Text.isSpace c with
      | true =>
        have hback := ih h.1
        rw [trimEndBy, trimEndBy] at hback
        simpa [trimEndBy, happend, Glyph.text, Glyph.isSpace, hc] using hback
      | false => simp [trimEndBy, happend, Glyph.text, Glyph.isSpace, hc]
    · have hsemi : Text.isSpace ';' = false := by decide
      simp [trimEndBy, happend, ht, hs, hsemi]

/-- **White space that stands for itself** is dropped at the ends of a text. -/
theorem trimBy_spelled : trimBy Text.isSpace (spelled gs) = spelled (trimmed gs) := by
  have hdrop : ∀ g ∈ gs.dropWhile Glyph.isSpace, g.isValid barred = true := fun g hg =>
    h g ((List.dropWhile_sublist _).subset hg)
  have hend := trimEndBy_spelled hdrop
  rw [← dropWhile_spelled h] at hend
  exact hend

theorem spelled_eq_nil_iff : spelled gs = [] ↔ gs = [] := by
  constructor
  · intro he
    cases gs with
    | nil => rfl
    | cons g gs =>
      rw [spelled, List.flatMap_cons, List.append_eq_nil_iff] at he
      rcases Glyph.text_cases (h g List.mem_cons_self) with ⟨c, rfl, -⟩ | ⟨name, ht, -⟩
      · cases he.1
      · rw [ht] at he
        cases he.1
  · rintro rfl
    rfl

theorem valid_trimmed : ∀ g ∈ trimmed gs, g.isValid barred = true := by
  intro g hg
  rw [trimmed, trimBy, List.mem_reverse] at hg
  have hd := (List.dropWhile_sublist _).subset hg
  exact h g ((List.dropWhile_sublist _).subset (List.mem_reverse.1 hd))

/-- **A run of text** is read as the characters between its outer white space, if there are any. -/
theorem run?_spelled (hamp : '&' ∈ barred) :
    run? (spelled gs) =
      some (if (trimmed gs).isEmpty then [] else [.text (chars (trimmed gs))]) := by
  rw [run?, trimBy_spelled h]
  by_cases he : trimmed gs = []
  · rw [he]
    rfl
  · have hs : spelled (trimmed gs) ≠ [] := fun hn =>
      he ((spelled_eq_nil_iff (valid_trimmed h)).1 hn)
    rw [unescape?_spelled (valid_trimmed h) hamp, List.isEmpty_eq_false_iff.2 hs,
      List.isEmpty_eq_false_iff.2 he]
    rfl

end

/-! ## Escaped text -/

/-- **An escaped text is spelled**, with a named reference for each special character. -/
theorem spelled_ofChar (t : Text) : spelled (t.map Glyph.ofChar) = escape t := by
  rw [spelled, escape, List.flatMap_map]
  refine List.flatMap_congr fun c _ => ?_
  rw [Glyph.ofChar]
  split
  · rfl
  · next hc =>
    simp only [special, List.contains_cons, List.contains_nil, Bool.or_false, Bool.or_eq_true,
      beq_iff_eq, not_or] at hc
    rw [escapeChar, if_neg hc.1, if_neg hc.2.1, if_neg hc.2.2.1, if_neg hc.2.2.2.1,
      if_neg hc.2.2.2.2, Glyph.text]

theorem isValid_ofChar {barred : Text} (hb : barred ⊆ special) (c : Char) :
    (Glyph.ofChar c).isValid barred = true := by
  rw [Glyph.ofChar]
  split
  · next hc => exact hc
  · next hc =>
    have hnot : c ∉ special := by simpa using hc
    simpa [Glyph.isValid] using fun hm => hnot (hb hm)

end SessionGateway.Xml
