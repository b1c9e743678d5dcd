/-
  Tokens of a written value — the text of a value is cut into the pieces that it was made of.

  `Json.tokens` are the tokens of a value.  A text lexes to tokens before a rest (`Lexes`) if the
  scanner cuts it into them and goes on with the rest; `Lexes.append` puts two texts behind each
  other.

  * `readString_quote`: a string between quotation marks is read back, whatever follows it;
  * `readsBack_whole`: so is a whole number that fits sixty-four bits, before a delimiter;
  * `tokens?_text`: the text of a value is cut into its tokens.
-/
import SessionGateway.Json.Printer
import SessionGateway.Json.Token
import SessionGateway.Proofs.Json.Parts

namespace SessionGateway.Json

/-! ## Strings -/

/-- The two digits of a control character are read back as that character. -/
theorem unit?_control {n : Nat} (h : n < 0x20) :
    (unit? '0' '0' (Numeral.hexDigit (n / 16)) (Numeral.hexDigit (n % 16))).bind single? =
      some (Char.ofNat n) := by
  have hd : ∀ n : Fin 32,
      (unit? '0' '0' (Numeral.hexDigit (n.val / 16)) (Numeral.hexDigit (n.val % 16))).bind single? =
        some (Char.ofNat n.val) := by
    decide
  exact hd ⟨n, h⟩

/-- A number of four digits is read as its character. -/
theorem readString_unit {a b c d x : Char} (h : (unit? a b c d).bind single? = some x)
    (done rest : Text) :
    readString done ('\\' :: 'u' :: a :: b :: c :: d :: rest) = readString (x :: done) rest := by
  rw [readString.eq_def]
  simp only [h]

/-- A character that needs no escape stands for itself. -/
theorem readString_plain {c : Char} (hq : c ≠ '\x22') (hb : c ≠ '\\') (hc : 0x20 ≤ c.toNat)
    (done rest : Text) : readString done (c :: rest) = readString (c :: done) rest := by
  rw [readString.eq_def]
  split
  · next h => cases h
  · next h => exact absurd (List.cons.inj h).1 hb
  · next h => exact absurd (List.cons.inj h).1 hb
  · next h =>
    obtain ⟨rfl, rfl⟩ := List.cons.inj h
    rw [if_neg hq, if_neg (by simp only [hb, false_or]; omega)]

/-- An escaped character is read back. -/
theorem readString_escapeChar (c : Char) (done rest : Text) :
    readString done (escapeChar c ++ rest) = readString (c :: done) rest := by
  unfold escapeChar
  split
  · next h => subst h; simp [readString, unescape?]
  split
  · next h => subst h; simp [readString, unescape?]
  split
  · next h => subst h; simp [readString, unescape?]
  split
  · next h => subst h; simp [readString, unescape?]
  split
  · next h => subst h; simp [readString, unescape?]
  split
  · next h => subst h; simp [readString, unescape?]
  split
  · next h => subst h; simp [readString, unescape?]
  split
  · next h =>
    have hu := unit?_control h
    rw [Char.ofNat_toNat] at hu
    exact readString_unit hu done rest
  · next hq hb _ _ _ _ _ hc => exact readString_plain hq hb (Nat.le_of_not_lt hc) done rest

theorem readString_escaped (t done rest : Text) :
    readString done (t.flatMap escapeChar ++ '\x22' :: rest) = some (done.reverse ++ t, rest) := by
  induction t generalizing done with
  | nil => simp [readString]
  | cons c t ih => simp [List.append_assoc, readString_escapeChar, ih]

/-- **A string is read back**, behind its opening quotation mark. -/
theorem readString_quote (t rest : Text) :
    readString [] (t.flatMap escapeChar ++ '\x22' :: rest) = some (t, rest) :=
  readString_escaped t [] rest

/-! ## Numbers -/

/-- Whether a character cannot go on with a number. -/
def isBreak (c : Char) : Bool := !c.isDigit && c != '.' && c != 'e' && c != 'E'

/-- No number goes on in a text. -/
def Breaks (rest : Text) : Prop := ∀ c ∈ rest.head?, isBreak c = true

theorem breaks_nil : Breaks [] := nofun

theorem breaks_cons {c : Char} (h : isBreak c = true) (rest : Text) : Breaks (c :: rest) := by
  intro x hx
  cases hx
  exact h

theorem isDigit_of_mem_decimal {n : Nat} {c : Char} (h : c ∈ Numeral.decimal n) :
    c.isDigit = true := by
  have hd : ∀ d : Fin 10, (Numeral.digit d).isDigit = true := by decide
  obtain ⟨d, rfl⟩ := Numeral.mem_decimal h
  exact hd d

theorem leading_append {ds rest : Text} (hd : ∀ c ∈ ds, c.isDigit = true) (hr : Breaks rest) :
    Numeral.leading (ds ++ rest) = (ds, rest) := by
  have hrest : rest.takeWhile Char.isDigit = [] ∧ rest.dropWhile Char.isDigit = rest := by
    cases rest with
    | nil => exact ⟨rfl, rfl⟩
    | cons c rest =>
      have hc : isBreak c = true := hr c rfl
      simp only [isBreak, Bool.and_eq_true, Bool.not_eq_true'] at hc
      simp [hc.1.1.1]
  rw [Numeral.leading, List.takeWhile_append_of_pos hd, List.dropWhile_append_of_pos hd, hrest.1,
    hrest.2, List.append_nil]

theorem readWhole?_decimal (n : Nat) {rest : Text} (hr : Breaks rest) :
    readWhole? (Numeral.decimal n ++ rest) = some (Numeral.decimal n, rest) := by
  rw [readWhole?, leading_append (fun c => isDigit_of_mem_decimal) hr]
  obtain ⟨d, t, hd, he, hz⟩ := Numeral.decimal_eq_cons n
  split
  · next h => exact absurd (Prod.mk.inj h).1 (Numeral.decimal_ne_nil n)
  · next x t' _ h =>
    -- a zero before another digit
    have hdz : ∀ d : Fin 10, Numeral.digit d = '0' → d.val = 0 := by decide
    have h0 := (Prod.mk.inj h).1
    have hn : n = 0 := hz (hdz ⟨d, hd⟩ (List.cons.inj (he.symm.trans h0)).1)
    rw [hn, Numeral.decimal, if_pos (by decide)] at h0
    cases h0
  · rfl

theorem readFraction?_breaks {rest : Text} (hr : Breaks rest) :
    readFraction? rest = some (none, rest) := by
  unfold readFraction?
  split
  · cases hr '.' rfl
  · rfl

theorem exponent?_breaks {rest : Text} (hr : Breaks rest) :
    Numeral.exponent? rest = some (none, rest) := by
  cases rest with
  | nil => rfl
  | cons c rest =>
    have hc : isBreak c = true := hr c rfl
    simp only [isBreak, Bool.and_eq_true, bne_iff_ne] at hc
    rw [Numeral.exponent?, if_neg (by simp only [hc.1.2, hc.2, or_self, not_false_eq_true])]

theorem readNumber?_decimal {negative : Bool} {n : Nat} {x : Number}
    (h : Literal.number? ⟨negative, Numeral.decimal n, none, none⟩ = some x) {rest : Text}
    (hr : Breaks rest) : readNumber? negative (Numeral.decimal n ++ rest) = some (x, rest) := by
  simp only [readNumber?, readWhole?_decimal n hr, readFraction?_breaks hr, exponent?_breaks hr, h,
    Option.bind_eq_bind, Option.bind_some]

/-! ## Tokens -/

/-- Before `rest`, a text is cut into the given tokens. -/
def Lexes (u : Text) (ks : List Token) (rest : Text) : Prop :=
  ∀ done fuel, (u ++ rest).length ≤ fuel →
    ∃ fuel', rest.length ≤ fuel' ∧
      tokensOnto done fuel (u ++ rest) = tokensOnto (ks.reverse ++ done) fuel' rest

namespace Lexes

/-- Two texts behind each other. -/
theorem append {u v rest : Text} {ks js : List Token} (hu : Lexes u ks (v ++ rest))
    (hv : Lexes v js rest) : Lexes (u ++ v) (ks ++ js) rest := by
  intro done fuel hf
  rw [List.append_assoc] at hf ⊢
  obtain ⟨fuel', hf', hu⟩ := hu done fuel hf
  obtain ⟨fuel'', hf'', hv⟩ := hv (ks.reverse ++ done) fuel' hf'
  refine ⟨fuel'', hf'', ?_⟩
  rw [hu, hv, List.reverse_append, List.append_assoc]

/-- One token. -/
theorem token {c : Char} {t rest : Text} {k : Token} (hc : Text.isSpace c = false)
    (h : readToken? c (t ++ rest) = some (k, rest)) : Lexes (c :: t) [k] rest := by
  intro done fuel hf
  cases fuel with
  | zero => cases hf
  | succ fuel =>
    simp only [List.cons_append, List.length_cons, List.length_append] at hf
    refine ⟨fuel, by omega, ?_⟩
    rw [List.cons_append, tokensOnto, if_neg (by simp [hc]), h]
    rfl

/-- A character that is a token by itself. -/
theorem mark {c : Char} {k : Token} (hc : Text.isSpace c = false) (h : mark? c = some k)
    (rest : Text) : Lexes [c] [k] rest :=
  token hc (by simp only [readToken?, h, List.nil_append])

/-- At the end of a text these are its tokens. -/
theorem tokens? {u : Text} {ks : List Token} (h : Lexes u ks []) : tokens? u = some ks := by
  obtain ⟨fuel, -, he⟩ := h [] u.length (by simp)
  rw [List.append_nil] at he
  rw [Json.tokens?, he]
  cases fuel <;> simp [tokensOnto]

end Lexes

/-- **A string is one token.** -/
theorem lexes_quote (t rest : Text) : Lexes (quote t) [.string t] rest := by
  refine Lexes.token (by decide) ?_
  have hm : mark? '\x22' = none := by decide
  simp only [readToken?, hm, if_true, List.append_assoc, List.singleton_append, readString_quote,
    Option.map_some]

/-- A number whose text is read as that number, where no number goes on. -/
def Number.ReadsBack (n : Number) : Prop :=
  ∀ rest, Breaks rest → Lexes n.text [.scalar (.number n)] rest

/-- **A whole number of sixty-four bits is read back**, with a sign or without one. -/
theorem readsBack_whole {i : Int} (hlow : -0x8000000000000000 ≤ i) (hhigh : i ≤ Numeral.max64) :
    (Number.whole i).ReadsBack := by
  intro rest hr
  rw [Number.text, Numeral.integer]
  split
  · next hneg =>
    refine Lexes.token (by decide) ?_
    have hm : mark? '-' = none := by decide
    have hn : Literal.number? ⟨true, Numeral.decimal i.natAbs, none, none⟩ = some (.whole i) := by
      simp only [Literal.number?, Numeral.decimal?_decimal, Option.getD_some, if_true]
      rw [if_pos (by omega)]
      congr 2
      omega
    simp [readToken?, hm, readNumber?_decimal hn hr]
  · next hpos =>
    obtain ⟨d, t, hd, he, -⟩ := Numeral.decimal_eq_cons i.natAbs
    have hdigit : ∀ d : Fin 10, Text.isSpace (Numeral.digit d) = false ∧
        mark? (Numeral.digit d) = none ∧ Numeral.digit d ≠ '\x22' ∧ Numeral.digit d ≠ '-' ∧
        (Numeral.digit d).isDigit = true := by
      decide
    obtain ⟨hspace, hm, hquote, hminus, hisDigit⟩ := hdigit ⟨d, hd⟩
    have hn : Literal.number? ⟨false, Numeral.decimal i.natAbs, none, none⟩ = some (.whole i) := by
      simp only [Literal.number?, Numeral.decimal?_decimal, Option.getD_some]
      rw [if_neg (by decide), if_pos (by omega)]
      congr 2
      omega
    have hread := readNumber?_decimal hn hr
    rw [he] at hread ⊢
    refine Lexes.token hspace ?_
    simp only [readToken?, hm, if_neg hquote, if_neg hminus, hisDigit, if_true]
    rw [← List.cons_append, hread]
    rfl

/-! ## Values -/

mutual

/-- The tokens of a value. -/
def tokens : Json → List Token
  | .string t => [.string t]
  | .array items => .beginArray :: tokensItems items
  | .object members => .beginObject :: tokensMembers members
  | v => [.scalar v]

/-- The tokens of the items of an array behind its opening bracket, and of the closing one. -/
def tokensItems : List Json → List Token
  | [] => [.endArray]
  | [v] => tokens v ++ [.endArray]
  | v :: w :: items => tokens v ++ .comma :: tokensItems (w :: items)

/-- The tokens of the members of an object behind its opening brace, and of the closing one. -/
def tokensMembers : List (Text × Json) → List Token
  | [] => [.endObject]
  | [(k, v)] => .string k :: .colon :: (tokens v ++ [.endObject])
  | (k, v) :: m :: members =>
    .string k :: .colon :: (tokens v ++ .comma :: tokensMembers (m :: members))

end

/-- A character that is a token by itself, before a text. -/
theorem lexes_mark_append {c : Char} {k : Token} (hc : Text.isSpace c = false)
    (h : mark? c = some k) {u rest : Text} {ks : List Token} (hu : Lexes u ks rest) :
    Lexes (c :: u) (k :: ks) rest :=
  (Lexes.mark hc h (u ++ rest)).append hu

mutual

/-- **The text of a value is cut into its tokens**, if its numbers are. -/
theorem lexes_text : ∀ {v : Json}, (∀ n : Number, .number n ∈ v.parts → n.ReadsBack) →
    ∀ {rest : Text}, Breaks rest → Lexes v.text (tokens v) rest
  | .null, _, _, _ => Lexes.token (by decide) rfl
  | .bool true, _, _, _ => Lexes.token (by decide) rfl
  | .bool false, _, _, _ => Lexes.token (by decide) rfl
  | .number n, h, rest, hr => h n List.mem_cons_self rest hr
  | .string t, _, rest, _ => lexes_quote t rest
  | .array _, h, rest, _ =>
    lexes_mark_append (by decide) rfl
      (lexes_items (fun n hn => h n (List.mem_cons_of_mem _ hn)) rest)
  | .object _, h, rest, _ =>
    lexes_mark_append (by decide) rfl
      (lexes_members (fun n hn => h n (List.mem_cons_of_mem _ hn)) rest)

theorem lexes_items : ∀ {items : List Json},
    (∀ n : Number, .number n ∈ partsItems items → n.ReadsBack) →
      ∀ rest, Lexes (textItems items) (tokensItems items) rest
  | [], _, rest => Lexes.mark (by decide) rfl rest
  | [_], h, rest =>
    (lexes_text (fun n hn => h n (List.mem_append_left _ hn)) (breaks_cons (by decide) _)).append
      (Lexes.mark (by decide) rfl rest)
  | _ :: _ :: _, h, rest =>
    (lexes_text (fun n hn => h n (List.mem_append_left _ hn)) (breaks_cons (by decide) _)).append
      (lexes_mark_append (by decide) rfl
        (lexes_items (fun n hn => h n (List.mem_append_right _ hn)) rest))

theorem lexes_members : ∀ {members : List (Text × Json)},
    (∀ n : Number, .number n ∈ partsMembers members → n.ReadsBack) →
      ∀ rest, Lexes (textMembers members) (tokensMembers members) rest
  | [], _, rest => Lexes.mark (by decide) rfl rest
  | [(k, _)], h, rest =>
    (lexes_quote k _).append
      (lexes_mark_append (by decide) rfl
        ((lexes_text (fun n hn => h n (List.mem_append_left _ hn))
          (breaks_cons (by decide) _)).append (Lexes.mark (by decide) rfl rest)))
  | (k, _) :: _ :: _, h, rest =>
    (lexes_quote k _).append
      (lexes_mark_append (by decide) rfl
        ((lexes_text (fun n hn => h n (List.mem_append_left _ hn))
          (breaks_cons (by decide) _)).append
            (lexes_mark_append (by decide) rfl
              (lexes_members (fun n hn => h n (List.mem_append_right _ hn)) rest))))

end

/-- **The text of a value has its tokens**, and no others. -/
theorem tokens?_text {v : Json} (h : ∀ n : Number, .number n ∈ v.parts → n.ReadsBack) :
    tokens? v.text = some (tokens v) :=
  (lexes_text h breaks_nil).tokens?

/-! ## What can be read back -/

mutual

/-- A value that can be read back: it nests at most `room` deep, names are not repeated in an
    object, and its numbers are read back. -/
def Legible (room : Nat) : Json → Prop
  | .number n => n.ReadsBack
  | .array items => 0 < room ∧ LegibleItems (room - 1) items
  | .object members =>
    0 < room ∧ (members.map (·.1)).Nodup ∧ LegibleMembers (room - 1) members
  | _ => True

/-- Items that can be read back. -/
def LegibleItems (room : Nat) : List Json → Prop
  | [] => True
  | v :: items => Legible room v ∧ LegibleItems room items

/-- Members whose values can be read back. -/
def LegibleMembers (room : Nat) : List (Text × Json) → Prop
  | [] => True
  | (_, v) :: members => Legible room v ∧ LegibleMembers room members

end

mutual

/-- The numbers of a value that can be read back are read back. -/
theorem Legible.readsBack {room : Nat} : ∀ {v : Json}, Legible room v →
    ∀ n : Number, .number n ∈ v.parts → n.ReadsBack
  | .null, _, _, hn | .bool _, _, _, hn | .string _, _, _, hn => by simp [parts] at hn
  | .number _, h, _, hn => by
    cases List.mem_singleton.1 hn
    exact h
  | .array _, h, n, hn => LegibleItems.readsBack h.2 n (by simpa [parts] using hn)
  | .object _, h, n, hn => LegibleMembers.readsBack h.2.2 n (by simpa [parts] using hn)

theorem LegibleItems.readsBack {room : Nat} : ∀ {items : List Json}, LegibleItems room items →
    ∀ n : Number, .number n ∈ partsItems items → n.ReadsBack
  | _ :: _, h, n, hn =>
    (List.mem_append.1 hn).elim (Legible.readsBack h.1 n) (LegibleItems.readsBack h.2 n)

theorem LegibleMembers.readsBack {room : Nat} : ∀ {members : List (Text × Json)},
    LegibleMembers room members → ∀ n : Number, .number n ∈ partsMembers members → n.ReadsBack
  | _ :: _, h, n, hn =>
    (List.mem_append.1 hn).elim (Legible.readsBack h.1 n) (LegibleMembers.readsBack h.2 n)

end

end SessionGateway.Json
