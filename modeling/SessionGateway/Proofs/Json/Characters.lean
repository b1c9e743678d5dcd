/-
  Characters of a text — what becomes of a JSON text if some of its characters are replaced.

  A replacement (`Narrows`) keeps the ASCII characters and writes a question mark for some of the
  others.  All that is special in a JSON text is ASCII, so the text with replaced characters is that
  of the value with replaced characters.  What is read from tokens has the characters of the tokens
  only, so a value with other characters is never read from them.

  * `map_text`: the replacement in the text of a value;
  * `Reader.allChars_step`: each step of the reader keeps to the characters of the tokens;
  * `parse?_map_text_iff`: a value is read back from its replaced text exactly if no character of it
    was replaced.
-/
import SessionGateway.Proofs.Json.Numbers
import SessionGateway.Proofs.Json.RoundTrip

namespace SessionGateway.Json

/-! ## Replacing characters -/

/-- A replacement of characters: ASCII stays, and what does not stay becomes a question mark. -/
structure Narrows (f : Char → Char) : Prop where
  ascii : ∀ c, c.toNat < 128 → f c = c
  others : ∀ c, f c = c ∨ f c = '?'

theorem escapeChar_eq_self {c : Char} (h : 128 ≤ c.toNat) : escapeChar c = [c] := by
  have hne : ∀ d : Char, d.toNat < 128 → c ≠ d := by
    rintro d hd rfl
    omega
  unfold escapeChar
  rw [if_neg (hne _ (by decide)), if_neg (hne _ (by decide)), if_neg (hne _ (by decide)),
    if_neg (hne _ (by decide)), if_neg (hne _ (by decide)), if_neg (hne _ (by decide)),
    if_neg (hne _ (by decide)), if_neg (by omega)]

theorem lt_of_mem_escapeChar {c : Char} (h : c.toNat < 128) :
    ∀ d ∈ escapeChar c, d.toNat < 128 := by
  have hd : ∀ n : Fin 128, ((escapeChar (Char.ofNat n.val)).all fun d => d.toNat < 128) = true := by
    decide +kernel
  have hc := hd ⟨c.toNat, h⟩
  rw [Char.ofNat_toNat] at hc
  simpa using hc

section
variable {f : Char → Char} (hf : Narrows f)
include hf

theorem Narrows.map_ascii {t : Text} (h : ∀ c ∈ t, c.toNat < 128) : t.map f = t :=
  (List.map_congr_left fun c hc => hf.ascii c (h c hc)).trans (List.map_id t)

theorem map_escapeChar (c : Char) : (escapeChar c).map f = escapeChar (f c) := by
  by_cases hc : c.toNat < 128
  · rw [hf.ascii c hc, hf.map_ascii (lt_of_mem_escapeChar hc)]
  · rw [escapeChar_eq_self (by omega)]
    rcases hf.others c with h | h <;> rw [List.map_singleton, h]
    · rw [escapeChar_eq_self (by omega)]
    · rfl

theorem map_quote (t : Text) : (quote t).map f = quote (t.map f) := by
  have hquote : f '\x22' = '\x22' := hf.ascii _ (by decide)
  simp only [quote, List.map_cons, List.map_append, List.map_nil, hquote, List.map_flatMap,
    List.flatMap_map, map_escapeChar hf]

mutual

/-- **A replacement in the text of a value** is one in its strings and names. -/
theorem map_text : ∀ v : Json, v.text.map f = (v.mapText f).text
  | .null => hf.map_ascii (by decide)
  | .bool true => hf.map_ascii (by decide)
  | .bool false => hf.map_ascii (by decide)
  | .number n => hf.map_ascii fun c hc => lt_of_isNumeric (isNumeric_of_mem_text n c hc)
  | .string t => map_quote hf t
  | .array items => by
    have hbegin : f '[' = '[' := hf.ascii _ (by decide)
    simp only [text, mapText, List.map_cons, hbegin, map_textItems items]
  | .object members => by
    have hbegin : f '\x7b' = '\x7b' := hf.ascii _ (by decide)
    simp only [text, mapText, List.map_cons, hbegin, map_textMembers members]

theorem map_textItems : ∀ items : List Json,
    (textItems items).map f = textItems (mapItems f items)
  | [] => hf.map_ascii (by decide)
  | [v] => by
    have hend : f ']' = ']' := hf.ascii _ (by decide)
    simp only [textItems, mapItems, List.map_append, map_text v, List.map_singleton, hend]
  | v :: w :: items => by
    have hcomma : f ',' = ',' := hf.ascii _ (by decide)
    have hrest := map_textItems (w :: items)
    simp only [mapItems] at hrest
    simp only [textItems, mapItems, List.map_append, map_text v, List.map_cons, hcomma, hrest]

theorem map_textMembers : ∀ members : List (Text × Json),
    (textMembers members).map f = textMembers (mapMembers f members)
  | [] => hf.map_ascii (by decide)
  | [(k, v)] => by
    have hcolon : f ':' = ':' := hf.ascii _ (by decide)
    have hend : f '\x7d' = '\x7d' := hf.ascii _ (by decide)
    simp only [textMembers, mapMembers, List.map_append, map_quote hf, map_text v, List.map_cons,
      List.map_nil, hcolon, hend]
  | (k, v) :: m :: members => by
    have hcolon : f ':' = ':' := hf.ascii _ (by decide)
    have hcomma : f ',' = ',' := hf.ascii _ (by decide)
    have hrest := map_textMembers (m :: members)
    simp only [mapMembers] at hrest
    simp only [textMembers, mapMembers, List.map_append, map_quote hf, map_text v, List.map_cons,
      hcolon, hcomma, hrest]

end

end

/-! ## Characters of what is read -/

section
variable {P : Char → Prop}

/-- Every character of a token has a property. -/
def Token.AllChars (P : Char → Prop) : Token → Prop
  | .string t => ∀ c ∈ t, P c
  | .scalar v => v.AllChars P
  | _ => True

namespace Reader

/-- Every character of an open array or object has a property. -/
def Frame.AllChars (P : Char → Prop) : Frame → Prop
  | .array items => (Json.array items).AllChars P
  | .object members name => (Json.object members).AllChars P ∧ ∀ c ∈ name, P c

/-- Every character that was read has a property. -/
def State.AllChars (P : Char → Prop) : State → Prop
  | .value around | .firstItem around | .firstName around => ∀ fr ∈ around, fr.AllChars P
  | .name members around => (Json.object members).AllChars P ∧ ∀ fr ∈ around, fr.AllChars P
  | .colon members n around =>
    ((Json.object members).AllChars P ∧ ∀ c ∈ n, P c) ∧ ∀ fr ∈ around, fr.AllChars P
  | .complete v around => v.AllChars P ∧ ∀ fr ∈ around, fr.AllChars P

theorem allChars_insert {name : Text} {v : Json} {ms : Members}
    (hms : (object ms).AllChars P) (hname : ∀ c ∈ name, P c) (hv : v.AllChars P) :
    (object (ms.insert name v)).AllChars P := by
  rw [allChars_object] at hms ⊢
  induction ms with
  | nil => exact List.forall_mem_singleton.2 ⟨hname, hv⟩
  | cons m ms ih =>
    rw [List.forall_mem_cons] at hms
    rw [Members.insert]
    split
    · exact List.forall_mem_cons.2 ⟨⟨hms.1.1, hv⟩, hms.2⟩
    · exact List.forall_mem_cons.2 ⟨hms.1, ih hms.2⟩

theorem allChars_begin {around : List Frame} {k : Token} {s : State}
    (h : begin around k = some s) (ha : ∀ fr ∈ around, fr.AllChars P) (hk : k.AllChars P) :
    s.AllChars P := by
  cases k with
  | scalar v => cases h; exact ⟨hk, ha⟩
  | string t => cases h; exact ⟨allChars_string.2 hk, ha⟩
  | beginArray =>
    simp only [begin, enter] at h
    split at h
    · cases h; exact ha
    · cases h
  | beginObject =>
    simp only [begin, enter] at h
    split at h
    · cases h; exact ha
    · cases h
  | _ => cases h

/-- **A step of the reader keeps to the characters of the token.** -/
theorem allChars_step {s s' : State} {k : Token} (h : step s k = some s') (hs : s.AllChars P)
    (hk : k.AllChars P) : s'.AllChars P := by
  have hempty : (array []).AllChars P ∧ (object []).AllChars P := ⟨nofun, nofun⟩
  unfold step at h
  split at h
  · exact allChars_begin h hs hk
  · cases h; exact ⟨hempty.1, hs⟩
  · exact allChars_begin h (List.forall_mem_cons.2 ⟨hempty.1, hs⟩) hk
  · cases h; exact ⟨hempty.2, hs⟩
  · cases h; exact ⟨⟨hempty.2, hk⟩, hs⟩
  · cases h; exact ⟨⟨hs.1, hk⟩, hs.2⟩
  · cases h; exact List.forall_mem_cons.2 hs
  · cases h
    obtain ⟨hv, ha⟩ := hs
    rw [List.forall_mem_cons] at ha
    exact List.forall_mem_cons.2
      ⟨allChars_array.2 (List.forall_mem_cons.2 ⟨hv, allChars_array.1 ha.1⟩), ha.2⟩
  · cases h
    obtain ⟨hv, ha⟩ := hs
    rw [List.forall_mem_cons] at ha
    refine ⟨allChars_array.2 fun w hw => ?_, ha.2⟩
    rcases List.mem_cons.1 (List.mem_reverse.1 hw) with rfl | hw
    · exact hv
    · exact allChars_array.1 ha.1 w hw
  · cases h
    obtain ⟨hv, ha⟩ := hs
    rw [List.forall_mem_cons] at ha
    exact ⟨allChars_insert ha.1.1 ha.1.2 hv, ha.2⟩
  · cases h
    obtain ⟨hv, ha⟩ := hs
    rw [List.forall_mem_cons] at ha
    exact ⟨allChars_insert ha.1.1 ha.1.2 hv, ha.2⟩
  · cases h

theorem allChars_run {ks : List Token} {s s' : State} (h : ks.foldlM step s = some s')
    (hs : s.AllChars P) (hk : ∀ k ∈ ks, k.AllChars P) : s'.AllChars P := by
  induction ks generalizing s with
  | nil =>
    cases h
    exact hs
  | cons k ks ih =>
    rw [List.forall_mem_cons] at hk
    rw [List.foldlM_cons] at h
    obtain ⟨s₁, h₁, h⟩ := Option.bind_eq_some_iff.1 h
    exact ih h (allChars_step h₁ hs hk.1) hk.2

end Reader

/-- A value that is read has the characters of its tokens only. -/
theorem allChars_ofTokens? {ks : List Token} {v : Json} (h : ofTokens? ks = some v)
    (hk : ∀ k ∈ ks, k.AllChars P) : v.AllChars P := by
  obtain ⟨s, hs, hv⟩ := Option.bind_eq_some_iff.1 h
  have hall := Reader.allChars_run hs (show (Reader.State.value []).AllChars P from nofun) hk
  unfold Reader.State.result? at hv
  split at hv
  · cases hv
    exact hall.1
  · cases hv

mutual

/-- The tokens of a value have its characters only. -/
theorem allChars_tokens : ∀ {v : Json}, v.AllChars P → ∀ k ∈ tokens v, k.AllChars P
  | .null, h | .bool _, h | .number _, h => List.forall_mem_singleton.2 h
  | .string _, h => List.forall_mem_singleton.2 (allChars_string.1 h)
  | .array _, h => List.forall_mem_cons.2 ⟨trivial, allChars_tokensItems (allChars_array.1 h)⟩
  | .object _, h => List.forall_mem_cons.2 ⟨trivial, allChars_tokensMembers (allChars_object.1 h)⟩

theorem allChars_tokensItems : ∀ {items : List Json}, (∀ v ∈ items, v.AllChars P) →
    ∀ k ∈ tokensItems items, k.AllChars P
  | [], _ => List.forall_mem_singleton.2 trivial
  | [_], h =>
    List.forall_mem_append.2
      ⟨allChars_tokens (List.forall_mem_singleton.1 h), List.forall_mem_singleton.2 trivial⟩
  | _ :: _ :: _, h =>
    List.forall_mem_append.2
      ⟨allChars_tokens (List.forall_mem_cons.1 h).1, List.forall_mem_cons.2
        ⟨trivial, allChars_tokensItems (List.forall_mem_cons.1 h).2⟩⟩

theorem allChars_tokensMembers : ∀ {members : List (Text × Json)},
    (∀ m ∈ members, (∀ c ∈ m.1, P c) ∧ m.2.AllChars P) →
      ∀ k ∈ tokensMembers members, k.AllChars P
  | [], _ => List.forall_mem_singleton.2 trivial
  | [(_, _)], h =>
    have hm := List.forall_mem_singleton.1 h
    List.forall_mem_cons.2 ⟨hm.1, List.forall_mem_cons.2 ⟨trivial, List.forall_mem_append.2
      ⟨allChars_tokens hm.2, List.forall_mem_singleton.2 trivial⟩⟩⟩
  | (_, _) :: _ :: _, h =>
    have hm := (List.forall_mem_cons.1 h).1
    List.forall_mem_cons.2 ⟨hm.1, List.forall_mem_cons.2 ⟨trivial, List.forall_mem_append.2
      ⟨allChars_tokens hm.2, List.forall_mem_cons.2
        ⟨trivial, allChars_tokensMembers (List.forall_mem_cons.1 h).2⟩⟩⟩⟩

end

end

/-! ## Replaced texts -/

theorem Narrows.idempotent {f : Char → Char} (hf : Narrows f) (c : Char) : f (f c) = f c := by
  rcases hf.others c with h | h <;> rw [h]
  · exact h
  · exact hf.ascii _ (by decide)

/-- **A value is read back from its replaced text** exactly if no character of it was replaced. -/
theorem parse?_map_text_iff {f : Char → Char} (hf : Narrows f) {v : Json}
    (h : Legible depthLimit v) :
    parse? (v.text.map f) = some v ↔ v.AllChars fun c => f c = c := by
  rw [map_text hf]
  constructor
  · intro hread
    have htokens : tokens? (v.mapText f).text = some (tokens (v.mapText f)) :=
      tokens?_text fun n hn => h.readsBack n ((number_mem_mapText f v).1 hn)
    rw [parse?, htokens] at hread
    exact allChars_ofTokens? hread (allChars_tokens (allChars_mapText hf.idempotent v))
  · intro hall
    rw [mapText_eq_self hall, parse?_text h]

end SessionGateway.Json
