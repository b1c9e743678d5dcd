/-
  Whole numbers in two formats — one numeral in a JSON body and in an XML body.

  JSON reads the whole numbers of sixty-four bits as they are, with a sign or without one.  XML
  reads those with a sign; a greater one becomes the float nearest to it, which is another value,
  and all numbers near it become the same.

  * `Binary64.exists_ofRatio`: a whole number of sixty-four bits has a nearest float;
  * `coerce_integer_of_large`: a numeral beyond the words with a sign is read as a float;
  * `read_wrap`: a numeral alone in an element, with white space around;
  * `whole_alike_iff`: the two bodies are the same value exactly if the number fits a word with a
    sign.
-/
import Mathlib.Algebra.Group.Nat.Defs
import SessionGateway.Proofs.Json.Integers
import SessionGateway.Proofs.Payload.Describing
import SessionGateway.Proofs.Xml.RoundTrip

namespace SessionGateway

/-! ## The nearest float -/

namespace Numeral

theorem length_decimal_le {n k : Nat} (h : n < 10 ^ (k + 1)) : (decimal n).length ≤ k + 1 := by
  induction k generalizing n with
  | zero =>
    rw [Nat.zero_add, pow_one] at h
    rw [decimal, if_pos h, List.length_singleton]
  | succ k ih =>
    rw [decimal]
    split
    · rw [List.length_singleton]
      omega
    · have hdiv : n / 10 < 10 ^ (k + 1) := by
        rw [Nat.div_lt_iff_lt_mul (by decide), ← Nat.pow_succ]
        exact h
      rw [List.length_append, List.length_singleton]
      exact Nat.succ_le_succ (ih hdiv)

end Numeral

namespace Binary64

/-- **A whole number of sixty-four bits has a nearest float.** -/
theorem exists_ofRatio {n : Nat} (h : n ≤ Numeral.max64) :
    ∃ x, ofRatio n 1 = some x ∧ x.negative = false := by
  by_cases hn : n = 0
  · exact ⟨zero false, by rw [ofRatio, if_pos hn], rfl⟩
  have hlog : n.log2 < 64 := (Nat.log2_lt hn).2 (Nat.lt_succ_of_le h)
  have hexponent : exponentOf n 1 ≤ 11 := by
    have hone : Nat.log2 1 = 0 := by decide
    simp only [exponentOf, leastExponent, hone]
    split <;> omega
  rw [ofRatio, if_neg hn]
  dsimp only
  split <;> exact ⟨_, if_pos (by simp only [greatestExponent]; omega), rfl⟩

theorem ofDecimal_whole {n : Nat} (hn : n ≠ 0) (h : n ≤ Numeral.max64) :
    ofDecimal n 0 = ofRatio n 1 := by
  have hlength : (Numeral.decimal n).length ≤ 20 :=
    Numeral.length_decimal_le (Nat.lt_of_le_of_lt h (by decide))
  have hsmall : ¬ (n = 0 ∨ ((Numeral.decimal n).length : Int) + 0 < -330) := by omega
  have hlarge : ¬ 330 < ((Numeral.decimal n).length : Int) + 0 := by omega
  rw [ofDecimal]
  rw [if_neg hsmall, if_neg hlarge, if_neg (by decide)]
  simp

end Binary64

namespace Xml

/-- A numeral is read as the float nearest to its number. -/
theorem float?_decimal (n : Nat) :
    float? (Numeral.decimal n) = (Binary64.ofDecimal n 0).map (·.withSign false) := by
  have hsign : Numeral.sign (Numeral.decimal n) = (false, Numeral.decimal n) := by
    have hmark : ∀ d : Fin 10, Numeral.digit d ≠ '-' ∧ Numeral.digit d ≠ '+' := by decide
    obtain ⟨d, t, hd, he, -⟩ := Numeral.decimal_eq_cons n
    obtain ⟨hminus, hplus⟩ := hmark ⟨d, hd⟩
    rw [he, Numeral.sign.eq_3 _ (fun u hu => hminus (List.cons.inj hu).1)
      fun u hu => hplus (List.cons.inj hu).1]
  have hleading : Numeral.leading (Numeral.decimal n) = (Numeral.decimal n, []) := by
    have h := Json.leading_append (fun _ => Json.isDigit_of_mem_decimal (n := n)) Json.breaks_nil
    rwa [List.append_nil] at h
  have hfraction : fraction [] = ([], []) := rfl
  have hexponent : Numeral.exponent? [] = some (none, []) := rfl
  simp only [float?, hsign, hleading, hfraction, List.append_nil, Numeral.decimal?_decimal,
    hexponent, Option.bind_eq_bind, Option.bind_some, List.isEmpty_nil, if_true,
    List.length_nil, Int.natCast_zero, Int.sub_zero]

/-- **A numeral beyond the words with a sign is read as a float.** -/
theorem coerce_integer_of_large {i : Int} (hlow : 0x8000000000000000 ≤ i)
    (hhigh : i ≤ Numeral.max64) :
    ∃ x, Binary64.ofRatio i.natAbs 1 = some x ∧
      coerce (Numeral.integer i) = .number (.float x) := by
  obtain ⟨x, hx, hsign⟩ := Binary64.exists_ofRatio (n := i.natAbs) (by omega)
  refine ⟨x, hx, coerce_integer_of_number? ?_⟩
  have hdecimal : Numeral.integer i = Numeral.decimal i.natAbs := by
    rw [Numeral.integer, if_neg (by omega)]
  have hpositive : x.withSign false = x := by rw [Binary64.withSign, ← hsign]
  have hfloat : float? (Numeral.integer i) = some x := by
    rw [hdecimal, float?_decimal, Binary64.ofDecimal_whole (by omega) (by omega), hx,
      Option.map_some, hpositive]
  have hfits : Numeral.fitsSigned64 i = false := decide_eq_false (by omega)
  rw [number?, if_pos (looksNumeric_integer i), Numeral.signed?_integer, Option.filter_some, hfits,
    hfloat]
  rfl

/-! ## Numerals in an element -/

theorem isNumeric_of_mem_integer {i : Int} : ∀ c ∈ Numeral.integer i, Json.isNumeric c = true :=
  Json.isNumeric_of_mem_text (.whole i)

/-- A numeral with white space around is a run of text without the white space. -/
theorem run?_padded {before after : Text} (hbefore : before.all Text.isSpace = true)
    (hafter : after.all Text.isSpace = true) (i : Int) :
    run? (before ++ (Numeral.integer i ++ after)) = some [.text (Numeral.integer i)] := by
  have hamp : '&' ∉ Numeral.integer i := fun h => absurd (isNumeric_of_mem_integer _ h) (by decide)
  have hne : (Numeral.integer i).isEmpty = false := by
    obtain ⟨c, t, he, -⟩ := integer_eq_cons i
    rw [he]
    rfl
  rw [run?, trimBy_append_append hbefore hafter, trimBy_eq_self (isFlush_integer i), hne,
    unescape?_eq_self hamp]
  rfl

theorem lt_notMem_padded {before after : Text} (hbefore : before.all Text.isSpace = true)
    (hafter : after.all Text.isSpace = true) (i : Int) :
    '<' ∉ before ++ (Numeral.integer i ++ after) := by
  rw [List.all_eq_true] at hbefore hafter
  simp only [List.mem_append, not_or]
  refine ⟨fun h => ?_, fun h => ?_, fun h => ?_⟩
  · exact absurd (hbefore _ h) (by decide)
  · exact absurd (isNumeric_of_mem_integer _ h) (by decide)
  · exact absurd (hafter _ h) (by decide)

/-- **A numeral alone in an element** is the value of the only member of the document. -/
theorem read_wrap {t name : Text} {i : Int} (ht : Json.parse? t = some (.number (.whole i)))
    (hname : isLabel name = true) (hcontent : name ≠ contentKey) :
    read (wrap name t) = .ok (.object [(name, coerce (Numeral.integer i))]) := by
  obtain ⟨-, -, before, after, rfl, hbefore, hafter⟩ := Json.parse?_eq_whole_iff.1 ht
  have hrun : Reads AtTag (before ++ (Numeral.integer i ++ after))
      (accumulate contentKey (coerce (Numeral.integer i))) :=
    Reads.piece (lt_notMem_padded hbefore hafter i) (run?_padded hbefore hafter i)
  have hroot : Reads AtTag (wrap name (before ++ (Numeral.integer i ++ after)))
      (accumulate name (coerce (Numeral.integer i))) :=
    (Reads.wrap hname hrun).mono fun _ _ => trivial
  have hswap : Json.Members.swapRemove contentKey [(name, coerce (Numeral.integer i))] =
      [(name, coerce (Numeral.integer i))] :=
    swapRemove_eq_self (by simpa using Ne.symm hcontent)
  rw [hroot.document_of_atTag rfl]
  exact congrArg (fun ms => Except.ok (Json.object ms)) hswap

end Xml

/-! ## Bodies -/

namespace Payload

theorem decode_xml_eq_ok_iff {header : Option Text} {body : Bytes} {charset : Charset}
    {p : Payload} :
    decode .xml header body charset = .ok p ↔
      ∃ v, p = .value v ∧ Xml.read (charset.decode body) = .ok v := by
  rw [decode.eq_2 _ _ _ _ (by decide), ofBody]
  cases Xml.read (charset.decode body) <;> simp [eq_comm]

section
variable {t name : Text} {i : Int} (ht : Json.parse? t = some (.number (.whole i)))
  {charset : Charset} (hheld : ∀ c ∈ name, charset.Holds c) (header : Option Text)
include ht hheld

omit hheld in
/-- A text that is read as a whole number is ASCII. -/
theorem lt_of_mem_whole : ∀ c ∈ t, c.toNat < 128 := by
  obtain ⟨-, -, before, after, rfl, hbefore, hafter⟩ := Json.parse?_eq_whole_iff.1 ht
  have hspace : ∀ c, Text.isSpace c = true → c.toNat < 128 := by
    intro c hc
    rcases Text.isSpace_iff.1 hc with rfl | rfl | rfl | rfl <;> decide
  rw [List.all_eq_true] at hbefore hafter
  intro c hc
  rcases List.mem_append.1 hc with hc | hc
  · exact hspace c (hbefore c hc)
  rcases List.mem_append.1 hc with hc | hc
  · exact Json.lt_of_isNumeric (Xml.isNumeric_of_mem_integer c hc)
  · exact hspace c (hafter c hc)

/-- **A JSON body with a whole number** is decoded to that number. -/
theorem decode_json_whole :
    decode .json header (charset.encode (Json.memberText name t)) charset =
      .ok (.value (.object [(name, .number (.whole i))])) := by
  have hquote : (Json.quote name).map charset.shown = Json.quote name := by
    rw [Json.map_quote charset.narrows_shown,
      List.map_congr_left fun c hc => Charset.shown_eq_self_iff.2 (hheld c hc)]
    exact congrArg Json.quote (List.map_id name)
  have hvalue : t.map charset.shown = t := charset.narrows_shown.map_ascii (lt_of_mem_whole ht)
  have hascii := charset.narrows_shown.ascii
  have hshown : (Json.memberText name t).map charset.shown = Json.memberText name t := by
    simp only [Json.memberText, List.map_cons, List.map_append, hquote, hvalue, List.map_nil,
      hascii '\x7b' (by decide), hascii ':' (by decide), hascii '\x7d' (by decide)]
  rw [decode_json_eq_ok_iff, charset.decode_encode (by simp [Json.memberText]), hshown]
  exact Json.parse?_memberText ht name

/-- **An XML body with a whole number** is decoded to what its numeral stands for. -/
theorem decode_xml_whole (hname : Xml.isLabel name = true) (hcontent : name ≠ Xml.contentKey) :
    decode .xml header (charset.encode (Xml.wrap name t)) charset =
      .ok (.value (.object [(name, Xml.coerce (Numeral.integer i))])) := by
  have hascii : ∀ c, c.toNat < 128 → charset.Holds c := fun _ => Charset.holds_of_lt
  have hall : ∀ c ∈ Xml.wrap name t, charset.Holds c := by
    simp only [Xml.wrap, List.forall_mem_cons, List.forall_mem_append]
    exact ⟨hascii _ (by decide), hheld, hascii _ (by decide),
      fun c hc => hascii c (lt_of_mem_whole ht c hc), hascii _ (by decide), hascii _ (by decide),
      hheld, hascii _ (by decide), List.forall_mem_nil _⟩
  refine decode_xml_eq_ok_iff.2 ⟨_, rfl, ?_⟩
  rw [charset.decode_encode_of_holds (by simp [Xml.wrap]) hall]
  exact Xml.read_wrap ht hname hcontent

end

/-- **Whole numbers mean the same in both formats** exactly if they fit a word with a sign.  Every
    text that JSON reads as a whole number is that number as the member of an object; alone in an
    element of the same name it is the same value if it is below 2⁶³, and else the nearest
    float. -/
theorem whole_alike_iff {t name : Text} {i : Int}
    (ht : Json.parse? t = some (.number (.whole i))) (hname : Xml.isLabel name = true)
    (hcontent : name ≠ Xml.contentKey) {charset : Charset} (hheld : ∀ c ∈ name, charset.Holds c)
    (header : Option Text) :
    decode .json header (charset.encode (Json.memberText name t)) charset =
        .ok (.value (.object [(name, .number (.whole i))])) ∧
      (decode .xml header (charset.encode (Xml.wrap name t)) charset =
          decode .json header (charset.encode (Json.memberText name t)) charset ↔
        i < 0x8000000000000000) ∧
      (0x8000000000000000 ≤ i → ∃ x, Binary64.ofRatio i.natAbs 1 = some x ∧
        decode .xml header (charset.encode (Xml.wrap name t)) charset =
          .ok (.value (.object [(name, .number (.float x))]))) := by
  obtain ⟨hlow, hhigh, -⟩ := Json.parse?_eq_whole_iff.1 ht
  rw [decode_json_whole ht hheld, decode_xml_whole ht hheld header hname hcontent]
  refine ⟨rfl, ⟨fun he => ?_, fun hi => ?_⟩, fun hi => ?_⟩
  · by_contra hi
    obtain ⟨x, -, hx⟩ := Xml.coerce_integer_of_large (Int.not_lt.1 hi) hhigh
    rw [hx] at he
    cases he
  · rw [Xml.coerce_integer (decide_eq_true ⟨hlow, hi⟩)]
  · obtain ⟨x, hx, hcoerce⟩ := Xml.coerce_integer_of_large hi hhigh
    exact ⟨x, hx, by rw [hcoerce]⟩

/-- The least whole number of all, with white space around, in ISO-8859-1. -/
theorem whole_alike_least :
    let t := " -9223372036854775808\n".toList
    decode .xml none (Charset.latin1.encode (Xml.wrap "größe".toList t)) .latin1 =
      decode .json none (Charset.latin1.encode (Json.memberText "größe".toList t)) .latin1 := by
  intro t
  have ht : Json.parse? t = some (.number (.whole (-0x8000000000000000))) := rfl
  have hname : Xml.isLabel "größe".toList = true := by decide
  have hheld : ∀ c ∈ "größe".toList, Charset.latin1.Holds c := by decide
  obtain ⟨-, hiff, -⟩ := whole_alike_iff ht hname (by decide) hheld none
  exact hiff.2 (by decide)

/-- The first whole number that does not fit a word with a sign. -/
theorem whole_rounded :
    let t := "9223372036854775808".toList
    Json.parse? t = some (.number (.whole 0x8000000000000000)) ∧
      decode .xml none (Charset.utf8.encode (Xml.wrap "a".toList t)) .utf8 ≠
        decode .json none (Charset.utf8.encode (Json.memberText "a".toList t)) .utf8 := by
  intro t
  have ht : Json.parse? t = some (.number (.whole 0x8000000000000000)) := rfl
  refine ⟨ht, fun he => ?_⟩
  obtain ⟨x, -, hx⟩ := Xml.coerce_integer_of_large (i := 0x8000000000000000) (by decide) (by decide)
  rw [decode_json_whole ht (by decide), decode_xml_whole ht (by decide) none (by decide) (by decide),
    hx] at he
  cases he

end Payload

end SessionGateway
