/-
  Self-describing responses — what the type of a JSON body says about it is true.

  The type of a JSON body names the kind and the charset in which it was written.  Whoever reads the
  body as it says gets the value, unless the charset lacks a character of it: then a question mark
  stands in the place of that character, and what is read is never taken for the value.

  * `charset?_responseType`: the charset is read again from the type of an answer;
  * `lt_of_mem_head?_text`: a JSON text begins with an ASCII character, so no mark is read in front of it;
  * `structured_describes`: a JSON body is read back as its type says, exactly if its charset holds
    every character of it.
-/
import SessionGateway.Payload.Decoding
import SessionGateway.Payload.Encoding
import SessionGateway.Proofs.Json.Characters
import SessionGateway.Proofs.Text.Charset

namespace SessionGateway

/-! ## Charsets -/

namespace Charset

theorem narrows_shown (charset : Charset) : Json.Narrows charset.shown where
  ascii _ h := shown_eq_self_iff.2 (holds_of_lt h)
  others c := by
    unfold shown
    split
    · exact .inl rfl
    · exact .inr rfl

/-- A name that is no spelling of another charset stands for UTF-8. -/
theorem ofName_of_unknown {t : Text} (h : ∀ a ∈ aliases, a.1 ≠ t.trim.lower) :
    ofName t = utf8 := by
  have hfind : aliases.find? (fun a => a.1 == t.trim.lower) = none :=
    List.find?_eq_none.2 fun a ha => by simpa using h a ha
  rw [ofName, hfind]
  rfl

end Charset

/-! ## Types and bodies -/

namespace Kind

/-- **The charset is read again from the type of an answer** that was written in it. -/
theorem charset?_responseType {kind : Kind} {type : Text} (h : kind.responseType? = some type)
    (charset : Charset) :
    Media.charset? (type ++ ";charset=".toList ++ charset.name) = some charset.name := by
  have htype : type ∈ ["application/json".toList, "application/xml".toList, "text/plain".toList] := by
    cases kind <;> cases h <;> decide
  have hread : ∀ type ∈ ["application/json".toList, "application/xml".toList, "text/plain".toList],
      Media.charset? (type ++ ";charset=".toList ++ charset.name) = some charset.name := by
    cases charset <;> decide
  exact hread type htype

end Kind

namespace Encoded

/-- The type of a JSON body in a charset. -/
def jsonType (charset : Charset) : Text :=
  "application/json".toList ++ ";charset=".toList ++ charset.name

theorem structured_json (v : Json) (charset : Charset) :
    structured (.value v) .json charset none =
      .ok ⟨jsonType charset, charset.encode (jsonText (.value v))⟩ := rfl

theorem ofHeader_jsonType (charset : Charset) :
    Kind.ofHeader (some (jsonType charset)) = .json := by
  cases charset <;> decide

theorem charset?_jsonType (charset : Charset) :
    Media.charset? (jsonType charset) = some charset.name := by
  have htype : Kind.json.responseType? = some "application/json".toList := rfl
  exact Kind.charset?_responseType htype charset

theorem jsonText_of_ne_null {v : Json} (h : v ≠ .null) : jsonText (.value v) = v.text := by
  have hn : (Payload.value v).isNull = false := by
    cases v with
    | null => exact absurd rfl h
    | _ => rfl
  rw [jsonText, hn, Payload.toJson_value]
  rfl

end Encoded

/-- The text of a value begins with an ASCII character. -/
theorem Json.lt_of_mem_head?_text (v : Json) : ∀ c ∈ v.text.head?, c.toNat < 128 := by
  have hmarks : ∀ c ∈ "ntf\x22[\x7b".toList, c.toNat < 128 := by decide
  intro c hc
  cases v with
  | null => exact hmarks c (by cases hc; decide)
  | bool b => cases b <;> exact hmarks c (by cases hc; decide)
  | number n => exact lt_of_isNumeric (isNumeric_of_mem_text n c (List.mem_of_mem_head? hc))
  | string t => exact hmarks c (by cases hc; decide)
  | array items => exact hmarks c (by cases hc; decide)
  | object members => exact hmarks c (by cases hc; decide)

theorem Payload.decode_json_eq_ok_iff {header : Option Text} {body : Bytes} {charset : Charset}
    {v : Json} :
    decode .json header body charset = .ok (.value v) ↔
      Json.parse? (charset.decode body) = some v := by
  rw [decode.eq_2 _ _ _ _ (by decide), ofBody]
  cases Json.parse? (charset.decode body) <;> simp

/-- **A JSON body describes itself**: read as its type says, it is the value that was written,
    exactly if the charset holds every character of the strings and names of the value.  A charset
    that is not known is UTF-8, which holds them all. -/
theorem Encoded.structured_describes {v : Json} (hnull : v ≠ .null) (hproper : v.Proper)
    (hdepth : v.depth ≤ 127) (hfloats : v.FloatsReadBack) (name : Text) :
    ∃ e, Encoded.structured (.value v) .json (Charset.ofName name) none = .ok e ∧
      Kind.ofHeader (some e.contentType) = .json ∧
      Media.charset? e.contentType = some (Charset.canonicalName name) ∧
      Charset.canonicalName name ∈
        ["UTF-8".toList, "ISO-8859-1".toList, "US-ASCII".toList] ∧
      ((∀ a ∈ Charset.aliases, a.1 ≠ name.trim.lower) →
        Charset.canonicalName name = "UTF-8".toList) ∧
      ∀ header,
        Payload.decode .json header e.body (Charset.ofName (Charset.canonicalName name)) =
            .ok (.value v) ↔
          v.AllChars (Charset.ofName name).Holds := by
  refine ⟨_, Encoded.structured_json v _, Encoded.ofHeader_jsonType _,
    Encoded.charset?_jsonType _, ?_, fun h => ?_, fun header => ?_⟩
  · unfold Charset.canonicalName
    cases Charset.ofName name <;> decide
  · rw [Charset.canonicalName, Charset.ofName_of_unknown h]
    rfl
  · rw [Charset.canonicalName, Charset.ofName_name]
    generalize Charset.ofName name = charset
    have hread : charset.decode (charset.encode (Encoded.jsonText (.value v))) =
        v.text.map charset.shown := by
      rw [Encoded.jsonText_of_ne_null hnull,
        charset.decode_encode (Json.lt_of_mem_head?_text v)]
    rw [Payload.decode_json_eq_ok_iff, hread,
      Json.parse?_map_text_iff charset.narrows_shown (hproper.legible hdepth hfloats)]
    simp only [Json.AllChars, Charset.shown_eq_self_iff]

/-- A value with a float and with a character beyond ASCII, in ISO-8859-1. -/
theorem Encoded.structured_describes_latin1 :
    let half : Binary64 := ⟨false, 4503599627370496, -53⟩
    let members : Json.Members := [("é".toList, .array [Json.ofNat 1, .number (.float half)])]
    ∃ e, Encoded.structured (.value (.object members)) .json (Charset.ofName " Latin1".toList)
        none = .ok e ∧
      Media.charset? e.contentType = some "ISO-8859-1".toList ∧
      Payload.decode .json (some e.contentType) e.body (Charset.ofName "ISO-8859-1".toList) =
        .ok (.value (.object members)) := by
  intro half members
  have hname : Charset.canonicalName " Latin1".toList = "ISO-8859-1".toList := by decide
  have hparts : (Json.object members).parts = [.object members,
      .array [Json.ofNat 1, .number (.float half)], Json.ofNat 1, .number (.float half)] := rfl
  have hproper : (Json.object members).Proper := by
    constructor
    · intro i hi
      obtain rfl : i = 1 := by simpa [hparts, Json.ofNat] using hi
      decide
    · intro ms hms
      obtain rfl : ms = members := by simpa [hparts, Json.ofNat] using hms
      decide
  have hfloats : (Json.object members).FloatsReadBack := by
    intro x hx
    obtain rfl : x = half := by simpa [hparts, Json.ofNat] using hx
    have hread : (Json.parse? (Json.Number.float half).text).any (Json.isNumber (.float half)) =
        true := by
      decide +kernel
    obtain ⟨w, hw, hn⟩ := (Option.any_eq_true _ _).1 hread
    rw [hw, Json.isNumber_eq_true_iff.1 hn]
  obtain ⟨e, he, -, hcharset, -, -, hread⟩ :=
    structured_describes (by simp) hproper (by decide) hfloats " Latin1".toList
  rw [hname] at hcharset hread
  refine ⟨e, he, hcharset, (hread _).2 ?_⟩
  show ∀ t ∈ (Json.object members).texts, ∀ c ∈ t, Charset.Holds .latin1 c
  decide

end SessionGateway
