/-
  Answers in another format — what becomes of an XML body that is answered as JSON.

  A document is read as a proper object, of any depth.  Its JSON text is read back as the same
  object as long as that nests no deeper than the JSON reader goes; beyond that depth the answer
  is refused, although the document was accepted.

  * `Payload.decode_jsonText`: the JSON text of a proper value, read up to the limit;
  * `Payload.decode_answered`: a body that is read as XML, answered as JSON and read again;
  * `Xml.read_tower`: elements in elements, as many as one likes, are a document.
-/
import SessionGateway.Proofs.Json.Nesting
import SessionGateway.Proofs.Payload.Integers
import SessionGateway.Proofs.Xml.Proper

namespace SessionGateway

namespace Payload

/-! ## Answers -/

theorem decode_json_eq_error {header : Option Text} {body : Bytes} {charset : Charset}
    (h : Json.parse? (charset.decode body) = none) :
    decode .json header body charset = .error .json := by
  rw [decode.eq_2 _ _ _ _ (by decide), ofBody, h]

/-- **The JSON text of a value** is read as the value up to the limit, and refused beyond it. -/
theorem decode_jsonText {v : Json} (hnull : v ≠ .null) (hproper : v.Proper)
    (hfloats : v.FloatsReadBack) (header : Option Text) :
    decode .json header (Charset.utf8.encode (Encoded.jsonText (.value v))) .utf8 =
      if v.depth ≤ Json.depthLimit then .ok (.value v) else .error .json := by
  have hread : Charset.utf8.decode (Charset.utf8.encode (Encoded.jsonText (.value v))) = v.text := by
    rw [Encoded.jsonText_of_ne_null hnull,
      Charset.decode_encode_of_holds (Json.lt_of_mem_head?_text v) fun c _ => Charset.holds_utf8 c]
  have hparse := Json.parse?_text_proper hproper hfloats
  rw [← hread] at hparse
  split
  · next hdepth =>
    rw [if_pos hdepth] at hparse
    exact decode_json_eq_ok_iff.2 hparse
  · next hdepth =>
    rw [if_neg hdepth] at hparse
    exact decode_json_eq_error hparse

end Payload

/-! ## Towers -/

namespace Xml

/-- An element `a` without content, inside as many others. -/
def tower : Nat → Text
  | 0 => "<a/>".toList
  | n + 1 => wrap ['a'] (tower n)

/-- The value of the elements inside the outermost one of a tower. -/
def towerValue : Nat → Json
  | 0 => .string []
  | n + 1 => .object [(['a'], towerValue n)]

theorem depth_towerValue (n : Nat) : (towerValue n).depth = n := by
  induction n with
  | zero => rfl
  | succ n ih => rw [towerValue, Json.depth, Json.depthMembers, Json.depthMembers, ih, Nat.max_zero]

theorem number_notMem_towerValue (n : Nat) (x : Json.Number) : .number x ∉ (towerValue n).parts := by
  induction n with
  | zero => simp [towerValue, Json.parts]
  | succ n ih => simpa [towerValue, Json.parts, Json.partsMembers] using ih

theorem reads_tower (n : Nat) : Reads Anything (tower n) (accumulate ['a'] (towerValue n)) := by
  have hname : isLabel ['a'] = true := by decide
  induction n with
  | zero => exact Reads.empty hname
  | succ n ih => exact Reads.wrap hname (ih.mono fun _ _ => trivial)

/-- **A tower is a document of its height.** -/
theorem read_tower (n : Nat) : read (tower n) = .ok (towerValue (n + 1)) := by
  have htag : AtTag (tower n) := by cases n <;> rfl
  have hreads : Reads AtTag (tower n) (accumulate ['a'] (towerValue n)) :=
    (reads_tower n).mono fun _ _ => trivial
  rw [hreads.document_of_atTag htag]
  rfl

end Xml

namespace Payload

/-! ## Bodies -/

/-- **What is accepted as XML is answered as JSON**, and the answer is accepted exactly if the value
    nests at most 127 deep; then it is that value. -/
theorem decode_answered {header : Option Text} {body : Bytes} {charset : Charset} {p : Payload}
    (h : decode .xml header body charset = .ok p) (hfloats : p.toJson.FloatsReadBack) :
    ∃ e, Encoded.structured p .json .utf8 none = .ok e ∧
      ∀ header', decode .json header' e.body .utf8 =
        if p.toJson.depth ≤ 127 then .ok p else .error .json := by
  obtain ⟨v, rfl, hv⟩ := decode_xml_eq_ok_iff.1 h
  obtain ⟨hproper, ms, hms⟩ := Xml.proper_of_read hv
  have hnull : v ≠ .null := by
    rw [hms]
    nofun
  rw [toJson_value] at hfloats ⊢
  exact ⟨_, Encoded.structured_json v .utf8, decode_jsonText hnull hproper hfloats⟩

/-- Elements of one name, with a float and with a character beyond ASCII. -/
theorem decode_answered_half :
    let half : Binary64 := ⟨false, 4503599627370496, -53⟩
    let v : Json := .object [(['r'],
      .object [(['x'], .array [.number (.float half), .string "é".toList])])]
    let body := Charset.latin1.encode "<r><x>0.5</x><x>é</x></r>".toList
    ∃ e, Encoded.structured (.value v) .json .utf8 none = .ok e ∧
      decode .xml none body .latin1 = .ok (.value v) ∧
      decode .json none e.body .utf8 = .ok (.value v) := by
  intro half v body
  have hvalue : Xml.coerce "0.5".toList = .number (.float half) :=
    Json.isNumber_eq_true_iff.1 (by decide +kernel)
  have hname : Xml.isLabel ['x'] = true ∧ Xml.isLabel ['r'] = true := by decide
  have hhalf : Xml.Reads Xml.Anything "<x>0.5</x>".toList
      (Xml.accumulate ['x'] (.number (.float half))) := by
    rw [← hvalue]
    exact Xml.Reads.text hname.1 (t := "0.5".toList) (by decide) (by decide)
  have haccent : Xml.Reads Xml.Anything "<x>é</x>".toList (Xml.accumulate ['x'] (.string ['é'])) :=
    Xml.Reads.text hname.1 (t := "é".toList) (by decide) (by decide)
  have hroot : Xml.Reads Xml.AtTag "<r><x>0.5</x><x>é</x></r>".toList _ :=
    (Xml.Reads.wrap hname.2 ((hhalf.append haccent fun _ _ => trivial).mono fun _ _ => trivial)).mono
      fun _ _ => trivial
  have hdecode : decode .xml none body .latin1 = .ok (.value v) := by
    have hhead : ∀ c ∈ "<r><x>0.5</x><x>é</x></r>".toList.head?, c.toNat < 128 := by
      rintro c ⟨⟩
      decide
    refine decode_xml_eq_ok_iff.2 ⟨v, rfl, ?_⟩
    rw [Charset.decode_encode_of_holds hhead (by decide)]
    exact hroot.document_of_atTag rfl
  have hfloats : (Payload.value v).toJson.FloatsReadBack := by
    intro x hx
    obtain rfl : x = half := by simpa [v, Json.parts, Json.partsMembers, Json.partsItems] using hx
    have hread : (Json.parse? (Json.Number.float half).text).any (Json.isNumber (.float half)) =
        true := by
      decide +kernel
    obtain ⟨w, hw, hn⟩ := (Option.any_eq_true _ _).1 hread
    rw [hw, Json.isNumber_eq_true_iff.1 hn]
  obtain ⟨e, he, hanswer⟩ := decode_answered hdecode hfloats
  exact ⟨e, he, hdecode, hanswer none⟩

theorem decode_tower (n : Nat) (header : Option Text) :
    decode .xml header (Charset.utf8.encode (Xml.tower n)) .utf8 =
      .ok (.value (Xml.towerValue (n + 1))) := by
  have hhead : ∀ c ∈ (Xml.tower n).head?, c.toNat < 128 := by
    cases n <;> simp [Xml.tower, Xml.wrap]
  refine decode_xml_eq_ok_iff.2 ⟨_, rfl, ?_⟩
  rw [Charset.decode_encode_of_holds hhead fun c _ => Charset.holds_utf8 c, Xml.read_tower]

/-- A tower of 128 elements is accepted, and its answer is not. -/
theorem decode_answer_refused :
    let body := Charset.utf8.encode (Xml.tower 127)
    ∃ v e, decode .xml none body .utf8 = .ok (.value v) ∧ v.FloatsReadBack ∧
      Encoded.structured (.value v) .json .utf8 none = .ok e ∧
      decode .json none e.body .utf8 = .error .json := by
  intro body
  have hread : decode .xml none body .utf8 = .ok (.value (Xml.towerValue 128)) :=
    decode_tower 127 none
  have hfloats : (Xml.towerValue 128).FloatsReadBack := fun x hx =>
    absurd hx (Xml.number_notMem_towerValue 128 (.float x))
  obtain ⟨w, hw, htower⟩ := decode_xml_eq_ok_iff.1 hread
  cases hw
  have hanswer := decode_jsonText (by nofun) (Xml.proper_of_read htower).1 hfloats none
  rw [Xml.depth_towerValue, if_neg (by decide)] at hanswer
  exact ⟨_, _, hread, hfloats, Encoded.structured_json _ .utf8, hanswer⟩

end Payload

end SessionGateway
