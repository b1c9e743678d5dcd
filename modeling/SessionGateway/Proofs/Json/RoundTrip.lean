/-
  The JSON round trip — a value that was written is read back.

  The reader is run over the tokens of a value.  In the place of a value it reads that value, and
  leaves what is open around it as it is (`run_tokens`); the items of an array and the members of
  an object follow with it.

  * `parse?_text`: a value that nests no deeper than the limit is read back from its text;
  * `parseBytes?_encode_text`: so it is from the octets of its text.
-/
import SessionGateway.Json.Parser
import SessionGateway.Proofs.Json.Tokens
import SessionGateway.Proofs.Text.Utf8

namespace SessionGateway.Json

namespace Reader

/-! ## One step -/

theorem step_beginArray {around : List Frame} (h : around.length < depthLimit) :
    step (.value around) .beginArray = some (.firstItem around) := by
  simp only [step, begin, enter, if_pos h]

theorem step_beginObject {around : List Frame} (h : around.length < depthLimit) :
    step (.value around) .beginObject = some (.firstName around) := by
  simp only [step, begin, enter, if_pos h]

/-- A value that is the first item is read as one behind other items. -/
theorem firstItem_tokens (v : Json) (around : List Frame) (js : List Token) :
    (tokens v ++ js).foldlM step (.firstItem around) =
      (tokens v ++ js).foldlM step (.value (.array [] :: around)) := by
  cases v <;> rfl

/-! ## Runs -/

section
variable {ks js : List Token} {s t : State}

theorem run_append (h : ks.foldlM step s = some t) :
    (ks ++ js).foldlM step s = js.foldlM step t := by
  rw [List.foldlM_append, h]
  rfl

theorem run_cons {k : Token} (h : step s k = some t) :
    (k :: js).foldlM step s = js.foldlM step t := by
  rw [List.foldlM_cons, h]
  rfl

end

mutual

/-- **The tokens of a value are read as that value**, inside anything that leaves it room. -/
theorem run_tokens {room : Nat} :
    ∀ {v : Json}, Legible room v → ∀ {around : List Frame}, around.length + room ≤ depthLimit →
      (tokens v).foldlM step (.value around) = some (.complete v around)
  | .null, _, _, _ => rfl
  | .bool _, _, _, _ => rfl
  | .number _, _, _, _ => rfl
  | .string _, _, _, _ => rfl
  | .array [], h, around, hd => by
    have hroom : 0 < room := h.1
    exact run_cons (step_beginArray (by omega))
  | .array (v :: items), h, around, hd => by
    have hroom : 0 < room := h.1
    have hitems : (tokensItems (v :: items)).foldlM step (.value (.array [] :: around)) =
      some (.complete (.array (v :: items)) around) := run_items [] h.2 (by omega)
    show (Token.beginArray :: tokensItems (v :: items)).foldlM step (.value around) = _
    rw [run_cons (step_beginArray (by omega)), ← hitems]
    cases items <;> exact firstItem_tokens v around _
  | .object [], h, around, hd => by
    have hroom : 0 < room := h.1
    exact run_cons (step_beginObject (by omega))
  | .object ((k, v) :: members), h, around, hd => by
    have hroom : 0 < room := h.1
    have hmembers : (tokensMembers ((k, v) :: members)).foldlM step (.name [] around) =
      some (.complete (.object ((k, v) :: members)) around) :=
        run_members [] h.2.2 h.2.1 (by omega)
    show (Token.beginObject :: tokensMembers ((k, v) :: members)).foldlM step (.value around) = _
    rw [run_cons (step_beginObject (by omega)), ← hmembers]
    cases members <;> rfl

/-- The items of an array, behind those that were read before. -/
theorem run_items {room : Nat} {around : List Frame} (done : List Json) :
    ∀ {v : Json} {items : List Json}, LegibleItems room (v :: items) →
      around.length + 1 + room ≤ depthLimit →
      (tokensItems (v :: items)).foldlM step (.value (.array done :: around)) =
        some (.complete (.array (done.reverse ++ v :: items)) around)
  | v, items, h, hd => by
    have hv : (tokens v).foldlM step (.value (.array done :: around)) =
      some (.complete v (.array done :: around)) := run_tokens h.1 hd
    cases items with
    | nil =>
      show (tokens v ++ [Token.endArray]).foldlM step _ = _
      rw [run_append hv, ← List.reverse_cons]
      rfl
    | cons w items =>
      show (tokens v ++ Token.comma :: tokensItems (w :: items)).foldlM step _ = _
      rw [run_append hv, run_cons rfl, run_items (v :: done) h.2 hd, List.reverse_cons,
        List.append_assoc]
      rfl

/-- The members of an object, behind those that were read before. -/
theorem run_members {room : Nat} {around : List Frame} (done : Members) :
    ∀ {k : Text} {v : Json} {members : List (Text × Json)},
      LegibleMembers room ((k, v) :: members) →
      ((done ++ (k, v) :: members).map (·.1)).Nodup →
      around.length + 1 + room ≤ depthLimit →
      (tokensMembers ((k, v) :: members)).foldlM step (.name done around) =
        some (.complete (.object (done ++ (k, v) :: members)) around)
  | k, v, members, h, hn, hd => by
    have hv : (tokens v).foldlM step (.value (.object done k :: around)) =
      some (.complete v (.object done k :: around)) := run_tokens h.1 hd
    have hk : k ∉ done.map (·.1) := by
      simp only [List.map_append, List.map_cons, List.nodup_append] at hn
      exact fun hk => hn.2.2 k hk k List.mem_cons_self rfl
    have hinsert : done.insert k v = done ++ [(k, v)] := Members.insert_of_notMem hk v
    cases members with
    | nil =>
      show (Token.string k :: Token.colon :: (tokens v ++ [Token.endObject])).foldlM step _ = _
      rw [run_cons rfl, run_cons rfl, run_append hv, ← hinsert]
      rfl
    | cons m members =>
      obtain ⟨k', v'⟩ := m
      have hn' : ((done ++ [(k, v)] ++ (k', v') :: members).map (·.1)).Nodup := by
        rwa [List.append_assoc]
      show (Token.string k :: Token.colon ::
        (tokens v ++ Token.comma :: tokensMembers ((k', v') :: members))).foldlM step _ = _
      rw [run_cons rfl, run_cons rfl, run_append hv, run_cons rfl, hinsert,
        run_members (done ++ [(k, v)]) h.2 hn' hd, List.append_assoc]
      rfl

end

end Reader

/-! ## Values -/

/-- **A value that was written is read back.** -/
theorem parse?_text {v : Json} (h : Legible depthLimit v) : parse? v.text = some v := by
  have hrun : (tokens v).foldlM Reader.step (.value []) = some (.complete v []) :=
    Reader.run_tokens h (by simp)
  rw [parse?, tokens?_text h.readsBack, Option.bind_some, ofTokens?, hrun]
  rfl

/-- A value is read back from the octets of its text. -/
theorem parseBytes?_encode_text {v : Json} (h : Legible depthLimit v) :
    parseBytes? (Utf8.encode v.text) = some v := by
  rw [parseBytes?, Utf8.decode?_encode, Option.bind_some, parse?_text h]

end SessionGateway.Json
