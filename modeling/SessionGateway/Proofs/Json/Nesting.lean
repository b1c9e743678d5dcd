/-
  Nesting — values that are too deep to be read back.

  The reader opens an array or object only while fewer than `depthLimit` are open.  Its run over
  the tokens of a value ends behind a complete value, with the same frames around it, and it gets
  there only if the value fits into what is left of the limit (`fits_of_run`).

  * `fits_of_run`: a run over the tokens of a value, and what it tells about the depth;
  * `parse?_text_proper`: the text of a value is read as the value up to the limit, and refused
    beyond it.
-/
import SessionGateway.Proofs.Json.Numbers
import SessionGateway.Proofs.Json.RoundTrip

namespace SessionGateway.Json

namespace Reader

/-! ## Runs that succeed -/

theorem eq_of_enter {around : List Frame} {s t : State} (h : enter around s = some t) :
    around.length < depthLimit ∧ t = s := by
  rw [enter, Option.ite_none_right_eq_some] at h
  exact ⟨h.1, (Option.some.inj h.2).symm⟩

mutual

/-- **A run over the tokens of a value** passes a complete value inside the same frames, and the
    value fits into what they leave of the limit. -/
theorem fits_of_run {js : List Token} {s : State} :
    ∀ {v : Json} {around : List Frame}, around.length ≤ depthLimit →
      (tokens v ++ js).foldlM step (.value around) = some s →
      around.length + v.depth ≤ depthLimit ∧
        ∃ w, js.foldlM step (.complete w around) = some s
  | .null, _, hd, h | .bool _, _, hd, h | .number _, _, hd, h | .string _, _, hd, h =>
    ⟨hd, _, h⟩
  | .array items, around, _, h => by
    obtain ⟨t, ht, h⟩ := Option.bind_eq_some_iff.1 h
    obtain ⟨hroom, rfl⟩ := eq_of_enter ht
    rw [depth, Nat.add_comm _ 1, ← Nat.add_assoc]
    match items with
    | [] => exact ⟨hroom, _, h⟩
    | v :: items =>
      -- the end of the array aside, its first item is read as any other
      have hitems : (tokensItems (v :: items) ++ js).foldlM step (.value (.array [] :: around)) =
          (tokensItems (v :: items) ++ js).foldlM step (.firstItem around) := by
        cases items <;> rw [tokensItems, List.append_assoc, firstItem_tokens]
      exact fits_of_run_items hroom (hitems.trans h)
  | .object members, around, _, h => by
    obtain ⟨t, ht, h⟩ := Option.bind_eq_some_iff.1 h
    obtain ⟨hroom, rfl⟩ := eq_of_enter ht
    rw [depth, Nat.add_comm _ 1, ← Nat.add_assoc]
    match members with
    | [] => exact ⟨hroom, _, h⟩
    | m :: members =>
      have hmembers : (tokensMembers (m :: members) ++ js).foldlM step (.name [] around) =
          (tokensMembers (m :: members) ++ js).foldlM step (.firstName around) := by
        cases members <;> rfl
      exact fits_of_run_members hroom (hmembers.trans h)

/-- A run over the items of an array, behind those that were read before. -/
theorem fits_of_run_items {js : List Token} {s : State} {around : List Frame}
    (hd : around.length + 1 ≤ depthLimit) : ∀ {items done : List Json},
      (tokensItems items ++ js).foldlM step (.value (.array done :: around)) = some s →
      around.length + 1 + depthItems items ≤ depthLimit ∧
        ∃ w, js.foldlM step (.complete w around) = some s
  | [], _, h => nomatch h
  | [v], done, h => by
    have hframes : (Frame.array done :: around).length ≤ depthLimit := hd
    rw [tokensItems, List.append_assoc] at h
    obtain ⟨hv, w, hw⟩ := fits_of_run hframes h
    exact ⟨by simpa [depthItems] using hv, _, hw⟩
  | v :: w :: items, done, h => by
    have hframes : (Frame.array done :: around).length ≤ depthLimit := hd
    rw [tokensItems, List.append_assoc] at h
    obtain ⟨hv, u, hu⟩ := fits_of_run hframes h
    obtain ⟨hitems, hrest⟩ := fits_of_run_items hd hu
    rw [depthItems, ← Nat.add_max_add_left]
    exact ⟨Nat.max_le.2 ⟨hv, hitems⟩, hrest⟩

/-- A run over the members of an object, behind those that were read before. -/
theorem fits_of_run_members {js : List Token} {s : State} {around : List Frame}
    (hd : around.length + 1 ≤ depthLimit) : ∀ {members done : Members},
      (tokensMembers members ++ js).foldlM step (.name done around) = some s →
      around.length + 1 + depthMembers members ≤ depthLimit ∧
        ∃ w, js.foldlM step (.complete w around) = some s
  | [], _, h => nomatch h
  | [(k, v)], done, h => by
    have hframes : (Frame.object done k :: around).length ≤ depthLimit := hd
    have h : (tokens v ++ ([Token.endObject] ++ js)).foldlM step
        (.value (.object done k :: around)) = some s := by
      rwa [← List.append_assoc]
    obtain ⟨hv, w, hw⟩ := fits_of_run hframes h
    exact ⟨by simpa [depthMembers] using hv, _, hw⟩
  | (k, v) :: m :: members, done, h => by
    have hframes : (Frame.object done k :: around).length ≤ depthLimit := hd
    have h : (tokens v ++ (Token.comma :: tokensMembers (m :: members) ++ js)).foldlM step
        (.value (.object done k :: around)) = some s := by
      rwa [← List.append_assoc]
    obtain ⟨hv, u, hu⟩ := fits_of_run hframes h
    obtain ⟨hmembers, hrest⟩ := fits_of_run_members hd hu
    rw [depthMembers, ← Nat.add_max_add_left]
    exact ⟨Nat.max_le.2 ⟨hv, hmembers⟩, hrest⟩

end

end Reader

/-! ## Values -/

/-- The tokens of a value that is too deep are refused. -/
theorem depth_le_of_ofTokens? {v w : Json} (h : ofTokens? (tokens v) = some w) :
    v.depth ≤ depthLimit := by
  obtain ⟨s, hs, -⟩ := Option.bind_eq_some_iff.1 h
  rw [← List.append_nil (tokens v)] at hs
  obtain ⟨hdepth, -⟩ := Reader.fits_of_run (Nat.zero_le _) hs
  rwa [List.length_nil, Nat.zero_add] at hdepth

/-- **The text of a value is read as the value up to the limit, and refused beyond it.** -/
theorem parse?_text_proper {v : Json} (hproper : v.Proper) (hfloats : v.FloatsReadBack) :
    parse? v.text = if v.depth ≤ depthLimit then some v else none := by
  split
  · next hdepth => exact parse?_text (hproper.legible hdepth hfloats)
  · next hdepth =>
    rw [parse?, tokens?_text (hproper.readsBack hfloats), Option.bind_some,
      Option.eq_none_iff_forall_not_mem]
    exact fun w hw => hdepth (depth_le_of_ofTokens? hw)

end SessionGateway.Json
