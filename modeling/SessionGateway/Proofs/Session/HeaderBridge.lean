/-
  Properties in the header — what a response carries in its header, and what a request that sends
  it back brings in.

  The header holds the properties as a JSON object.  All characters below U+0020 are escaped in
  it, so the only one that keeps it from being written is U+007F.

  * `writable_text_iff`: the text of the properties can be written unless U+007F is in them;
  * `ofHeaderValue?_encode`: the octets of that text are read as the properties again;
  * `header_round_trip`: a response has the header exactly if there are properties and none has
    U+007F, and a request with that header gives its session these properties and no others.
-/
import SessionGateway.Proofs.Dispatch.Runs
import SessionGateway.Proofs.Http.Headers
import SessionGateway.Proofs.Json.RoundTrip
import SessionGateway.Proofs.Session.Entries

namespace SessionGateway

/-! ## The text of the properties -/

namespace Json

/-- What a character is written as can be sent unless it is the delete character. -/
theorem writable_escapeChar_iff (c : Char) :
    (∀ d ∈ escapeChar c, Header.Writable d) ↔ c ≠ Header.delete := by
  have hhex : ∀ n : Fin 32, Header.Writable (Numeral.hexDigit (n.val / 16)) ∧
      Header.Writable (Numeral.hexDigit (n.val % 16)) := by
    decide
  unfold escapeChar
  split
  · next h => subst h; decide
  split
  · next h => subst h; decide
  split
  · next h => subst h; decide
  split
  · next h => subst h; decide
  split
  · next h => subst h; decide
  split
  · next h => subst h; decide
  split
  · next h => subst h; decide
  split
  · next h =>
    have hc : c ≠ Header.delete := by rintro rfl; exact absurd h (by decide)
    obtain ⟨hhigh, hlow⟩ := hhex ⟨c.toNat, h⟩
    simp only [List.mem_cons, List.not_mem_nil, or_false, forall_eq_or_imp, forall_eq, hhigh, hlow,
      ne_eq, hc, not_false_eq_true, and_true, iff_true]
    decide
  · next h =>
    have hdelete : c ≠ Header.delete ↔ c.toNat ≠ 0x7F := not_congr Char.toNat_inj.symm
    rw [List.forall_mem_singleton, Header.Writable, hdelete]
    omega

theorem writable_quote_iff (t : Text) :
    (∀ c ∈ quote t, Header.Writable c) ↔ Header.delete ∉ t := by
  have hq : Header.Writable '\x22' := by decide
  rw [quote, List.forall_mem_cons, List.forall_mem_append, List.forall_mem_singleton]
  simp only [hq, true_and, and_true, List.forall_mem_flatMap, writable_escapeChar_iff]
  exact ⟨fun h hm => h Header.delete hm rfl, fun h c hc he => h (he ▸ hc)⟩

/-- An object of strings can be sent unless the delete character is in a name or string of it. -/
theorem writable_textMembers_iff (es : List (Text × Text)) :
    (∀ c ∈ textMembers (es.map fun e => (e.1, .string e.2)), Header.Writable c) ↔
      ∀ e ∈ es, Header.delete ∉ e.1 ∧ Header.delete ∉ e.2 := by
  have hmark : Header.Writable ':' ∧ Header.Writable ',' ∧ Header.Writable '\x7d' := by decide
  obtain ⟨hcolon, hcomma, hend⟩ := hmark
  induction es with
  | nil => simp [textMembers, hend]
  | cons e es ih =>
    cases es with
    | nil =>
      simp only [List.map_cons, List.map_nil, textMembers, text, List.forall_mem_append,
        List.forall_mem_cons, writable_quote_iff, hcolon, hend, true_and, and_true,
        List.not_mem_nil, false_implies, implies_true]
    | cons f es =>
      rw [List.map_cons] at ih
      simp only [List.map_cons, textMembers, text, List.forall_mem_append, List.forall_mem_cons,
        writable_quote_iff, hcolon, hcomma, true_and, ih, and_assoc]

end Json

namespace Properties
variable {σ : Type}

/-- **The text of the properties can be sent** unless U+007F is in a name or text. -/
theorem writable_text_iff (p : Properties) :
    (∀ c ∈ p.toJson.text, Header.Writable c) ↔
      ∀ e ∈ p.entries, Header.delete ∉ e.1 ∧ Header.delete ∉ e.2 := by
  have hbegin : Header.Writable '\x7b' := by decide
  rw [← Json.writable_textMembers_iff, toJson, Json.text, List.forall_mem_cons]
  exact and_iff_right hbegin

/-- Properties can be read back as JSON. -/
theorem legible_toJson (p : Properties) : Json.Legible Json.depthLimit p.toJson := by
  have hstrings : ∀ es : List (Text × Text),
      Json.LegibleMembers 126 (es.map fun e => (e.1, .string e.2)) := by
    intro es
    induction es with
    | nil => trivial
    | cons e es ih => exact ⟨trivial, ih⟩
  refine ⟨by decide, ?_, hstrings p.entries⟩
  rw [List.map_map, List.nodup_iff_pairwise_ne, List.pairwise_map]
  exact p.sorted.imp ne_of_lt

@[simp] theorem ofMembers_toJson (p : Properties) :
    ofMembers (p.entries.map fun e => (e.1, .string e.2)) = p := by
  rw [ofMembers, List.map_map]
  exact (congrArg ofList (List.map_id _)).trans p.ofList_entries

/-- **The octets of the text are read as the properties.** -/
theorem ofHeaderValue?_encode (p : Properties) :
    ofHeaderValue? (Utf8.encode p.toJson.text) = some p := by
  rw [ofHeaderValue?, Json.parseBytes?_encode_text p.legible_toJson, toJson]
  exact congrArg some p.ofMembers_toJson

/-! ## Responses and requests -/

theorem get?_foldl_add {name other : Text} (hn : other ≠ name) (f : Text × Text → Text)
    (es : List (Text × Text)) (h : Headers) :
    (es.foldl (fun h e => h.add name (f e)) h).get? other = h.get? other := by
  rw [Headers.get?_eq_head?, h.getAll_foldl_add_of_ne hn, ← Headers.get?_eq_head?]

/-- The header of a response: the text of the properties, if there are any and it can be sent. -/
theorem get?_writeTo (p : Properties) (path : Text) (secure : Bool) (h : Headers) :
    (p.writeTo path secure h).get? headerName =
      if p.isEmpty then h.get? headerName
      else (Header.ofText? p.toJson.text).or (h.get? headerName) := by
  unfold writeTo
  split
  · rfl
  · rw [get?_foldl_add (by decide), Headers.get?_set_self]

/-- **The header round trip.**  A response has the header exactly if there are properties and
    U+007F is in none of them; and a request with what stands there, whatever else it sends, gives
    a session these properties and no others, whatever properties it had. -/
theorem header_round_trip (p : Properties) (path : Text) (secure : Bool) :
    let written := (p.writeTo path secure .empty).get? headerName
    (written.isSome ↔ p ≠ .empty ∧ ∀ e ∈ p.entries, Header.delete ∉ e.1 ∧ Header.delete ∉ e.2) ∧
      ∀ value, written = some value →
        ∀ h : Headers, h.get? headerName = some value →
          ∀ s : Stage σ, ((Service.bringIn h).runAt s).1 = .ok () ∧
            ((Service.bringIn h).runAt s).2.session.properties = p := by
  intro written
  have hwritten : written = if p.isEmpty then none else Header.ofText? p.toJson.text := by
    show (p.writeTo path secure .empty).get? headerName = _
    rw [get?_writeTo]
    split
    · rfl
    · exact Option.or_none
  refine ⟨?_, fun value hv h hh s => ?_⟩
  · by_cases he : p = .empty
    · subst he
      rw [hwritten]
      exact ⟨nofun, fun h => absurd rfl h.1⟩
    · rw [hwritten, if_neg fun h => he (isEmpty_iff.1 h), ← p.writable_text_iff, and_iff_right he,
        Option.isSome_iff_exists]
      simp only [Header.ofText?_eq_some_iff, exists_and_left, exists_eq, and_true]
  · rw [hwritten] at hv
    split at hv
    · cases hv
    · obtain ⟨-, rfl⟩ := Header.ofText?_eq_some_iff.1 hv
      have hp : ofHeaders? h = some p := by
        simp only [ofHeaders?, hh, p.ofHeaderValue?_encode]
      rw [Service.runAt_bringIn, Stage.broughtIn, hp]
      exact ⟨rfl, rfl⟩

/-- Properties with quotation marks, a line feed and characters beyond ASCII reach a session that
    holds others, beside a cookie that would give it others still. -/
theorem header_round_trip_unicode :
    let p := ofList [("na\"me".toList, "line\nfeed".toList), ("größe".toList, "\\ €".toList)]
    let value := Utf8.encode p.toJson.text
    let h := Headers.ofList
      [("Cookie".toList, Utf8.encode "ws.userproperty.other=1".toList), (headerName, value)]
    let s : Stage Unit :=
      .start ⟨.new "crm".toList, ofList [("old".toList, "1".toList)]⟩ .new [] ()
    (p.writeTo "/rest_ws/crm".toList false .empty).get? headerName = some value ∧
      h.get? headerName = some value ∧
      ((Service.bringIn h).runAt s).2.session.properties = p := by
  intro p value h s
  have hv : (p.writeTo "/rest_ws/crm".toList false .empty).get? headerName = some value := by
    decide +kernel
  have hh : h.get? headerName = some value := by decide +kernel
  exact ⟨hv, hh, ((header_round_trip p _ false).2 value hv h hh s).2⟩

end Properties

end SessionGateway
