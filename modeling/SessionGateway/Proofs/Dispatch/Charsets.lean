/-
  Declared charsets — whether a response is written in the charset that its type names.

  A result has a text (`Service.textFor`), and a charset is chosen for it (`Service.charsetFor`).
  Where the type comes from the kind of the response, it names the chosen charset.  A type that the
  operation chose is sent as it is, whatever charset it names.

  * `runAt_send`: what sending a result does to the draft;
  * `encode_eq_ok`: the body that is written for a result, and its type;
  * `send_declares_iff`: a body is written in the charset that its type names exactly if that is the
    chosen one, or both write all characters of the text alike.
-/
import SessionGateway.Proofs.Dispatch.Runs
import SessionGateway.Proofs.Payload.Describing
import SessionGateway.Proofs.Text.Charset

namespace SessionGateway

variable {σ : Type}

namespace Service

/-- The text of a result: in the form that a type asks for which the operation chose, or else in
    the kind of the response. -/
def textFor (call : Call) (overrides : Overrides) (result : Payload) : Text :=
  match overrides.contentType with
  | some type => Encoded.presetText result type
  | none =>
    Encoded.structuredText result (kindFor call) (charsetFor call overrides)
      (Arguments.queryParam? call.request.query? "callback".toList)

theorem runAt_send (call : Call) (result : Payload) (s : Stage σ) :
    (send call result).runAt s =
      match encode call s.overrides result with
      | .ok e => (.ok (), { s with draft := s.draft.send e })
      | .error _ => (.error (.refused .unsupportedContent), s) := by
  unfold send
  rw [Work.runAt_bind_ok (Work.runAt_get s)]
  cases encode call s.overrides result <;> rfl

/-- **The body for a result** is its text in the chosen charset; its type is the one that the
    operation chose, or that of the kind of the response with the name of the charset. -/
theorem encode_eq_ok {call : Call} {overrides : Overrides} {result : Payload}
    (hresult : ∀ bs, result ≠ .bytes bs) {e : Encoded} (h : encode call overrides result = .ok e) :
    e.body = (charsetFor call overrides).encode (textFor call overrides result) ∧
      (overrides.contentType = some e.contentType ∨
        overrides.contentType = none ∧ ∃ type, (kindFor call).responseType? = some type ∧
          e.contentType = type ++ ";charset=".toList ++ (charsetFor call overrides).name) := by
  rw [encode.eq_def] at h
  rw [textFor]
  cases htype : overrides.contentType with
  | some type =>
    rw [htype] at h
    cases result with
    | bytes bs => exact absurd rfl (hresult bs)
    | value _ | fields _ =>
      cases h
      exact ⟨rfl, .inl rfl⟩
  | none =>
    rw [htype] at h
    have h : Encoded.structured result (kindFor call) (charsetFor call overrides)
        (Arguments.queryParam? call.request.query? "callback".toList) = .ok e := by
      cases result with
      | bytes bs => exact absurd rfl (hresult bs)
      | value _ | fields _ => exact h
    rw [Encoded.structured] at h
    cases hkind : (kindFor call).responseType? with
    | none =>
      rw [hkind] at h
      cases h
    | some type =>
      rw [hkind] at h
      cases h
      exact ⟨rfl, .inr ⟨rfl, type, rfl, rfl⟩⟩

/-- **A body is written in the charset that its type names** exactly if that is the charset that was
    chosen for it, or if both write its text alike.  It is the chosen one unless the operation chose
    the type. -/
theorem send_declares_iff {call : Call} {result : Payload} (hresult : ∀ bs, result ≠ .bytes bs)
    {s s' : Stage σ} (h : (send call result).runAt s = (.ok (), s')) :
    ∃ e, encode call s.overrides result = .ok e ∧ s' = { s with draft := s.draft.send e } ∧
      ∀ name, Media.charset? e.contentType = some name →
        (s.overrides.contentType = none →
          Charset.ofName name = charsetFor call s.overrides) ∧
        (s'.draft.body = (Charset.ofName name).encode (textFor call s.overrides result) ↔
          Charset.ofName name = charsetFor call s.overrides ∨
            ∀ c ∈ textFor call s.overrides result,
              (Charset.ofName name).WriteAlike (charsetFor call s.overrides) c) := by
  rw [runAt_send] at h
  cases he : encode call s.overrides result with
  | error fault =>
    rw [he] at h
    cases h
  | ok e =>
    rw [he] at h
    cases h
    obtain ⟨hbody, htype⟩ := encode_eq_ok hresult he
    refine ⟨e, rfl, rfl, fun name hname => ⟨fun hnone => ?_, ?_⟩⟩
    · obtain hsome | ⟨-, type, hkind, hdeclared⟩ := htype
      · rw [hnone] at hsome
        cases hsome
      · rw [hdeclared, Kind.charset?_responseType hkind] at hname
        rw [← Option.some.inj hname, Charset.ofName_name]
    · show e.body = _ ↔ _
      rw [hbody, eq_comm, Charset.encode_eq_encode_iff]

/-- A call without a body that reads the orders of the solution `crm`. -/
def readOrders (headers : Headers) : Call :=
  { verb := .get, key := "crm".toList, path := ⟨"crm".toList, "orders".toList, []⟩, body := none,
    request := ⟨"GET".toList, "/rest_ws/crm/orders".toList, headers⟩, secure := false, config := {},
    auth := ⟨none, ⟨[]⟩⟩ }

/-- A stage at which an operation has left overrides. -/
def leftWith (overrides : Overrides) : Stage Unit :=
  { Stage.start ⟨.new "crm".toList, .empty⟩ .new [] () with overrides }

/-- A client that accepts text in ISO-8859-1, by one of its other names. -/
theorem send_declares_accepted :
    let call := readOrders
      (.ofList [("Accept".toList, Utf8.encode "text/plain; charset=latin1".toList)])
    ∃ s' : Stage Unit, (send call (.ofText ['é'])).runAt (leftWith .none) = (.ok (), s') ∧
      s'.draft.body = Charset.latin1.encode ['é'] := by
  intro call
  have hencode : encode call .none (.ofText ['é']) =
      .ok ⟨"text/plain;charset=ISO-8859-1".toList, [0xE9]⟩ := rfl
  have h := runAt_send call (.ofText ['é']) (leftWith .none)
  have hoverrides : (leftWith .none).overrides = .none := rfl
  rw [hoverrides, hencode] at h
  have hresult : ∀ bs, Payload.ofText ['é'] ≠ .bytes bs := nofun
  obtain ⟨e, he, -, hdeclares⟩ := send_declares_iff hresult h
  cases hencode.symm.trans he
  obtain ⟨hname, hbody⟩ := hdeclares "ISO-8859-1".toList (by decide)
  exact ⟨_, h, hbody.2 (.inl (hname rfl))⟩

/-- A type that names ISO-8859-1, with a body in UTF-8. -/
theorem send_garbled :
    let type := "text/plain; charset=ISO-8859-1".toList
    let s := leftWith ⟨some type, none⟩
    ∃ s' : Stage Unit, (send (readOrders .empty) (.ofText ['é'])).runAt s = (.ok (), s') ∧
      s'.draft.headers.text? HeaderName.contentType = some type ∧
      Media.charset? type = some "ISO-8859-1".toList ∧
      s'.draft.body ≠ (Charset.ofName "ISO-8859-1".toList).encode
        (textFor (readOrders .empty) s.overrides (.ofText ['é'])) := by
  intro type s
  exact ⟨_, rfl, by decide +kernel, by decide +kernel, by decide +kernel⟩

end Service

end SessionGateway
