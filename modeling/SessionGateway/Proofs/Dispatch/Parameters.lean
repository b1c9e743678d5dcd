/-
  Parameters — what an operation gets of the query, and of the authentication of its request.

  The last argument of an operation is an object with the values of each name in the query.  The
  value that the authentication hands on stands in it under a name of its own; it takes the place
  of what the query has under that name, and what the query has stays if there is no such value.

  * `get?_queryMap`: under each name stand its values, in the order of the query;
  * `entry?_slot`: what stands under the name of the authentication;
  * `letIn_of_admitted`: a call that is let in by the scope's own operation gets its result, unless
    this is just true; one that the settings let in gets nothing.
-/
import SessionGateway.Proofs.Dispatch.Authentication

namespace SessionGateway

variable {σ : Type}

/-! ## The object of the parameters -/

namespace Arguments

/-- The values of a name. -/
def valuesOf (name : Text) (pairs : List (Text × Text)) : List Text :=
  (pairs.filter (·.1 == name)).map (·.2)

/-- What stands under a name with these values. -/
def listed : List Text → Option Json
  | [] => none
  | v :: values => some (.array ((v :: values).map .string))

/-- What a query puts under a name. -/
def asked (name : Text) (query : Option Text) : Option Json :=
  listed (valuesOf name ((query.map Form.pairs).getD []))

theorem listed_append_singleton (values : List Text) (v : Text) :
    listed (values ++ [v]) = some (.array (values.map .string ++ [.string v])) := by
  cases values <;> simp [listed]

theorem get?_addValue {ms : Json.Members} {name : Text} {values : List Text}
    (h : ms.get? name = listed values) (n v : Text) :
    (addValue ms n v).get? name = listed (values ++ valuesOf name [(n, v)]) := by
  by_cases hn : n = name
  · subst hn
    have hv : valuesOf n [(n, v)] = [v] := by simp [valuesOf]
    rw [hv, listed_append_singleton, addValue, h]
    cases values with
    | nil => exact Json.Members.get?_insert_self _ _ _
    | cons w values => exact Json.Members.get?_insert_self _ _ _
  · have hv : valuesOf name [(n, v)] = [] := by simp [valuesOf, hn]
    rw [hv, List.append_nil, ← h, addValue]
    split <;> exact Json.Members.get?_insert_of_ne (Ne.symm hn) _ _

/-- **Under each name stand its values**, in the order of the query. -/
theorem get?_queryMap (query name : Text) :
    (queryMap query).get? name = asked name (some query) := by
  have hfold : ∀ (pairs : List (Text × Text)) (ms : Json.Members) (values : List Text),
      ms.get? name = listed values →
      (pairs.foldl (fun ms p => addValue ms p.1 p.2) ms).get? name =
        listed (values ++ valuesOf name pairs) := by
    intro pairs
    induction pairs with
    | nil =>
      intro ms values h
      rw [List.foldl_nil, h, valuesOf, List.filter_nil, List.map_nil, List.append_nil]
    | cons p pairs ih =>
      intro ms values h
      have hv : valuesOf name (p :: pairs) = valuesOf name [p] ++ valuesOf name pairs := by
        simp only [valuesOf, ← List.map_append, ← List.filter_append, List.singleton_append]
      rw [List.foldl_cons, ih _ _ (get?_addValue h p.1 p.2), hv, List.append_assoc]
  exact hfold (Form.pairs query) [] [] rfl

/-- The last part of the arguments: the object of the parameters, if there is one. -/
def slot (query : Option Text) (extra : Option Payload) : List Payload :=
  let query := query.filter (!·.isEmpty)
  if query.isSome ∨ extra.isSome then [.value (.object (parameters query extra))] else []

theorem build_eq (body : Option Payload) (segments : List Text) (query : Option Text)
    (extra : Option Payload) :
    build body segments query extra =
      body.toList ++ segments.map Payload.ofText ++ slot query extra := rfl

/-- What stands under the name of the authentication. -/
def entry? : List Payload → Option Json
  | [.value (.object ms)] => Json.Members.get? authenticateKey ms
  | _ => none

theorem asked_filter (name : Text) (query : Option Text) :
    asked name (query.filter (!·.isEmpty)) = asked name query := by
  match query with
  | none => rfl
  | some [] => rfl
  | some (c :: t) => rfl

/-- **The value of the authentication takes the place of what the query has under its name**, and
    what the query has stays where there is no such value. -/
theorem entry?_slot (query : Option Text) (extra : Option Payload) :
    entry? (slot query extra) =
      match extra with
      | some p => some (.array [p.toJson])
      | none => asked authenticateKey query := by
  unfold slot
  cases extra with
  | some p =>
    rw [if_pos (.inr rfl)]
    exact Json.Members.get?_insert_self _ _ _
  | none =>
    rw [← asked_filter]
    cases hq : query.filter (!·.isEmpty) with
    | none => rfl
    | some q =>
      rw [if_pos (.inl rfl)]
      exact get?_queryMap q authenticateKey

end Arguments

/-! ## The value of the authentication -/

namespace Authentication

/-- What a result that lets a request in hands on: nothing if it is just true. -/
def handedOn : Payload → Option Payload
  | .value (.bool true) => none
  | result => some result

theorem toExcept_ofResult {result : Payload} (h : result.Grants) (realm : Text) :
    (ofResult realm (.ok result)).toExcept = .ok (handedOn result) := by
  have hf : ¬ result.isFalsy = true :=
    Bool.not_eq_true _ ▸ result.isFalsy_eq_false_iff.2 h
  unfold ofResult
  simp only [if_neg hf]
  cases result with
  | value v =>
    cases v with
    | bool b => cases b <;> rfl
    | _ => rfl
  | _ => rfl

end Authentication

namespace Service

open Authentication

/-- What a call that is let in gets, and the stage from which it goes on. -/
inductive HandsOn (call : Call) (s : Stage σ) : Option Payload → Stage σ → Prop where
  | byOperation {c result} :
      s.session.solution.existence call.path.scope .authenticate = .found →
      Credentials.ofHeaders? call.request.headers = some c →
      s.ending call.path.scope .authenticate call.request (credentialArgs c) = .returned result →
      result.Grants →
      HandsOn call s (handedOn result)
        (s.invoked call.path.scope .authenticate call.request (credentialArgs c))
  | bySettings :
      s.session.solution.existence call.path.scope .authenticate ≠ .found → HandsOn call s none s

/-- **What there is a reason to let in is let in**, with the result of the scope's own operation or
    with nothing. -/
theorem letIn_of_admitted {call : Call} {s s' : Stage σ} (h : Admitted call s s') :
    ∃ extra, (letIn call).runAt s = (.ok extra, s') ∧ HandsOn call s extra s' := by
  have hdecide : (Authentication.decide call.auth call.path.sessionKey call.path.scope
      call.request).runAt s = _ := Work.runAt_bind_ok (Work.runAt_existence _ _ s)
  have hletIn : (letIn call).runAt s = _ := Work.runAt_bind _ _ s
  rw [hdecide] at hletIn
  cases h with
  | @byOperation c result hf hc hr hg =>
    rw [if_pos hf, hc, runAt_byOperation, hr] at hletIn
    refine ⟨handedOn result, hletIn.trans ?_, .byOperation hf hc hr hg⟩
    simp only [Ending.toExcept, Except.map, Work.runAt_orRefuse, toExcept_ofResult hg]
    rfl
  | bySettings hf hs =>
    rw [if_neg hf] at hletIn
    refine ⟨none, hletIn.trans ?_, .bySettings hf⟩
    simp only [Work.runAt_pure, Work.runAt_orRefuse, AuthSettings.decide_of_admits hs]
    rfl

/-- **A call that is let in gets the result of the scope's own operation**, or nothing. -/
theorem letIn_handsOn {call : Call} {s s' : Stage σ} {extra : Option Payload}
    (h : (letIn call).runAt s = (.ok extra, s')) (ha : Admitted call s s') :
    HandsOn call s extra s' := by
  obtain ⟨value, hv, hon⟩ := letIn_of_admitted ha
  cases h.symm.trans hv
  exact hon

end Service

end SessionGateway
