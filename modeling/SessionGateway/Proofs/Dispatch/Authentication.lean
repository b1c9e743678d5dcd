/-
  Authentication of a call — what lets it in, and what it may run then.

  A request is let in by the scope's own operation, which gets the credentials of the request
  and gives a result that is not falsy, or, where the scope has none, by the settings.

  * `letIn_cases`: authentication refuses a call, or lets it in by one of the two
    (`Service.Admitted`);
  * `operate_cases`: a refused call runs no other operation, and one that is let in runs others
    only behind its authentication.
-/
import SessionGateway.Proofs.Dispatch.Traces

namespace SessionGateway

variable {σ : Type}

/-! ## What lets a request in -/

/-- A result that lets a request in. -/
structure Payload.Grants (result : Payload) : Prop where
  ne_null : result ≠ .value .null
  ne_false : result ≠ .value (.bool false)
  ne_zero : ∀ n, result = .value (.number n) → n.isZero = false
  ne_empty : result ≠ .value (.string [])

theorem Payload.isFalsy_eq_false_iff (result : Payload) :
    result.isFalsy = false ↔ result.Grants := by
  constructor
  · intro h
    refine ⟨?_, ?_, ?_, ?_⟩
    · rintro rfl; cases h
    · rintro rfl; cases h
    · rintro n rfl; exact h
    · rintro rfl; cases h
  · rintro ⟨hn, hf, hz, he⟩
    unfold isFalsy
    split
    · exact absurd rfl hn
    · next b =>
      cases b with
      | false => exact absurd rfl hf
      | true => rfl
    · exact hz _ rfl
    · next t =>
      cases t with
      | nil => exact absurd rfl he
      | cons c t => rfl
    · rfl

/-- The settings let in a request with these credentials: they name no groups, or the directory
    knows the credentials and their user has one of the groups. -/
inductive AuthSettings.Admits (settings : AuthSettings) (credentials : Option Credentials) :
    Prop where
  | anyone : settings.authorizedGroups = none → settings.Admits credentials
  | group {authorized c name group entry} :
      settings.authorizedGroups = some authorized → credentials = some c →
      settings.directory.checkPassword? c = some name →
      group ∈ settings.directory.groups name → entry ∈ authorized → Text.trim entry = group →
      settings.Admits credentials

theorem AuthSettings.admits_of_decide {settings : AuthSettings} {credentials : Option Credentials}
    {realm : Text} {extra : Option Payload}
    (h : (settings.decide credentials realm).toExcept = .ok extra) :
    settings.Admits credentials := by
  unfold decide at h
  cases hg : settings.authorizedGroups with
  | none => exact .anyone hg
  | some authorized =>
    simp only [hg] at h
    cases hc : credentials.bind settings.directory.checkPassword? with
    | none =>
      simp only [hc] at h
      cases h
    | some name =>
      simp only [hc] at h
      obtain ⟨c, rfl, hname⟩ := Option.bind_eq_some_iff.1 hc
      split at h
      · next ha =>
        obtain ⟨group, hgroup, hany⟩ := List.any_eq_true.1 ha
        obtain ⟨entry, hentry, heq⟩ := List.any_eq_true.1 hany
        exact .group hg rfl hname hgroup hentry (beq_iff_eq.1 heq)
      · cases h

/-- The settings let in what there is a reason to let in, and hand on nothing. -/
theorem AuthSettings.decide_of_admits {settings : AuthSettings} {credentials : Option Credentials}
    (h : settings.Admits credentials) (realm : Text) :
    (settings.decide credentials realm).toExcept = .ok none := by
  cases h with
  | anyone hgroups =>
    rw [decide, hgroups]
    rfl
  | @group authorized c name group entry hgroups hc hname hgroup hentry htrim =>
    have hadmits : admits authorized (settings.directory.groups name) = true :=
      List.any_eq_true.2 ⟨group, hgroup, List.any_eq_true.2 ⟨entry, hentry, beq_iff_eq.2 htrim⟩⟩
    rw [decide, hgroups, hc, Option.bind_some, hname]
    simp only [hadmits, if_true]
    rfl

/-! ## Services -/

namespace Authentication

/-- What an operation for authentication gets. -/
def credentialArgs (c : Credentials) : List Payload :=
  [Payload.ofText c.user, Payload.ofText c.password]

theorem grants_of_ofResult {realm : Text} {r : Except InvocationError Payload}
    {extra : Option Payload} (h : (ofResult realm r).toExcept = .ok extra) :
    ∃ result, r = .ok result ∧ result.Grants := by
  unfold ofResult at h
  split at h
  · next result =>
    split at h
    · cases h
    · next hf =>
      exact ⟨result, rfl, result.isFalsy_eq_false_iff.1 (Bool.eq_false_of_not_eq_true hf)⟩
  · cases h

theorem runAt_byOperation (c : Credentials) (realm scope : Text) (request : RequestHead)
    (s : Stage σ) :
    (byOperation (some c) realm scope request).runAt s =
      ((s.ending scope .authenticate request (credentialArgs c)).toExcept.map
        (ofResult realm),
        s.invoked scope .authenticate request (credentialArgs c)) := by
  show (Work.invoke scope .authenticate request (credentialArgs c) >>= _).runAt s = _
  rw [Work.runAt_bind, Work.runAt_invoke]
  cases (s.ending scope .authenticate request (credentialArgs c)).toExcept <;> rfl

end Authentication

namespace Service

open Authentication

/-- A call is let in, from one stage to the next. -/
inductive Admitted (call : Call) (s : Stage σ) : Stage σ → Prop where
  | byOperation {c result} :
      s.session.solution.existence call.path.scope .authenticate = .found →
      Credentials.ofHeaders? call.request.headers = some c →
      s.ending call.path.scope .authenticate call.request (credentialArgs c) = .returned result →
      result.Grants →
      Admitted call s (s.invoked call.path.scope .authenticate call.request (credentialArgs c))
  | bySettings :
      s.session.solution.existence call.path.scope .authenticate ≠ .found →
      call.auth.Admits (Credentials.ofHeaders? call.request.headers) →
      Admitted call s s

/-- A decision is reached that lets a call in with reason, or none is reached. -/
theorem decide_cases (call : Call) (s : Stage σ) :
    let decide := Authentication.decide call.auth call.path.sessionKey call.path.scope call.request
    (∃ halt s', decide.runAt s = (.error halt, s')) ∨
      ∃ decision s', decide.runAt s = (.ok decision, s') ∧
        ∀ extra, decision.toExcept = .ok extra → Admitted call s s' := by
  intro decide
  have hd : decide.runAt s = _ := Work.runAt_bind_ok (Work.runAt_existence _ _ _)
  rw [hd]
  by_cases hf : s.session.solution.existence call.path.scope .authenticate = .found
  · rw [if_pos hf]
    cases hc : Credentials.ofHeaders? call.request.headers with
    | none => exact .inr ⟨_, s, rfl, nofun⟩
    | some c =>
      rw [runAt_byOperation]
      cases he : s.ending call.path.scope .authenticate call.request (credentialArgs c) with
      | crashed message => exact .inl ⟨.crashed message, _, rfl⟩
      | failed error =>
        refine .inr ⟨_, _, rfl, fun extra h => ?_⟩
        obtain ⟨result, hr, -⟩ := grants_of_ofResult h
        cases hr
      | returned result =>
        refine .inr ⟨_, _, rfl, fun extra h => ?_⟩
        obtain ⟨result', hr, hg⟩ := grants_of_ofResult h
        cases hr
        exact .byOperation hf hc he hg
  · rw [if_neg hf]
    exact .inr ⟨_, s, rfl, fun extra h => .bySettings hf (AuthSettings.admits_of_decide h)⟩

/-- **Authentication refuses a call or lets it in.** -/
theorem letIn_cases (call : Call) (s : Stage σ) :
    (∃ halt s', (letIn call).runAt s = (.error halt, s')) ∨
      ∃ extra s', (letIn call).runAt s = (.ok extra, s') ∧ Admitted call s s' := by
  rcases decide_cases call s with ⟨halt, s', hd⟩ | ⟨decision, s', hd, ha⟩
  · exact .inl ⟨halt, s', Work.runAt_bind_error hd⟩
  · have hr : (letIn call).runAt s = _ := (Work.runAt_bind_ok hd).trans (Work.runAt_orRefuse _ _)
    cases he : decision.toExcept with
    | error e => exact .inl ⟨.refused e, s', by rw [hr, he]; rfl⟩
    | ok extra => exact .inr ⟨extra, s', by rw [hr, he]; rfl, ha extra he⟩

theorem Admitted.solution {call : Call} {s s' : Stage σ} (h : Admitted call s s') :
    s'.session.solution = s.session.solution := by
  cases h with
  | byOperation => rw [Stage.invoked_solution]
  | bySettings => rfl

theorem proceed_of_unloaded (call : Call) (o : Operation) (extra : Option Payload) {s : Stage σ}
    (h : s.session.solution.loaded = false) :
    ((proceed call o extra).runAt s).2.trace = s.trace := by
  have hne : s.session.solution.existence call.path.scope o ≠ .found := by
    simp [Solution.existence, h]
  obtain ⟨e, he⟩ := runAt_verify_of_not_found hne
  have hp : (proceed call o extra).runAt s = _ := Work.runAt_bind_error he
  rw [hp]

theorem runAt_operate (call : Call) (o : Operation) (s : Stage σ) :
    (operate call o).runAt s =
      (letIn call >>= proceed call o).runAt (s.broughtIn call.request.headers) := by
  rw [operate_eq]
  exact Work.runAt_bind_ok (runAt_bringIn _ _)

/-- **A call runs another operation only if it was let in**, and then on a loaded solution. -/
theorem operate_cases (call : Call) (o : Operation) (s : Stage σ) :
    let before := s.broughtIn call.request.headers
    let after := ((operate call o).runAt s).2
    (∃ t ∈ 1 + Trace.invocation call.path.scope .authenticate, after.trace = before.trace ++ t) ∨
    ∃ s', Admitted call before s' ∧
      ∃ t ∈ (1 + Trace.invocation call.path.scope .responseHeaders) *
          (1 + Trace.invocation call.path.scope o),
        after.trace = s'.trace ++ t ∧ (t ≠ [] → before.session.solution.loaded) := by
  intro before after
  have ho : (operate call o).runAt s = (letIn call >>= proceed call o).runAt before :=
    runAt_operate call o s
  rcases letIn_cases call before with ⟨halt, s', ha⟩ | ⟨extra, s', ha, hadmitted⟩
  · refine .inl ?_
    obtain ⟨t, ht, hw⟩ := (emits_letIn call).word before
    refine ⟨t, ht, ?_⟩
    rw [← hw, ha]
    show ((operate call o).runAt s).2.trace = _
    rw [ho, Work.runAt_bind_error ha]
  · refine .inr ⟨s', hadmitted, ?_⟩
    have hp : after = ((proceed call o extra).runAt s').2 := by
      show ((operate call o).runAt s).2 = _
      rw [ho, Work.runAt_bind_ok ha]
    obtain ⟨t, ht, hw⟩ := (emits_proceed call o extra).word s'
    refine ⟨t, ht, by rw [hp, hw], fun hne => ?_⟩
    refine Bool.eq_true_of_not_eq_false fun hl => hne ?_
    rw [proceed_of_unloaded call o extra (by rw [hadmitted.solution, hl])] at hw
    exact List.append_right_eq_self.1 hw.symm

end Service

end SessionGateway
