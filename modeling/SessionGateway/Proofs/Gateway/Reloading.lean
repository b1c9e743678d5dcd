/-
  Reloading — the configuration and the authentication settings that a request is prepared with.

  A reload takes two steps, and the preparation of a request takes three: it loads the
  configuration, reads the body, and loads the authentication settings.  The steps of reloads that
  follow each other, and of other requests, may fall between those of the preparation
  (`Reloading.Step`).

  * `Conserved.step`, `Conserved.run`: the cells hold what the last reloads stored in them, and what
    a request has loaded was stored before;
  * `prepared_iff`: the settings that a request is prepared with may come from a later reload than
    its configuration, and from any later one, but never from an earlier one;
  * `snapshot_torn`: so a request is prepared with a configuration and settings that no reload
    brought together.
-/
import Mathlib.Logic.Relation
import SessionGateway.Proofs.Dispatch.Admission

namespace SessionGateway

variable {σ : Type}

/-! ## What a call is prepared with -/

namespace Call

/-- A call carries the configuration and the settings that it was prepared with. -/
theorem snapshot_of_prepare {config : Config} {auth : AuthSettings} {tls : Bool} {verb : Verb}
    {path : Text} {request : Request} {call : Call}
    (h : prepare config auth tls verb path request = .ok call) :
    call.config = config ∧ call.auth = auth ∧
      ∃ body, bodyFor verb request config.security.maxBodySize = .ok body := by
  unfold prepare at h
  cases hb : bodyFor verb request config.security.maxBodySize with
  | error e =>
    rw [hb] at h
    cases h
  | ok body =>
    rw [hb] at h
    simp only [bind, Except.bind] at h
    split at h
    · cases h
    · split at h
      · cases h
      · cases h
        exact ⟨rfl, rfl, body, rfl⟩

theorem prepare_of_bodyFor {config : Config} {verb : Verb} {request : Request} {e : GatewayError}
    (h : bodyFor verb request config.security.maxBodySize = .error e) (auth : AuthSettings)
    (tls : Bool) (path : Text) : prepare config auth tls verb path request = .error e := by
  rw [prepare, h]
  rfl

end Call

/-! ## Steps -/

/-- How far the preparation of a request has come. -/
inductive Progress where
  | arrived
  | loaded (config : Config)
  | buffered (config : Config)
  | prepared (result : Except GatewayError Call)

/-- What a request may have loaded, or was prepared with, after some reloads. -/
def Progress.Sound (configs : Nat → Config) (directory : Option Directory) (tls : Bool)
    (verb : Verb) (path : Text) (request : Request) (finished : Nat) : Progress → Prop
  | .arrived => True
  | .loaded config => ∃ i ≤ finished, config = configs i
  | .buffered config => ∃ i ≤ finished, config = configs i
  | .prepared result => ∃ i j, i ≤ j ∧
      result = Call.prepare (configs i) (.ofConfig (configs j).auth directory) tls verb path request

theorem Progress.Sound.mono {configs : Nat → Config} {directory : Option Directory} {tls : Bool}
    {verb : Verb} {path : Text} {request : Request} {m n : Nat} (hmn : m ≤ n) {p : Progress}
    (h : p.Sound configs directory tls verb path request m) :
    p.Sound configs directory tls verb path request n := by
  cases p with
  | arrived => exact h
  | loaded config =>
    obtain ⟨i, hi, hc⟩ := h
    exact ⟨i, Nat.le_trans hi hmn, hc⟩
  | buffered config =>
    obtain ⟨i, hi, hc⟩ := h
    exact ⟨i, Nat.le_trans hi hmn, hc⟩
  | prepared result => exact h

/-- A gateway that takes over configurations while it prepares a request. -/
structure Reloading (σ : Type) where
  gateway : Gateway σ
  /-- The reloads that have stored their authentication settings. -/
  begun : Nat
  /-- The reloads that have stored their configuration. -/
  finished : Nat
  progress : Progress

namespace Reloading

section
variable (configs : Nat → Config) (verb : Verb) (path : Text) (request : Request)

/-- A step of the reloads, which take over `configs 1`, `configs 2` and so on, or of a request. -/
inductive Step : Reloading σ → Reloading σ → Prop where
  | storeAuth {s} : s.begun = s.finished →
      Step s { s with gateway := s.gateway.storeAuth (configs (s.begun + 1)), begun := s.begun + 1 }
  | storeConfig {s} : s.begun = s.finished + 1 →
      Step s { s with gateway := s.gateway.storeConfig (configs s.begun), finished := s.begun }
  | loadConfig {s} : s.progress = .arrived →
      Step s { s with progress := .loaded s.gateway.config }
  | readBody {s config body} : s.progress = .loaded config →
      Call.bodyFor verb request config.security.maxBodySize = .ok body →
      Step s { s with progress := .buffered config }
  | refuseBody {s config e} : s.progress = .loaded config →
      Call.bodyFor verb request config.security.maxBodySize = .error e →
      Step s { s with progress := .prepared (.error e) }
  | loadAuth {s config result} : s.progress = .buffered config →
      Call.prepare config s.gateway.auth s.gateway.tls verb path request = result →
      Step s { s with progress := .prepared result }
  /-- Other requests change the pool and the shared state. -/
  | serve {s} (pool : SessionPool σ) (shared : σ) :
      Step s { s with gateway := { s.gateway with pool, shared } }

/-- Any number of steps. -/
abbrev Run : Reloading σ → Reloading σ → Prop :=
  Relation.ReflTransGen (Step configs verb path request)

end

/-- A gateway at its start, with `configs 0`, to which a request has come. -/
def start (configs : Nat → Config) (workshop : Workshop σ) (directory : Option Directory)
    (shared : σ) : Reloading σ :=
  ⟨.new (configs 0) workshop directory shared, 0, 0, .arrived⟩

variable {configs : Nat → Config} {verb : Verb} {path : Text} {request : Request}
  {directory : Option Directory} {tls : Bool}

/-! ## What is conserved -/

/-- The cells hold what the last reloads stored, and the request has what was stored before. -/
structure Conserved (configs : Nat → Config) (directory : Option Directory) (tls : Bool)
    (verb : Verb) (path : Text) (request : Request) (s : Reloading σ) : Prop where
  started : s.finished ≤ s.begun
  config : s.gateway.config = configs s.finished
  auth : s.gateway.auth = .ofConfig (configs s.begun).auth directory
  progress : s.progress.Sound configs directory tls verb path request s.finished
  tls : s.gateway.tls = tls
  directory : s.gateway.directory = directory

namespace Conserved
variable {s s' : Reloading σ}

theorem start (workshop : Workshop σ) (shared : σ) :
    Conserved configs directory (configs 0).listener.tls.isSome verb path request
      (.start configs workshop directory shared) :=
  ⟨Nat.le_refl 0, rfl, rfl, trivial, rfl, rfl⟩

/-- **A step conserves what the cells hold**, and what the request has loaded. -/
theorem step (h : Conserved configs directory tls verb path request s)
    (hs : Step configs verb path request s s') :
    Conserved configs directory tls verb path request s' := by
  obtain ⟨hstarted, hconfig, hauth, hprogress, htls, hdirectory⟩ := h
  cases hs with
  | storeAuth hrest =>
    refine ⟨Nat.le_succ_of_le hstarted, hconfig, ?_, hprogress, htls, hdirectory⟩
    exact congrArg (AuthSettings.ofConfig (configs (s.begun + 1)).auth) hdirectory
  | storeConfig hhalf =>
    exact ⟨Nat.le_refl _, rfl, hauth, hprogress.mono hstarted, htls, hdirectory⟩
  | loadConfig =>
    exact ⟨hstarted, hconfig, hauth, ⟨s.finished, Nat.le_refl _, hconfig⟩, htls, hdirectory⟩
  | readBody hloaded =>
    rw [hloaded] at hprogress
    exact ⟨hstarted, hconfig, hauth, hprogress, htls, hdirectory⟩
  | refuseBody hloaded hbody =>
    rw [hloaded] at hprogress
    obtain ⟨i, hi, rfl⟩ := hprogress
    refine ⟨hstarted, hconfig, hauth, ⟨i, i, Nat.le_refl i, ?_⟩, htls, hdirectory⟩
    exact (Call.prepare_of_bodyFor hbody _ _ _).symm
  | loadAuth hbuffered hresult =>
    rw [hbuffered] at hprogress
    obtain ⟨i, hi, rfl⟩ := hprogress
    refine ⟨hstarted, hconfig, hauth, ⟨i, s.begun, Nat.le_trans hi hstarted, ?_⟩, htls, hdirectory⟩
    rw [← hresult, hauth, htls]
  | serve pool shared => exact ⟨hstarted, hconfig, hauth, hprogress, htls, hdirectory⟩

theorem run (h : Conserved configs directory tls verb path request s)
    (hr : Run configs verb path request s s') :
    Conserved configs directory tls verb path request s' := by
  induction hr with
  | refl => exact h
  | tail _ hs ih => exact ih.step hs

end Conserved

/-! ## Schedules -/

/-- The gateway after some reloads, with no reload under way. -/
def after (g : Gateway σ) (configs : Nat → Config) (n : Nat) : Gateway σ :=
  { g with config := configs n, auth := .ofConfig (configs n).auth g.directory }

/-- Reloads may follow each other, however far the request has come. -/
theorem run_reloads (g : Gateway σ) (progress : Progress) {i j : Nat} (hij : i ≤ j) :
    Run configs verb path request ⟨after g configs i, i, i, progress⟩
      ⟨after g configs j, j, j, progress⟩ := by
  induction hij with
  | refl => exact .refl
  | step _ ih => exact .tail (.tail ih (.storeAuth rfl)) (.storeConfig rfl)

/-- **A request can be prepared with any configuration and the settings of any later reload**, if
    it can be prepared with them at all. -/
theorem run_prepared (workshop : Workshop σ) (shared : σ) {i j : Nat} (hij : i ≤ j) {call : Call}
    (h : Call.prepare (configs i) (.ofConfig (configs j).auth directory)
      (configs 0).listener.tls.isSome verb path request = .ok call) :
    ∃ s, Run configs verb path request (.start configs workshop directory shared) s ∧
      s.progress = .prepared (.ok call) := by
  obtain ⟨-, -, body, hbody⟩ := Call.snapshot_of_prepare h
  let g : Gateway σ := .new (configs 0) workshop directory shared
  -- the reloads up to `i`, the first two steps of the request, the reloads up to `j`, its third
  have hloading : Run configs verb path request (.start configs workshop directory shared)
      ⟨after g configs i, i, i, .arrived⟩ := run_reloads g .arrived i.zero_le
  have hloaded : Run configs verb path request ⟨after g configs i, i, i, .arrived⟩
      ⟨after g configs i, i, i, .buffered (configs i)⟩ :=
    .tail (.single (.loadConfig rfl)) (.readBody rfl hbody)
  have hwaiting : Run configs verb path request ⟨after g configs i, i, i, .buffered (configs i)⟩
      ⟨after g configs j, j, j, .buffered (configs i)⟩ := run_reloads g _ hij
  refine ⟨_, .tail ((hloading.trans hloaded).trans hwaiting) (.loadAuth rfl h), rfl⟩

/-- **A request is prepared with a configuration and with settings of the same or a later reload**,
    and with any two of these. -/
theorem prepared_iff (configs : Nat → Config) (workshop : Workshop σ)
    (directory : Option Directory) (shared : σ) (verb : Verb) (path : Text) (request : Request)
    (call : Call) :
    (∃ s, Run configs verb path request (.start configs workshop directory shared) s ∧
      s.progress = .prepared (.ok call)) ↔
    ∃ i j, i ≤ j ∧ call.config = configs i ∧
      call.auth = .ofConfig (configs j).auth directory ∧
      Call.prepare (configs i) (.ofConfig (configs j).auth directory)
        (configs 0).listener.tls.isSome verb path request = .ok call := by
  constructor
  · rintro ⟨s, hr, hs⟩
    have hprogress := ((Conserved.start workshop shared).run hr).progress
    rw [hs] at hprogress
    obtain ⟨i, j, hij, hcall⟩ := hprogress
    obtain ⟨hconfig, hauth, -⟩ := Call.snapshot_of_prepare hcall.symm
    exact ⟨i, j, hij, hconfig, hauth, hcall.symm⟩
  · rintro ⟨i, j, hij, -, -, hcall⟩
    exact run_prepared workshop shared hij hcall

/-- A reload that lands while the body of a request is read: the request is prepared with the
    configuration before it and with the settings after it, which are those of no configuration
    that the gateway ever took over. -/
theorem snapshot_torn :
    let opened : Config := {}
    let closed : Config :=
      { gateway := { serviceName := "api".toList }, auth := { authorizedGroups := some [] } }
    let configs : Nat → Config := fun n => if n = 0 then opened else closed
    let headers :=
      Headers.ofList [(HeaderName.contentType, Utf8.encode "application/json".toList)]
    let request : Request := ⟨⟨"POST".toList, "/rest_ws/crm/orders".toList, headers⟩, [0x31]⟩
    let path := "/rest_ws/crm/orders".toList
    ∃ s call, Run configs .post path request (.start configs ⟨⟨[]⟩, []⟩ none ()) s ∧
      s.progress = .prepared (.ok call) ∧
      ¬ ∃ n, call.config = configs n ∧ call.auth = .ofConfig (configs n).auth none := by
  intro opened closed configs headers request path
  have hok : ((Call.prepare opened (.ofConfig closed.auth none) false .post path
      request).toOption).isSome = true := by
    decide +kernel
  cases hcall : Call.prepare opened (.ofConfig closed.auth none) false .post path request with
  | error e =>
    rw [hcall] at hok
    cases hok
  | ok call =>
    obtain ⟨hconfig, hauth, -⟩ := Call.snapshot_of_prepare hcall
    have hrun : ∃ s, Run configs .post path request (.start configs ⟨⟨[]⟩, []⟩ none ()) s ∧
        s.progress = .prepared (.ok call) := run_prepared ⟨⟨[]⟩, []⟩ () (Nat.zero_le 1) hcall
    obtain ⟨s, hr, hs⟩ := hrun
    refine ⟨s, call, hr, hs, ?_⟩
    rintro ⟨n, hn, hn'⟩
    rw [hconfig] at hn
    rw [hauth] at hn'
    by_cases hzero : n = 0
    · rw [show configs n = opened from if_pos hzero] at hn'
      cases congrArg AuthSettings.authorizedGroups hn'
    · rw [show configs n = closed from if_neg hzero] at hn
      exact absurd (congrArg (fun c => c.gateway.serviceName) hn) (by decide)

end Reloading

end SessionGateway
