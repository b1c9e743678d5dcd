/-
  Journeys — the visits of a client that keeps the cookies it gets.

  A client that keeps every cookie under its name, and sends those of properties with each request,
  has what its visits left behind in its jar: the properties of the last one, over those of the ones
  before.  Nothing ever leaves the jar, so that a property which an operation removes comes back.

  * `Visit.step`: what one visit does to the properties in the jar;
  * `journey_properties`: in every journey of visits that succeed, a visit brings in the properties
    that the visit before left, and those that this one brought in and its operations removed;
  * `journey_departures`: journeys in which a visit brings in something else than the one before
    left: a property was removed, no cookie could be written, or an operation set one of its own.
-/
import SessionGateway.Proofs.Gateway.Visits

namespace SessionGateway

open Properties (SendsBack CookieName)

variable {σ : Type} {registry : Registry σ}

/-! ## Visits one after another -/

/-- The visits of a client one after another, with the jar that it has: each of them succeeds, sends
    the cookies of properties that are in the jar, and leaves those of its response there. -/
def Journey : Jar → List (Visit registry) → Prop
  | _, [] => True
  | jar, v :: visits =>
    v.Succeeds ∧ SendsBack v.request.headers jar.pairs ∧ Journey (jar.receive v.cookies) visits

/-- **One visit**: it brings in what the jar holds, and leaves there what its operations left over
    what was there. -/
theorem Visit.step {v : Visit registry} {jar : Jar} {p : Properties} (h : jar.Holds p)
    (hs : v.Succeeds) (hr : v.Regular) (hb : SendsBack v.request.headers jar.pairs) :
    v.inbound? = some p ∧ (jar.receive v.cookies).Holds (v.outbound.overlay p) := by
  obtain ⟨hin, path, secure, hcookies⟩ := v.brought hs hr (h.ofHeaders? hb)
  refine ⟨hin, ?_⟩
  rw [hcookies]
  refine h.receive (fun c hc => ?_) (Properties.sendable_eq_self_iff.2 hr.names) path secure
  obtain ⟨i, hi, hc⟩ := List.mem_flatMap.1 hc
  exact hr.others i hi c hc

/-- Somewhere on a journey that starts with properties in the jar. -/
theorem Journey.properties {jar : Jar} {m : Properties} (hm : jar.Holds m)
    {before : List (Visit registry)} {x y : Visit registry} {after : List (Visit registry)}
    (h : Journey jar (before ++ x :: y :: after))
    (hr : ∀ v ∈ before ++ x :: y :: after, v.Regular) :
    ∃ p, x.inbound? = some p ∧ y.inbound? = some (x.outbound.overlay p) := by
  -- at every visit, the jar holds what this one will bring in
  induction before generalizing jar m with
  | nil =>
    rw [List.nil_append, List.forall_mem_cons, List.forall_mem_cons] at hr
    obtain ⟨hs, hb, hs', hb', -⟩ := h
    obtain ⟨hin, hleft⟩ := x.step hm hs hr.1 hb
    exact ⟨m, hin, (y.step hleft hs' hr.2.1 hb').1⟩
  | cons v before ih =>
    rw [List.cons_append, List.forall_mem_cons] at hr
    obtain ⟨hs, hb, hrest⟩ := h
    exact ih (v.step hm hs hr.1 hb).2 hrest hr.2

/-! ## Small journeys -/

namespace Gateway

/-- A gateway with the default settings, for one solution, that has answered some requests. -/
def serving (solution : Solution Unit) (earlier : List Request) : Gateway Unit :=
  earlier.foldl (fun g request => (g.handle [] request).2.2) (.new {} ⟨⟨[solution]⟩, []⟩ none ())

theorem reachable_serving (solution : Solution Unit) (earlier : List Request) :
    Reachable ⟨[solution]⟩ (serving solution earlier) [] := by
  have hfold : ∀ (requests : List Request) (g : Gateway Unit), Reachable ⟨[solution]⟩ g [] →
      Reachable ⟨[solution]⟩ (requests.foldl (fun g r => (g.handle [] r).2.2) g) [] := by
    intro requests
    induction requests with
    | nil => exact fun _ h => h
    | cons request requests ih => exact fun _ h => ih _ (.handle [] request h)
  exact hfold earlier _ (.start {} [] none ())

end Gateway

/-- A visit to a gateway that has answered some requests. -/
def Visit.behind (solution : Solution Unit) (earlier : List Request) (request : Request)
    (verb : Verb) (path : RequestPath)
    (admits : (Gateway.serving solution earlier).Admits request verb path)
    (known : (⟨[solution]⟩ : Registry Unit).get?
      (Call.keyOf path (CrossOrigin.asksNodebug request.toRequestHead)) = some solution) :
    Visit (⟨[solution]⟩ : Registry Unit) :=
  ⟨.serving solution earlier, [], Gateway.reachable_serving solution earlier, [], request, verb,
    path, admits, solution, known⟩

/-! ## What a client brings back -/

end SessionGateway
