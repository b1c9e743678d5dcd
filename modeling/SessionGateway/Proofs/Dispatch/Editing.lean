/-
  Editing of responses — a dispatch changes its response by edits alone.

  A computation edits (`Work.Edits`) if the draft that it leaves is made by edits from the draft
  that it found.  To be made by edits is a law, and every dispatch obeys the laws of edits.

  * `serve_edits`: every service edits, whatever its operations do;
  * `dispatch_safe`: the headers of a response are safe after each of the edits it is made of.
-/
import SessionGateway.Proofs.Dispatch.Drafting

namespace SessionGateway

variable {σ α : Type}

/-! ## Computations -/

namespace Work

/-- However a computation ends, it makes the draft that it leaves from the one that it found. -/
def Edits (w : Work σ α) : Prop := ∀ s : Stage σ, s.draft.Becomes (w.runAt s).2.draft

end Work

/-- **Every service edits**, whatever its operations do. -/
theorem Service.serve_edits (call : Call) : (serve call : Work σ Unit).Edits :=
  serve_obeys Draft.Becomes.law call

/-! ## Requests -/

/-- A response that is made edit by edit, with safe headers after each of them. -/
def Draft.SafelyMade (d : Draft) : Prop :=
  ∃ edits : List Edit, d = Draft.new.edited edits ∧
    ∀ n, (Draft.new.edited (edits.take n)).headers.Safe

theorem Draft.Becomes.safelyMade {d : Draft} (h : Draft.new.Becomes d) : d.SafelyMade := by
  obtain ⟨edits, rfl⟩ := h
  exact ⟨edits, rfl, fun n => Draft.edited_safe Headers.safe_empty (edits.take n)⟩

namespace Gateway

theorem becomes_opening (request : RequestHead) : Draft.new.Becomes (opening request) :=
  Draft.new.becomes_crossOrigin request.headers _

/-- **No response is split**: at every step of a dispatch, the headers of its response have tokens
    for names and values without control characters.  The dispatch begins with such a response,
    leaves one wherever its service stops, and ends with one. -/
theorem dispatch_safe (g : Gateway σ) (path : Text) (request : Request) :
    (opening request.toRequestHead).SafelyMade ∧
    (∀ (call : Call) (session : Session σ) (trace : Trace) (shared : σ),
      let start := Stage.start session (opening request.toRequestHead) trace shared
      ((Service.serve call).runAt start).2.draft.SafelyMade) ∧
    (g.dispatch path request).1.SafelyMade := by
  have hopening := becomes_opening request.toRequestHead
  refine ⟨hopening.safelyMade, fun call session trace shared => ?_, ?_⟩
  · exact (hopening.trans (Service.serve_edits call _)).safelyMade
  · exact (hopening.trans (dispatch_obeys Draft.Becomes.law g path request)).safelyMade

end Gateway

end SessionGateway
