/-
  Parts — the pieces of a multipart body.

  A delimiter is two hyphens and the boundary.  Behind each delimiter come two more
  hyphens, which end the body, or else blanks, a line end, header lines, an empty line
  and the content, up to the next line that begins with the delimiter.

  * `Parts.ofBody` gives the parts up to the place where the body breaks off or is no
    longer well formed, and says whether its end was reached;
  * `Parts.length_body_lt`: the content of every part is shorter than the body.
-/
import SessionGateway.Http.Header
import SessionGateway.Multipart.Disposition

namespace SessionGateway.Multipart

/-- A line end. -/
def lineEnd : Bytes := [13, 10]

/-- Two hyphens. -/
def hyphens : Bytes := [45, 45]

/-! ## Header lines -/

/-- The greatest number of header lines in a part. -/
def headerLimit : Nat := 32

/-- Whether an octet may stand in the value of a header line. -/
def inValue (b : UInt8) : Bool := b == 9 || (0x20 ≤ b && b != 0x7F)

/-- Whether an octet is a space or a tab. -/
def isPadding (b : UInt8) : Bool := b == 32 || b == 9

/-- The name and value of a header line. -/
def headerLine? (line : Bytes) : Option (Text × Bytes) :=
  (cut? 0x3A line).bind fun (name, value) =>
    if value.all inValue then
      (Header.name? (name.map fun b => Char.ofNat b.toNat)).map fun n =>
        (n, trimBy isPadding value)
    else none

/-- The lines of a header block, up to the first empty one. -/
def headerLines (block : Bytes) : List Bytes :=
  (((block ++ lineEnd).splitOn 10).map fun line => (dropEnd? [13] line).getD line).takeWhile
    (!·.isEmpty)

/-- The headers of a part; of a repeated name the last value counts. -/
def headers? (block : Bytes) : Option Headers :=
  let lines := headerLines block
  if lines.length ≤ headerLimit then
    (lines.mapM headerLine?).map fun hs => hs.foldl (fun h (n, v) => h.insert n v) Headers.empty
  else none

/-! ## Parts -/

/-- A part: its headers and its content. -/
structure Part where
  headers : Headers
  body : Bytes

namespace Part

/-- The type that a part declares. -/
def contentType? (p : Part) : Option Text := p.headers.text? "content-type".toList

/-- The disposition of a part. -/
def disposition? (p : Part) : Option Bytes := p.headers.get? "content-disposition".toList

/-- The name of the field. -/
def name? (p : Part) : Option Text := p.disposition?.bind (attribute? "name")

/-- The name of the file. -/
def fileName? (p : Part) : Option Text := p.disposition?.bind (attribute? "filename")

end Part

/-- Reads a part from what follows a delimiter, and what follows the next delimiter. -/
def part? (delimiter t : Bytes) : Option (Part × Bytes) :=
  (dropStart? lineEnd (t.dropWhile isPadding)).bind fun lines =>
    (cutAt? (lineEnd ++ lineEnd) lines).bind fun (block, content) =>
      (headers? block).bind fun headers =>
        (cutAt? (lineEnd ++ delimiter) content).map fun (body, rest) => (⟨headers, body⟩, rest)

theorem length_part? {delimiter t rest : Bytes} {p : Part}
    (h : part? delimiter t = some (p, rest)) :
    rest.length < t.length ∧ p.body.length < t.length := by
  simp only [part?, Option.bind_eq_some_iff, Option.map_eq_some_iff, Prod.mk.injEq] at h
  obtain ⟨lines, h1, ⟨block, content⟩, h2, headers, -, ⟨body, rest'⟩, h3, rfl, rfl⟩ := h
  have l1 := congrArg List.length (dropStart?_eq_some_iff.1 h1)
  have l2 := congrArg List.length (cutAt?_eq_some h2)
  have l3 := congrArg List.length (cutAt?_eq_some h3)
  have l4 : (t.dropWhile isPadding).length ≤ t.length := (List.dropWhile_sublist _).length_le
  simp only [List.length_append, lineEnd, List.length_cons, List.length_nil] at l1 l2 l3
  constructor <;> dsimp only at * <;> omega

/-- The parts of a body, and whether its end was reached. -/
structure Parts where
  parts : List Part
  closed : Bool

namespace Parts

/-- The parts in what follows a delimiter. -/
def after (delimiter t : Bytes) : Parts :=
  if (dropStart? hyphens t).isSome then ⟨[], true⟩
  else
    match h : part? delimiter t with
    | none => ⟨[], false⟩
    | some (p, rest) =>
      have : rest.length < t.length := (length_part? h).1
      let others := after delimiter rest
      ⟨p :: others.parts, others.closed⟩
termination_by t.length

/-- The parts of a body with the given boundary; what comes before the first delimiter is
    dropped. -/
def ofBody (boundary body : Bytes) : Parts :=
  let delimiter := hyphens ++ boundary
  match cutAt? delimiter body with
  | some (_, rest) => after delimiter rest
  | none => ⟨[], false⟩

theorem length_body_after (delimiter t : Bytes) {p : Part} (hp : p ∈ (after delimiter t).parts) :
    p.body.length < t.length := by
  induction t using after.induct delimiter with
  | case1 t h => rw [after, if_pos h] at hp; simp at hp
  | case2 t h hn =>
    rw [after, if_neg h] at hp
    split at hp
    · simp at hp
    · next q rest hq => rw [hn] at hq; simp at hq
  | case3 t h q rest hq hlt ih =>
    rw [after, if_neg h] at hp
    split at hp
    · next hn => rw [hn] at hq; simp at hq
    · next q' rest' hq' =>
      rw [hq] at hq'
      simp only [Option.some.injEq, Prod.mk.injEq] at hq'
      obtain ⟨rfl, rfl⟩ := hq'
      rcases List.mem_cons.1 hp with rfl | hp
      · exact (length_part? hq).2
      · exact Nat.lt_trans (ih hp) hlt

/-- **The content of a part is shorter than the body it was cut from.** -/
theorem length_body_lt {boundary body : Bytes} {p : Part} (hp : p ∈ (ofBody boundary body).parts) :
    p.body.length < body.length := by
  unfold ofBody at hp
  dsimp only at hp
  split at hp
  · next before rest h =>
    have := length_body_after _ _ hp
    have := congrArg List.length (cutAt?_eq_some h)
    simp only [List.length_append] at this
    omega
  · simp at hp

end Parts

end SessionGateway.Multipart
