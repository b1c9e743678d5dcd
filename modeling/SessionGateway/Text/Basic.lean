/-
  Text and bytes — the two sequence types of the library, and the ways of cutting them.

  Text is a list of Unicode characters and a body is a list of octets, so that every
  reader in the library is a recursion on its input.

  * `Text.lower` folds the ASCII letters only; header names, media types and encodings
    are compared through it (`Text.sameLetters`);
  * `cut?` splits a sequence at the first occurrence of an element, `cutAt?` at the
    first occurrence of a whole sequence, `occursIn` asks for one;
  * `trimBy` drops the elements of a class from both ends.
-/
namespace SessionGateway

/-- Text: a sequence of Unicode characters. -/
abbrev Text := List Char

/-- A byte string: what a message body or a header value is made of. -/
abbrev Bytes := List UInt8

/-! ## Cutting sequences -/

section
variable {α : Type} [DecidableEq α]

/-- The parts before and after the first occurrence of `sep`; none if there is no `sep`. -/
def cut? (sep : α) : List α → Option (List α × List α)
  | [] => none
  | x :: xs =>
    if x = sep then some ([], xs)
    else (cut? sep xs).map fun (before, after) => (x :: before, after)

/-- `xs` without its leading `start`; none if it does not begin with it. -/
def dropStart? : List α → List α → Option (List α)
  | [], xs => some xs
  | _ :: _, [] => none
  | c :: start, x :: xs => if c = x then dropStart? start xs else none

/-- `xs` without its trailing `tail`; none if it does not end with it. -/
def dropEnd? (tail xs : List α) : Option (List α) :=
  (dropStart? tail.reverse xs.reverse).map List.reverse

/-- The parts before and after the first occurrence of the sequence `needle`. -/
def cutAt? (needle : List α) : List α → Option (List α × List α)
  | [] => if needle = [] then some ([], []) else none
  | x :: xs =>
    match dropStart? needle (x :: xs) with
    | some after => some ([], after)
    | none => (cutAt? needle xs).map fun (before, after) => (x :: before, after)

/-- Whether `needle` stands somewhere inside `xs`. -/
def occursIn (needle xs : List α) : Bool :=
  (cutAt? needle xs).isSome

omit [DecidableEq α] in
/-- `xs` without the leading and trailing elements of the class `p`. -/
def trimBy (p : α → Bool) (xs : List α) : List α :=
  ((xs.dropWhile p).reverse.dropWhile p).reverse

omit [DecidableEq α] in
/-- `xs` without the trailing elements of the class `p`. -/
def trimEndBy (p : α → Bool) (xs : List α) : List α :=
  (xs.reverse.dropWhile p).reverse

@[simp] theorem dropStart?_self_append (start xs : List α) :
    dropStart? start (start ++ xs) = some xs := by
  induction start with
  | nil => rfl
  | cons c start ih => simp [dropStart?, ih]

theorem dropStart?_eq_some_iff {start xs rest : List α} :
    dropStart? start xs = some rest ↔ xs = start ++ rest := by
  constructor
  · intro h
    induction start generalizing xs with
    | nil => simpa [dropStart?] using h
    | cons c start ih =>
      cases xs with
      | nil => simp [dropStart?] at h
      | cons x xs =>
        by_cases hc : c = x
        · simp only [dropStart?, hc, if_true] at h
          rw [ih h, hc, List.cons_append]
        · simp [dropStart?, hc] at h
  · rintro rfl
    exact dropStart?_self_append start rest

theorem cut?_eq_some {sep : α} {xs before after : List α}
    (h : cut? sep xs = some (before, after)) : xs = before ++ sep :: after ∧ sep ∉ before := by
  induction xs generalizing before after with
  | nil => simp [cut?] at h
  | cons x xs ih =>
    by_cases hx : x = sep
    · simp only [cut?, hx, if_true, Option.some.injEq, Prod.mk.injEq] at h
      obtain ⟨rfl, rfl⟩ := h
      simp [hx]
    · simp only [cut?, hx, if_false, Option.map_eq_some_iff, Prod.mk.injEq] at h
      obtain ⟨⟨b, a⟩, hb, rfl, rfl⟩ := h
      obtain ⟨rfl, hn⟩ := ih hb
      exact ⟨rfl, by simp only [List.mem_cons, not_or]; exact ⟨Ne.symm hx, hn⟩⟩

theorem cut?_append_cons {sep : α} {before : List α} (h : sep ∉ before) (after : List α) :
    cut? sep (before ++ sep :: after) = some (before, after) := by
  induction before with
  | nil => simp [cut?]
  | cons x xs ih =>
    simp only [List.mem_cons, not_or] at h
    simp [cut?, Ne.symm h.1, ih h.2]

theorem cutAt?_eq_some {needle xs before after : List α}
    (h : cutAt? needle xs = some (before, after)) : xs = before ++ needle ++ after := by
  induction xs generalizing before after with
  | nil =>
    by_cases hn : needle = []
    · simp only [cutAt?, hn, if_true, Option.some.injEq, Prod.mk.injEq] at h
      obtain ⟨rfl, rfl⟩ := h
      simp [hn]
    · simp [cutAt?, hn] at h
  | cons x xs ih =>
    rw [cutAt?] at h
    split at h
    · next rest hd =>
      simp only [Option.some.injEq, Prod.mk.injEq] at h
      obtain ⟨rfl, rfl⟩ := h
      simpa using dropStart?_eq_some_iff.1 hd
    · simp only [Option.map_eq_some_iff, Prod.mk.injEq] at h
      obtain ⟨⟨b, a⟩, hb, rfl, rfl⟩ := h
      simp [ih hb]

end

/-! ## Letter case -/

namespace Text

/-- The text with the ASCII capital letters made small; every other character stays. -/
def lower (t : Text) : Text := t.map Char.toLower

/-- Whether two texts differ at most in the case of ASCII letters. -/
def sameLetters (s t : Text) : Bool := s.lower == t.lower

/-- The texts in order with `sep` between neighbours. -/
def join (sep : Text) : List Text → Text
  | [] => []
  | [t] => t
  | t :: ts => t ++ sep ++ join sep ts

/-- The text without the given character. -/
def without (c : Char) (t : Text) : Text := t.filter (· != c)

end Text

end SessionGateway
