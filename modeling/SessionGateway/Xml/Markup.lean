/-
  Markup — the pieces of an XML document.

  `Markup.ofText?` cuts a document into tags, runs of text and sections of unparsed
  text.  A run loses the white space at its ends before its references are replaced, and
  a run of nothing else is no piece.  Comments, declarations and processing instructions
  are read and put aside.

  * a tag ends at the first `>` outside quotation marks, and a slash before it closes
    the element at once;
  * an attribute has a quoted value, and no name comes twice in one tag;
  * a reference is one of the five named ones or the number of a character.
-/
import SessionGateway.Text.Blank
import SessionGateway.Text.Numeral

namespace SessionGateway.Xml

/-! ## References -/

/-- The character of a number, if it has one that is not zero. -/
def charOf? (n : Nat) : Option Char :=
  if n ≠ 0 ∧ n.isValidChar then some (Char.ofNat n) else none

/-- The character that a reference names. -/
def reference? : Text → Option Char
  | '#' :: 'x' :: ds => (Numeral.hex? ds).bind charOf?
  | '#' :: ds => (Numeral.decimal? ds).bind charOf?
  | name =>
    if name = "lt".toList then some '<'
    else if name = "gt".toList then some '>'
    else if name = "amp".toList then some '&'
    else if name = "apos".toList then some '\x27'
    else if name = "quot".toList then some '\x22'
    else none

/-- The text with its references replaced; none if one is unknown or has no end. -/
def unescape? : Text → Option Text
  | [] => some []
  | c :: t =>
    if c = '&' then
      match h : cut? ';' t with
      | some (name, rest) =>
        have : t.length = name.length + (rest.length + 1) := by
          simpa using congrArg List.length (cut?_eq_some h).1
        (reference? name).bind fun x => (unescape? rest).map (x :: ·)
      | none => none
    else (unescape? t).map (c :: ·)
termination_by t => t.length
decreasing_by all_goals (simp only [List.length_cons]; omega)

/-! ## Tags -/

/-- The text up to the first `>` outside quotation marks, and what follows it. The first argument
    is the quotation mark that is open. -/
def tagEnd? : Option Char → Text → Option (Text × Text)
  | _, [] => none
  | none, c :: t =>
    if c = '>' then some ([], t)
    else
      (tagEnd? (if c = '\x22' ∨ c = '\x27' then some c else none) t).map fun (body, rest) =>
        (c :: body, rest)
  | some q, c :: t =>
    (tagEnd? (if c = q then none else some q) t).map fun (body, rest) => (c :: body, rest)

/-- Whether a character continues the name of an attribute. -/
def inName (c : Char) : Bool := c != '=' && !Text.isSpace c

/-- Reads one attribute from a text that begins with its name. -/
def attribute? : Text → Option ((Text × Text) × Text)
  | [] => none
  | c :: t =>
    match (t.dropWhile inName).dropWhile Text.isSpace with
    | '=' :: u =>
      match u.dropWhile Text.isSpace with
      | q :: v =>
        if q = '\x22' ∨ q = '\x27' then
          (cut? q v).map fun (value, rest) => ((c :: t.takeWhile inName, value), rest)
        else none
      | [] => none
    | _ => none

theorem length_dropWhile_le {α : Type} (p : α → Bool) (xs : List α) :
    (xs.dropWhile p).length ≤ xs.length :=
  (List.dropWhile_sublist p).length_le

theorem length_rest_attribute? {t rest : Text} {a : Text × Text}
    (h : attribute? t = some (a, rest)) : rest.length < t.length := by
  cases t with
  | nil => simp [attribute?] at h
  | cons c t =>
    simp only [attribute?] at h
    have h1 := length_dropWhile_le Text.isSpace (t.dropWhile inName)
    have h2 := length_dropWhile_le inName t
    split at h
    · next u hu =>
      have h3 := length_dropWhile_le Text.isSpace u
      rw [hu, List.length_cons] at h1
      split at h
      · next q v hv =>
        rw [hv, List.length_cons] at h3
        split at h
        · simp only [Option.map_eq_some_iff, Prod.mk.injEq] at h
          obtain ⟨⟨value, rest'⟩, hc, -, rfl⟩ := h
          have h4 := congrArg List.length (cut?_eq_some hc).1
          simp only [List.length_append, List.length_cons] at h4
          simp only [List.length_cons]
          omega
        · simp at h
      · simp at h
    · simp at h

/-- Reads attributes to the end of a tag, behind those already `done`. -/
def attributesOnto? (done : List (Text × Text)) (t : Text) : Option (List (Text × Text)) :=
  match h : attribute? (t.dropWhile Text.isSpace) with
  | some ((name, value), rest) =>
    have : rest.length < t.length :=
      Nat.lt_of_lt_of_le (length_rest_attribute? h) (length_dropWhile_le _ t)
    if done.any (·.1 == name) then none
    else (unescape? value).bind fun v => attributesOnto? (done ++ [(name, v)]) rest
  | none => if (t.dropWhile Text.isSpace).isEmpty then some done else none
termination_by t.length

/-- A piece of a document. -/
inductive Markup where
  /-- A tag that opens an element. -/
  | opening (name : Text) (attributes : List (Text × Text))
  /-- A tag that opens and closes an element. -/
  | empty (name : Text) (attributes : List (Text × Text))
  /-- A tag that closes an element. -/
  | closing (name : Text)
  /-- A run of text. -/
  | text (t : Text)
  /-- A section of unparsed text. -/
  | unparsed (t : Text)
  /-- A comment, declaration or processing instruction. -/
  | aside
  deriving Repr, BEq

/-- The tag with the given text between `<` and `>`. -/
def tag? (body : Text) : Option Markup :=
  let (inner, closes) :=
    match dropEnd? ['/'] body with
    | some inner => (inner, true)
    | none => (body, false)
  let name := inner.takeWhile (!Text.isSpace ·)
  (attributesOnto? [] (inner.dropWhile (!Text.isSpace ·))).map fun attributes =>
    if closes then .empty name attributes else .opening name attributes

/-! ## Declarations and sections -/

/-- The text up to the `>` that closes as many `<` as were opened behind `depth` others, and what
    follows it. -/
def balanced? (depth : Nat) : Text → Option (Text × Text)
  | [] => none
  | c :: t =>
    if c = '>' then
      if depth = 0 then some ([], t)
      else (balanced? (depth - 1) t).map fun (body, rest) => (c :: body, rest)
    else
      (balanced? (if c = '<' then depth + 1 else depth) t).map fun (body, rest) =>
        (c :: body, rest)

/-- The word that begins a document type declaration. -/
def doctype : Text := "doctype".toList

/-- Whether the text between `<!` and `>` is a document type declaration: its word in any case and
    something behind it. -/
def isDoctype (body : Text) : Bool :=
  Text.sameLetters (body.take doctype.length) doctype &&
    (body.drop doctype.length).any (!Text.isSpace ·)

/-- Reads what follows `<!`. -/
def declaration? (t : Text) : Option (Markup × Text) :=
  match dropStart? "[CDATA[".toList t, dropStart? "--".toList t with
  | some u, _ => (cutAt? "]]>".toList u).map fun (body, rest) => (.unparsed body, rest)
  | none, some u => (cutAt? "-->".toList u).map fun (_, rest) => (.aside, rest)
  | none, none =>
    (balanced? 0 t).bind fun (body, rest) => if isDoctype body then some (.aside, rest) else none

/-- Reads what follows `<?`: at least one character before the closing `?>`. -/
def instruction? (t : Text) : Option (Markup × Text) :=
  if t.head? = some '>' then none
  else (cutAt? "?>".toList t).map fun (_, rest) => (.aside, rest)

/-- The name in a closing tag: what stands there without the white space behind it, but white space
    alone is left as it is, and is the name of no element. -/
def closingName (body : Text) : Text :=
  if body.all Text.isSpace then body else trimEndBy Text.isSpace body

/-- Reads what follows `<`. -/
def markup? (t : Text) : Option (Markup × Text) :=
  match t with
  | '!' :: u => declaration? u
  | '?' :: u => instruction? u
  | '/' :: u =>
    (tagEnd? none u).map fun (body, rest) => (.closing (closingName body), rest)
  | [] => none
  | u => (tagEnd? none u).bind fun (body, rest) => (tag? body).map fun m => (m, rest)

/-! ## Every piece is shorter than what it is cut from -/

theorem length_rest_tagEnd? {q : Option Char} {t body rest : Text}
    (h : tagEnd? q t = some (body, rest)) : rest.length < t.length := by
  induction t generalizing q body with
  | nil => simp [tagEnd?] at h
  | cons c t ih =>
    cases q with
    | none =>
      by_cases hc : c = '>'
      · simp only [tagEnd?, hc, if_true, Option.some.injEq, Prod.mk.injEq] at h
        simp [h.2]
      · simp only [tagEnd?, hc, if_false, Option.map_eq_some_iff, Prod.mk.injEq] at h
        obtain ⟨⟨b, r⟩, hb, -, rfl⟩ := h
        have : r.length < t.length := ih hb
        simp only [List.length_cons]
        omega
    | some q =>
      simp only [tagEnd?, Option.map_eq_some_iff, Prod.mk.injEq] at h
      obtain ⟨⟨b, r⟩, hb, -, rfl⟩ := h
      have : r.length < t.length := ih hb
      simp only [List.length_cons]
      omega

theorem length_rest_balanced? {depth : Nat} {t body rest : Text}
    (h : balanced? depth t = some (body, rest)) : rest.length < t.length := by
  induction t generalizing depth body with
  | nil => simp [balanced?] at h
  | cons c t ih =>
    rw [balanced?] at h
    split at h
    · split at h
      · simp only [Option.some.injEq, Prod.mk.injEq] at h
        simp [h.2]
      · simp only [Option.map_eq_some_iff, Prod.mk.injEq] at h
        obtain ⟨⟨b, r⟩, hb, -, rfl⟩ := h
        have : r.length < t.length := ih hb
        simp only [List.length_cons]
        omega
    · simp only [Option.map_eq_some_iff, Prod.mk.injEq] at h
      obtain ⟨⟨b, r⟩, hb, -, rfl⟩ := h
      have : r.length < t.length := ih hb
      simp only [List.length_cons]
      omega

theorem length_rest_cutAt? {needle t body rest : Text}
    (h : cutAt? needle t = some (body, rest)) : rest.length ≤ t.length := by
  have := congrArg List.length (cutAt?_eq_some h)
  simp only [List.length_append] at this
  omega

theorem length_rest_dropStart? {start t rest : Text} (h : dropStart? start t = some rest) :
    rest.length ≤ t.length := by
  have := congrArg List.length (dropStart?_eq_some_iff.1 h)
  simp only [List.length_append] at this
  omega

theorem length_rest_declaration? {t rest : Text} {m : Markup}
    (h : declaration? t = some (m, rest)) : rest.length ≤ t.length := by
  unfold declaration? at h
  split at h
  · next u hu =>
    simp only [Option.map_eq_some_iff, Prod.mk.injEq] at h
    obtain ⟨⟨b, r⟩, hb, -, rfl⟩ := h
    exact Nat.le_trans (length_rest_cutAt? hb) (length_rest_dropStart? hu)
  · next u _ hu =>
    simp only [Option.map_eq_some_iff, Prod.mk.injEq] at h
    obtain ⟨⟨b, r⟩, hb, -, rfl⟩ := h
    exact Nat.le_trans (length_rest_cutAt? hb) (length_rest_dropStart? hu)
  · simp only [Option.bind_eq_some_iff] at h
    obtain ⟨⟨b, r⟩, hb, h⟩ := h
    split at h
    · simp only [Option.some.injEq, Prod.mk.injEq] at h
      have := length_rest_balanced? hb
      rw [← h.2]
      omega
    · simp at h

theorem length_rest_markup? {t rest : Text} {m : Markup} (h : markup? t = some (m, rest)) :
    rest.length ≤ t.length := by
  unfold markup? at h
  split at h
  · have := length_rest_declaration? h
    simp only [List.length_cons]
    omega
  · next u =>
    unfold instruction? at h
    split at h
    · simp at h
    · simp only [Option.map_eq_some_iff, Prod.mk.injEq] at h
      obtain ⟨⟨b, r⟩, hb, -, rfl⟩ := h
      have := length_rest_cutAt? hb
      simp only [List.length_cons]
      omega
  · simp only [Option.map_eq_some_iff, Prod.mk.injEq] at h
    obtain ⟨⟨b, r⟩, hb, -, rfl⟩ := h
    have := length_rest_tagEnd? hb
    simp only [List.length_cons]
    omega
  · simp at h
  · simp only [Option.bind_eq_some_iff, Option.map_eq_some_iff, Prod.mk.injEq] at h
    obtain ⟨⟨b, r⟩, hb, m', -, -, rfl⟩ := h
    exact Nat.le_of_lt (length_rest_tagEnd? hb)

/-! ## Documents -/

/-- The piece of a run of text, if it is not white space alone. -/
def run? (t : Text) : Option (List Markup) :=
  let inner := trimBy Text.isSpace t
  if inner.isEmpty then some [] else (unescape? inner).map fun u => [.text u]

/-- The pieces of a text behind the pieces `done` in reverse. -/
def piecesOnto? (done : List Markup) : Text → Option (List Markup)
  | [] => some done.reverse
  | c :: t =>
    if c = '<' then
      match h : markup? t with
      | some (m, rest) =>
        have : rest.length ≤ t.length := length_rest_markup? h
        piecesOnto? (m :: done) rest
      | none => none
    else
      have : (t.dropWhile (· != '<')).length ≤ t.length := length_dropWhile_le _ t
      match run? (c :: t.takeWhile (· != '<')) with
      | some ms => piecesOnto? (ms ++ done) (t.dropWhile (· != '<'))
      | none => none
termination_by t => t.length
decreasing_by all_goals (simp only [List.length_cons]; omega)

/-- The byte order mark as a character. -/
def mark : Char := '\uFEFF'

/-- The pieces of a document, behind a byte order mark. -/
def Markup.ofText? (t : Text) : Option (List Markup) :=
  piecesOnto? [] ((dropStart? [mark] t).getD t)

end SessionGateway.Xml
