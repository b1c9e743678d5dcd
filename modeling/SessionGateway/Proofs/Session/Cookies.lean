/-
  Cookies — the pair that stands for a property, written and read.

  A cookie name is a token (`CookieName`), and the characters of a cookie value are visible ASCII
  without the quotation mark, the comma, the semicolon and the backslash.  No text makes a value
  that another one makes: plain tokens stand for themselves, and all others are in Base64 behind
  the marker.

  * `isCookieName_iff`: the names that get a cookie are the tokens;
  * `cookieText_cookieValue`: a value is read as the text that it was written for;
  * `entry?_ownPair`: the pair of a property is read as that property;
  * `entry?_of_foreign`: a pair of another name is read as none.
-/
import SessionGateway.Proofs.Http.Headers
import SessionGateway.Proofs.Text.Base64
import SessionGateway.Session.Bridge

namespace SessionGateway

/-! ## White space at the ends -/

theorem trimBy_eq_self {α : Type} {p : α → Bool} {xs : List α} (h : ∀ x ∈ xs, p x = false) :
    trimBy p xs = xs := by
  have hdrop : ∀ ys : List α, (∀ y ∈ ys, p y = false) → ys.dropWhile p = ys := by
    intro ys hy
    cases ys with
    | nil => rfl
    | cons y ys => rw [List.dropWhile_cons, hy y List.mem_cons_self]; rfl
  rw [trimBy, hdrop xs h, hdrop xs.reverse fun x hx => h x (List.mem_reverse.1 hx),
    List.reverse_reverse]

/-- What is left of a prefix is a prefix of what is left of the whole, in front of its trailing
    elements. -/
theorem isPrefix_trimBy {α : Type} {p : α → Bool} {xs ys : List α} (h : xs <+: ys) :
    trimBy p xs <+: ys.dropWhile p := by
  have htrim : trimBy p xs <+: xs.dropWhile p := by
    rw [trimBy, ← List.reverse_suffix, List.reverse_reverse]
    exact List.dropWhile_suffix p
  obtain ⟨rest, rfl⟩ := h
  rw [List.dropWhile_append]
  split
  · next he =>
    rw [List.isEmpty_iff.1 he] at htrim
    rw [List.prefix_nil.1 htrim]
    exact List.nil_prefix
  · exact htrim.trans (List.prefix_append _ _)

namespace Text

theorem trim_eq_self {t : Text} (h : ∀ c ∈ t, isBlank c = false) : trim t = t :=
  trimBy_eq_self h

theorem trim_append_of_blank {s : Text} (h : ∀ c ∈ s, isBlank c = true) (t : Text) :
    trim (s ++ t) = trim t := by
  rw [trim, trimBy, List.dropWhile_append_of_pos h]
  rfl

/-- What trimming takes away are blanks in front of a text and behind it. -/
theorem exists_append_trim (t : Text) :
    ∃ front back, t = front ++ trim t ++ back ∧ ∀ c ∈ front, isBlank c = true := by
  refine ⟨t.takeWhile isBlank, ((t.dropWhile isBlank).reverse.takeWhile isBlank).reverse, ?_,
    fun c hc => List.all_eq_true.1 List.all_takeWhile c hc⟩
  rw [List.append_assoc, trim, trimBy, ← List.reverse_append, List.takeWhile_append_dropWhile,
    List.reverse_reverse, List.takeWhile_append_dropWhile]

end Text

/-! ## Names -/

namespace Properties

/-- The characters of ASCII that stand in no token although they are visible. -/
def separators : Text := "()<>@,;:\\\"/[]?=\x7b\x7d".toList

/-- A name that a cookie can have: visible ASCII, without separators, and not empty. -/
def CookieName (name : Text) : Prop :=
  name ≠ [] ∧ ∀ c ∈ name, 0x21 ≤ c.toNat ∧ c.toNat ≤ 0x7E ∧ c ∉ separators

end Properties

theorem Header.isToken_iff (c : Char) :
    isToken c = true ↔ 0x21 ≤ c.toNat ∧ c.toNat ≤ 0x7E ∧ c ∉ Properties.separators := by
  have hall : ∀ n : Fin 128, isToken (Char.ofNat n.val) = true ↔
      0x21 ≤ (Char.ofNat n.val).toNat ∧ (Char.ofNat n.val).toNat ≤ 0x7E ∧
        Char.ofNat n.val ∉ Properties.separators := by
    decide +kernel
  by_cases hc : c.toNat < 128
  · have h := hall ⟨c.toNat, hc⟩
    rwa [Char.ofNat_toNat] at h
  · exact ⟨fun h => absurd (lt_of_isToken h) hc, fun h => absurd h.2.1 (by omega)⟩

namespace Properties

/-- **The names that get a cookie are the tokens.** -/
theorem isCookieName_iff (name : Text) : isCookieName name = true ↔ CookieName name := by
  simp only [isCookieName, CookieName, Bool.and_eq_true, Bool.not_eq_true',
    List.isEmpty_eq_false_iff, List.all_eq_true, Header.isToken_iff]

instance (name : Text) : Decidable (CookieName name) := decidable_of_iff _ (isCookieName_iff name)

/-! ## Values -/

theorem isCookieChar_iff (c : Char) : isCookieChar c = true ↔
    0x21 ≤ c.toNat ∧ c.toNat ≤ 0x7E ∧ c ≠ '\x22' ∧ c ≠ ',' ∧ c ≠ ';' ∧ c ≠ '\\' := by
  simp only [isCookieChar, Bool.or_eq_true, Bool.and_eq_true, beq_iff_eq, decide_eq_true_eq, ne_eq,
    ← Char.toNat_inj]
  simp only [Char.reduceToNat]
  omega

/-- Every character of a value may stand in one. -/
theorem isCookieChar_of_mem {t : Text} {c : Char} (h : c ∈ cookieValue t) :
    isCookieChar c = true := by
  unfold cookieValue at h
  split at h
  · next ht => exact List.all_eq_true.1 ht.1 c h
  · rcases List.mem_append.1 h with h | h
    · have hmarker : ∀ c ∈ marker, isCookieChar c = true := by decide
      exact hmarker c h
    · have hsymbol : ∀ n : Fin 64, isCookieChar (Base64.symbol n.val) = true := by decide
      rcases Base64.mem_encode h with rfl | ⟨n, rfl⟩
      · decide
      · exact hsymbol n

/-- **A value is read as the text that it was written for.** -/
@[simp] theorem cookieText_cookieValue (t : Text) : cookieText (cookieValue t) = t := by
  unfold cookieValue
  split
  · next h => rw [cookieText, h.2]; rfl
  · rw [cookieText, dropStart?_self_append, Option.bind_some, Base64.decode?_encode]
    exact Utf8.decodeLossy_encode t

/-! ## Pairs -/

/-- The property that a pair stands for, if its name is that of one. -/
def entry? (piece : Text) : Option (Text × Text) :=
  (cookie? piece).bind fun (name, value) =>
    (dropStart? cookiePrefix name).map fun key => (key, cookieText value)

/-- The pair of a property. -/
def ownPair (e : Text × Text) : Text := cookiePrefix ++ e.1 ++ '=' :: cookieValue e.2

/-- A pair whose name is not that of a property. -/
def Foreign (piece : Text) : Prop :=
  ∀ name value, piece = name ++ '=' :: value → '=' ∉ name →
    ¬ cookiePrefix.isPrefixOf (Text.trim name)

variable {name t : Text}

theorem foreign_of_name (hn : '=' ∉ name) (hp : ¬ cookiePrefix.isPrefixOf (Text.trim name))
    (value : Text) : Foreign (name ++ '=' :: value) := by
  intro name' value' heq hn'
  have hcut := cut?_append_cons hn value
  rw [heq, cut?_append_cons hn' value'] at hcut
  cases hcut
  exact hp

theorem visible_of_mem_prefix {c : Char} (h : c ∈ cookiePrefix) :
    0x21 ≤ c.toNat ∧ c.toNat ≤ 0x7E ∧ c ≠ ';' ∧ c ≠ '=' := by
  have hp : ∀ c ∈ cookiePrefix, 0x21 ≤ c.toNat ∧ c.toNat ≤ 0x7E ∧ c ≠ ';' ∧ c ≠ '=' := by decide
  exact hp c h

/-- The name of a pair is visible ASCII, and ends neither the name nor the pair. -/
theorem visible_of_mem_name (hn : CookieName name) {c : Char} (h : c ∈ cookiePrefix ++ name) :
    0x21 ≤ c.toNat ∧ c.toNat ≤ 0x7E ∧ c ≠ ';' ∧ c ≠ '=' := by
  rcases List.mem_append.1 h with h | h
  · exact visible_of_mem_prefix h
  · obtain ⟨hlow, hhigh, hs⟩ := hn.2 c h
    refine ⟨hlow, hhigh, ?_, ?_⟩ <;>
    · rintro rfl
      exact hs (by decide)

/-- A pair is visible ASCII without a semicolon. -/
theorem visible_of_mem_ownPair (hn : CookieName name) {c : Char} (h : c ∈ ownPair (name, t)) :
    0x21 ≤ c.toNat ∧ c.toNat ≤ 0x7E ∧ c ≠ ';' := by
  rcases List.mem_append.1 h with h | h
  · obtain ⟨hlow, hhigh, hs, -⟩ := visible_of_mem_name hn h
    exact ⟨hlow, hhigh, hs⟩
  rcases List.mem_cons.1 h with rfl | h
  · decide
  · obtain ⟨hlow, hhigh, -, -, hs, -⟩ := (isCookieChar_iff c).1 (isCookieChar_of_mem h)
    exact ⟨hlow, hhigh, hs⟩

theorem isBlank_of_visible {c : Char} (hlow : 0x21 ≤ c.toNat) (hhigh : c.toNat ≤ 0x7E) :
    Text.isBlank c = false := by
  simp only [Text.isBlank, Bool.or_eq_false_iff, Bool.and_eq_false_iff, decide_eq_false_iff_not,
    beq_eq_false_iff_ne]
  omega

/-- A value has no quotation marks around it to take away. -/
theorem unquote_cookieValue (t : Text) : unquote (cookieValue t) = cookieValue t := by
  rw [unquote]
  cases hv : cookieValue t with
  | nil => rfl
  | cons c v =>
    have hc : c ∈ cookieValue t := by rw [hv]; exact List.mem_cons_self
    have hq : '\x22' ≠ c := Ne.symm ((isCookieChar_iff c).1 (isCookieChar_of_mem hc)).2.2.1
    simp only [dropStart?, if_neg hq, Option.bind_none, Option.getD_none]

/-- **The pair of a property is read as that property**, with or without blanks around it. -/
theorem entry?_ownPair (hn : CookieName name) {piece : Text}
    (h : Text.trim piece = ownPair (name, t)) : entry? piece = some (name, t) := by
  have hname : Text.trim (cookiePrefix ++ name) = cookiePrefix ++ name :=
    Text.trim_eq_self fun _ hc =>
      have h := visible_of_mem_name hn hc
      isBlank_of_visible h.1 h.2.1
  have hvalue : Text.trim (cookieValue t) = cookieValue t :=
    Text.trim_eq_self fun _ hc =>
      have h := (isCookieChar_iff _).1 (isCookieChar_of_mem hc)
      isBlank_of_visible h.1 h.2.1
  have hcut : cut? '=' (ownPair (name, t)) = some (cookiePrefix ++ name, cookieValue t) :=
    cut?_append_cons (fun hm => (visible_of_mem_name hn hm).2.2.2 rfl) _
  have hc : cookie? piece = some (cookiePrefix ++ name, cookieValue t) := by
    simp only [cookie?, h, hcut, Option.map_some, hname, hvalue, unquote_cookieValue]
  simp only [hc, entry?, Option.bind_some, dropStart?_self_append, Option.map_some,
    cookieText_cookieValue]

/-- **A pair of another name is read as no property.** -/
theorem entry?_of_foreign {piece : Text} (h : Foreign piece) : entry? piece = none := by
  unfold entry? cookie?
  cases hcut : cut? '=' (Text.trim piece) with
  | none => rfl
  | some pair =>
    obtain ⟨before, after⟩ := pair
    obtain ⟨heq, hnot⟩ := cut?_eq_some hcut
    obtain ⟨front, back, hp, hblank⟩ := Text.exists_append_trim piece
    -- the name of the whole piece is the one behind the blanks in front
    have hfront : '=' ∉ front := fun hm => absurd (hblank _ hm) (by decide)
    have hpiece : piece = (front ++ before) ++ '=' :: (after ++ back) := by
      rw [hp, heq]
      simp
    have hforeign := h _ _ hpiece fun hm => (List.mem_append.1 hm).elim hfront hnot
    rw [Text.trim_append_of_blank hblank] at hforeign
    have hdrop : dropStart? cookiePrefix (Text.trim before) = none := by
      rw [Option.eq_none_iff_forall_ne_some]
      intro key hkey
      rw [dropStart?_eq_some_iff.1 hkey] at hforeign
      exact hforeign (List.isPrefixOf_iff_prefix.2 (List.prefix_append _ _))
    simp only [Option.map_some, Option.bind_some, hdrop, Option.map_none]

end Properties

end SessionGateway
