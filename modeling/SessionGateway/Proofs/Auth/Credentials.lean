/-
  Credentials — the headers that state a user and a password.

  A header states credentials (`StatedBy`) if it is the scheme, and then, between blanks, the Base64
  of the UTF-8 octets of the user, a colon and the password.  As both codings have one written form
  of everything, and a user has no colon, a header states at most one pair.

  * `ofPair?_eq_some_iff`, `ofHeader?_eq_some_iff`: what is read of a pair, and of a header;
  * `statedBy_written`: every pair that can be stated is stated by a header that can be written;
  * `ofHeaders?_exact`: the credentials of a request are those that its first authorization header
    states.
-/
import SessionGateway.Auth.Credentials
import SessionGateway.Proofs.Session.Cookies
import SessionGateway.Proofs.Text.Cutting
import SessionGateway.Proofs.Text.Strictness

namespace SessionGateway.Credentials

variable {c : Credentials} {t : Text} {h : Headers}

theorem isBlank_eq_true_iff : isBlank t = true ↔ ∀ ch ∈ t, Text.isBlank ch = true := by
  rw [isBlank, List.isEmpty_iff, Text.trim, trimBy_eq_nil_iff]

/-- A user and a password that can be stated: the user has no colon, and neither is blank. -/
structure Statable (c : Credentials) : Prop where
  colon : ':' ∉ c.user
  user : ¬ ∀ ch ∈ c.user, Text.isBlank ch = true
  password : ¬ ∀ ch ∈ c.password, Text.isBlank ch = true

/-- The text that stands for a user and a password behind the scheme. -/
def token (c : Credentials) : Text := Base64.encode (Utf8.encode (c.user ++ ':' :: c.password))

/-- The text of a header states a user and a password. -/
structure StatedBy (c : Credentials) (t : Text) : Prop where
  statable : c.Statable
  scheme : Text.lower (t.take 6) = "basic ".toList
  token : Text.trim (t.drop 6) = c.token

/-! ## Reading -/

/-- **What is read of a pair** are its parts around the first colon. -/
theorem ofPair?_eq_some_iff :
    ofPair? t = some c ↔ t = c.user ++ ':' :: c.password ∧ c.Statable := by
  simp only [ofPair?, Option.bind_eq_some_iff, Prod.exists, cut?_eq_some_iff]
  constructor
  · rintro ⟨user, password, ⟨rfl, hcolon⟩, hread⟩
    split at hread
    · cases hread
    · next hblank =>
      cases hread
      rw [Bool.or_eq_true, not_or, isBlank_eq_true_iff, isBlank_eq_true_iff] at hblank
      exact ⟨rfl, hcolon, hblank.1, hblank.2⟩
  · rintro ⟨rfl, hcolon, huser, hpassword⟩
    refine ⟨c.user, c.password, ⟨rfl, hcolon⟩, if_neg ?_⟩
    rw [Bool.or_eq_true, not_or, isBlank_eq_true_iff, isBlank_eq_true_iff]
    exact ⟨huser, hpassword⟩

/-- **What is read of a header** is what it states. -/
theorem ofHeader?_eq_some_iff : ofHeader? t = some c ↔ c.StatedBy t := by
  have hscheme : Text.sameLetters (t.take scheme.length) scheme = true ↔
      Text.lower (t.take 6) = "basic ".toList := beq_iff_eq
  rw [ofHeader?]
  split
  · next hs =>
    simp only [Option.bind_eq_some_iff, Base64.decode?_eq_some_iff, Utf8.decode?_eq_some_iff,
      ofPair?_eq_some_iff]
    constructor
    · rintro ⟨pair, ⟨octets, htoken, rfl⟩, rfl, hc⟩
      exact ⟨hc, hscheme.1 hs, htoken⟩
    · rintro ⟨hc, -, htoken⟩
      exact ⟨_, ⟨_, htoken, rfl⟩, rfl, hc⟩
  · next hs => exact ⟨nofun, fun hc => absurd (hscheme.2 hc.scheme) hs⟩

/-! ## Writing -/

/-- The text of a header that states a user and a password. -/
def written (c : Credentials) : Text := "Basic ".toList ++ c.token

/-- What is written in Base64 is visible. -/
theorem visible_of_mem_encode {bs : Bytes} {ch : Char} (h : ch ∈ Base64.encode bs) :
    0x21 ≤ ch.toNat ∧ ch.toNat ≤ 0x7E := by
  have hsymbol : ∀ n : Fin 64,
      0x21 ≤ (Base64.symbol n.val).toNat ∧ (Base64.symbol n.val).toNat ≤ 0x7E := by decide
  rcases Base64.mem_encode h with rfl | ⟨n, rfl⟩
  · decide
  · exact hsymbol n

theorem statedBy_written (hc : c.Statable) : c.StatedBy c.written where
  statable := hc
  scheme := by
    have hlength : "Basic ".toList.length = 6 := rfl
    rw [written, List.take_left' hlength]
    decide
  token := by
    have hlength : "Basic ".toList.length = 6 := rfl
    rw [written, List.drop_left' hlength]
    exact Text.trim_eq_self fun ch hch =>
      have hv := visible_of_mem_encode hch
      Properties.isBlank_of_visible hv.1 hv.2

theorem text?_written (c : Credentials) : Header.text? (Utf8.encode c.written) = some c.written := by
  refine Header.text?_encode fun ch hch => .inr ?_
  rcases List.mem_append.1 hch with hch | hch
  · have hscheme : ∀ ch ∈ "Basic ".toList, 0x20 ≤ ch.toNat ∧ ch.toNat ≤ 0x7E := by decide
    exact hscheme ch hch
  · have hv := visible_of_mem_encode hch
    exact ⟨by omega, hv.2⟩

/-! ## Requests -/

/-- **The credentials of a request are those that its first authorization header states**, and a
    header states at most one user and password; every pair that can be stated is recovered from the
    header that is written for it. -/
theorem ofHeaders?_exact :
    (∀ (h : Headers) (c : Credentials), ofHeaders? h = some c ↔
      ∃ value t, (h.getAll HeaderName.authorization).head? = some value ∧
        Header.text? value = some t ∧ c.StatedBy t) ∧
    (∀ c : Credentials, c.Statable → ∀ h : Headers,
      (h.getAll HeaderName.authorization).head? = some (Utf8.encode c.written) →
        ofHeaders? h = some c) ∧
    ∀ (t : Text) (c c' : Credentials), c.StatedBy t → c'.StatedBy t → c = c' := by
  have hexact : ∀ (h : Headers) (c : Credentials), ofHeaders? h = some c ↔
      ∃ value t, (h.getAll HeaderName.authorization).head? = some value ∧
        Header.text? value = some t ∧ c.StatedBy t := by
    intro h c
    simp only [ofHeaders?, Headers.text?, Headers.get?_eq_head?, Option.bind_eq_some_iff,
      ofHeader?_eq_some_iff]
    constructor
    · rintro ⟨t, ⟨value, hvalue, ht⟩, hc⟩
      exact ⟨value, t, hvalue, ht, hc⟩
    · rintro ⟨value, t, hvalue, ht, hc⟩
      exact ⟨t, ⟨value, hvalue, ht⟩, hc⟩
  refine ⟨hexact, fun c hc h hvalue => ?_, fun t c c' hc hc' => ?_⟩
  · exact (hexact h c).2 ⟨_, c.written, hvalue, text?_written c, statedBy_written hc⟩
  · have hread := ofHeader?_eq_some_iff.2 hc
    rw [ofHeader?_eq_some_iff.2 hc'] at hread
    exact (Option.some.inj hread).symm

/-- A password with colons, an accent and a line feed. -/
theorem ofHeaders?_exact_accent :
    let c : Credentials := ⟨"anna".toList, ":pä:\n".toList⟩
    let h : Headers := ⟨[(HeaderName.authorization, Utf8.encode c.written),
      (HeaderName.authorization, Utf8.encode "Basic eDp5".toList)]⟩
    c.Statable ∧ c.written = "Basic YW5uYTo6cMOkOgo=".toList ∧ ofHeaders? h = some c := by
  intro c h
  have hc : c.Statable := ⟨by decide, by decide, by decide⟩
  exact ⟨hc, by decide +kernel, ofHeaders?_exact.2.1 c hc h rfl⟩

end SessionGateway.Credentials
