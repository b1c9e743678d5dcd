/-
  Properties in cookies — what a response leaves with its client, and what the client brings back.

  A response sets one cookie for each property whose name is a token (`Properties.sendable`).  The
  client keeps the pair of each, the octets up to the first semicolon, and sends these pairs back
  among others (`SendsBack`).

  * `getAll_writeTo`: the cookies of a response, behind those that were set before;
  * `ofHeaders?_of_sendsBack`: pairs of properties are read as these properties, in any order, over
    any number of lines, and whatever other pairs stand between them;
  * `cookie_round_trip`: every cookie consists of its pair and of the attributes that are meant,
    and the pairs bring back the properties whose names are tokens, and no others.
-/
import SessionGateway.Proofs.Dispatch.Runs
import SessionGateway.Proofs.Http.Headers
import SessionGateway.Proofs.Session.Cookies
import SessionGateway.Proofs.Session.Entries

namespace SessionGateway

/-! ## Pieces between semicolons -/

/-- The octet of the semicolon. -/
def semicolon : UInt8 := 0x3B

/-- What the pieces and the separator have, the whole has. -/
theorem forall_mem_intercalate {α : Type} {P : α → Prop} {sep : List α} {pieces : List (List α)}
    (hs : ∀ x ∈ sep, P x) (hp : ∀ piece ∈ pieces, ∀ x ∈ piece, P x) :
    ∀ x ∈ sep.intercalate pieces, P x := by
  induction pieces with
  | nil => nofun
  | cons piece pieces ih =>
    rw [List.forall_mem_cons] at hp
    cases pieces with
    | nil =>
      rw [List.intercalate_singleton]
      exact hp.1
    | cons next pieces =>
      rw [List.intercalate_cons_cons, List.forall_mem_append, List.forall_mem_append]
      exact ⟨⟨hp.1, hs⟩, ih hp.2⟩

theorem Utf8.semicolon_notMem {t : Text} (h : ';' ∉ t) : semicolon ∉ encode t := by
  intro hm
  obtain ⟨c, hc, he⟩ := mem_encode_of_lt hm (by decide)
  exact h (Char.toNat_inj.1 (he.trans rfl : c.toNat = ';'.toNat) ▸ hc)

theorem Utf8.encode_intercalate (ts : List Text) :
    encode ([';'].intercalate ts) = [semicolon].intercalate (ts.map encode) := by
  induction ts with
  | nil => rfl
  | cons t ts ih =>
    cases ts with
    | nil => simp only [List.map_cons, List.map_nil, List.intercalate_singleton]
    | cons u ts =>
      rw [List.map_cons, List.map_cons, List.intercalate_cons_cons, List.intercalate_cons_cons,
        encode_append, encode_append, ih]
      rfl

namespace Properties
variable {σ : Type}

/-! ## Responses -/

/-- The properties whose names are tokens. -/
def sendable (p : Properties) : Properties :=
  ⟨p.entries.filter fun e => isCookieName e.1, p.sorted.filter _⟩

theorem mem_sendable {p : Properties} {e : Text × Text} :
    e ∈ p.sendable.entries ↔ e ∈ p.entries ∧ CookieName e.1 := by
  rw [sendable, List.mem_filter, isCookieName_iff]

/-- The name under which a response sets cookies. -/
def setCookieName : Text := "set-cookie".toList

/-- A path that can stand in a cookie: without semicolons and control characters. -/
def CookiePath (path : Text) : Prop := ∀ c ∈ path, c ≠ ';' ∧ 0x20 ≤ c.toNat ∧ c.toNat ≠ 0x7F

/-- What stands behind the pair of a cookie. -/
def attributes (path : Text) (secure : Bool) : List Text :=
  (" Path=".toList ++ path) :: if secure then [" Secure".toList] else []

/-- A cookie is its pair and its attributes, between semicolons. -/
theorem setCookie_eq (path : Text) (secure : Bool) (e : Text × Text) :
    setCookie path secure e.1 e.2 = [';'].intercalate (ownPair e :: attributes path secure) := by
  cases secure <;> simp [setCookie, ownPair, attributes, List.intercalate_cons_cons]

variable {p : Properties} {path : Text} {secure : Bool} {e : Text × Text}

/-- No piece of a cookie has a semicolon, if the path has none. -/
theorem semicolon_notMem_pieces (hpath : ';' ∉ path) (he : e ∈ p.sendable.entries) :
    ∀ piece ∈ ownPair e :: attributes path secure, ';' ∉ piece := by
  rw [List.forall_mem_cons, attributes, List.forall_mem_cons, List.mem_append]
  refine ⟨fun hm => (visible_of_mem_ownPair (mem_sendable.1 he).2 hm).2.2 rfl,
    fun hm => hm.elim (by decide) hpath, ?_⟩
  cases secure with
  | true => exact List.forall_mem_singleton.2 (by decide)
  | false => nofun

/-- A cookie can be written if its path can. -/
theorem writable_setCookie (hpath : ∀ c ∈ path, Header.Writable c)
    (he : e ∈ p.sendable.entries) : ∀ c ∈ setCookie path secure e.1 e.2, Header.Writable c := by
  have hpair : ∀ c ∈ ownPair e, Header.Writable c := by
    intro c hc
    obtain ⟨hlow, hhigh, -⟩ := visible_of_mem_ownPair (mem_sendable.1 he).2 hc
    exact .inr ⟨by omega, by omega⟩
  have hlabel : ∀ c ∈ " Path=".toList, Header.Writable c := by decide
  have hsecure : ∀ c ∈ " Secure".toList, Header.Writable c := by decide
  rw [setCookie_eq]
  refine forall_mem_intercalate (by decide) ?_
  rw [List.forall_mem_cons, attributes, List.forall_mem_cons, List.forall_mem_append]
  refine ⟨hpair, ⟨hlabel, hpath⟩, ?_⟩
  cases secure with
  | true => exact List.forall_mem_singleton.2 hsecure
  | false => nofun

/-- The cookies of a response, as octets. -/
def setCookies (p : Properties) (path : Text) (secure : Bool) : List Bytes :=
  p.sendable.entries.map fun e => Utf8.encode (setCookie path secure e.1 e.2)

/-- **A response sets a cookie for each property whose name is a token**, behind those that were
    set before. -/
theorem getAll_writeTo (p : Properties) (hpath : ∀ c ∈ path, Header.Writable c) (secure : Bool)
    (h : Headers) :
    (p.writeTo path secure h).getAll setCookieName =
      h.getAll setCookieName ++ p.setCookies path secure := by
  have hfold : ∀ (es : List (Text × Text)) (h : Headers), (∀ e ∈ es, e ∈ p.sendable.entries) →
      (es.foldl (fun h e => h.add setCookieName (setCookie path secure e.1 e.2)) h).getAll
          setCookieName =
        h.getAll setCookieName ++ es.map fun e => Utf8.encode (setCookie path secure e.1 e.2) := by
    intro es
    induction es with
    | nil => intro h _; exact (List.append_nil _).symm
    | cons e es ih =>
      intro h hes
      rw [List.forall_mem_cons] at hes
      rw [List.foldl_cons, ih _ hes.2, Headers.getAll_add,
        Header.ofText?_of_writable (writable_setCookie hpath hes.1), List.append_assoc]
      rfl
  unfold writeTo
  split
  · next he => rw [isEmpty_iff.1 he]; exact (List.append_nil _).symm
  · rw [show "set-cookie".toList = setCookieName from rfl]
    refine (hfold p.sendable.entries _ fun e he => he).trans ?_
    rw [Headers.getAll_set_of_ne _ _ (by decide)]
    rfl

/-- **A cookie splits at its semicolons into its pair and its attributes.** -/
theorem splitOn_setCookie (hpath : ';' ∉ path) (he : e ∈ p.sendable.entries) :
    (Utf8.encode (setCookie path secure e.1 e.2)).splitOn semicolon =
      Utf8.encode (ownPair e) :: (attributes path secure).map Utf8.encode := by
  rw [setCookie_eq, Utf8.encode_intercalate, List.splitOn_intercalate]
  · rfl
  · intro piece hpiece
    obtain ⟨t, ht, rfl⟩ := List.mem_map.1 hpiece
    exact Utf8.semicolon_notMem (semicolon_notMem_pieces hpath he t ht)
  · nofun

/-- The pair of a cookie: its octets up to the first semicolon. -/
def pairOf (value : Bytes) : Bytes := value.takeWhile (· != semicolon)

theorem pairOf_setCookie (he : e ∈ p.sendable.entries) :
    pairOf (Utf8.encode (setCookie path secure e.1 e.2)) = Utf8.encode (ownPair e) := by
  have hpair : ∀ b ∈ Utf8.encode (ownPair e), (b != semicolon) = true := by
    intro b hb
    rw [bne_iff_ne]
    rintro rfl
    exact Utf8.semicolon_notMem
      (fun hm => (visible_of_mem_ownPair (mem_sendable.1 he).2 hm).2.2 rfl) hb
  rw [setCookie_eq, attributes, List.intercalate_cons_cons, Utf8.encode_append,
    Utf8.encode_append, pairOf, List.append_assoc, List.takeWhile_append_of_pos hpair]
  exact List.append_nil _

/-! ## Requests -/

/-- A character that can stand in a piece. -/
def PieceChar (c : Char) : Prop := c ≠ ';' ∧ (c.toNat = 9 ∨ (0x20 ≤ c.toNat ∧ c.toNat ≤ 0x7E))

instance (c : Char) : Decidable (PieceChar c) := inferInstanceAs (Decidable (_ ∧ _))

/-- A request sends pairs back: in the lines of its cookies, whose pieces stand between semicolons,
    each pair has a place, and every other piece is readable text with another name.  There may be
    blanks around a piece.  The request has no header for properties. -/
structure SendsBack (h : Headers) (pairs : List Bytes) : Prop where
  noHeader : h.get? headerName = none
  lines : ∃ lines : List (List Text),
    h.getAll "cookie".toList = lines.map (fun pieces => Utf8.encode ([';'].intercalate pieces)) ∧
    (∀ piece ∈ lines.flatten,
      (∀ c ∈ piece, PieceChar c) ∧
        (Utf8.encode (Text.trim piece) ∈ pairs ∨ Foreign piece)) ∧
    ∀ pair ∈ pairs, ∃ piece ∈ lines.flatten, Utf8.encode (Text.trim piece) = pair

/-- The pieces of a line are read one by one. -/
theorem line_cookies {pieces : List Text} (h : ∀ piece ∈ pieces, ∀ c ∈ piece, PieceChar c) :
    ∃ line, Header.text? (Utf8.encode ([';'].intercalate pieces)) = some line ∧
      (line.splitOn ';').filterMap cookie? = pieces.filterMap cookie? := by
  refine ⟨_, Header.text?_encode ?_, ?_⟩
  · exact forall_mem_intercalate (by decide) fun piece hpiece c hc => (h piece hpiece c hc).2
  · cases pieces with
    | nil => rfl
    | cons piece pieces =>
      rw [List.splitOn_intercalate ';' (fun l hl hm => (h l hl _ hm).1 rfl) (List.cons_ne_nil _ _)]

theorem cookies_of_lines {h : Headers} {lines : List (List Text)}
    (hl : h.getAll "cookie".toList = lines.map fun pieces => Utf8.encode ([';'].intercalate pieces))
    (hp : ∀ pieces ∈ lines, ∀ piece ∈ pieces, ∀ c ∈ piece, PieceChar c) :
    cookies h = lines.flatten.filterMap cookie? := by
  rw [cookies, hl]
  clear hl
  induction lines with
  | nil => rfl
  | cons pieces lines ih =>
    rw [List.forall_mem_cons] at hp
    obtain ⟨line, htext, hcookies⟩ := line_cookies hp.1
    rw [List.map_cons, List.filterMap_cons_some htext, List.flatMap_cons, ih hp.2, hcookies,
      List.flatten_cons, List.filterMap_append]

/-- **Pairs of properties are read as these properties**, in any order, over any number of lines,
    and whatever other pairs stand between them. -/
theorem ofHeaders?_of_sendsBack {h : Headers} {q : Properties} (hq : q.sendable = q)
    (hs : SendsBack h (q.entries.map fun e => Utf8.encode (ownPair e))) :
    ofHeaders? h = some q := by
  obtain ⟨hnone, lines, hl, hp, hall⟩ := hs
  have hname : ∀ e ∈ q.entries, CookieName e.1 := fun e he => (mem_sendable.1 (hq ▸ he)).2
  have hchar : ∀ pieces ∈ lines, ∀ piece ∈ pieces, ∀ c ∈ piece, PieceChar c :=
    fun pieces hpieces piece hpiece => (hp piece (List.mem_flatten.2 ⟨pieces, hpieces, hpiece⟩)).1
  have hown : ∀ piece e, e ∈ q.entries → Utf8.encode (Text.trim piece) = Utf8.encode (ownPair e) →
      entry? piece = some e := by
    intro piece e he henc
    have hdec := congrArg Utf8.decode? henc
    rw [Utf8.decode?_encode, Utf8.decode?_encode] at hdec
    exact entry?_ownPair (hname e he) (Option.some.inj hdec)
  have hofCookies : ofCookies h = ofList (lines.flatten.filterMap entry?) := by
    rw [ofCookies, cookies_of_lines hl hchar, List.filterMap_filterMap]
    rfl
  simp only [ofHeaders?, hnone]
  rw [hofCookies]
  refine congrArg some (ofList_eq_of_mem_iff fun e => ?_)
  rw [List.mem_filterMap]
  constructor
  · rintro ⟨piece, hpiece, hentry⟩
    rcases (hp piece hpiece).2 with hpair | hforeign
    · obtain ⟨e', he', heq⟩ := List.mem_map.1 hpair
      rw [hown piece e' he' heq.symm] at hentry
      cases hentry
      exact he'
    · rw [entry?_of_foreign hforeign] at hentry
      cases hentry
  · intro he
    obtain ⟨piece, hpiece, heq⟩ := hall _ (List.mem_map_of_mem he)
    exact ⟨piece, hpiece, hown piece e he heq⟩

theorem sendable_sendable (p : Properties) : p.sendable.sendable = p.sendable :=
  ext (by simp [sendable, List.filter_filter])

/-- **The cookie round trip.**  Each cookie that a response sets splits at its semicolons into the
    pair of a property, the path, and the mark of secure channels if that is wanted; and a request
    that sends all these pairs back gives a session the properties whose names are tokens, and no
    others. -/
theorem cookie_round_trip (p : Properties) {path : Text} (hpath : CookiePath path) (secure : Bool)
    (before : Headers) :
    ∃ added, (p.writeTo path secure before).getAll setCookieName =
        before.getAll setCookieName ++ added ∧
      (∀ value ∈ added, ∃ name t, p.get? name = some t ∧ CookieName name ∧
        value.splitOn semicolon =
          Utf8.encode (cookiePrefix ++ name ++ '=' :: cookieValue t) ::
            Utf8.encode (" Path=".toList ++ path) ::
              if secure then [Utf8.encode " Secure".toList] else []) ∧
      ∀ h, SendsBack h (added.map pairOf) → ∀ s : Stage σ,
        ((Service.bringIn h).runAt s).1 = .ok () ∧
          ∀ name t, ((Service.bringIn h).runAt s).2.session.properties.get? name = some t ↔
            p.get? name = some t ∧ CookieName name := by
  refine ⟨p.setCookies path secure,
    p.getAll_writeTo (fun c hc => .inr (hpath c hc).2) secure before, ?_, fun h hs s => ?_⟩
  · intro value hv
    obtain ⟨⟨name, t⟩, he, rfl⟩ := List.mem_map.1 hv
    obtain ⟨hmem, hname⟩ := mem_sendable.1 he
    refine ⟨name, t, get?_eq_some_iff.2 hmem, hname, ?_⟩
    rw [splitOn_setCookie (fun hm => (hpath _ hm).1 rfl) he]
    cases secure <;> rfl
  · have hpairs : (p.setCookies path secure).map pairOf =
        p.sendable.entries.map fun e => Utf8.encode (ownPair e) := by
      rw [setCookies, List.map_map]
      exact List.map_congr_left fun e he => pairOf_setCookie he
    rw [hpairs] at hs
    have hp := ofHeaders?_of_sendsBack p.sendable_sendable hs
    have hrun : (Service.bringIn h).runAt s = (.ok (), { s.withProperties p.sendable with
        trace := s.trace ++ [.setProperties p.sendable] }) := by
      rw [Service.runAt_bringIn, Stage.broughtIn, hp]
    rw [hrun]
    refine ⟨rfl, fun name t => ?_⟩
    show p.sendable.get? name = some t ↔ _
    rw [get?_eq_some_iff, get?_eq_some_iff, mem_sendable]

/-- A client sends two pairs back on two lines, in the other order and beside one of another site;
    the property whose name is no token had no cookie. -/
theorem cookie_round_trip_lines :
    let p := ofList [("lang".toList, "en".toList), ("name".toList, "hé; there".toList),
      ("two words".toList, "v".toList)]
    let path := "/rest_ws/crm".toList
    let lines := [["ws.userproperty.name=B64p_aMOpOyB0aGVyZQ==".toList, " theme=dark".toList],
      ["ws.userproperty.lang=en".toList]]
    let h := Headers.ofList (lines.map fun pieces =>
      ("Cookie".toList, Utf8.encode ([';'].intercalate pieces)))
    let s : Stage Unit := .start ⟨.new "crm".toList, ofList [("old".toList, "1".toList)]⟩ .new [] ()
    CookiePath path ∧
      SendsBack h (((p.writeTo path true .empty).getAll setCookieName).map pairOf) ∧
      ∀ name t, ((Service.bringIn h).runAt s).2.session.properties.get? name = some t ↔
        p.get? name = some t ∧ CookieName name := by
  intro p path lines h s
  have hpath : CookiePath path := by unfold CookiePath; decide
  have htheme : '=' ∉ " theme".toList := by decide
  have hforeign : Foreign " theme=dark".toList :=
    foreign_of_name htheme (by decide) "dark".toList
  have hpairs : ((p.writeTo path true .empty).getAll setCookieName).map pairOf =
      ["ws.userproperty.lang=en".toList,
        "ws.userproperty.name=B64p_aMOpOyB0aGVyZQ==".toList].map Utf8.encode := by
    decide +kernel
  have hsends : SendsBack h
      (((p.writeTo path true .empty).getAll setCookieName).map pairOf) := by
    rw [hpairs]
    refine ⟨by decide +kernel, lines, by decide +kernel, ?_, by decide +kernel⟩
    have hown : ∀ piece ∈ lines.flatten, (∀ c ∈ piece, PieceChar c) ∧
        (Utf8.encode (Text.trim piece) ∈ ["ws.userproperty.lang=en".toList,
          "ws.userproperty.name=B64p_aMOpOyB0aGVyZQ==".toList].map Utf8.encode ∨
            piece = " theme=dark".toList) := by
      unfold PieceChar
      decide +kernel
    intro piece hm
    obtain ⟨hchar, hpair⟩ := hown piece hm
    refine ⟨hchar, hpair.imp id ?_⟩
    rintro rfl
    exact hforeign
  obtain ⟨added, hadded, -, hback⟩ := cookie_round_trip (σ := Unit) p hpath true .empty
  have hcookies : (p.writeTo path true .empty).getAll setCookieName = added := hadded
  exact ⟨hpath, hsends, (hback h (hcookies ▸ hsends) s).2⟩

end Properties

end SessionGateway
