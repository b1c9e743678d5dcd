/-
  Cookie jars — what a client keeps of the responses that it gets.

  A client stores every cookie under its name; a new value takes the place of the old one, and
  nothing is removed.  A jar holds properties (`Jar.Holds`) if its cookies with names of properties
  are the cookies of these, and no others.

  * `Holds.receive`: what a response leaves in the jar are the properties that it carries, over
    those that the jar held before;
  * `Holds.ofHeaders?`: a request that sends these cookies brings in the properties of the jar.
-/
import SessionGateway.Proofs.Session.CookieBridge

namespace SessionGateway

open Properties

/-! ## Properties over properties -/

namespace Properties

/-- The properties `p`, and those of `q` under all other names. -/
def overlay (p q : Properties) : Properties := p.entries.foldl (fun m e => m.insert e.1 e.2) q

theorem mem_insert {p : Properties} {name t : Text} {e : Text × Text} :
    e ∈ (p.insert name t).entries ↔ e = (name, t) ∨ (e.1 ≠ name ∧ e ∈ p.entries) := by
  obtain ⟨n, s⟩ := e
  rw [← get?_eq_some_iff, ← get?_eq_some_iff, get?_insert, Prod.mk.injEq]
  by_cases hn : n = name
  · simp [hn, eq_comm]
  · simp [hn]

/-- The properties whose names can be those of cookies. -/
theorem sendable_eq_self_iff {p : Properties} :
    p.sendable = p ↔ ∀ e ∈ p.entries, CookieName e.1 := by
  constructor
  · intro h e he
    exact (mem_sendable.1 (h ▸ he)).2
  · intro h
    exact ext (eq_of_mem_iff p.sendable.sorted p.sorted fun e =>
      mem_sendable.trans (and_iff_left_of_imp (h e)))

end Properties

/-! ## Jars -/

/-- The cookies of a client: values under names, each name once. -/
structure Jar where
  cookies : List (Bytes × Bytes)
  distinct : (cookies.map (·.1)).Nodup

namespace Jar

/-- No cookies. -/
def empty : Jar := ⟨[], .nil⟩

/-- Keeps a value under a name, in place of the one that was there. -/
def put (j : Jar) (name value : Bytes) : Jar where
  cookies := j.cookies.filter (·.1 != name) ++ [(name, value)]
  distinct := by
    rw [List.map_append, List.nodup_append]
    refine ⟨(j.cookies.filter_sublist.map _).nodup j.distinct, by simp, ?_⟩
    intro a ha b hb
    obtain ⟨c, hc, rfl⟩ := List.mem_map.1 ha
    rw [List.mem_singleton.1 hb]
    simpa using (List.mem_filter.1 hc).2

/-- The octet between the name and the value of a pair. -/
def equals : UInt8 := 0x3D

/-- The white space around the parts of a pair. -/
def isBlank (b : UInt8) : Bool := b == 0x20 || b == 0x09

/-- Stores a cookie under its name. -/
def store (j : Jar) (setCookie : Bytes) : Jar :=
  match cut? equals (pairOf setCookie) with
  | some (name, value) => j.put (trimBy isBlank name) (trimBy isBlank value)
  | none => j

/-- Stores the cookies of a response. -/
def receive (j : Jar) (setCookies : List Bytes) : Jar := setCookies.foldl store j

/-- What the names of property cookies begin with, as octets. -/
def ownPrefix : Bytes := Utf8.encode cookiePrefix

/-- A cookie of a response that looks like one of a property. -/
def Lookalike (setCookie : Bytes) : Prop := ownPrefix <+: setCookie.dropWhile isBlank

instance (setCookie : Bytes) : Decidable (Lookalike setCookie) :=
  inferInstanceAs (Decidable (_ <+: _))

/-- The pairs of the cookies with names of properties. -/
def pairs (j : Jar) : List Bytes :=
  (j.cookies.filter fun c => ownPrefix.isPrefixOf c.1).map fun c => c.1 ++ equals :: c.2

theorem mem_put {j : Jar} {name value : Bytes} {c : Bytes × Bytes} :
    c ∈ (j.put name value).cookies ↔ (c.1 ≠ name ∧ c ∈ j.cookies) ∨ c = (name, value) := by
  simp [put, and_comm]

/-! ## Properties in a jar -/

/-- The cookie of a property, as a name and a value. -/
def own (e : Text × Text) : Bytes × Bytes :=
  (Utf8.encode (cookiePrefix ++ e.1), Utf8.encode (cookieValue e.2))

theorem own_fst_inj {e f : Text × Text} : (own e).1 = (own f).1 ↔ e.1 = f.1 := by
  constructor
  · intro h
    have hd := congrArg Utf8.decode? h
    rw [own, own, Utf8.decode?_encode, Utf8.decode?_encode] at hd
    exact List.append_cancel_left (Option.some.inj hd)
  · intro h
    rw [own, own, h]

theorem encode_ownPair (e : Text × Text) :
    Utf8.encode (ownPair e) = (own e).1 ++ equals :: (own e).2 := by
  rw [ownPair, Utf8.encode_append]
  rfl

theorem ownPrefix_prefix (e : Text × Text) : ownPrefix.isPrefixOf (own e).1 = true := by
  rw [own, Utf8.encode_append]
  exact List.isPrefixOf_iff_prefix.2 (List.prefix_append _ _)

/-- The cookies with names of properties are those of the given ones. -/
structure Holds (j : Jar) (p : Properties) : Prop where
  names : ∀ e ∈ p.entries, CookieName e.1
  cookies : ∀ c, c ∈ j.cookies ∧ ownPrefix.isPrefixOf c.1 = true ↔ ∃ e ∈ p.entries, c = own e

namespace Holds
variable {j : Jar} {p q : Properties}

theorem empty : Jar.empty.Holds .empty where
  names := nofun
  cookies c := by
    constructor
    · rintro ⟨⟨⟩, -⟩
    · rintro ⟨e, ⟨⟩, -⟩

theorem mem_pairs (h : j.Holds p) (pair : Bytes) :
    pair ∈ j.pairs ↔ pair ∈ p.entries.map fun e => Utf8.encode (ownPair e) := by
  simp only [pairs, List.mem_map, List.mem_filter, h.cookies]
  constructor
  · rintro ⟨c, ⟨e, he, rfl⟩, rfl⟩
    exact ⟨e, he, encode_ownPair e⟩
  · rintro ⟨e, he, rfl⟩
    exact ⟨own e, ⟨e, he, rfl⟩, (encode_ownPair e).symm⟩

/-- **A request that sends the cookies of a jar brings in what the jar holds.** -/
theorem ofHeaders? (h : j.Holds p) {headers : Headers} (hs : SendsBack headers j.pairs) :
    Properties.ofHeaders? headers = some p := by
  obtain ⟨hnone, lines, hl, hp, hall⟩ := hs
  refine ofHeaders?_of_sendsBack (sendable_eq_self_iff.2 h.names) ⟨hnone, lines, hl, ?_, ?_⟩
  · exact fun piece hpiece => ⟨(hp piece hpiece).1, (hp piece hpiece).2.imp (h.mem_pairs _).1 id⟩
  · exact fun pair hpair => hall pair ((h.mem_pairs pair).2 hpair)

/-- The cookie of a property takes the place of the one that was there. -/
theorem put_own (h : j.Holds p) {e : Text × Text} (he : CookieName e.1) :
    (j.put (own e).1 (own e).2).Holds (p.insert e.1 e.2) where
  names f hf := by
    rcases mem_insert.1 hf with rfl | ⟨-, hf⟩
    · exact he
    · exact h.names f hf
  cookies c := by
    simp only [mem_put, mem_insert, or_and_right, exists_or, exists_eq_left, and_assoc]
    constructor
    · rintro (⟨hne, hc⟩ | ⟨rfl, -⟩)
      · obtain ⟨f, hf, rfl⟩ := (h.cookies c).1 hc
        exact .inr ⟨f, fun heq => hne (own_fst_inj.2 heq), hf, rfl⟩
      · exact .inl rfl
    · rintro (rfl | ⟨f, hne, hf, rfl⟩)
      · exact .inr ⟨rfl, ownPrefix_prefix e⟩
      · exact .inl ⟨fun heq => hne (own_fst_inj.1 heq), (h.cookies _).2 ⟨f, hf, rfl⟩⟩

/-- A cookie of another name leaves the properties alone. -/
theorem put_other (h : j.Holds p) {name value : Bytes} (hn : ownPrefix.isPrefixOf name = false) :
    (j.put name value).Holds p where
  names := h.names
  cookies c := by
    rw [← h.cookies, mem_put]
    constructor
    · rintro ⟨⟨-, hc⟩ | rfl, hp⟩
      · exact ⟨hc, hp⟩
      · rw [hn] at hp
        cases hp
    · rintro ⟨hc, hp⟩
      refine ⟨.inl ⟨?_, hc⟩, hp⟩
      rintro rfl
      rw [hn] at hp
      cases hp

/-- No octet of the cookie of a property is white space. -/
theorem trimBy_own {e : Text × Text} (he : CookieName e.1) :
    trimBy isBlank (own e).1 = (own e).1 ∧ trimBy isBlank (own e).2 = (own e).2 := by
  have hvisible : ∀ b ∈ Utf8.encode (ownPair e), isBlank b = false := by
    intro b hb
    rw [Bool.eq_false_iff]
    intro hblank
    rw [isBlank, Bool.or_eq_true, beq_iff_eq, beq_iff_eq] at hblank
    obtain ⟨c, hc, hcb⟩ := Utf8.mem_encode_of_lt hb (by rcases hblank with rfl | rfl <;> decide)
    have hlow := (visible_of_mem_ownPair he hc).1
    rcases hblank with rfl | rfl <;> exact absurd (hcb ▸ hlow) (by decide)
  rw [encode_ownPair, List.forall_mem_append, List.forall_mem_cons] at hvisible
  exact ⟨trimBy_eq_self hvisible.1, trimBy_eq_self hvisible.2.2⟩

theorem store_setCookie (h : j.Holds p) {e : Text × Text} (he : e ∈ q.sendable.entries)
    (path : Text) (secure : Bool) :
    (j.store (Utf8.encode (setCookie path secure e.1 e.2))).Holds (p.insert e.1 e.2) := by
  have hname : CookieName e.1 := (mem_sendable.1 he).2
  have hnot : equals ∉ (own e).1 := by
    intro hm
    obtain ⟨c, hc, heq⟩ := Utf8.mem_encode_of_lt hm (by decide)
    have hequals : c = '=' := Char.toNat_inj.1 (heq.trans rfl : c.toNat = '='.toNat)
    exact (visible_of_mem_name hname hc).2.2.2 hequals
  obtain ⟨htrimmed, htrimmed'⟩ := trimBy_own hname
  simp only [store, pairOf_setCookie he, encode_ownPair, cut?_append_cons hnot, htrimmed,
    htrimmed']
  exact h.put_own hname

theorem store_other (h : j.Holds p) {value : Bytes} (hv : ¬ Lookalike value) :
    (j.store value).Holds p := by
  unfold store
  split
  · next name rest hcut =>
    refine h.put_other (Bool.eq_false_iff.2 fun hp => hv ?_)
    -- a name is what its cookie begins with
    have hname : name <+: pairOf value := by
      rw [(cut?_eq_some hcut).1]
      exact List.prefix_append _ _
    exact (List.isPrefixOf_iff_prefix.1 hp).trans
      (isPrefix_trimBy (hname.trans (List.takeWhile_prefix _)))
  · exact h

/-- **What a response leaves in the jar** are the properties that it carries, over those that the
    jar held before; other cookies of the response leave them alone. -/
theorem receive (h : j.Holds p) {others : List Bytes}
    (ho : ∀ value ∈ others, ¬ Lookalike value) (hq : q.sendable = q)
    (path : Text) (secure : Bool) :
    (j.receive (others ++ q.setCookies path secure)).Holds (q.overlay p) := by
  have hothers : ∀ (j : Jar), j.Holds p → (others.foldl store j).Holds p := by
    clear h
    induction others with
    | nil => exact fun _ h => h
    | cons value others ih =>
      rw [List.forall_mem_cons] at ho
      exact fun j h => ih ho.2 _ (h.store_other ho.1)
  have hown : ∀ (es : List (Text × Text)), (∀ e ∈ es, e ∈ q.sendable.entries) →
      ∀ (j : Jar) (p : Properties), j.Holds p →
        ((es.map fun e => Utf8.encode (setCookie path secure e.1 e.2)).foldl store j).Holds
          (es.foldl (fun m e => m.insert e.1 e.2) p) := by
    intro es
    induction es with
    | nil => exact fun _ _ _ h => h
    | cons e es ih =>
      intro hes j p h
      rw [List.forall_mem_cons] at hes
      exact ih hes.2 _ _ (h.store_setCookie hes.1 path secure)
  have hall := hown q.sendable.entries (fun e he => he) _ _ (hothers j h)
  rw [Jar.receive, List.foldl_append, overlay]
  rw [hq] at hall
  rw [setCookies, hq]
  exact hall

end Holds

end Jar

end SessionGateway
