/-
  Reading paths — which texts name a session key, a scope and arguments.

  Every text that begins with a slash is put together from segments (`exists_written`), and in
  one way only.  So a text is read exactly if it is the mount path, then the service and what
  is read, each part behind a slash, and then any number of slashes (`NamedBy`).

  * `namedBy_of_parse?`, `parse?_of_namedBy`: what is read behind the mount path;
  * `stripMount?_eq_some_iff`: what stands behind the mount path;
  * `paths_exact`: what is read with a valid configuration, and what is rejected.
-/
import SessionGateway.Proofs.Gateway.PathArguments

namespace SessionGateway

namespace RequestPath

variable {mount service plain rest : Text} {segments : List Text} {path : RequestPath}

/-! ## Segments -/

/-- **Every text that begins with a slash is put together from segments.** -/
theorem exists_written (rest : Text) :
    ∃ segments, (∀ s ∈ segments, '/' ∉ s) ∧ '/' :: rest = written segments := by
  induction rest with
  | nil => exact ⟨[[]], by simp, rfl⟩
  | cons c rest ih =>
    obtain ⟨segments, hslash, hw⟩ := ih
    by_cases hc : c = '/'
    · exact ⟨[] :: segments, List.forall_mem_cons.2 ⟨List.not_mem_nil, hslash⟩, by rw [hc, hw]; rfl⟩
    · cases segments with
      | nil => cases hw
      | cons s segments =>
        rw [List.forall_mem_cons] at hslash
        rw [written_cons, List.cons.injEq] at hw
        refine ⟨(c :: s) :: segments, List.forall_mem_cons.2 ⟨?_, hslash.2⟩, ?_⟩
        · simp [Ne.symm hc, hslash.1]
        · rw [written_cons, hw.2]
          rfl

theorem written_append (segments more : List Text) :
    written (segments ++ more) = written segments ++ written more := List.flatMap_append

/-- Empty segments are slashes. -/
theorem written_replicate (n : Nat) : written (List.replicate n []) = List.replicate n '/' := by
  induction n with
  | zero => rfl
  | succ n ih => rw [List.replicate_succ, written_cons, ih]; rfl

/-! ## Reading -/

/-- A text names a path: the mount path, then the service, the key, the scope and the arguments, each
    behind a slash, and any number of slashes at the end.  No part has a slash, and the last one is
    not empty. -/
structure NamedBy (path : RequestPath) (mount service plain : Text) : Prop where
  slash : ∀ s ∈ path.sessionKey :: path.scope :: path.arguments, '/' ∉ s
  filled : (path.scope :: path.arguments).getLast (List.cons_ne_nil _ _) ≠ []
  text : ∃ n, plain = mount ++
    written (service :: path.sessionKey :: path.scope :: path.arguments) ++ List.replicate n '/'

/-- What is read is named. -/
theorem namedBy_of_parse? (h : parse? service ('/' :: rest) = some path) :
    path.NamedBy [] service ('/' :: rest) := by
  obtain ⟨segments, hslash, hw⟩ := exists_written rest
  have hsegments : RequestPath.segments ('/' :: rest) =
      trimEndBy List.isEmpty ([] :: segments) := by
    rw [RequestPath.segments, hw, splitOn_written hslash]
  obtain ⟨hlast, after, hparts, hafter⟩ := exists_trimEndBy_append List.isEmpty ([] :: segments)
  rw [← hsegments] at hlast hparts
  unfold parse? at h
  split at h
  · next first marker key scope arguments hs =>
    rw [hs] at hlast hparts
    split at h
    · next hmarker =>
      cases h
      subst hmarker
      rw [List.cons_append, List.cons.injEq] at hparts
      obtain ⟨rfl, hparts⟩ := hparts
      have hempty : after = List.replicate after.length [] :=
        List.eq_replicate_of_mem fun s hs => List.isEmpty_iff.1 (hafter s hs)
      refine ⟨fun s hs => hslash s (hparts ▸ ?_), ?_, after.length, ?_⟩
      · exact List.mem_append_left _ (List.mem_cons_of_mem _ hs)
      · simpa [List.getLast?_cons_cons, List.getLast?_eq_some_getLast] using hlast
      · rw [hw, hparts, written_append, hempty, written_replicate, ← hempty, List.nil_append]
    · cases h
  · cases h

/-- What is named is read. -/
theorem parse?_of_namedBy (hservice : '/' ∉ service) (h : path.NamedBy [] service plain) :
    parse? service plain = some path := by
  obtain ⟨hslash, hfilled, n, rfl⟩ := h
  have hall : ∀ s ∈ (service :: path.sessionKey :: path.scope :: path.arguments) ++
      List.replicate n [], '/' ∉ s := by
    intro s hs
    rcases List.mem_append.1 hs with hs | hs
    · rcases List.mem_cons.1 hs with rfl | hs
      · exact hservice
      · exact hslash s hs
    · rw [List.eq_of_mem_replicate hs]
      exact List.not_mem_nil
  have hsegments : segments ([] ++
      written (service :: path.sessionKey :: path.scope :: path.arguments) ++
        List.replicate n '/') =
      [] :: service :: path.sessionKey :: path.scope :: path.arguments := by
    rw [List.nil_append, ← written_replicate, ← written_append, segments, splitOn_written hall,
      ← List.cons_append, trimEndBy_append fun s hs => by rw [List.eq_of_mem_replicate hs]; rfl]
    refine trimEndBy_of_last ?_
    simpa [List.getLast?_cons_cons, List.getLast?_eq_some_getLast] using hfilled
  rw [parse?, hsegments]
  exact if_pos rfl

/-- **What stands behind the mount path** is empty or begins with a slash, unless the mount path is
    empty. -/
theorem stripMount?_eq_some_iff : stripMount? mount plain = some rest ↔
    plain = mount ++ rest ∧ (mount = [] ∨ rest = [] ∨ rest.head? = some '/') := by
  unfold stripMount?
  split
  · next hm => simp [hm]
  · next hm =>
    simp only [Option.filter_eq_some_iff, dropStart?_eq_some_iff, hm, false_or, Bool.or_eq_true,
      List.isEmpty_iff, beq_iff_eq]

/-- **A text that begins with a slash is read exactly if it names what is read.** -/
theorem ofMounted?_eq_some_iff (hservice : '/' ∉ service) :
    ofMounted? mount service ('/' :: rest) = some path ↔
      path.NamedBy mount service ('/' :: rest) := by
  simp only [ofMounted?, Option.bind_eq_some_iff, stripMount?_eq_some_iff]
  constructor
  · rintro ⟨behind, ⟨hplain, hhead⟩, hparse⟩
    cases behind with
    | nil => cases hparse
    | cons c behind =>
      have hc : c = '/' := by
        rcases hhead with rfl | hb | hb
        · exact (List.cons.inj hplain).1.symm
        · cases hb
        · exact Option.some.inj hb
      subst hc
      obtain ⟨hslash, hfilled, n, hn⟩ := namedBy_of_parse? hparse
      exact ⟨hslash, hfilled, n, by rw [hplain, hn, List.nil_append, List.append_assoc]⟩
  · rintro ⟨hslash, hfilled, n, hn⟩
    refine ⟨_, ⟨by rw [hn, List.append_assoc], .inr (.inr rfl)⟩, ?_⟩
    exact parse?_of_namedBy hservice ⟨hslash, hfilled, n, by rw [List.nil_append]⟩

/-- What a path names is the same for two texts only if they differ in slashes at their ends. -/
theorem NamedBy.slashes (h : path.NamedBy mount service plain) {other : Text}
    (ho : path.NamedBy mount service other) :
    ∃ base i j, plain = base ++ List.replicate i '/' ∧ other = base ++ List.replicate j '/' :=
  let ⟨i, hi⟩ := h.text
  let ⟨j, hj⟩ := ho.text
  ⟨_, i, j, hi, hj⟩

end RequestPath

/-- A request whose body is read is prepared for the path that is read, or rejected for its path. -/
theorem Call.prepare_path {config : Config} {verb : Verb} {request : Request}
    {body : Option DecodedBody}
    (hbody : bodyFor verb request config.security.maxBodySize = .ok body) (auth : AuthSettings)
    (tls : Bool) (plain : Text) :
    match RequestPath.ofMounted? config.gateway.mountPath config.gateway.serviceName plain with
    | some path => ∃ call, prepare config auth tls verb plain request = .ok call ∧ call.path = path
    | none => ∃ t, prepare config auth tls verb plain request = .error (.invalidPath t) := by
  unfold prepare RequestPath.ofMounted?
  rw [hbody]
  cases RequestPath.stripMount? config.gateway.mountPath plain with
  | none => exact ⟨_, rfl⟩
  | some rest =>
    rw [Option.bind_some]
    cases hparse : RequestPath.parse? config.gateway.serviceName rest with
    | none =>
      simp only [bind, Except.bind, hparse]
      exact ⟨_, rfl⟩
    | some path =>
      simp only [bind, Except.bind, hparse]
      exact ⟨_, rfl, rfl⟩

/-- **Paths are read exactly.**  With a valid configuration, a path is read exactly if it names what
    is read; this determines it up to slashes at its end; and any other path is rejected. -/
theorem Config.paths_exact {config : Config} (hvalid : config.isValid = true) (rest : Text) :
    let mount := config.gateway.mountPath
    let service := config.gateway.serviceName
    (∀ path, RequestPath.ofMounted? mount service ('/' :: rest) = some path ↔
      path.NamedBy mount service ('/' :: rest)) ∧
    (∀ path other, RequestPath.ofMounted? mount service ('/' :: rest) = some path →
      RequestPath.ofMounted? mount service ('/' :: other) = some path →
        ∃ base i j, '/' :: rest = base ++ List.replicate i '/' ∧
          '/' :: other = base ++ List.replicate j '/') ∧
    ∀ auth tls verb request body,
      Call.bodyFor verb request config.security.maxBodySize = .ok body →
        (∀ path : RequestPath, path.NamedBy mount service ('/' :: rest) →
          ∃ call, Call.prepare config auth tls verb ('/' :: rest) request = .ok call ∧
            call.path = path) ∧
        ((¬ ∃ path : RequestPath, path.NamedBy mount service ('/' :: rest)) →
          ∃ t, Call.prepare config auth tls verb ('/' :: rest) request =
            .error (.invalidPath t)) := by
  intro mount service
  obtain ⟨hservice, -⟩ := layout_of_isValid hvalid
  have hread : ∀ rest path, RequestPath.ofMounted? mount service ('/' :: rest) = some path ↔
      path.NamedBy mount service ('/' :: rest) := fun rest path =>
    RequestPath.ofMounted?_eq_some_iff hservice
  refine ⟨hread rest, fun path other h ho => ((hread rest path).1 h).slashes
    ((hread other path).1 ho), fun auth tls verb request body hbody => ⟨fun path hpath => ?_,
    fun hnone => ?_⟩⟩
  · have hprepare := Call.prepare_path hbody auth tls ('/' :: rest)
    rwa [(hread rest path).2 hpath] at hprepare
  · have hprepare := Call.prepare_path hbody auth tls ('/' :: rest)
    have hunread : RequestPath.ofMounted? mount service ('/' :: rest) = none :=
      Option.eq_none_iff_forall_ne_some.2 fun path hp => hnone ⟨path, (hread rest path).1 hp⟩
    rwa [hunread] at hprepare

/-- Behind a mount path that looks like the service: a path with an empty key, an empty argument and
    slashes at its end is read, and one without a scope is rejected. -/
theorem Config.paths_exact_slashes :
    let config : Config := { gateway := { mountPath := "/rest_ws".toList } }
    let path : RequestPath := ⟨[], "orders".toList, [[], "x".toList]⟩
    let request : Request := ⟨⟨"GET".toList, "/".toList, .empty⟩, []⟩
    let prepared := fun rest : Text =>
      Call.prepare config (.ofConfig config.auth none) false .get ('/' :: rest) request
    config.isValid = true ∧
      path.NamedBy "/rest_ws".toList "rest_ws".toList "/rest_ws/rest_ws//orders//x//".toList ∧
      (∃ call, prepared "rest_ws/rest_ws//orders//x//".toList = .ok call ∧ call.path = path) ∧
      ∃ t, prepared "rest_ws/rest_ws/crm//".toList = .error (.invalidPath t) := by
  intro config path request prepared
  have hvalid : config.isValid = true := by decide +kernel
  obtain ⟨hread, -, hprepare⟩ := paths_exact hvalid "rest_ws/rest_ws//orders//x//".toList
  obtain ⟨hnone, -, hreject⟩ := paths_exact hvalid "rest_ws/rest_ws/crm//".toList
  have hpath := (hread path).1 (by decide)
  refine ⟨hvalid, hpath, (hprepare _ _ _ request none rfl).1 path hpath, ?_⟩
  refine (hreject _ _ _ request none rfl).2 ?_
  rintro ⟨other, hother⟩
  have hsome := (hnone other).2 hother
  have hunread : RequestPath.ofMounted? config.gateway.mountPath config.gateway.serviceName
      ('/' :: "rest_ws/rest_ws/crm//".toList) = none := by decide
  rw [hunread] at hsome
  cases hsome

end SessionGateway
