/-
  Watching — the configuration that a daemon runs with, whatever is done to its file.

  The file is looked at again and again; each time it holds some text, or cannot be read
  (`Watched`).  A content is good if it is readable and its text a valid configuration
  (`Config.ofContent?`).

  * `reload_eq`: a content is taken over exactly if it is good and not the one that was accepted
    last, and only then is it remembered;
  * `Follows.look`: one look at the file keeps the daemon at the last good content;
  * `follows_last_good`: so do any number of looks, with any contents in between.
-/
import SessionGateway.Lifecycle.Daemon

namespace SessionGateway

/-! ## Good contents -/

namespace Config

/-- The configuration in a content of a file, which is none if the file cannot be read. -/
def ofContent? (content : Option Text) : Option Config := content.bind fun t => (parse t).toOption

theorem ofContent?_some_iff {t : Text} {config : Config} :
    ofContent? (some t) = some config ↔ parse t = .ok config := by
  unfold ofContent?
  cases h : parse t <;> simp [h, Except.toOption]

/-- **A configuration that is read has no problem.** -/
theorem problems_of_ofContent? {content : Option Text} {config : Config}
    (h : ofContent? content = some config) : config.problems = [] := by
  obtain ⟨t, -, ht⟩ := Option.bind_eq_some_iff.1 h
  unfold parse at ht
  split at ht
  · cases ht
  · split at ht
    · next hvalid =>
      cases ht
      exact List.isEmpty_iff.1 hvalid
    · cases ht

end Config

/-! ## One look -/

/-- **A content is forwarded and remembered if it is good** and not the one accepted last. -/
theorem Watch.reload_eq (w : Watch) (content : Option Text) :
    w.reload content =
      match if content = w.accepted then none else Config.ofContent? content with
      | some config => (some config, ⟨content⟩)
      | none => (none, w) := by
  cases content with
  | none => cases w.accepted <;> rfl
  | some t =>
    unfold reload Config.ofContent?
    by_cases ht : w.accepted = some t
    · simp only [ht, if_true]
    · simp only [if_neg ht, if_neg (Ne.symm ht), Option.bind_some]
      cases Config.parse t <;> rfl

namespace Daemon
variable {d : Daemon} {content : Option Text}

/-- What a look at the file forwards. -/
def forwards? (d : Daemon) (content : Option Text) : Option Config := (d.watch.reload content).1

theorem forwards?_eq_some_iff {config : Config} : d.forwards? content = some config ↔
    Config.ofContent? content = some config ∧ content ≠ d.watch.accepted := by
  rw [forwards?, Watch.reload_eq]
  by_cases ha : content = d.watch.accepted
  · simp [ha]
  · cases Config.ofContent? content <;> simp [ha]

theorem reload_of_forwards {config : Config} (h : d.forwards? content = some config) :
    d.reload content = (true, ⟨d.gateway.apply config, ⟨content⟩⟩) := by
  obtain ⟨hc, ha⟩ := forwards?_eq_some_iff.1 h
  simp only [reload, Watch.reload_eq, if_neg ha, hc]

theorem reload_of_forwards_none (h : d.forwards? content = none) :
    d.reload content = (false, d) := by
  have hw : d.watch.reload content = (none, d.watch) := by
    rw [forwards?, Watch.reload_eq] at h
    rw [Watch.reload_eq]
    split at h
    · cases h
    · rfl
  simp only [reload, hw]

/-- **A look says that a configuration was taken over exactly if one was forwarded.** -/
theorem reload_iff_forwards :
    (d.reload content).1 = true ↔ ∃ config, d.forwards? content = some config := by
  cases h : d.forwards? content with
  | none => simp [reload_of_forwards_none h]
  | some config => simp [reload_of_forwards h]

end Daemon

/-! ## Any number of looks -/

/-- A daemon, and the contents that its file was seen with, each with whether it was accepted. -/
structure Watched where
  daemon : Daemon
  seen : List (Option Text × Bool)

namespace Watched

/-- One more look at the file. -/
def look (w : Watched) (content : Option Text) : Watched :=
  ⟨(w.daemon.reload content).2, w.seen ++ [(content, (w.daemon.reload content).1)]⟩

/-- Looks at a file with some contents, one after the other. -/
def looks (w : Watched) (contents : List (Option Text)) : Watched := contents.foldl look w

/-- The contents that were accepted, in order. -/
def accepted (w : Watched) : List (Option Text) := (w.seen.filter (·.2)).map (·.1)

/-- The configurations of the good contents, in order. -/
def good (w : Watched) : List Config := w.seen.filterMap fun s => Config.ofContent? s.1

/-- The daemon runs with the last good configuration, and remembers the content it is from. -/
structure Follows (w : Watched) : Prop where
  config : w.good.getLast? = some w.daemon.gateway.config
  auth : w.daemon.gateway.auth =
    .ofConfig w.daemon.gateway.config.auth w.daemon.gateway.directory
  remembered : w.accepted.getLast? = some w.daemon.watch.accepted
  parsed : Config.ofContent? w.daemon.watch.accepted = some w.daemon.gateway.config

variable {w : Watched} {content : Option Text}

theorem accepted_look : (w.look content).accepted =
    w.accepted ++ if (w.daemon.reload content).1 then [content] else [] := by
  cases h : (w.daemon.reload content).1 <;> simp [accepted, look, h]

theorem good_look :
    (w.look content).good = w.good ++ (Config.ofContent? content).toList := by
  cases h : Config.ofContent? content <;> simp [good, look, h]

/-- **One look keeps the daemon at the last good content**, whatever the file holds. -/
theorem Follows.look (h : w.Follows) (content : Option Text) : (w.look content).Follows := by
  cases hf : w.daemon.forwards? content with
  | some config =>
    have hc := (Daemon.forwards?_eq_some_iff.1 hf).1
    have hr := Daemon.reload_of_forwards hf
    have hdaemon : (w.look content).daemon = ⟨w.daemon.gateway.apply config, ⟨content⟩⟩ := by
      simp only [Watched.look, hr]
    constructor
    · rw [good_look, hc, hdaemon]
      exact List.getLast?_concat
    · rw [hdaemon]
      rfl
    · rw [accepted_look, hr, hdaemon]
      exact List.getLast?_concat
    · rw [hdaemon]
      exact hc
  | none =>
    have hr := Daemon.reload_of_forwards_none hf
    have hdaemon : (w.look content).daemon = w.daemon := by simp only [Watched.look, hr]
    refine ⟨?_, by rw [hdaemon]; exact h.auth, ?_, by rw [hdaemon]; exact h.parsed⟩
    · rw [good_look, hdaemon]
      cases hc : Config.ofContent? content with
      | none => exact (congrArg List.getLast? (List.append_nil _)).trans h.config
      | some config =>
        -- the content is good, so it is the one that was accepted last
        have heq : content = w.daemon.watch.accepted := by
          refine Classical.byContradiction fun hne => ?_
          cases hf.symm.trans (Daemon.forwards?_eq_some_iff.2 ⟨hc, hne⟩)
        rw [heq, h.parsed] at hc
        cases hc
        exact List.getLast?_concat
    · rw [accepted_look, hr, hdaemon]
      exact (congrArg List.getLast? (List.append_nil _)).trans h.remembered

theorem Follows.looks (h : w.Follows) (contents : List (Option Text)) :
    (w.looks contents).Follows := by
  induction contents generalizing w with
  | nil => exact h
  | cons content contents ih => exact ih (h.look content)

theorem map_seen_looks (w : Watched) (contents : List (Option Text)) :
    (w.looks contents).seen.map (·.1) = w.seen.map (·.1) ++ contents := by
  induction contents generalizing w with
  | nil => simp [Watched.looks]
  | cons content contents ih =>
    show ((w.look content).looks contents).seen.map _ = _
    rw [ih]
    simp [Watched.look]

/-- **A daemon runs with the last good content of its file.**  It starts with the configuration in a
    text and remembers that text; then its file is looked at with any contents.  After that it runs
    with the configuration of the last good content among them, the text of the start included, and
    with the settings that belong to it.  The next look forwards a configuration exactly if it says
    so, and that is exactly if the content is good and differs from the one accepted last; what is
    forwarded has no problem, and is taken over. -/
theorem follows_last_good (d : Daemon) {t : Text} (haccepted : d.watch.accepted = some t)
    (hconfig : Config.parse t = .ok d.gateway.config)
    (hauth : d.gateway.auth = .ofConfig d.gateway.config.auth d.gateway.directory)
    (contents : List (Option Text)) :
    let w := looks ⟨d, [(some t, true)]⟩ contents
    let gateway := w.daemon.gateway
    ((some t :: contents).filterMap Config.ofContent?).getLast? = some gateway.config ∧
    gateway.auth = .ofConfig gateway.config.auth gateway.directory ∧
    ∀ content,
      ((w.daemon.reload content).1 = true ↔ ∃ config, w.daemon.forwards? content = some config) ∧
      ((w.daemon.reload content).1 = true ↔
        (∃ config, Config.ofContent? content = some config) ∧
          w.accepted.getLast? ≠ some content) ∧
      ∀ config, w.daemon.forwards? content = some config →
        config.problems = [] ∧ (w.daemon.reload content).2.gateway = gateway.apply config := by
  intro w gateway
  have hgood := Config.ofContent?_some_iff.2 hconfig
  have hstart : Follows ⟨d, [(some t, true)]⟩ :=
    ⟨by simp [good, hgood], hauth, by simp [accepted, haccepted], haccepted ▸ hgood⟩
  have hw : w.Follows := hstart.looks contents
  refine ⟨?_, hw.auth, fun content => ⟨Daemon.reload_iff_forwards, ?_, fun config hf => ?_⟩⟩
  · have hseen : w.seen.map (·.1) = some t :: contents := map_seen_looks _ contents
    have heq : (some t :: contents).filterMap Config.ofContent? = w.good := by
      rw [← hseen, List.filterMap_map]
      rfl
    rw [heq]
    exact hw.config
  · rw [Daemon.reload_iff_forwards, hw.remembered]
    simp only [Daemon.forwards?_eq_some_iff, exists_and_right, ne_eq, Option.some.injEq]
    exact and_congr_right fun _ => not_congr eq_comm
  · rw [Daemon.reload_of_forwards hf]
    exact ⟨Config.problems_of_ofContent? (Daemon.forwards?_eq_some_iff.1 hf).1, rfl⟩

/-- A file that is renamed away, comes back as it was, is broken, gets a new name for the service
    and is broken again leaves the new name in force. -/
theorem follows_last_good_edits :
    let t := "[gateway]\nservice_name = \"a\"".toList
    let t' := "[gateway]\nservice_name = \"b\"".toList
    let broken := "[gateway".toList
    let config : Config := { gateway := { serviceName := "b".toList } }
    let d := Daemon.new { gateway := { serviceName := "a".toList } } (some t)
    let w := looks ⟨d, [(some t, true)]⟩ [none, some t, some broken, some t', some broken]
    w.daemon.gateway.config = config ∧ (w.daemon.reload (some t')).1 = false ∧
      (w.daemon.reload (some t)).1 = true := by
  intro t t' broken config d w
  have hparse : Config.parse t = .ok d.gateway.config :=
    Config.ofContent?_some_iff.1 (by decide +kernel)
  have h := follows_last_good d rfl hparse rfl [none, some t, some broken, some t', some broken]
  obtain ⟨hlast, -, hlook⟩ := h
  have hgood : ([some t, none, some t, some broken, some t', some broken].filterMap
      Config.ofContent?).getLast? = some config := by decide +kernel
  have haccepted : w.accepted.getLast? = some (some t') := by decide +kernel
  refine ⟨Option.some_inj.1 (hlast.symm.trans hgood), ?_, ?_⟩
  · exact Bool.eq_false_iff.2 fun htrue => ((hlook (some t')).2.1.1 htrue).2 haccepted
  · refine (hlook (some t)).2.1.2 ⟨⟨_, Config.ofContent?_some_iff.2 hparse⟩, ?_⟩
    rw [haccepted]
    decide

end Watched

end SessionGateway
