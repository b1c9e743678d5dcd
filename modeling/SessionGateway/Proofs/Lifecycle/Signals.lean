/-
  Signals — who gets the one signal of a channel, and how often.

  A channel is used by anybody who holds it or a copy of it: receivers are added, asked and waited
  with, and the channel is triggered, in any order and any number of times (`Act`).  Receivers are
  named in the order in which they were added, so that one is told from another when places move
  up, and a log says what each was answered (`History`).

  * `tryReceive_eq`, `wait_eq`: a receiver is answered with the signal exactly if it is due to it
    (`Due`): the first trigger came behind its subscription, and nobody asked for it since;
  * `Accounted.act`: one step keeps the books, whatever it is;
  * `signal_once_iff`: a receiver gets the signal once if it subscribed before the first trigger
    and was asked after it, and otherwise never; and it is never told that it lost one;
  * `late_subscriber_unsignalled`: a receiver that subscribes after the trigger waits in vain.
-/
import Mathlib.Data.List.TakeWhile
import SessionGateway.Lifecycle.Shutdown

namespace SessionGateway.Shutdown

/-! ## What happens on a channel -/

/-- A step on a channel. Receivers stand at their places, and move up when one before them is
    gone. -/
inductive Act where
  | subscribe
  /-- Triggers the channel itself or any copy of it. -/
  | trigger
  | tryReceive (place : Nat)
  /-- Looks whether the wait for the next signal is over; a receiver whose wait is not over can be
      asked again. -/
  | wait (place : Nat)
  /-- Gives up a receiver, or the wait for it. -/
  | drop (place : Nat)

/-- What is known of a step that was taken. -/
inductive Entry where
  | subscribed (receiver : Nat)
  | triggered
  | tried (receiver : Nat) (reception : Reception)
  | waited (receiver : Nat) (resolved : Bool)
  deriving DecidableEq, Repr

namespace Entry

/-- The receiver that was asked for the signal. -/
def asked? : Entry → Option Nat
  | tried receiver _ | waited receiver _ => some receiver
  | _ => none

/-- The receiver that got the signal. -/
def signalled? : Entry → Option Nat
  | tried receiver .signal | waited receiver true => some receiver
  | _ => none

end Entry

/-- A channel with the names of its receivers, and what has happened on it. -/
structure History where
  channel : Shutdown
  /-- The names of the receivers, in the order of their places. -/
  names : List Nat
  /-- The name of the next receiver. -/
  next : Nat
  log : List Entry

namespace History

/-- A new channel. -/
def start : History := ⟨.new, [], 0, []⟩

/-- The history after a step; nothing happens at a place without a receiver. -/
def act (h : History) : Act → History
  | .subscribe =>
    ⟨h.channel.subscribe.2, h.names ++ [h.next], h.next + 1, h.log ++ [.subscribed h.next]⟩
  | .trigger => { h with channel := h.channel.trigger, log := h.log ++ [.triggered] }
  | .tryReceive place =>
    match h.names[place]?, h.channel.tryReceive place with
    | some receiver, some (reception, channel) =>
      { h with channel, log := h.log ++ [.tried receiver reception] }
    | _, _ => h
  | .wait place =>
    match h.names[place]?, h.channel.wait place with
    | some receiver, some (true, channel) =>
      { h with channel, names := h.names.eraseIdx place, log := h.log ++ [.waited receiver true] }
    | some receiver, some (false, _) => { h with log := h.log ++ [.waited receiver false] }
    | _, _ => h
  | .drop place =>
    { h with channel := { h.channel with receivers := h.channel.receivers.eraseIdx place },
             names := h.names.eraseIdx place }

/-- The history after some steps on a new channel. -/
def run (acts : List Act) : History := acts.foldl act start

end History

/-! ## Who is due to the signal -/

/-- The receiver subscribed before the first trigger. -/
def Early (log : List Entry) (receiver : Nat) : Prop :=
  .subscribed receiver ∈ log.takeWhile (· ≠ .triggered)

/-- The receiver was asked for the signal after the first trigger. -/
def Asked (log : List Entry) (receiver : Nat) : Prop :=
  ∃ e ∈ log.dropWhile (· ≠ .triggered), e.asked? = some receiver

/-- The signal is there for the receiver, and it did not get it yet. -/
structure Due (log : List Entry) (receiver : Nat) : Prop where
  triggered : .triggered ∈ log
  early : Early log receiver
  unasked : ¬ Asked log receiver

/-- The receiver had its chance of the signal. -/
def Heard (log : List Entry) (receiver : Nat) : Prop := Early log receiver ∧ Asked log receiver

section
variable {log : List Entry} {receiver : Nat} {e : Entry}

instance : Decidable (Early log receiver) := by unfold Early; infer_instance

instance : Decidable (Asked log receiver) := by unfold Asked; infer_instance

instance : Decidable (Heard log receiver) := by unfold Heard; infer_instance

instance : Decidable (Due log receiver) :=
  decidable_of_iff (.triggered ∈ log ∧ Early log receiver ∧ ¬ Asked log receiver)
    ⟨fun h => ⟨h.1, h.2.1, h.2.2⟩, fun h => ⟨h.triggered, h.early, h.unasked⟩⟩

theorem takeWhile_of_untriggered (h : .triggered ∉ log) :
    log.takeWhile (· ≠ .triggered) = log := by
  rw [List.takeWhile_eq_self_iff]
  exact fun x hx => decide_eq_true fun he => h (he ▸ hx)

theorem dropWhile_of_untriggered (h : .triggered ∉ log) :
    log.dropWhile (· ≠ .triggered) = [] := by
  rw [List.dropWhile_eq_nil_iff]
  exact fun x hx => decide_eq_true fun he => h (he ▸ hx)

theorem not_asked_of_untriggered (h : .triggered ∉ log) : ¬ Asked log receiver := by
  rintro ⟨x, hx, -⟩
  rw [dropWhile_of_untriggered h] at hx
  cases hx

/-- Behind the first trigger, nobody is early any more. -/
theorem early_append_of_triggered (h : .triggered ∈ log) :
    Early (log ++ [e]) receiver ↔ Early log receiver := by
  unfold Early
  rw [List.takeWhile_append, if_neg fun hl => ?_]
  have hall := (List.takeWhile_prefix (p := (· ≠ Entry.triggered)) (l := log)).eq_of_length hl
  rw [List.takeWhile_eq_self_iff] at hall
  simpa using hall _ h

theorem asked_append_of_triggered (h : .triggered ∈ log) :
    Asked (log ++ [e]) receiver ↔ Asked log receiver ∨ e.asked? = some receiver := by
  have hne : ¬ (log.dropWhile (· ≠ .triggered)).isEmpty := by
    rw [List.isEmpty_iff, List.dropWhile_eq_nil_iff]
    exact fun hall => of_decide_eq_true (hall _ h) rfl
  unfold Asked
  rw [List.dropWhile_append, if_neg hne]
  simp [or_and_right, exists_or]

/-- The first trigger is no question to a receiver. -/
theorem not_asked_of_trigger (h : .triggered ∉ log) : ¬ Asked (log ++ [.triggered]) receiver := by
  rintro ⟨x, hx, ha⟩
  have hlast : (log ++ [Entry.triggered]).dropWhile (· ≠ .triggered) = [.triggered] := by
    rw [List.dropWhile_append, dropWhile_of_untriggered h]
    rfl
  rw [hlast, List.mem_singleton] at hx
  rw [hx] at ha
  cases ha

/-- **Who is due to the signal after a step**: whoever was and did not ask, and with the first
    trigger everybody who has subscribed. -/
theorem due_append : Due (log ++ [e]) receiver ↔
    (Due log receiver ∧ e.asked? ≠ some receiver) ∨
      (.triggered ∉ log ∧ e = .triggered ∧ .subscribed receiver ∈ log) := by
  by_cases ht : .triggered ∈ log
  · constructor
    · rintro ⟨-, he, hu⟩
      rw [asked_append_of_triggered ht, not_or] at hu
      exact .inl ⟨⟨ht, (early_append_of_triggered ht).1 he, hu.1⟩, hu.2⟩
    · rintro (⟨h, ha⟩ | ⟨hn, -⟩)
      · exact ⟨List.mem_append_left _ ht, (early_append_of_triggered ht).2 h.early,
          fun hasked => ((asked_append_of_triggered ht).1 hasked).elim h.unasked ha⟩
      · exact absurd ht hn
  · by_cases he : e = .triggered
    · subst he
      have hearly : Early (log ++ [.triggered]) receiver ↔ .subscribed receiver ∈ log := by
        unfold Early
        rw [List.takeWhile_append, takeWhile_of_untriggered ht, if_pos rfl]
        simp
      constructor
      · exact fun h => .inr ⟨ht, rfl, hearly.1 h.early⟩
      · rintro (⟨h, -⟩ | ⟨-, -, hs⟩)
        · exact absurd h.triggered ht
        · exact ⟨by simp, hearly.2 hs, not_asked_of_trigger ht⟩
    · have ht' : .triggered ∉ log ++ [e] := by
        simp [ht, Ne.symm he]
      exact ⟨fun h => absurd h.triggered ht', fun h => h.elim (fun h => absurd h.1.triggered ht)
        fun h => absurd h.2.1 he⟩

/-- Who was due to the signal and asks has his chance. -/
theorem heard_append : Heard (log ++ [e]) receiver ↔
    Heard log receiver ∨ (Due log receiver ∧ e.asked? = some receiver) := by
  by_cases ht : .triggered ∈ log
  · unfold Heard
    rw [early_append_of_triggered ht, asked_append_of_triggered ht, and_or_left]
    constructor
    · rintro (h | ⟨he, ha⟩)
      · exact .inl h
      · by_cases hasked : Asked log receiver
        · exact .inl ⟨he, hasked⟩
        · exact .inr ⟨⟨ht, he, hasked⟩, ha⟩
    · exact Or.imp_right fun h => ⟨h.1.early, h.2⟩
  · have hno : ¬ Asked (log ++ [e]) receiver := by
      by_cases he : e = .triggered
      · exact he ▸ not_asked_of_trigger ht
      · exact not_asked_of_untriggered (by simp [ht, Ne.symm he])
    exact ⟨fun h => absurd h.2 hno, fun h => h.elim (fun h => absurd h.2 (not_asked_of_untriggered ht))
      fun h => absurd h.1.triggered ht⟩

end

/-! ## Answers -/

/-- In a channel with one signal at most, a receiver gets it or nothing, and none is lost. -/
theorem receive_eq {sent behind : Nat} (hs : sent ≤ 1) (hb : behind ≤ sent) :
    receive sent behind = (if behind < sent then .signal else .empty, sent) := by
  unfold receive
  by_cases hlt : behind < sent
  · rw [if_neg (by omega), if_pos (by omega), if_pos hlt]
  · rw [if_pos (by omega), if_neg hlt, Nat.le_antisymm hb (by omega)]

/-- The books of a history agree with its channel. -/
structure History.Accounted (h : History) : Prop where
  wellFormed : h.channel.WellFormed
  triggered : h.channel.triggered = true ↔ .triggered ∈ h.log
  length_eq : h.names.length = h.channel.receivers.length
  nodup : h.names.Nodup
  subscribed : ∀ receiver ∈ h.names, .subscribed receiver ∈ h.log
  lt_next : ∀ receiver, .subscribed receiver ∈ h.log → receiver < h.next
  due : ∀ (place receiver behind : Nat), h.names[place]? = some receiver →
    h.channel.receivers[place]? = some behind → (behind < h.channel.sent ↔ Due h.log receiver)
  once : ∀ receiver, (h.log.filterMap Entry.signalled?).count receiver =
    if Heard h.log receiver then 1 else 0

namespace History.Accounted
variable {h : History} {place receiver : Nat}

theorem sent_le_one (ha : h.Accounted) : h.channel.sent ≤ 1 := Shutdown.sent_le_one ha.wellFormed

theorem receiver? (ha : h.Accounted) (hr : h.names[place]? = some receiver) :
    ∃ behind, h.channel.receivers[place]? = some behind ∧ behind ≤ h.channel.sent ∧
      (behind < h.channel.sent ↔ Due h.log receiver) := by
  obtain ⟨hlt, -⟩ := List.getElem?_eq_some_iff.1 hr
  have hb : h.channel.receivers[place]? = some _ :=
    List.getElem?_eq_getElem (ha.length_eq ▸ hlt)
  exact ⟨_, hb, ha.wellFormed.behind_le _ (List.mem_of_getElem? hb), ha.due _ _ _ hr hb⟩

/-- **A receiver that is tried gives the signal exactly if it is due to it**, and else nothing. -/
theorem tryReceive_eq (ha : h.Accounted) (hr : h.names[place]? = some receiver) :
    h.act (.tryReceive place) =
      { h with
        channel := { h.channel with receivers := h.channel.receivers.set place h.channel.sent }
        log := h.log ++ [.tried receiver (if Due h.log receiver then .signal else .empty)] } := by
  obtain ⟨behind, hb, hle, hdue⟩ := ha.receiver? hr
  have htried : h.channel.tryReceive place =
      some (if Due h.log receiver then .signal else .empty,
        { h.channel with receivers := h.channel.receivers.set place h.channel.sent }) := by
    simp only [tryReceive, hb, Option.map_some, receive_eq ha.sent_le_one hle, hdue]
  simp only [act, hr, htried]

/-- **A wait is over exactly if the receiver is due to the signal.** -/
theorem wait_eq (ha : h.Accounted) (hr : h.names[place]? = some receiver) :
    h.act (.wait place) =
      if Due h.log receiver then
        { h with
          channel := { h.channel with receivers := h.channel.receivers.eraseIdx place }
          names := h.names.eraseIdx place
          log := h.log ++ [.waited receiver true] }
      else { h with log := h.log ++ [.waited receiver false] } := by
  obtain ⟨behind, hb, hle, hdue⟩ := ha.receiver? hr
  have hwait : h.channel.wait place =
      some (decide (Due h.log receiver),
        { h.channel with receivers := h.channel.receivers.eraseIdx place }) := by
    simp only [wait, hb, Option.map_some, receive_eq ha.sent_le_one hle, hdue]
    by_cases hd : Due h.log receiver <;> simp [hd]
  simp only [act, hr, hwait]
  by_cases hd : Due h.log receiver <;> simp [hd]

/-- An entry keeps the count of signals if it shows one exactly to those who are due and ask. -/
theorem once_append (ha : h.Accounted) {e : Entry}
    (he : ∀ r, e.signalled? = some r ↔ Due h.log r ∧ e.asked? = some r) (r : Nat) :
    ((h.log ++ [e]).filterMap Entry.signalled?).count r =
      if Heard (h.log ++ [e]) r then 1 else 0 := by
  have hlast : ([e].filterMap Entry.signalled?).count r =
      if Due h.log r ∧ e.asked? = some r then 1 else 0 := by
    cases hs : e.signalled? with
    | none => simp [hs, ← he]
    | some r' => simp [hs, ← he, List.count_singleton]
  rw [List.filterMap_append, List.count_append, hlast, ha.once]
  by_cases hh : Heard h.log r
  · rw [if_pos hh, if_neg fun hd => hd.1.unasked hh.2, if_pos (heard_append.2 (.inl hh))]
  · simp only [heard_append, hh, if_false, false_or, Nat.zero_add]

theorem start : start.Accounted where
  wellFormed := wellFormed_new
  triggered := by simp [History.start, new]
  length_eq := rfl
  nodup := List.nodup_nil
  subscribed := nofun
  lt_next := nofun
  due := by simp [History.start]
  once r := rfl

theorem subscribe (ha : h.Accounted) : (h.act .subscribe).Accounted where
  wellFormed := wellFormed_subscribe ha.wellFormed
  triggered := by
    show h.channel.triggered = true ↔ _ ∈ h.log ++ _
    simp [ha.triggered]
  length_eq := by simp [act, Shutdown.subscribe, ha.length_eq]
  nodup := by
    refine List.nodup_append.2 ⟨ha.nodup, List.pairwise_singleton _ _, fun r hr next hn => ?_⟩
    rw [List.mem_singleton.1 hn]
    exact Nat.ne_of_lt (ha.lt_next _ (ha.subscribed _ hr))
  subscribed r hr := by
    simp only [act, List.mem_append, List.mem_singleton] at hr ⊢
    rcases hr with hr | rfl
    · exact .inl (ha.subscribed r hr)
    · exact .inr rfl
  lt_next r hr := by
    simp only [act, List.mem_append, List.mem_singleton, Entry.subscribed.injEq] at hr ⊢
    rcases hr with hr | rfl
    · exact Nat.lt_succ_of_lt (ha.lt_next r hr)
    · exact Nat.lt_succ_self _
  due place r behind hr hb := by
    have hdue : Due (h.log ++ [.subscribed h.next]) r ↔ Due h.log r := by
      simp [due_append, Entry.asked?]
    show behind < h.channel.sent ↔ Due (h.log ++ [.subscribed h.next]) r
    rw [hdue]
    simp only [act, Shutdown.subscribe, List.getElem?_append, ha.length_eq] at hr hb
    split at hr
    · next hlt =>
      rw [if_pos hlt] at hb
      exact ha.due _ _ _ hr hb
    · next hlt =>
      -- the new receiver has every signal behind it, and did not subscribe before
      rw [if_neg hlt] at hb
      rw [List.getElem?_singleton] at hr hb
      split at hr
      · next hz =>
        rw [if_pos hz] at hb
        cases hr
        cases hb
        refine ⟨fun hlt => absurd hlt (Nat.lt_irrefl _), fun hd => ?_⟩
        have hm := List.takeWhile_subset _ hd.early
        exact absurd (ha.lt_next _ hm) (Nat.lt_irrefl _)
      · cases hr
  once := ha.once_append (by simp [Entry.signalled?, Entry.asked?])

theorem trigger (ha : h.Accounted) : (h.act .trigger).Accounted where
  wellFormed := wellFormed_trigger ha.wellFormed
  triggered := by
    have ht : h.channel.trigger.triggered = true := by
      unfold Shutdown.trigger
      split
      · assumption
      · rfl
    simp [act, ht]
  length_eq := by
    have hr : h.channel.trigger.receivers = h.channel.receivers := by
      unfold Shutdown.trigger
      split <;> rfl
    simp [act, hr, ha.length_eq]
  nodup := ha.nodup
  subscribed r hr := List.mem_append_left _ (ha.subscribed r hr)
  lt_next r hr := ha.lt_next r (by simpa [act] using hr)
  due place r behind hr hb := by
    show behind < h.channel.trigger.sent ↔ Due (h.log ++ [.triggered]) r
    by_cases ht : h.channel.triggered = true
    · have heq : h.channel.trigger = h.channel := if_pos ht
      have hm := ha.triggered.1 ht
      rw [heq, due_append, ha.due place r behind hr (by simpa [act, heq] using hb)]
      simp [Entry.asked?, hm]
    · -- with the first trigger, everybody who is there is due
      have heq : h.channel.trigger =
          { h.channel with triggered := true, sent := h.channel.sent + 1 } := if_neg ht
      have hle := ha.wellFormed.behind_le behind
        (List.mem_of_getElem? (by simpa [act, heq] using hb))
      have hd : Due (h.log ++ [.triggered]) r := due_append.2
        (.inr ⟨mt ha.triggered.2 ht, rfl, ha.subscribed r (List.mem_of_getElem? hr)⟩)
      rw [heq]
      exact iff_of_true (Nat.lt_succ_of_le hle) hd
  once := ha.once_append (by simp [Entry.signalled?, Entry.asked?])

/-- **A receiver that is asked is due no more**, and for all others nothing changes. -/
theorem ask (ha : h.Accounted) (receiver : Nat) {channel : Shutdown} {names : List Nat} {e : Entry}
    (hw : channel.WellFormed) (ht : channel.triggered = h.channel.triggered)
    (hl : names.length = channel.receivers.length) (hn : names.Sublist h.names)
    (he : e.asked? = some receiver)
    (hs : e.signalled? = if Due h.log receiver then some receiver else none)
    (hdue : ∀ (place r behind : Nat), names[place]? = some r →
      channel.receivers[place]? = some behind →
        (behind < channel.sent ↔ r ≠ receiver ∧ Due h.log r)) :
    Accounted ⟨channel, names, h.next, h.log ++ [e]⟩ where
  wellFormed := hw
  triggered := by
    have hne : e ≠ .triggered := by rintro rfl; cases he
    simp [ht, ha.triggered, Ne.symm hne]
  length_eq := hl
  nodup := ha.nodup.sublist hn
  subscribed r hr := List.mem_append_left _ (ha.subscribed r (hn.subset hr))
  lt_next r hr := by
    have hne : e ≠ .subscribed r := by rintro rfl; cases he
    exact ha.lt_next r (by simpa [Ne.symm hne] using hr)
  due place r behind hr hb := by
    have hne : e ≠ .triggered := by rintro rfl; cases he
    rw [hdue place r behind hr hb, due_append, he]
    simp [hne, and_comm, eq_comm]
  once := by
    refine ha.once_append fun r => ?_
    rw [hs, he]
    by_cases hd : Due h.log receiver
    · rw [if_pos hd, Option.some.injEq]
      exact ⟨fun heq => ⟨heq ▸ hd, heq⟩, And.right⟩
    · rw [if_neg hd, Option.some.injEq]
      exact ⟨nofun, fun hr => absurd (hr.2 ▸ hr.1) hd⟩

theorem ne_of_place_ne (ha : h.Accounted) (hr : h.names[place]? = some receiver)
    {other r : Nat} (ho : h.names[other]? = some r) (hne : other ≠ place) : r ≠ receiver := by
  rintro rfl
  obtain ⟨hlt, -⟩ := List.getElem?_eq_some_iff.1 ho
  exact hne ((List.getElem?_inj hlt ha.nodup).1 (ho.trans hr.symm))

theorem tryReceive (ha : h.Accounted) (hr : h.names[place]? = some receiver) :
    (h.act (.tryReceive place)).Accounted := by
  rw [ha.tryReceive_eq hr]
  refine ha.ask receiver ⟨ha.wellFormed.sent_eq, fun b hb => ?_⟩ rfl
    (by simp [ha.length_eq]) (List.Sublist.refl _) rfl ?_ fun other r behind ho hb => ?_
  · rcases List.mem_or_eq_of_mem_set hb with hb | rfl
    · exact ha.wellFormed.behind_le b hb
    · exact Nat.le_refl _
  · by_cases hd : Due h.log receiver <;> simp [hd, Entry.signalled?]
  · by_cases heq : other = place
    · subst heq
      cases ho.symm.trans hr
      obtain ⟨b, hb', -⟩ := ha.receiver? hr
      rw [List.getElem?_set_self (List.getElem?_eq_some_iff.1 hb').1] at hb
      cases hb
      simp
    · rw [List.getElem?_set_ne (Ne.symm heq)] at hb
      simp [ha.ne_of_place_ne hr ho heq, ha.due other r behind ho hb]

/-- Those who are left when a receiver is gone were there before, at another place. -/
theorem left_of_eraseIdx {names behinds : List Nat} {place other r behind : Nat}
    (hr : (names.eraseIdx place)[other]? = some r)
    (hb : (behinds.eraseIdx place)[other]? = some behind) :
    ∃ before, before ≠ place ∧ names[before]? = some r ∧ behinds[before]? = some behind := by
  rw [List.getElem?_eraseIdx] at hr hb
  split at hr
  · next hlt => exact ⟨other, by omega, hr, by rwa [if_pos hlt] at hb⟩
  · next hlt => exact ⟨other + 1, by omega, hr, by rwa [if_neg hlt] at hb⟩

theorem drop (ha : h.Accounted) (place : Nat) : (h.act (.drop place)).Accounted where
  wellFormed := ⟨ha.wellFormed.sent_eq, fun b hb =>
    ha.wellFormed.behind_le b (List.mem_of_mem_eraseIdx hb)⟩
  triggered := ha.triggered
  length_eq := by simp [act, List.length_eraseIdx, ha.length_eq]
  nodup := ha.nodup.sublist (List.eraseIdx_sublist _ _)
  subscribed r hr := ha.subscribed r (List.mem_of_mem_eraseIdx hr)
  lt_next := ha.lt_next
  due other r behind hr hb := by
    obtain ⟨before, -, hr', hb'⟩ := left_of_eraseIdx hr hb
    exact ha.due before r behind hr' hb'
  once := ha.once

theorem wait (ha : h.Accounted) (hr : h.names[place]? = some receiver) :
    (h.act (.wait place)).Accounted := by
  have hgone := ha.drop place
  rw [ha.wait_eq hr]
  split
  · next hd =>
    refine ha.ask receiver hgone.wellFormed rfl hgone.length_eq
      (List.eraseIdx_sublist _ _) rfl (by rw [if_pos hd]; rfl) fun other r behind ho hb => ?_
    obtain ⟨before, hne, hr', hb'⟩ := left_of_eraseIdx ho hb
    simp [ha.ne_of_place_ne hr hr' hne, ha.due before r behind hr' hb']
  · next hd =>
    refine ha.ask receiver ha.wellFormed rfl ha.length_eq (List.Sublist.refl _) rfl
      (by rw [if_neg hd]; rfl) fun other r behind ho hb => ?_
    rw [ha.due other r behind ho hb]
    exact ⟨fun h' => ⟨fun heq => hd (heq ▸ h'), h'⟩, And.right⟩

/-- **Every step keeps the books**, whatever it is. -/
theorem act (ha : h.Accounted) (a : Act) : (h.act a).Accounted := by
  cases a with
  | subscribe => exact ha.subscribe
  | trigger => exact ha.trigger
  | tryReceive place =>
    cases hr : h.names[place]? with
    | none => simpa only [History.act, hr] using ha
    | some receiver => exact ha.tryReceive hr
  | wait place =>
    cases hr : h.names[place]? with
    | none => simpa only [History.act, hr] using ha
    | some receiver => exact ha.wait hr
  | drop place => exact ha.drop place

/-- So do any number of them. -/
theorem run (acts : List Act) : (History.run acts).Accounted := by
  have hfold : ∀ h : History, h.Accounted → (acts.foldl History.act h).Accounted := by
    induction acts with
    | nil => exact fun h ha => ha
    | cons a acts ih => exact fun h ha => ih (h.act a) (ha.act a)
  exact hfold .start .start

end History.Accounted

/-! ## Exactly once -/

/-- **The signal reaches a receiver exactly once**, if it subscribed before the first trigger and
    asks after it, and else it does not reach it.  Whatever happened on a channel, a receiver that is
    tried now gives the signal if it is due to it and nothing otherwise, and never says that it
    lost one; and a wait with it is over exactly if it is due. -/
theorem signal_once_iff (acts : List Act) :
    let h := History.run acts
    (∀ receiver, (h.log.filterMap Entry.signalled?).count receiver =
      if Early h.log receiver ∧ Asked h.log receiver then 1 else 0) ∧
    ∀ (place receiver : Nat), h.names[place]? = some receiver →
      (h.act (.tryReceive place)).log =
        h.log ++ [.tried receiver (if Due h.log receiver then .signal else .empty)] ∧
      (h.act (.wait place)).log = h.log ++ [.waited receiver (decide (Due h.log receiver))] := by
  intro h
  have ha : h.Accounted := .run acts
  refine ⟨ha.once, fun place receiver hr => ⟨?_, ?_⟩⟩
  · rw [ha.tryReceive_eq hr]
  · rw [ha.wait_eq hr]
    by_cases hd : Due h.log receiver <;> simp [hd]

/-- Two receivers that subscribed in time: one got its signal, tried twice, and the wait with the
    other, which was not over before the trigger, is over now. -/
theorem signal_once_in_time :
    let h := History.run [.subscribe, .subscribe, .wait 1, .trigger, .subscribe, .tryReceive 0,
      .trigger, .tryReceive 0]
    h.names[1]? = some 1 ∧ (h.log.filterMap Entry.signalled?).count 0 = 1 ∧
      (h.act (.wait 1)).log = h.log ++ [.waited 1 true] := by
  intro h
  have hr : h.names[1]? = some 1 := by decide
  obtain ⟨honce, hanswers⟩ := signal_once_iff [.subscribe, .subscribe, .wait 1, .trigger,
    .subscribe, .tryReceive 0, .trigger, .tryReceive 0]
  have hdue : decide (Due h.log 1) = true := by decide
  exact ⟨hr, (honce 0).trans (by decide), by rw [← hdue]; exact (hanswers 1 1 hr).2⟩

/-- A receiver that subscribes once the channel has been triggered: it is there and has had no
    signal, but it is tried and waited with in vain, also when the channel is triggered again. -/
theorem late_subscriber_unsignalled :
    let h := History.run [.trigger, .subscribe, .tryReceive 0, .trigger, .wait 0]
    h.names = [0] ∧ h.channel.triggered = true ∧
      h.log = [.triggered, .subscribed 0, .tried 0 .empty, .triggered, .waited 0 false] := by
  decide

end SessionGateway.Shutdown
