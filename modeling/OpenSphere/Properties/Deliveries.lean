import Mathlib.Data.List.Induction
import OpenSphere.Notification.Dispatcher
import OpenSphere.System.Alone

/-!
# Deliveries that are final and bounded

A delivery that its provider has taken over keeps that status, and it is handed to its provider at most
`maxAttempts` times between two retries that an administrator asks for, as long as what is written
about an attempt is written completely.  `Writable` says when it is.
-/

open Sql
open System (Program Safe alone safe_alone safe_pure)

namespace Notification

/-! ## Histories -/

/-- The dispatcher never takes back that a provider has taken a delivery over. -/
def Final (h : List Entry) : Prop :=
  ∀ id before after, .recorded id before after ∈ h → before.final = true → after.final = true

/-- No delivery was handed to its provider more often than allowed between two retries. -/
def Bounded (max : Nat) (h : List Entry) : Prop := ∀ id h', h' <+: h → sends id h' ≤ max

theorem sends_append (id : Uuid) (h : List Entry) (x : Entry) : sends id (h ++ [x]) =
    match x with
    | .handed id' => if id' = id then sends id h + 1 else sends id h
    | .retried id' => if id' = id then 0 else sends id h
    | .recorded .. => sends id h := by
  rw [sends, List.foldl_append]
  cases x <;> rfl

theorem sends_recorded (id : Uuid) (h : List Entry) : ∀ xs : List Entry,
    (∀ x ∈ xs, ∃ id' before after, x = .recorded id' before after) → sends id (h ++ xs) = sends id h
  | [], _ => by rw [List.append_nil]
  | x :: xs, hxs => by
      obtain ⟨id', before, after, rfl⟩ := hxs x List.mem_cons_self
      rw [List.append_cons, sends_recorded id _ xs fun y hy => hxs y (List.mem_cons_of_mem _ hy),
        sends_append]

theorem Final.append {h xs : List Entry} (hh : Final h) (hxs : Final xs) : Final (h ++ xs) := by
  intro id before after hmem hbefore
  rcases List.mem_append.mp hmem with hmem | hmem
  · exact hh id before after hmem hbefore
  · exact hxs id before after hmem hbefore

theorem Bounded.append {max : Nat} {h : List Entry} {x : Entry} (hh : Bounded max h)
    (hx : ∀ id, sends id (h ++ [x]) ≤ max) : Bounded max (h ++ [x]) := by
  intro id h' hprefix
  rcases List.prefix_concat_iff.mp hprefix with rfl | hprefix
  · exact hx id
  · exact hh id h' hprefix

theorem Bounded.recorded {max : Nat} : ∀ {h xs : List Entry}, Bounded max h →
    (∀ x ∈ xs, ∃ id before after, x = .recorded id before after) → Bounded max (h ++ xs)
  | h, [], hh, _ => by rwa [List.append_nil]
  | h, x :: xs, hh, hxs => by
      rw [List.append_cons]
      refine Bounded.recorded (hh.append fun id => ?_) fun y hy => hxs y (List.mem_cons_of_mem _ hy)
      rw [sends_recorded id h [x] fun y hy => hxs y (List.mem_singleton.mp hy ▸ List.mem_cons_self)]
      exact hh id h List.prefix_rfl

/-! ## Sound tables -/

/-- What holds of the tables while a pass is under way.  The message of `cur` was handed to its provider
and is not counted yet, and the attempt `due` was inserted before its delivery is updated. -/
structure World.Sound (S : Settings) (cur : Option Uuid) (due : Option (Uuid × Nat)) (w : World) : Prop where
  distinct : (w.deliveries.map Delivery.id).Nodup
  event : ∀ d ∈ w.deliveries, ∃ e ∈ w.events, e.id = d.eventId
  channel : ∀ d ∈ w.deliveries, ∃ c ∈ w.channels, c.id = d.channelId
  numbered : ∀ a ∈ w.attempts, ∃ d ∈ w.deliveries, d.id = a.deliveryId ∧
    (a.attemptNumber ≤ d.attemptCount ∨ due = some (a.deliveryId, a.attemptNumber))
  known : ∀ id, .handed id ∈ w.history → ∃ d ∈ w.deliveries, d.id = id
  final : Final w.history
  bounded : Bounded S.maxAttempts w.history
  counted : ∀ d ∈ w.deliveries, sends d.id w.history ≤ d.attemptCount + if cur = some d.id then 1 else 0
  spare : ∀ d ∈ w.deliveries, cur ≠ some d.id → d.status.live = true →
    d.attemptCount < S.maxAttempts ∨ sends d.id w.history = 0

section

variable {S : Settings} {cur cur' : Option Uuid} {due due' : Option (Uuid × Nat)} {w w' : World} {id : Uuid}
  {q : Ask} {d : Delivery} {n : Nat}

def World.At (w : World) (id : Uuid) (n : Nat) : Prop := ∃ d ∈ w.deliveries, d.id = id ∧ d.attemptCount = n

/-- A delivery that is handed to its provider, now or later. -/
def World.Live (w : World) (id : Uuid) : Prop := ∃ d ∈ w.deliveries, d.id = id ∧ d.status.live = true

/-- A delivery that no provider has taken over. -/
def World.Pending (w : World) (id : Uuid) : Prop := ∃ d ∈ w.deliveries, d.id = id ∧ d.status.final = false

def World.Has (w : World) (id : Uuid) : Prop := ∃ d ∈ w.deliveries, d.id = id

theorem World.Pending.has (h : w.Pending id) : w.Has id := by
  obtain ⟨d, hd, hid, -⟩ := h
  exact ⟨d, hd, hid⟩

theorem World.Live.pending (h : w.Live id) : w.Pending id := by
  obtain ⟨d, hd, hid, hlive⟩ := h
  refine ⟨d, hd, hid, ?_⟩
  cases hstatus : d.status with
  | accepted | delivered =>
      rw [hstatus] at hlive
      cases hlive
  | _ => rfl

theorem World.Sound.unique (h : w.Sound S cur due) {d' : Delivery} (hd : d ∈ w.deliveries)
    (hd' : d' ∈ w.deliveries) (hid : d.id = d'.id) : d = d' :=
  List.inj_on_of_nodup_map h.distinct hd hd' hid

theorem mem_row (h : w.row id = some d) : d ∈ w.deliveries ∧ d.id = id := by
  have hid := List.find?_some h
  exact ⟨List.mem_of_find?_eq_some h, of_decide_eq_true hid⟩

theorem World.Sound.row (h : w.Sound S cur due) (hd : d ∈ w.deliveries) :
    w.row d.id = some d := by
  cases hrow : w.row d.id with
  | none => exact absurd rfl (of_decide_eq_false (Bool.eq_false_iff.mpr (List.find?_eq_none.mp hrow d hd)))
  | some d' =>
      obtain ⟨hd', hid⟩ := mem_row hrow
      rw [h.unique hd' hd hid]

theorem World.Sound.rewrite {f : Delivery → Delivery} {xs : List Entry} (h : w.Sound S cur due)
    (hid : ∀ d, (f d).id = d.id) (hevent : ∀ d, (f d).eventId = d.eventId)
    (hchannel : ∀ d, (f d).channelId = d.channelId)
    (hnumbered : ∀ d ∈ w.deliveries, ∀ n, n ≤ d.attemptCount ∨ due = some (d.id, n) →
      n ≤ (f d).attemptCount ∨ due' = some (d.id, n))
    (hknown : ∀ id, .handed id ∉ xs) (hfinal : Final xs) (hbounded : Bounded S.maxAttempts (w.history ++ xs))
    (hcounted : ∀ d ∈ w.deliveries,
      sends d.id (w.history ++ xs) ≤ (f d).attemptCount + if cur' = some d.id then 1 else 0)
    (hspare : ∀ d ∈ w.deliveries, cur' ≠ some d.id → (f d).status.live = true →
      (f d).attemptCount < S.maxAttempts ∨ sends d.id (w.history ++ xs) = 0) :
    ((w.update f).note xs).Sound S cur' due' := by
  have hids : (w.deliveries.map f).map Delivery.id = w.deliveries.map Delivery.id := by
    rw [List.map_map]
    exact List.map_congr_left fun d _ => hid d
  constructor
  case distinct => exact hids ▸ h.distinct
  case event =>
    intro d' hd'
    obtain ⟨d, hd, rfl⟩ := List.mem_map.mp hd'
    rw [hevent]
    exact h.event d hd
  case channel =>
    intro d' hd'
    obtain ⟨d, hd, rfl⟩ := List.mem_map.mp hd'
    rw [hchannel]
    exact h.channel d hd
  case numbered =>
    intro a ha
    obtain ⟨d, hd, hsame, hnumber⟩ := h.numbered a ha
    refine ⟨f d, List.mem_map_of_mem hd, (hid d).trans hsame, ?_⟩
    rw [← hsame] at hnumber ⊢
    exact hnumbered d hd _ hnumber
  case known =>
    intro id hmem
    rcases List.mem_append.mp hmem with hmem | hmem
    · obtain ⟨d, hd, hsame⟩ := h.known id hmem
      exact ⟨f d, List.mem_map_of_mem hd, (hid d).trans hsame⟩
    · exact absurd hmem (hknown id)
  case final => exact h.final.append hfinal
  case bounded => exact hbounded
  case counted =>
    intro d' hd'
    obtain ⟨d, hd, rfl⟩ := List.mem_map.mp hd'
    rw [hid]
    exact hcounted d hd
  case spare =>
    intro d' hd'
    obtain ⟨d, hd, rfl⟩ := List.mem_map.mp hd'
    rw [hid]
    exact hspare d hd

/-! ## What others do -/

/-- The tables later, as far as the deliveries are concerned: only a retry was asked for. -/
structure Drift (w w' : World) : Prop where
  sound : ∀ {S : Settings} {cur : Option Uuid} {due : Option (Uuid × Nat)}, w.Sound S cur due → w'.Sound S cur due
  rows : ∀ d ∈ w.deliveries, ∃ d' ∈ w'.deliveries, d'.id = d.id ∧ d'.attemptCount = d.attemptCount ∧
    (d'.status = d.status ∨ d'.status = .queued) ∧ d'.eventId = d.eventId ∧ d'.channelId = d.channelId

theorem Drift.trans {w'' : World} (h : Drift w w') (h' : Drift w' w'') : Drift w w'' := by
  refine ⟨fun hs => h'.sound (h.sound hs), fun d hd => ?_⟩
  obtain ⟨d', hd', hid, hcount, hstatus, hevent, hchannel⟩ := h.rows d hd
  obtain ⟨d'', hd'', hid', hcount', hstatus', hevent', hchannel'⟩ := h'.rows d' hd'
  refine ⟨d'', hd'', hid'.trans hid, hcount'.trans hcount, ?_, hevent'.trans hevent,
    hchannel'.trans hchannel⟩
  rcases hstatus' with hsame | hqueued
  · rw [hsame]
    exact hstatus
  · exact .inr hqueued

/-- Neither the deliveries nor the attempts nor the history change, and no row that is referred to is
removed. -/
theorem Drift.of_same (hdeliveries : w'.deliveries = w.deliveries) (hattempts : w'.attempts = w.attempts)
    (hhistory : w'.history = w.history) (hevents : ∀ e ∈ w.events, ∃ e' ∈ w'.events, e'.id = e.id)
    (hchannels : ∀ c ∈ w.channels, ∃ c' ∈ w'.channels, c'.id = c.id) : Drift w w' := by
  refine ⟨fun hs => ?_, fun d hd => ⟨d, hdeliveries ▸ hd, rfl, rfl, .inl rfl, rfl, rfl⟩⟩
  constructor
  case distinct => exact hdeliveries ▸ hs.distinct
  case event =>
    rw [hdeliveries]
    intro d hd
    obtain ⟨e, he, hid⟩ := hs.event d hd
    obtain ⟨e', he', hid'⟩ := hevents e he
    exact ⟨e', he', hid'.trans hid⟩
  case channel =>
    rw [hdeliveries]
    intro d hd
    obtain ⟨c, hc, hid⟩ := hs.channel d hd
    obtain ⟨c', hc', hid'⟩ := hchannels c hc
    exact ⟨c', hc', hid'.trans hid⟩
  case numbered => exact hdeliveries ▸ hattempts ▸ hs.numbered
  case known => exact hdeliveries ▸ hhistory ▸ hs.known
  case final => exact hhistory ▸ hs.final
  case bounded => exact hhistory ▸ hs.bounded
  case counted => exact hdeliveries ▸ hhistory ▸ hs.counted
  case spare => exact hdeliveries ▸ hhistory ▸ hs.spare

theorem drift_retry (w : World) (id : Uuid) : Drift w (w.retry id) := by
  have hsends (h : List Entry) (id' : Uuid) :
      sends id' (h ++ [.retried id]) = if id = id' then 0 else sends id' h := sends_append ..
  constructor
  case sound =>
    intro S cur due hs
    refine hs.rewrite ?_ ?_ ?_ ?_ ?_ ?_ ?_ ?_ ?_
    case refine_1 | refine_2 | refine_3 => intro d; split <;> rfl
    case refine_4 =>
      intro d _ n hn
      split
      · exact hn
      · exact hn
    case refine_5 => intro id' hmem; cases List.mem_singleton.mp hmem
    case refine_6 => intro id' before after hmem; cases List.mem_singleton.mp hmem
    case refine_7 =>
      refine hs.bounded.append fun id' => ?_
      rw [hsends]
      split
      · exact Nat.zero_le _
      · exact hs.bounded id' _ List.prefix_rfl
    case refine_8 =>
      intro d hd
      rw [hsends]
      split
      · exact Nat.zero_le _
      next hne =>
        rw [if_neg fun h => hne h.symm]
        exact hs.counted d hd
    case refine_9 =>
      intro d hd hcur
      rw [hsends]
      by_cases hsame : id = d.id
      · rw [if_pos hsame]
        exact fun _ => .inr rfl
      · rw [if_neg hsame, if_neg fun h => hsame h.symm]
        exact hs.spare d hd hcur
  case rows =>
    intro d hd
    refine ⟨_, List.mem_map_of_mem hd, ?_⟩
    split
    · exact ⟨rfl, rfl, .inr rfl, rfl, rfl⟩
    · exact ⟨rfl, rfl, .inl rfl, rfl, rfl⟩

theorem drift_change (w : World) (x : Outside) : Drift w (w.change x) := by
  cases x with
  | retry id => exact drift_retry w id
  | event row =>
      exact .of_same rfl rfl rfl (fun e he => ⟨e, List.mem_append_left _ he, rfl⟩) fun c hc => ⟨c, hc, rfl⟩
  | channel row =>
      exact .of_same rfl rfl rfl (fun e he => ⟨e, he, rfl⟩) fun c hc => ⟨c, List.mem_append_left _ hc, rfl⟩

theorem drift_changes : ∀ (xs : List Outside) (w : World), Drift w (xs.foldl World.change w)
  | [], _ => ⟨fun hs => hs, fun d hd => ⟨d, hd, rfl, rfl, .inl rfl, rfl, rfl⟩⟩
  | x :: xs, w => (drift_change w x).trans (drift_changes xs _)

theorem changes_progress : ∀ (xs : List Outside) (w : World), (xs.foldl World.change w).progress = w.progress
  | [], _ => rfl
  | x :: xs, w => (changes_progress xs _).trans (by cases x <;> rfl)

theorem drift_pass (w : World) (e : Turn) : Drift w (w.pass e) := by
  have hclock : Drift w { w with clock := w.clock + e.elapsed } :=
    .of_same rfl rfl rfl (fun e he => ⟨e, he, rfl⟩) fun c hc => ⟨c, hc, rfl⟩
  exact hclock.trans (drift_changes _ _)

theorem pass_progress (w : World) (e : Turn) : (w.pass e).progress = w.progress :=
  (changes_progress _ _).trans rfl

theorem Drift.at (h : Drift w w') (hat : w.At id n) : w'.At id n := by
  obtain ⟨d, hd, hid, hcount⟩ := hat
  obtain ⟨d', hd', hid', hcount', -⟩ := h.rows d hd
  exact ⟨d', hd', hid'.trans hid, hcount'.trans hcount⟩

theorem Drift.live (h : Drift w w') (hlive : w.Live id) : w'.Live id := by
  obtain ⟨d, hd, hid, hstatus⟩ := hlive
  obtain ⟨d', hd', hid', -, hsame | hqueued, -⟩ := h.rows d hd
  · exact ⟨d', hd', hid'.trans hid, hsame ▸ hstatus⟩
  · exact ⟨d', hd', hid'.trans hid, hqueued ▸ rfl⟩

theorem Drift.pending (h : Drift w w') (hpending : w.Pending id) : w'.Pending id := by
  obtain ⟨d, hd, hid, hstatus⟩ := hpending
  obtain ⟨d', hd', hid', -, hsame | hqueued, -⟩ := h.rows d hd
  · exact ⟨d', hd', hid'.trans hid, hsame ▸ hstatus⟩
  · exact ⟨d', hd', hid'.trans hid, hqueued ▸ rfl⟩

theorem Drift.has (h : Drift w w') (hhas : w.Has id) : w'.Has id := by
  obtain ⟨d, hd, hid⟩ := hhas
  obtain ⟨d', hd', hid', -⟩ := h.rows d hd
  exact ⟨d', hd', hid'.trans hid⟩

/-! ## Requests -/

/-- The request writes nothing about deliveries. -/
def Ask.minor : Ask → Bool
  | .materialize _ => false
  | .claimDeliveries .. => false
  | .send .. => false
  | .postAttempt _ => false
  | .patchDelivery .. => false
  | _ => true

theorem drift_progress (w : World) (p : Progress) : Drift w { w with progress := p } :=
  .of_same rfl rfl rfl (fun e he => ⟨e, he, rfl⟩) fun c hc => ⟨c, hc, rfl⟩

theorem drift_patchChannel (w : World) (id : Uuid) (health : Health) (lastSuccessAt : Option Timestamp)
    (updatedAt : Timestamp) : Drift w (w.patchChannel id health lastSuccessAt updatedAt) := by
  refine .of_same rfl rfl rfl (fun e he => ⟨e, he, rfl⟩) fun c hc => ⟨_, List.mem_map_of_mem hc, ?_⟩
  split
  · rfl
  · rfl

theorem drift_perform (e : Turn) (hq : q.minor = true) (w : World) : Drift w (w.perform e q).2 := by
  have hsame : Drift w w := drift_progress w w.progress
  cases q with
  | materialize | claimDeliveries | send | postAttempt | patchDelivery => cases hq
  | patchChannel => exact drift_patchChannel ..
  | _ => exact hsame

theorem reply_progress (e : Turn) (q : Ask) (w : World) :
    (reply e q w).2.progress = w.progress.next (e.fate q) q := by
  show (w.pass e).progress.next _ q = _
  rw [pass_progress]

theorem reply_answered {e : Turn} (ho : e.fate q = .answered) : reply e q w =
    (((w.pass e).perform e q).1,
      { ((w.pass e).perform e q).2 with progress := w.progress.next .answered q }) := by
  unfold reply
  dsimp only
  rw [ho, pass_progress]
  rfl

theorem reply_lost {e : Turn} (ho : e.fate q = .lost) : reply e q w =
    (.error e.failure, { ((w.pass e).perform e q).2 with progress := w.progress.next .lost q }) := by
  unfold reply
  dsimp only
  rw [ho, pass_progress]
  rfl

theorem reply_refused {e : Turn} (ho : e.fate q = .refused) : reply e q w =
    (.error e.failure, { w.pass e with progress := w.progress.next .refused q }) := by
  unfold reply
  dsimp only
  rw [ho, pass_progress]
  rfl

theorem reply_drift (e : Turn) (hq : q.minor = true) (w : World) : Drift w (reply e q w).2 := by
  refine (drift_pass w e).trans (Drift.trans ?_ (drift_progress _ _))
  split
  · exact drift_progress _ (w.pass e).progress
  · exact drift_perform e hq _

/-! ## Completions that write everything -/

/-- What is written about an attempt is written completely: an attempt is inserted only if its delivery is
updated after it; once the message was handed to its provider, one of the two completions does so; and
once it was recorded that the provider has taken it over, none does again. -/
def Writable (e : Turn) (q : Ask) (w : World) : Prop :=
  match q with
  | .delivery _ | .event _ | .channel _ => w.progress = .handed ∨ w.progress = .caught → e.outcome = .answered
  | .postAttempt _ => e.outcome ≠ .lost ∧ (w.progress = .caught → e.outcome = .answered) ∧
      (w.progress = .broken → e.outcome = .refused)
  | .patchDelivery .. => e.outcome ≠ .refused
  | _ => True

instance (e : Turn) (w : World) : (q : Ask) → Decidable (Writable e q w)
  | .delivery _ | .event _ | .channel _ =>
      inferInstanceAs (Decidable (w.progress = .handed ∨ w.progress = .caught → e.outcome = .answered))
  | .postAttempt _ => inferInstanceAs (Decidable (e.outcome ≠ .lost ∧
      (w.progress = .caught → e.outcome = .answered) ∧ (w.progress = .broken → e.outcome = .refused)))
  | .patchDelivery .. => inferInstanceAs (Decidable (e.outcome ≠ .refused))
  | .now | .random | .claimEvents .. | .materialize _ | .claimDeliveries .. | .secretFor _ | .send .. |
    .patchChannel .. => inferInstanceAs (Decidable True)

/-- Where a pass has got, with the deliveries that are still to be dispatched. -/
structure Stage (S : Settings) (rest : List Uuid) (cur : Option Uuid) (due : Option (Uuid × Nat)) (p : Progress)
    (w : World) : Prop where
  sound : w.Sound S cur due
  progress : w.progress = p
  rest : ∀ id ∈ rest, w.Live id

variable {rest : List Uuid} {p : Progress}

theorem Stage.drift {p' : Progress} (h : Stage S rest cur due p w) (hdrift : Drift w w')
    (hp : w'.progress = p') : Stage S rest cur due p' w' :=
  ⟨hdrift.sound h.sound, hp, fun id hid => hdrift.live (h.rest id hid)⟩

/-! ## Reading a delivery -/

def Ask.read : Ask → Bool
  | .delivery _ => true
  | .event _ => true
  | .channel _ => true
  | _ => false

/-- A row that is read is answered as it is, unless no message is at stake. -/
theorem reply_read {e : Turn} (hq : q.read = true) (hw : Writable e q w) :
    (e.fate q = .answered ∧ (reply e q w).1 = ((w.pass e).perform e q).1) ∨
      w.progress ≠ .handed ∧ w.progress ≠ .caught ∧ (reply e q w).1 = .error e.failure ∧
        (reply e q w).2.progress = if w.progress = .broken then .quiet else w.progress := by
  by_cases ho : e.fate q = .answered
  · exact .inl ⟨ho, if_pos ho⟩
  · refine .inr ?_
    have hprogress := reply_progress e q w
    have hfree : w.progress ≠ .handed ∧ w.progress ≠ .caught := by
      cases q with
      | delivery | event | channel => exact ⟨fun h => ho (hw (.inl h)), fun h => ho (hw (.inr h))⟩
      | _ => cases hq
    refine ⟨hfree.1, hfree.2, if_neg ho, hprogress.trans ?_⟩
    cases q with
    | delivery =>
        show (if w.progress = .handed then _ else _) = _
        rw [if_neg hfree.1]
        simp [ho]
    | event | channel =>
        show (if _ then _ else _) = _
        simp [ho]
    | _ => cases hq

def Found (id : Uuid) (p : Progress) (w : World) : Except Failure Context → World → Prop
  | .ok context, w' => Drift w w' ∧ context.delivery.id = id ∧ w'.At id context.delivery.attemptCount ∧
      w'.progress = if p = .handed then .caught else p
  | .error _, w' => Drift w w' ∧ p ≠ .handed ∧ p ≠ .caught ∧ w'.progress = if p = .broken then .quiet else p

theorem minor_of_read (hq : q.read = true) : q.minor = true := by
  cases q with
  | delivery | event | channel => rfl
  | _ => cases hq

theorem safe_reference (good : q.Answer → Prop) (hq : q.read = true)
    (hdelivery : ∀ id', q ≠ .delivery id') (hs : w.Sound S cur due) (hd : d ∈ w.deliveries)
    (hp : w.progress = p)
    (hperform : ∀ (u : World) (e : Turn), u.Sound S cur due →
      (∃ d' ∈ u.deliveries, d'.eventId = d.eventId ∧ d'.channelId = d.channelId) →
      ∃ x, (u.perform e q).1 = .ok x ∧ good x) :
    Safe reply (alone Writable) (fun r w' => Drift w w' ∧ match r with
      | .ok x => good x ∧ w'.progress = p
      | .error _ => p ≠ .handed ∧ p ≠ .caught ∧ w'.progress = if p = .broken then .quiet else p) (ask q) w := by
  refine safe_alone fun e hw => ?_
  have hdrift : Drift w (reply e q w).2 := reply_drift e (minor_of_read hq) w
  refine ⟨hdrift, ?_⟩
  rcases reply_read hq hw with ⟨ho, -⟩ | ⟨hhanded, hcaught, hanswer, hprogress⟩
  · rw [reply_answered ho]
    obtain ⟨d', hd', -, -, -, hevent, hchannel⟩ := (drift_pass w e).rows d hd
    obtain ⟨x, hx, hgood⟩ := hperform (w.pass e) e ((drift_pass w e).sound hs) ⟨d', hd', hevent, hchannel⟩
    dsimp only
    rw [hx]
    refine ⟨hgood, ?_⟩
    show w.progress.next .answered q = p
    cases q with
    | delivery id' => exact absurd rfl (hdelivery id')
    | event | channel =>
        show (if _ then _ else _) = _
        simp [hp]
    | _ => cases hq
  · rw [hanswer]
    exact ⟨hp ▸ hhanded, hp ▸ hcaught, hp ▸ hprogress⟩

theorem find_isSome {α : Type} {l : List α} {f : α → Uuid} {id : Uuid} (h : ∃ x ∈ l, f x = id) :
    (l.find? fun x => f x = id).isSome = true := by
  obtain ⟨x, hx, hid⟩ := h
  exact List.find?_isSome.mpr ⟨x, hx, decide_eq_true hid⟩

theorem safe_context (hs : w.Sound S cur due) (hid : w.Has id) (hp : w.progress = p) :
    Safe reply (alone Writable) (Found id p w) (deliveryContext id) w := by
  unfold deliveryContext
  have hnext : (if (if p = .handed then Progress.caught else p) = .handed then Progress.caught
      else if p = .handed then .caught else p) = if p = .handed then .caught else p := by
    cases p <;> rfl
  refine Safe.bind (m := fun r w' => match r with
    | .ok found => Drift w w' ∧ ∃ d ∈ w'.deliveries, found = some d ∧ d.id = id ∧
        w'.progress = if p = .handed then .caught else p
    | .error _ => Drift w w' ∧ p ≠ .handed ∧ p ≠ .caught ∧ w'.progress = if p = .broken then .quiet else p)
    ?_ ?_ ?_
  · refine safe_alone fun e hw => ?_
    have hdrift : Drift w (reply e (.delivery id) w).2 := reply_drift e rfl w
    rcases reply_read rfl hw with ⟨ho, -⟩ | ⟨hhanded, hcaught, hanswer, hprogress⟩
    · rw [reply_answered ho] at hdrift ⊢
      obtain ⟨d, hd, hsame⟩ := hid
      obtain ⟨d', hd', hsame', -⟩ := (drift_pass w e).rows d hd
      have hrow := ((drift_pass w e).sound hs).row hd'
      rw [hsame', hsame] at hrow
      refine ⟨hdrift, d', hd', hrow, hsame'.trans hsame, ?_⟩
      show (if w.progress = .handed then _ else _) = _
      rw [hp]
      simp
    · rw [hanswer]
      exact ⟨hdrift, hp ▸ hhanded, hp ▸ hcaught, hp ▸ hprogress⟩
  · rintro found w₁ ⟨hdrift, d, hd, rfl, hid', hprogress⟩
    dsimp only
    have hs₁ := hdrift.sound hs
    have herror : ∀ w', Drift w₁ w' → (if p = .handed then Progress.caught else p) ≠ .handed ∧
        (if p = .handed then Progress.caught else p) ≠ .caught ∧
        w'.progress = (if (if p = .handed then Progress.caught else p) = .broken then .quiet
          else if p = .handed then .caught else p) → ∀ e, Found id p w (.error e) w' := by
      rintro w' hw' ⟨hhanded, hcaught, hend⟩ e
      cases p with
      | handed => exact absurd rfl hcaught
      | caught => exact absurd rfl hcaught
      | quiet | recorded | broken => exact ⟨hdrift.trans hw', nofun, nofun, hend⟩
    refine Safe.bind (safe_reference (q := .event d.eventId) (fun x => Option.isSome x = true) rfl
      (fun _ h => by cases h) hs₁ hd hprogress fun u e hu hd' => ⟨_, rfl, ?_⟩) ?_ ?_
    · obtain ⟨d', hd', hevent, -⟩ := hd'
      exact find_isSome (hevent ▸ hu.event d' hd')
    · rintro event w₂ ⟨hdrift₂, hevent, hprogress₂⟩
      obtain ⟨event, rfl⟩ := Option.isSome_iff_exists.mp hevent
      obtain ⟨d₂, hd₂, hid₂, hcount₂, -, -, hchannel₂⟩ := hdrift₂.rows d hd
      refine Safe.bind (safe_reference (q := .channel d.channelId) (fun x => Option.isSome x = true) rfl
        (fun _ h => by cases h) (hdrift₂.sound hs₁) hd₂ hprogress₂ fun u e hu hd' => ⟨_, rfl, ?_⟩) ?_ ?_
      · obtain ⟨d', hd', -, hchannel⟩ := hd'
        exact find_isSome (hchannel.trans hchannel₂ ▸ hu.channel d' hd')
      · rintro channel w₃ ⟨hdrift₃, hchannel, hprogress₃⟩
        obtain ⟨channel, rfl⟩ := Option.isSome_iff_exists.mp hchannel
        have hat : w₁.At id d.attemptCount := ⟨d, hd, hid', rfl⟩
        exact safe_pure.mpr ⟨hdrift.trans (hdrift₂.trans hdrift₃), hid', (hdrift₂.trans hdrift₃).at hat, hprogress₃⟩
      · rintro e w₃ ⟨hdrift₃, hrest⟩
        exact herror w₃ (hdrift₂.trans hdrift₃) hrest e
    · rintro e w₂ ⟨hdrift₂, hrest⟩
      exact herror w₂ hdrift₂ hrest e
  · exact fun _ _ h => h

/-! ## Writing about an attempt -/

theorem postAttempt_isSome {a : Attempt} (hs : w.Sound S cur none) (hat : w.At a.deliveryId n)
    (hnumber : a.attemptNumber = n + 1) (hretry : a.retryAfterMs = none) : (w.postAttempt a).isSome = true := by
  obtain ⟨d, hd, hid, hcount⟩ := hat
  unfold World.postAttempt
  rw [← hid, hs.row hd, hretry, if_neg (by simp), if_neg, if_neg (by simp)]
  · rfl
  · intro hany
    obtain ⟨b, hb, hsame⟩ := List.any_eq_true.mp hany
    simp only [Bool.and_eq_true, decide_eq_true_eq] at hsame
    obtain ⟨d', hd', hid', hle | hdue⟩ := hs.numbered b hb
    · rw [hs.unique hd' hd (hid'.trans hsame.1)] at hle
      omega
    · cases hdue

theorem World.Sound.post {a : Attempt} (hs : w.Sound S cur none) (hat : w.At a.deliveryId n)
    (hnumber : a.attemptNumber = n + 1) (h : w.postAttempt a = some w') :
    w'.Sound S cur (some (a.deliveryId, n + 1)) ∧ Drift w { w' with attempts := w.attempts } := by
  unfold World.postAttempt at h
  split at h
  · cases h
  · split at h
    · cases h
    · split at h
      · cases h
      · cases h
        refine ⟨?_, .of_same rfl rfl rfl (fun e he => ⟨e, he, rfl⟩) fun c hc => ⟨c, hc, rfl⟩⟩
        constructor
        case numbered =>
          intro b hb
          rcases List.mem_append.mp hb with hb | hb
          · obtain ⟨d, hd, hid, hle | hdue⟩ := hs.numbered b hb
            · exact ⟨d, hd, hid, .inl hle⟩
            · cases hdue
          · obtain rfl := List.mem_singleton.mp hb
            obtain ⟨d, hd, hid, -⟩ := hat
            exact ⟨d, hd, hid, .inr (by rw [hnumber])⟩
        case distinct => exact hs.distinct
        case event => exact hs.event
        case channel => exact hs.channel
        case known => exact hs.known
        case final => exact hs.final
        case bounded => exact hs.bounded
        case counted => exact hs.counted
        case spare => exact hs.spare

theorem safe_post {a : Attempt} (h : Stage S rest cur none p w) (hat : w.At a.deliveryId n)
    (hnumber : a.attemptNumber = n + 1) (hretry : p ≠ .handed → a.retryAfterMs = none) :
    Safe reply (alone Writable) (fun r w' => (w.Pending a.deliveryId → w'.Pending a.deliveryId) ∧ match r with
      | .ok _ => p ≠ .broken ∧ Stage S rest cur (some (a.deliveryId, n + 1)) p w' ∧ w'.At a.deliveryId n
      | .error _ => p ≠ .caught ∧ Stage S rest cur none (if p = .broken then .quiet else p) w')
      (ask (.postAttempt a)) w := by
  refine safe_alone fun e hw => ?_
  obtain ⟨hlost, hcaught, hbroken⟩ := hw
  have hpass := drift_pass w e
  have hstage : Stage S rest cur none w.progress (w.pass e) := h.drift hpass (pass_progress w e)
  rw [h.progress] at hcaught hbroken
  cases ho : e.outcome with
  | lost => exact absurd ho hlost
  | refused =>
      rw [reply_refused (show e.fate (.postAttempt a) = .refused from ho)]
      refine ⟨hpass.pending, fun hp => ?_, h.drift (hpass.trans (drift_progress _ _)) (by rw [h.progress]; rfl)⟩
      rw [ho] at hcaught
      cases hcaught hp
  | answered =>
      rw [reply_answered (show e.fate (.postAttempt a) = .answered from ho)]
      have hne : p ≠ .broken := fun hp => by
        rw [ho] at hbroken
        cases hbroken hp
      have hnext : w.progress.next .answered (.postAttempt a) = p := by
        rw [h.progress]
        exact if_neg hne
      rw [hnext]
      have hat' := hpass.at hat
      cases hpost : (w.pass e).postAttempt a with
      | none =>
          have hanswer : (w.pass e).perform e (.postAttempt a) = (.error violated, w.pass e) := by
            simp only [World.perform, hpost]
          rw [hanswer]
          refine ⟨hpass.pending, fun hp => ?_, ?_⟩
          · have hsome := postAttempt_isSome hstage.sound hat' hnumber (hretry (by rw [hp]; decide))
            rw [hpost] at hsome
            cases hsome
          · rw [if_neg hne]
            exact h.drift (hpass.trans (drift_progress _ _)) rfl
      | some w' =>
          have hanswer : (w.pass e).perform e (.postAttempt a) = (.ok (), w') := by
            simp only [World.perform, hpost]
          rw [hanswer]
          obtain ⟨hsound, hdrift⟩ := hstage.sound.post hat' hnumber hpost
          have hall := hpass.trans hdrift
          exact ⟨hall.pending, hne, ⟨(drift_progress w' p).sound hsound, rfl,
            fun id hid => hall.live (h.rest id hid)⟩, hall.at hat⟩

theorem World.Sound.patch {patch : Patch} (hs : w.Sound S cur (some (id, n + 1)))
    (hcur : cur = none ∨ cur = some id) (hat : w.At id n) (hpending : w.Pending id)
    (hcount : patch.attemptCount = n + 1) (hstatus : patch.status.live = true → n + 1 < S.maxAttempts) :
    (w.patchDelivery id patch).Sound S none none := by
  obtain ⟨d₀, hd₀, rfl, hn⟩ := hat
  obtain ⟨d₁, hd₁, hid₁, hfinal⟩ := hpending
  obtain rfl := hs.unique hd₁ hd₀ hid₁
  have hnone (d : Delivery) (hne : d.id ≠ d₁.id) : cur ≠ some d.id := by
    rcases hcur with rfl | rfl
    · exact nofun
    · exact fun h => hne (Option.some.inj h).symm
  unfold World.patchDelivery
  rw [hs.row hd₁]
  show World.Sound _ _ _ ((w.update _).note [.recorded d₁.id d₁.status patch.status])
  have hxs : ∀ x ∈ [Entry.recorded d₁.id d₁.status patch.status], ∃ id before after,
      x = .recorded id before after := fun x hx => ⟨_, _, _, List.mem_singleton.mp hx⟩
  refine hs.rewrite ?_ ?_ ?_ ?_ ?_ ?_ (hs.bounded.recorded hxs) ?_ ?_
  case refine_1 | refine_2 | refine_3 => intro d; split <;> rfl
  case refine_4 =>
    intro d hd m hm
    refine .inl ?_
    by_cases hsame : d.id = d₁.id
    · rw [if_pos hsame]
      obtain rfl := hs.unique hd hd₁ hsame
      show m ≤ patch.attemptCount
      rcases hm with hm | hm
      · omega
      · have hpair := Prod.mk.inj (Option.some.inj hm)
        omega
    · rw [if_neg hsame]
      rcases hm with hm | hm
      · exact hm
      · exact absurd (Prod.mk.inj (Option.some.inj hm)).1.symm hsame
  case refine_5 => intro id hmem; cases List.mem_singleton.mp hmem
  case refine_6 =>
    intro id before after hmem hbefore
    cases List.mem_singleton.mp hmem
    rw [hfinal] at hbefore
    cases hbefore
  case refine_7 =>
    intro d hd
    have hzero : (if (none : Option Uuid) = some d.id then 1 else 0) = 0 := if_neg nofun
    rw [sends_recorded d.id w.history _ hxs, hzero]
    by_cases hsame : d.id = d₁.id
    · rw [if_pos hsame]
      obtain rfl := hs.unique hd hd₁ hsame
      show _ ≤ patch.attemptCount
      have hcounted := hs.counted d hd
      split at hcounted
      · omega
      · omega
    · rw [if_neg hsame]
      have hcounted := hs.counted d hd
      rwa [if_neg (hnone d hsame)] at hcounted
  case refine_8 =>
    intro d hd _ hlive
    rw [sends_recorded d.id w.history _ hxs]
    by_cases hsame : d.id = d₁.id
    · rw [if_pos hsame] at hlive ⊢
      refine .inl ?_
      show patch.attemptCount < _
      rw [hcount]
      exact hstatus hlive
    · rw [if_neg hsame] at hlive ⊢
      exact hs.spare d hd (hnone d hsame) hlive

/-- The update of a delivery after the insertion of its attempt. -/
theorem safe_patch {patch : Patch} (h : Stage S rest cur (some (id, n + 1)) p w) (hrest : id ∉ rest)
    (hcur : cur = none ∨ cur = some id) (hat : w.At id n) (hpending : w.Pending id)
    (hcount : patch.attemptCount = n + 1) (hstatus : patch.status.live = true → n + 1 < S.maxAttempts) :
    Safe reply (alone Writable) (fun r w' => w'.Has id ∧ (patch.status.final = false → w'.Pending id) ∧
      Stage S rest none none (if patch.status.final then match r with
        | .ok _ => .recorded
        | .error _ => .broken else .quiet) w') (ask (.patchDelivery id patch)) w := by
  refine safe_alone fun e hw => ?_
  have hpass := drift_pass w e
  have hat' := hpass.at hat
  have hpending' := hpass.pending hpending
  have hsound := (hpass.sound h.sound).patch hcur hat' hpending' hcount hstatus
  have hhas : ((w.pass e).patchDelivery id patch).Has id := by
    obtain ⟨d, hd, hid, -⟩ := hat'
    refine ⟨_, List.mem_map_of_mem hd, ?_⟩
    rw [if_pos hid]
    exact hid
  have hnew : patch.status.final = false → ((w.pass e).patchDelivery id patch).Pending id := by
    intro hfinal
    obtain ⟨d, hd, hid, -⟩ := hat'
    refine ⟨_, List.mem_map_of_mem hd, ?_⟩
    rw [if_pos hid]
    exact ⟨hid, hfinal⟩
  have hothers : ∀ id' ∈ rest, ((w.pass e).patchDelivery id patch).Live id' := by
    intro id' hid'
    obtain ⟨d, hd, hid, hlive⟩ := hpass.live (h.rest id' hid')
    have hne : d.id ≠ id := fun hsame => hrest (hsame ▸ hid.symm ▸ hid')
    refine ⟨_, List.mem_map_of_mem hd, ?_⟩
    rw [if_neg hne]
    exact ⟨hid, hlive⟩
  cases ho : e.outcome with
  | refused => exact absurd ho hw
  | answered =>
      rw [reply_answered (show e.fate (.patchDelivery id patch) = .answered from ho)]
      refine ⟨hhas, hnew, (drift_progress _ _).sound hsound, ?_, hothers⟩
      show (if _ then _ else _) = _
      rfl
  | lost =>
      rw [reply_lost (show e.fate (.patchDelivery id patch) = .lost from ho)]
      refine ⟨hhas, hnew, (drift_progress _ _).sound hsound, ?_, hothers⟩
      show (if _ then _ else _) = _
      rfl

theorem safe_patchChannel (id : Uuid) {channelId : Uuid} {health : Health} {lastSuccessAt : Option Timestamp}
    {updatedAt : Timestamp} (h : Stage S rest none none p w) (hp : p = .recorded ∨ p = .quiet) :
    Safe reply (alone Writable) (fun r w' => (w.Has id → w'.Has id) ∧ (w.Pending id → w'.Pending id) ∧ match r with
      | .ok _ => Stage S rest none none .quiet w'
      | .error _ => Stage S rest none none (if p = .recorded then .broken else .quiet) w')
      (ask (.patchChannel channelId health lastSuccessAt updatedAt)) w := by
  refine safe_alone fun e _ => ?_
  have hdrift : Drift w (reply e (.patchChannel channelId health lastSuccessAt updatedAt) w).2 :=
    reply_drift e rfl w
  have hprogress := reply_progress e (.patchChannel channelId health lastSuccessAt updatedAt) w
  rw [h.progress] at hprogress
  refine ⟨hdrift.has, hdrift.pending, ?_⟩
  cases ho : e.fate (.patchChannel channelId health lastSuccessAt updatedAt) with
  | answered =>
      rw [ho] at hprogress
      have hanswer := congrArg Prod.fst (reply_answered (w := w) ho)
      rw [show (reply e _ w).1 = .ok () from hanswer]
      refine h.drift hdrift (hprogress.trans ?_)
      rcases hp with rfl | rfl <;> rfl
  | lost | refused =>
      rw [ho] at hprogress
      have hanswer : (reply e (.patchChannel channelId health lastSuccessAt updatedAt) w).1 = .error e.failure :=
        if_neg (by rw [ho]; decide)
      rw [hanswer]
      refine h.drift hdrift (hprogress.trans ?_)
      rcases hp with rfl | rfl <;> rfl

/-! ## Completions -/

/-- A request that asks nobody else is answered. -/
theorem safe_own {α : Type} {f : q.Answer → Dispatch α} {post : Except Failure α → World → Prop}
    (hq : q.own = true)
    (h : ∀ x w', Drift w w' → w'.progress = w.progress → Safe reply (alone Writable) post (f x) w') :
    Safe reply (alone Writable) post (ask q >>= f) w := by
  refine Safe.bind (m := fun r w' => ∃ x, r = .ok x ∧ Drift w w' ∧ w'.progress = w.progress) ?_ ?_ ?_
  · refine safe_alone fun e _ => ?_
    have ho : e.fate q = .answered := if_pos hq
    have hminor : q.minor = true := by
      cases q with
      | now | random => rfl
      | _ => cases hq
    have hprogress : w.progress.next .answered q = w.progress := by
      cases q with
      | now | random => rfl
      | _ => cases hq
    have hdrift : Drift w (reply e q w).2 := reply_drift e hminor w
    have hanswer : ∃ x, ((w.pass e).perform e q).1 = .ok x := by
      cases q with
      | now | random => exact ⟨_, rfl⟩
      | _ => cases hq
    obtain ⟨x, hx⟩ := hanswer
    rw [reply_answered ho] at hdrift ⊢
    exact ⟨x, hx, hdrift, hprogress⟩
  · rintro x w' ⟨_, hx, hdrift, hprogress⟩
    cases hx
    exact h x w' hdrift hprogress
  · rintro e w' ⟨_, hx, -⟩
    cases hx

/-- When the delivery is due again is found out alone. -/
theorem safe_dueAfter {kind : Kind} {attempt : Nat} {retryAfterMs : Option Nat} :
    Safe reply (alone Writable) (fun r w' => ∃ x, r = .ok x ∧ Drift w w' ∧ w'.progress = w.progress)
      (dueAfter S kind attempt retryAfterMs) w := by
  unfold dueAfter
  split
  · refine Safe.bind (m := fun r w' => ∃ x, r = .ok x ∧ Drift w w' ∧ w'.progress = w.progress) ?_ ?_ ?_
    · unfold nextAttempt
      refine safe_own (q := .random) rfl fun random w₁ hdrift₁ hprogress₁ => ?_
      refine safe_own (q := .now) rfl fun now w₂ hdrift₂ hprogress₂ => ?_
      exact safe_pure.mpr ⟨_, rfl, hdrift₁.trans hdrift₂, hprogress₂.trans hprogress₁⟩
    · rintro x w' ⟨_, hx, hw'⟩
      exact safe_pure.mpr ⟨_, rfl, hw'⟩
    · rintro e w' ⟨_, hx, -⟩
      cases hx
  · exact safe_pure.mpr ⟨none, rfl, drift_progress w w.progress, rfl⟩

/-- The message in hand, if its attempt is not recorded yet. -/
def Progress.message (p : Progress) (id : Uuid) : Option Uuid :=
  match p with
  | .handed => some id
  | .caught => some id
  | _ => none

theorem message_cases (p : Progress) (id : Uuid) : p.message id = none ∨ p.message id = some id := by
  cases p <;> first | exact .inl rfl | exact .inr rfl

inductive Failed (S : Settings) (rest : List Uuid) (id : Uuid) (p : Progress) (w : World) : Prop where
  /-- Nothing is written. -/
  | nothing (hp : p = .handed) (h : Stage S rest (some id) none .handed w) (hpending : w.Pending id)
  | quiet (h : Stage S rest none none .quiet w) (hpending : p ≠ .broken → w.Pending id)
  /-- The provider has taken the message over. -/
  | broken (hp : p = .handed) (h : Stage S rest none none .broken w) (hhas : w.Has id)

theorem statusAfter_live {kind : Kind} {attempt : Nat} (h : (statusAfter S kind attempt).live = true) :
    attempt < S.maxAttempts := by
  cases kind with
  | accepted | delivered | permanent => cases h
  | retryable =>
      by_contra hle
      have hstatus : statusAfter S .retryable attempt = .deadLetter := if_pos (not_lt.mp hle)
      rw [hstatus] at h
      cases h

theorem statusAfter_retryable {attempt : Nat} : (statusAfter S .retryable attempt).final = false := by
  show (if _ then _ else _ : Status).final = false
  split
  · rfl
  · rfl

/-- A completion writes everything, or fails before it has written anything, or after it was recorded what
came of the message. -/
theorem safe_complete {context : Context} {result : Result} {startedAt : Timestamp}
    (h : Stage S rest (p.message id) none p w) (hrest : id ∉ rest) (hid : context.delivery.id = id)
    (hat : w.At id context.delivery.attemptCount) (hpending : p ≠ .broken → w.Pending id)
    (hp : p ≠ .recorded) (hresult : p ≠ .handed → result.kind = .retryable ∧ result.retryAfterMs = none) :
    Safe reply (alone Writable) (fun r w' => match r with
      | .ok _ => Stage S rest none none .quiet w'
      | .error _ => Failed S rest id p w') (completeDelivery S context result startedAt) w := by
  unfold completeDelivery
  refine safe_own (q := .now) rfl fun now w₁ hdrift₁ hprogress₁ => ?_
  refine safe_own (q := .now) rfl fun ended w₂ hdrift₂ hprogress₂ => ?_
  have hdrift := hdrift₁.trans hdrift₂
  have hstage : Stage S rest (p.message id) none p w₂ :=
    h.drift hdrift (hprogress₂.trans (hprogress₁.trans h.progress))
  have hpending₂ : p ≠ .broken → w₂.Pending id := fun hne => hdrift.pending (hpending hne)
  subst hid
  refine Safe.bind (safe_post hstage (hdrift.at hat) rfl fun hne => (hresult hne).2) ?_ ?_
  · rintro _ w₃ ⟨hkept, hne, hstage₃, hat₃⟩
    refine Safe.bind safe_dueAfter ?_ ?_
    rotate_left
    · rintro e w₄ ⟨_, hx, -⟩
      cases hx
    rintro next w₄ ⟨_, -, hdrift₄, hprogress₄⟩
    have hstage₄ := hstage₃.drift hdrift₄ (hprogress₄.trans hstage₃.progress)
    have hpending₄ := hdrift₄.pending (hkept (hpending₂ hne))
    have hfinal : (patchRow S context result (context.delivery.attemptCount + 1) now next).status.final = true →
        p = .handed := by
      intro hfinal
      by_contra hne'
      have hstatus : (statusAfter S result.kind (context.delivery.attemptCount + 1)).final = true := hfinal
      rw [(hresult hne').1, statusAfter_retryable] at hstatus
      cases hstatus
    refine Safe.bind (safe_patch hstage₄ hrest (message_cases p _) (hdrift₄.at hat₃) hpending₄ rfl
      statusAfter_live) ?_ ?_
    · rintro _ w₅ ⟨hhas₅, hpending₅, hstage₅⟩
      by_cases hstatus :
          (patchRow S context result (context.delivery.attemptCount + 1) now next).status.final = true
      · rw [if_pos hstatus] at hstage₅
        refine (safe_patchChannel context.delivery.id hstage₅ (.inl rfl)).imp ?_
        rintro (e | x) w₆ ⟨hkept₆, -, hstage₆⟩
        · exact .broken (hfinal hstatus) hstage₆ (hkept₆ hhas₅)
        · exact hstage₆
      · rw [if_neg hstatus] at hstage₅
        refine (safe_patchChannel context.delivery.id hstage₅ (.inr rfl)).imp ?_
        rintro (e | x) w₆ ⟨-, hkept₆, hstage₆⟩
        · exact .quiet hstage₆ fun _ => hkept₆ (hpending₅ (Bool.eq_false_iff.mpr hstatus))
        · exact hstage₆
    · rintro e w₅ ⟨hhas₅, hpending₅, hstage₅⟩
      by_cases hstatus :
          (patchRow S context result (context.delivery.attemptCount + 1) now next).status.final = true
      · rw [if_pos hstatus] at hstage₅
        exact .broken (hfinal hstatus) hstage₅ hhas₅
      · rw [if_neg hstatus] at hstage₅
        exact .quiet hstage₅ fun _ => hpending₅ (Bool.eq_false_iff.mpr hstatus)
  · rintro e w₃ ⟨hkept, hne, hstage₃⟩
    cases p with
    | handed => exact .nothing rfl hstage₃ (hkept (hpending₂ nofun))
    | quiet => exact .quiet hstage₃ fun _ => hkept (hpending₂ nofun)
    | broken => exact .quiet hstage₃ fun hne => absurd rfl hne
    | caught => exact absurd rfl hne
    | recorded => exact absurd rfl hp

/-! ## A delivery -/

theorem World.Sound.send (hs : w.Sound S none none) (hlive : w.Live id) :
    (w.note [.handed id]).Sound S (some id) none := by
  obtain ⟨d₀, hd₀, rfl, hstatus⟩ := hlive
  have hsends (id : Uuid) : sends id (w.history ++ [.handed d₀.id]) =
      if d₀.id = id then sends id w.history + 1 else sends id w.history := sends_append ..
  have hcounted (d : Delivery) (hd : d ∈ w.deliveries) : sends d.id w.history ≤ d.attemptCount := hs.counted d hd
  constructor
  case distinct => exact hs.distinct
  case event => exact hs.event
  case channel => exact hs.channel
  case numbered => exact hs.numbered
  case known =>
    intro id hmem
    rcases List.mem_append.mp hmem with hmem | hmem
    · exact hs.known id hmem
    · cases List.mem_singleton.mp hmem
      exact ⟨d₀, hd₀, rfl⟩
  case final =>
    exact hs.final.append fun id before after hmem => by cases List.mem_singleton.mp hmem
  case bounded =>
    refine hs.bounded.append fun id => ?_
    rw [hsends]
    split
    next hsame =>
      rw [← hsame]
      have hpositive := S.positive
      have hle := hcounted d₀ hd₀
      rcases hs.spare d₀ hd₀ nofun hstatus with hspare | hzero
      · omega
      · omega
    · exact hs.bounded id _ List.prefix_rfl
  case counted =>
    intro d hd
    show sends d.id (w.history ++ [.handed d₀.id]) ≤ _
    have hle := hcounted d hd
    rw [hsends]
    by_cases hsame : d₀.id = d.id
    · rw [if_pos hsame, if_pos (congrArg some hsame)]
      omega
    · rw [if_neg hsame]
      omega
  case spare =>
    intro d hd hcur hlive
    show _ ∨ sends d.id (w.history ++ [.handed d₀.id]) = 0
    rw [hsends, if_neg fun hsame => hcur (congrArg some hsame)]
    exact hs.spare d hd nofun hlive

inductive Caught (S : Settings) (rest : List Uuid) (id : Uuid) (w : World) : Prop where
  | quiet (h : Stage S rest none none .quiet w) (hpending : w.Pending id)
  | handed (h : Stage S rest (some id) none .handed w) (hpending : w.Pending id)
  | broken (h : Stage S rest none none .broken w) (hhas : w.Has id)

theorem safe_send {channel : Channel} {secret : String} {event : Event} (h : Stage S rest none none .quiet w)
    (hlive : w.Live id) :
    Safe reply (alone Writable) (fun r w' => w'.Has id ∧ (∀ n, w.At id n → w'.At id n) ∧ match r with
      | .ok _ => Stage S rest (some id) none .handed w' ∧ w'.Pending id
      | .error _ => Caught S rest id w') (ask (.send id channel secret event)) w := by
  refine safe_alone fun e _ => ?_
  have hpass := drift_pass w e
  have hsound := (hpass.sound h.sound).send (hpass.live hlive)
  have hall : Drift w { w.pass e with progress := .handed } := hpass.trans (drift_progress _ _)
  have hhanded : Stage S rest (some id) none .handed
      { (w.pass e).note [.handed id] with progress := .handed } :=
    ⟨(drift_progress _ _).sound hsound, rfl, fun id' hid => hall.live (h.rest id' hid)⟩
  cases ho : e.outcome with
  | answered =>
      rw [reply_answered (show e.fate (.send id channel secret event) = .answered from ho)]
      exact ⟨hall.has hlive.pending.has, fun _ hat => hall.at hat, hhanded, hall.pending hlive.pending⟩
  | lost =>
      rw [reply_lost (show e.fate (.send id channel secret event) = .lost from ho)]
      exact ⟨hall.has hlive.pending.has, fun _ hat => hall.at hat, .handed hhanded (hall.pending hlive.pending)⟩
  | refused =>
      rw [reply_refused (show e.fate (.send id channel secret event) = .refused from ho)]
      have hquiet := hpass.trans (drift_progress (w.pass e) (w.progress.next .refused (.send id channel secret event)))
      exact ⟨hquiet.has hlive.pending.has, fun _ hat => hquiet.at hat,
        .quiet (h.drift hquiet h.progress) (hquiet.pending hlive.pending)⟩

/-- What is tried for a delivery that is to be handed to its provider. -/
theorem safe_deliver {startedAt : Timestamp} (h : Stage S rest none none .quiet w) (hrest : id ∉ rest)
    (hlive : w.Live id) :
    Safe reply (alone Writable) (fun r w' => match r with
      | .ok _ => Stage S rest none none .quiet w'
      | .error _ => Caught S rest id w') (deliver S id startedAt) w := by
  unfold deliver
  refine Safe.bind (safe_context h.sound hlive.pending.has h.progress) ?_ ?_
  · rintro context w₁ ⟨hdrift, hid, hat, hprogress⟩
    have hstage := h.drift hdrift hprogress
    have hlive₁ := hdrift.live hlive
    refine Safe.bind (m := fun r w' => Drift w₁ w' ∧ w'.progress = .quiet) ?_ ?_ ?_
    · refine safe_alone fun e _ => ⟨reply_drift e rfl w₁, ?_⟩
      exact (reply_progress e (.secretFor context.channel.id) w₁).trans hprogress
    · rintro secret w₂ ⟨hdrift₂, hprogress₂⟩
      refine Safe.bind (safe_send (hstage.drift hdrift₂ hprogress₂) (hdrift₂.live hlive₁)) ?_ ?_
      · rintro result w₃ ⟨hhas, hkept, hstage₃, hpending⟩
        refine (safe_complete (p := .handed) hstage₃ hrest hid (hkept _ (hdrift₂.at hat)) (fun _ => hpending)
          nofun fun hne => absurd rfl hne).imp ?_
        rintro (e | x) w₄ hw₄
        · cases hw₄ with
          | nothing _ hstage₄ hpending₄ => exact .handed hstage₄ hpending₄
          | quiet hstage₄ hpending₄ => exact .quiet hstage₄ (hpending₄ nofun)
          | broken _ hstage₄ hhas₄ => exact .broken hstage₄ hhas₄
        · exact hw₄
      · rintro e w₃ ⟨-, -, hw₃⟩
        exact hw₃
    · rintro e w₂ ⟨hdrift₂, hprogress₂⟩
      exact .quiet (hstage.drift hdrift₂ hprogress₂) (hdrift₂.live hlive₁).pending
  · rintro e w₁ ⟨hdrift, -, -, hprogress⟩
    exact .quiet (h.drift hdrift hprogress) (hdrift.live hlive).pending

/-- What is done about an error ends with nothing in hand. -/
theorem safe_recover {startedAt : Timestamp} {error : Failure} (h : Caught S rest id w) (hrest : id ∉ rest) :
    Safe reply (alone Writable) (fun _ w' => Stage S rest none none .quiet w') (recover S id startedAt error) w := by
  -- the second completion of a message in hand, with what the first one has left
  have hagain {p : Progress} {context : Context} {u : World} (hstage : Stage S rest (p.message id) none p u)
      (hid : context.delivery.id = id) (hat : u.At id context.delivery.attemptCount)
      (hpending : p ≠ .broken → u.Pending id) (hp : p ≠ .recorded) (hhanded : p ≠ .handed) (code : String) :
      Safe reply (alone Writable) (fun _ w' => Stage S rest none none .quiet w')
        (completeDelivery S context ⟨.retryable, code, "", none⟩ startedAt) u := by
    refine (safe_complete hstage hrest hid hat hpending hp fun _ => ⟨rfl, rfl⟩).imp ?_
    rintro (e | x) w' hw'
    · cases hw' with
      | nothing hp' => exact absurd hp' hhanded
      | quiet hstage' => exact hstage'
      | broken hp' => exact absurd hp' hhanded
    · exact hw'
  have hfound {p : Progress} (hsound : w.Sound S (p.message id) none) (hhas : w.Has id) (hp : w.progress = p) :
      Safe reply (alone Writable) (fun r w' => match r with
        | .ok (some context) => Found id p w (.ok context) w'
        | .ok none => ∃ e, Found id p w (.error e) w'
        | .error _ => False)
        (Program.tryCatch (do
          let context ← deliveryContext id
          return some context) fun _ => pure none) w := by
    refine Safe.tryCatch (m := fun r w' => match r with
      | .ok (some context) => Found id p w (.ok context) w'
      | .ok none => False
      | .error e => Found id p w (.error e) w') ?_ ?_ ?_
    · exact Safe.bind (safe_context hsound hhas hp) (fun context w' hw' => safe_pure.mpr hw') fun _ _ hw' => hw'
    · rintro (_ | context) w' hw'
      · exact hw'.elim
      · exact hw'
    · exact fun e w' hw' => safe_pure.mpr ⟨e, hw'⟩
  unfold recover
  cases h with
  | quiet hstage hpending =>
      refine Safe.bind (hfound (p := .quiet) hstage.sound hpending.has hstage.progress) ?_ fun _ _ hw' => hw'.elim
      rintro (_ | context) w' hw'
      · obtain ⟨e, hdrift, -, -, hprogress⟩ := hw'
        exact safe_pure.mpr (hstage.drift hdrift hprogress)
      · obtain ⟨hdrift, hid, hat, hprogress⟩ := hw'
        exact hagain (p := .quiet) (hstage.drift hdrift hprogress) hid hat (fun _ => hdrift.pending hpending)
          nofun nofun _
  | handed hstage hpending =>
      refine Safe.bind (hfound (p := .handed) hstage.sound hpending.has hstage.progress) ?_ fun _ _ hw' => hw'.elim
      rintro (_ | context) w' hw'
      · obtain ⟨e, -, hne, -⟩ := hw'
        exact absurd rfl hne
      · obtain ⟨hdrift, hid, hat, hprogress⟩ := hw'
        exact hagain (p := .caught) (hstage.drift hdrift hprogress) hid hat (fun _ => hdrift.pending hpending)
          nofun nofun _
  | broken hstage hhas =>
      refine Safe.bind (hfound (p := .broken) hstage.sound hhas hstage.progress) ?_ fun _ _ hw' => hw'.elim
      rintro (_ | context) w' hw'
      · obtain ⟨e, hdrift, -, -, hprogress⟩ := hw'
        exact safe_pure.mpr (hstage.drift hdrift hprogress)
      · obtain ⟨hdrift, hid, hat, hprogress⟩ := hw'
        exact hagain (p := .broken) (hstage.drift hdrift hprogress) hid hat (fun hne => absurd rfl hne) nofun nofun _

theorem safe_dispatch (h : Stage S (id :: rest) none none .quiet w) (hrest : id ∉ rest) :
    Safe reply (alone Writable) (fun _ w' => Stage S rest none none .quiet w') (dispatch S id) w := by
  unfold dispatch
  refine safe_own (q := .now) rfl fun startedAt w₁ hdrift hprogress => ?_
  have hstage := h.drift hdrift (hprogress.trans h.progress)
  have htail : Stage S rest none none .quiet w₁ :=
    ⟨hstage.sound, hstage.progress, fun id' hid => hstage.rest id' (List.mem_cons_of_mem _ hid)⟩
  refine Safe.tryCatch (safe_deliver htail hrest (hstage.rest id List.mem_cons_self)) ?_ ?_
  · exact fun _ _ hw' => hw'
  · exact fun error w' hw' => safe_recover hw' hrest

theorem safe_dispatchAll : ∀ {ids : List Uuid} {w : World}, ids.Nodup → Stage S ids none none .quiet w →
    Safe reply (alone Writable) (fun _ w' => Stage S [] none none .quiet w') (dispatchAll S ids) w
  | [], _, _, h => safe_pure.mpr h
  | id :: ids, _, hnodup, h => by
      obtain ⟨hid, hids⟩ := List.nodup_cons.mp hnodup
      refine Safe.bind (safe_dispatch h hid) (fun _ w' hw' => safe_dispatchAll hids hw') fun _ w' hw' => ?_
      exact ⟨hw'.sound, hw'.progress, fun id hid => absurd hid List.not_mem_nil⟩

/-! ## A pass -/

theorem sends_eq_zero {h : List Entry} (hnone : .handed id ∉ h) : sends id h = 0 := by
  induction h using List.reverseRecOn with
  | nil => rfl
  | append_singleton h x ih =>
      have hh := ih fun hmem => hnone (List.mem_append_left _ hmem)
      rw [sends_append]
      cases x with
      | handed id' =>
          have hne : id' ≠ id := by
            rintro rfl
            exact hnone (List.mem_append_right _ List.mem_cons_self)
          dsimp only
          rw [if_neg hne]
          exact hh
      | retried id' =>
          dsimp only
          split
          · rfl
          · exact hh
      | recorded => exact hh

theorem sound_insertDelivery {eventId : Uuid} (target : Uuid × Uuid) (hevent : ∃ e ∈ w.events, e.id = eventId)
    (hs : w.Sound S none none) : (w.insertDelivery eventId target).Sound S none none := by
  unfold World.insertDelivery
  split
  next hnew =>
    simp only [Bool.and_eq_true, Option.isNone_iff_eq_none] at hnew
    obtain ⟨⟨hchannel, hrow⟩, -⟩ := hnew
    have hfresh : ∀ d ∈ w.deliveries, d.id ≠ target.1 := fun d hd hid =>
      List.find?_eq_none.mp hrow d hd (decide_eq_true hid)
    have hzero : sends target.1 w.history = 0 := sends_eq_zero fun hmem => by
      obtain ⟨d, hd, hid⟩ := hs.known _ hmem
      exact hfresh d hd hid
    constructor
    case distinct =>
      show (List.map Delivery.id (w.deliveries ++ [_])).Nodup
      rw [List.map_append, List.nodup_append]
      refine ⟨hs.distinct, List.nodup_singleton _, ?_⟩
      rintro _ hmem _ hlast rfl
      obtain ⟨d, hd, hid⟩ := List.mem_map.mp hmem
      exact hfresh d hd (hid.trans (List.mem_singleton.mp hlast))
    case event =>
      intro d hd
      rcases List.mem_append.mp hd with hd | hd
      · exact hs.event d hd
      · cases List.mem_singleton.mp hd
        exact hevent
    case channel =>
      intro d hd
      rcases List.mem_append.mp hd with hd | hd
      · exact hs.channel d hd
      · cases List.mem_singleton.mp hd
        obtain ⟨c, hc, hid⟩ := List.any_eq_true.mp hchannel
        exact ⟨c, hc, of_decide_eq_true hid⟩
    case numbered =>
      intro a ha
      obtain ⟨d, hd, hnumber⟩ := hs.numbered a ha
      exact ⟨d, List.mem_append_left _ hd, hnumber⟩
    case known =>
      intro id hmem
      obtain ⟨d, hd, hid⟩ := hs.known id hmem
      exact ⟨d, List.mem_append_left _ hd, hid⟩
    case final => exact hs.final
    case bounded => exact hs.bounded
    case counted =>
      intro d hd
      rcases List.mem_append.mp hd with hd | hd
      · exact hs.counted d hd
      · cases List.mem_singleton.mp hd
        exact hzero.le.trans (Nat.zero_le _)
    case spare =>
      intro d hd hcur hlive
      rcases List.mem_append.mp hd with hd | hd
      · exact hs.spare d hd hcur hlive
      · cases List.mem_singleton.mp hd
        exact .inr hzero
  · exact hs

theorem insertDelivery_events (w : World) (eventId : Uuid) (target : Uuid × Uuid) :
    (w.insertDelivery eventId target).events = w.events ∧
      (w.insertDelivery eventId target).progress = w.progress := by
  unfold World.insertDelivery
  split
  · exact ⟨rfl, rfl⟩
  · exact ⟨rfl, rfl⟩

theorem sound_insertDeliveries {eventId : Uuid} : ∀ (targets : List (Uuid × Uuid)) {w : World},
    (∃ e ∈ w.events, e.id = eventId) → w.Sound S none none →
      (targets.foldl (fun w target => w.insertDelivery eventId target) w).Sound S none none
  | [], _, _, hs => hs
  | target :: targets, w, hevent, hs => by
      refine sound_insertDeliveries targets ?_ (sound_insertDelivery target hevent hs)
      rw [(insertDelivery_events w eventId target).1]
      exact hevent

theorem safe_materialize (h : Stage S [] none none .quiet w) :
    Safe reply (alone Writable) (fun _ w' => Stage S [] none none .quiet w') (ask (.materialize id)) w := by
  refine safe_alone fun e _ => ?_
  have hpass : Stage S [] none none .quiet (w.pass e) :=
    h.drift (drift_pass w e) ((pass_progress w e).trans h.progress)
  have hperform : ((w.pass e).perform e (.materialize id)).2.Sound S none none := by
    simp only [World.perform, World.materialize]
    split
    next hsome =>
      split at hsome
      next hany =>
        obtain rfl := Option.some.inj hsome
        obtain ⟨x, hx, hid⟩ := List.any_eq_true.mp hany
        exact sound_insertDeliveries _ ⟨x, hx, of_decide_eq_true hid⟩ hpass.sound
      · cases hsome
    · exact hpass.sound
  have hprogress := (reply_progress e (.materialize id) w).trans h.progress
  refine ⟨?_, hprogress, fun id' hid' => absurd hid' List.not_mem_nil⟩
  refine (drift_progress _ _).sound ?_
  split
  · exact hpass.sound
  · exact hperform

theorem safe_materializeAll : ∀ {ids : List Uuid} {w : World}, Stage S [] none none .quiet w →
    Safe reply (alone Writable) (fun _ w' => Stage S [] none none .quiet w') (materializeAll ids) w
  | [], _, h => safe_pure.mpr h
  | _ :: _, _, h => Safe.bind (safe_materialize h) (fun _ _ hw' => safe_materializeAll hw') fun _ _ hw' => hw'

theorem candidate_status (h : w.candidate d = true) : d.status.live = true := by
  simp only [World.candidate, Bool.or_eq_true, Bool.and_eq_true, decide_eq_true_eq] at h
  rcases h with ⟨hqueued | hretrying, -⟩ | ⟨hsending, -⟩
  · rw [hqueued]
    rfl
  · rw [hretrying]
    rfl
  · rw [hsending]
    rfl

theorem mem_chosen {limit : Nat} (h : d ∈ w.chosen limit) :
    d ∈ w.deliveries ∧ w.candidate d = true :=
  List.mem_filter.mp ((List.mem_insertionSort _).mp (List.mem_of_mem_take h))

theorem nodup_chosen {limit : Nat} (hs : w.Sound S cur due) : ((w.chosen limit).map Delivery.id).Nodup := by
  have hfilter : ((w.deliveries.filter w.candidate).map Delivery.id).Nodup :=
    hs.distinct.sublist (List.filter_sublist.map _)
  have hsorted := ((List.perm_insertionSort (fun d d' : Delivery => d.nextAttemptAt ≤ d'.nextAttemptAt)
    (w.deliveries.filter w.candidate)).map Delivery.id).nodup_iff.mpr hfilter
  exact hsorted.sublist ((List.take_sublist _ _).map _)

theorem claimed (worker : String) (limit : Nat) (hs : w.Sound S none none) :
    (w.claimDeliveries worker limit).2.Sound S none none ∧ (w.claimDeliveries worker limit).1.Nodup ∧
      ∀ id ∈ (w.claimDeliveries worker limit).1, (w.claimDeliveries worker limit).2.Live id := by
  refine ⟨?_, nodup_chosen hs, fun id hid => ?_⟩
  · have hxs : ∀ x ∈ (w.chosen limit).map fun d => Entry.recorded d.id d.status .sending,
        ∃ id before after, x = .recorded id before after := fun x hx => by
      obtain ⟨d, -, rfl⟩ := List.mem_map.mp hx
      exact ⟨_, _, _, rfl⟩
    refine hs.rewrite ?_ ?_ ?_ ?_ ?_ ?_ (hs.bounded.recorded hxs) ?_ ?_
    case refine_1 | refine_2 | refine_3 => intro d; split <;> rfl
    case refine_4 =>
      intro d _ n hn
      split
      · exact hn
      · exact hn
    case refine_5 =>
      intro id hmem
      obtain ⟨d, -, h⟩ := List.mem_map.mp hmem
      cases h
    case refine_6 =>
      intro id before after hmem hbefore
      obtain ⟨d, hd, h⟩ := List.mem_map.mp hmem
      cases h
      have hlive := candidate_status (mem_chosen hd).2
      cases hstatus : d.status with
      | accepted | delivered =>
          rw [hstatus] at hlive
          cases hlive
      | _ =>
          rw [hstatus] at hbefore
          cases hbefore
    case refine_7 =>
      intro d hd
      rw [sends_recorded _ _ _ hxs]
      split
      · exact hs.counted d hd
      · exact hs.counted d hd
    case refine_8 =>
      intro d hd hcur hlive
      rw [sends_recorded _ _ _ hxs]
      split at hlive
      next hmem =>
        rw [if_pos hmem]
        obtain ⟨d', hd', hid⟩ := List.mem_map.mp (List.contains_iff_mem.mp hmem)
        obtain ⟨hmem', hcandidate⟩ := mem_chosen hd'
        obtain rfl := hs.unique hmem' hd hid
        exact hs.spare d' hd nofun (candidate_status hcandidate)
      next hmem =>
        rw [if_neg hmem]
        exact hs.spare d hd nofun hlive
  · obtain ⟨d, hd, rfl⟩ := List.mem_map.mp hid
    refine ⟨_, List.mem_map_of_mem (mem_chosen hd).1, ?_⟩
    have hin : ((w.chosen limit).map Delivery.id).contains d.id = true := List.contains_iff_mem.mpr hid
    rw [if_pos hin]
    exact ⟨rfl, rfl⟩

theorem safe_claim {worker : String} {limit : Nat} (h : Stage S [] none none .quiet w) :
    Safe reply (alone Writable) (fun (r : Except Failure (Ask.claimDeliveries worker limit).Answer) w' => match r with
      | .ok ids => List.Nodup ids ∧ Stage S ids none none .quiet w'
      | .error _ => Stage S [] none none .quiet w') (ask (.claimDeliveries worker limit)) w := by
  refine safe_alone fun e _ => ?_
  have hpass := (drift_pass w e).sound h.sound
  obtain ⟨hsound, hnodup, hlive⟩ := claimed worker limit hpass
  cases ho : e.outcome with
  | answered =>
      rw [reply_answered (show e.fate (.claimDeliveries worker limit) = .answered from ho)]
      exact ⟨hnodup, (drift_progress _ _).sound hsound, h.progress, fun id hid => hlive id hid⟩
  | lost =>
      rw [reply_lost (show e.fate (.claimDeliveries worker limit) = .lost from ho)]
      exact ⟨(drift_progress _ _).sound hsound, h.progress, fun id hid => absurd hid List.not_mem_nil⟩
  | refused =>
      rw [reply_refused (show e.fate (.claimDeliveries worker limit) = .refused from ho)]
      exact ⟨(drift_progress _ _).sound hpass, h.progress, fun id hid => absurd hid List.not_mem_nil⟩

/-- A pass ends with nothing in hand, however it ends. -/
theorem safe_runOnce (h : Stage S [] none none .quiet w) :
    Safe reply (alone Writable) (fun _ w' => Stage S [] none none .quiet w') (runOnce S) w := by
  unfold runOnce
  refine Safe.bind (m := fun _ w' => Stage S [] none none .quiet w') ?_ ?_ fun _ _ hw' => hw'
  · refine safe_alone fun e _ => ?_
    exact h.drift (reply_drift e rfl w) ((reply_progress e (.claimEvents S.workerId 25) w).trans h.progress)
  · intro events w₁ h₁
    refine Safe.bind (safe_materializeAll h₁) (fun _ w₂ h₂ => ?_) fun _ _ hw' => hw'
    refine Safe.bind (safe_claim h₂) ?_ fun _ _ hw' => hw'
    rintro ids w₃ ⟨hnodup, h₃⟩
    exact safe_dispatchAll hnodup h₃

/-! ## Passes -/

variable (S) in
/-- In some passes everything is written completely. -/
def Written : List (Nat → Turn) → World → Prop
  | [], _ => True
  | es :: ps, w => (runOnce S).Meets reply Writable es w ∧ Written ps ((runOnce S).exec reply es w).2

instance Written.decidable : ∀ (ps : List (Nat → Turn)) (w : World), Decidable (Written S ps w)
  | [], _ => .isTrue trivial
  | _ :: ps, _ => @instDecidableAnd _ _ _ (Written.decidable ps _)

theorem stage_passes : ∀ {ps : List (Nat → Turn)} {w : World}, Written S ps w →
    Stage S [] none none .quiet w → Stage S [] none none .quiet (passes S w ps)
  | [], _, _, h => h
  | es :: ps, w, hwritten, h => by
      have hpass := (safe_runOnce h).alone_exec hwritten.1
      exact stage_passes (w := ((runOnce S).exec reply es w).2) hwritten.2 hpass

end

def initial (clock : Timestamp) (events : List Event) (channels : List Channel) : World where
  clock := clock
  events := events
  channels := channels
  deliveries := []
  attempts := []
  history := []
  progress := .quiet

theorem stage_initial (S : Settings) (clock : Timestamp) (events : List Event) (channels : List Channel) :
    Stage S [] none none .quiet (initial clock events channels) := by
  refine ⟨?_, rfl, fun id hid => absurd hid List.not_mem_nil⟩
  constructor
  case distinct => exact List.nodup_nil
  case bounded =>
    intro id h hprefix
    rw [List.prefix_nil.mp hprefix]
    exact Nat.zero_le _
  case final => exact fun id before after hmem => absurd hmem List.not_mem_nil
  case known => exact fun id hmem => absurd hmem List.not_mem_nil
  case numbered => exact fun a ha => absurd ha List.not_mem_nil
  case event | channel | counted | spare => exact fun d hd => absurd hd List.not_mem_nil

namespace Demo

def outage : Event where
  id := ⟨1⟩
  source := "Console"
  severity := "error"
  title := "Backup failed"
  body := ""
  route := "/recovery"

def operators : Channel where
  id := ⟨2⟩
  provider := "slack"
  health := .healthy
  lastSuccessAt := none
  updatedAt := 0

def settings : Settings := ⟨"notification-dispatcher-0", 8, by decide⟩

/-- A request of a pass that claims the event and has a delivery made for it. -/
def turn (result : Kind) (o : Outcome) : Turn where
  elapsed := 0
  outside := []
  outcome := o
  failure := ⟨some "503"⟩
  events := [⟨1⟩]
  targets := [(⟨3⟩, ⟨2⟩)]
  secret := "https://hooks.slack.com/services/T0/B0/x"
  result := ⟨result, if result = .accepted then "200" else "503", "", none⟩
  random := 0

def refusing (result : Kind) (refused : List Nat) (n : Nat) : Turn :=
  turn result (if refused.contains n then .refused else .answered)

/-- A later pass without a new event. -/
def later (result : Kind) (n : Nat) : Turn :=
  { turn result .answered with elapsed := if n = 0 then 400000 else 0, events := [] }

def tables : World := initial 1767225600000 [outage] [operators]

end Demo

/-- Deliveries are final and bounded in all passes in which everything is written completely. -/
theorem deliveries_final_bounded (S : Settings) (clock : Timestamp) (events : List Event)
    (channels : List Channel) {ps : List (Nat → Turn)} (hwritten : Written S ps (initial clock events channels)) :
    Final (passes S (initial clock events channels) ps).history ∧
      Bounded S.maxAttempts (passes S (initial clock events channels) ps).history := by
  have hstage := stage_passes hwritten (stage_initial S clock events channels)
  exact ⟨hstage.sound.final, hstage.sound.bounded⟩

/-- The provider fails once, and the insertion of the attempt too; then it takes the message over. -/
theorem retry_final_bounded :
    Final (passes Demo.settings Demo.tables
      [Demo.refusing .retryable [11], Demo.later .accepted]).history ∧
    Bounded 8 (passes Demo.settings Demo.tables
      [Demo.refusing .retryable [11], Demo.later .accepted]).history :=
  deliveries_final_bounded Demo.settings _ _ _ (by decide)

/-- The update of the channel is refused after the message was accepted, and the delivery is retried.  The
update of the delivery is refused, and its message is sent once in every pass. -/
theorem accepted_retried :
    ¬ Final (passes Demo.settings Demo.tables [Demo.refusing .accepted [13]]).history ∧
    ¬ Bounded 8 (passes Demo.settings Demo.tables
      (Demo.refusing .accepted [12] :: List.replicate 8 (Demo.later .accepted))).history := by
  constructor
  · intro hfinal
    have hmem : .recorded ⟨3⟩ .accepted .retrying ∈
        (passes Demo.settings Demo.tables [Demo.refusing .accepted [13]]).history := by decide
    cases hfinal _ _ _ hmem rfl
  · intro hbounded
    have hsends : sends ⟨3⟩ (passes Demo.settings Demo.tables
        (Demo.refusing .accepted [12] :: List.replicate 8 (Demo.later .accepted))).history = 9 := by
      decide
    have hle := hbounded ⟨3⟩ _ List.prefix_rfl
    omega

end Notification
