import OpenSphere.Notification.Smtp

/-!
# Mail that is sent

A step of `smtpSend` that waits for a reply is answered or fails, unless the server ends the connection:
nobody listens to that.  And what a server makes of the message is the message, unless a dot follows a
line terminator that ends no line of the protocol, or half a pair of code units stands alone.
-/

open Sql (chars)
open Js (CodeUnit Utf16 leading trailing literal)

namespace Notification.Smtp

variable {c : SmtpConfig} {e : MailEvent} {es : List Event} {us rest x : Utf16} {u : CodeUnit}
  {first paired : Bool} {p : Place}

/-! ## Replies -/

/-- `smtpSend` has returned. -/
def Session.Settled (s : Session) : Prop := s.result.isSome = true

instance (s : Session) : Decidable s.Settled := inferInstanceAs (Decidable (_ = _))

def Session.Replying (s : Session) : Prop :=
  s.result = none ∧ ∃ accepted rest, s.awaits = .reply accepted :: rest

/-- The last thing that is waited for is a reply. -/
def Session.Open (s : Session) : Prop :=
  s.result = none → ∃ accepted, s.awaits.getLast? = some (.reply accepted)

theorem getLast_tail {a : Await} {l : List Await} {accepted : List Nat}
    (h : (a :: l).getLast? = some (.reply accepted)) : l = [] ∧ a = .reply accepted ∨
      l.getLast? = some (.reply accepted) := by
  cases l with
  | nil => exact .inl ⟨rfl, Option.some.inj h⟩
  | cons b l => exact .inr h

theorem Session.Open.reply {s : Session} {accepted : List Nat} {l : List Await} (h : s.Open)
    (hresult : s.result = none) (hawaits : s.awaits = .reply accepted :: l) (code : Nat) :
    (s.reply accepted l code).Open := by
  unfold Session.reply
  split
  · intro hnone
    obtain ⟨accepted', hlast⟩ := h hresult
    rw [hawaits] at hlast
    rcases getLast_tail hlast with ⟨rfl, -⟩ | hlast
    · cases hnone
    · exact ⟨accepted', hlast⟩
  · exact nofun

theorem Session.Open.on {s : Session} (h : s.Open) (e : Event) : (s.on e).Open := by
  unfold Session.on
  split
  · exact h
  next hnone =>
    have hresult : s.result = none := Option.not_isSome_iff_eq_none.mp hnone
    split
    next chunk accepted l hawaits =>
      unfold Session.data
      dsimp only
      have hopen : Session.Open { s with buffered := (Js.split crlf (s.buffered ++ chunk)).getLast?.getD [] } :=
        fun _ => h hresult
      split
      · exact hopen.reply hresult hawaits _
      · exact hopen
    · exact nofun
    · exact nofun
    next l hawaits =>
      intro _
      obtain ⟨accepted, hlast⟩ := h hresult
      rw [hawaits] at hlast
      rcases getLast_tail hlast with ⟨-, heq⟩ | hlast
      · cases heq
      · exact ⟨accepted, hlast⟩
    · exact h

theorem open_smtpSend (c : SmtpConfig) (es : List Event) : (smtpSend c es).Open :=
  List.foldlRecOn es Session.on (fun _ => ⟨[250], by rw [SmtpConfig.steps, List.getLast?_append]; rfl⟩)
    fun _ h e _ => h.on e

theorem smtpSend_append (c : SmtpConfig) (es : List Event) (e : Event) :
    smtpSend c (es ++ [e]) = (smtpSend c es).on e := by
  rw [smtpSend, List.foldl_append]
  rfl

theorem settled_of_error (s : Session) : (s.on .error).Settled := by
  unfold Session.on
  split
  next h => exact h
  next => rfl

theorem settled_of_ended {s : Session} (h : s.Open) : (s.on .ended).Settled ↔ ¬ s.Replying := by
  unfold Session.on
  split
  next hsome =>
    refine iff_of_true hsome fun hreplying => ?_
    rw [hreplying.1] at hsome
    cases hsome
  next hnone =>
    have hresult : s.result = none := Option.not_isSome_iff_eq_none.mp hnone
    rcases hawaits : s.awaits with _ | ⟨accepted | _, rest⟩
    · obtain ⟨accepted, hlast⟩ := h hresult
      rw [hawaits] at hlast
      cases hlast
    · refine iff_of_false (fun hsettled => hnone hsettled) (not_not.mpr ⟨hresult, accepted, rest, hawaits⟩)
    · refine iff_of_true rfl ?_
      rintro ⟨-, accepted, rest', heq⟩
      rw [hawaits] at heq
      cases heq

/-! ## Lines -/

@[simp] theorem head_stuff (first : Bool) : ∀ us : Utf16, (stuff first us).head? = us.head?
  | [] => rfl
  | u :: us => by
      rw [stuff]
      split
      next h =>
        simp only [Bool.and_eq_true, decide_eq_true_eq] at h
        rw [List.head?_cons, List.head?_cons, h.2]
      next => rfl

/-- The units that the protocol or the pattern looks at. -/
def marks : Utf16 := [10, 13, 46, 8232, 8233]

theorem plain_of_mark {m : CodeUnit} (hm : m ∈ marks) : m ≠ 65533 ∧ ¬ leading m ∧ ¬ trailing m := by
  simp only [marks, List.mem_cons, List.not_mem_nil, or_false] at hm
  rcases hm with rfl | rfl | rfl | rfl | rfl <;> decide

theorem replaced_eq_iff {m : CodeUnit} (hm : m ∈ marks) (paired : Bool) (u : CodeUnit)
    (next : Option CodeUnit) : replaced paired u next = m ↔ u = m := by
  obtain ⟨hne, hleading, htrailing⟩ := plain_of_mark hm
  unfold replaced
  split
  next h =>
    refine iff_of_false (Ne.symm hne) fun heq => ?_
    rw [heq] at h
    exact h.elim (fun h => hleading h.1) fun h => htrailing h.1
  next => exact Iff.rfl

@[simp] theorem lineTerminator_replaced (paired : Bool) (u : CodeUnit) (next : Option CodeUnit) :
    lineTerminator (replaced paired u next) = lineTerminator u := by
  rw [Bool.eq_iff_iff]
  simp only [lineTerminator, List.contains_iff_mem, List.mem_cons, List.not_mem_nil, or_false,
    replaced_eq_iff (m := 10) (by decide), replaced_eq_iff (m := 13) (by decide),
    replaced_eq_iff (m := 8232) (by decide), replaced_eq_iff (m := 8233) (by decide)]

@[simp] theorem next_replaced (p : Place) (paired : Bool) (u : CodeUnit) (next : Option CodeUnit) :
    p.next (replaced paired u next) = p.next u := by
  simp only [Place.next, replaced_eq_iff (m := 10) (by decide), replaced_eq_iff (m := 13) (by decide)]

@[simp] theorem replaced_dot (paired : Bool) (u : CodeUnit) (next : Option CodeUnit) :
    replaced paired u next = 46 ↔ u = 46 := replaced_eq_iff (by decide) ..

/-- Dots are put where they are put in the octets. -/
theorem encoded_stuff : ∀ (paired first : Bool) (us : Utf16),
    encoded paired (stuff first us) = stuff first (encoded paired us)
  | _, _, [] => rfl
  | paired, first, u :: us => by
      rw [encoded, stuff, stuff]
      by_cases hdot : first = true ∧ u = 46
      · obtain ⟨rfl, rfl⟩ := hdot
        have hdot (paired next) : replaced paired 46 next = 46 := (replaced_dot ..).mpr rfl
        rw [hdot, if_pos (by decide), if_pos (by decide), encoded, encoded, hdot, hdot, encoded_stuff]
      · rw [if_neg (by simpa using hdot), if_neg (by simpa using hdot), encoded, head_stuff, encoded_stuff,
          lineTerminator_replaced]

/-! ## Dots -/

/-- No dot begins a line for the pattern and none for the protocol. -/
def strayless : Bool → Place → Utf16 → Bool
  | _, _, [] => true
  | first, p, u :: us =>
      !(first && u = 46 && p ≠ .start) && strayless (lineTerminator u) (p.next u) us

/-- What a server makes of a text: a dot that begins no line of the protocol stays double. -/
def delivered : Bool → Place → Utf16 → Utf16
  | _, _, [] => []
  | first, p, u :: us =>
      if first && u = 46 && p ≠ .start then 46 :: 46 :: delivered false .middle us
      else u :: delivered (lineTerminator u) (p.next u) us

theorem strayless_encoded : ∀ (first : Bool) (p : Place) (paired : Bool) (us : Utf16),
    strayless first p (encoded paired us) = strayless first p us
  | _, _, _, [] => rfl
  | first, p, paired, u :: us => by
      simp only [encoded, strayless, lineTerminator_replaced, next_replaced, replaced_dot, strayless_encoded]

theorem length_encoded : ∀ (paired : Bool) (us : Utf16), (encoded paired us).length = us.length
  | _, [] => rfl
  | _, _ :: us => congrArg (· + 1) (length_encoded _ us)

theorem delivered_eq_self : ∀ (first : Bool) (p : Place) (us : Utf16), strayless first p us = true →
    delivered first p us = us
  | _, _, [], _ => rfl
  | first, p, u :: us, h => by
      rw [strayless, Bool.and_eq_true, Bool.not_eq_true'] at h
      rw [delivered, if_neg (by rw [h.1]; exact Bool.false_ne_true), delivered_eq_self _ _ us h.2]

theorem length_delivered : ∀ (first : Bool) (p : Place) (us : Utf16), us.length ≤ (delivered first p us).length ∧
    ((delivered first p us).length = us.length → strayless first p us = true)
  | _, _, [] => ⟨Nat.le_refl _, fun _ => rfl⟩
  | first, p, u :: us => by
      rw [delivered, strayless]
      split
      next h =>
        have hle := (length_delivered false .middle us).1
        simp only [List.length_cons]
        exact ⟨by omega, fun heq => by omega⟩
      next h =>
        obtain ⟨hle, hself⟩ := length_delivered (lineTerminator u) (p.next u) us
        simp only [List.length_cons, Nat.add_le_add_iff_right, Nat.add_right_cancel_iff, Bool.and_eq_true,
          Bool.not_eq_true'] at h ⊢
        exact ⟨hle, fun heq => ⟨by simpa using h, hself heq⟩⟩

theorem lineTerminator_of_next (u : CodeUnit) (h : p.next u = .start) : lineTerminator u = true := by
  unfold Place.next at h
  split at h
  · cases h
  split at h
  next hend => rw [hend.1]; decide
  next => cases h

/-- What a server makes of a text with dots put before dots. -/
theorem receive_stuff : ∀ (first : Bool) (p : Place) (us rest : Utf16), (p = .start → first = true) →
    receive p (stuff first us ++ rest) =
      (receive (us.foldl Place.next p) rest).map (delivered first p us ++ ·)
  | _, _, [], _, _ => by
      rw [stuff, delivered, List.foldl_nil]
      exact Option.map_id'.symm
  | first, p, u :: us, rest, h => by
      rw [stuff, delivered, List.foldl_cons]
      by_cases hdot : first = true ∧ u = 46
      · obtain ⟨rfl, rfl⟩ := hdot
        have hnext : p.next 46 = .middle := by cases p <;> rfl
        have ih := receive_stuff false .middle us rest nofun
        rw [if_pos (by decide), hnext, List.cons_append, List.cons_append]
        by_cases hstart : p = .start
        · rw [if_neg (by simp [hstart]), receive, if_pos ⟨hstart, rfl⟩, if_neg (by simp), receive,
            if_neg (by simp)]
          rw [show Place.next .middle 46 = .middle from rfl, ih, Option.map_map]
          rfl
        · rw [if_pos (by simp [hstart]), receive, if_neg (by simp [hstart]), hnext, receive, if_neg (by simp)]
          rw [show Place.next .middle 46 = .middle from rfl, ih, Option.map_map, Option.map_map]
          rfl
      · have hnot : ¬ (p = .start ∧ u = 46) := fun ⟨hstart, heq⟩ => hdot ⟨h hstart, heq⟩
        rw [if_neg (by simpa using hdot), if_neg (by simpa using fun hfirst heq => absurd ⟨hfirst, heq⟩ hdot),
          List.cons_append, receive, if_neg hnot,
          receive_stuff (lineTerminator u) (p.next u) us rest (lineTerminator_of_next u), Option.map_map]
        rfl

/-! ## The lines before the message -/

structure Plain (line : Utf16) : Prop where
  closed : 10 ∉ line
  undotted : line.head? ≠ some 46

theorem next_ne_start (h : u ≠ 10) : p.next u ≠ .start := by
  unfold Place.next
  split
  · exact nofun
  split
  next hend => exact absurd hend.1 h
  next => exact nofun

theorem receive_line : ∀ (p : Place) (line rest : Utf16), 10 ∉ line → (p = .start → line.head? ≠ some 46) →
    receive p (line ++ (13 :: 10 :: rest)) = (receive .start rest).map (line ++ 13 :: 10 :: ·)
  | p, [], rest, _, _ => by
      rw [List.nil_append, receive, if_neg (by simp), receive, if_neg (by simp), Option.map_map]
      rfl
  | p, u :: us, rest, hclosed, hdot => by
      rw [List.mem_cons, not_or] at hclosed
      have hnot : ¬ (p = .start ∧ u = 46) := fun ⟨hstart, heq⟩ => hdot hstart (congrArg some heq)
      rw [List.cons_append, receive, if_neg hnot, receive_line (p.next u) us rest hclosed.2
        (fun h => absurd h (next_ne_start (Ne.symm hclosed.1))), Option.map_map]
      rfl

theorem receive_withEnds (rest : Utf16) : ∀ lines : List Utf16, (∀ l ∈ lines, Plain l) →
    receive .start (withEnds lines ++ rest) = (receive .start rest).map (withEnds lines ++ ·)
  | [], _ => Option.map_id'.symm
  | l :: lines, h => by
      have hl := h l List.mem_cons_self
      have ih := receive_withEnds rest lines fun l hl => h l (List.mem_cons_of_mem _ hl)
      simp only [withEnds, List.flatMap_cons, List.append_assoc, List.cons_append, List.nil_append] at ih ⊢
      rw [receive_line .start l _ hl.closed fun _ => hl.undotted, ih, Option.map_map]
      exact congrFun (congrArg _ (funext fun x => by simp)) _

/-- A unit that is no half of a pair separates what is before it from what is behind. -/
theorem encoded_append {x : Utf16} (hx : ∀ v ∈ x.head?, ¬ leading v ∧ ¬ trailing v) : ∀ (paired : Bool) (us : Utf16),
    encoded paired (us ++ x) = encoded paired us ++ encoded false x
  | paired, [] => by
      cases x with
      | nil => rfl
      | cons v x =>
          obtain ⟨hleading, htrailing⟩ := hx v rfl
          simp [encoded, replaced, hleading, htrailing]
  | paired, u :: us => by
      have hhead : replaced paired u (us ++ x).head? = replaced paired u us.head? := by
        cases us with
        | nil =>
            cases x with
            | nil => rfl
            | cons v x => simp [replaced, (hx v rfl).2]
        | cons v us => rfl
      rw [List.cons_append, encoded, encoded, hhead, encoded_append hx, List.cons_append]

theorem encoded_withEnds (x : Utf16) : ∀ lines : List Utf16,
    encoded false (withEnds lines ++ x) = withEnds (lines.map (encoded false)) ++ encoded false x
  | [] => rfl
  | l :: lines => by
      have ih := encoded_withEnds x lines
      simp only [withEnds, List.flatMap_cons, List.map_cons, List.append_assoc, List.cons_append,
        List.nil_append] at ih ⊢
      rw [encoded_append (by rintro v ⟨⟩; decide), encoded, encoded, ← ih]
      rfl

theorem mem_encoded {m : CodeUnit} (hm : m ∈ marks) : ∀ (paired : Bool) (us : Utf16),
    m ∈ encoded paired us ↔ m ∈ us
  | _, [] => Iff.rfl
  | paired, u :: us => by
      rw [encoded, List.mem_cons, List.mem_cons, mem_encoded hm, eq_comm, replaced_eq_iff hm, eq_comm]

theorem Plain.encoded {line : Utf16} (h : Plain line) : Plain (encoded false line) where
  closed := fun hmem => h.closed ((mem_encoded (by decide) ..).mp hmem)
  undotted := by
    cases line with
    | nil => exact nofun
    | cons u us =>
        exact fun heq => h.undotted (congrArg some ((replaced_dot ..).mp (Option.some.inj heq)))

theorem mem_intercalate {sep : Utf16} : ∀ {ls : List Utf16}, u ∈ sep.intercalate ls → u ∈ sep ∨ ∃ l ∈ ls, u ∈ l
  | [], h => nomatch h
  | [l], h => .inr ⟨l, List.mem_cons_self, by rwa [List.intercalate_singleton] at h⟩
  | l :: l' :: ls, h => by
      rw [List.intercalate_cons_cons, List.append_assoc, List.mem_append, List.mem_append] at h
      rcases h with h | h | h
      · exact .inr ⟨l, List.mem_cons_self, h⟩
      · exact .inl h
      · exact (mem_intercalate h).imp_right fun ⟨l, hl, hu⟩ => ⟨l, List.mem_cons_of_mem _ hl, hu⟩

theorem plain_head (c : SmtpConfig) (e : MailEvent) : ∀ l ∈ c.head e, Plain l := by
  have htext : ∀ s ∈ ["From: <", ">", "To: ", ", ", "Subject: ", "MIME-Version: 1.0",
      "Content-Type: text/plain; charset=UTF-8"], 10 ∉ literal s := by decide
  simp only [List.forall_mem_cons] at htext
  obtain ⟨hfrom, hclose, hto, hcomma, hsubject, hmime, htype, -⟩ := htext
  simp only [SmtpConfig.head, List.forall_mem_cons]
  refine ⟨⟨?_, ?_⟩, ⟨?_, ?_⟩, ⟨?_, ?_⟩, ⟨hmime, by decide⟩, ⟨htype, by decide⟩,
    ⟨by simp, by simp⟩, by simp⟩
  · simp only [List.mem_append, not_or]
    exact ⟨⟨hfrom, c.sender_line⟩, hclose⟩
  · rw [List.append_assoc, List.head?_append, show (literal "From: <").head? = some 70 by decide]
    simp
  · rw [List.mem_append, not_or]
    refine ⟨hto, fun h => ?_⟩
    obtain h | ⟨r, hr, h⟩ := mem_intercalate h
    · exact hcomma h
    · exact c.recipients_line r hr h
  · rw [List.head?_append, show (literal "To: ").head? = some 84 by decide]
    simp
  · rw [List.mem_append, not_or, List.mem_map]
    refine ⟨hsubject, fun ⟨v, _, hv⟩ => ?_⟩
    split at hv
    · cases hv
    next h => exact h (.inl hv)
  · rw [List.head?_append, show (literal "Subject: ").head? = some 83 by decide]
    simp

/-! ## What arrives -/

/-- No half of a pair stands alone, after the first half of one or not. -/
def whole : Bool → Utf16 → Bool
  | _, [] => true
  | paired, u :: us =>
      !((leading u ∧ us.head?.all (fun v => !trailing v)) ∨ (trailing u ∧ paired = false)) && whole (leading u) us

theorem encoded_eq_self_iff : ∀ (paired : Bool) (us : Utf16), encoded paired us = us ↔ whole paired us = true
  | _, [] => iff_of_true rfl rfl
  | paired, u :: us => by
      rw [encoded, whole, List.cons.injEq, encoded_eq_self_iff, Bool.and_eq_true, Bool.not_eq_true',
        decide_eq_false_iff_not, replaced]
      refine and_congr_left' ?_
      split
      next h =>
        refine iff_of_false (fun heq => ?_) (not_not.mpr h)
        have hplain : ¬ leading 65533 ∧ ¬ trailing 65533 := by decide
        rw [← heq] at h
        exact h.elim (fun h => hplain.1 h.1) fun h => hplain.2 h.1
      next h => exact iff_of_true rfl h

theorem receive_written (c : SmtpConfig) (e : MailEvent) : receive .start (encoded false (c.written e)) =
    some (withEnds ((c.head e).map (encoded false)) ++
      (delivered true .start (encoded false (messageFor c e)) ++ [13, 10])) := by
  have hend (p : Place) : receive p [13, 10, 46, 13, 10] = some [13, 10] := by cases p <;> decide
  have hlines : ∀ l ∈ (c.head e).map (encoded false), Plain l :=
    List.forall_mem_map.mpr fun l hl => (plain_head c e l hl).encoded
  rw [SmtpConfig.written, encoded_withEnds, encoded_append (by rintro v ⟨⟩; decide), encoded_stuff,
    show encoded false [13, 10, 46, 13, 10] = [13, 10, 46, 13, 10] by decide,
    receive_withEnds _ _ hlines, receive_stuff true .start _ _ (fun _ => rfl), hend]
  rfl

theorem receive_written_iff (c : SmtpConfig) (e : MailEvent) :
    receive .start (encoded false (c.written e)) = some (withEnds (c.head e) ++ (messageFor c e ++ [13, 10])) ↔
      strayless true .start (messageFor c e) = true ∧
        whole false (withEnds (c.head e) ++ messageFor c e) = true := by
  have hlength : (withEnds ((c.head e).map (encoded false))).length = (withEnds (c.head e)).length := by
    have h := encoded_withEnds [] (c.head e)
    rw [encoded, List.append_nil, List.append_nil] at h
    rw [← h, length_encoded]
  rw [receive_written, Option.some.injEq, ← encoded_eq_self_iff, encoded_withEnds]
  constructor
  · intro h
    obtain ⟨hhead, hrest⟩ := List.append_inj h hlength
    have hbody := List.append_cancel_right hrest
    have hstray : strayless true .start (encoded false (messageFor c e)) = true :=
      (length_delivered ..).2 (by rw [hbody, length_encoded])
    rw [delivered_eq_self _ _ _ hstray] at hbody
    rw [strayless_encoded] at hstray
    exact ⟨hstray, by rw [hhead, hbody]⟩
  · rintro ⟨hstray, heq⟩
    obtain ⟨hhead, hbody⟩ := List.append_inj heq hlength
    rw [hhead, hbody, delivered_eq_self _ _ _ hstray]

/-- An exchange that fails is over, one that the server ends is unless a reply is waited for, and the
message arrives if no dot strays and no pair is cut. -/
theorem exchange_iff (c : SmtpConfig) :
    (∀ es, (smtpSend c (es ++ [.error])).Settled ∧
      ((smtpSend c (es ++ [.ended])).Settled ↔ ¬ (smtpSend c es).Replying)) ∧
    ∀ e, receive .start (encoded false (c.written e)) =
        some (withEnds (c.head e) ++ (messageFor c e ++ [13, 10])) ↔
      strayless true .start (messageFor c e) = true ∧
        whole false (withEnds (c.head e) ++ messageFor c e) = true := by
  refine ⟨fun es => ⟨?_, ?_⟩, receive_written_iff c⟩
  · rw [smtpSend_append]
    exact settled_of_error _
  · rw [smtpSend_append]
    exact settled_of_ended (open_smtpSend c es)

def relay : SmtpConfig where
  secure := true
  starttls := false
  sender := literal "console@example.org"
  recipients := [literal "ops@example.org"]
  titlePrefix := []
  sender_line := by decide
  recipients_line := by decide

/-- The second line of the body begins with a dot. -/
def dotted : MailEvent := ⟨literal "Backup", literal "info", literal "Console", literal ".profile", []⟩

/-- The server ends the connection after its greeting, and the dot arrives twice. -/
theorem exchange_breaks :
    ¬ (smtpSend relay [.data (chars "220 ready\r\n"), .ended]).Settled ∧
      receive .start (encoded false (relay.written dotted)) ≠
        some (withEnds (relay.head dotted) ++ (messageFor relay dotted ++ [13, 10])) := by
  refine ⟨by decide, fun h => ?_⟩
  have hstray : strayless true .start (messageFor relay dotted) = false := by decide
  rw [((receive_written_iff relay dotted).mp h).1] at hstray
  cases hstray

end Notification.Smtp
