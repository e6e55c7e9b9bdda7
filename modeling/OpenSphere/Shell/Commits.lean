import OpenSphere.Shell.Steps

/-!
# What a call does to the tickets and to the switch

The functions over tickets and over the control row, in the manner of
`Shell.Steps`.  `call_step` puts all calls together: the site stays, each session
takes a `Change`, each ticket a `TicketChange`, and the control row a
`ControlChange`.
-/

open Sql

namespace ConsoleShell

variable {C : ShellCrypto} {t : Clock} {db db' : Shell}
  {x : AttachTicket} {tickets : Table attachTicketSchema}

/-! ## Tickets -/

def AttachTicket.consume (now : Timestamp) (consumer : Option String) (x : AttachTicket) :
    AttachTicket :=
  { x with consumedAt := some now, consumedBy := consumer }

def AttachTicket.authorize (now : Timestamp) (runtimeUid : Option String) (x : AttachTicket) :
    AttachTicket :=
  { x with runtimeAuthorizedAt := some now, runtimeAuthorizedBy := runtimeUid }

inductive TicketChange (t : Clock) : Call → AttachTicket → AttachTicket → Prop
  | consumed {p : ConsumeArgs} {x : AttachTicket}
      (selected : consumeSelects t.start p x = true) :
      TicketChange t (.consumeShellAttachTicket p) x (x.consume t.start p.consumer)
  | authorized {ticketHash : Option String} {p : RuntimeArgs} {x : AttachTicket}
      (selected : authorizeSelects t.start ticketHash p x = true) :
      TicketChange t (.authorizeShellRuntimeAttach ticketHash p) x
        (x.authorize t.start p.runtimeUid)
  | expired {c : Call} {x : AttachTicket} :
      TicketChange t c x { x with expiresAt := min x.expiresAt t.start }

/-- What `issue_shell_attach_ticket` has checked before it inserts a ticket. -/
structure Issued (t : Clock) (db : Shell) (p : IssueArgs) (r : ShellSession) (x : AttachTicket) :
    Prop where
  enabled : db.control.enabled = true
  session : db.sessions.lookup p.binding.sessionId = some r
  admitted : Cond.any (bindingChanged r p.binding ++ expired t.start r) ≠ some true
  row : newTicket t.now p = .ok x

def TicketsStep (t : Clock) (db : Shell) (c : Call) (tickets : Table attachTicketSchema) : Prop :=
  List.Forall₂ (fun x y => y = x ∨ TicketChange t c x y) db.tickets.rows tickets.rows ∨
    ∃ p r x, c = .issueShellAttachTicket p ∧ Issued t db p r x ∧ db.tickets.insert x = .ok tickets

theorem TicketsStep.refl {c : Call} : TicketsStep t db c db.tickets :=
  .inl (List.forall₂_same.mpr fun _ _ => .inl rfl)

theorem Shell.Expires.step {c : Call} {p : AttachTicket → Bool}
    (h : db.Expires t.start p tickets) : TicketsStep t db c tickets := by
  refine .inl ((Table.updateWhere_forall₂ h).imp fun x y hxy => ?_)
  obtain ⟨-, rfl⟩ := hxy
  split
  · exact .inr .expired
  · exact .inl rfl

theorem issue_eq_ok {p : IssueArgs} (h : issueShellAttachTicket C t p db = .ok (db', x)) :
    ∃ r tickets events, Issued t db p r x ∧ db.tickets.insert x = .ok tickets ∧
      db' = { db with tickets := tickets, events := events } := by
  simp only [issueShellAttachTicket, bind_eq_ok, raiseIf_eq_ok, orRaise_eq_ok, Shell.insertTicket,
    pure_eq_ok] at h
  obtain ⟨_, henabled, _, -, r, hlook, _, hadmitted, _, -, _, -, y, hnew, db₁,
    ⟨tickets, hinsert, rfl⟩, db₂, happend, heq⟩ := h
  cases heq
  obtain ⟨events, rfl⟩ := append_eq_ok happend
  exact ⟨r, tickets, events, ⟨by simpa using henabled, hlook, hadmitted, hnew⟩, hinsert, rfl⟩

theorem consumeSelects_hash {now : Timestamp} {p : ConsumeArgs}
    (h : consumeSelects now p x = true) : p.ticketHash = some x.ticketHash := by
  simp only [consumeSelects, beq_iff_eq, Cond.all_eq_true] at h
  have hhash := h _ (List.mem_cons_self ..)
  simp only [eq_eq_true, Option.some.injEq, exists_eq_left'] at hhash
  exact hhash

theorem authorizeSelects_hash {now : Timestamp} {ticketHash : Option String} {p : RuntimeArgs}
    (h : authorizeSelects now ticketHash p x = true) :
    ticketHash = some x.ticketHash := by
  simp only [authorizeSelects, beq_iff_eq, Cond.all_eq_true] at h
  have hhash := h _ (List.mem_cons_self ..)
  simp only [eq_eq_true, Option.some.injEq, exists_eq_left'] at hhash
  exact hhash

structure Consumed (C : ShellCrypto) (t : Clock) (db : Shell) (p : ConsumeArgs)
    (r : ShellSession) (x : AttachTicket) : Prop where
  attach : shellActorHasPermission db p.binding.actorId "session:attach" = true
  session : db.sessions.lookup p.binding.sessionId = some r
  admitted : Cond.any (bindingChanged r p.binding ++ expired t.start r) ≠ some true
  ticket : x ∈ db.tickets.rows
  selected : consumeSelects t.start p x = true

def Shell.Rewrites (db : Shell) (x : AttachTicket) (f : AttachTicket → AttachTicket)
    (tickets : Table attachTicketSchema) : Prop :=
  List.Forall₂ (fun y z => y ∈ db.tickets.rows ∧ z = if y = x then f y else y) db.tickets.rows
    tickets.rows

theorem rewrites_of_selected {q : AttachTicket → Bool} {f : AttachTicket → AttachTicket}
    (h : db.tickets.updateWhere q f = .ok tickets) (hx : db.tickets.rows.filter q = [x]) :
    db.Rewrites x f tickets := by
  refine (Table.updateWhere_forall₂ h).imp fun y z hyz => ?_
  obtain ⟨hy, rfl⟩ := hyz
  refine ⟨hy, ?_⟩
  have hiff : q y = true ↔ y = x := by
    have hmem : y ∈ [x] ↔ y ∈ db.tickets.rows ∧ q y = true := by rw [← hx, List.mem_filter]
    rw [List.mem_singleton] at hmem
    exact ⟨fun hq => hmem.mpr ⟨hy, hq⟩, fun he => (hmem.mp he).2⟩
  by_cases hq : q y = true
  · rw [if_pos hq, if_pos (hiff.mp hq)]
  · rw [if_neg hq, if_neg fun he => hq (hiff.mpr he)]

theorem selected_tickets {q : AttachTicket → Bool} {f : AttachTicket → AttachTicket}
    {hash : Option String} (hkey : ∀ x, q x = true → hash = some x.ticketHash)
    (h : db.tickets.updateWhere q f = .ok tickets) :
    db.tickets.rows.filter q = [] ∧ tickets = db.tickets ∨ ∃ x ∈ db.tickets.rows,
      q x = true ∧ db.tickets.rows.filter q = [x] ∧ db.Rewrites x f tickets := by
  have hnone (hq : db.tickets.rows.filter q = []) : tickets = db.tickets :=
    Table.updateWhere_none h fun x hx => Bool.eq_false_iff.mpr (List.filter_eq_nil_iff.mp hq x hx)
  cases hash with
  | none =>
      have hq : db.tickets.rows.filter q = [] :=
        List.filter_eq_nil_iff.mpr fun x _ hx => nomatch hkey x hx
      exact .inl ⟨hq, hnone hq⟩
  | some k =>
      rcases Table.filter_key (t := db.tickets)
        fun x _ hx => (Option.some.inj (hkey x hx)).symm with hq | ⟨x, hx, hselected, hone⟩
      · exact .inl ⟨hq, hnone hq⟩
      · exact .inr ⟨x, hx, hselected, hone, rewrites_of_selected h hone⟩

theorem consume_eq_ok {p : ConsumeArgs} {out : Option ShellSession}
    (h : consumeShellAttachTicket C t p db = .ok (db', out)) :
    (out = none ∧ db' = db) ∨ ∃ r x sessions tickets events, out = some r ∧
      Consumed C t db p r x ∧ db.Replaces r (ShellSession.attached t.start) sessions ∧
      db.Rewrites x (AttachTicket.consume t.start p.consumer) tickets ∧
      db' = { db with sessions := sessions, tickets := tickets, events := events } := by
  simp only [consumeShellAttachTicket, bind_eq_ok, assertShellAuthority_eq_ok] at h
  obtain ⟨_, ⟨-, hattach⟩, h⟩ := h
  cases hlook : db.sessions.lookup p.binding.sessionId with
  | none =>
      simp only [hlook, pure_eq_ok, Prod.mk.injEq] at h
      exact .inl ⟨h.2.symm, h.1.symm⟩
  | some r =>
      simp only [hlook] at h
      split at h
      next =>
        cases h
        exact .inl ⟨rfl, rfl⟩
      next hadmitted =>
        split at h
        next =>
          cases h
          exact .inl ⟨rfl, rfl⟩
        next =>
          simp only [bind_eq_ok] at h
          obtain ⟨tickets, hupdate, h⟩ := h
          rcases selected_tickets (fun x => consumeSelects_hash) hupdate with
            ⟨hnone, rfl⟩ | ⟨x, hx, hselected, hone, hrewrites⟩
          · rw [hnone, if_pos (by decide)] at h
            cases h
            exact .inl ⟨rfl, rfl⟩
          · simp only [hone, List.length_singleton, ne_eq, not_true_eq_false, if_false, bind_eq_ok,
              pure_eq_ok] at h
            obtain ⟨db₁, hsession, db₂, happend, heq⟩ := h
            cases heq
            have hlook' : ({ db with tickets := tickets } : Shell).sessions.lookup _ = some r := hlook
            obtain ⟨-, sessions, hreplaces, rfl⟩ := updateSession_replaces hlook' hsession
            obtain ⟨events, rfl⟩ := append_eq_ok happend
            exact .inr ⟨r, x, sessions, tickets, events, rfl,
              ⟨hattach trivial, hlook, hadmitted, hx, hselected⟩, hreplaces,
              hrewrites, rfl⟩

structure Authorized (C : ShellCrypto) (t : Clock) (db : Shell) (ticketHash : Option String)
    (p : RuntimeArgs) (r : ShellSession) (x : AttachTicket) : Prop where
  session : db.sessions.lookup p.sessionId = some r
  runtime : runtimeChanged t.start r p ≠ some true
  authority : currentShellPermissionRevision C db.site (some r.actorId) = .ok r.permissionRevision
  attach : shellActorHasPermission db (some r.actorId) "session:attach" = true
  ticket : x ∈ db.tickets.rows
  selected : authorizeSelects t.start ticketHash p x = true

theorem authorize_eq_ok {ticketHash : Option String} {p : RuntimeArgs} {out : Option ShellSession}
    (h : authorizeShellRuntimeAttach C t ticketHash p db = .ok (db', out)) :
    (out = none ∧ db' = db) ∨ ∃ r x tickets, out = some r ∧
      Authorized C t db ticketHash p r x ∧
      db.Rewrites x (AttachTicket.authorize t.start p.runtimeUid) tickets ∧
      db' = { db with tickets := tickets } := by
  simp only [authorizeShellRuntimeAttach] at h
  cases hlook : db.sessions.lookup p.sessionId with
  | none =>
      simp only [hlook, pure_eq_ok, Prod.mk.injEq] at h
      exact .inl ⟨h.2.symm, h.1.symm⟩
  | some r =>
      simp only [hlook] at h
      split at h
      next =>
        cases h
        exact .inl ⟨rfl, rfl⟩
      next hruntime =>
        simp only [bind_eq_ok] at h
        obtain ⟨revision, hcurrent, h⟩ := h
        split at h
        next =>
          cases h
          exact .inl ⟨rfl, rfl⟩
        next hauthority =>
          simp only [bind_eq_ok] at h
          obtain ⟨tickets, hupdate, h⟩ := h
          rcases selected_tickets (fun x => authorizeSelects_hash) hupdate with
            ⟨hnone, rfl⟩ | ⟨x, hx, hselected, hone, hrewrites⟩
          · rw [hnone, if_pos (by decide)] at h
            cases h
            exact .inl ⟨rfl, rfl⟩
          · simp only [hone, List.length_singleton, ne_eq, not_true_eq_false, if_false,
              pure_eq_ok] at h
            cases h
            have hpassed := any_ne_true hauthority
            have hrevision : r.permissionRevision = revision :=
              ne_passed (hpassed _ (List.mem_cons_self ..)) rfl rfl
            have hattach : shellActorHasPermission db (some r.actorId) "session:attach" = true := by
              simpa using hpassed _ (List.mem_cons_of_mem _ (List.mem_cons_self ..))
            exact .inr ⟨r, x, tickets, rfl,
              ⟨hlook, hruntime, hrevision ▸ hcurrent, hattach, hx, hselected⟩,
              hrewrites, rfl⟩

theorem Shell.Rewrites.step {c : Call} {f : AttachTicket → AttachTicket}
    (h : db.Rewrites x f tickets)
    (hchange : TicketChange t c x (f x)) : TicketsStep t db c tickets := by
  refine .inl (h.imp fun y z hyz => ?_)
  obtain ⟨-, rfl⟩ := hyz
  split
  next hy =>
    subst hy
    exact .inr hchange
  next => exact .inl rfl

/-! ## The switch -/

theorem updateControl_eq_ok {s : ControlState} (h : db.updateControl s = .ok db') :
    ∃ checked, db' = { db with control := { toControlState := s, checked := checked } } := by
  unfold Shell.updateControl at h
  split at h
  next hchecked =>
    cases h
    exact ⟨hchecked, rfl⟩
  next => cases h

theorem appendControl_eq_ok {e : ControlEvent} (h : db.appendControl e = .ok db') :
    ∃ events, db' = { db with controlEvents := events } := by
  simp only [Shell.appendControl, bind_eq_ok, pure_eq_ok] at h
  obtain ⟨_, -, rfl⟩ := h
  exact ⟨_, rfl⟩

/-- Two control rows that differ in `drain_completed_at` only. -/
def ControlState.Kept (s s' : ControlState) : Prop :=
  ∃ drained, s' = { s with drainCompletedAt := drained }

theorem ControlState.Kept.refl (s : ControlState) : s.Kept s := ⟨s.drainCompletedAt, rfl⟩

theorem noteDrained_eq_ok (h : db.noteDrained t = .ok db') :
    ∃ control events, db.control.Kept control.toControlState ∧
      db' = { db with control := control, controlEvents := events } := by
  unfold Shell.noteDrained at h
  split at h
  next =>
    simp only [bind_eq_ok] at h
    obtain ⟨db₁, hupdate, happend⟩ := h
    obtain ⟨checked, rfl⟩ := updateControl_eq_ok hupdate
    obtain ⟨events, rfl⟩ := appendControl_eq_ok happend
    exact ⟨_, events, ⟨some t.start, rfl⟩, rfl⟩
  next =>
    cases h
    exact ⟨db.control, db.controlEvents, .refl _, rfl⟩

theorem getFeature_eq_ok {out : Nat × Nat} (h : getShellFeatureState t db = .ok (db', out)) :
    ∃ control events, db.control.Kept control.toControlState ∧
      db' = { db with control := control, controlEvents := events } := by
  simp only [getShellFeatureState, bind_eq_ok, pure_eq_ok] at h
  obtain ⟨db₁, hdrain, heq⟩ := h
  cases heq
  split at hdrain
  next => exact noteDrained_eq_ok hdrain
  next =>
    cases hdrain
    exact ⟨db.control, db.controlEvents, .refl _, rfl⟩

/-- A change of the switch to `enabled` that `apply_shell_feature_state` commits. -/
structure Applied (t : Clock) (db : Shell) (enabled : Bool) (db' : Shell) : Prop where
  site : db'.site = db.site
  migration : db'.migration = db.migration
  switch : db'.control.enabled = enabled
  actorActiveLimit : db'.control.actorActiveLimit = db.control.actorActiveLimit
  globalActiveLimit : db'.control.globalActiveLimit = db.control.globalActiveLimit
  sessions : enabled = true ∧ db'.sessions = db.sessions ∨
    enabled = false ∧ (db'.sessions = db.sessions ∧ db.control.enabled = false ∨
      db.sessions.updateWhere ShellSession.ends (ShellSession.disabled t.start) = .ok db'.sessions)
  tickets : db'.tickets = db.tickets ∨
    db.Expires t.start (fun x => x.consumedAt.isNone) db'.tickets

theorem disableAll_eq_ok (h : db.disableAll t = .ok db') :
    ∃ sessions tickets events,
      db.sessions.updateWhere ShellSession.ends (ShellSession.disabled t.start) = .ok sessions ∧
      db.Expires t.start (fun x => x.consumedAt.isNone) tickets ∧
      db' = { db with sessions := sessions, tickets := tickets, events := events } := by
  simp only [Shell.disableAll, bind_eq_ok, pure_eq_ok] at h
  obtain ⟨db₁, hupdate, db₂, hexpire, rfl⟩ := h
  obtain ⟨-, sessions, hsessions, rfl⟩ := updateSessions_eq_ok.mp hupdate
  obtain ⟨tickets, htickets, rfl⟩ := expireTickets_eq_ok.mp hexpire
  exact ⟨sessions, tickets, _, hsessions, htickets, rfl⟩

theorem apply_eq_ok {p : ApplyArgs} (h : applyShellFeatureState t p db = .ok db') :
    ∃ enabled, p.enabled = some enabled ∧ Applied t db enabled db' := by
  simp only [applyShellFeatureState, bind_eq_ok, raiseIf_eq_ok] at h
  obtain ⟨_, -, _, -, h⟩ := h
  split at h
  next hsame =>
    cases h
    simp only [sameOperation, Cond.all_eq_true] at hsame
    have henabled := hsame _ (List.mem_cons_self ..)
    simp only [eq_eq_true, Option.some.injEq, exists_eq_left'] at henabled
    refine ⟨db.control.enabled, henabled, rfl, rfl, rfl, rfl, rfl, ?_, .inl rfl⟩
    cases hb : db.control.enabled
    · exact .inr ⟨rfl, .inl ⟨rfl, rfl⟩⟩
    · exact .inl ⟨rfl, rfl⟩
  next =>
    simp only [bind_eq_ok, notNull_eq_ok] at h
    obtain ⟨enabled, henabled, reason, -, identity, -, evidence, -, _, -, db₁, hupdate, db₂, hend,
      happend⟩ := h
    obtain ⟨checked, rfl⟩ := updateControl_eq_ok hupdate
    obtain ⟨events, rfl⟩ := appendControl_eq_ok happend
    refine ⟨enabled, henabled, ?_⟩
    cases enabled with
    | true =>
        cases hend
        exact ⟨rfl, rfl, rfl, rfl, rfl, .inl ⟨rfl, rfl⟩, .inl rfl⟩
    | false =>
        obtain ⟨sessions, tickets, _, hsessions, htickets, rfl⟩ := disableAll_eq_ok hend
        exact ⟨rfl, rfl, rfl, rfl, rfl, .inr ⟨rfl, .inr hsessions⟩, .inr htickets⟩

/-- The control row after one of the three functions that throw the switch. -/
structure Operated (t : Clock) (db : Shell) (enabled : Bool) (kind : Option OperationKind)
    (phase : Option OperationPhase) (db' : Shell) : Prop extends Applied t db enabled db' where
  operationKind : db'.control.operationKind = kind
  operationPhase : db'.control.operationPhase = phase

theorem setOperation_eq_ok {enabled : Bool} {db₁ : Shell} {id : Option Uuid}
    {kind : Option OperationKind} {phase : Option OperationPhase} {identity : Option String}
    {startedAt completedAt : Option Timestamp} (happly : Applied t db enabled db₁)
    (h : db₁.setOperation id kind phase identity startedAt completedAt = .ok db') :
    Operated t db enabled kind phase db' := by
  obtain ⟨checked, rfl⟩ := updateControl_eq_ok h
  exact {
    site := happly.site
    migration := happly.migration
    switch := happly.switch
    actorActiveLimit := happly.actorActiveLimit
    globalActiveLimit := happly.globalActiveLimit
    sessions := happly.sessions
    tickets := happly.tickets
    operationKind := rfl
    operationPhase := rfl }

theorem setFeature_eq_ok {enabled : Option Bool} {expectedRevision : Option Int}
    {reason : Option String} {actorId : Option Uuid}
    (h : setShellFeatureState t enabled expectedRevision reason actorId db = .ok db') :
    Operated t db false none none db' := by
  simp only [setShellFeatureState, bind_eq_ok] at h
  obtain ⟨_, -, _, -, _, -, db₁, happly, hoperation⟩ := h
  obtain ⟨e, he, happlied⟩ := apply_eq_ok happly
  cases he
  exact setOperation_eq_ok happlied hoperation

theorem localEdge_eq_ok {p : LocalEdgeArgs} (h : setShellFeatureStateLocalEdge t p db = .ok db') :
    db' = db ∨ Operated t db true (some .enable) (some .completed) db' ∨
      Operated t db false (some .disable) (some .draining) db' := by
  simp only [setShellFeatureStateLocalEdge, bind_eq_ok] at h
  obtain ⟨_, -, _, -, _, -, h⟩ := h
  split at h
  next =>
    simp only [bind_eq_ok, pure_eq_ok] at h
    obtain ⟨_, -, rfl⟩ := h
    exact .inl rfl
  next =>
    split at h
    next =>
      simp only [bind_eq_ok, pure_eq_ok] at h
      obtain ⟨_, -, rfl⟩ := h
      exact .inl rfl
    next =>
      simp only [bind_eq_ok] at h
      obtain ⟨_, -, db₁, happly, hoperation⟩ := h
      obtain ⟨e, he, happlied⟩ := apply_eq_ok happly
      have hp : p.enabled = some e := he
      cases e with
      | true =>
          simp only [hp, kindOf, if_true] at hoperation
          exact .inr (.inl (setOperation_eq_ok happlied hoperation))
      | false =>
          simp only [hp, kindOf, Option.some.injEq, Bool.false_eq_true, if_false] at hoperation
          exact .inr (.inr (setOperation_eq_ok happlied hoperation))

theorem activate_eq_ok {expectedRevision : Option Int} {evidence : Option Jsonb}
    {operationId : Uuid}
    (h : activateNativeRuntimeFromSetup t expectedRevision evidence operationId db = .ok db') :
    db' = db ∨ Operated t db true (some .enable) (some .completed) db' := by
  simp only [activateNativeRuntimeFromSetup, bind_eq_ok] at h
  obtain ⟨_, -, h⟩ := h
  split at h
  next =>
    cases h
    exact .inl rfl
  next =>
    simp only [bind_eq_ok] at h
    obtain ⟨_, -, db₁, happly, hoperation⟩ := h
    obtain ⟨e, he, happlied⟩ := apply_eq_ok happly
    cases he
    exact .inr (setOperation_eq_ok happlied hoperation)

/-! ## The scale-down -/

structure Claimed (t : Clock) (db : Shell) (p : ScaleDownArgs) (control : Control) : Prop where
  lost : ∀ c ∈ scaleDownLost db.control.toControlState p, c ≠ some true
  phase : notIn db.control.operationPhase [.draining, .scaleDownClaimed] ≠ some true
  drained : db.liveSessions = 0
  free : Cond.all [eq db.control.operationPhase (some .scaleDownClaimed),
    ne db.control.scaleClaimToken p.scaleClaimToken,
    lt (some t.start) db.control.scaleClaimExpiresAt] ≠ some true
  token : p.scaleClaimToken ≠ none
  row : ∃ drained expiresAt, control.toControlState = { db.control.toControlState with
    drainCompletedAt := drained
    operationPhase := some .scaleDownClaimed
    scaleClaimToken := p.scaleClaimToken
    scaleClaimExpiresAt := expiresAt
    operationCompletedAt := none }

theorem scaleDown_eq_ok {p : ScaleDownArgs} {leaseSeconds : Option Int}
    (h : claimShellFeatureScaleDown t p leaseSeconds db = .ok db') :
    ∃ control events, Claimed t db p control ∧
      db' = { db with control := control, controlEvents := events } := by
  simp only [claimShellFeatureScaleDown, bind_eq_ok, raiseIf_eq_ok] at h
  obtain ⟨_, hargs, _, hlost, _, hdrained, db₁, hnote, _, hfree, db₂, hupdate, h⟩ := h
  obtain ⟨⟨s, _⟩, events, ⟨drained, hkept⟩, rfl⟩ := noteDrained_eq_ok hnote
  obtain rfl : s = _ := hkept
  obtain ⟨checked, rfl⟩ := updateControl_eq_ok hupdate
  have htoken : p.scaleClaimToken ≠ none := isNull_passed
    (any_ne_true hargs _ (List.mem_cons_of_mem _ (List.mem_cons_self ..)))
  have hpassed := any_ne_true hlost
  have hlive : db.liveSessions = 0 := by
    have := decided_passed hdrained
    simp only [decide_eq_false_iff_not, not_or, not_not] at this
    exact this.1
  have hclaimed : Claimed t db p { toControlState := _, checked := checked } :=
    { lost := fun c hc => hpassed c (List.mem_append_left _ hc)
      phase := hpassed _ (List.mem_append_right _ (List.mem_cons_self ..))
      drained := hlive
      free := hfree
      token := htoken
      row := ⟨drained, _, rfl⟩ }
  split at h
  next =>
    obtain ⟨more, rfl⟩ := appendControl_eq_ok h
    exact ⟨_, more, hclaimed, rfl⟩
  next =>
    cases h
    exact ⟨_, events, hclaimed, rfl⟩

theorem complete_eq_ok {p : ScaleDownArgs} (h : completeShellFeatureScaleDown t p db = .ok db') :
    ∃ control events,
      (∀ c ∈ scaleDownLost db.control.toControlState p ++
        [ne db.control.operationPhase (some .scaleDownClaimed),
          ne db.control.scaleClaimToken p.scaleClaimToken,
          le db.control.scaleClaimExpiresAt (some t.start)], c ≠ some true) ∧
      control.toControlState = { db.control.toControlState with
        operationPhase := some .completed
        operationCompletedAt := some t.start
        scaleClaimToken := none
        scaleClaimExpiresAt := none } ∧
      db' = { db with control := control, controlEvents := events } := by
  simp only [completeShellFeatureScaleDown, bind_eq_ok, raiseIf_eq_ok] at h
  obtain ⟨_, hpassed, db₁, hupdate, happend⟩ := h
  obtain ⟨checked, rfl⟩ := updateControl_eq_ok hupdate
  obtain ⟨events, rfl⟩ := appendControl_eq_ok happend
  exact ⟨_, events, any_ne_true hpassed, rfl, rfl⟩

/-! ## All calls -/

inductive ControlChange (t : Clock) (db : Shell) : Call → Shell → Prop
  | kept {c : Call} {db' : Shell} (h : db.control.Kept db'.control.toControlState) :
      ControlChange t db c db'
  | on {c : Call} {db' : Shell} (h : Operated t db true (some .enable) (some .completed) db') :
      ControlChange t db c db'
  | off {c : Call} {db' : Shell} (h : Operated t db false none none db') :
      ControlChange t db c db'
  | draining {c : Call} {db' : Shell}
      (h : Operated t db false (some .disable) (some .draining) db') : ControlChange t db c db'
  | claimed {p : ScaleDownArgs} {leaseSeconds : Option Int} {db' : Shell}
      (h : Claimed t db p db'.control) :
      ControlChange t db (.claimShellFeatureScaleDown p leaseSeconds) db'
  | completed {p : ScaleDownArgs} {db' : Shell}
      (passed : ∀ c ∈ scaleDownLost db.control.toControlState p ++
        [ne db.control.operationPhase (some .scaleDownClaimed),
          ne db.control.scaleClaimToken p.scaleClaimToken,
          le db.control.scaleClaimExpiresAt (some t.start)], c ≠ some true)
      (row : db'.control.toControlState = { db.control.toControlState with
        operationPhase := some .completed
        operationCompletedAt := some t.start
        scaleClaimToken := none
        scaleClaimExpiresAt := none }) :
      ControlChange t db (.completeShellFeatureScaleDown p) db'

structure CallStep (C : ShellCrypto) (t : Clock) (db : Shell) (c : Call) (db' : Shell) : Prop where
  site : db'.site = db.site
  sessions : SessionsStep C t db c db'.sessions
  tickets : TicketsStep t db c db'.tickets
  control : ControlChange t db c db'

section Calls

variable {c : Call}

theorem CallStep.refl : CallStep C t db c db := ⟨rfl, .refl, .refl, .kept (.refl _)⟩

theorem sessionsStep_of_update {p : ShellSession → Bool} {f : ShellSession → ShellSession}
    {sessions : Table shellSessionSchema} (h : db.sessions.updateWhere p f = .ok sessions)
    (hchange : ∀ r, p r = true → Change C t db c r (f r)) : SessionsStep C t db c sessions := by
  refine .inl ((Table.updateWhere_forall₂ h).imp fun x y hxy => ?_)
  obtain ⟨-, rfl⟩ := hxy
  split
  next hp => exact .inr (hchange x hp)
  next => exact .inl rfl

theorem Applied.step {enabled : Bool} (h : Applied t db enabled db')
    (hswitch : enabled = false → c.switches) (hcontrol : ControlChange t db c db') :
    CallStep C t db c db' where
  site := h.site
  sessions := by
    rcases h.sessions with ⟨-, hsame⟩ | ⟨hoff, ⟨hsame, -⟩ | hupdate⟩
    · rw [hsame]
      exact .refl
    · rw [hsame]
      exact .refl
    · exact sessionsStep_of_update hupdate fun r hr => .disabled (hswitch hoff) hr
  tickets := by
    rcases h.tickets with hsame | hexpires
    · rw [hsame]
      exact .refl
    · exact hexpires.step
  control := hcontrol

theorem call_step (h : c.exec C t db = .ok db') : CallStep C t db c db' := by
  cases c with
  | createShellSession p =>
      obtain ⟨r, hr⟩ := fst_map_eq_ok.mp h
      rcases create_eq_ok hr with rfl | ⟨sessions, events, hcreated, hinsert, rfl⟩
      · exact .refl
      · exact ⟨rfl, .inr ⟨p, r, rfl, hcreated, hinsert⟩, .refl, .kept (.refl _)⟩
  | requestShellSessionTeardown p =>
      obtain ⟨out, hout⟩ := fst_map_eq_ok.mp h
      rcases teardown_eq_ok hout with
        rfl | ⟨r, revision, sessions, tickets, events, hchange, hreplaces, hexpires, rfl⟩
      · exact .refl
      · exact ⟨rfl, hreplaces.step hchange, hexpires.step, .kept (.refl _)⟩
  | claimShellSessions worker limit locked =>
      obtain ⟨rows, hrows⟩ := fst_map_eq_ok.mp h
      obtain ⟨sessions, events, hupdate, -, rfl⟩ := claim_eq_ok hrows
      exact ⟨rfl, sessionsStep_of_update hupdate fun r hr => .claimed (of_decide_eq_true hr),
        .refl, .kept (.refl _)⟩
  | heartbeatShellSession f actorId revision =>
      obtain ⟨b, hb⟩ := fst_map_eq_ok.mp h
      obtain ⟨sessions, hupdate, rfl⟩ := heartbeat_eq_ok hb
      exact ⟨rfl, sessionsStep_of_update hupdate fun r hr => .renewed hr, .refl, .kept (.refl _)⟩
  | reprojectShellRuntime p =>
      obtain ⟨r', hr'⟩ := fst_map_eq_ok.mp h
      obtain ⟨r, sessions, tickets, events, -, -, hchange, hreplaces, hexpires, rfl⟩ :=
        reproject_eq_ok (C := C) hr'
      exact ⟨rfl, hreplaces.step hchange, hexpires.step, .kept (.refl _)⟩
  | registerShellRuntime p =>
      obtain ⟨r', hr'⟩ := fst_map_eq_ok.mp h
      rcases register_eq_ok hr' with
        rfl | ⟨r, sessions, events, -, -, hchange, hreplaces, rfl⟩
      · exact .refl
      · exact ⟨rfl, hreplaces.step hchange, .refl, .kept (.refl _)⟩
  | revokeShellSessionAuthority f reasonCode =>
      obtain ⟨r', hr'⟩ := fst_map_eq_ok.mp h
      obtain ⟨r, revision, sessions, tickets, events, -, -, hchange, hreplaces, hexpires, rfl⟩ :=
        revoke_eq_ok hr'
      exact ⟨rfl, hreplaces.step hchange, hexpires.step, .kept (.refl _)⟩
  | transitionShellSession p =>
      obtain ⟨r', hr'⟩ := fst_map_eq_ok.mp h
      obtain ⟨r, revision, next, sessions, events, -, -, hchange, hreplaces, rfl⟩ :=
        transition_eq_ok hr'
      exact ⟨rfl, hreplaces.step hchange, .refl, .kept (.refl _)⟩
  | touchShellSessionActivity b =>
      obtain ⟨out, hout⟩ := fst_map_eq_ok.mp h
      rcases touch_eq_ok hout with rfl | ⟨r, browser, sessions, -, hchange, hreplaces, rfl⟩
      · exact .refl
      · exact ⟨rfl, hreplaces.step hchange, .refl, .kept (.refl _)⟩
  | issueShellAttachTicket p =>
      obtain ⟨x, hx⟩ := fst_map_eq_ok.mp h
      obtain ⟨r, tickets, events, hissued, hinsert, rfl⟩ := issue_eq_ok hx
      exact ⟨rfl, .refl, .inr ⟨p, r, x, rfl, hissued, hinsert⟩, .kept (.refl _)⟩
  | consumeShellAttachTicket p =>
      obtain ⟨out, hout⟩ := fst_map_eq_ok.mp h
      rcases consume_eq_ok hout with
        ⟨-, rfl⟩ | ⟨r, x, sessions, tickets, events, -, hconsumed, hreplaces, hrewrites, rfl⟩
      · exact .refl
      · exact ⟨rfl, hreplaces.step (.attached (lookup_mem hconsumed.session).2),
          hrewrites.step (.consumed hconsumed.selected), .kept (.refl _)⟩
  | authorizeShellRuntimeAttach ticketHash p =>
      obtain ⟨out, hout⟩ := fst_map_eq_ok.mp h
      rcases authorize_eq_ok hout with ⟨-, rfl⟩ | ⟨r, x, tickets, -, hauthorized, hrewrites, rfl⟩
      · exact .refl
      · exact ⟨rfl, .refl, hrewrites.step (.authorized hauthorized.selected), .kept (.refl _)⟩
  | getShellFeatureState =>
      obtain ⟨out, hout⟩ := fst_map_eq_ok.mp h
      obtain ⟨control, events, hkept, rfl⟩ := getFeature_eq_ok hout
      exact ⟨rfl, .refl, .refl, .kept hkept⟩
  | setShellFeatureState enabled expectedRevision reason actorId =>
      have hoff := setFeature_eq_ok h
      exact hoff.toApplied.step (fun _ => trivial) (.off hoff)
  | setShellFeatureStateLocalEdge p =>
      rcases localEdge_eq_ok h with rfl | hon | hoff
      · exact .refl
      · exact hon.toApplied.step (fun _ => trivial) (.on hon)
      · exact hoff.toApplied.step (fun _ => trivial) (.draining hoff)
  | claimShellFeatureScaleDown p leaseSeconds =>
      obtain ⟨control, events, hclaimed, rfl⟩ := scaleDown_eq_ok h
      exact ⟨rfl, .refl, .refl, .claimed hclaimed⟩
  | completeShellFeatureScaleDown p =>
      obtain ⟨control, events, hpassed, hrow, rfl⟩ := complete_eq_ok h
      exact ⟨rfl, .refl, .refl, .completed hpassed hrow⟩
  | activateNativeRuntimeFromSetup expectedRevision evidence operationId =>
      rcases activate_eq_ok h with rfl | hon
      · exact .refl
      · exact hon.toApplied.step (fun hoff => by cases hoff) (.on hon)

end Calls

end ConsoleShell
