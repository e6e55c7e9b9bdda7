import OpenSphere.Properties.Teardown

/-!
# Attach authorisation

A ticket is consumed once, authorised once and only after that, for the session
it was issued for.  The authorisation of a runtime and the revalidation that
follows it every two seconds check the same session by two predicates: the first
neither looks at the expiries of the session nor at the browser session, and
takes a NULL for a match.  They agree exactly where what the first leaves out
holds.
-/

open Sql
open System (Happens Taken)

namespace ConsoleShell

variable {C : ShellCrypto} {t : Clock} {db db' start : Shell} {c : Call} {r r' : ShellSession}
  {x y : AttachTicket} {as : List Action}
variable {ticketHash : Option String} {p : RuntimeArgs} {now : Timestamp} {m n : Nat} {k : String}
  {a : Action}

/-! ## One ticket -/

structure TicketLater (x y : AttachTicket) : Prop where
  ticketHash : y.ticketHash = x.ticketHash
  sessionId : y.sessionId = x.sessionId
  actorId : y.actorId = x.actorId
  origin : y.origin = x.origin
  generation : y.generation = x.generation
  fencingEpoch : y.fencingEpoch = x.fencingEpoch
  consumed : x.consumedAt ≠ none → y.consumedAt ≠ none
  authorized : x.runtimeAuthorizedAt ≠ none → y.runtimeAuthorizedAt ≠ none

theorem TicketLater.refl (x : AttachTicket) : TicketLater x x :=
  ⟨rfl, rfl, rfl, rfl, rfl, rfl, id, id⟩

theorem TicketLater.trans {z : AttachTicket} (h : TicketLater x y) (h' : TicketLater y z) :
    TicketLater x z where
  ticketHash := h'.ticketHash.trans h.ticketHash
  sessionId := h'.sessionId.trans h.sessionId
  actorId := h'.actorId.trans h.actorId
  origin := h'.origin.trans h.origin
  generation := h'.generation.trans h.generation
  fencingEpoch := h'.fencingEpoch.trans h.fencingEpoch
  consumed hx := h'.consumed (h.consumed hx)
  authorized hx := h'.authorized (h.authorized hx)

theorem TicketChange.later (h : TicketChange t c x y) : TicketLater x y := by
  cases h with
  | consumed => exact ⟨rfl, rfl, rfl, rfl, rfl, rfl, fun _ => Option.some_ne_none _, id⟩
  | authorized => exact ⟨rfl, rfl, rfl, rfl, rfl, rfl, id, fun _ => Option.some_ne_none _⟩
  | expired => exact ⟨rfl, rfl, rfl, rfl, rfl, rfl, id, id⟩

theorem TicketsStep.lookup {tickets : Table attachTicketSchema} (h : TicketsStep t db c tickets)
    (hx : db.tickets.lookup (some k) = some x) :
    ∃ y, tickets.lookup (some k) = some y ∧ TicketLater x y := by
  rcases h with h | ⟨p, r, z, rfl, -, hinsert⟩
  · have hkey : ∀ x y : AttachTicket, (y = x ∨ TicketChange t c x y) →
        attachTicketSchema.key y = attachTicketSchema.key x := by
      rintro x y (rfl | hchange)
      · rfl
      · exact hchange.later.ticketHash
    have hrel := Table.lookup_forall₂ h hkey k
    rw [hx] at hrel
    cases hy : tickets.lookup (some k) with
    | none =>
        rw [hy] at hrel
        cases hrel
    | some y =>
        rw [hy] at hrel
        cases hrel with
        | some hxy =>
            rcases hxy with rfl | hchange
            · exact ⟨_, rfl, .refl _⟩
            · exact ⟨_, rfl, hchange.later⟩
  · refine ⟨x, ?_, .refl x⟩
    obtain ⟨hmem, hkey⟩ := Table.lookup_eq_some.mp hx
    refine Table.lookup_eq_some.mpr ⟨?_, hkey⟩
    rw [Table.insert_rows hinsert]
    exact List.mem_append_left _ hmem

theorem run_ticket (C : ShellCrypto) (as : List Action) (db : Shell)
    (hx : db.tickets.lookup (some k) = some x) :
    ∃ y, (System.run (perform C) as db).tickets.lookup (some k) = some y ∧ TicketLater x y := by
  induction as generalizing db x with
  | nil => exact ⟨x, hx, .refl x⟩
  | cons a as ih =>
      rcases perform_step C a db with ⟨-, hsame, -⟩ | ⟨t, c, rfl, -, hstep⟩
      · exact ih (perform C a db) (by rw [hsame, hx])
      · obtain ⟨y, hy, hlater⟩ := hstep.tickets.lookup hx
        obtain ⟨z, hz, hlater'⟩ := ih _ hy
        exact ⟨z, hz, hlater.trans hlater'⟩

/-! ## Places of a run -/

/-- A ticket is issued for the session with the row `r`. -/
def Issues (C : ShellCrypto) (x : AttachTicket) (r : ShellSession) (a : Action) (db : Shell) :
    Prop :=
  ∃ t p db', a = .call t (.issueShellAttachTicket p) ∧
    issueShellAttachTicket C t p db = .ok (db', x) ∧
    db.sessions.lookup p.binding.sessionId = some r

/-- A ticket is consumed, and the session `r` returned. -/
def Consumes (C : ShellCrypto) (k : String) (r : ShellSession) (a : Action) (db : Shell) : Prop :=
  ∃ t p db', a = .call t (.consumeShellAttachTicket p) ∧ p.ticketHash = some k ∧
    consumeShellAttachTicket C t p db = .ok (db', some r)

/-- A runtime is authorised with a ticket, and the session `r` returned. -/
def Authorizes (C : ShellCrypto) (k : String) (r : ShellSession) (a : Action) (db : Shell) :
    Prop :=
  ∃ t p db', a = .call t (.authorizeShellRuntimeAttach (some k) p) ∧
    authorizeShellRuntimeAttach C t (some k) p db = .ok (db', some r)

structure TicketFor (x : AttachTicket) (r : ShellSession) : Prop where
  sessionId : x.sessionId = r.sessionId
  actorId : x.actorId = r.actorId
  origin : x.origin = r.origin
  generation : x.generation = r.generation
  fencingEpoch : x.fencingEpoch = r.fencingEpoch

theorem newTicket_row {p : IssueArgs} (h : newTicket now p = .ok x) :
    p.ticketHash = some x.ticketHash ∧ p.binding.sessionId = some x.sessionId ∧
      p.binding.actorId = some x.actorId ∧ p.binding.origin = some x.origin ∧
      p.binding.generation = some x.generation ∧ p.binding.fencingEpoch = some x.fencingEpoch ∧
      x.consumedAt = none ∧ x.runtimeAuthorizedAt = none := by
  simp only [newTicket, bind_eq_ok, notNull_eq_ok, orRaise_eq_ok, pure_eq_ok] at h
  obtain ⟨_, hhash, _, hsession, _, -, _, hactor, _, horigin, _, hgeneration, _, hepoch, _, -, _, -,
    _, -, _, -, rfl⟩ := h
  exact ⟨hhash, hsession, hactor, horigin, hgeneration, hepoch, rfl, rfl⟩

theorem ticketFor_of_binding {b : Binding} {rest : List Cond}
    (hadmitted : Cond.any (bindingChanged r b ++ rest) ≠ some true)
    (hsession : some r.sessionId = some x.sessionId) (hactor : b.actorId = some x.actorId)
    (horigin : b.origin = some x.origin) (hgeneration : b.generation = some x.generation)
    (hepoch : b.fencingEpoch = some x.fencingEpoch) : TicketFor x r := by
  have hpassed := any_ne_true hadmitted
  exact {
    sessionId := Option.some.inj hsession.symm
    actorId := (ne_passed (hpassed _ (by simp [bindingChanged])) rfl hactor).symm
    origin := (ne_passed (hpassed _ (by simp [bindingChanged])) rfl horigin).symm
    generation := (ne_passed (hpassed _ (by simp [bindingChanged])) rfl hgeneration).symm
    fencingEpoch := (ne_passed (hpassed _ (by simp [bindingChanged])) rfl hepoch).symm }

theorem Issued.for {p : IssueArgs} (h : Issued t db p r x) : TicketFor x r := by
  obtain ⟨-, hsession, hactor, horigin, hgeneration, hepoch, -, -⟩ := newTicket_row h.row
  exact ticketFor_of_binding h.admitted ((lookup_mem h.session).2.symm.trans hsession) hactor horigin
    hgeneration hepoch

theorem consumeSelects_row {p : ConsumeArgs}
    (h : consumeSelects now p x = true) :
    p.binding.sessionId = some x.sessionId ∧ p.binding.actorId = some x.actorId ∧
      p.binding.origin = some x.origin ∧ p.binding.generation = some x.generation ∧
      p.binding.fencingEpoch = some x.fencingEpoch ∧ x.consumedAt = none := by
  simp only [consumeSelects, beq_iff_eq, Cond.all_eq_true, List.mem_cons, List.not_mem_nil, or_false,
    forall_eq_or_imp, forall_eq, eq_eq_true, isNull_eq_true, Option.some.injEq,
    exists_eq_left'] at h
  obtain ⟨-, hsession, -, hactor, horigin, hgeneration, hepoch, -, -, hconsumed, -⟩ := h
  exact ⟨hsession, hactor, horigin, hgeneration, hepoch, hconsumed⟩

theorem authorizeSelects_row
    (h : authorizeSelects now ticketHash p x = true) :
    p.sessionId = some x.sessionId ∧ p.generation = some x.generation ∧
      p.fencingEpoch = some x.fencingEpoch ∧ x.consumedAt ≠ none ∧
      x.runtimeAuthorizedAt = none := by
  simp only [authorizeSelects, beq_iff_eq, Cond.all_eq_true, List.mem_cons, List.not_mem_nil,
    or_false, forall_eq_or_imp, forall_eq, eq_eq_true, isNull_eq_true, isNotNull_eq_true,
    Option.some.injEq, exists_eq_left'] at h
  obtain ⟨-, hsession, hgeneration, hepoch, hconsumed, hauthorized, -⟩ := h
  exact ⟨hsession, hgeneration, hepoch, hconsumed, hauthorized⟩

theorem Consumed.for {p : ConsumeArgs} (h : Consumed C t db p r x) : TicketFor x r := by
  obtain ⟨hsession, hactor, horigin, hgeneration, hepoch, -⟩ := consumeSelects_row h.selected
  exact ticketFor_of_binding h.admitted ((lookup_mem h.session).2.symm.trans hsession) hactor horigin
    hgeneration hepoch

/-! ## The history of a ticket -/

/-- Where a ticket comes from: it was there, and was consumed before or is consumed now, or
it is issued. -/
theorem ticket_origin (hexec : c.exec C t db = .ok db') (hy : y ∈ db'.tickets.rows) :
    (∃ x ∈ db.tickets.rows, TicketLater x y ∧ (y.consumedAt ≠ none →
      x.consumedAt ≠ none ∨ ∃ r, Consumes C y.ticketHash r (.call t c) db)) ∨
    ∃ r, Issues C y r (.call t c) db ∧ TicketFor y r ∧ y.consumedAt = none := by
  have hold : y ∈ db.tickets.rows → ∃ x ∈ db.tickets.rows, TicketLater x y ∧
      (y.consumedAt ≠ none → x.consumedAt ≠ none ∨ ∃ r, Consumes C y.ticketHash r (.call t c) db) :=
    fun hmem => ⟨y, hmem, .refl y, .inl⟩
  rcases (call_step hexec).tickets with hchanges | ⟨p, r, x, rfl, hissued, hinsert⟩
  · obtain ⟨x, hx, rfl | hchange⟩ := exists_of_forall₂ hchanges hy
    · exact .inl (hold hx)
    · have hlater := hchange.later
      cases hchange with
      | @consumed p x selected =>
          obtain ⟨out, hcall⟩ := fst_map_eq_ok.mp hexec
          have hhash : p.ticketHash = some x.ticketHash := consumeSelects_hash selected
          rcases consume_eq_ok hcall with ⟨-, hsame⟩ | ⟨r, _, _, _, _, hout, -⟩
          · exact .inl (hold (hsame ▸ hy))
          · rw [hout] at hcall
            exact .inl ⟨x, hx, hlater, fun _ => .inr ⟨r, t, p, db', rfl, hhash, hcall⟩⟩
      | authorized | expired => exact .inl ⟨x, hx, hlater, .inl⟩
  · rw [Table.insert_rows hinsert, List.mem_append, List.mem_singleton] at hy
    rcases hy with hmem | rfl
    · exact .inl (hold hmem)
    · obtain ⟨z, hcall⟩ := fst_map_eq_ok.mp hexec
      obtain ⟨_, _, _, hissued', -⟩ := issue_eq_ok hcall
      obtain rfl : z = y := Except.ok.inj (hissued'.row.symm.trans hissued.row)
      exact .inr ⟨r, ⟨t, p, db', rfl, hcall, hissued.session⟩, hissued.for,
        (newTicket_row hissued.row).2.2.2.2.2.2.1⟩

theorem ticket_history (hstart : start.tickets.rows = []) (as : List Action)
    (hx : x ∈ (System.run (perform C) as start).tickets.rows) :
    ∃ n x₀ r₀, Happens (perform C) start as n (Issues C x₀ r₀) ∧ TicketFor x₀ r₀ ∧
      TicketLater x₀ x ∧ (x.consumedAt ≠ none →
        ∃ m r, n < m ∧ Happens (perform C) start as m (Consumes C x.ticketHash r)) := by
  -- the last action left the ticket alone, changed it, or issued it
  induction as using List.reverseRecOn generalizing x with
  | nil =>
      rw [System.run, hstart] at hx
      cases hx
  | append_singleton as a ih =>
      have hrun : System.run (perform C) (as ++ [a]) start =
          perform C a (System.run (perform C) as start) := System.run_append ..
      rw [hrun] at hx
      rcases perform_step C a (System.run (perform C) as start) with ⟨-, hsame, -⟩ |
        ⟨t, c, rfl, hexec, -⟩
      · rw [hsame] at hx
        obtain ⟨n, x₀, r₀, hissues, hfor, hlater, hconsumed⟩ := ih hx
        refine ⟨n, x₀, r₀, hissues.append _, hfor, hlater, fun hc => ?_⟩
        obtain ⟨m, r, hlt, hconsumes⟩ := hconsumed hc
        exact ⟨m, r, hlt, hconsumes.append _⟩
      · rcases ticket_origin hexec hx with ⟨z, hz, hzx, hnow⟩ | ⟨r, hissues, hfor, hnone⟩
        · obtain ⟨n, x₀, r₀, hissues, hfor, hlater, hconsumed⟩ := ih hz
          refine ⟨n, x₀, r₀, hissues.append _, hfor, hlater.trans hzx, fun hc => ?_⟩
          rcases hnow hc with hbefore | ⟨r, hconsumes⟩
          · obtain ⟨m, r, hlt, hconsumes⟩ := hconsumed hbefore
            refine ⟨m, r, hlt, ?_⟩
            rw [hzx.ticketHash]
            exact hconsumes.append _
          · obtain ⟨_, _, htaken, -⟩ := hissues
            have hlt : n < as.length := (List.getElem?_eq_some_iff.mp htaken.step).1
            exact ⟨as.length, r, hlt, .last hconsumes⟩
        · exact ⟨as.length, x, r, .last hissues, hfor, .refl x, fun hc => absurd hnone hc⟩

/-! ## Before and after a use -/

/-- The ticket found by its hash among rewritten ones. -/
theorem Shell.Rewrites.lookup {f : AttachTicket → AttachTicket} {tickets : Table attachTicketSchema}
    (h : db.Rewrites x f tickets) (hx : x ∈ db.tickets.rows) (hf : (f x).ticketHash = x.ticketHash) :
    tickets.lookup (some x.ticketHash) = some (f x) := by
  have hkey : ∀ y z : AttachTicket, (y ∈ db.tickets.rows ∧ z = if y = x then f y else y) →
      attachTicketSchema.key z = attachTicketSchema.key y := by
    rintro y _ ⟨-, rfl⟩
    split
    next hy =>
      subst hy
      exact hf
    next => rfl
  have hbefore : db.tickets.lookup (some x.ticketHash) = some x :=
    Table.lookup_eq_some.mpr ⟨hx, rfl⟩
  have hrel := Table.lookup_forall₂ h hkey x.ticketHash
  rw [hbefore] at hrel
  cases hy : tickets.lookup (some x.ticketHash) with
  | none =>
      rw [hy] at hrel
      cases hrel
  | some y =>
      rw [hy] at hrel
      cases hrel with
      | some hxy => rw [hxy.2, if_pos rfl]

theorem Consumes.before (h : Consumes C k r a db) :
    ∃ x, db.tickets.lookup (some k) = some x ∧ x.consumedAt = none ∧ TicketFor x r := by
  obtain ⟨t, p, db', rfl, hk, hcall⟩ := h
  rcases consume_eq_ok hcall with ⟨hout, -⟩ | ⟨r', x, _, _, _, hout, hconsumed, -⟩
  · cases hout
  · cases hout
    have hhash := consumeSelects_hash hconsumed.selected
    obtain rfl : k = x.ticketHash := Option.some.inj (hk.symm.trans hhash)
    exact ⟨x, Table.lookup_eq_some.mpr ⟨hconsumed.ticket, rfl⟩,
      (consumeSelects_row hconsumed.selected).2.2.2.2.2, hconsumed.for⟩

theorem Consumes.after (h : Consumes C k r a db) :
    ∃ y, (perform C a db).tickets.lookup (some k) = some y ∧ y.consumedAt ≠ none := by
  obtain ⟨t, p, db', rfl, hk, hcall⟩ := h
  have hperform : perform C (.call t (.consumeShellAttachTicket p)) db = db' :=
    perform_of_ok (fst_map_eq_ok.mpr ⟨_, hcall⟩)
  rcases consume_eq_ok hcall with ⟨hout, -⟩ | ⟨r', x, _, _, _, -, hconsumed, -, hrewrites, rfl⟩
  · cases hout
  · have hhash := consumeSelects_hash hconsumed.selected
    obtain rfl : k = x.ticketHash := Option.some.inj (hk.symm.trans hhash)
    rw [hperform]
    exact ⟨_, hrewrites.lookup hconsumed.ticket rfl, Option.some_ne_none _⟩

theorem Authorizes.before (h : Authorizes C k r a db) :
    ∃ x, db.tickets.lookup (some k) = some x ∧ x.runtimeAuthorizedAt = none ∧
      x.consumedAt ≠ none ∧ db.sessions.lookup (some x.sessionId) = some r ∧
      x.generation = r.generation ∧ x.fencingEpoch = r.fencingEpoch := by
  obtain ⟨t, p, db', rfl, hcall⟩ := h
  rcases authorize_eq_ok hcall with ⟨hout, -⟩ | ⟨r', x, _, hout, hauthorized, -⟩
  · cases hout
  · cases hout
    have hhash := authorizeSelects_hash hauthorized.selected
    obtain rfl : k = x.ticketHash := Option.some.inj hhash
    obtain ⟨hsession, hgeneration, hepoch, hconsumed, hnone⟩ :=
      authorizeSelects_row hauthorized.selected
    have hpassed := any_ne_true hauthorized.runtime
    refine ⟨x, Table.lookup_eq_some.mpr ⟨hauthorized.ticket, rfl⟩, hnone, hconsumed,
      hsession ▸ hauthorized.session, ?_, ?_⟩
    · exact (ne_passed (hpassed (ne (some r.generation) p.generation) (by simp)) rfl
        hgeneration).symm
    · exact (ne_passed (hpassed (ne (some r.fencingEpoch) p.fencingEpoch) (by simp)) rfl
        hepoch).symm

theorem Authorizes.after (h : Authorizes C k r a db) :
    ∃ y, (perform C a db).tickets.lookup (some k) = some y ∧ y.runtimeAuthorizedAt ≠ none := by
  obtain ⟨t, p, db', rfl, hcall⟩ := h
  have hperform : perform C (.call t (.authorizeShellRuntimeAttach (some k) p)) db = db' :=
    perform_of_ok (fst_map_eq_ok.mpr ⟨_, hcall⟩)
  rcases authorize_eq_ok hcall with ⟨hout, -⟩ | ⟨r', x, _, -, hauthorized, hrewrites, rfl⟩
  · cases hout
  · have hhash := authorizeSelects_hash hauthorized.selected
    obtain rfl : k = x.ticketHash := Option.some.inj hhash
    rw [hperform]
    exact ⟨_, hrewrites.lookup hauthorized.ticket rfl, Option.some_ne_none _⟩

/-- What was done to a ticket at a place is still done at a later one. -/
theorem ticket_between {b : Action} (hlt : n < m)
    (hn : Taken (perform C) start as n a db) (hm : Taken (perform C) start as m b db')
    (hy : (perform C a db).tickets.lookup (some k) = some y) :
    ∃ z, db'.tickets.lookup (some k) = some z ∧ TicketLater y z := by
  have hnext : System.run (perform C) (as.take (n + 1)) start = perform C a db := by
    rw [System.run_take_succ hn.step, hn.before]
  have hlater := run_ticket C ((as.take m).drop (n + 1)) (perform C a db) hy
  rw [← hnext, ← System.run_take_of_le (perform C) hlt, hm.before] at hlater
  exact hlater

theorem not_consumed_again (hlt : n < m)
    (hn : Happens (perform C) start as n (Consumes C k r))
    (hm : Happens (perform C) start as m (Consumes C k r')) : False := by
  obtain ⟨a, db, htaken, hconsumes⟩ := hn
  obtain ⟨b, db', htaken', hagain⟩ := hm
  obtain ⟨y, hy, hconsumed⟩ := hconsumes.after
  obtain ⟨x, hx, hnone, -⟩ := hagain.before
  obtain ⟨z, hz, hlater⟩ := ticket_between hlt htaken htaken' hy
  obtain rfl : z = x := Option.some.inj (hz.symm.trans hx)
  exact hlater.consumed hconsumed hnone

theorem not_authorized_again (hlt : n < m)
    (hn : Happens (perform C) start as n (Authorizes C k r))
    (hm : Happens (perform C) start as m (Authorizes C k r')) : False := by
  obtain ⟨a, db, htaken, hauthorizes⟩ := hn
  obtain ⟨b, db', htaken', hagain⟩ := hm
  obtain ⟨y, hy, hauthorized⟩ := hauthorizes.after
  obtain ⟨x, hx, hnone, -⟩ := hagain.before
  obtain ⟨z, hz, hlater⟩ := ticket_between hlt htaken htaken' hy
  obtain rfl : z = x := Option.some.inj (hz.symm.trans hx)
  exact hlater.authorized hauthorized hnone

theorem consumed_issued (hstart : start.tickets.rows = [])
    (h : Happens (perform C) start as n (Consumes C k r)) :
    ∃ m x r₀, m < n ∧ Happens (perform C) start as m (Issues C x r₀) ∧ x.ticketHash = k ∧
      TicketFor x r₀ ∧ TicketFor x r := by
  obtain ⟨a, db, htaken, hconsumes⟩ := h
  obtain ⟨y, hy, -, hfor⟩ := hconsumes.before
  obtain ⟨hmem, hk⟩ := Table.lookup_eq_some.mp hy
  rw [← htaken.before] at hmem
  obtain ⟨m, x, r₀, hissues, hissued, hlater, -⟩ := ticket_history hstart _ hmem
  have hkey : k = y.ticketHash := Option.some.inj hk
  exact ⟨m, x, r₀, hissues.of_take.1, hissues.of_take.2, by rw [hkey, hlater.ticketHash], hissued,
    ⟨hlater.sessionId ▸ hfor.sessionId, hlater.actorId ▸ hfor.actorId, hlater.origin ▸ hfor.origin,
      hlater.generation ▸ hfor.generation, hlater.fencingEpoch ▸ hfor.fencingEpoch⟩⟩

/-- No change gives a session another actor or another origin. -/
theorem Change.owner (h : Change C t db c r r') : r'.actorId = r.actorId ∧ r'.origin = r.origin := by
  cases h <;> exact ⟨rfl, rfl⟩

theorem session_between {b : Action} {k : Uuid} (hle : n ≤ m)
    (hn : Taken (perform C) start as n a db) (hm : Taken (perform C) start as m b db')
    (hr : db.sessions.lookup (some k) = some r) :
    ∃ r', db'.sessions.lookup (some k) = some r' ∧ r'.actorId = r.actorId ∧
      r'.origin = r.origin := by
  have hlater := run_session (C := C)
    (R := fun r r' => r'.actorId = r.actorId ∧ r'.origin = r.origin) (fun _ => ⟨rfl, rfl⟩)
    (fun h h' => ⟨h'.1.trans h.1, h'.2.trans h.2⟩) Change.owner ((as.take m).drop n) db k hr
  rw [← hn.before, ← System.run_take_of_le (perform C) hle, hm.before] at hlater
  exact hlater

/-- An authorisation is of a ticket that was issued for the session as it is, and consumed
in between. -/
theorem authorized_issued (hstart : start.tickets.rows = [])
    (h : Happens (perform C) start as n (Authorizes C k r)) :
    ∃ m l x r₀ r₁, m < l ∧ l < n ∧ Happens (perform C) start as m (Issues C x r₀) ∧
      Happens (perform C) start as l (Consumes C k r₁) ∧ x.ticketHash = k ∧ TicketFor x r₀ ∧
      TicketFor x r := by
  obtain ⟨a, db, htaken, hauthorizes⟩ := h
  obtain ⟨y, hy, -, hused, hsession, hgeneration, hepoch⟩ := hauthorizes.before
  obtain ⟨hmem, hk⟩ := Table.lookup_eq_some.mp hy
  rw [← htaken.before] at hmem
  obtain ⟨m, x, r₀, hissues, hissued, hlater, hconsumed⟩ := ticket_history hstart _ hmem
  obtain ⟨l, r₁, hml, hconsumes⟩ := hconsumed hused
  have hkey : k = y.ticketHash := Option.some.inj hk
  obtain ⟨hmn, hissues⟩ := hissues.of_take
  obtain ⟨hln, hconsumes⟩ := hconsumes.of_take
  -- the session has not changed hands since the ticket was issued
  have hsame : r.actorId = r₀.actorId ∧ r.origin = r₀.origin ∧ r.sessionId = x.sessionId := by
    obtain ⟨b, db₀, htaken₀, t, p, db₁, -, -, hr₀⟩ := hissues
    have hid : p.binding.sessionId = some x.sessionId := by
      rw [hissued.sessionId]
      exact (lookup_mem hr₀).2
    obtain ⟨r', hr', hactor, horigin⟩ :=
      session_between (Nat.le_of_lt hmn) htaken₀ htaken (hid ▸ hr₀)
    rw [hlater.sessionId] at hsession
    obtain rfl : r' = r := Option.some.inj (hr'.symm.trans hsession)
    exact ⟨hactor, horigin, (Option.some.inj (lookup_mem hsession).2).symm⟩
  refine ⟨m, l, x, r₀, r₁, hml, hln, hissues, hkey ▸ hconsumes, ?_, hissued, ?_⟩
  · rw [hkey, hlater.ticketHash]
  · exact {
      sessionId := hsame.2.2.symm
      actorId := hissued.actorId.trans hsame.1.symm
      origin := hissued.origin.trans hsame.2.1.symm
      generation := hlater.generation ▸ hgeneration
      fencingEpoch := hlater.fencingEpoch ▸ hepoch }

/-! ## The revalidation -/

def Shell.browserLive (db : Shell) (now : Timestamp) (r : ShellSession) : Prop :=
  ∃ b ∈ db.site.sessions.rows, ∃ o ∈ db.site.subjects.rows, b.sessionId = r.browserSessionId ∧
    o.subjectId = r.actorId ∧ Cond.all (browserCurrent now b o (some r.aal.text)) = some true

/-- What the authorisation leaves out: the credential and the runtime are there to be
compared, the session has not expired, and its browser session is current. -/
structure Revalidates (db : Shell) (now : Timestamp) (p : RuntimeArgs) (r : ShellSession) :
    Prop where
  credential : p.runtimeCredentialHash ≠ none ∧ r.runtimeCredentialHash ≠ none
  credentialExpires : r.runtimeCredentialExpiresAt ≠ none
  runtime : p.runtimeUid ≠ none ∧ r.runtimeUid ≠ none
  idle : now < r.idleExpiresAt
  absolute : now < r.absoluteExpiresAt
  browser : db.browserLive now r

/-- An authorised session is returned by the revalidation at the same instant if and only if
what the authorisation leaves out holds. -/
theorem authorized_revalidates
    (h : Authorized C t db ticketHash p r x) :
    r ∈ revalidateShellRuntime C t.start p db ↔ Revalidates db t.start p r := by
  obtain ⟨hmem, hid⟩ := lookup_mem h.session
  obtain ⟨-, hgeneration, hepoch, -, -⟩ := authorizeSelects_row h.selected
  obtain ⟨a, ha, hrevision⟩ := currentShellPermissionRevision_eq_ok.mp h.authority
  obtain ⟨hamem, hactor⟩ := Table.lookup_eq_some.mp ha
  have hpassed := any_ne_true h.runtime
  simp only [revalidateShellRuntime, List.mem_filter, hmem, true_and, List.any_eq_true, beq_iff_eq,
    Cond.all_eq_true, List.forall_mem_append, List.forall_mem_cons]
  constructor
  · rintro ⟨b, hb, o, ho, ⟨hbrowser, hsubject, -, hcredential, hexpires, huid, -, -, -, -, -, -,
      hidle, habsolute, -⟩, hcurrent⟩
    obtain ⟨hash, hrhash, hphash⟩ := (eq_eq_true _ _).mp hcredential
    obtain ⟨uid, hruid, hpuid⟩ := (eq_eq_true _ _).mp huid
    obtain ⟨_, e, -, hexpires, -⟩ := (lt_eq_true _ _).mp hexpires
    have hopened : r.browserSessionId = b.sessionId := by simpa using hbrowser
    have howner : r.actorId = o.subjectId := by simpa using hsubject
    refine ⟨⟨?_, ?_⟩, ?_, ⟨?_, ?_⟩, by simpa using hidle, by simpa using habsolute, b, hb, o, ho,
      hopened.symm, howner.symm, Cond.all_eq_true _ |>.mpr hcurrent⟩
    all_goals simp only [hphash, hrhash, hexpires, hpuid, hruid, ne_eq, reduceCtorEq,
      not_false_eq_true]
  · intro hleft
    obtain ⟨b, hb, o, ho, hbrowser, hsubject, hcurrent⟩ := hleft.browser
    -- the authority of the session is the one the revision was computed from
    obtain rfl : o = a := Table.eq_of_key_eq ho hamem
      (hsubject.trans (Option.some.inj hactor))
    refine ⟨b, hb, o, ho, ⟨by simp [hbrowser], by simp [hsubject], ?_, ?_, ?_, ?_, ?_, ?_, ?_,
      ?_, ?_, ?_, ?_, ?_, List.forall_mem_nil _⟩, Cond.all_eq_true _ |>.mp hcurrent⟩
    · rw [hid]
      simp
    · exact (eq_eq_true _ _).mpr (compared (hpassed _ (by simp)) hleft.credential.2
        hleft.credential.1)
    · obtain ⟨e, he⟩ := Option.ne_none_iff_exists'.mp hleft.credentialExpires
      have hlate := hpassed (le r.runtimeCredentialExpiresAt (some t.start)) (by simp)
      rw [he] at hlate ⊢
      simpa using hlate
    · exact (eq_eq_true _ _).mpr (compared (hpassed _ (by simp)) hleft.runtime.2 hleft.runtime.1)
    · rw [hgeneration, ne_passed (hpassed (ne (some r.generation) p.generation) (by simp)) rfl
        hgeneration]
      simp
    · rw [hepoch, ne_passed (hpassed (ne (some r.fencingEpoch) p.fencingEpoch) (by simp)) rfl
        hepoch]
      simp
    · simpa using hpassed (some (decide (r.desiredState ≠ .running))) (by simp)
    · simpa using hpassed (some (decide (r.observedState ≠ .ready))) (by simp)
    · rw [hrevision]
      simp
    · rw [h.attach]
    · simpa using hleft.idle
    · simpa using hleft.absolute

/-- The revalidation does not look at what an authorisation changes. -/
theorem revalidate_authorized {q : RuntimeArgs}
    {out : Option ShellSession}
    (h : authorizeShellRuntimeAttach C t ticketHash p db = .ok (db', out)) :
    revalidateShellRuntime C now q db' = revalidateShellRuntime C now q db := by
  rcases authorize_eq_ok h with ⟨-, rfl⟩ | ⟨_, _, _, -, -, -, rfl⟩
  · rfl
  · rfl

/-- Attach authorisation, in every run from an installation.  A ticket is consumed at most
once and authorised at most once.  It is consumed and authorised for a session whose
identity, actor, origin, generation and epoch are those it was issued for, and authorised
only after it was consumed.  A session that an authorisation returns is returned by the
revalidation of the same runtime at the same instant if and only if what the authorisation
leaves out holds. -/
theorem attach_authorisation (C : ShellCrypto) (site : ConsoleIdentity.Site)
    (changedAt : Timestamp) (migration : AppliedMigration) (start : Shell)
    (hstart : start = Shell.installed site changedAt migration) (as : List Action) :
    (∀ k n m r r', Happens (perform C) start as n (Consumes C k r) →
      Happens (perform C) start as m (Consumes C k r') → n = m) ∧
    (∀ k n m r r', Happens (perform C) start as n (Authorizes C k r) →
      Happens (perform C) start as m (Authorizes C k r') → n = m) ∧
    (∀ k n r, Happens (perform C) start as n (Consumes C k r) →
      ∃ m x r₀, m < n ∧ Happens (perform C) start as m (Issues C x r₀) ∧ x.ticketHash = k ∧
        TicketFor x r₀ ∧ TicketFor x r) ∧
    (∀ k n r, Happens (perform C) start as n (Authorizes C k r) →
      ∃ m l x r₀ r₁, m < l ∧ l < n ∧ Happens (perform C) start as m (Issues C x r₀) ∧
        Happens (perform C) start as l (Consumes C k r₁) ∧ x.ticketHash = k ∧
        TicketFor x r₀ ∧ TicketFor x r) ∧
    ∀ n t ticketHash p db db' r,
      Taken (perform C) start as n (.call t (.authorizeShellRuntimeAttach ticketHash p)) db →
      authorizeShellRuntimeAttach C t ticketHash p db = .ok (db', some r) →
      (r ∈ revalidateShellRuntime C t.start p db' ↔ Revalidates db t.start p r) := by
  have hnone : start.tickets.rows = [] := by
    rw [hstart]
    rfl
  refine ⟨fun k n m r r' hn hm => ?_, fun k n m r r' hn hm => ?_,
    fun k n r => consumed_issued hnone, fun k n r => authorized_issued hnone,
    fun n t ticketHash p db db' r _ h => ?_⟩
  · rcases Nat.lt_trichotomy n m with hlt | heq | hgt
    · exact (not_consumed_again hlt hn hm).elim
    · exact heq
    · exact (not_consumed_again hgt hm hn).elim
  · rcases Nat.lt_trichotomy n m with hlt | heq | hgt
    · exact (not_authorized_again hlt hn hm).elim
    · exact heq
    · exact (not_authorized_again hgt hm hn).elim
  · rw [revalidate_authorized h]
    rcases authorize_eq_ok h with ⟨hout, -⟩ | ⟨_, x, _, hout, hauthorized, -⟩
    · cases hout
    · cases hout
      exact authorized_revalidates hauthorized

namespace Demo

def consumption : ConsumeArgs where
  ticketHash := revision
  binding := touch
  consumer := some "gateway"

def runtime : RuntimeArgs where
  runtimeCredentialHash := some migration.migrationSetDigest
  sessionId := some ⟨9⟩
  runtimeUid := some "pod-1"
  generation := some 1
  fencingEpoch := some 2

def attaching : List Action :=
  ticketed 20 ++ [.call (clock 22) (.consumeShellAttachTicket consumption)]

/-- Alice logs out of the browser session that session 9 was opened from. -/
def logout : Action := .identity (.call (Authority.Demo.second 23)
  (.revokeOwnedBrowserSession (ConsoleIdentity.Demo.bytes 1) (ConsoleIdentity.Demo.bytes 2)
    (some ⟨102⟩) (some "correlation")))

/-- The session that is returned when the runtime asks to attach. -/
def authorized (db : Shell) : Option ShellSession :=
  (authorizeShellRuntimeAttach crypto (clock 24) revision runtime db).toOption.bind (·.2)

theorem authorized_eq_some {db : Shell} {r : ShellSession} (h : authorized db = some r) :
    ∃ db', authorizeShellRuntimeAttach crypto (clock 24) revision runtime db =
      .ok (db', some r) := by
  unfold authorized at h
  cases hcall : authorizeShellRuntimeAttach crypto (clock 24) revision runtime db with
  | error e => simp [hcall, Except.toOption] at h
  | ok out =>
      rw [hcall] at h
      obtain ⟨db', found⟩ := out
      obtain rfl : found = some r := h
      exact ⟨db', rfl⟩

theorem attaching_runs :
    ((authorized (after attaching)).any fun r =>
      decide ((revalidateShellRuntime crypto (clock 24).start runtime (after attaching)).head? =
        some r)) = true ∧
    (authorized (after (attaching ++ [logout]))).isSome = true ∧
    revalidateShellRuntime crypto (clock 24).start runtime (after (attaching ++ [logout])) = [] := by
  have hafter : after attaching = System.run (perform crypto) attaching.tail enabled :=
    after_setup attaching.tail
  have hlogout : after (attaching ++ [logout]) =
      System.run (perform crypto) [logout] (after attaching) :=
    System.run_append ..
  rw [hlogout, hafter]
  decide +kernel

end Demo

/-- The runtime of session 9 attaches, and what the authorisation leaves out holds. -/
theorem demo_attach :
    ∃ db' r, authorizeShellRuntimeAttach Demo.crypto (Demo.clock 24) Demo.revision Demo.runtime
        (Demo.after Demo.attaching) = .ok (db', some r) ∧
      Revalidates (Demo.after Demo.attaching) (Demo.clock 24).start Demo.runtime r := by
  obtain ⟨r, hr, hreturned⟩ := (Option.any_eq_true _ _).mp Demo.attaching_runs.1
  obtain ⟨db', hcall⟩ := Demo.authorized_eq_some hr
  refine ⟨db', r, hcall, ?_⟩
  have htaken : Taken (perform Demo.crypto) (.installed ConsoleIdentity.Demo.loggedIn
      Authority.Demo.noon Demo.migration)
      (Demo.attaching ++ [.call (Demo.clock 24)
        (.authorizeShellRuntimeAttach Demo.revision Demo.runtime)]) Demo.attaching.length
      (.call (Demo.clock 24) (.authorizeShellRuntimeAttach Demo.revision Demo.runtime))
      (Demo.after Demo.attaching) := .last ..
  have hiff := (attach_authorisation Demo.crypto _ _ _ _ rfl _).2.2.2.2 _ _ _ _ _ _ _ htaken hcall
  refine hiff.mp ?_
  rw [revalidate_authorized hcall]
  exact List.mem_of_head? (of_decide_eq_true hreturned)

/-- The runtime attaches to a session whose browser session is over, and the revalidation
refuses it at the same instant. -/
theorem attached_after_logout :
    Reachable Demo.crypto (Demo.after (Demo.attaching ++ [Demo.logout])) ∧
    ∃ db' r, authorizeShellRuntimeAttach Demo.crypto (Demo.clock 24) Demo.revision Demo.runtime
        (Demo.after (Demo.attaching ++ [Demo.logout])) = .ok (db', some r) ∧
      r ∉ revalidateShellRuntime Demo.crypto (Demo.clock 24).start Demo.runtime db' := by
  obtain ⟨-, hsome, hrefused⟩ := Demo.attaching_runs
  obtain ⟨r, hr⟩ := Option.isSome_iff_exists.mp hsome
  obtain ⟨db', hcall⟩ := Demo.authorized_eq_some hr
  refine ⟨Demo.after_reachable _, db', r, hcall, ?_⟩
  rw [revalidate_authorized hcall, hrefused]
  exact List.not_mem_nil

end ConsoleShell
