import OpenSphere.Command.Service

/-!
# Commands are carried out at most once

`execute` sends a command that is not a read to its owner only after its claim inserted the
row of the request, and a row is inserted once.  So every other call for the request finds the
row, and ends with what the row says: the recorded outcome, that there is none yet, or that the
request was made with another content.

What makes this hold for any number of calls under way is that each row comes with one right
to send: `Calls.Valid` counts the requests that were sent and those that are about to be.
-/

open Sql
open Js (Value Values Members)
open System (Program)

namespace Command

variable {S : Service}
variable {c : Call} {a : Projection} {body command requestId : Value} {digest : String}
  {r : CommandRequest} {p : Prepared} {q : Request}

/-! ## Contents -/

/-- Two contents that differ in the order of members only. -/
structure Content.Same (c c' : Content) : Prop where
  command : Value.Similar c.command c'.command
  arguments : Value.Similar c.arguments c'.arguments
  contract : c.contract = c'.contract
  review : Option.Rel Value.Similar c.review c'.review

theorem canonical_value (c : Content) : c.value.canonical = .ofList (
    [("arguments", c.arguments.canonical), ("command", c.command.canonical)] ++
      (c.contract.map fun t => ("contractSha256", Value.string t)).toList ++
      (c.review.map fun x => ("reviewRevision", x.canonical)).toList) := by
  have hfirst : "arguments" < "command" := by decide
  have hlast : ∀ k ∈ ["contractSha256", "reviewRevision"], ¬k < "arguments" ∧ ¬k < "command" := by
    decide
  have hcontract := hlast "contractSha256" (by decide)
  have hreview := hlast "reviewRevision" (by decide)
  have hmiddle : ¬"reviewRevision" < "contractSha256" := by decide
  obtain ⟨command, arguments, contract, review⟩ := c
  cases contract <;> cases review <;>
    simp [Content.value, Value.ofList, Members.ofList, Value.canonical, Members.canonical,
      Members.place, hfirst, hcontract, hreview, hmiddle]

/-- The canonical value tells a content up to the order of members. -/
theorem canonical_value_eq_iff {c c' : Content} :
    c.value.canonical = c'.value.canonical ↔ c.Same c' := by
  rw [canonical_value, canonical_value]
  obtain ⟨command, arguments, contract, review⟩ := c
  obtain ⟨command', arguments', contract', review'⟩ := c'
  constructor
  · intro h
    have hparts : arguments.canonical = arguments'.canonical ∧
        command.canonical = command'.canonical ∧ contract = contract' ∧
        review.map Value.canonical = review'.map Value.canonical := by
      cases contract <;> cases contract' <;> cases review <;> cases review' <;>
        simp_all [Value.ofList, Members.ofList]
    obtain ⟨harguments, hcommand, hcontract, hreview⟩ := hparts
    refine ⟨Js.similar_iff.mpr hcommand, Js.similar_iff.mpr harguments, hcontract, ?_⟩
    cases review with
    | none =>
        cases review' with
        | none => exact .none
        | some y => cases hreview
    | some x =>
        cases review' with
        | none => cases hreview
        | some y => exact .some (Js.similar_iff.mpr (Option.some.inj hreview))
  · rintro ⟨hcommand, harguments, rfl, hreview⟩
    rw [hcommand.canonical_eq, harguments.canonical_eq]
    cases hreview with
    | none => rfl
    | some h => simp only [Option.map_some, h.canonical_eq]

def Content.Plain (c : Content) : Prop := c.value.plain = true

/-- The texts of two contents have one SHA-256 value only if they are one text. -/
def Content.NoCollision (S : Service) (c c' : Content) : Prop :=
  S.sha256 c.text = S.sha256 c'.text → c.text = c'.text

theorem encodeHex_injective {x y : ConsoleIdentity.Bytes}
    (h : ConsoleIdentity.encodeHex x = ConsoleIdentity.encodeHex y) : x = y := by
  have hchars := congrArg chars h
  simp only [ConsoleIdentity.encodeHex, chars_ofList] at hchars
  clear h
  induction x generalizing y with
  | nil =>
      cases y with
      | nil => rfl
      | cons c y => simp at hchars
  | cons b x ih =>
      cases y with
      | nil => simp at hchars
      | cons c y =>
          simp only [List.flatMap_cons, List.cons_append, List.nil_append, List.cons.injEq] at hchars
          obtain ⟨hhigh, hlow, hrest⟩ := hchars
          have hb := b.toNat_lt
          have hc := c.toNat_lt
          have hhigh' := digitChar_injective (by omega) (by omega) hhigh
          have hlow' := digitChar_injective (by omega) (by omega) hlow
          have hbc : b = c := UInt8.toNat_inj.mp (by omega)
          rw [hbc, ih hrest]

/-- The digest tells a content up to the order of members. -/
theorem digest_eq_iff {c c' : Content} (hc : c.Plain) (hc' : c'.Plain) (h : c.NoCollision S c') :
    c.digest S = c'.digest S ↔ c.Same c' := by
  rw [← canonical_value_eq_iff]
  constructor
  · intro hdigest
    have hhex : ConsoleIdentity.encodeHex (S.sha256 c.text) =
        ConsoleIdentity.encodeHex (S.sha256 c'.text) := String.append_right_inj _ |>.mp hdigest
    have htext := congrArg chars (h (encodeHex_injective hhex))
    simp only [Content.text, chars_ofList] at htext
    exact Js.similar_iff.mp ((Js.stringify_canonical_iff hc hc').mp htext)
  · intro hvalue
    rw [Content.digest, Content.digest, Content.text, Content.text, hvalue]

/-! ## What a call asks -/

/-- A request that `execute` makes before its claim. -/
def Request.preparing : Request → Prop
  | .loadProviders => True
  | .me _ => True
  | .profile => True
  | .clock => True
  | _ => False

/-- A request that neither claims nor changes anything at an owner. -/
def Request.quiet : Request → Prop
  | .claim _ _ _ _ => False
  | .owner _ call => call.mutation = false
  | _ => True

theorem quiet_of_preparing (h : q.preparing) : q.quiet := by
  cases q with
  | claim => exact h.elim
  | owner => exact h.elim
  | _ => trivial

/-- What `prepare` knows of a call. -/
structure Prepared.For (p : Prepared) (body : Value) : Prop where
  content : p.content = .of body p.definition
  plain : ∀ t, p.content.command = .string t → p.content.Plain

theorem actor_keeps (headers : Headers) :
    (actor S headers).Keeps Request.preparing fun _ => True := by
  unfold actor
  split
  · exact Program.keeps_lift fun _ _ => trivial
  split
  · exact Program.keeps_lift fun _ _ => trivial
  refine ⟨trivial, fun reply => ?_⟩
  refine Program.Keeps.seq (Program.keeps_lift fun _ _ => trivial) fun r => ?_
  refine Program.Keeps.seq (Program.keeps_await trivial) fun now => ?_
  split
  · trivial
  · exact Program.keeps_lift fun _ _ => trivial

theorem provider_keeps (body : Value) :
    (provider body).Keeps Request.preparing fun _ => True := by
  unfold provider
  refine Program.Keeps.seq (Program.keeps_lift fun _ _ => trivial) fun own => ?_
  split
  · trivial
  refine Program.Keeps.seq (Program.keeps_lift fun _ _ => trivial) fun id => ?_
  split
  · exact Program.keeps_lift fun _ _ => trivial
  refine Program.Keeps.seq (Program.keeps_await trivial) fun providers => ?_
  split
  · trivial
  · exact Program.keeps_lift fun _ _ => trivial

theorem authorize_keeps (a : Projection) (write : Bool) :
    (authorize a write).Keeps Request.preparing fun _ => True := by
  unfold authorize
  split
  · exact Program.keeps_lift fun _ _ => trivial
  split
  · refine Program.Keeps.seq (Program.keeps_await trivial) fun profile => ?_
    split
    · trivial
    · exact Program.keeps_lift fun _ _ => trivial
  · trivial

theorem validate_plain {found : Option Definition} {d : Definition} {t : String}
    (h : validate body found = .ok d) (hcommand : body.get "command" = .string t) :
    (Content.of body d).Plain := by
  obtain ⟨harguments, hreview⟩ := validate_eq_ok h
  have hplain : ((if (body.get "reviewRevision").truthy then some (body.get "reviewRevision")
      else none).map Value.plain).getD true = true := by
    cases hvalue : body.get "reviewRevision" with
    | undefined => rfl
    | _ =>
        rw [hvalue] at hreview
        have := hreview rfl
        split <;> simp_all
  unfold Content.Plain Content.value Content.of
  cases d.contract <;> split at hplain <;>
    simp_all [Value.ofList, Members.ofList, Value.plain, Members.plain]

theorem prepare_keeps (headers : Headers) (body : Value) :
    (prepare S headers body).Keeps Request.preparing fun p => p.For body := by
  unfold prepare
  refine (provider_keeps body).seq fun found => ?_
  have hvalidate : (Program.lift (validate body found) : Routine Definition).Keeps
      Request.preparing fun d => ∀ t, body.get "command" = .string t → (Content.of body d).Plain :=
    Program.keeps_lift fun _ h _ => validate_plain h
  refine hvalidate.bind fun d hd => ?_
  refine (actor_keeps headers).seq fun ⟨token, a⟩ => ?_
  refine (authorize_keeps a _).seq fun _ => ?_
  split
  · exact Program.keeps_lift fun _ h => (nomatch h)
  split
  · exact Program.keeps_lift fun _ h => (nomatch h)
  · exact ⟨rfl, hd⟩

def keyOf (subjectId requestId : Value) : Option Key :=
  match uuidParameter subjectId, uuidParameter requestId with
  | .ok subject, .ok request => some (subject, request)
  | _, _ => none

def Sent.writes (k : Key) (x : Sent) : Bool :=
  x.call.mutation && decide (keyOf x.subjectId x.call.requestId = some k)

/-- A call of `execute` that is under way. -/
abbrev Task := System.Task Failure Request Request.Result Response Call

def pending (k : Key) (task : Task) : Bool :=
  match task.rest with
  | .ask (.owner a call) _ => Sent.writes k ⟨a.subjectId, call⟩
  | _ => false

theorem ownerCall_eq_ok {call : OwnerCall}
    (h : ownerCall S body p = .ok call) :
    call.mutation = (!p.definition.read) ∧ call.requestId = body.get "requestId" := by
  unfold ownerCall at h
  split at h
  next =>
    obtain ⟨t, -, h⟩ := bind_eq_ok.mp h
    cases h
    exact ⟨rfl, rfl⟩
  next =>
    cases h
    exact ⟨rfl, rfl⟩

theorem dispatch_cases (body : Value) (p : Prepared) :
    (∃ e, dispatch S body p = .throw e) ∨
      ∃ call next, dispatch S body p = .ask (.owner p.actor call) next ∧
        call.mutation = (!p.definition.read) ∧ call.requestId = body.get "requestId" ∧
        ∀ r, (next r).Keeps Request.quiet fun _ => True := by
  unfold dispatch
  cases hcall : ownerCall S body p with
  | error e => exact .inl ⟨e, rfl⟩
  | ok call =>
      obtain ⟨hmutation, hrequest⟩ := ownerCall_eq_ok hcall
      refine .inr ⟨call, _, rfl, hmutation, hrequest, fun r => ?_⟩
      refine Program.Keeps.seq (Program.keeps_lift fun _ _ => trivial) fun r => ?_
      refine Program.Keeps.seq (Program.keeps_await trivial) fun now => ?_
      split
      · trivial
      split
      · trivial
      · exact Program.keeps_lift fun _ _ => trivial

/-- A read asks nothing that changes anything. -/
theorem dispatch_quiet (h : p.definition.read = true) :
    (dispatch S body p).Keeps Request.quiet fun _ => True := by
  rcases dispatch_cases (S := S) body p with ⟨e, heq⟩ | ⟨call, next, heq, hmutation, -, hnext⟩
  · rw [heq]
    trivial
  · rw [heq]
    exact ⟨hmutation.trans (by rw [h]; rfl), hnext⟩

theorem record_quiet (body : Value) (p : Prepared) (outcome : Outcome) :
    Program.Keeps Request.quiet (fun _ => True)
      (.ask (.finish p.actor (body.get "requestId") (p.content.digest S) outcome) fun
        | .ok _ => pure (.fresh outcome)
        | .error _ => .throw recordUnavailable : Routine Response) := by
  refine ⟨trivial, fun r => ?_⟩
  cases r <;> trivial

/-- A call that claimed its request asks the owner once, if at all, and does so at once. -/
theorem dispatched_cases (body : Value) (p : Prepared) :
    (dispatched S body p).Keeps Request.quiet (fun _ => True) ∨
      ∃ call next, dispatched S body p = .ask (.owner p.actor call) next ∧
        call.mutation = (!p.definition.read) ∧ call.requestId = body.get "requestId" ∧
        ∀ r, (next r).Keeps Request.quiet fun _ => True := by
  unfold dispatched
  rcases dispatch_cases (S := S) body p with ⟨e, heq⟩ | ⟨call, next, heq, hmutation, hrequest, hnext⟩
  · rw [heq]
    exact .inl (record_quiet body p _)
  · rw [heq]
    refine .inr ⟨call, _, rfl, hmutation, hrequest, fun r => ?_⟩
    have hcaught : ((next r).tryCatch fun e => pure (failed body e)).Keeps Request.quiet
        fun _ => True := (hnext r).tryCatch fun e => True.intro
    exact hcaught.seq fun outcome => record_quiet body p outcome

/-! ## Stages of a call -/

inductive Stage (S : Service) (c : Call) : Routine Response → Prop where
  /-- It has not claimed its request. -/
  | preparing (p : Routine Prepared) :
      p.Keeps Request.preparing (fun x => x.For c.body) → Stage S c (p >>= commit S c.body)
  /-- It has claimed its request and not sent it. -/
  | dispatching (a : Projection) (call : OwnerCall) (next : Except Failure Reply → Routine Response) :
      (∀ r, (next r).Keeps Request.quiet fun _ => True) → Stage S c (.ask (.owner a call) next)
  /-- It neither claims nor sends anything any more. -/
  | quiet (p : Routine Response) : p.Keeps Request.quiet (fun _ => True) → Stage S c p

theorem execute_stage (c : Call) : Stage S c (execute S c.headers c.body) :=
  .preparing _ (prepare_keeps c.headers c.body)

/-- How many requests were sent or are about to be. -/
def Calls.writes (s : Calls) (k : Key) : Nat :=
  s.world.sent.countP (Sent.writes k) + s.tasks.countP (pending k)

/-- What holds in every run: a row comes with one right to send. -/
structure Calls.Valid (S : Service) (s : Calls) : Prop where
  stage : ∀ task ∈ s.tasks, Stage S task.tag task.rest
  once : ∀ k, s.writes k ≤ 1
  claimed : ∀ k, 0 < s.writes k → (s.world.ledger.row k).isSome = true

/-- What one answer does to a world: rows stay, and what was sent stays. -/
theorem answer_later (e : Stamp) (q : Request) (w : World) :
    w.ledger.Later (answer e q w).2.ledger := by
  have hcommit : ∀ {α : Type} (x : Except SqlError (Ledger × α)),
      (∀ db y, x = .ok (db, y) → w.ledger.Later db) → w.ledger.Later (e.commit w x).2.ledger := by
    intro α x hx
    unfold Stamp.commit
    split
    next => exact .refl _
    next db y =>
      split
      · exact .refl _
      · exact hx db y rfl
  cases q with
  | claim a requestId command digest =>
      refine hcommit _ fun db y h => ?_
      obtain ⟨p, -, h⟩ := bind_eq_ok.mp h
      exact claimCommand_later h
  | finish a requestId digest outcome =>
      refine hcommit _ fun db y h => ?_
      obtain ⟨p, -, h⟩ := bind_eq_ok.mp h
      obtain ⟨db', hfinish, h⟩ := bind_eq_ok.mp h
      cases h
      exact finishCommand_later hfinish
  | _ => exact .refl _

theorem answer_quiet (h : q.quiet) (e : Stamp) (w : World) (k : Key) :
    (answer e q w).2.sent.countP (Sent.writes k) = w.sent.countP (Sent.writes k) := by
  have hcommit : ∀ {α : Type} (x : Except SqlError (Ledger × α)), (e.commit w x).2.sent = w.sent := by
    intro α x
    unfold Stamp.commit
    split
    · rfl
    · split <;> rfl
  cases q with
  | owner a call =>
      have hno : Sent.writes k ⟨a.subjectId, call⟩ = false := by
        have hread : call.mutation = false := h
        simp [Sent.writes, hread]
      simp [answer, List.countP_append, hno]
  | claim a requestId command digest => exact h.elim
  | finish a requestId digest outcome => exact congrArg _ (hcommit _)
  | _ => rfl

theorem claimArgs_key
    {p : ClaimArgs} (h : claimArgs a requestId command digest = .ok p) :
    keyOf a.subjectId requestId = some p.key ∧ command = .string p.command ∧ p.digest = digest := by
  unfold claimArgs at h
  obtain ⟨actor, hactor, h⟩ := bind_eq_ok.mp h
  obtain ⟨session, -, h⟩ := bind_eq_ok.mp h
  obtain ⟨request, hrequest, h⟩ := bind_eq_ok.mp h
  obtain ⟨text, htext, h⟩ := bind_eq_ok.mp h
  cases h
  refine ⟨by rw [keyOf, hactor, hrequest, ClaimArgs.key], ?_, rfl⟩
  unfold textParameter at htext
  split at htext
  · cases htext
    rfl
  · cases htext

theorem answer_claim (e : Stamp) (a : Projection) (requestId command : Value) (digest : String)
    (w : World) :
    (answer e (.claim a requestId command digest) w).2.sent = w.sent ∧
      ∀ x, (answer e (.claim a requestId command digest) w).1 = .ok x →
        ∃ p, claimArgs a requestId command digest = .ok p ∧
          claimCommand e.now p w.ledger =
            .ok ((answer e (.claim a requestId command digest) w).2.ledger, x) := by
  simp only [answer, Stamp.commit]
  split
  next => exact ⟨rfl, fun x hx => (nomatch hx)⟩
  next db y heq =>
    obtain ⟨p, hp, hclaim⟩ := bind_eq_ok.mp heq
    split
    next => exact ⟨rfl, fun x hx => (nomatch hx)⟩
    next =>
      refine ⟨rfl, fun x hx => ?_⟩
      split at hx
      · cases hx
      · cases hx
        exact ⟨p, hp, hclaim⟩

theorem pending_quiet {p : Routine Response}
    (h : p.Keeps Request.quiet fun _ => True) (k : Key) : pending k ⟨c, p⟩ = false := by
  unfold pending
  split
  next a call next heq =>
    dsimp only at heq
    rw [heq] at h
    have hread : call.mutation = false := h.1
    simp [Sent.writes, hread]
  next => rfl

theorem pending_commit (p : Prepared) (k : Key) :
    pending k ⟨c, commit S c.body p⟩ = false := by
  unfold commit
  split
  next hread =>
    have hquiet : (dispatch S c.body p >>= fun outcome => pure (.fresh outcome) :
        Routine Response).Keeps Request.quiet fun _ => True :=
      (dispatch_quiet hread).seq fun outcome => True.intro
    exact pending_quiet hquiet k
  next => rfl

theorem pending_preparing {p : Routine Prepared}
    (h : p.Keeps Request.preparing fun x => x.For c.body) (k : Key) :
    pending k ⟨c, p >>= commit S c.body⟩ = false := by
  cases p with
  | pure x => exact pending_commit x k
  | throw e => rfl
  | ask q next =>
      cases q with
      | owner a call => exact h.1.elim
      | _ => rfl

/-- What a step of a call does for a key: it sends no more than it was about to, or it inserts
the row. -/
def Steps (k : Key) (w w' : World) (before after : Task) : Prop :=
  w'.sent.countP (Sent.writes k) + (pending k after).toNat ≤
      w.sent.countP (Sent.writes k) + (pending k before).toNat ∨
    w.ledger.row k = none ∧ (w'.ledger.row k).isSome = true ∧
      w'.sent.countP (Sent.writes k) = w.sent.countP (Sent.writes k)

/-- A call that is not about to send has sent no more than it was about to. -/
theorem Steps.quiet {k : Key} {w w' : World} {before after : Task}
    (hsent : w'.sent.countP (Sent.writes k) ≤
      w.sent.countP (Sent.writes k) + (pending k before).toNat)
    (hafter : pending k after = false) : Steps k w w' before after := by
  left
  rw [hafter]
  exact hsent

abbrev claimOf (S : Service) (body : Value) (p : Prepared) : Request :=
  .claim p.actor (body.get "requestId") (body.get "command") (p.content.digest S)

theorem claim_step (c : Call) (p : Prepared) (e : Stamp) (w : World) :
    Stage S c (claimed S c.body p (answer e (claimOf S c.body p) w).1) ∧
      ∀ k, Steps k w (answer e (claimOf S c.body p) w).2 ⟨c, commit S c.body p⟩
        ⟨c, claimed S c.body p (answer e (claimOf S c.body p) w).1⟩ := by
  obtain ⟨hsent, hok⟩ := answer_claim e p.actor (c.body.get "requestId") (c.body.get "command")
    (p.content.digest S) w
  generalize answer e (claimOf S c.body p) w = r at hsent hok ⊢
  obtain ⟨res, w'⟩ := r
  have hcount : ∀ k, w'.sent.countP (Sent.writes k) = w.sent.countP (Sent.writes k) :=
    fun k => congrArg (List.countP (Sent.writes k)) hsent
  have hquiet : ∀ q : Routine Response, q.Keeps Request.quiet (fun _ => True) →
      Stage S c q ∧ ∀ k, Steps k w w' ⟨c, commit S c.body p⟩ ⟨c, q⟩ := by
    refine fun q hq => ⟨.quiet q hq, fun k => .quiet ?_ (pending_quiet hq k)⟩
    rw [hcount]
    exact Nat.le_add_right ..
  match res with
  | .error _ | .ok .conflict | .ok (.found false none) | .ok (.found false (some result)) =>
      exact hquiet _ trivial
  | .ok (.found true result) =>
      rcases dispatched_cases (S := S) c.body p with
        hdone | ⟨call, next, heq, hmutation, hrequest, hnext⟩
      · exact hquiet _ hdone
      · -- the call inserted the row, and may send for its key and no other
        show Stage S c (dispatched S c.body p) ∧
          ∀ k, Steps k w w' ⟨c, commit S c.body p⟩ ⟨c, dispatched S c.body p⟩
        rw [heq]
        refine ⟨.dispatching _ _ _ hnext, fun k => ?_⟩
        obtain ⟨args, hargs, hcommand⟩ := hok _ rfl
        obtain ⟨hkey, -, -⟩ := claimArgs_key hargs
        by_cases hk : k = args.key
        · right
          rcases claimCommand_cases hcommand with ⟨r, -, -, hfound⟩ | ⟨hnone, -, hrows⟩
          · unfold CommandRequest.claim at hfound
            split at hfound <;> cases hfound
          · refine ⟨hk ▸ hnone, ?_, hcount k⟩
            rw [hrows, if_pos hk]
            rfl
        · have hno : pending k ⟨c, .ask (.owner p.actor call) next⟩ = false := by
            simp only [pending, Sent.writes, hrequest, hkey, Option.some.injEq, Ne.symm hk,
              decide_false, Bool.and_false]
          refine .quiet ?_ hno
          rw [hcount]
          exact Nat.le_add_right ..

theorem Stage.step {rest : Routine Response} (h : Stage S c rest)
    {next : Except Failure q.Result → Routine Response} (hrest : rest = .ask q next) (e : Stamp)
    (w : World) :
    Stage S c (next (answer e q w).1) ∧
      ∀ k, Steps k w (answer e q w).2 ⟨c, rest⟩ ⟨c, next (answer e q w).1⟩ := by
  have hquiet : rest.Keeps Request.quiet (fun _ => True) →
      Stage S c (next (answer e q w).1) ∧
        ∀ k, Steps k w (answer e q w).2 ⟨c, rest⟩ ⟨c, next (answer e q w).1⟩ := by
    intro hkeeps
    rw [hrest] at hkeeps
    refine ⟨.quiet _ (hkeeps.2 _), fun k => .quiet ?_ (pending_quiet (hkeeps.2 _) k)⟩
    rw [answer_quiet hkeeps.1]
    exact Nat.le_add_right ..
  cases h with
  | quiet _ hkeeps => exact hquiet hkeeps
  | dispatching a call next' hnext =>
      cases hrest
      refine ⟨.quiet _ (hnext _), fun k => .quiet ?_ (pending_quiet (hnext _) k)⟩
      simp only [answer, pending, List.countP_append, List.countP_singleton]
      cases Sent.writes k ⟨a.subjectId, call⟩ <;> simp
  | preparing p hp =>
      cases p with
      | throw e => cases hrest
      | ask q' next' =>
          cases hrest
          refine ⟨.preparing _ (hp.2 _), fun k => .quiet ?_ (pending_preparing (hp.2 _) k)⟩
          rw [answer_quiet (quiet_of_preparing hp.1)]
          exact Nat.le_add_right ..
      | pure x =>
          have hcommit : commit S c.body x = .ask q next := hrest
          by_cases hread : x.definition.read = true
          · refine hquiet ?_
            rw [show (Program.pure x >>= commit S c.body) = commit S c.body x from rfl, commit,
              if_pos hread]
            exact (dispatch_quiet hread).seq fun outcome => True.intro
          · rw [commit, if_neg hread] at hcommit
            cases hcommit
            exact claim_step c x e w

/-! ## Runs -/

variable {s : Calls}

theorem initial_valid (shell : ConsoleShell.Shell) : (Calls.initial shell).Valid S where
  stage _ htask := (nomatch htask)
  once _ := Nat.zero_le 1
  claimed _ h := absurd h (Nat.lt_irrefl 0)

theorem Calls.Valid.step (h : s.Valid S) {i : Nat}
    {next : Except Failure q.Result → Routine Response} (hi : s.tasks[i]? = some ⟨c, .ask q next⟩)
    (e : Stamp) : Calls.Valid S
      ⟨(answer e q s.world).2, s.tasks.set i ⟨c, next (answer e q s.world).1⟩⟩ := by
  have hstage := (h.stage _ (List.mem_of_getElem? hi)).step rfl e s.world
  have hsteps : ∀ k, Steps k s.world (answer e q s.world).2 ⟨c, .ask q next⟩
    ⟨c, next (answer e q s.world).1⟩ := hstage.2
  have hkey : ∀ k, Calls.writes
      ⟨(answer e q s.world).2, s.tasks.set i ⟨c, next (answer e q s.world).1⟩⟩ k ≤ s.writes k ∨
        s.writes k = 0 ∧ ((answer e q s.world).2.ledger.row k).isSome = true ∧ Calls.writes
          ⟨(answer e q s.world).2, s.tasks.set i ⟨c, next (answer e q s.world).1⟩⟩ k ≤ 1 := by
    intro k
    have hcount := System.countP_set_add hi ⟨c, next (answer e q s.world).1⟩ (pending k)
    simp only [Calls.writes]
    rcases hsteps k with hle | ⟨hnone, hsome, hsent⟩
    · left
      omega
    · right
      have hzero : s.writes k = 0 := by
        by_contra hne
        have hrow := h.claimed k (Nat.pos_of_ne_zero hne)
        rw [hnone] at hrow
        cases hrow
      rw [Calls.writes] at hzero
      have hone : (pending k ⟨c, next (answer e q s.world).1⟩).toNat ≤ 1 := Bool.toNat_le _
      exact ⟨hzero, hsome, by omega⟩
  refine ⟨fun task htask => ?_, fun k => ?_, fun k hk => ?_⟩
  · rcases System.mem_set_cases htask with rfl | hold
    · exact hstage.1
    · exact h.stage task hold
  · rcases hkey k with hle | ⟨-, -, hone⟩
    · exact hle.trans (h.once k)
    · exact hone
  · rcases hkey k with hle | ⟨-, hsome, -⟩
    · obtain ⟨r, hr⟩ := Option.isSome_iff_exists.mp (h.claimed k (Nat.lt_of_lt_of_le hk hle))
      obtain ⟨r', hr', -⟩ := answer_later e q s.world k r hr
      exact Option.isSome_iff_exists.mpr ⟨r', hr'⟩
    · exact hsome

theorem Calls.Valid.perform (h : s.Valid S) (m : Move) :
    Calls.Valid S (System.Pool.perform (setting S) m s) := by
  generalize hs' : System.Pool.perform (setting S) m s = s'
  have hcases := System.Pool.perform_cases (setting S) s m
  rw [hs'] at hcases
  cases hcases with
  | idle i e => exact h
  | step i e c q next hi => exact h.step hi e
  | outside shell => exact ⟨h.stage, h.once, h.claimed⟩
  | start c =>
      have hstage := execute_stage (S := S) c
      have hcount : ∀ k, Calls.writes ⟨s.world, s.tasks ++ [⟨c, (setting S).program c⟩]⟩ k =
          s.writes k := by
        intro k
        have hno : pending k ⟨c, (setting S).program c⟩ = false :=
          pending_preparing (prepare_keeps c.headers c.body) k
        simp [Calls.writes, List.countP_append, hno]
      refine ⟨fun task htask => ?_, fun k => ?_, fun k hk => ?_⟩
      · rcases List.mem_append.mp htask with hold | hnew
        · exact h.stage task hold
        · obtain rfl := List.mem_singleton.mp hnew
          exact hstage
      · rw [hcount]
        exact h.once k
      · rw [hcount] at hk
        exact h.claimed k hk
  | crash i =>
      have hle : ∀ k, Calls.writes ⟨s.world, s.tasks.eraseIdx i⟩ k ≤ s.writes k := fun k =>
        Nat.add_le_add_left ((List.eraseIdx_sublist ..).countP_le) _
      exact ⟨fun task htask => h.stage task (List.mem_of_mem_eraseIdx htask),
        fun k => (hle k).trans (h.once k),
        fun k hk => h.claimed k (Nat.lt_of_lt_of_le hk (hle k))⟩

theorem after_valid (shell : ConsoleShell.Shell) (ms : List Move) :
    ((Calls.initial shell).after S ms).Valid S :=
  System.run_invariant (I := Calls.Valid S) (fun m _ h => h.perform m) (initial_valid shell) ms

theorem after_later (ms : List Move) (s : Calls) :
    s.world.ledger.Later (s.after S ms).world.ledger :=
  System.run_relation (R := fun s t : Calls => s.world.ledger.Later t.world.ledger)
    (fun _ => .refl _) Ledger.Later.trans (fun m s => s.perform_world
      (R := fun w => s.world.ledger.Later w.ledger) (.refl _) (fun e _ q _ _ => answer_later e q s.world)
      (fun _ => .refl _) m) ms s

/-! ## Claims -/

theorem Stage.claim {rest : Routine Response} (h : Stage S c rest)
    {next : Except Failure Claim → Routine Response}
    (hrest : rest = .ask (.claim a requestId command digest) next) :
    ∃ p : Prepared, p.For c.body ∧ command = c.body.get "command" ∧
      digest = p.content.digest S ∧ next = claimed S c.body p := by
  cases h with
  | quiet _ hkeeps =>
      rw [hrest] at hkeeps
      exact hkeeps.1.elim
  | dispatching => cases hrest
  | preparing p hp =>
      cases p with
      | throw e => cases hrest
      | ask q' next' =>
          cases hrest
          exact hp.1.elim
      | pure x =>
          have hcommit : commit S c.body x = .ask (.claim a requestId command digest) next := hrest
          by_cases hread : x.definition.read = true
          · have hkeeps : (commit S c.body x).Keeps Request.quiet fun _ => True := by
              rw [commit, if_pos hread]
              exact (dispatch_quiet hread).seq fun outcome => True.intro
            rw [hcommit] at hkeeps
            exact hkeeps.1.elim
          · rw [commit, if_neg hread] at hcommit
            cases hcommit
            exact ⟨x, hp, rfl, rfl, rfl⟩

structure CommandRequest.Holds (S : Service) (r : CommandRequest) (c : Content) : Prop where
  plain : c.Plain
  command : c.command = .string r.command
  digest : r.inputDigest = c.digest S

theorem CommandRequest.Holds.later {r' : CommandRequest} {c : Content} (h : r.Holds S c)
    (hlater : r.Later r') : r'.Holds S c :=
  ⟨h.plain, hlater.command ▸ h.command, hlater.inputDigest.trans h.digest⟩

theorem row_holds (hp : p.For c.body)
    {args : ClaimArgs}
    (hargs : claimArgs a requestId (c.body.get "command") (p.content.digest S) = .ok args)
    (now : Timestamp) : (args.row now).Holds S p.content := by
  obtain ⟨-, hcommand, hdigest⟩ := claimArgs_key hargs
  have hcontent : p.content.command = .string args.command := by
    rw [hp.content]
    exact hcommand
  exact ⟨hp.plain _ hcontent, hcontent, hdigest⟩

/-- What the answer to a claim leads to, by what the row of the request says. -/
theorem claimed_eq (hp : p.For c.body)
    {args : ClaimArgs}
    (hargs : claimArgs a requestId (c.body.get "command") (p.content.digest S) = .ok args)
    {content : Content} (hr : r.Holds S content)
    (hcollision : p.content.NoCollision S content) :
    (¬p.content.Same content →
        claimed S c.body p (.ok (r.claim args false)) = .throw idempotencyConflict) ∧
      (p.content.Same content → r.result = none →
        claimed S c.body p (.ok (r.claim args false)) = .throw outcomePending) ∧
      (p.content.Same content → ∀ x, r.result = some x →
        claimed S c.body p (.ok (r.claim args false)) = .pure (.replayed (replay x))) := by
  have hrow := row_holds (S := S) hp hargs 0
  have hdigest : args.digest = p.content.digest S := hrow.digest
  have hcommand : p.content.command = .string args.command := hrow.command
  have hsame := digest_eq_iff hrow.plain hr.plain hcollision
  have hclaim : p.content.Same content → r.claim args false = .found false r.result := by
    intro h
    have htext : r.command = args.command := by
      have hsimilar := Js.similar_iff.mp h.command
      rw [hcommand, hr.command] at hsimilar
      exact (Value.string.inj hsimilar).symm
    rw [CommandRequest.claim, if_neg]
    rintro (hne | hne)
    · exact hne htext
    · rw [hr.digest, hdigest] at hne
      exact hne (hsame.mpr h).symm
  refine ⟨fun hno => ?_, fun h hnone => ?_, fun h x hx => ?_⟩
  · have hconflict : r.claim args false = .conflict := by
      rw [CommandRequest.claim, if_pos]
      right
      rw [hr.digest, hdigest]
      exact fun heq => hno (hsame.mp heq.symm)
    rw [hconflict]
    rfl
  · rw [hclaim h, hnone]
    rfl
  · rw [hclaim h, hx]
    rfl

theorem answer_rows (e : Stamp) (q : Request) (w : World) {k : Key}
    (h : (answer e q w).2.ledger.row k = some r) :
    (∃ r', w.ledger.row k = some r' ∧ r'.Later r) ∨
      ∃ a requestId command digest p, q = .claim a requestId command digest ∧
        claimArgs a requestId command digest = .ok p ∧ r = p.row e.now := by
  have hsame : (answer e q w).2.ledger = w.ledger → ∃ r', w.ledger.row k = some r' ∧ r'.Later r := by
    intro heq
    rw [heq] at h
    exact ⟨r, h, .refl r⟩
  cases q with
  | claim a requestId command digest =>
      simp only [answer, Stamp.commit] at h hsame
      split at h
      next hfail =>
        rw [hfail] at hsame
        exact .inl (hsame rfl)
      next db y heq =>
        obtain ⟨p, hp, hclaim⟩ := bind_eq_ok.mp heq
        split at h
        next hdown => exact .inl ⟨r, h, .refl r⟩
        next =>
          rcases claimCommand_cases hclaim with ⟨_, -, rfl, -⟩ | ⟨-, -, hrows⟩
          · exact .inl ⟨r, h, .refl r⟩
          · rw [hrows] at h
            split at h
            · cases h
              exact .inr ⟨a, requestId, command, digest, p, rfl, hp, rfl⟩
            · exact .inl ⟨r, h, .refl r⟩
  | finish a requestId digest outcome =>
      left
      simp only [answer, Stamp.commit] at h
      split at h
      next => exact ⟨r, h, .refl r⟩
      next db y heq =>
        obtain ⟨p, hp, hrest⟩ := bind_eq_ok.mp heq
        obtain ⟨db', hfinish, hreturn⟩ := bind_eq_ok.mp hrest
        cases hreturn
        split at h
        next => exact ⟨r, h, .refl r⟩
        next =>
          obtain ⟨r', hr', hphase, hrows⟩ := finishCommand_cases hfinish
          rw [hrows] at h
          split at h
          next hk =>
            cases h
            refine ⟨r', hk ▸ hr', rfl, rfl, fun x hx => ?_⟩
            rw [result_of_dispatching hr' hphase] at hx
            cases hx
          next => exact ⟨r, h, .refl r⟩
  | _ => exact .inl (hsame rfl)

def Calls.Held (S : Service) (s : Calls) : Prop :=
  ∀ k r, s.world.ledger.row k = some r → ∃ content, r.Holds S content

theorem Calls.Held.perform (h : s.Held S) (hvalid : s.Valid S) (m : Move) :
    Calls.Held S (System.Pool.perform (setting S) m s) := by
  generalize hs' : System.Pool.perform (setting S) m s = s'
  have hcases := System.Pool.perform_cases (setting S) s m
  rw [hs'] at hcases
  cases hcases with
  | step i e c q next hi =>
      intro k r hr
      rcases answer_rows e q s.world hr with ⟨r', hr', hlater⟩ | ⟨a, id, command, digest, p, rfl, hp, rfl⟩
      · obtain ⟨content, hcontent⟩ := h k r' hr'
        exact ⟨content, hcontent.later hlater⟩
      · have hstage : Stage S c (.ask (.claim a id command digest) next) :=
          hvalid.stage _ (List.mem_of_getElem? hi)
        obtain ⟨x, hx, rfl, rfl, -⟩ := hstage.claim rfl
        exact ⟨x.content, row_holds hx hp e.now⟩
  | _ => exact h

theorem after_held (shell : ConsoleShell.Shell) (ms : List Move) :
    ((Calls.initial shell).after S ms).Held S := by
  have hboth : ((Calls.initial shell).after S ms).Valid S ∧
      ((Calls.initial shell).after S ms).Held S :=
    System.run_invariant (I := fun s => Calls.Valid S s ∧ Calls.Held S s)
      (fun m _ h => ⟨h.1.perform m, h.2.perform h.1 m⟩)
      ⟨initial_valid shell, fun _ _ hr => (nomatch hr)⟩ ms
  exact hboth.2

def Calls.Ends (s : Calls) (i : Nat) (c : Call) (r : Routine Response) : Prop :=
  s.tasks[i]? = some ⟨c, r⟩

/-- What becomes of a call whose claim is answered.  The ledger may not take the call, or its
answer may be lost.  Otherwise the call inserts the row, or it ends with what the row says. -/
def ClaimAnswered (S : Service) (s : Calls) (i : Nat) (c : Call) (a : Projection)
    (requestId command : Value) (digest : String) (e : Stamp) : Prop :=
  ∃ d, digest = (Content.of c.body d).digest S ∧
    let s' : Calls := System.Pool.perform (setting S) (.step i e) s
    match (do claimCommand e.now (← claimArgs a requestId command digest) s.world.ledger), e.down,
        e.lost with
    | .ok _, false, false => ∃ p, claimArgs a requestId command digest = .ok p ∧
        match s.world.ledger.row p.key with
        | none => ∃ r, s'.world.ledger.row p.key = some r ∧ r.Holds S (.of c.body d)
        | some r => s'.world = s.world ∧ ∀ content, r.Holds S content →
            (Content.of c.body d).NoCollision S content →
              (¬(Content.of c.body d).Same content → s'.Ends i c (.throw idempotencyConflict)) ∧
              ((Content.of c.body d).Same content → r.result = none →
                s'.Ends i c (.throw outcomePending)) ∧
              ((Content.of c.body d).Same content → ∀ x, r.result = some x →
                s'.Ends i c (.pure (.replayed (replay x))))
    | _, _, _ => s'.Ends i c (.throw ledgerUnavailable)

theorem claim_answered (h : s.Valid S) {i : Nat}
    {next : Except Failure Claim → Routine Response}
    (hi : s.tasks[i]? = some ⟨c, .ask (.claim a requestId command digest) next⟩) (e : Stamp) :
    ClaimAnswered S s i c a requestId command digest e := by
  have hstage : Stage S c (.ask (.claim a requestId command digest) next) :=
    h.stage _ (List.mem_of_getElem? hi)
  obtain ⟨p, hp, rfl, rfl, rfl⟩ := hstage.claim rfl
  refine ⟨p.definition, by rw [← hp.content], ?_⟩
  have hstep := System.Pool.step_eq (S := setting S) hi e
  have hends : ∀ r, claimed S c.body p (answer e (.claim a requestId (c.body.get "command")
      (p.content.digest S)) s.world).1 = r →
        Calls.Ends (System.Pool.perform (setting S) (.step i e) s) i c r := by
    rintro r rfl
    have hlt : i < s.tasks.length := (List.getElem?_eq_some_iff.mp hi).1
    rw [Calls.Ends, hstep]
    exact List.getElem?_set_self hlt
  have hworld : (System.Pool.perform (setting S) (.step i e) s).world =
      (answer e (.claim a requestId (c.body.get "command") (p.content.digest S)) s.world).2 := by
    rw [hstep]
    rfl
  rw [← hp.content]
  have hanswer : answer e (.claim a requestId (c.body.get "command") (p.content.digest S)) s.world =
      e.commit s.world (do
        let args ← claimArgs a requestId (c.body.get "command") (p.content.digest S)
        claimCommand e.now args s.world.ledger) := rfl
  rw [hanswer] at hends hworld
  dsimp only
  cases hcall : (do
      let args ← claimArgs a requestId (c.body.get "command") (p.content.digest S)
      claimCommand e.now args s.world.ledger) with
  | error x =>
      rw [hcall] at hends
      exact hends _ rfl
  | ok r =>
      obtain ⟨db, x⟩ := r
      rw [hcall] at hends hworld
      cases hdown : e.down with
      | true =>
          refine hends _ ?_
          rw [Stamp.commit, hdown]
          rfl
      | false =>
          cases hlost : e.lost with
          | true =>
              refine hends _ ?_
              rw [Stamp.commit, hdown, hlost]
              rfl
          | false =>
              have hcommit : e.commit s.world (.ok (db, x)) =
                  (.ok x, { s.world with ledger := db }) := by
                simp only [Stamp.commit, hdown, hlost]
                rfl
              rw [hcommit] at hends hworld
              obtain ⟨args, hargs, hclaim⟩ := bind_eq_ok.mp hcall
              refine ⟨args, hargs, ?_⟩
              rcases claimCommand_cases hclaim with ⟨r, hr, rfl, rfl⟩ | ⟨hnone, -, hrows⟩
              · rw [hr]
                refine ⟨hworld, fun content hcontent hcollision => ?_⟩
                obtain ⟨hconflict, hpending, hreplay⟩ := claimed_eq hp hargs hcontent hcollision
                exact ⟨fun hno => hends _ (hconflict hno),
                  fun hsame hresult => hends _ (hpending hsame hresult),
                  fun hsame y hy => hends _ (hreplay hsame y hy)⟩
              · rw [hnone]
                refine ⟨args.row e.now, ?_, row_holds hp hargs e.now⟩
                rw [hworld, hrows, if_pos rfl]

/-- Commands that are not reads are carried out at most once.  In every run of calls on any
number of replicas, with failures and crashes between any two of their requests: at most one
request is sent to an owner for each subject and request id, rows and what they record stay, every
row was claimed with one content, and every call whose claim is answered while there is a row ends
with what the row says. -/
theorem commands_at_most_once (S : Service) (shell : ConsoleShell.Shell) (ms : List Move) :
    (∀ k, ((Calls.initial shell).after S ms).world.sent.countP (Sent.writes k) ≤ 1) ∧
      (∀ ms', ((Calls.initial shell).after S ms).world.ledger.Later
        (((Calls.initial shell).after S ms).after S ms').world.ledger) ∧
      ((Calls.initial shell).after S ms).Held S ∧
      ∀ i c a requestId command digest next e,
        ((Calls.initial shell).after S ms).tasks[i]? =
          some ⟨c, .ask (.claim a requestId command digest) next⟩ →
        ClaimAnswered S ((Calls.initial shell).after S ms) i c a requestId command digest e := by
  have hvalid := after_valid (S := S) shell ms
  refine ⟨fun k => ?_, fun ms' => after_later ms' _, after_held shell ms, ?_⟩
  · exact (Nat.le_add_right ..).trans (hvalid.once k)
  · intro i c a requestId command digest next e hi
    exact claim_answered hvalid hi e

/-! ## Reads -/

namespace Demo

def service : Service where
  identityUrl := "http://identity"
  ledger := true
  sha256 _ := []
  dateParse _ := some 0
  isoDate _ := ""

def shell : ConsoleShell.Shell :=
  .fresh (.fresh [] none .nativeShellAuthority) (.initial 0) ⟨"", "", ""⟩

def subject : String := "22222222-2222-4222-8222-222222222222"

def request : String := "11111111-1111-4111-8111-111111111111"

def catalog : Call where
  headers := ⟨false, "Bearer abcdefghijklmnopqrstuvwxyz0123456789"⟩
  body := .ofList [("command", .string "console.modules.catalog"), ("arguments", .object .nil),
    ("requestId", .string request)]

/-- The identity service says that a viewer asks, and every owner answers. -/
def stamp : Stamp where
  down := false
  lost := false
  now := 0
  providers := .ok []
  reply := .ok ⟨200, some (.ofList [("schemaVersion", .string "1.0"),
    ("authority", .string "SupabaseAuth"), ("freshness", .string "fresh"),
    ("observedAt", .string "2026-09-03T00:00:00Z"),
    ("data", .ofList [("state", .string "Active"), ("subjectId", .string subject),
      ("sessionId", .string "33333333-3333-4333-8333-333333333333"),
      ("permissions", .array (.cons (.string "console.role.viewer")
        (.cons (.string "console.extension.install") .nil))),
      ("aal", .string "aal1")])])⟩
  profile := none
  clock := 0

/-- Two calls, one after the other, each up to its request to the owner. -/
def reads : List Move := [.start catalog, .step 0 stamp, .step 0 stamp, .step 0 stamp,
  .start catalog, .step 1 stamp, .step 1 stamp, .step 1 stamp]

end Demo

/-- A read is not claimed: a second call for the same request id asks the owner again. -/
theorem read_sent_twice : ∃ k,
    ((Calls.initial Demo.shell).after Demo.service Demo.reads).world.sent.countP
      (fun x => keyOf x.subjectId x.call.requestId == some k) = 2 :=
  ⟨(⟨0x22222222222242228222222222222222⟩, ⟨0x11111111111141118111111111111111⟩), by decide⟩

end Command
