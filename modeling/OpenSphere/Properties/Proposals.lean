import OpenSphere.PlatformChange.Acceptance
import OpenSphere.PlatformChange.Steps

/-!
# Proposing a change again

Two calls of an actor with one idempotency key and an equal body ask for the same change.  The
execution plan of a change has the time of its submission in it, and the database compares the plan: so
the second call is a replay only if it reads the clock in the same millisecond, or if the change is a
Git-reviewed module, whose plan has no time.  `proposals_idempotent` says that this is all that is
amiss: apart from the clock, nothing that happens between the steps of the calls makes a second
operation, branch, pull request or receipt.
-/

open Sql
open Js (Value)
open System (Contract Watched Along Happens watched_await watched_lift watched_pure)
open FrontDoor (AcceptCall AcceptInput)
open Authority (Statement Digest Operation)

namespace PlatformChange

variable {now : Int} {c : Call} {id : Uuid} {i : AcceptInput}

/-! ## What the service makes of a request -/

/-- The requests of two inputs are the same, and so are their plans and keys. -/
structure SameInput (i i' : AcceptInput) : Prop where
  request : i'.request = i.request
  key : i'.idempotencyKey = i.idempotencyKey
  plan : i'.executionPlan = i.executionPlan
  binding : i'.declarationBinding = i.declarationBinding

theorem actionId_of_propose :
    FrontDoor.text (.string "console.platform.change.propose") "actionId" 3 128 =
      .ok "console.platform.change.propose" := by
  decide

/-- The same request by the same actor is the same call, but for its session and its correlation. -/
theorem accept_alike {rt : FrontDoor.Runtime} {edge edge' : Bool} {now' : Int}
    {session session' : FrontDoor.Session} {i' : AcceptInput} {c c' : AcceptCall}
    (hsubject : session'.subjectId = session.subjectId) (hinput : SameInput i i')
    (haction : i.declarationBinding = none →
      i.request.get "actionId" = .string "console.platform.change.propose")
    (h : FrontDoor.accept { rt with localEdge := edge } now session i = .ok c)
    (h' : FrontDoor.accept { rt with localEdge := edge' } now' session' i' = .ok c') : Alike c c' := by
  simp only [FrontDoor.accept, hinput.request, hinput.key, hinput.plan, hinput.binding, bind_eq_ok,
    pure_eq_ok] at h h'
  obtain ⟨r, hr, policy, hpolicy, actor, hactor, key, hkey, correlation, -, _, -, authority, -, rfl⟩ := h
  obtain ⟨r', hr', policy', hpolicy', actor', hactor', key', hkey', correlation', -, _, -, authority',
    -, rfl⟩ := h'
  cases hr.symm.trans hr'
  cases hpolicy.symm.trans hpolicy'
  cases hkey.symm.trans hkey'
  have hsame : actor' = actor := by
    simp only [FrontDoor.authorizeOperation, bind_eq_ok, pure_eq_ok, FrontDoor.orThrow_eq_ok] at hactor hactor'
    obtain ⟨_, hactor, _, -, _, -, _, -, _, -, _, -, _, -, rfl⟩ := hactor
    obtain ⟨_, hactor', _, -, _, -, _, -, _, -, _, -, _, -, rfl⟩ := hactor'
    rw [hsubject, hactor] at hactor'
    cases hactor'
    rfl
  subst hsame
  refine ⟨?_, rfl, fun hbinding => ?_⟩
  · simp only [FrontDoor.requesterConfirmed, hinput.binding]
  · -- the request is not for a module, wherever the site is
    have hid : r.actionId = "console.platform.change.propose" := by
      simp only [FrontDoor.validateOperationRequest, bind_eq_ok, pure_eq_ok] at hr
      obtain ⟨_, -, _, -, actionId, hid, _, -, _, -, _, -, _, -, _, -, _, -, _, -, rfl⟩ := hr
      rw [haction hbinding, actionId_of_propose] at hid
      cases hid
      rfl
    simp [FrontDoor.moduleInstallationPolicy, hid]

/-! ## Calls -/

inductive Proposing where
  | propose (c : Call)
  | bootstrap (c : Call)

def Proposing.call : Proposing → Call
  | .propose c => c
  | .bootstrap c => c

/-- What calls have in common that ask for the same. -/
structure Purpose where
  bootstrap : Bool
  actorRef : Option Uuid
  idempotencyKey : Value
  body : Value

def Proposing.purpose (t : Proposing) : Purpose where
  bootstrap := match t with
    | .propose _ => false
    | .bootstrap _ => true
  actorRef := t.call.session.subjectId
  idempotencyKey := t.call.idempotencyKey
  body := t.call.body

def proposing (D : Digest) (cfg : Config) (declaration : Value) : Runs Proposing where
  program
    | .propose c => propose cfg c
    | .bootstrap c => bootstrapArgocdVerification cfg declaration c
  answer := answer D cfg
  change := Other.change D

def Proposing.timeless (cfg : Config) : Proposing → Bool
  | .propose _ => cfg.moduleOwner
  | .bootstrap _ => false

/-- What a call asks the operation service to accept, if it reads the clock at `ms`. -/
inductive Asks (cfg : Config) (declaration : Value) (ms : Int) : Proposing → AcceptInput → Prop where
  | change {c : Call} {p : Proposal} : cfg.moduleOwner = false → validateProposal c.body = .ok p →
      Asks cfg declaration ms (.propose c) (proposalInput cfg c p none (isoText ms))
  | module {c : Call} {p : Proposal} {native : NativePlan} {submittedAt : String} :
      cfg.moduleOwner = true → validateProposal c.body = .ok p →
      assertModuleDeclaration (p.plan cfg) = .ok (native.catalogRevision, native.image) →
      Asks cfg declaration ms (.propose c) (proposalInput cfg c p (some native) submittedAt)
  | bootstrap {c : Call} {reason : String} : validateArgocdVerificationBootstrap c.body = .ok reason →
      Asks cfg declaration ms (.bootstrap c) (bootstrapInput cfg declaration c reason (isoText ms))

theorem Asks.same {cfg : Config} {declaration : Value} {ms : Int} {t t' : Proposing}
    {i' : AcceptInput} (h : Asks cfg declaration ms t i) (h' : Asks cfg declaration ms t' i')
    (ht : t'.purpose = t.purpose) :
    SameInput i i' ∧ (i.declarationBinding = none →
      i.request.get "actionId" = .string "console.platform.change.propose") := by
  have hkey : t'.call.idempotencyKey = t.call.idempotencyKey := congrArg Purpose.idempotencyKey ht
  have hbody : t'.call.body = t.call.body := congrArg Purpose.body ht
  have hkind : t'.purpose.bootstrap = t.purpose.bootstrap := congrArg Purpose.bootstrap ht
  cases h with
  | @change c p hplain hp =>
      cases h' with
      | @change c' p' _ hp' =>
          have hbody : c'.body = c.body := hbody
          rw [hbody, hp] at hp'
          cases hp'
          exact ⟨⟨rfl, hkey, rfl, rfl⟩, fun _ => rfl⟩
      | module hmodule => rw [hplain] at hmodule; cases hmodule
      | bootstrap => cases hkind
  | @module c p native _ hmodule hp hnative =>
      cases h' with
      | change hplain => rw [hplain] at hmodule; cases hmodule
      | @module c' p' native' _ _ hp' hnative' =>
          have hbody : c'.body = c.body := hbody
          rw [hbody, hp] at hp'
          cases hp'
          obtain ⟨revision, image⟩ := native
          obtain ⟨revision', image'⟩ := native'
          rw [hnative] at hnative'
          cases hnative'
          exact ⟨⟨rfl, hkey, rfl, rfl⟩, nofun⟩
      | bootstrap => cases hkind
  | @bootstrap c reason hreason =>
      cases h' with
      | change => cases hkind
      | module => cases hkind
      | @bootstrap c' reason' hreason' =>
          have hbody : c'.body = c.body := hbody
          rw [hbody, hreason] at hreason'
          cases hreason'
          exact ⟨⟨rfl, hkey, rfl, rfl⟩, fun _ => rfl⟩

def Keyed (c : Call) (id : Uuid) (w : World) : Prop :=
  ∃ o ∈ w.db.operations.rows, o.operationId = id ∧ c.session.subjectId = some o.actorRef ∧
    FrontDoor.text c.idempotencyKey "Idempotency-Key" 8 256 = .ok o.idempotencyKey

def Named (c : Call) (id : Uuid) : Prop :=
  ∃ x, text (c.body.get "operationId") "operationId" 36 36 = .ok x ∧ castUuid x = some id

def Proposing.About (cfg : Config) (t : Proposing) (id : Uuid) (w : World) : Prop :=
  if t.timeless cfg && resumes t.call.body then Named t.call id else Keyed t.call id w

theorem Keyed.later {w w' : World} (h : Keyed c id w) (hlater : w.Later w') :
    Keyed c id w' := by
  obtain ⟨o, ho, hid, hactor, hkey⟩ := h
  obtain ⟨o', ho', hl⟩ := hlater.db.operation ho
  have hid' : o'.operationId = o.operationId := congrArg (·.operationId) hl.request
  have hactor' : o'.actorRef = o.actorRef := congrArg (·.actorRef) hl.request
  have hkey' : o'.idempotencyKey = o.idempotencyKey := congrArg (·.idempotencyKey) hl.request
  exact ⟨o', ho', hid'.trans hid, by rw [hactor', hactor], by rw [hkey', hkey]⟩

theorem Keyed.unique {id' : Uuid} {w : World} (h : Keyed c id w) (h' : Keyed c id' w) :
    id = id' := by
  obtain ⟨o, ho, rfl, hactor, hkey⟩ := h
  obtain ⟨o', ho', rfl, hactor', hkey'⟩ := h'
  rw [hactor] at hactor'
  rw [hkey] at hkey'
  rw [Authority.operation_of_key_unique ho ho' (Option.some.inj hactor') (Except.ok.inj hkey')]

theorem Proposing.About.later {cfg : Config} {t : Proposing} {w w' : World}
    (h : t.About cfg id w) (hlater : w.Later w') : t.About cfg id w' := by
  unfold About at h ⊢
  split
  next hnamed => rwa [if_pos hnamed] at h
  next hkeyed =>
    rw [if_neg hkeyed] at h
    exact h.later hlater

/-- Calls that ask for the same are about the same operation. -/
theorem Proposing.About.unique {cfg : Config} {t t' : Proposing} {id' : Uuid} {w : World}
    (ht : t'.purpose = t.purpose) (h : t.About cfg id w) (h' : t'.About cfg id' w) : id = id' := by
  have hactor : t'.call.session.subjectId = t.call.session.subjectId := congrArg Purpose.actorRef ht
  have hkey : t'.call.idempotencyKey = t.call.idempotencyKey := congrArg Purpose.idempotencyKey ht
  have hbody : t'.call.body = t.call.body := congrArg Purpose.body ht
  have htimeless : t'.timeless cfg = t.timeless cfg := by
    have hkind : t'.purpose.bootstrap = t.purpose.bootstrap := congrArg Purpose.bootstrap ht
    cases t <;> cases t' <;> first | rfl | cases hkind
  unfold About at h h'
  rw [htimeless, hbody] at h'
  split at h
  next hnamed =>
    rw [if_pos hnamed] at h'
    obtain ⟨x, hx, hid⟩ := h
    obtain ⟨x', hx', hid'⟩ := h'
    rw [hbody, hx] at hx'
    cases hx'
    rw [hid] at hid'
    exact Option.some.inj hid'
  next hkeyed =>
    rw [if_neg hkeyed] at h'
    have h'' : Keyed t.call id' w := by
      rwa [Keyed, hactor, hkey] at h'
    exact h.unique h''

/-- What the steps of a call need, and what the others leave alone meanwhile.  A pull request is opened
for a branch that has none which is merged. -/
def proposalContract (cfg : Config) (declaration : Value) (ms : Purpose → Int) :
    Contract Proposing Env Ask World where
  valid w := w.repo.Numbered
  later := World.Later
  rely q w w' := w.Later w' ∧ ∀ b, q = .createPull b → w.repo.Unmerged b → w'.repo.Unmerged b
  needs t q w := match q with
    | .accept call => ∃ i edge now, Asks cfg declaration (ms t.purpose) t i ∧
        FrontDoor.accept { cfg.rt with localEdge := edge } now t.call.session i = .ok call
    | .createFile f => ∃ id, t.About cfg id w ∧ f.branch = changeBranch id
    | .createPull b => (∃ id, t.About cfg id w ∧ b = changeBranch id) ∧ w.repo.Unmerged b
    | .recordProposal p => ∃ id, t.About cfg id w ∧ p.operationId = some id
    | .approve _ _ => False
    | .recordMerge _ => False
    | .review _ _ => False
    | .merge _ _ => False
    | _ => True
  allowed t e q _ := match q with
    | .clock => t.timeless cfg = true ∨ e.now = ms t.purpose
    | _ => True

/-- A part of a proposal that keeps to its contract. -/
abbrev Proposes {α : Type} (D : Digest) (cfg : Config) (declaration : Value) (ms : Purpose → Int)
    (t : Proposing) (post : α → World → Prop) : Prog α → World → Prop :=
  Watched (answer D cfg) (proposalContract cfg declaration ms) t post

section

variable {D : Digest} {cfg : Config} {declaration : Value} {ms : Purpose → Int} {t : Proposing}
  {w : World}

theorem proposalContract_kept : (proposalContract cfg declaration ms).Kept (answer D cfg) where
  refl := .refl
  trans h h' := h.trans h'
  rely_refl _ w := ⟨.refl w, fun _ _ h => h⟩
  rely_trans h h' := ⟨h.1.trans h'.1, fun b hq hw => h'.2 b hq (h.2 b hq hw)⟩
  rely_later h := h.1
  answer hvalid _ _ := (answer_later D cfg _ _ hvalid).symm

/-- A pull request is opened for a branch only where none was found. -/
theorem ensurePull_watched {b sha message : String} {replayed : Bool}
    (hid : t.About cfg id w) (hb : b = changeBranch id) :
    Proposes D cfg declaration ms t (fun _ _ => True) (ensurePull b sha message replayed) w := by
  have hlast : ∀ (n : Nat) (u : World),
      Proposes D cfg declaration ms t (fun _ _ => True) (do
          lift (throwIf (decide (n < 1) || !Js.test shaPattern sha) (unavailable message "unknown"))
          return ({ branch := b, desiredRevision := sha, pullNumber := n, replayed } : GitProposal)) u :=
    fun n u => watched_compute fun _ _ => watched_pure True.intro
  have hfind : Proposes D cfg declaration ms t
      (fun x u => x = none → u.repo.Unmerged b) (await (.findPull b)) w := by
    refine watched_ask (q := .findPull b) fun u _ _ => ?_
    refine ⟨True.intro, fun e _ x hx hnone => ?_⟩
    cases hx
    intro p hp hbranch
    simp only [Option.map_eq_none_iff, Repository.pullOf, List.find?_eq_none] at hnone
    exact absurd hbranch (by simpa using hnone p hp)
  refine hfind.bind proposalContract_kept fun x u hlater hunmerged => ?_
  cases x with
  | some n => exact hlast n u
  | none =>
      have hcreate : Proposes D cfg declaration ms t (fun _ _ => True)
          (await (.createPull b)) u := by
        refine watched_ask fun u' _ hrely => ⟨?_, fun _ _ _ _ => True.intro⟩
        exact ⟨⟨id, hid.later (hlater.trans hrely.1), hb⟩, hrely.2 b rfl (hunmerged rfl)⟩
      exact hcreate.seq proposalContract_kept fun n u' _ => hlast n u'

theorem ensureBranch_watched {f : NewFile} {message : String} (hid : t.About cfg id w)
    (hf : f.branch = changeBranch id) :
    Proposes D cfg declaration ms t (fun _ _ => True) (ensureBranch f message) w := by
  refine watched_read proposalContract_kept (fun _ => True.intro) fun existing u hu => ?_
  cases existing with
  | some sha => exact ensurePull_watched (hid.later hu) hf
  | none =>
      have hcreate : Proposes D cfg declaration ms t (fun _ _ => True)
          (await (.createFile f)) u := by
        refine watched_ask fun u' _ hrely => ⟨⟨id, ?_, hf⟩, fun _ _ _ _ => True.intro⟩
        exact hid.later (hu.trans hrely.1)
      exact hcreate.seq proposalContract_kept fun sha u' hu' =>
        ensurePull_watched (hid.later (hu.trans hu')) hf

theorem requireReady_watched :
    Proposes D cfg declaration ms t (fun _ _ => True) requireReady w := by
  refine watched_read proposalContract_kept (fun _ => True.intro) fun x u _ => ?_
  cases x with
  | none => exact watched_pure True.intro
  | some reason => exact System.watched_throw

theorem ensureProposal_watched {d : Declaration} (hid : t.About cfg d.operationId w) :
    Proposes D cfg declaration ms t (fun _ _ => True) (ensureProposal d) w := by
  refine requireReady_watched.seq proposalContract_kept fun _ u hu => ?_
  refine watched_compute fun consumer _ => watched_compute fun action _ => ?_
  refine watched_compute fun _ _ => watched_compute fun target _ => watched_compute fun reason _ => ?_
  exact watched_compute fun _ _ => ensureBranch_watched (hid.later hu) rfl

theorem ensureArgocdVerificationProposal_watched {reason : String} {source : Option Content}
    (hid : t.About cfg id w) :
    Proposes D cfg declaration ms t (fun _ _ => True)
      (ensureArgocdVerificationProposal cfg id reason source) w := by
  refine watched_compute fun _ _ => ?_
  refine requireReady_watched.seq proposalContract_kept fun _ u hu => ?_
  exact watched_compute fun _ _ => ensureBranch_watched (hid.later hu) rfl

theorem publish_watched {v : Authority.Accepted} {status : String} {git : Prog GitProposal}
    (hid : t.About cfg v.operation.operationId w)
    (hgit : Proposes D cfg declaration ms t (fun _ _ => True) git w) :
    Proposes D cfg declaration ms t (fun _ _ => True) (publish c v status git) w := by
  refine hgit.seq proposalContract_kept fun git u hu => ?_
  have hrecord : Proposes D cfg declaration ms t (fun _ _ => True)
      (await (.recordProposal (proposalReceipt v.operation.operationId git c.correlationId))) u :=
    watched_ask fun u' _ hrely => ⟨⟨_, hid.later (hu.trans hrely.1), rfl⟩, fun _ _ _ _ => True.intro⟩
  exact hrecord.seq proposalContract_kept fun _ _ _ => watched_pure True.intro

theorem Asks.key {n : Int} (h : Asks cfg declaration n t i) :
    i.idempotencyKey = t.call.idempotencyKey := by
  cases h <;> rfl

theorem accept_owner {rt : FrontDoor.Runtime} {session : FrontDoor.Session}
    {c : AcceptCall} (h : FrontDoor.accept rt now session i = .ok c) :
    c.args.actorRef = session.subjectId ∧ ∃ key, c.args.idempotencyKey = some key ∧
      FrontDoor.text i.idempotencyKey "Idempotency-Key" 8 256 = .ok key := by
  simp only [FrontDoor.accept, bind_eq_ok, pure_eq_ok] at h
  obtain ⟨_, -, _, -, actor, hactor, key, hkey, _, -, _, -, _, -, rfl⟩ := h
  simp only [FrontDoor.authorizeOperation, bind_eq_ok, pure_eq_ok, FrontDoor.orThrow_eq_ok] at hactor
  obtain ⟨_, hsubject, _, -, _, -, _, -, _, -, _, -, _, -, rfl⟩ := hactor
  exact ⟨hsubject.symm, key, rfl, hkey⟩

theorem acceptOperation_watched
    (hkeyed : (t.timeless cfg && resumes t.call.body) = false)
    (hi : Asks cfg declaration (ms t.purpose) t i) :
    Proposes D cfg declaration ms t
      (fun v u => t.About cfg v.operation.operationId u) (acceptOperation cfg t.call.session i) w := by
  refine watched_read proposalContract_kept (fun _ => True.intro) fun edge u _ => ?_
  refine watched_read proposalContract_kept (fun _ => True.intro) fun now u' _ => ?_
  cases haccept : FrontDoor.accept { cfg.rt with localEdge := edge } now t.call.session i with
  | error f => exact System.watched_throw
  | ok call =>
      refine watched_ask (q := .accept call) fun x _ _ => ?_
      refine ⟨⟨i, edge, now, hi, haccept⟩, fun e _ v hv => ?_⟩
      change (x.commit databaseFailure (storeAccept D e.statement call x.db)).1 = .ok v at hv
      change t.About cfg v.operation.operationId
        (x.commit databaseFailure (storeAccept D e.statement call x.db)).2
      cases hstore : storeAccept D e.statement call x.db with
      | error f =>
          rw [hstore] at hv
          cases hv
      | ok y =>
          rw [hstore] at hv
          cases hv
          obtain ⟨hactor, key, hkey, htext⟩ := accept_owner haccept
          obtain ⟨hmem, hactor', hkey'⟩ := storeAccept_owner hstore
          rw [hi.key] at htext
          rw [hkey] at hkey'
          unfold Proposing.About
          rw [if_neg (by rw [hkeyed]; decide)]
          exact ⟨y.2.operation, hmem, rfl, hactor.symm.trans hactor', by
            rw [htext, Option.some.inj hkey']⟩

theorem requireOwner_watched {p : Plan} :
    Proposes D cfg declaration ms t
      (fun n _ => assertModuleDeclaration p = .ok (n.catalogRevision, n.image)) (requireOwner p) w := by
  have hvalidate : Proposes D cfg declaration ms t
      (fun n _ => assertModuleDeclaration p = .ok (n.catalogRevision, n.image)) (validateModule p) w := by
    refine watched_compute fun x hx => ?_
    refine watched_read proposalContract_kept (fun _ => True.intro) fun _ _ _ => ?_
    exact watched_compute fun _ _ => watched_pure hx
  refine hvalidate.bind proposalContract_kept fun n u _ hn => ?_
  refine watched_read proposalContract_kept (fun _ => True.intro) fun _ _ _ => ?_
  exact watched_compute fun _ _ => watched_pure hn

theorem ensurePlanProposal_watched {p : ApprovalPlan} {reason : String}
    {source : Option Content} (hid : t.About cfg id w) :
    Proposes D cfg declaration ms t (fun _ _ => True)
      (ensurePlanProposal cfg p id reason source) w := by
  unfold ensurePlanProposal
  split
  · exact ensureArgocdVerificationProposal_watched hid
  · exact ensureProposal_watched hid

theorem storeGet_named {s : Statement} {session : FrontDoor.Session} {x : String}
    {db : Authority.Db} {o : Operation} (h : FrontDoor.storeGet s session x db = .ok (some o)) :
    castUuid x = some o.operationId := by
  have hdatabase : ∀ {α : Type} {y : Except SqlError α} {a : α},
      FrontDoor.fromDatabase y = .ok a → y = .ok a := by
    intro α y a hy
    cases y with
    | ok b => simpa [FrontDoor.fromDatabase] using hy
    | error f => cases hy
  obtain ⟨id, hid, hget⟩ := bind_eq_ok.mp h
  have hget := hdatabase hget
  simp only [FrontDoor.getOperation, bind_eq_ok, raiseIf_eq_ok, orRaise_eq_ok, pure_eq_ok] at hget
  obtain ⟨_, -, _, -, _, -, hfind⟩ := hget
  obtain ⟨hlookup, -⟩ := Option.filter_eq_some_iff.mp hfind
  rw [orRaise_eq_ok.mp (hdatabase hid)]
  exact (Table.lookup_eq_some.mp hlookup).2

theorem resume_watched (hresumes : (cfg.moduleOwner && resumes c.body) = true) :
    Proposes D cfg declaration ms (.propose c) (fun _ _ => True) (resume cfg c) w := by
  refine watched_compute fun _ _ => watched_compute fun x hx => ?_
  have hget : Proposes D cfg declaration ms (.propose c)
      (fun record _ => ∀ o, record = some o → castUuid x = some o.operationId)
      (await (.get c.session x)) w := by
    refine watched_ask (q := .get c.session x) fun u _ _ => ?_
    refine ⟨True.intro, fun e _ record hrecord o ho => ?_⟩
    simp only [reply] at hrecord
    split at hrecord
    next y hy =>
      cases hrecord
      rw [ho] at hy
      exact storeGet_named hy
    next => cases hrecord
  refine hget.bind proposalContract_kept fun record u _ hrecord => ?_
  by_cases hbound : record.any moduleBound = true
  · simp only [if_pos hbound]
    split <;> exact System.watched_throw
  · simp only [if_neg hbound]
    split
    next => exact System.watched_throw
    next o ho =>
      obtain ⟨hsome, -⟩ := Option.filter_eq_some_iff.mp ho
      have habout : ∀ u, (Proposing.propose c).About cfg o.operationId u := by
        intro u
        exact (if_pos hresumes).mpr ⟨x, hx, hrecord o hsome⟩
      refine watched_compute fun plan _ => ?_
      refine (requireOwner_watched.imp fun _ _ _ => True.intro).seq proposalContract_kept fun _ u' _ => ?_
      refine (ensurePlanProposal_watched (habout u')).seq proposalContract_kept fun git u'' _ => ?_
      have hreceipt : Proposes D cfg declaration ms (.propose c)
          (fun _ _ => True)
          (await (.recordProposal (proposalReceipt o.operationId git c.correlationId))) u'' :=
        watched_ask fun u' _ _ => ⟨⟨_, habout u', rfl⟩, fun _ _ _ _ => True.intro⟩
      exact hreceipt.seq proposalContract_kept fun _ _ _ => watched_pure True.intro

theorem propose_watched :
    Proposes D cfg declaration ms (.propose c) (fun _ _ => True) (propose cfg c) w := by
  unfold propose
  split
  · exact System.watched_throw
  split
  next hresumes => exact resume_watched hresumes
  next hresumes =>
  have hkeyed : ((Proposing.propose c).timeless cfg && resumes (Proposing.propose c).call.body) = false :=
    Bool.not_eq_true _ ▸ hresumes
  refine watched_compute fun p hp => watched_compute fun _ _ => ?_
  have hrest : ∀ (native : Option NativePlan) (u : World),
      (∀ n, native = some n → cfg.moduleOwner = true ∧
        assertModuleDeclaration (p.plan cfg) = .ok (n.catalogRevision, n.image)) →
      (native = none → cfg.moduleOwner = false) →
      Proposes D cfg declaration ms (.propose c) (fun _ _ => True) (do
          requireReady
          let now ← await .clock
          let v ← acceptOperation cfg c.session (proposalInput cfg c p native (isoText now))
          let submittedAt := if native.isSome then isoText (FrontDoor.instant v.operation.createdAt)
            else isoText now
          publish c v (if native.isSome then changeStatus v.operation.state else "authorized")
            (ensureProposal ⟨v.operation.operationId, p.consumerId, p.action, p.target, p.reason,
              cfg.encode (.object p.desiredState), submittedAt⟩)) u := by
    intro native u hsome hnone
    refine requireReady_watched.seq proposalContract_kept fun _ u _ => ?_
    have hclock : Proposes D cfg declaration ms (.propose c)
        (fun now _ => cfg.moduleOwner = true ∨ now = ms (Proposing.propose c).purpose)
        (await .clock) u := by
      refine watched_ask (q := .clock) fun u _ _ => ?_
      refine ⟨True.intro, fun e hallowed now hnow => ?_⟩
      cases hnow
      exact hallowed
    refine hclock.bind proposalContract_kept fun now u _ hnow => ?_
    have hasks : Asks cfg declaration (ms (Proposing.propose c).purpose) (.propose c)
        (proposalInput cfg c p native (isoText now)) := by
      cases native with
      | none =>
          rcases hnow with howner | rfl
          · rw [hnone rfl] at howner
            cases howner
          · exact .change (hnone rfl) hp
      | some n => exact .module (hsome n rfl).1 hp (hsome n rfl).2
    refine (acceptOperation_watched hkeyed hasks).bind proposalContract_kept fun v u _ habout => ?_
    exact publish_watched habout (ensureProposal_watched habout)
  by_cases howner : cfg.moduleOwner = true
  · have hnative : Proposes D cfg declaration ms (.propose c)
        (fun native _ => ∃ n, native = some n ∧
          assertModuleDeclaration (p.plan cfg) = .ok (n.catalogRevision, n.image))
        (some <$> requireOwner (p.plan cfg)) w :=
      requireOwner_watched.bind proposalContract_kept fun n _ _ hn => watched_pure ⟨n, rfl, hn⟩
    simp only [if_pos howner]
    refine hnative.bind proposalContract_kept fun native u _ hn => ?_
    obtain ⟨n, rfl, hn⟩ := hn
    rw [if_neg (by simp [howner])]
    exact hrest (some n) u (fun _ hm => by cases hm; exact ⟨howner, hn⟩) nofun
  · simp only [if_neg howner]
    rw [System.pure_bind, if_pos (by simpa using howner)]
    refine watched_read proposalContract_kept (fun _ => True.intro) fun ready u _ => ?_
    exact watched_compute fun _ _ => hrest none u nofun fun _ => by simpa using howner

theorem bootstrap_watched :
    Proposes D cfg declaration ms (.bootstrap c) (fun _ _ => True)
      (bootstrapArgocdVerification cfg declaration c) w := by
  refine watched_compute fun reason hreason => watched_compute fun _ _ => watched_compute fun _ _ => ?_
  have hstatus : ∀ u, Proposes D cfg declaration ms (.bootstrap c)
      (fun _ _ => True) (argocdVerificationStatus cfg) u := by
    intro u
    refine watched_compute fun _ _ => requireReady_watched.seq proposalContract_kept fun _ u _ => ?_
    refine watched_read proposalContract_kept (fun _ => True.intro) fun file u _ => ?_
    refine watched_read proposalContract_kept (fun _ => True.intro) fun revision u _ => ?_
    exact watched_compute fun _ _ => watched_pure True.intro
  refine (hstatus w).seq proposalContract_kept fun status u _ => ?_
  split
  · exact watched_pure True.intro
  refine watched_read proposalContract_kept (fun _ => True.intro) fun ready u _ => ?_
  refine watched_compute fun _ _ => ?_
  have hclock : Proposes D cfg declaration ms (.bootstrap c)
      (fun now _ => now = ms (Proposing.bootstrap c).purpose) (await .clock) u := by
    refine watched_ask (q := .clock) fun u _ _ => ?_
    refine ⟨True.intro, fun e hallowed now hnow => ?_⟩
    cases hnow
    exact hallowed.resolve_left nofun
  refine hclock.bind proposalContract_kept fun now u _ hnow => ?_
  subst hnow
  refine (acceptOperation_watched rfl (.bootstrap hreason)).bind proposalContract_kept
    fun v u _ habout => ?_
  exact publish_watched habout (ensureArgocdVerificationProposal_watched habout)

end

/-! ## Runs -/

/-- A call waits to open a pull request of a branch. -/
def Opens (s : Tasks Proposing) (b : String) : Prop :=
  ∃ t next, ⟨t, .ask (.createPull b) next⟩ ∈ s.tasks

/-- Calls that ask for the same read the clock in the same millisecond, unless their plan has no time
in it.  Nobody merges a pull request while a call waits to open one of its branch. -/
def Timely (cfg : Config) (ms : Purpose → Int) (m : System.Move Proposing Env Other)
    (s : Tasks Proposing) : Prop :=
  match m with
  | .step i e => ∀ t next, s.tasks[i]? = some ⟨t, .ask .clock next⟩ →
      t.timeless cfg = true ∨ e.now = ms t.purpose
  | .outside (.merge n _ _) => ∀ p, s.world.repo.pull n = some p → ¬ Opens s p.branch
  | _ => True

section

variable {D : Digest} {cfg : Config} {declaration : Value} {ms : Purpose → Int}

/-- What happens in a timely run is what the waiting calls rely on. -/
theorem Timely.relied {m : System.Move Proposing Env Other} {s : Tasks Proposing}
    (hs : s.Watchful (proposing D cfg declaration) (proposalContract cfg declaration ms))
    (hm : Timely cfg ms m s) :
    m.Relied (proposing D cfg declaration) (proposalContract cfg declaration ms) s := by
  cases m with
  | start => exact True.intro
  | crash => exact True.intro
  | step i e =>
      intro t q next hi
      constructor
      · cases q <;> first | exact hm t next hi | exact True.intro
      · intro j t' q' next' _ _
        refine ⟨(answer_later D cfg e q hs.world).1, fun b hq' hunmerged => ?_⟩
        have hneeds := hs.needs proposalContract_kept (List.mem_of_getElem? hi)
        change (answer D cfg e q s.world).2.repo.Unmerged b
        rcases answer_cases D cfg e q s.world with hsame | hreply
        · rw [hsame]
          exact hunmerged
        · rw [hreply]
          refine (reply_repo D cfg e q s.world).unmerged (fun n head hq => ?_) hunmerged
          rw [hq] at hneeds
          exact hneeds
  | outside x =>
      obtain ⟨hlater, hnumbered⟩ := x.later (D := D) hs.world
      refine ⟨hnumbered, hlater, fun j t q next _ hj => ⟨hlater, fun b hq hunmerged => ?_⟩⟩
      subst hq
      have hopens : Opens s b := ⟨t, next, List.mem_of_getElem? hj⟩
      change (x.change D s.world).repo.Unmerged b
      cases x with
      | database a => exact hunmerged
      | push b' c => exact hunmerged.of_pulls (Repository.addCommit_pulls _)
      | openPull b' =>
          simp only [Other.change]
          cases hcreate : s.world.repo.createPull b' with
          | none => exact hunmerged
          | some x => exact hunmerged.createPull hcreate
      | review n =>
          simp only [Other.change]
          cases hreview : s.world.repo.review n with
          | none => exact hunmerged
          | some r => exact hunmerged.review hreview
      | merge n head sha =>
          simp only [Other.change]
          cases hmerge : s.world.repo.merge n head sha with
          | none => exact hunmerged
          | some r =>
              refine hunmerged.merge hmerge fun p hp hbranch => hm p hp ?_
              rw [hbranch]
              exact hopens

theorem proposing_watched (t : Proposing) (w : World) :
    Proposes D cfg declaration ms t (fun _ _ => True)
      ((proposing D cfg declaration).program t) w := by
  cases t with
  | propose c => exact propose_watched
  | bootstrap c => exact bootstrap_watched

/-- At a place of a run a request of a call is answered. -/
def Place (D : Digest) (cfg : Config) (declaration : Value) (start : World)
    (moves : List (System.Move Proposing Env Other)) (n : Nat) (t : Proposing) (e : Env) (q : Ask)
    (w : World) : Prop :=
  Happens (System.Pool.perform (proposing D cfg declaration)) ⟨start, []⟩ moves n fun m s =>
    s.world = w ∧ ∃ i next, m = .step i e ∧ s.tasks[i]? = some ⟨t, .ask q next⟩

variable {start w w' : World} {moves : List (System.Move Proposing Env Other)} {n n' : Nat}
  {t t' : Proposing} {e e' : Env} {q q' : Ask}

/-- In a timely run a request finds what it needs, and later ones find what it left. -/
theorem Place.needs (hstart : start.repo.Numbered)
    (hmoves : Along (System.Pool.perform (proposing D cfg declaration)) (Timely cfg ms) moves ⟨start, []⟩)
    (h : Place D cfg declaration start moves n t e q w) :
    (proposalContract cfg declaration ms).needs t q w ∧ w.repo.Numbered ∧
      ∀ {n' t' e' q' w'}, n < n' → Place D cfg declaration start moves n' t' e' q' w' →
        (answer D cfg e q w).2.Later w' := by
  have hrun : ∀ {as : List (System.Move Proposing Env Other)} {s : Tasks Proposing},
      s.Watchful (proposing D cfg declaration) (proposalContract cfg declaration ms) →
      Along (System.Pool.perform (proposing D cfg declaration)) (Timely cfg ms) as s →
      (System.run (System.Pool.perform (proposing D cfg declaration)) as s).Watchful
          (proposing D cfg declaration) (proposalContract cfg declaration ms) ∧
        s.world.Later (System.run (System.Pool.perform (proposing D cfg declaration)) as s).world :=
    fun hs hms => hs.run proposalContract_kept (fun t w _ => proposing_watched t w)
      (fun _ _ hs hm => Timely.relied hs hm) hms
  have hfirst : (⟨start, []⟩ : Tasks Proposing).Watchful (proposing D cfg declaration)
      (proposalContract cfg declaration ms) := ⟨hstart, fun _ htask => absurd htask List.not_mem_nil⟩
  obtain ⟨a, s, ⟨hstep, hbefore⟩, rfl, i, next, rfl, hi⟩ := h
  have hwatchful := (hrun hfirst (hmoves.between (Nat.le_refl n)).1).1
  rw [hbefore] at hwatchful
  refine ⟨hwatchful.needs proposalContract_kept (List.mem_of_getElem? hi), hwatchful.world,
    fun hlt h' => ?_⟩
  obtain ⟨a', s', ⟨-, hbefore'⟩, rfl, -⟩ := h'
  -- the run from the answer to the later request
  obtain ⟨hshort, hrest⟩ := hmoves.between (Nat.succ_le_of_lt hlt)
  have hlater := (hrun (hrun hfirst hshort).1 hrest).2
  rw [← System.run_take_of_le _ (Nat.succ_le_of_lt hlt), hbefore', System.run_take_succ hstep, hbefore,
    System.Pool.step_eq hi] at hlater
  exact hlater

/-! ## What calls make -/

inductive Effect where
  | operation
  | branch
  | pull
  | receipt

inductive Makes (D : Digest) (e : Env) (w : World) : Ask → Effect → Prop where
  | operation {c : AcceptCall} {db : Authority.Db} {o : Operation} :
      storeAccept D e.statement c w.db = .ok (db, ⟨o, false⟩) → Makes D e w (.accept c) .operation
  | branch {f : NewFile} {r : Repository} :
      w.repo.createFile f.branch f.path f.content f.previous e.sha = some r →
      Makes D e w (.createFile f) .branch
  | pull {b : String} {x : Repository × Pull} :
      w.repo.createPull b = some x → Makes D e w (.createPull b) .pull
  | receipt {p : Authority.GiteaArgs} {db : Authority.Db} {x : Jsonb} :
      Authority.recordGiteaProposal D e.statement p w.db = .ok (db, ⟨x, false⟩) →
      Makes D e w (.recordProposal p) .receipt

def Fate.arrives : Fate → Bool
  | .refused _ => false
  | _ => true

theorem answer_arrives (harrives : e.fate.arrives = true) :
    (answer D cfg e q w).2 = (reply D cfg e q w).2 := by
  unfold answer
  split
  next => rfl
  next hfate =>
    rw [hfate] at harrives
    cases harrives
  next => rfl

/-- An acceptance, and a later call that asks for the same. -/
theorem Place.again {c c' : AcceptCall} {db : Authority.Db} {v : Authority.Accepted}
    (hstart : start.repo.Numbered)
    (hmoves : Along (System.Pool.perform (proposing D cfg declaration)) (Timely cfg ms) moves ⟨start, []⟩)
    (hlt : n < n') (h : Place D cfg declaration start moves n t e (.accept c) w)
    (harrives : e.fate.arrives = true) (hstore : storeAccept D e.statement c w.db = .ok (db, v))
    (h' : Place D cfg declaration start moves n' t' e' (.accept c') w')
    (ht : t'.purpose = t.purpose) :
    ∃ o, o.operationId = v.operation.operationId ∧
      Authority.ReplayOr w'.db o (storeAccept D e'.statement c' w'.db) := by
  obtain ⟨⟨i, edge, now, hasks, haccept⟩, -, hlater⟩ := h.needs hstart hmoves
  obtain ⟨⟨i', edge', now', hasks', haccept'⟩, -⟩ := h'.needs hstart hmoves
  rw [ht] at hasks'
  obtain ⟨hsame, haction⟩ := hasks.same hasks' ht
  have halike := accept_alike (congrArg Purpose.actorRef ht) hsame haction haccept haccept'
  have hdb := (hlater hlt h').db
  rw [answer_arrives harrives] at hdb
  change (w.commit databaseFailure (storeAccept D e.statement c w.db)).2.db.Later w'.db at hdb
  rw [hstore] at hdb
  exact storeAccept_again hstore halike hdb

/-- What a call has made, no later call makes that asks for the same. -/
theorem Place.once {k : Effect} (hstart : start.repo.Numbered)
    (hmoves : Along (System.Pool.perform (proposing D cfg declaration)) (Timely cfg ms) moves ⟨start, []⟩)
    (hlt : n < n') (h : Place D cfg declaration start moves n t e q w)
    (harrives : e.fate.arrives = true) (hmakes : Makes D e w q k)
    (h' : Place D cfg declaration start moves n' t' e' q' w') (hmakes' : Makes D e' w' q' k)
    (ht : t'.purpose = t.purpose) : False := by
  obtain ⟨hneeds, hnumbered, hlater⟩ := h.needs hstart hmoves
  obtain ⟨hneeds', -⟩ := h'.needs hstart hmoves
  have hrest := hlater hlt h'
  have hw := (answer_later D cfg e q hnumbered).1.trans hrest
  rw [answer_arrives harrives] at hrest
  cases hmakes with
  | operation hstore =>
      cases hmakes' with
      | operation hstore' =>
          obtain ⟨o, -, hreplay⟩ := h.again hstart hmoves hlt harrives hstore h' ht
          rw [hstore'] at hreplay
          cases hreplay
  | @branch f r hcreate =>
      cases hmakes' with
      | @branch f' r' hcreate' =>
          obtain ⟨id, habout, hbranch⟩ := hneeds
          obtain ⟨id', habout', hbranch'⟩ := hneeds'
          have hid := (habout.later hw).unique ht habout'
          have hfree := (Repository.createFile_eq_some hcreate').1
          have hmade : (r.head f.branch).isSome := by
            rw [(Repository.createFile_eq_some hcreate).2.2.2, Repository.head_setBranch, if_pos rfl]
            rfl
          change (w.write 422 ((w.repo.createFile f.branch f.path f.content f.previous e.sha).map
            fun r => (r, e.sha))).2.Later w' at hrest
          rw [hcreate] at hrest
          have hstill := hrest.repo.branches f.branch hmade
          rw [hbranch, hid, ← hbranch', hfree] at hstill
          cases hstill
  | @pull b x hcreate =>
      cases hmakes' with
      | @pull b' x' hcreate' =>
          obtain ⟨⟨id, habout, hbranch⟩, -⟩ := hneeds
          obtain ⟨⟨id', habout', hbranch'⟩, hunmerged⟩ := hneeds'
          have hid := (habout.later hw).unique ht habout'
          obtain ⟨-, hx, hopened, -⟩ := Repository.createPull_eq_some hcreate
          change (w.write 409 ((w.repo.createPull b).map fun x => (x.1, x.2.number))).2.Later w' at hrest
          rw [hcreate] at hrest
          obtain ⟨p, hp, -, hpb, -⟩ := hrest.repo.pulls x.2 (by
            change x.2 ∈ x.1.pulls
            rw [hx]
            exact List.mem_append_right _ (List.mem_singleton_self _))
          have hpb' : p.branch = b' := by rw [hpb, hopened, hbranch, hid, hbranch']
          exact (Repository.createPull_eq_some hcreate').1 p hp hpb' (hunmerged p hp hpb')
  | @receipt p db x hrecord =>
      cases hmakes' with
      | @receipt p' db' x' hrecord' =>
          obtain ⟨id, habout, hp⟩ := hneeds
          obtain ⟨id', habout', hp'⟩ := hneeds'
          have hid := (habout.later hw).unique ht habout'
          obtain ⟨i, hi, -, hwritten⟩ := Authority.recordGiteaProposal_first hrecord
          obtain ⟨i', hi', hunwritten, -⟩ := Authority.recordGiteaProposal_first hrecord'
          cases hp.symm.trans hi
          cases hp'.symm.trans hi'
          change (w.commit databaseFailure
            (Authority.recordGiteaProposal D e.statement p w.db)).2.Later w' at hrest
          rw [hrecord] at hrest
          subst hid
          exact hunwritten (hwritten.later hrest.db)

/-- **Idempotent proposals.**  In every run in which calls that ask for the same read the clock in the
same millisecond, unless they are for a Git-reviewed module, and no pull request is merged while a call
waits to open one of its branch, whatever fails after whichever step: once a call was accepted, every
later acceptance of a call that asks for the same is a replay of the same operation or fails for another
reason than its key; and of an operation, a branch, a pull request and a receipt, the calls that ask for
the same make at most one each. -/
theorem proposals_idempotent (D : Digest) (cfg : Config) (declaration : Value) (ms : Purpose → Int)
    (start : World) (hstart : start.repo.Numbered) (moves : List (System.Move Proposing Env Other))
    (hmoves : Along (System.Pool.perform (proposing D cfg declaration)) (Timely cfg ms) moves ⟨start, []⟩) :
    (∀ n n' t t' e e' c c' w w' db v, n < n' →
      Place D cfg declaration start moves n t e (.accept c) w → e.fate.arrives = true →
      storeAccept D e.statement c w.db = .ok (db, v) →
      Place D cfg declaration start moves n' t' e' (.accept c') w' → t'.purpose = t.purpose →
      ∃ o, o.operationId = v.operation.operationId ∧
        Authority.ReplayOr w'.db o (storeAccept D e'.statement c' w'.db)) ∧
    (∀ k n n' t t' e e' q q' w w',
      Place D cfg declaration start moves n t e q w → e.fate.arrives = true → Makes D e w q k →
      Place D cfg declaration start moves n' t' e' q' w' → e'.fate.arrives = true →
      Makes D e' w' q' k → t'.purpose = t.purpose → n = n') := by
  refine ⟨fun n n' t t' e e' c c' w w' db v hlt h harrives hstore h' ht =>
    h.again hstart hmoves hlt harrives hstore h' ht, ?_⟩
  intro k n n' t t' e e' q q' w w' h harrives hmakes h' harrives' hmakes' ht
  rcases Nat.lt_trichotomy n n' with hlt | rfl | hgt
  · exact (h.once hstart hmoves hlt harrives hmakes h' hmakes' ht).elim
  · rfl
  · exact (h'.once hstart hmoves hgt harrives' hmakes' h hmakes ht.symm).elim

end

/-! ## A run -/

namespace Demo

open Authority.Demo (alice digest site second noon commit)

/-- Repositories of declarations that need no owner of modules. -/
def config : Config where
  rt := { safeInteger := fun _ => none, payloadDigest := fun _ => Authority.Demo.otherDigest,
          format := fun _ => by decide, localEdge := false }
  encode _ := .object [("replicas", .ofInt 2)]
  moduleOwner := false
  repository := "opensphere/platform-declarations"
  defaultBranch := "main"

/-- Alice may change what Git declares. -/
def session : FrontDoor.Session :=
  ⟨some ⟨6⟩, some alice, FrontDoor.instant noon + 3600000, none, true, ["console.git.change"], 3, 0, .aal2⟩

def scaling : Call where
  session := session
  body := .ofList [("consumerId", .string "console.core"), ("action", .string "configure"),
    ("target", .string "console"), ("desiredState", .ofList [("replicas", .number "2")]),
    ("reason", .string "scale console safely")]
  idempotencyKey := .string "scale-0001"
  correlationId := .string "scale-0001"

/-- The database of the site, and an empty repository. -/
def world : World := ⟨Authority.Db.fresh site, ⟨[], commit, [], [], []⟩⟩

/-- What is given with an answer, some seconds after noon by the clock of the database. -/
def env (k : Nat) (now : Int) : Env :=
  ⟨.answered, second k, now, FrontDoor.instant (second k).now, false, true, "", none, commit⟩

/-- A call, and the same call once more. -/
def twice (now now' : Int) : List (System.Move Proposing Env Other) :=
  .start (.propose scaling) :: (List.range 12).map (fun k => .step 0 (env k now)) ++
    .start (.propose scaling) :: (List.range 6).map fun k => .step 1 (env (20 + k) now')

def upTo (n : Nat) (now now' : Int) : Tasks Proposing :=
  System.run (System.Pool.perform (proposing digest config .null)) ((twice now now').take n) ⟨world, []⟩

def accepting (s : Tasks Proposing) (i : Nat) : Option AcceptCall :=
  match s.tasks[i]? with
  | some ⟨.propose _, .ask (.accept c) _⟩ => some c
  | _ => none

/-- What the database makes of the acceptance that a call waits for. -/
def accepted (s : Tasks Proposing) (i k : Nat) : Option (Except SqlError (Authority.Db × Authority.Accepted)) :=
  (accepting s i).map fun c => storeAccept digest (second k) c s.world.db

theorem accepting_eq_some {s : Tasks Proposing} {i : Nat} {c : AcceptCall} (h : accepting s i = some c) :
    ∃ t next, s.tasks[i]? = some ⟨t, .ask (.accept c) next⟩ := by
  unfold accepting at h
  split at h
  next c' next hi =>
    cases h
    exact ⟨_, next, hi⟩
  next => cases h

theorem tag_upTo (n : Nat) (now now' : Int) :
    ∀ task ∈ (upTo n now now').tasks, task.tag = .propose scaling := by
  have hmoves : ∀ m ∈ (twice now now').take n, ∀ t, m = .start t → t = .propose scaling := by
    intro m hm t ht
    subst ht
    simpa [twice] using List.mem_of_mem_take hm
  refine Along.invariant (C := fun m _ => ∀ t, m = .start t → t = .propose scaling)
    (I := fun s : Tasks Proposing => ∀ task ∈ s.tasks, task.tag = .propose scaling) ?_
    (Along.of_forall hmoves _) fun _ htask => absurd htask List.not_mem_nil
  intro m s hs hm
  generalize hs' : s.perform (proposing digest config .null) m = s'
  have hcases := s.perform_cases (proposing digest config .null) m
  rw [hs'] at hcases
  cases hcases with
  | idle => exact hs
  | start t =>
      intro task htask
      rcases List.mem_append.mp htask with hold | hnew
      · exact hs task hold
      · rw [List.mem_singleton.mp hnew]
        exact hm t rfl
  | step i e t q next hi =>
      intro task htask
      rcases System.mem_set_cases htask with rfl | hold
      · exact hs ⟨t, .ask q next⟩ (List.mem_of_getElem? hi)
      · exact hs task hold
  | crash i => exact fun task htask => hs task (List.mem_of_mem_eraseIdx htask)
  | outside x => exact hs

theorem place {n i k : Nat} {now' at' : Int} {x : Except SqlError (Authority.Db × Authority.Accepted)}
    (hstep : (twice now now')[n]? = some (.step i (env k at')))
    (hx : accepted (upTo n now now') i k = some x) :
    ∃ c, Place digest config .null world (twice now now') n (.propose scaling) (env k at') (.accept c)
        (upTo n now now').world ∧
      storeAccept digest (second k) c (upTo n now now').world.db = x := by
  obtain ⟨c, hc, hstore⟩ := Option.map_eq_some_iff.mp hx
  obtain ⟨t, next, hi⟩ := accepting_eq_some hc
  have htag : t = .propose scaling := tag_upTo n now now' _ (List.mem_of_getElem? hi)
  subst htag
  exact ⟨c, ⟨_, _, ⟨hstep, rfl⟩, rfl, i, next, rfl, hi⟩, hstore⟩

theorem timely (now : Int) :
    Along (System.Pool.perform (proposing digest config .null)) (Timely config fun _ => now)
      (twice now now) ⟨world, []⟩ := by
  have hmoves : ∀ m ∈ twice now now, ∀ i e, m = .step i e → e.now = now := by
    intro m hm i e he
    subst he
    simp only [twice, List.mem_append, List.mem_cons, List.mem_map, reduceCtorEq, false_or,
      System.Move.step.injEq] at hm
    rcases hm with ⟨k, -, -, rfl⟩ | ⟨k, -, -, rfl⟩ <;> rfl
  have houtside : ∀ m ∈ twice now now, ∀ x, m ≠ .outside x := by
    intro m hm x hx
    subst hx
    simp [twice] at hm
  refine Along.of_get fun n m hn => ?_
  have hmem := List.mem_of_getElem? hn
  cases m with
  | start => exact True.intro
  | crash => exact True.intro
  | step i e => exact fun _ _ _ => .inr (hmoves _ hmem i e rfl)
  | outside x => exact absurd rfl (houtside _ hmem x)

/-- What becomes of the acceptances, in one millisecond and in two. -/
theorem upTo_accepted :
    ((accepted (upTo 6 0 0) 0 5).any (fun x => x.isOk) = true ∧
      (accepted (upTo 19 0 0) 1 25).any (fun x => x.isOk) = true) ∧
    (accepted (upTo 6 0 1) 0 5).any (fun x => x.isOk) = true ∧
      (accepted (upTo 19 0 1) 1 25).any
        (fun x => decide (raised x = some "IdempotencyMismatch")) = true := by
  decide +kernel

end Demo

/-- Alice proposes a change twice in one millisecond, and the second call is a replay. -/
theorem scaling_replayed : ∃ c c' w' db v o,
    storeAccept Authority.Demo.digest (Authority.Demo.second 5) c (Demo.upTo 6 0 0).world.db = .ok (db, v) ∧
      Place Authority.Demo.digest Demo.config .null Demo.world (Demo.twice 0 0) 19 (.propose Demo.scaling)
        (Demo.env 25 0) (.accept c') w' ∧
      o.operationId = v.operation.operationId ∧
      storeAccept Authority.Demo.digest (Authority.Demo.second 25) c' w'.db = .ok (w'.db, ⟨o, true⟩) := by
  obtain ⟨hfirst, hsecond⟩ := Demo.upTo_accepted.1
  obtain ⟨x, hx, hok⟩ := (Option.any_eq_true _ _).mp hfirst
  obtain ⟨x', hx', hok'⟩ := (Option.any_eq_true _ _).mp hsecond
  obtain ⟨⟨db, v⟩, rfl⟩ := isOk_iff.mp hok
  obtain ⟨c, hplace, hstore⟩ := Demo.place (by rfl) hx
  obtain ⟨c', hplace', hstore'⟩ := Demo.place (by rfl) hx'
  obtain ⟨hagain, -⟩ := proposals_idempotent Authority.Demo.digest Demo.config .null (fun _ => 0) Demo.world
    List.nodup_nil (Demo.twice 0 0) (Demo.timely 0)
  obtain ⟨o, hid, hreplay⟩ := hagain 6 19 _ _ _ _ c c' _ _ db v (by decide) hplace rfl hstore hplace' rfl
  refine ⟨c, c', _, db, v, o, hstore, hplace', hid, ?_⟩
  change Authority.ReplayOr _ o (storeAccept _ (Authority.Demo.second 25) c' _) at hreplay
  rw [hstore'] at hreplay ⊢
  cases hreplay with
  | replay => rfl
  | fails => cases hok'

/-- Alice proposes a change again a millisecond later, and the second call is refused. -/
theorem scaling_again_refused : ∃ c c' w w' db v,
    Place Authority.Demo.digest Demo.config .null Demo.world (Demo.twice 0 1) 6 (.propose Demo.scaling)
        (Demo.env 5 0) (.accept c) w ∧
      storeAccept Authority.Demo.digest (Authority.Demo.second 5) c w.db = .ok (db, v) ∧
      Place Authority.Demo.digest Demo.config .null Demo.world (Demo.twice 0 1) 19 (.propose Demo.scaling)
        (Demo.env 25 1) (.accept c') w' ∧
      raised (storeAccept Authority.Demo.digest (Authority.Demo.second 25) c' w'.db) =
        some "IdempotencyMismatch" := by
  obtain ⟨hfirst, hsecond⟩ := Demo.upTo_accepted.2
  obtain ⟨x, hx, hok⟩ := (Option.any_eq_true _ _).mp hfirst
  obtain ⟨x', hx', hraised⟩ := (Option.any_eq_true _ _).mp hsecond
  obtain ⟨⟨db, v⟩, rfl⟩ := isOk_iff.mp hok
  obtain ⟨c, hplace, hstore⟩ := Demo.place (by rfl) hx
  obtain ⟨c', hplace', hstore'⟩ := Demo.place (by rfl) hx'
  subst hstore'
  exact ⟨c, c', _, _, db, v, hplace, hstore, hplace', of_decide_eq_true hraised⟩

end PlatformChange
