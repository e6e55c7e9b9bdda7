import OpenSphere.Osdst.Server

/-!
# Answers of the dialogue state server

A request is answered with one response exactly if the other system that fails first on its way, if
one does, throws an error whose `code` is a status.  What the server throws itself is one.
-/

open Sql (chars)
open Js (Value)

namespace Osdst

variable {E : Outside} {method : String} {α : Type}

/-- One response was written, with a status between 100 and 599, and the handler did not throw. -/
def Exchange.Proper (x : Exchange) : Prop :=
  x.thrown = false ∧ ∃ r, x.responses = [r] ∧ 100 ≤ r.status ∧ r.status ≤ 599

def Answerable (c : Code) : Prop :=
  100 ≤ toInt32 (statusNumber c) ∧ toInt32 (statusNumber c) ≤ 599

/-! ## The way of a request -/

/-- The failure of a system that is asked, or what is met after it.  `outside` is false where it is
the server that fails. -/
def meet (outside : Bool) (x : Except Raised α) (next : α → Option Raised) : Option Raised :=
  match x with
  | .ok a => next a
  | .error e => if outside then some e else none

/-- The failure of the stream, if it is not the server that refuses the body. -/
def meetBody (E : Outside) (next : Value → Option Raised) : Option Raised :=
  match readBody E with
  | .ok body => next body
  | .error _ => if (readPieces none [] E.pieces).toBool then E.streamError else none

def meetStore (E : Outside) (call : StoreCall) : Option Raised :=
  meet true (E.store call) fun _ => none

/-- The failure that the request of an actor meets first. -/
def metFor (E : Outside) (actor : Actor) : Endpoint → Option Raised
  | .list => meetStore E .list
  | .get id => meetStore E (.get id)
  | .update id => meetBody E fun body => meetStore E (.update id body)
  | .remove id => meetStore E (.remove id)
  | .projection id => meetStore E (.dialogueContext id)
  | .begin => meetBody E fun body => meetStore E (.beginTurn body)
  | .complete => meetBody E fun body => meet false (member body "response") fun response =>
      meet true (E.transition body) fun transition =>
        meetStore E (.completeTurn (body.get "turn") response transition)
  | .fail => meetBody E fun body => meet false (member body "turn") fun turn =>
      meetStore E (.failTurn turn)
  | .heartbeat => meetBody E fun body => meet false (member body "turn") fun turn =>
      meetStore E (.heartbeatTurn turn)
  | .recover conversation turn =>
      meet false (requireAdminAal2 E.adminGroup actor) fun _ => meetBody E fun body =>
        meet false (member body "reason") fun reason =>
        meet false (trimmedText reason) fun reason =>
        meet false (member body "ownerId") fun ownerId =>
        meet false (trimmedText ownerId) fun ownerId =>
          if Js.length reason < 8 ∨ 500 < Js.length reason ∨ E.maintenance = false then none
          else meetStore E (.recoverTurn conversation turn ownerId reason)
  | _ => none

/-- The failure of another system that a request meets first. -/
def met (E : Outside) (method : String) : Option Raised :=
  meet true E.url fun pathname =>
    match endpoint method pathname with
    | .healthz => none
    | .metrics => none
    | .readyz => meet true E.readiness fun _ => none
    | .status => none
    | e => meet false (E.identity.mapError IdentityFault.raised) fun actor =>
        meet false (requireChatUse actor) fun _ => metFor E actor e

/-! ## Statuses -/

theorem toInt32_natCast {n : ℕ} (h : n < 2 ^ 31) : toInt32 (some n) = n := by
  rw [toInt32, Rat.num_natCast, Rat.den_natCast, Nat.cast_one, Int.tdiv_one]
  exact Int.bmod_eq_of_le (by omega) (by omega)

theorem answerable_number {n : ℕ} (h : 100 ≤ n) (h' : n ≤ 599) : Answerable (.number n) := by
  have hstatus : toInt32 (statusNumber (.number n)) = n := by
    rw [statusNumber, if_neg (by omega)]
    exact toInt32_natCast (by omega)
  rw [Answerable, hstatus]
  omega

theorem answerable_absent : Answerable .absent := by
  have hstatus : toInt32 (statusNumber .absent) = (500 : ℕ) := toInt32_natCast (by norm_num)
  rw [Answerable, hstatus]
  omega

theorem json_eq_ok {n : ℕ} {body : Body} (h : 100 ≤ n) (h' : n ≤ 599) :
    json (some n) body = .ok ⟨n, body⟩ := by
  rw [json, toInt32_natCast (by omega), if_pos (by omega)]

/-- The handler writes one response with a status exactly for such codes. -/
theorem handled_iff {e : Raised} :
    (Exchange.Proper (match json (statusNumber e.code)
        (.failed e.message e.errorCode e.retryAfterSeconds) with
      | .ok r => ⟨[r], false⟩
      | .error _ => ⟨[], true⟩)) ↔ Answerable e.code := by
  unfold json
  split_ifs with h
  · constructor
    · rintro ⟨-, r, hr, hlo, hhi⟩
      cases hr
      exact ⟨hlo, hhi⟩
    · rintro ⟨hlo, hhi⟩
      exact ⟨rfl, _, rfl, hlo, hhi⟩
  · constructor
    · rintro ⟨hthrown, -⟩
      cases hthrown
    · rintro ⟨hlo, hhi⟩
      exact absurd ⟨hlo, by omega⟩ h

/-! ## What is thrown -/

/-- What answers a request throws what is met, and else only what is answered. -/
structure Accounts (x : Except Raised Response) (m : Option Raised) : Prop where
  met : ∀ e, m = some e → x = .error e
  own : m = none → ∀ e, x = .error e → Answerable e.code
  status : ∀ r, x = .ok r → 100 ≤ r.status ∧ r.status ≤ 599

theorem accounts_own {e : Raised} (h : Answerable e.code) : Accounts (.error e) none := by
  refine ⟨nofun, fun _ e' he' => ?_, nofun⟩
  cases he'
  exact h

theorem accounts_met {e : Raised} : Accounts (.error e) (some e) := by
  refine ⟨fun e' he' => ?_, nofun, nofun⟩
  cases he'
  rfl

theorem accounts_json {n : ℕ} {body : Body} (h : 100 ≤ n) (h' : n ≤ 599) :
    Accounts (json (some n) body) none := by
  rw [json_eq_ok h h']
  refine ⟨nofun, nofun, fun r hr => ?_⟩
  cases hr
  dsimp only
  omega

theorem Accounts.outside {x : Except Raised α} {f : α → Except Raised Response}
    {n : α → Option Raised}
    (h : ∀ a, Accounts (f a) (n a)) : Accounts (x >>= f) (meet true x n) := by
  cases x with
  | ok a => exact h a
  | error e => exact accounts_met

theorem Accounts.inside {x : Except Raised α} {f : α → Except Raised Response}
    {n : α → Option Raised}
    (hx : ∀ e, x = .error e → Answerable e.code) (h : ∀ a, Accounts (f a) (n a)) :
    Accounts (x >>= f) (meet false x n) := by
  cases x with
  | ok a => exact h a
  | error e => exact accounts_own (hx e rfl)

theorem readPieces_cases (streamError : Option Raised) :
    ∀ (pieces : List (List UInt8)) (read : List UInt8),
    (∃ octets, readPieces none read pieces = .ok octets ∧
      readPieces streamError read pieces = streamError.elim (.ok octets) .error) ∨
    ∃ e, readPieces none read pieces = .error e ∧ readPieces streamError read pieces = .error e ∧
      Answerable e.code := by
  intro pieces
  induction pieces with
  | nil =>
      intro read
      refine .inl ⟨read, rfl, ?_⟩
      cases streamError <;> rfl
  | cons piece pieces ih =>
      intro read
      rw [readPieces, readPieces]
      split_ifs
      · exact .inr ⟨_, rfl, rfl, answerable_number (by norm_num) (by norm_num)⟩
      · exact ih _

theorem Accounts.body {f : Value → Except Raised Response} {n : Value → Option Raised}
    (h : ∀ body, Accounts (f body) (n body)) : Accounts (readBody E >>= f) (meetBody E n) := by
  unfold meetBody
  cases hbody : readBody E with
  | ok body => exact h body
  | error e =>
      unfold readBody at hbody
      rcases readPieces_cases E.streamError E.pieces [] with
        ⟨octets, hread, hstream⟩ | ⟨e', hread, hstream, he'⟩
      · rw [hread]
        rw [hstream] at hbody
        cases hE : E.streamError with
        | some e' =>
            rw [hE] at hbody
            cases hbody
            exact accounts_met
        | none =>
            rw [hE] at hbody
            simp only [Option.elim, bind, Except.bind] at hbody
            split_ifs at hbody
            · cases hbody
            · split at hbody
              · cases hbody
              · cases hbody
                exact accounts_own (answerable_number (by norm_num) (by norm_num))
      · rw [hread]
        rw [hstream] at hbody
        cases hbody
        exact accounts_own he'

theorem accounts_answerWith (call : StoreCall) : Accounts (answerWith E call) (meetStore E call) :=
  .outside fun _ => accounts_json (n := 200) (by norm_num) (by norm_num)

theorem member_own (body : Value) (name : String) :
    ∀ e, member body name = .error e → Answerable e.code := by
  intro e h
  unfold member at h
  split_ifs at h
  cases h
  exact answerable_absent

theorem trimmedText_own (x : Value) : ∀ e, trimmedText x = .error e → Answerable e.code := by
  intro e h
  unfold trimmedText at h
  split at h
  · cases h
  · cases h
    exact answerable_absent

theorem requireAdminAal2_own (group : String) (actor : Actor) :
    ∀ e, requireAdminAal2 group actor = .error e → Answerable e.code := by
  intro e h
  unfold requireAdminAal2 at h
  split_ifs at h
  · cases h
    exact answerable_number (by norm_num) (by norm_num)
  · cases h
    exact answerable_number (by norm_num) (by norm_num)

theorem requireChatUse_own (actor : Actor) :
    ∀ e, requireChatUse actor = .error e → Answerable e.code := by
  intro e h
  unfold requireChatUse at h
  split_ifs at h
  cases h
  exact answerable_number (by norm_num) (by norm_num)

/-- Whatever the identity authority does, `verifyActor` throws a status. -/
theorem identity_own (x : Except IdentityFault Actor) :
    ∀ e, x.mapError IdentityFault.raised = .error e → Answerable e.code := by
  intro e h
  cases x with
  | ok actor => cases h
  | error fault =>
      cases h
      cases fault with
      | unconvertible message => exact answerable_absent
      | rejected status =>
          show Answerable (.number (if status = 401 ∨ status = 403 then status else 503))
          split_ifs with hstatus
          · exact answerable_number (by omega) (by omega)
          · exact answerable_number (by norm_num) (by norm_num)
      | _ => exact answerable_number (by norm_num) (by norm_num)

theorem accounts_recover (actor : Actor) (conversation turn : String) :
    Accounts (recover E actor conversation turn) (metFor E actor (.recover conversation turn)) := by
  refine .inside (requireAdminAal2_own _ _) fun _ => .body fun body =>
    .inside (member_own _ _) fun reason => .inside (trimmedText_own _) fun reason =>
    .inside (member_own _ _) fun ownerId => .inside (trimmedText_own _) fun ownerId => ?_
  by_cases hreason : Js.length reason < 8 ∨ 500 < Js.length reason
  · simp only [hreason, ← or_assoc, true_or, if_true]
    exact accounts_own (answerable_number (by norm_num) (by norm_num))
  · cases hmaintenance : E.maintenance with
    | false =>
        simp only [hreason, or_true, if_false, if_true, Bool.not_false]
        exact accounts_own (answerable_number (by norm_num) (by norm_num))
    | true =>
        simp only [hreason, if_false, ← or_assoc, Bool.not_true, Bool.true_eq_false, or_false,
          Bool.false_eq_true]
        exact accounts_answerWith _

theorem accounts_routeFor (actor : Actor) (e : Endpoint) :
    Accounts (routeFor E actor e) (metFor E actor e) := by
  cases e with
  | update id | begin => exact .body fun _ => accounts_answerWith _
  | complete =>
      exact .body fun _ => .inside (member_own _ _) fun _ => .outside fun _ => accounts_answerWith _
  | fail | heartbeat => exact .body fun _ => .inside (member_own _ _) fun _ => accounts_answerWith _
  | recover conversation turn => exact accounts_recover actor conversation turn
  | list | get id | remove id | projection id => exact accounts_answerWith _
  | _ => exact accounts_json (n := 404) (by norm_num) (by norm_num)

theorem accounts_route : Accounts (route E method) (met E method) := by
  refine .outside fun pathname => ?_
  cases endpoint method pathname with
  | healthz | metrics => exact accounts_json (n := 200) (by norm_num) (by norm_num)
  | readyz =>
      refine .outside fun ready => ?_
      dsimp only
      split_ifs
      · exact accounts_json (n := 200) (by norm_num) (by norm_num)
      · exact accounts_json (n := 503) (by norm_num) (by norm_num)
  | status =>
      dsimp only
      split_ifs
      · exact accounts_json (n := 200) (by norm_num) (by norm_num)
      · exact accounts_json (n := 503) (by norm_num) (by norm_num)
  | _ => exact .inside (identity_own _) fun actor => .inside (requireChatUse_own actor) fun _ =>
      accounts_routeFor actor _

/-- A request is answered with one response, whose status is between 100 and 599, and the handler
does not throw, exactly if the system that fails first on its way, if one does, throws a code that
is a status. -/
theorem answered_iff (E : Outside) (method : String) :
    (serve E method).Proper ↔ ∀ e, met E method = some e → Answerable e.code := by
  have haccounts : Accounts (route E method) (met E method) := accounts_route
  unfold serve
  cases hroute : route E method with
  | ok r =>
      obtain ⟨hlo, hhi⟩ := haccounts.status r hroute
      refine iff_of_true ⟨rfl, r, rfl, hlo, hhi⟩ fun e he => ?_
      cases hroute.symm.trans (haccounts.met e he)
  | error e =>
      refine handled_iff.trans ⟨fun h e' he' => ?_, fun h => ?_⟩
      · cases hroute.symm.trans (haccounts.met e' he')
        exact h
      · cases hmet : met E method with
        | none => exact haccounts.own hmet e hroute
        | some e' =>
            cases hroute.symm.trans (haccounts.met e' hmet)
            exact h e hmet

namespace Demo

def outside : Outside where
  url := .error ⟨.text "ERR_INVALID_URL", "Invalid URL", none, none⟩
  identity := .error .caller
  readiness := .ok true
  maintenanceReady := true
  maintenance := false
  adminGroup := "console-admins"
  pieces := []
  streamError := none
  parse _ := none
  transition _ := .ok .null
  store _ := .ok .null

end Demo

theorem unanswered : serve Demo.outside "GET" = ⟨[], true⟩ ∧
    ¬ (serve Demo.outside "GET").Proper := by
  have hstatus : statusNumber (.text "ERR_INVALID_URL") = none := by
    have hnumber : Js.numberOfText "ERR_INVALID_URL" = none := by decide
    rw [statusNumber, if_neg (by decide), hnumber]
  have hserve : serve Demo.outside "GET" = ⟨[], true⟩ := by
    show (match json (statusNumber (.text "ERR_INVALID_URL"))
        (.failed "Invalid URL" none none) with
      | .ok r => ⟨[r], false⟩
      | .error _ => ⟨[], true⟩ : Exchange) = _
    rw [hstatus]
    rfl
  refine ⟨hserve, ?_⟩
  rw [hserve]
  rintro ⟨hthrown, -⟩
  cases hthrown

end Osdst
