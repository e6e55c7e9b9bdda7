import OpenSphere.PlatformChange.Cli

/-!
# Change plans of the command line are refused

The command line names its plan in a field of the body, and the Console takes no such field, so it
refuses every plan.  The two screen the desired state by different rules: the command line looks for
a word anywhere in a key, the Console for a word of its own.
-/

open Sql
open Js (Value Values Members)
open Catalog (Hash)

namespace PlatformChange

/-! ## The walk visits every key -/

/-- The keys of some entries are those of their values and their own. -/
theorem mem_keysOfMembers {k : String} : ∀ {ms : Members}, k ∈ keysOfMembers ms →
    ∃ e ∈ Members.entries ms, k = e.1 ∨ k ∈ keysOf e.2
  | .nil, h => by simp [keysOfMembers] at h
  | .cons k' x ms, h => by
      rw [keysOfMembers] at h
      rcases List.mem_cons.mp h with rfl | h
      · exact ⟨_, List.mem_cons_self .., .inl rfl⟩
      · rcases List.mem_append.mp h with h | h
        · exact ⟨_, List.mem_cons_self .., .inr h⟩
        · obtain ⟨e, he, hk⟩ := mem_keysOfMembers h
          exact ⟨e, List.mem_cons_of_mem _ he, hk⟩

theorem mem_keysOfAll {k : String} : ∀ {n : Nat} {xs : Values}, k ∈ keysOfAll xs →
    ∃ e ∈ Values.entries n xs, k ∈ keysOf e.2
  | _, .nil, h => by simp [keysOfAll] at h
  | n, .cons x xs, h => by
      rw [keysOfAll] at h
      rcases List.mem_append.mp h with h | h
      · exact ⟨_, List.mem_cons_self .., h⟩
      · obtain ⟨e, he, hk⟩ := mem_keysOfAll h
        exact ⟨e, List.mem_cons_of_mem _ he, hk⟩

theorem mem_keysOf {k : String} {x : Value} (h : k ∈ keysOf x) :
    ∃ e ∈ entries x, k = e.1 ∨ k ∈ keysOf e.2 := by
  cases x with
  | array xs =>
      obtain ⟨e, he, hk⟩ := mem_keysOfAll (n := 0) h
      exact ⟨e, he, .inr hk⟩
  | object ms => exact mem_keysOfMembers h
  | _ => simp [keysOf] at h

theorem container_of_mem_keysOf {k : String} {x : Value} (h : k ∈ keysOf x) : container x = true := by
  cases x with
  | array xs => rfl
  | object ms => rfl
  | _ => simp [keysOf] at h

/-- A walk that ends well has met no key of a credential, at any depth of what it had to visit. -/
theorem walk_screens {n : Nat} {pending : List (Value × Nat)} {u : Unit} (h : walk n pending = .ok u) :
    ∀ v ∈ pending, ∀ k ∈ keysOf v.1, secretField k = false := by
  induction n generalizing pending with
  | zero =>
      cases pending with
      | nil => exact nofun
      | cons v pending => cases h
  | succ n ih =>
      cases pending with
      | nil => exact nofun
      | cons v pending =>
          obtain ⟨value, depth⟩ := v
          rw [walk] at h
          split at h
          · cases h
          split at h
          · cases h
          rename_i hkeys
          have hrest := ih h
          intro v hv k hk
          rcases List.mem_cons.mp hv with rfl | hv
          · obtain ⟨e, he, hcase⟩ := mem_keysOf hk
            rcases hcase with rfl | hk
            · rw [Bool.not_eq_true, List.any_eq_false] at hkeys
              exact Bool.eq_false_iff.mpr (hkeys e he)
            · refine hrest (e.2, depth + 1) (List.mem_append_left _ (List.mem_reverse.mpr ?_)) k hk
              exact List.mem_map_of_mem (f := fun e : String × Value => (e.2, depth + 1))
                (List.mem_filter.mpr ⟨he, container_of_mem_keysOf hk⟩)
          · exact hrest v (List.mem_append_right _ hv) k hk

theorem validateDesiredState_screens {value : Value} {ms : Members}
    (h : validateDesiredState value = .ok ms) : ∀ k ∈ keysOfMembers ms, secretField k = false := by
  cases value with
  | object fields =>
      simp only [validateDesiredState, bind_eq_ok, pure_eq_ok] at h
      obtain ⟨-, -, u, hwalk, rfl⟩ := h
      exact walk_screens hwalk (.object fields, 0) (List.mem_singleton_self _)
  | _ => cases h

/-- A desired state that the Console takes has no key of a credential, at any depth. -/
theorem validateProposal_screens {body : Value} {p : Proposal} (h : validateProposal body = .ok p) :
    ∀ k ∈ keysOfMembers p.desiredState, secretField k = false := by
  simp only [validateProposal, bind_eq_ok, pure_eq_ok] at h
  obtain ⟨-, -, -, -, -, -, -, -, -, -, -, -, -, -, ms, hms, -, -, -, -, rfl⟩ := h
  exact validateDesiredState_screens hms

/-! ## Plans -/

theorem encodeHex_ne_empty {bs : ConsoleIdentity.Bytes} (h : bs ≠ []) : ConsoleIdentity.encodeHex bs ≠ "" := by
  intro hempty
  have hchars := congrArg chars hempty
  rw [ConsoleIdentity.encodeHex, chars_ofList] at hchars
  cases bs with
  | nil => exact h rfl
  | cons b bs => cases hchars

theorem planId_ne_empty (h : Hash) (p : ChangePlan) : planId h p ≠ "" := by
  refine encodeHex_ne_empty fun hnil => ?_
  have hlength := congrArg List.length hnil
  rw [List.length_take, h.octets] at hlength
  cases hlength

theorem planDigest_ne_empty (h : Hash) (p : ChangePlan) : planDigest h p ≠ "" := by
  intro hempty
  have hchars := congrArg chars hempty
  rw [planDigest, chars_eq, String.toList_append] at hchars
  cases hchars

theorem loadPlan_createPlan {h : Hash} {i : PlanInput} {p : ChangePlan} (hplan : createPlan h i = some p) :
    loadPlan h p = some p ∧ p.consoleUrl = i.consoleUrl := by
  have hsealed : ∃ desired, p = (i.draft desired).sealed h := by
    unfold createPlan at hplan
    split at hplan
    · cases hplan
    obtain ⟨m, -, hplan⟩ := Option.bind_eq_some_iff.mp hplan
    obtain ⟨desired, -, hplan⟩ := Option.bind_eq_some_iff.mp hplan
    split at hplan
    · cases hplan
    · exact ⟨desired, (Option.some.inj hplan).symm⟩
  obtain ⟨desired, rfl⟩ := hsealed
  have hdigest : ((i.draft desired).sealed h).digest = planDigest h ((i.draft desired).sealed h) := rfl
  have hid : ((i.draft desired).sealed h).id = planId h ((i.draft desired).sealed h) := rfl
  refine ⟨?_, rfl⟩
  unfold loadPlan
  rw [if_neg, if_neg]
  · simp [hdigest, hid]
  · rw [hid, hdigest]
    simp [planId_ne_empty, planDigest_ne_empty, ChangePlan.sealed, PlanInput.draft]

theorem applyPlan_eq_some {h : Hash} {url : String} {saved : ChangePlan} {body : Value}
    (happly : applyPlan h url saved = some body) : body = applyBody saved := by
  obtain ⟨plan, hload, happly⟩ := Option.bind_eq_some_iff.mp happly
  have hplan : plan = saved := by
    unfold loadPlan at hload
    split at hload
    · cases hload
    split at hload
    · cases hload
    · exact (Option.some.inj hload).symm
  split at happly
  · cases happly
  · rw [← hplan]
    exact (Option.some.inj happly).symm

def unknownFields (p : ChangePlan) : String :=
  if p.rollbackOf = "" then "idempotencyKey" else "idempotencyKey, rollbackOf"

theorem validateProposal_applyBody (p : ChangePlan) : validateProposal (applyBody p) =
    .error (fail ("platform change request contains unknown fields: " ++ unknownFields p)) := by
  unfold unknownFields applyBody
  by_cases hrollback : p.rollbackOf = ""
  · rw [if_neg (not_not.mpr hrollback), if_pos hrollback]
    rfl
  · rw [if_pos hrollback, if_neg hrollback]
    rfl

/-- Every plan that is made can be applied, and the Console refuses every plan that is applied.  A
desired state that it takes has a key that the command line rejects exactly if in some key the word
is only a part. -/
theorem change_plans_refused (h : Hash) :
    (∀ i p, createPlan h i = some p → applyPlan h i.consoleUrl p = some (applyBody p)) ∧
    (∀ url saved body, applyPlan h url saved = some body → validateProposal body =
      .error (fail ("platform change request contains unknown fields: " ++ unknownFields saved))) ∧
    ∀ body p, validateProposal body = .ok p →
      ((∃ k ∈ keysOfMembers p.desiredState, secretLike k = true) ↔
        ∃ k ∈ keysOfMembers p.desiredState, secretLike k = true ∧ secretField k = false) := by
  refine ⟨fun i p hplan => ?_, fun url saved body happly => ?_, fun body p hp => ?_⟩
  · obtain ⟨hload, hurl⟩ := loadPlan_createPlan hplan
    unfold applyPlan
    rw [hload]
    show (if trimSlashes p.consoleUrl ≠ trimSlashes i.consoleUrl then none else some (applyBody p)) = _
    rw [hurl, if_neg (not_not.mpr rfl)]
  · rw [applyPlan_eq_some happly]
    exact validateProposal_applyBody saved
  · have hscreens := validateProposal_screens hp
    constructor
    · rintro ⟨k, hk, hlike⟩
      exact ⟨k, hk, hlike, hscreens k hk⟩
    · rintro ⟨k, hk, hlike, -⟩
      exact ⟨k, hk, hlike⟩

namespace Demo

def hash : Hash := ⟨fun _ => List.replicate 32 0, fun _ => rfl⟩

def replicas : Members := .cons "replicas" (.number "2") .nil

def flags : String → String
  | "consumer" => "console.core"
  | "action" => "configure"
  | "target" => "console"
  | "reason" => "scale console safely"
  | "file" => "desired.json"
  | "offline" => "true"
  | _ => ""

def plan : PlanInput where
  consoleUrl := "https://console.local"
  flags := flags
  forcedAction := ""
  rollbackOf := ""
  files _ := some ⟨15, some replicas⟩
  registered _ := false
  now := "2026-08-24T00:00:00Z"

/-- A request whose desired state names a token in one word with another. -/
def tokenBody : Value :=
  .object (.cons "consumerId" (.string "console.core") (.cons "reason" (.string "scale console safely")
    (.cons "desiredState" (.object (.cons "mytoken" (.string "x") .nil)) .nil)))

theorem plan_created : ∃ p, createPlan hash plan = some p ∧ p.rollbackOf = "" := by
  have hsome : (createPlan hash plan).any (fun p => p.rollbackOf = "") = true := by decide
  obtain ⟨p, hplan, hrollback⟩ := (Option.any_eq_true _ _).mp hsome
  exact ⟨p, hplan, of_decide_eq_true hrollback⟩

end Demo

theorem replicas_plan_refused : ∃ p, createPlan Demo.hash Demo.plan = some p ∧
    validateProposal (applyBody p) =
      .error (fail "platform change request contains unknown fields: idempotencyKey") := by
  obtain ⟨p, hplan, hrollback⟩ := Demo.plan_created
  have happly := (change_plans_refused Demo.hash).1 _ _ hplan
  have hrefused := (change_plans_refused Demo.hash).2.1 _ _ _ happly
  rw [unknownFields, if_pos hrollback] at hrefused
  exact ⟨p, hplan, hrefused⟩

/-- A plan is refused, and a desired state is taken that the command line rejects. -/
theorem plan_refused_token_taken :
    (∃ p, createPlan Demo.hash Demo.plan = some p ∧ ¬ ∃ q, validateProposal (applyBody p) = .ok q) ∧
      ∃ q, validateProposal Demo.tokenBody = .ok q ∧
        ∃ k ∈ keysOfMembers q.desiredState, secretLike k = true := by
  constructor
  · obtain ⟨p, hplan, -⟩ := Demo.plan_created
    refine ⟨p, hplan, ?_⟩
    rintro ⟨q, hq⟩
    rw [validateProposal_applyBody] at hq
    cases hq
  · have htaken : (match validateProposal Demo.tokenBody with
        | .ok q => (keysOfMembers q.desiredState).any secretLike
        | .error _ => false) = true := by
      decide
    cases hq : validateProposal Demo.tokenBody with
    | error f =>
        rw [hq] at htaken
        cases htaken
    | ok q =>
        rw [hq] at htaken
        exact ⟨q, rfl, List.any_eq_true.mp htaken⟩

end PlatformChange
