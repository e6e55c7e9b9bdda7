import OpenSphere.Broker.Profiles
import OpenSphere.Extension.Management
import OpenSphere.System.Alone

/-!
# Management calls that are repeated

A call that changed an object has nothing to change when it is made again, and the API server keeps the
version of the object.  `repeated_refused` says that the repetition fails then, and
`violation_iff_unchanged` that a call reports a violation with a present side effect exactly if the
object was as asked before.
-/

open Js (Value Members)
open System (exec_await_bind exec_await_fails exec_lift_bind)
open Broker (put get_put get_put_of_ne)

namespace Extension.Management

variable {m : Mutation} {x y spec : Value} {ms : Members} {w w' : Cluster} {es : Nat → Fate}
  {before observed : Metadata} {r : String} {s : Stamp} {receipt : Receipt}

/-! ## Merge patches -/

theorem put_self {k : String} (hx : x ≠ .undefined) : ∀ {ms : Members}, ms.get k = x → put k x ms = ms
  | .nil, h => absurd h.symm hx
  | .cons k' y ms, h => by
      rw [put]
      rw [Members.get] at h
      split at h
      next hk => rw [if_pos hk, h, hk]
      next hk => rw [if_neg hk, put_self hx h]

theorem object_of_get {k : String} (h : x.get k ≠ .undefined) : .object (membersOf x) = x := by
  cases x with
  | object ms => rfl
  | _ => exact absurd rfl h

theorem get_membersOf (x : Value) (k : String) : (membersOf x).get k = x.get k := by
  cases x <;> rfl

/-- A patch asks for nothing after it was carried out. -/
def Settled (spec : Value) : Prop :=
  (∃ ms, spec = .object ms) ∧ ∀ x, mergePatch (mergePatch x spec) spec = mergePatch x spec

theorem mergePatch_versioned (h : Settled spec) : mergePatch x (versioned r spec) =
    .object (put "spec" (mergePatch (x.get "spec") spec) (put "metadata" (.object
      (put "resourceVersion" (.string r) (membersOf (x.get "metadata")))) (membersOf x))) := by
  obtain ⟨⟨ms, rfl⟩, -⟩ := h
  show Value.object (put "spec" (mergePatch ((put "metadata" (.object (put "resourceVersion" _
    (membersOf ((membersOf x).get "metadata")))) (membersOf x)).get "spec") (.object ms)) _) = _
  rw [get_put_of_ne (by decide), get_membersOf, get_membersOf]
  rfl

theorem patched_get (h : Settled spec) :
    (patched s x (versioned r spec)).get "spec" = mergePatch (x.get "spec") spec ∧
      ∀ k, k ≠ "resourceVersion" → k ≠ "generation" →
        ((patched s x (versioned r spec)).get "metadata").get k = (x.get "metadata").get k := by
  have hmerge := mergePatch_versioned (x := x) (r := r) h
  unfold patched
  split
  next heq =>
    refine ⟨?_, fun k _ _ => rfl⟩
    conv_lhs => rw [← heq, hmerge]
    simp [Value.get]
  next =>
    rw [hmerge]
    refine ⟨?_, fun k hversion hgeneration => ?_⟩
    · simp [Stamp.onto, Value.get, membersOf, get_put_of_ne]
    · simp [Stamp.onto, Value.get, membersOf, get_put_of_ne, hversion, hgeneration]
      exact get_membersOf _ k

/-- A patch of the current version that was carried out before changes nothing. -/
theorem merge_again (h : Settled spec) (hversion : (y.get "metadata").get "resourceVersion" = .string r)
    (hspec : y.get "spec" = mergePatch x spec) : mergePatch y (versioned r spec) = y := by
  have hmeta : y.get "metadata" ≠ .undefined := fun hnone => by
    rw [hnone] at hversion
    cases hversion
  have hobject : .object (membersOf (y.get "metadata")) = y.get "metadata" :=
    object_of_get (k := "resourceVersion") (hversion ▸ nofun)
  have hspec' : y.get "spec" ≠ .undefined := by
    obtain ⟨⟨ms, rfl⟩, -⟩ := h
    rw [hspec, mergePatch]
    exact nofun
  have hstring : Value.string r ≠ .undefined := nofun
  have hkept : put "resourceVersion" (.string r) (membersOf (y.get "metadata")) =
      membersOf (y.get "metadata") := put_self hstring ((get_membersOf ..).trans hversion)
  rw [mergePatch_versioned h, hkept, hobject, put_self hmeta (get_membersOf y "metadata"), hspec, h.2,
    ← hspec, put_self hspec' (get_membersOf y "spec"), object_of_get hspec']

theorem settled_desired (a : DesiredState) (inside : String) (pkg : Value) :
    Settled (a.mutation inside pkg).spec := by
  refine ⟨⟨_, rfl⟩, fun x => ?_⟩
  simp [DesiredState.mutation, Value.ofList, Members.ofList, mergePatch, mergeMembers, membersOf,
    get_put_of_ne, put_self]

theorem settled_binding (a : BindingEnabled) : Settled a.mutation.spec := by
  refine ⟨⟨_, rfl⟩, fun x => ?_⟩
  simp [BindingEnabled.mutation, Value.ofList, Members.ofList, mergePatch, mergeMembers, membersOf, put_self]

/-! ## Checks -/

theorem textOf_string (t : String) : textOf (.string t) = .ok t := by
  by_cases h : t = ""
  · rw [h]
    rfl
  · simp [textOf, Value.or, Value.truthy, Value.toText, h]

/-- What a metadata says is in the object. -/
structure Metadata.Of (d : Metadata) (x : Value) : Prop where
  name : textOf ((x.get "metadata").get "name") = .ok d.name
  uid : textOf ((x.get "metadata").get "uid") = .ok d.uid
  resourceVersion : textOf ((x.get "metadata").get "resourceVersion") = .ok d.resourceVersion

/-- A check that does nothing to what it checks, and whose failure says so. -/
def Quiet {α : Type} (p : Except Fault α) : Prop := ∀ f, p = .error f → f.sideEffect = .none

theorem quiet_bind {α β : Type} {p : Except Fault α} {f : α → Except Fault β} (hp : Quiet p)
    (hf : ∀ a, Quiet (f a)) : Quiet (p >>= f) := by
  cases p with
  | error e => exact fun f h => hp f (by cases h; rfl)
  | ok a => exact hf a

theorem quiet_ok {α : Type} (a : α) : Quiet (.ok a : Except Fault α) := fun _ h => by cases h

theorem quiet_textOf (x : Value) : Quiet (textOf x) := by
  unfold textOf
  split
  · exact quiet_ok _
  · rintro f ⟨⟩
    rfl

theorem quiet_metadata {apiVersion kind : String} {inside : Option String} :
    Quiet (metadata x apiVersion kind inside) := by
  refine quiet_bind (quiet_textOf _) fun _ => quiet_bind (quiet_textOf _) fun _ =>
    quiet_bind (quiet_textOf _) fun _ => ?_
  split
  · refine quiet_bind ?_ fun _ => quiet_ok _
    unfold integerOf
    split
    · exact quiet_ok _
    · rintro f ⟨⟩
      rfl
  · rintro f ⟨⟩
    rfl

theorem get_metadata (x : Value) (k : String) : (Extension.metadata x).get k = (x.get "metadata").get k := by
  unfold Extension.metadata Value.or
  split
  · rfl
  next h =>
    cases hx : x.get "metadata" with
    | object ms => exact absurd (hx ▸ rfl) h
    | _ => rfl

theorem metadata_of {apiVersion kind : String} {inside : Option String}
    (h : metadata x apiVersion kind inside = .ok before) : before.Of x := by
  simp only [metadata, Sql.bind_eq_ok, get_metadata] at h
  obtain ⟨name, hname, uid, huid, resourceVersion, hversion, h⟩ := h
  split at h
  · obtain ⟨generation, -, h⟩ := Sql.bind_eq_ok.mp h
    cases h
    exact ⟨hname, huid, hversion⟩
  · cases h

theorem quiet_registration {id inside : String} : Quiet (registrationIdentity x id inside) := by
  refine quiet_bind quiet_metadata fun _ => ?_
  split
  · rintro f ⟨⟩
    rfl
  · exact quiet_ok _

theorem registration_of {id inside : String} (h : registrationIdentity x id inside = .ok before) :
    before.Of x := by
  obtain ⟨current, hcurrent, h⟩ := Sql.bind_eq_ok.mp h
  split at h
  · cases h
  · cases h
    exact metadata_of hcurrent

/-! ## Mutations -/

/-- What holds of a mutation: its checks do nothing, what it checks is identified, and an object that was
patched and shows it passes the check again. -/
structure Mutation.Lawful (m : Mutation) : Prop where
  settled : Settled m.spec
  quietCheck : ∀ x, Quiet (m.check x)
  quietIdentity : ∀ x, Quiet (m.identity x)
  of : ∀ {x d}, m.identity x = .ok d → d.Of x
  identity : ∀ {x d}, m.check x = .ok d → m.identity x = .ok d
  shown : ∀ {x y d d'}, m.check x = .ok d → m.identity y = .ok d' → d'.name = d.name →
    y.get "spec" = mergePatch (x.get "spec") m.spec → m.shows y d' = true ∧ m.check y = .ok d'

theorem quiet_package {pkg : Value} {id inside : String} : Quiet (packageIdentity pkg id inside) := by
  refine quiet_bind quiet_metadata fun _ => ?_
  split
  · rintro f ⟨⟩
    rfl
  · refine quiet_bind ?_ fun _ => quiet_ok _
    unfold exactExtensionPackageScope
    split
    · exact quiet_ok _
    · exact quiet_ok _
    · exact quiet_ok _
    · rintro f ⟨⟩
      rfl

theorem lawful_desired (a : DesiredState) (inside : String) (pkg : Value) :
    (a.mutation inside pkg).Lawful where
  settled := settled_desired a inside pkg
  quietCheck x := by
    refine quiet_bind quiet_package fun p => quiet_bind quiet_registration fun _ => ?_
    split
    · rintro f ⟨⟩
      rfl
    · exact quiet_ok _
  quietIdentity x := quiet_registration
  of := registration_of
  identity h := by
    obtain ⟨p, -, h⟩ := Sql.bind_eq_ok.mp h
    obtain ⟨current, hcurrent, h⟩ := Sql.bind_eq_ok.mp h
    split at h
    · cases h
    · cases h
      exact hcurrent
  shown {x y d d'} hcheck hidentity hname hspec := by
    obtain ⟨p, hp, h⟩ := Sql.bind_eq_ok.mp hcheck
    obtain ⟨current, hcurrent, h⟩ := Sql.bind_eq_ok.mp h
    refine ⟨?_, Sql.bind_eq_ok.mpr ⟨p, hp, Sql.bind_eq_ok.mpr ⟨d', hidentity, ?_⟩⟩⟩
    · have hstate : (y.get "spec").get "desiredState" = .string a.desiredState := by
        rw [hspec]
        exact (get_put_of_ne (by decide) _ _).trans (get_put ..)
      simp [DesiredState.mutation, hstate, is]
    · split at h
      · cases h
      next hcore => exact if_neg hcore

theorem binding_check {a : BindingEnabled} (h : a.check x = .ok before) :
    bindingIdentity x = .ok before ∧ before.name = a.name ∧ isArray ((x.get "spec").get "links") = true := by
  obtain ⟨current, hcurrent, h⟩ := Sql.bind_eq_ok.mp h
  split at h
  · cases h
  next hchecks =>
    cases h
    simp only [Bool.or_eq_true, decide_eq_true_eq, Bool.not_eq_true', not_or, not_not,
      Bool.not_eq_false] at hchecks
    exact ⟨hcurrent, hchecks⟩

theorem lawful_binding (a : BindingEnabled) : a.mutation.Lawful where
  settled := settled_binding a
  quietCheck x := by
    refine quiet_bind quiet_metadata fun _ => ?_
    split
    · rintro f ⟨⟩
      rfl
    · exact quiet_ok _
  quietIdentity x := quiet_metadata
  of := metadata_of
  identity h := (binding_check h).1
  shown {x y d d'} hcheck hidentity hname hspec := by
    obtain ⟨-, hd, hlinks⟩ := binding_check hcheck
    have hlinks' : (y.get "spec").get "links" = (x.get "spec").get "links" := by
      rw [hspec]
      exact (get_put_of_ne (by decide) _ _).trans (get_membersOf _ _)
    refine ⟨?_, Sql.bind_eq_ok.mpr ⟨d', hidentity, ?_⟩⟩
    · have henabled : (y.get "spec").get "enabled" = .boolean a.enabled := by
        rw [hspec]
        exact get_put ..
      simp [BindingEnabled.mutation, henabled, hname, hd, isBoolean]
    · rw [hname, hd, hlinks', hlinks]
      exact if_neg (by simp)

/-! ## Runs -/

theorem read_quiet (e : Fate) (t : Target) (w : Cluster) : Quiet (read e t w) := by
  unfold read
  split
  · split
    · exact quiet_ok _
    · rintro f ⟨⟩
      rfl
  all_goals
    rintro f ⟨⟩
    rfl

theorem read_ok {e : Fate} {t : Target} (h : read e t w = .ok x) : (∃ s, e = .answered s) ∧ w t = some x := by
  unfold read at h
  split at h
  · split at h
    next heq =>
      cases h
      exact ⟨⟨_, rfl⟩, heq⟩
    · cases h
  all_goals cases h

theorem write_error {t : Target} {body : Value} {f : Fault} (h : (write s t body w).1 = .error f) :
    f.sideEffect ≠ .present := by
  unfold write at h
  split at h
  · cases h
    exact nofun
  · split at h
    · cases h
    · cases h
      exact nofun

theorem patch_error {e : Fate} {t : Target} {body : Value} {f : Fault}
    (h : (answer e (.patch t body) w).1 = .error f) : f.sideEffect ≠ .present := by
  cases e with
  | answered s => exact write_error h
  | refused status => cases h; exact nofun
  | lost s arrived => cases h; exact nofun
  | unreadable s => cases h; exact nofun

theorem patch_ok {e : Fate} {t : Target} {body : Value} (h : answer e (.patch t body) w = (.ok y, w'))
    (hx : w t = some x) : ∃ s, e = .answered s ∧
      (x.get "metadata").get "resourceVersion" = (body.get "metadata").get "resourceVersion" ∧
      y = patched s x body ∧ w' = Function.update w t (some y) := by
  cases e with
  | answered s =>
      simp only [answer, write, hx] at h
      split at h
      next hversion =>
        cases h
        exact ⟨s, rfl, hversion, rfl, rfl⟩
      · cases h
  | _ => cases h

/-- What a mutation comes to: a failure with no side effect that is present, or an answer of the API server
that is judged. -/
theorem apply_cases (hm : m.Lawful) (es : Nat → Fate) (w : Cluster) :
    (∃ f, (m.apply.exec answer es w).1 = .error f ∧ f.sideEffect ≠ .present) ∨
      ∃ x before s observed, (∃ s, es 0 = .answered s) ∧ es 1 = .answered s ∧ w m.target = some x ∧
        m.check x = .ok before ∧
        (x.get "metadata").get "resourceVersion" = .string before.resourceVersion ∧
        m.identity (patched s x (versioned before.resourceVersion m.spec)) = .ok observed ∧
        m.apply.exec answer es w =
          (if !m.shows (patched s x (versioned before.resourceVersion m.spec)) observed ||
              observed.uid ≠ before.uid || observed.resourceVersion = before.resourceVersion
            then .error m.fault else .ok ⟨before, observed⟩,
            Function.update w m.target (some (patched s x (versioned before.resourceVersion m.spec)))) := by
  unfold Mutation.apply request
  cases hread : read (es 0) m.target w with
  | error f =>
      have hanswer : answer (es 0) (.get m.target) w = (.error f, w) := congrArg (·, w) hread
      rw [exec_await_fails hanswer]
      exact .inl ⟨f, rfl, by rw [read_quiet _ _ _ f hread]; exact nofun⟩
  | ok x =>
      have hanswer : answer (es 0) (.get m.target) w = (.ok x, w) := congrArg (·, w) hread
      rw [exec_await_bind hanswer]
      obtain ⟨hes, hx⟩ := read_ok hread
      cases hcheck : m.check x with
      | error f => exact .inl ⟨f, rfl, by rw [hm.quietCheck x f hcheck]; exact nofun⟩
      | ok before =>
          rw [exec_lift_bind rfl]
          rcases hpatch : answer (es 1) (.patch m.target (versioned before.resourceVersion m.spec)) w with
            ⟨f | y, w'⟩
          · rw [exec_await_fails hpatch]
            exact .inl ⟨f, rfl, patch_error (congrArg Prod.fst hpatch)⟩
          · rw [exec_await_bind hpatch]
            obtain ⟨s, hs, hversion, rfl, rfl⟩ := patch_ok hpatch hx
            cases hidentity : m.identity (patched s x (versioned before.resourceVersion m.spec)) with
            | error f => exact .inl ⟨f, rfl, by rw [hm.quietIdentity _ f hidentity]; exact nofun⟩
            | ok observed =>
                refine .inr ⟨x, before, s, observed, hes, hs, hx, hcheck, hversion, hidentity, ?_⟩
                rw [exec_lift_bind rfl]
                split
                · rfl
                · rfl

theorem apply_unchanged (hm : m.Lawful) (hx : w m.target = some x) (hcheck : m.check x = .ok before)
    (hversion : (x.get "metadata").get "resourceVersion" = .string before.resourceVersion)
    (hsame : mergePatch x (versioned before.resourceVersion m.spec) = x)
    (hes : ∀ n < 2, ∃ s, es n = .answered s) : m.apply.exec answer es w = (.error m.fault, w) := by
  obtain ⟨s, hs⟩ := hes 0 (by decide)
  obtain ⟨s', hs'⟩ := hes 1 (by decide)
  have hget : answer (es 0) (.get m.target) w = (.ok x, w) := by
    rw [hs]
    simp [answer, read, hx]
  have hpatch : answer (es 1) (.patch m.target (versioned before.resourceVersion m.spec)) w = (.ok x, w) := by
    have hbody : ((versioned before.resourceVersion m.spec).get "metadata").get "resourceVersion" =
        .string before.resourceVersion := rfl
    rw [hs']
    simp only [answer, write, hx, hversion, hbody, if_true, patched, hsame]
    rw [← hx, Function.update_eq_self]
  unfold Mutation.apply request
  rw [exec_await_bind hget, exec_lift_bind hcheck, exec_await_bind hpatch, exec_lift_bind (hm.identity hcheck),
    if_pos (by simp)]
  rfl

theorem patched_version (hne : mergePatch x (versioned r spec) ≠ x) :
    ((patched s x (versioned r spec)).get "metadata").get "resourceVersion" = .string s.resourceVersion := by
  rw [patched, if_neg hne]
  simp [Stamp.onto, Value.get, get_put_of_ne]

/-- What was patched is identified as before, apart from its version. -/
theorem patched_identity (hm : m.Lawful) (hcheck : m.check x = .ok before)
    (hidentity : m.identity (patched s x (versioned r m.spec)) = .ok observed) :
    observed.name = before.name ∧ observed.uid = before.uid := by
  have hget := (patched_get (s := s) (x := x) (r := r) hm.settled).2
  have hbefore := hm.of (hm.identity hcheck)
  have hobserved := hm.of hidentity
  have hname := hobserved.name
  have huid := hobserved.uid
  rw [hget "name" (by decide) (by decide), hbefore.name] at hname
  rw [hget "uid" (by decide) (by decide), hbefore.uid] at huid
  exact ⟨(Except.ok.inj hname).symm, (Except.ok.inj huid).symm⟩

theorem observed_version (hm : m.Lawful) (hne : mergePatch x (versioned r m.spec) ≠ x)
    (hidentity : m.identity (patched s x (versioned r m.spec)) = .ok observed) :
    observed.resourceVersion = s.resourceVersion := by
  have h := (hm.of hidentity).resourceVersion
  rw [patched_version hne, textOf_string] at h
  exact (Except.ok.inj h).symm

theorem apply_repeated (hm : m.Lawful) (h : m.apply.exec answer es w = (.ok receipt, w')) {es' : Nat → Fate}
    (hes' : ∀ n < 2, ∃ s, es' n = .answered s) :
    m.apply.exec answer es' w' = (.error m.fault, w') := by
  rcases apply_cases hm es w with ⟨f, hf, -⟩ |
    ⟨x, before, s, observed, -, -, hx, hcheck, hversion, hidentity, hrun⟩
  · rw [h] at hf
    cases hf
  · rw [h] at hrun
    obtain ⟨hresult, rfl⟩ := Prod.mk.inj hrun
    split at hresult
    · cases hresult
    next hjudged =>
      simp only [Bool.or_eq_true, decide_eq_true_eq, not_or] at hjudged
      have hne : mergePatch x (versioned before.resourceVersion m.spec) ≠ x := by
        intro hsame
        rw [patched, if_pos hsame, hm.identity hcheck] at hidentity
        cases hidentity
        exact hjudged.2 rfl
      have hspec := (patched_get (s := s) (x := x) (r := before.resourceVersion) hm.settled).1
      have hnext := (hm.shown hcheck hidentity (patched_identity hm hcheck hidentity).1 hspec).2
      have hstamped := patched_version (s := s) hne
      rw [← observed_version hm hne hidentity] at hstamped
      exact apply_unchanged hm (Function.update_self ..) hnext hstamped
        (merge_again hm.settled hstamped hspec) hes'

/-- The object is there, and it is as asked. -/
def Mutation.Unchanged (m : Mutation) (w : Cluster) : Prop :=
  ∃ x before, w m.target = some x ∧ m.check x = .ok before ∧
    (x.get "metadata").get "resourceVersion" = .string before.resourceVersion ∧
    mergePatch x (versioned before.resourceVersion m.spec) = x

/-- A write gives an object a version that it does not have. -/
def Fresh (t : Target) (es : Nat → Fate) (w : Cluster) : Prop :=
  ∀ n s x, es n = .answered s → w t = some x →
    (x.get "metadata").get "resourceVersion" ≠ .string s.resourceVersion

/-- The failure is a violation of the contract that left something behind. -/
def Violates {α : Type} (r : Except Fault α) : Prop :=
  ∃ f, r = .error f ∧ f.code = some "AuthorityContractViolation" ∧ f.sideEffect = .present

theorem apply_violates_iff (hm : m.Lawful) (hfresh : Fresh m.target es w) :
    Violates (m.apply.exec answer es w).1 ↔ (∀ n < 2, ∃ s, es n = .answered s) ∧ m.Unchanged w := by
  constructor
  · rintro ⟨f, hf, -, hpresent⟩
    rcases apply_cases hm es w with ⟨f', hf', hquiet⟩ |
      ⟨x, before, s, observed, hfirst, hs, hx, hcheck, hversion, hidentity, hrun⟩
    · rw [hf] at hf'
      cases hf'
      exact absurd hpresent hquiet
    · refine ⟨?_, x, before, hx, hcheck, hversion, by_contra fun hne => ?_⟩
      · rintro (_ | _ | n) hn
        · exact hfirst
        · exact ⟨s, hs⟩
        · omega
      obtain ⟨hname, huid⟩ := patched_identity hm hcheck hidentity
      have hshows := (hm.shown hcheck hidentity hname (patched_get hm.settled).1).1
      have hstamped : observed.resourceVersion ≠ before.resourceVersion := by
        rw [observed_version hm hne hidentity]
        exact fun heq => hfresh 1 s x hs hx (heq ▸ hversion)
      rw [hrun, hshows, huid] at hf
      simp [hstamped] at hf
  · rintro ⟨hes, x, before, hx, hcheck, hversion, hsame⟩
    rw [apply_unchanged hm hx hcheck hversion hsame hes]
    exact ⟨m.fault, rfl, rfl, rfl⟩

/-! ## Calls -/

inductive Call where
  | setDesiredState (inside : String) (a : DesiredState)
  | setBindingEnabled (a : BindingEnabled)

def Call.run : Call → Run Receipt
  | .setDesiredState inside a => Management.setDesiredState inside a
  | .setBindingEnabled a => Management.setBindingEnabled a

/-- What is read before the object. -/
def Call.reads : Call → Nat
  | .setDesiredState .. => 1
  | .setBindingEnabled _ => 0

def Call.target : Call → Target
  | .setDesiredState _ a => .registration a.id
  | .setBindingEnabled a => .binding a.name

/-- The mutation of a call that is valid. -/
def Call.mutation (c : Call) (w : Cluster) : Option Mutation :=
  match c with
  | .setDesiredState inside a => if a.valid then (w (.package a.id)).map (a.mutation inside) else none
  | .setBindingEnabled a => if a.valid then some a.mutation else none

section

variable {c : Call}

theorem Call.mutation_cases (h : c.mutation w = some m) : m.Lawful ∧ m.target = c.target := by
  cases c with
  | setDesiredState inside a =>
      simp only [Call.mutation] at h
      split at h
      · obtain ⟨pkg, -, rfl⟩ := Option.map_eq_some_iff.mp h
        exact ⟨lawful_desired a inside pkg, rfl⟩
      · cases h
  | setBindingEnabled a =>
      simp only [Call.mutation] at h
      split at h
      · cases h
        exact ⟨lawful_binding a, rfl⟩
      · cases h

/-- A valid call is its mutation once its package was read. -/
theorem run_of_mutation (h : c.mutation w = some m) (hes : ∀ n < c.reads, ∃ s, es n = .answered s) :
    c.run.exec answer es w = m.apply.exec answer (fun n => es (n + c.reads)) w := by
  cases c with
  | setDesiredState inside a =>
      simp only [Call.mutation] at h
      split at h
      next hvalid =>
        obtain ⟨pkg, hpkg, rfl⟩ := Option.map_eq_some_iff.mp h
        obtain ⟨s, hs⟩ := hes 0 Nat.one_pos
        have hget : answer (es 0) (.get (.package a.id)) w = (.ok pkg, w) := by
          rw [hs]
          simp [answer, read, hpkg]
        rw [Call.run, setDesiredState, if_pos hvalid]
        exact exec_await_bind hget
      · cases h
  | setBindingEnabled a =>
      simp only [Call.mutation] at h
      split at h
      next hvalid =>
        cases h
        rw [Call.run, setBindingEnabled, if_pos hvalid]
        rfl
      · cases h

/-- A call fails before its mutation, or is its mutation. -/
theorem run_cases (c : Call) (es : Nat → Fate) (w : Cluster) :
    (∃ f, (c.run.exec answer es w).1 = .error f ∧ f.sideEffect ≠ .present) ∨
      ∃ m, c.mutation w = some m ∧ ∀ n < c.reads, ∃ s, es n = .answered s := by
  cases c with
  | setDesiredState inside a =>
      by_cases hvalid : a.valid = true
      · cases hread : read (es 0) (.package a.id) w with
        | error f =>
            refine .inl ⟨f, ?_, by rw [read_quiet _ _ _ f hread]; exact nofun⟩
            rw [Call.run, setDesiredState, if_pos hvalid]
            exact congrArg Prod.fst (exec_await_fails (congrArg (·, w) hread) _)
        | ok pkg =>
            obtain ⟨hs, hpkg⟩ := read_ok hread
            refine .inr ⟨a.mutation inside pkg, ?_, ?_⟩
            · simp [Call.mutation, hvalid, hpkg]
            · intro n hn
              obtain rfl := Nat.lt_one_iff.mp hn
              exact hs
      · rw [Call.run, setDesiredState, if_neg hvalid]
        exact .inl ⟨_, rfl, nofun⟩
  | setBindingEnabled a =>
      by_cases hvalid : a.valid = true
      · exact .inr ⟨a.mutation, if_pos hvalid, nofun⟩
      · rw [Call.run, setBindingEnabled, if_neg hvalid]
        exact .inl ⟨_, rfl, nofun⟩

theorem mutation_update (h : c.mutation w = some m) (x : Option Value) :
    c.mutation (Function.update w c.target x) = some m := by
  cases c with
  | setDesiredState inside a =>
      have hne : Target.package a.id ≠ .registration a.id := nofun
      rw [← h, Call.mutation, Call.mutation, Call.target, Function.update_of_ne hne]
  | setBindingEnabled a => exact h

theorem repeated_refused (h : c.run.exec answer es w = (.ok receipt, w')) {es' : Nat → Fate}
    (hes' : ∀ n < c.reads + 2, ∃ s, es' n = .answered s) :
    Violates (c.run.exec answer es' w').1 ∧ (c.run.exec answer es' w').2 = w' := by
  rcases run_cases c es w with ⟨f, hf, -⟩ | ⟨m, hm, hes⟩
  · rw [h] at hf
    cases hf
  · obtain ⟨hlawful, htarget⟩ := Call.mutation_cases hm
    rw [run_of_mutation hm hes] at h
    have hnext : c.mutation w' = some m := by
      rcases apply_cases hlawful (fun n => es (n + c.reads)) w with ⟨f, hf, -⟩ | ⟨x, before, s, observed, hrun⟩
      · rw [h] at hf
        cases hf
      · have hw' := hrun.2.2.2.2.2.2
        rw [h, htarget] at hw'
        rw [(Prod.mk.inj hw').2]
        exact mutation_update hm _
    rw [run_of_mutation hnext fun n hn => hes' n (Nat.lt_add_right 2 hn),
      apply_repeated hlawful h fun n hn => hes' (n + c.reads) (by omega)]
    exact ⟨⟨m.fault, rfl, rfl, rfl⟩, rfl⟩

theorem violates_iff (hfresh : Fresh c.target es w) : Violates (c.run.exec answer es w).1 ↔
    (∀ n < c.reads + 2, ∃ s, es n = .answered s) ∧ ∃ m, c.mutation w = some m ∧ m.Unchanged w := by
  constructor
  · intro hviolates
    rcases run_cases c es w with ⟨f, hf, hquiet⟩ | ⟨m, hm, hes⟩
    · obtain ⟨f', hf', -, hpresent⟩ := hviolates
      rw [hf] at hf'
      cases hf'
      exact absurd hpresent hquiet
    · obtain ⟨hlawful, htarget⟩ := Call.mutation_cases hm
      rw [run_of_mutation hm hes, apply_violates_iff hlawful
        (fun n s x => htarget ▸ hfresh (n + c.reads) s x)] at hviolates
      refine ⟨fun n hn => ?_, m, hm, hviolates.2⟩
      by_cases hlt : n < c.reads
      · exact hes n hlt
      · obtain ⟨s, hs⟩ := hviolates.1 (n - c.reads) (by omega)
        rw [Nat.sub_add_cancel (by omega)] at hs
        exact ⟨s, hs⟩
  · rintro ⟨hes, m, hm, hsame⟩
    obtain ⟨hlawful, htarget⟩ := Call.mutation_cases hm
    rw [run_of_mutation hm fun n hn => hes n (Nat.lt_add_right 2 hn), apply_violates_iff hlawful
      (fun n s x => htarget ▸ hfresh (n + c.reads) s x)]
    exact ⟨fun n hn => hes (n + c.reads) (by omega), hsame⟩

end

/-- **Calls that are repeated.**  A call that succeeded reports a violation with a present side effect when
it is made again and answered, and nothing changes; and a call reports one exactly if it is answered and
its object was as asked before. -/
theorem management_calls (c : Call) (w : Cluster) :
    (∀ es es' receipt w', c.run.exec answer es w = (.ok receipt, w') →
      (∀ n < c.reads + 2, ∃ s, es' n = .answered s) →
      Violates (c.run.exec answer es' w').1 ∧ (c.run.exec answer es' w').2 = w') ∧
    ∀ es, Fresh c.target es w → (Violates (c.run.exec answer es w).1 ↔
      (∀ n < c.reads + 2, ∃ s, es n = .answered s) ∧ ∃ m, c.mutation w = some m ∧ m.Unchanged w) :=
  ⟨fun _ _ _ _ h hes' => repeated_refused h hes', fun _ hfresh => violates_iff hfresh⟩

namespace Demo

/-- A binding that is disabled. -/
def binding : Value := .ofList [("apiVersion", .string "console.opensphere.io/v1alpha1"),
  ("kind", .string "CLIDownload"),
  ("metadata", .ofList [("name", .string "workforce-cli"), ("uid", .string "uid"),
    ("resourceVersion", .string "4"), ("generation", .number "1")]),
  ("spec", .ofList [("enabled", .boolean false), ("links", .array .nil)])]

def cluster : Cluster := fun t => if t = .binding "workforce-cli" then some binding else none

def enable : Call := .setBindingEnabled ⟨"workforce-cli", true⟩

def answers (resourceVersion : String) (_ : Nat) : Fate := .answered ⟨resourceVersion, .number "2"⟩

end Demo

theorem enable_repeated : ∃ receipt w',
    Demo.enable.run.exec answer (Demo.answers "5") Demo.cluster = (.ok receipt, w') ∧
      Violates (Demo.enable.run.exec answer (Demo.answers "6") w').1 := by
  have hok : (Demo.enable.run.exec answer (Demo.answers "5") Demo.cluster).1.toBool = true := by
    decide
  rcases hrun : Demo.enable.run.exec answer (Demo.answers "5") Demo.cluster with ⟨f | receipt, w'⟩
  · rw [hrun] at hok
    cases hok
  · exact ⟨receipt, w', rfl, (repeated_refused hrun fun n _ => ⟨_, rfl⟩).1⟩

theorem disable_violates : Violates ((Call.setBindingEnabled ⟨"workforce-cli", false⟩).run.exec answer
    (Demo.answers "5") Demo.cluster).1 := by
  have hfresh : Fresh (Call.setBindingEnabled ⟨"workforce-cli", false⟩).target (Demo.answers "5")
      Demo.cluster := by
    rintro n s x ⟨⟩ ⟨⟩
    decide
  refine ((management_calls (.setBindingEnabled ⟨"workforce-cli", false⟩) Demo.cluster).2 _ hfresh).mpr ?_
  have hmutation : (Call.setBindingEnabled ⟨"workforce-cli", false⟩).mutation Demo.cluster =
      some (BindingEnabled.mk "workforce-cli" false).mutation := by
    rw [Call.mutation, if_pos (by decide)]
  exact ⟨fun n _ => ⟨_, rfl⟩, _, hmutation, Demo.binding, ⟨"workforce-cli", "uid", "4", some 1⟩, rfl,
    by decide +kernel, rfl, by decide⟩

end Extension.Management
