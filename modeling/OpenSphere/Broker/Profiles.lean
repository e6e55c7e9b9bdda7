import OpenSphere.Broker.Client

/-!
# Profiles that are read back

What an input that was accepted says, and what `managedProfile` reads from an account after an
update.  An update of the profile with an accepted input is read as asked.  An update with the
profile that was read before brings it back, and brings back the account itself if that was in
the form the Console writes (`Account.Normal`).
-/

open Sql
open Js (Value Members)

namespace Broker

variable {L : Locale}
variable {user : User} {displayName email t : String} {p : Profile} {input : CreateInput}
  {x : Value}

/-! ## Text -/

@[simp] theorem text_string (t : String) : text (.string t) = .ok t := by
  by_cases h : t = "" <;> simp [text, Value.or, Value.truthy, Value.toText, h]

@[simp] theorem trimmed_string (t : String) : trimmed (.string t) = .ok (Js.trim t) := by
  simp [trimmed, Functor.map, Except.map]

theorem trimmed_eq_ok (h : trimmed x = .ok t) : Js.trim t = t := by
  rw [trimmed] at h
  cases hx : text x with
  | error e =>
      rw [hx] at h
      cases h
  | ok s =>
      rw [hx] at h
      cases h
      exact Js.trim_trim s

theorem or_of_truthy (h : x.truthy = true) (y : Value) : x.or y = x := by
  rw [Value.or, if_pos h]

theorem truthy_string (h : t ≠ "") : (Value.string t).truthy = true := by
  simp [Value.truthy, h]

theorem ne_empty_of_outside {lo hi : Nat} (hlo : 0 < lo)
    (h : outside t lo hi = false) : t ≠ "" := by
  rintro rfl
  simp only [outside, Bool.or_eq_false_iff, decide_eq_false_iff_not] at h
  exact h.1 hlo

theorem trim_of_within (h : ∀ c ∈ chars t, (!Js.whitespace c) = true) :
    Js.trim t = t :=
  Js.trim_eq_self fun c hc => by simpa using h c hc

theorem trim_username {n : Nat} (h : usernameFormat n t = true) : Js.trim t = t := by
  have hclass : ∀ c, orOneOf (fun c => lower c || digit c) ['.', '_', '-'] c = true →
      (!Js.whitespace c) = true := fun c hc => by simpa using Js.not_whitespace_of_name hc
  refine trim_of_within (Pattern.Within.full (Pattern.within_seq fun r hr => ?_) h)
  rcases List.mem_pair.mp hr with rfl | rfl
  · refine Pattern.within_repeated (fun c hc => hclass c ?_) _ _
    simp [orOneOf, hc]
  · exact Pattern.within_repeated hclass _ _

theorem trim_email (h : emailFormat t = true) : Js.trim t = t := by
  refine trim_of_within (Pattern.Within.full (Pattern.within_seq fun r hr => ?_) h)
  have hmail : Pattern.Within (!Js.whitespace ·) (.many1 mailChar) :=
    Pattern.within_repeated (fun c hc => (Bool.and_eq_true_iff.mp hc).2) _ _
  simp only [List.mem_cons, List.not_mem_nil, or_false] at hr
  rcases hr with rfl | rfl | rfl | rfl | rfl
  · exact hmail
  · exact Pattern.within_text (List.all_eq_true.mp (by decide))
  · exact hmail
  · exact Pattern.within_text (List.all_eq_true.mp (by decide))
  · exact hmail

/-! ## Inputs -/

structure Accepted (L : Locale) (displayName email : String) : Prop where
  trimName : Js.trim displayName = displayName
  named : displayName ≠ ""
  trimEmail : Js.trim email = email
  lower : L.toLowerCase email = email

theorem accepted_of_checks {y : Except Failure String}
    (hname : trimmed x = .ok displayName) (hemail : L.toLowerCase <$> y = .ok email)
    (hlength : outside displayName 1 120 = false) (hvalid : emailInvalid email = false) :
    Accepted L displayName email where
  trimName := trimmed_eq_ok hname
  named := ne_empty_of_outside Nat.one_pos hlength
  trimEmail := trim_email (by simpa [emailInvalid] using hvalid : _ ∧ _).2
  lower := by
    cases y with
    | error e => cases hemail
    | ok t =>
        cases hemail
        exact L.idempotent t

theorem createInput_eq_ok {body : Value} {key : String}
    (h : managedCreateInput L body key = .ok input) :
    usernameFormat 62 input.username = true ∧ Accepted L input.displayName input.email := by
  simp only [managedCreateInput, bind_eq_ok, failIf_eq_ok, Bool.or_eq_false_iff,
    Bool.not_eq_false'] at h
  obtain ⟨ms, -, username, -, displayName, hname, email, hemail, roles, -, _,
    ⟨⟨⟨⟨⟨⟨-, husername⟩, hlength⟩, -⟩, hvalid⟩, -⟩, -⟩, reason, -, k, -, heq⟩ := h
  cases heq
  exact ⟨husername, accepted_of_checks hname hemail hlength hvalid⟩

theorem profileInput_eq_ok {body : Value} {key : String} {input : ProfileInput}
    (h : managedProfileInput L body key = .ok input) : Accepted L input.displayName input.email := by
  simp only [managedProfileInput, bind_eq_ok, failIf_eq_ok, Bool.or_eq_false_iff] at h
  obtain ⟨ms, -, _, -, displayName, hname, email, hemail, _, ⟨⟨hlength, -⟩, hvalid⟩, reason, -, k, -,
    heq⟩ := h
  cases heq
  exact accepted_of_checks hname hemail hlength hvalid

/-! ## Metadata -/

@[simp] theorem get_put (k : String) (x : Value) (ms : Members) : (put k x ms).get k = x := by
  fun_induction put k x ms with
  | case1 => simp [Members.get]
  | case2 y ms => simp [Members.get]
  | case3 k' y ms h ih => simp [Members.get, h, ih]

theorem get_put_of_ne {k k' : String} (h : k' ≠ k) (x : Value) (ms : Members) :
    (put k x ms).get k' = ms.get k' := by
  fun_induction put k x ms with
  | case1 => simp [Members.get, h.symm]
  | case2 y ms => simp [Members.get, h.symm]
  | case3 k'' y ms hk ih => simp [Members.get, ih]

theorem put_put (k : String) (x y : Value) (ms : Members) :
    put k x (put k y ms) = put k x ms := by
  fun_induction put k y ms with
  | case1 => simp [put]
  | case2 z ms => simp [put]
  | case3 k' z ms h ih => simp [put, h, ih]

theorem put_get {k : String} : ∀ {ms : Members}, ms.get k = .string t → put k (.string t) ms = ms
  | .nil, h => by cases h
  | .cons k' y ms, h => by
      by_cases hk : k' = k
      · simp only [Members.get, hk, if_true] at h
        simp [put, hk, h]
      · simp only [Members.get, hk, if_false] at h
        simp [put, hk, put_get h]

/-! ## Profiles -/

theorem managedProfile_eq_ok (h : managedProfile L user = .ok p) :
    p.id = user.id.text ∧ p.email = L.toLowerCase (Js.trim user.email) ∧
      trimmed ((user.metadata.get "preferred_username").or (.string (localPart p.email))) =
        .ok p.username ∧
      trimmed ((user.metadata.get "display_name").or
        ((user.metadata.get "name").or (.string p.username))) = .ok p.displayName ∧
      p.enabled = user.enabled := by
  simp only [managedProfile, bind_eq_ok] at h
  obtain ⟨username, husername, displayName, hname, _, -, heq⟩ := h
  cases heq
  exact ⟨rfl, rfl, husername, hname, rfl⟩

theorem displayName_of_metadata
    (h : managedProfile L user = .ok p) (ht : user.metadata.get "display_name" = .string t)
    (hne : t ≠ "") : p.displayName = Js.trim t := by
  obtain ⟨-, -, -, hname, -⟩ := managedProfile_eq_ok h
  rw [ht, or_of_truthy (truthy_string hne), trimmed_string] at hname
  exact (Except.ok.inj hname).symm

theorem created_profile {S : Service}
    (husername : usernameFormat 62 input.username = true)
    (haccepted : Accepted S.toLocale input.displayName input.email)
    (hemail : user.email = input.email)
    (hmetadata : user.metadata = namedMetadata input.username input.displayName)
    (h : managedProfile S.toLocale user = .ok p) :
    p.username = input.username ∧ p.displayName = input.displayName ∧ p.email = input.email := by
  have hne : input.username ≠ "" := by
    rintro hempty
    rw [hempty] at husername
    exact absurd husername (by decide)
  obtain ⟨-, hread, hname, -, -⟩ := managedProfile_eq_ok h
  refine ⟨?_, ?_, ?_⟩
  · rw [hmetadata, show (namedMetadata input.username input.displayName).get "preferred_username" =
      .string input.username from rfl, or_of_truthy (truthy_string hne), trimmed_string,
      trim_username husername] at hname
    exact (Except.ok.inj hname).symm
  · rw [displayName_of_metadata h (hmetadata ▸ rfl) haccepted.named, haccepted.trimName]
  · rw [hread, hemail, haccepted.trimEmail, haccepted.lower]

theorem confirmCreated_eq_ok {S : Service}
    (haccepted : Accepted S.toLocale input.displayName input.email)
    (hsubject : subjectFormat user.id.text = true) (h : managedProfile S.toLocale user = .ok p)
    (husername : p.username = input.username) (hname : p.displayName = input.displayName)
    (hemail : p.email = input.email) : confirmCreated S input user = .ok user.id.text := by
  simp [confirmCreated, userSubject, failIf, hsubject, h, husername, hname, hemail, haccepted.lower,
    bind, Except.bind, pure, Except.pure]

/-- An update of the profile with an accepted input is read as asked. -/
theorem updated_profile
    (haccepted : Accepted L displayName email)
    (h : managedProfile L (user.update (profilePatch displayName email user)) = .ok p) :
    p.displayName = displayName ∧ p.email = email := by
  refine ⟨?_, ?_⟩
  · rw [displayName_of_metadata h (get_put ..) haccepted.named, haccepted.trimName]
  · obtain ⟨-, hread, -⟩ := managedProfile_eq_ok h
    rw [hread, show (user.update (profilePatch displayName email user)).email = email from rfl,
      haccepted.trimEmail, haccepted.lower]

def Account.Normal (L : Locale) (a : Account) : Prop :=
  (∃ t, a.metadata.get "display_name" = .string t ∧ Js.trim t = t ∧ t ≠ "") ∧
    L.toLowerCase (Js.trim a.email) = a.email

/-- An update with the profile that was read before brings it back. -/
theorem restored_profile {before after : Profile}
    (hbefore : managedProfile L user = .ok before)
    (hafter : managedProfile L ((user.update (profilePatch displayName email user)).update
      (profilePatch before.displayName before.email
        (user.update (profilePatch displayName email user)))) = .ok after)
    (hname : after.displayName = before.displayName)
    (hemail : after.email = L.toLowerCase before.email) : after = before := by
  obtain ⟨hid, hread, husername, -, henabled⟩ := managedProfile_eq_ok hbefore
  obtain ⟨hid', -, husername', -, henabled'⟩ := managedProfile_eq_ok hafter
  have hsame : after.email = before.email := by rw [hemail, hread, L.idempotent]
  have hmetadata : ((user.update (profilePatch displayName email user)).update
      (profilePatch before.displayName before.email
        (user.update (profilePatch displayName email user)))).metadata.get "preferred_username" =
      user.metadata.get "preferred_username" := by
    show (put _ _ (put _ _ _)).get _ = _
    rw [get_put_of_ne (by decide), get_put_of_ne (by decide)]
  rw [hmetadata, hsame, husername] at husername'
  cases before
  cases after
  simp only [Profile.mk.injEq]
  exact ⟨hid'.trans hid.symm, (Except.ok.inj husername').symm, hname, hsame,
    henabled'.trans henabled.symm⟩

/-- An update with the profile that was read before brings back an account in normal form. -/
theorem restored_account {before : Profile}
    (hnormal : user.toAccount.Normal L) (hbefore : managedProfile L user = .ok before) :
    (user.update (profilePatch displayName email user)).update
      (profilePatch before.displayName before.email
        (user.update (profilePatch displayName email user))) = user := by
  obtain ⟨⟨t, ht, htrim, hne⟩, hemail⟩ := hnormal
  obtain ⟨-, hread, -⟩ := managedProfile_eq_ok hbefore
  have hname : before.displayName = t := by
    rw [displayName_of_metadata hbefore ht hne, htrim]
  have hmetadata : put "display_name" (.string before.displayName)
      (put "display_name" (.string displayName) user.metadata) = user.metadata := by
    rw [put_put, hname, put_get ht]
  have haddress : before.email = user.email := hread.trans hemail
  cases user
  simp only [User.update, profilePatch] at hmetadata haddress ⊢
  simp only [hmetadata, haddress]

end Broker
