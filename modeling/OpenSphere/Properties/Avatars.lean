import OpenSphere.Broker.Avatar
import OpenSphere.System.Alone

/-!
# Uploaded avatars

The object is replaced before the metadata, and removed after an error of the metadata.  So the two
agree in every run in which an upload starts alone and over no upload that is shown, and no
provider's answer to it is lost.

While an upload is under way, no metadata says so before its own request does.  The other calls
then read no upload, and touch nothing (`Free`), and the upload itself finds the object as it left
it (`Guarded`).  At other times the calls under way remove the object only when it is not shown
(`keeping`).  What is stored and served is a validated image in every run.
-/

open Sql (chars chars_ofList hexLower)
open Js (Value)
open System (Program Pool Move Safe Yields Discipline Along safe_ask safe_lift_bind yields_throw)

namespace Avatar

variable {L : Library} {w w' : World} {q : Request}
variable {linked : List Candidate} {p : Service} {u : Upload}

def shown (w : World) : Bool :=
  match w.metadata with
  | some (.upload _ _) => true
  | _ => false

def Matches (L : Library) (w : World) : Prop :=
  ∀ d t, w.metadata = some (.upload d t) → ∃ bytes, w.object = some (bytes, t) ∧ digestOf L bytes = d

theorem matches_of_not_shown (h : shown w = false) : Matches L w := by
  intro d t hmetadata
  rw [shown, hmetadata] at h
  cases h

/-! ## Digests -/

theorem length_hex (bytes : List UInt8) : (Domain.hex bytes).length = 2 * bytes.length := by
  induction bytes with
  | nil => rfl
  | cons b bytes ih =>
      rw [Domain.hex, List.flatMap_cons, List.length_append, ← Domain.hex, ih, List.length_cons]
      simp only [List.length_cons, List.length_nil]
      omega

theorem digestFormat_digestOf (bytes : List UInt8) : digestFormat (digestOf L bytes) = true := by
  have hname : (chars "sha256:").length = 7 := by decide
  rw [digestFormat, digestOf, chars_ofList, List.take_left' hname, List.drop_left' hname,
    List.length_append, hname, length_hex, L.length_sha256, beq_self_eq_true]
  simp only [Bool.true_and, Nat.reduceMul, Nat.reduceAdd, beq_self_eq_true, List.all_eq_true]
  intro c hc
  obtain ⟨b, -, hb⟩ := List.mem_flatMap.mp hc
  have hlt := b.toNat_lt
  rcases List.mem_pair.mp hb with rfl | rfl
  · exact Sql.hexLower_digitChar (by omega)
  · exact Sql.hexLower_digitChar (by omega)

/-! ## Other calls -/

/-- The calls keep what is shown, and let nothing be shown that was not. -/
def keeping (L : Library) : Discipline Fate Request World where
  valid := Matches L
  rely w w' := shown w = false → shown w' = false
  guarantee w w' := shown w = false → shown w' = false
  allowed _ _ _ := True

theorem keeping_closed : (keeping L).Closed where
  refl _ := id
  trans h h' := h' ∘ h
  share := id

abbrev Kept (L : Library) (p : Service) (w : World) : Prop :=
  Safe (answer L) (keeping L) (fun _ _ => True) p w

theorem kept_pure {x : Result} : Kept L (pure x) w := System.safe_pure.mpr trivial

theorem kept_throw {e : Fault} : Kept L (.throw e) w := System.safe_throw.mpr trivial

def quiet : Request → Bool
  | .updateProfileAvatar (.upload _ _) => false
  | .upsertAvatar _ _ => false
  | .deleteAvatar => false
  | _ => true

/-- While an upload is under way, the call makes only requests that are quiet, and it keeps to the
discipline from everywhere. -/
def Free (L : Library) : Service → Prop
  | .pure _ => True
  | .throw _ => True
  | .ask q next => quiet q = true ∧ (∀ w, Kept L (.ask q next) w) ∧
      ∀ e w, shown w = false → Free L (next (answer L e q w).1)

theorem Free.kept (h : Free L p) (w : World) : Kept L p w := by
  cases p with
  | pure x => exact kept_pure
  | throw e => exact kept_throw
  | ask q next => exact h.2.1 w

theorem quiet_effect (hq : quiet q = true) (h : shown w = false) :
    shown (effect w q) = false ∧ (effect w q).object = w.object := by
  cases q with
  | updateProfileAvatar m =>
      cases m with
      | upload d t => cases hq
      | initial => exact ⟨rfl, rfl⟩
      | linked c => exact ⟨rfl, rfl⟩
  | upsertAvatar bytes t => cases hq
  | deleteAvatar => cases hq
  | _ => exact ⟨h, rfl⟩

theorem quiet_matches (hq : quiet q = true) (h : Matches L w) : Matches L (effect w q) := by
  cases q with
  | updateProfileAvatar m =>
      cases m with
      | upload d t => cases hq
      | initial => exact matches_of_not_shown rfl
      | linked c => exact matches_of_not_shown rfl
  | upsertAvatar bytes t => cases hq
  | deleteAvatar => cases hq
  | _ => exact h

theorem answer_world (e : Fate) (q : Request) (w : World) :
    (answer L e q w).2 = w ∨ (answer L e q w).2 = effect w q := by
  cases e with
  | fails => exact .inl rfl
  | lost => exact .inr rfl
  | answered linked => exact .inr rfl

theorem quiet_answer (hq : quiet q = true) (e : Fate) :
    (Matches L w → Matches L (answer L e q w).2) ∧
      (shown w = false → shown (answer L e q w).2 = false ∧ (answer L e q w).2.object = w.object) := by
  rcases answer_world (L := L) e q w with h | h
  · rw [h]
    exact ⟨id, fun hw => ⟨hw, rfl⟩⟩
  · rw [h]
    exact ⟨quiet_matches hq, quiet_effect hq⟩

theorem kept_await {f : Answer q → Service} (hq : quiet q = true)
    (h : ∀ linked w', Matches L w' → (shown w = false → shown w' = false) → ∀ x,
      reply L linked (effect w' q) q = .ok x → Kept L (f x) (effect w' q)) :
    Kept L (Program.await q >>= f) w := by
  refine safe_ask.mpr fun e w' hvalid hrely _ => ?_
  refine ⟨(quiet_answer hq e).1 hvalid, fun hw => ((quiet_answer hq e).2 hw).1, ?_⟩
  cases e with
  | fails => exact kept_throw
  | lost => exact kept_throw
  | answered linked =>
      dsimp only [answer]
      cases hreply : reply L linked (effect w' q) q with
      | error e => exact kept_throw
      | ok x => exact h linked w' hvalid hrely x hreply

theorem free_await {f : Answer q → Service} (hq : quiet q = true)
    (hkept : ∀ linked w, Matches L w → ∀ x, reply L linked (effect w q) q = .ok x →
      Kept L (f x) (effect w q))
    (hfree : ∀ linked w, shown w = false → ∀ x, reply L linked (effect w q) q = .ok x →
      Free L (f x)) : Free L (Program.await q >>= f) := by
  refine ⟨hq, fun w => kept_await hq fun linked w' hvalid _ => hkept linked w' hvalid, ?_⟩
  intro e w hw
  cases e with
  | fails => trivial
  | lost => trivial
  | answered linked =>
      dsimp only [answer]
      cases hreply : reply L linked (effect w q) q with
      | error e => trivial
      | ok x => exact hfree linked w hw x hreply

theorem free_next {f : Answer q → Service} (hq : quiet q = true) (h : ∀ x, Free L (f x)) :
    Free L (Program.await q >>= f) :=
  free_await hq (fun _ _ _ x _ => (h x).kept _) fun _ _ _ x _ => h x

/-! ## What is read -/

theorem upload_of_projection {m : Option Metadata} {d t : String}
    (h : (avatarProjection L linked m).current = .upload d t) : m = some (.upload d t) := by
  cases m with
  | none => cases linked <;> cases h
  | some m =>
      cases m with
      | initial => cases h
      | linked c =>
          rw [avatarProjection] at h
          dsimp only at h
          cases hfind : linked.find? fun candidate => candidate.provider = c.provider ∧
              candidate.url = L.httpsAvatarUrl c.url with
          | none => rw [hfind] at h; cases h
          | some c' => rw [hfind] at h; cases h
      | upload d' t' =>
          rw [avatarProjection] at h
          dsimp only at h
          split_ifs at h
          rw [h]

theorem selection_quiet {body : Value} {m : Metadata}
    (h : validateAvatarSelection L body linked = .ok m) :
    quiet (.updateProfileAvatar m) = true ∧ ∀ d t, m ≠ .upload d t := by
  unfold validateAvatarSelection at h
  cases hbody : plainObject body with
  | none =>
      rw [hbody] at h
      cases h
  | some ms =>
      rw [hbody] at h
      dsimp only at h
      split_ifs at h
      · cases h
        exact ⟨rfl, nofun⟩
      · cases hprovider : textOf (ms.get "provider") with
        | error e =>
            rw [hprovider] at h
            cases h
        | ok provider =>
            cases hurl : textOf (ms.get "url") with
            | error e =>
                rw [hprovider, hurl] at h
                cases h
            | ok url =>
                rw [hprovider, hurl] at h
                simp only [bind, Except.bind] at h
                split at h
                · cases h
                · cases h
                  exact ⟨rfl, nofun⟩

theorem kept_deleteQuietly {next : Service} (h : shown w = false)
    (hnext : ∀ w, Kept L next w) : Kept L (deleteQuietly next) w := by
  refine safe_ask.mpr fun e w' hvalid hrely _ => ?_
  have hw' := hrely h
  have hshown : shown (answer L e .deleteAvatar w').2 = false := by
    rcases answer_world (L := L) e .deleteAvatar w' with h | h
    · rw [h]
      exact hw'
    · rw [h]
      exact hw'
  exact ⟨matches_of_not_shown hshown, fun _ => hshown, hnext _⟩

/-- A call that selects removes the object only when another avatar is shown. -/
theorem free_select (body : Value) : Free L (selectProfileAvatar L body) := by
  refine free_next rfl fun _ => free_next rfl fun _ => free_await rfl ?_ ?_
  · intro linked w _ current _
    refine safe_lift_bind (fun m hselect => ?_) fun e _ => trivial
    obtain ⟨hquiet, hupload⟩ := selection_quiet hselect
    refine kept_await hquiet fun linked w' _ _ updated _ => ?_
    have hshown : shown (effect w' (.updateProfileAvatar m)) = false := by
      cases m with
      | upload d t => exact absurd rfl (hupload d t)
      | initial => rfl
      | linked c => rfl
    cases current.current with
    | upload d t => exact kept_deleteQuietly hshown fun _ => kept_pure
    | initial => exact kept_pure
    | linked c => exact kept_pure
  · intro linked w hw current hcurrent
    cases hselect : validateAvatarSelection L body current.linkedAccounts with
    | error e => trivial
    | ok m =>
        refine free_next (selection_quiet hselect).1 fun updated => ?_
        cases hread : current.current with
        | upload d t =>
            cases hcurrent
            have hmetadata : w.metadata = some (.upload d t) := upload_of_projection hread
            rw [shown, hmetadata] at hw
            cases hw
        | initial => trivial
        | linked c => trivial

theorem free_content (digest : String) : Free L (readProfileAvatarContent L digest) := by
  unfold readProfileAvatarContent
  split_ifs
  · trivial
  · refine free_next rfl fun _ => free_next rfl fun _ => free_next rfl fun current => ?_
    cases current.current with
    | initial => trivial
    | linked c => trivial
    | upload d t =>
        dsimp only
        split_ifs
        · trivial
        · refine free_next rfl fun object => ?_
          split_ifs
          · trivial
          · trivial

/-! ## The upload -/

def Ended (p : Service) : Prop :=
  match p with
  | .ask _ _ => False
  | _ => True

def shows : Request → Bool
  | .updateProfileAvatar (.upload _ _) => true
  | _ => false

/-- The upload goes on in a world where no upload is shown, and others change nothing but what is
shown, to no upload.  Once it is shown the upload has ended, and what is shown is the object. -/
def Guarded (L : Library) : Service → World → Prop
  | .pure _, _ => True
  | .throw _, _ => True
  | .ask q next, w => ∀ e w', shown w' = false → w'.object = w.object → (shows q = true → e ≠ .lost) →
      (shown (answer L e q w').2 = true →
        Matches L (answer L e q w').2 ∧ Ended (next (answer L e q w').1)) ∧
      (shown (answer L e q w').2 = false →
        Guarded L (next (answer L e q w').1) (answer L e q w').2)

theorem guarded_deleteQuietly {e : Fault} : Guarded L (deleteQuietly (.throw e)) w := by
  intro fate w' hw' _ _
  have hshown : shown (answer L fate .deleteAvatar w').2 = false := by
    rcases answer_world (L := L) fate .deleteAvatar w' with h | h
    · rw [h]
      exact hw'
    · rw [h]
      exact hw'
  exact ⟨fun h => absurd (hshown.symm.trans h) (by decide), fun _ => trivial⟩

theorem reply_upload (hdigest : u.digest = digestOf L u.bytes)
    (htype : u.contentType ∈ contentTypes)
    (hw : w.metadata = some (.upload u.digest u.contentType)) :
    reply L linked w (.updateProfileAvatar (.upload u.digest u.contentType)) =
      .ok ⟨.upload u.digest u.contentType, linked⟩ := by
  have hformat : (digestFormat u.digest && contentTypes.contains u.contentType) = true := by
    rw [hdigest, digestFormat_digestOf, Bool.true_and]
    exact List.elem_eq_true_of_mem htype
  simp only [reply, hw, avatarProjection, hformat, if_true]

structure Upload.Valid (L : Library) (u : Upload) : Prop where
  digest : u.digest = digestOf L u.bytes
  type : u.contentType ∈ contentTypes

/-- What `validateAvatarUpload` lets pass. -/
structure Image (bytes : List UInt8) (t : String) : Prop where
  type : t ∈ contentTypes
  magic : hasMagic bytes t = true
  size : bytes ≠ [] ∧ bytes.length ≤ maxBytes

theorem uploadBytes_size {x : Value} {bytes : List UInt8} (h : uploadBytes x = .ok (some bytes)) :
    bytes ≠ [] ∧ bytes.length ≤ maxBytes := by
  unfold uploadBytes at h
  cases htext : textOf x with
  | error e =>
      rw [htext] at h
      cases h
  | ok raw =>
  rw [htext] at h
  simp only [bind, Except.bind] at h
  split_ifs at h with hraw hbytes
  · cases h
  · cases h
  · cases h
    exact ⟨fun hnil => hbytes (.inl hnil), Nat.not_lt.mp fun hlt => hbytes (.inr (.inl hlt))⟩

theorem validateAvatarUpload_eq_ok {body : Value} (h : validateAvatarUpload L body = .ok u) :
    u.digest = digestOf L u.bytes ∧ Image u.bytes u.contentType := by
  unfold validateAvatarUpload at h
  cases hbody : plainObject body with
  | none =>
      rw [hbody] at h
      cases h
  | some ms =>
      rw [hbody] at h
      dsimp only at h
      split_ifs at h
      simp only [bind, Except.bind, pure, Except.pure, throw, throwThe, MonadExceptOf.throw] at h
      split at h
      · cases h
      · split_ifs at h with htype
        split at h
        · cases h
        next hbytes =>
          split at h
          · cases h
          next =>
            split_ifs at h with hmagic
            cases h
            exact ⟨rfl, htype, by simpa using hmagic, uploadBytes_size hbytes⟩

theorem validateAvatarUpload_valid {body : Value}
    (h : validateAvatarUpload L body = .ok u) : u.Valid L :=
  ⟨(validateAvatarUpload_eq_ok h).1, (validateAvatarUpload_eq_ok h).2.type⟩

def record (u : Upload) : Service :=
  Program.tryCatch
    (do
      let _ ← Program.await .decrypt
      let updated : Projection ← Program.await
        (Request.updateProfileAvatar (.upload u.digest u.contentType))
      match updated.current with
      | .upload digest _ =>
          if digest ≠ u.digest then .throw .authorityUnavailable
          else pure (.projection updated)
      | _ => .throw .authorityUnavailable)
    fun e => deleteQuietly (.throw e)

theorem not_shown_absurd {P : Prop} (h : shown w = false) (htrue : shown w = true) : P :=
  absurd (h.symm.trans htrue) (by decide)

/-- The object is there, and the metadata follows or the object goes. -/
theorem guarded_record (hu : u.Valid L)
    (hobject : w.object = some (u.bytes, u.contentType)) : Guarded L (record u) w := by
  intro e w' hw' hobject' _
  cases e with
  | fails | lost => exact ⟨not_shown_absurd hw', fun _ => guarded_deleteQuietly⟩
  | answered linked =>
      refine ⟨not_shown_absurd hw', fun _ e w'' hw'' hobject'' hlost => ?_⟩
      cases e with
      | fails => exact ⟨not_shown_absurd hw'', fun _ => guarded_deleteQuietly⟩
      | lost => exact absurd rfl (hlost rfl)
      | answered linked =>
          refine ⟨fun _ => ⟨fun d t hmetadata => ?_, ?_⟩, fun h => nomatch h⟩
          · cases hmetadata
            exact ⟨u.bytes, hobject''.trans (hobject'.trans hobject), hu.digest.symm⟩
          · have hreply : reply L linked (effect w'' (.updateProfileAvatar (.upload u.digest
              u.contentType))) (.updateProfileAvatar (.upload u.digest u.contentType)) =
                .ok ⟨.upload u.digest u.contentType, linked⟩ := reply_upload hu.digest hu.type rfl
            dsimp only [answer]
            rw [hreply]
            show Ended (Program.tryCatch (if u.digest ≠ u.digest then _ else _) _)
            rw [if_neg (not_not.mpr rfl)]
            trivial

/-- An upload goes on as it should from wherever no upload is shown. -/
theorem guarded_upload (body : Value) : Guarded L (uploadProfileAvatar L body) w := by
  unfold uploadProfileAvatar
  cases hupload : validateAvatarUpload L body with
  | error e => trivial
  | ok u =>
      intro e w' hw' _ _
      cases e with
      | fails | lost => exact ⟨not_shown_absurd hw', fun _ => trivial⟩
      | answered linked =>
          refine ⟨not_shown_absurd hw', fun _ e w'' hw'' _ _ => ?_⟩
          cases e with
          | fails | lost => exact ⟨not_shown_absurd hw'', fun _ => trivial⟩
          | answered linked =>
              exact ⟨not_shown_absurd hw'',
                fun _ => guarded_record (validateAvatarUpload_valid hupload) rfl⟩

/-! ## Runs -/

abbrev Calls := Pool Fault Request Answer Result Call World

/-- An upload starts alone and over no upload that is shown, and the answer to what it lets be shown
is not lost. -/
def Single (m : Move Call Fate Empty) (s : Calls) : Prop :=
  match m with
  | .start (.upload _) => shown s.world = false ∧ ∀ task ∈ s.tasks, Ended task.rest
  | .step i .lost => ∀ t q next, s.tasks[i]? = some ⟨t, .ask q next⟩ → shows q = false
  | _ => True

inductive Sound (L : Library) (s : Calls) : Prop where
  | resting : Matches L s.world → (∀ task ∈ s.tasks, Kept L task.rest s.world) → Sound L s
  /-- An upload is under way. -/
  | uploading (i : ℕ) (upload) : shown s.world = false → s.tasks[i]? = some upload →
      Guarded L upload.rest s.world →
      (∀ j task, j ≠ i → s.tasks[j]? = some task → Free L task.rest) → Sound L s

theorem Sound.matches {s : Calls} (h : Sound L s) : Matches L s.world := by
  cases h with
  | resting hmatches _ => exact hmatches
  | uploading i upload hw _ _ _ => exact matches_of_not_shown hw

theorem Ended.free (h : Ended p) : Free L p := by
  cases p with
  | pure x => trivial
  | throw e => trivial
  | ask q next => exact h.elim

theorem Ended.kept (h : Ended p) : Kept L p w := h.free.kept w

theorem free_program (c : Call) (h : ∀ body, c ≠ .upload body) : Free L ((setting L).program c) := by
  cases c with
  | select body => exact free_select body
  | upload body => exact absurd rfl (h body)
  | content digest => exact free_content digest

theorem Kept.step {next : Except Fault (Answer q) → Service} (h : Kept L (.ask q next) w)
    (hw : Matches L w) (e : Fate) : Matches L (answer L e q w).2 ∧
      (shown w = false → shown (answer L e q w).2 = false) ∧
      Kept L (next (answer L e q w).1) (answer L e q w).2 :=
  safe_ask.mp h e w hw id trivial

theorem Kept.later (h : Kept L p w) (hw : shown w = false → shown w' = false) :
    Kept L p w' :=
  System.Safe.later keeping_closed.trans (fun _ _ _ _ h => h) h hw

/-- What another call does while an upload is under way. -/
theorem Guarded.later (h : Guarded L p w) (hw : w'.object = w.object) :
    Guarded L p w' := by
  cases p with
  | pure x => trivial
  | throw e => trivial
  | ask q next =>
      intro e w'' hw'' hobject hlost
      exact h e w'' hw'' (hobject.trans hw) hlost

section

variable {s : Calls} {i : ℕ}

theorem mem_of_concat {tasks : List (System.Task Fault Request Answer Result Call)} {new task}
    {j : ℕ} (h : (tasks ++ [new])[j]? = some task) (hj : j ≠ tasks.length) :
    tasks[j]? = some task := by
  have hlength := (List.getElem?_eq_some_iff.mp h).1
  rw [List.length_append, List.length_singleton] at hlength
  rwa [List.getElem?_append_left (by omega)] at h

theorem Sound.start (h : Sound L s) (c : Call) (hc : Single (.start c) s) :
    Sound L ⟨s.world, s.tasks ++ [⟨c, (setting L).program c⟩]⟩ := by
  by_cases hupload : ∃ body, c = .upload body
  · obtain ⟨body, rfl⟩ := hupload
    exact .uploading s.tasks.length _ hc.1 List.getElem?_concat_length (guarded_upload body)
      fun j task hj htask => (hc.2 task (List.mem_of_getElem? (mem_of_concat htask hj))).free
  · have hfree := free_program (L := L) c fun body hbody => hupload ⟨body, hbody⟩
    cases h with
    | resting hmatches htasks =>
        refine .resting hmatches fun task htask => ?_
        rcases List.mem_append.mp htask with hold | hnew
        · exact htasks task hold
        · obtain rfl := List.mem_singleton.mp hnew
          exact hfree.kept _
    | uploading i upload hw hi hguarded hothers =>
        have hlt := (List.getElem?_eq_some_iff.mp hi).1
        refine .uploading i upload hw ((List.getElem?_append_left hlt).trans hi) hguarded
          fun j task hj htask => ?_
        by_cases hlast : j = s.tasks.length
        · subst hlast
          rw [List.getElem?_concat_length] at htask
          cases htask
          exact hfree
        · exact hothers j task hj (mem_of_concat htask hlast)

theorem Sound.crash (h : Sound L s) (k : ℕ) : Sound L ⟨s.world, s.tasks.eraseIdx k⟩ := by
  cases h with
  | resting hmatches htasks =>
      exact .resting hmatches fun task htask => htasks task (List.mem_of_mem_eraseIdx htask)
  | uploading i upload hw hi hguarded hothers =>
      have hother : ∀ j task, (s.tasks.eraseIdx k)[j]? = some task →
          (if j < k then j else j + 1) ≠ i → Free L task.rest := by
        intro j task htask hj
        rw [List.getElem?_eraseIdx] at htask
        split_ifs at htask hj with hlt
        · exact hothers j task hj htask
        · exact hothers (j + 1) task hj htask
      rcases lt_trichotomy k i with hlt | rfl | hlt
      · refine .uploading (i - 1) upload hw ?_ hguarded fun j task hj htask =>
          hother j task htask (by split_ifs <;> omega)
        rw [List.getElem?_eraseIdx, if_neg (by omega), Nat.sub_add_cancel (by omega)]
        exact hi
      · refine .resting (matches_of_not_shown hw) fun task htask => ?_
        obtain ⟨j, htask⟩ := List.mem_iff_getElem?.mp htask
        exact (hother j task htask (by split_ifs <;> omega)).kept _
      · refine .uploading i upload hw ?_ hguarded fun j task hj htask =>
          hother j task htask (by split_ifs <;> omega)
        rw [List.getElem?_eraseIdx, if_pos hlt]
        exact hi

theorem Sound.step (h : Sound L s) {e : Fate} {t : Call} {next : Except Fault (Answer q) → Service}
    (hi : s.tasks[i]? = some ⟨t, .ask q next⟩) (hlost : shows q = true → e ≠ .lost) :
    Sound L ⟨(answer L e q s.world).2, s.tasks.set i ⟨t, next (answer L e q s.world).1⟩⟩ := by
  have hlt := (List.getElem?_eq_some_iff.mp hi).1
  cases h with
  | resting hmatches htasks =>
      obtain ⟨hmatches', hshown, hnext⟩ := Kept.step (htasks _ (List.mem_of_getElem? hi)) hmatches e
      refine .resting hmatches' fun task htask => ?_
      rcases System.mem_set_cases htask with rfl | hold
      · exact hnext
      · exact Kept.later (htasks task hold) hshown
  | uploading k upload hw hk hguarded hothers =>
      by_cases hki : k = i
      · subst hki
        cases hi.symm.trans hk
        obtain ⟨hends, hgoes⟩ := hguarded e s.world hw rfl hlost
        have hothers' : ∀ j task, j ≠ k →
            (s.tasks.set k ⟨t, next (answer L e q s.world).1⟩)[j]? = some task →
            Free L task.rest := by
          intro j task hj htask
          rw [List.getElem?_set_ne hj.symm] at htask
          exact hothers j task hj htask
        cases hshown : shown (answer L e q s.world).2 with
        | false => exact .uploading k _ hshown (List.getElem?_set_self hlt) (hgoes hshown) hothers'
        | true =>
            obtain ⟨hmatches, hended⟩ := hends hshown
            refine .resting hmatches fun task htask => ?_
            obtain ⟨j, hj⟩ := List.mem_iff_getElem?.mp htask
            by_cases hjk : j = k
            · subst hjk
              rw [List.getElem?_set_self hlt] at hj
              cases hj
              exact hended.kept
            · exact (hothers' j task hjk hj).kept _
      · have hfree := hothers i _ (Ne.symm hki) hi
        obtain ⟨hshown, hobject⟩ := (quiet_answer (L := L) hfree.1 e).2 hw
        refine .uploading k upload hshown ((List.getElem?_set_ne (Ne.symm hki)).trans hk)
          (hguarded.later hobject) fun j task hj htask => ?_
        by_cases hji : j = i
        · subst hji
          rw [List.getElem?_set_self hlt] at htask
          cases htask
          exact hfree.2.2 e s.world hw
        · rw [List.getElem?_set_ne (Ne.symm hji)] at htask
          exact hothers j task hj htask

theorem Sound.perform (h : Sound L s) {m : Move Call Fate Empty} (hm : Single m s) :
    Sound L (s.perform (setting L) m) := by
  generalize hs' : s.perform (setting L) m = s'
  have hcases := s.perform_cases (setting L) m
  rw [hs'] at hcases
  cases hcases with
  | idle i e => exact h
  | start t => exact h.start t hm
  | crash i => exact h.crash i
  | outside x => exact x.elim
  | step i e t q next hi =>
      refine h.step hi fun hshows hlost => ?_
      subst hlost
      rw [hm t q next hi] at hshows
      cases hshows

end

/-- Whenever the metadata says that an upload is shown, the object is there with its digest and its
type, in every run in which uploads start alone and over no upload that is shown, and the answer to
what an upload writes into the metadata is not lost. -/
theorem avatar_matches (L : Library) (w : World) (hw : Matches L w)
    (ms : List (Move Call Fate Empty))
    (hms : Along (Pool.perform (setting L)) Single ms ⟨w, []⟩) :
    Matches L (System.run (Pool.perform (setting L)) ms ⟨w, []⟩).world :=
  (Along.invariant (fun _ _ hs hm => Sound.perform hs hm) hms
    (Sound.resting hw fun _ h => absurd h List.not_mem_nil)).matches

/-! ## What is served -/

/-- Between any two answers what is stored is an image. -/
def imaging : Discipline Fate Request World where
  valid w := ∀ bytes t, w.object = some (bytes, t) → Image bytes t
  rely _ _ := True
  guarantee _ _ := True
  allowed _ _ _ := True

def Storable : Request → Prop
  | .upsertAvatar bytes t => Image bytes t
  | _ => True

theorem storable_answer (e : Fate) (q : Request) (w : World) (hq : Storable q)
    (hw : imaging.valid w) : imaging.valid (answer L e q w).2 ∧ imaging.guarantee w (answer L e q w).2 := by
  refine ⟨?_, trivial⟩
  rcases answer_world (L := L) e q w with h | h <;> rw [h]
  · exact hw
  · cases q with
    | upsertAvatar =>
        rintro _ _ ⟨⟩
        exact hq
    | deleteAvatar => rintro _ _ ⟨⟩
    | _ => exact hw

/-- What a call may return: as content, an image with the digest that was asked for. -/
def Served (L : Library) (c : Call) (r : Result) : Prop :=
  ∀ bytes t d, r = .content bytes t d → c = .content d ∧ digestOf L bytes = d ∧ Image bytes t

theorem served_projection {c : Call} {x : Projection} : Served L c (.projection x) := by
  rintro _ _ _ ⟨⟩

theorem storable_next {f : Answer q → Service} {post : Result → Prop} (hq : Storable q)
    (h : ∀ x, (f x).Keeps Storable post) : (Program.await q >>= f).Keeps Storable post :=
  (Program.keeps_await hq).seq h

theorem select_served (body : Value) :
    (selectProfileAvatar L body).Keeps Storable (Served L (.select body)) := by
  refine storable_next trivial fun _ => storable_next trivial fun _ => storable_next trivial fun _ => ?_
  refine (Program.keeps_lift fun _ _ => trivial).seq fun _ => storable_next trivial fun _ => ?_
  split
  · exact ⟨trivial, fun _ => served_projection⟩
  · exact served_projection

theorem upload_served (body : Value) :
    (uploadProfileAvatar L body).Keeps Storable (Served L (.upload body)) := by
  have hvalid : (Program.lift (validateAvatarUpload L body) :
      Program Fault Request Answer Upload).Keeps Storable fun u => Image u.bytes u.contentType :=
    Program.keeps_lift fun _ h => (validateAvatarUpload_eq_ok h).2
  refine hvalid.bind fun u hu => storable_next trivial fun _ => storable_next hu fun _ => ?_
  refine Program.Keeps.tryCatch ?_ fun _ => ⟨trivial, fun _ => trivial⟩
  refine storable_next trivial fun _ => storable_next trivial fun _ => ?_
  split
  · split
    · trivial
    · exact served_projection
  · trivial

theorem content_served (d : String) :
    Yields (answer L) imaging (fun r _ => Served L (.content d) r) (readProfileAvatarContent L d) w := by
  have hclosed : imaging.Closed := ⟨fun _ => trivial, fun _ _ => trivial, fun _ => trivial⟩
  have hnext : ∀ (q : Request) (w : World), Storable q →
      Yields (answer L) imaging (fun _ _ => True) (Program.await q) w :=
    fun q w hq => (Program.keeps_await hq).yields storable_answer
  have hread : ∀ w : World, Yields (answer L) imaging
      (fun (x : List UInt8 × String) _ => Image x.1 x.2) (Program.await Request.readAvatar) w := by
    intro w
    refine System.yields_await fun e w' hw _ _ =>
      ⟨(storable_answer e .readAvatar w' trivial hw).1, trivial, fun x hx => ?_⟩
    cases e with
    | fails | lost => cases hx
    | answered linked =>
        simp only [answer, reply, effect] at hx
        split at hx
        next object hobject =>
          cases hx
          exact hw _ _ hobject
        next => cases hx
  unfold readProfileAvatarContent
  split
  · exact yields_throw
  refine (hnext .access _ trivial).bind hclosed fun _ _ _ _ => ?_
  refine (hnext .decrypt _ trivial).bind hclosed fun _ _ _ _ => ?_
  refine (hnext .readProfileAvatar _ trivial).bind hclosed fun _ _ _ _ => ?_
  split
  · split
    · exact yields_throw
    next hdigest =>
      refine (hread _).bind hclosed fun object _ _ himage => ?_
      obtain ⟨bytes, type⟩ := object
      dsimp only
      split
      · exact yields_throw
      next hsame =>
        refine System.yields_pure ?_
        rintro _ _ _ ⟨⟩
        exact ⟨congrArg Call.content (not_not.mp (not_or.mp hsame).1).symm, rfl, himage⟩
  · exact yields_throw

namespace Demo

def library : Library where
  sha256 _ := [76, 75, 106, 59, 225, 49, 74, 184, 97, 56, 190, 244, 49, 77, 222, 2, 46, 96, 9, 96,
    216, 104, 154, 44, 143, 134, 49, 128, 45, 32, 218, 182]
  length_sha256 _ := rfl
  httpsAvatarUrl t := t

def body (contentType dataBase64 : String) : Value :=
  .ofList [("contentType", .string contentType), ("dataBase64", .string dataBase64)]

/-- The upload of a picture of eight octets, which succeeds. -/
def first : List (Move Call Fate Empty) :=
  .start (.upload (body "image/png" "iVBORw0KGgo=")) :: List.replicate 4 (.step 0 (.answered []))

/-- The upload of another one, whose metadata the provider rejects. -/
def second : List (Move Call Fate Empty) :=
  .start (.upload (body "image/jpeg" "/9j/2Q==")) ::
    [.answered [], .answered [], .answered [], .fails, .answered []].map (.step 1)

end Demo

theorem avatar_matches_first : Matches Demo.library
    (System.run (Pool.perform (setting Demo.library)) Demo.first ⟨⟨none, none⟩, []⟩).world :=
  avatar_matches Demo.library ⟨none, none⟩ (matches_of_not_shown rfl) Demo.first
    ⟨⟨rfl, nofun⟩, trivial, trivial, trivial, trivial, trivial⟩

/-- An upload that the provider rejects removes the avatar that is shown. -/
theorem avatar_lost : ¬ Matches Demo.library (System.run (Pool.perform (setting Demo.library))
    (Demo.first ++ Demo.second) ⟨⟨none, none⟩, []⟩).world := by
  have hworld : (System.run (Pool.perform (setting Demo.library)) (Demo.first ++ Demo.second)
      ⟨⟨none, none⟩, []⟩).world = ⟨none, some (.upload
        "sha256:4c4b6a3be1314ab86138bef4314dde022e600960d8689a2c8f8631802d20dab6" "image/png")⟩ := by
    decide
  rw [hworld]
  intro h
  obtain ⟨bytes, hobject, -⟩ := h _ _ rfl
  cases hobject

end Avatar
