import OpenSphere.Command.Transport
import OpenSphere.Sql.Match
import OpenSphere.Sql.Octets

/-!
# Outcomes in the ledger

An outcome that `execute` builds is recorded if the database takes its text and the document has
1 MiB at most.  What the owner sent decides both: its texts have to be texts of the database, and
what it sent has to leave room for what names the command.
-/

open Sql
open Js (Tree Utf16 Sound literal)
open CommandSchema (Members get isText membersOf toText)
open Command (documentOctets)

namespace CommandTransport

/-! ## Texts of the service -/

def named (c : Char) : Bool := orOneOf (fun c => lower c || upper c || digit c) ['-', '.', ':'] c

theorem simple_of_named {c : Char} (h : named c = true) : Simple c := by
  have hrange : 45 ≤ c.toNat ∧ c.toNat ≤ 122 ∧ c ≠ '\\' := by
    simp only [named, orOneOf, lower, upper, digit, Bool.or_eq_true, Bool.and_eq_true,
      decide_eq_true_eq, List.contains_eq_mem, List.mem_cons, List.not_mem_nil, or_false] at h
    rcases h with ((⟨hlo, hhi⟩ | ⟨hlo, hhi⟩) | ⟨hlo, hhi⟩) | rfl | rfl | rfl
    · refine ⟨Nat.le_trans (by decide) hlo, hhi, ?_⟩
      rintro rfl
      exact absurd hlo (by decide)
    · refine ⟨Nat.le_trans (by decide) hlo, Nat.le_trans hhi (by decide), ?_⟩
      rintro rfl
      exact absurd hhi (by decide)
    · refine ⟨Nat.le_trans (by decide) hlo, Nat.le_trans hhi (by decide), ?_⟩
      rintro rfl
      exact absurd hhi (by decide)
    all_goals decide
  refine ⟨by omega, by omega, ?_, hrange.2.2⟩
  rintro rfl
  exact absurd hrange.1 (by decide)

theorem named_lowerOrDigit {c : Char} (h : Command.lowerOrDigit c = true) : named c = true := by
  rw [Command.lowerOrDigit, Bool.or_eq_true] at h
  rw [named, orOneOf, Bool.or_eq_true, Bool.or_eq_true, Bool.or_eq_true]
  exact .inl (h.elim (fun h => .inl (.inl h)) .inr)

theorem named_digit {c : Char} (h : digit c = true) : named c = true := by
  rw [named, orOneOf, Bool.or_eq_true, Bool.or_eq_true]
  exact .inl (.inr h)

theorem named_hex {c : Char} (h : Command.hexAny c = true) : named c = true := by
  simp only [Command.hexAny, hexLower, Bool.or_eq_true, Bool.and_eq_true, decide_eq_true_eq] at h
  simp only [named, orOneOf, lower, upper, Bool.or_eq_true, Bool.and_eq_true, decide_eq_true_eq]
  rcases h with (h | ⟨hlo, hhi⟩) | ⟨hlo, hhi⟩
  · exact .inl (.inr h)
  · exact .inl (.inl (.inl ⟨hlo, hhi.trans (by decide)⟩))
  · exact .inl (.inl (.inr ⟨hlo, hhi.trans (by decide)⟩))

theorem mem_splitOnP {p : Char → Bool} {c : Char} : ∀ {cs : List Char}, c ∈ cs →
    p c = true ∨ ∃ t ∈ cs.splitOnP p, c ∈ t
  | d :: cs, h => by
      rw [List.splitOnP_cons_eq_if_modifyHead]
      by_cases hd : p d = true
      · rw [if_pos hd]
        rcases List.mem_cons.mp h with rfl | hc
        · exact .inl hd
        · refine (mem_splitOnP hc).imp_right ?_
          rintro ⟨t, ht, hct⟩
          exact ⟨t, List.mem_cons_of_mem _ ht, hct⟩
      · rw [if_neg hd]
        have hrest : c = d ∨ p c = true ∨ ∃ t ∈ cs.splitOnP p, c ∈ t :=
          (List.mem_cons.mp h).imp_right mem_splitOnP
        obtain ⟨t, ts, hts⟩ := List.exists_cons_of_ne_nil (List.splitOnP_ne_nil p cs)
        rw [hts] at hrest ⊢
        rw [List.modifyHead_cons]
        rcases hrest with rfl | hc | ⟨u, hu, hcu⟩
        · exact .inr ⟨_, List.mem_cons_self .., List.mem_cons_self ..⟩
        · exact .inl hc
        · rcases List.mem_cons.mp hu with rfl | hu
          · exact .inr ⟨_, List.mem_cons_self .., List.mem_cons_of_mem _ hcu⟩
          · exact .inr ⟨u, List.mem_cons_of_mem _ hu, hcu⟩

theorem simple_command {t : String} (h : Command.commandFormat t = true) :
    ∀ c ∈ chars t, Simple c := by
  intro c hc
  rw [Command.commandFormat, Bool.and_eq_true, List.all_eq_true] at h
  refine simple_of_named ?_
  rcases mem_splitOnP (p := (['.', '-'].contains ·)) hc with hsign | ⟨s, hs, hcs⟩
  · simp only [List.contains_eq_mem, List.mem_cons, List.not_mem_nil, or_false,
      decide_eq_true_eq] at hsign
    rcases hsign with rfl | rfl <;> rfl
  · have hall := h.2 s hs
    rw [Bool.and_eq_true, List.all_eq_true] at hall
    exact named_lowerOrDigit (hall.2 c hcs)

theorem simple_owner {t : String} (h : ownerFormat t = true) : ∀ c ∈ chars t, Simple c := by
  intro c hc
  refine simple_of_named (Js.test_within (Pattern.within_seq ?_) h c hc)
  intro r hr
  simp only [List.mem_cons, List.not_mem_nil, or_false] at hr
  rcases hr with rfl | rfl
  · exact Pattern.within_repeated (fun c => named_lowerOrDigit) _ _
  · refine Pattern.within_repeated (fun c h => ?_) _ _
    rw [orOneOf, Bool.or_eq_true] at h
    rcases h with h | h
    · exact named_lowerOrDigit h
    · simp only [List.contains_eq_mem, List.mem_cons, List.not_mem_nil, or_false,
        decide_eq_true_eq] at h
      subst h
      rfl

/-- A pattern that takes so many characters, all of them of names. -/
def Sized (r : Pattern) (n : ℕ) : Prop := ∀ k cs, r k cs = true →
  ∃ t rest, cs = t ++ rest ∧ (∀ c ∈ t, named c = true) ∧ t.length = n ∧ k rest = true

theorem sized_times {p : Char → Bool} (h : ∀ c, p c = true → named c = true) (n : ℕ) :
    Sized (.times p n) n := by
  intro k cs hk
  obtain ⟨t, rest, heq, ht, hlength, hrest⟩ := Pattern.times_iff.mp hk
  exact ⟨t, rest, heq, fun c hc => h c (ht c hc), hlength, hrest⟩

theorem sized_text {t : String} (h : ∀ c ∈ chars t, named c = true) :
    Sized (.text t) (chars t).length := by
  intro k cs hk
  obtain ⟨rest, heq, hrest⟩ := Pattern.text_iff.mp hk
  exact ⟨chars t, rest, heq, h, rfl, hrest⟩

theorem sized_nil : Sized (.seq []) 0 := fun _ cs hk => ⟨[], cs, rfl, nofun, rfl, hk⟩

theorem Sized.cons {r : Pattern} {rs : List Pattern} {n m : ℕ} (h : Sized r n)
    (hs : Sized (.seq rs) m) : Sized (.seq (r :: rs)) (n + m) := by
  intro k cs hk
  obtain ⟨t, rest, rfl, ht, rfl, hrest⟩ := h _ cs hk
  obtain ⟨u, rest, rfl, hu, rfl, hk⟩ := hs k rest hrest
  refine ⟨t ++ u, rest, (List.append_assoc ..).symm, fun c hc => ?_, List.length_append, hk⟩
  exact (List.mem_append.mp hc).elim (ht c) (hu c)

theorem Sized.text {r : Pattern} {n : ℕ} (h : Sized r n) {t : String} (ht : Js.test r t = true) :
    (∀ c ∈ chars t, Simple c) ∧ (chars t).length = n := by
  obtain ⟨u, rest, hunits, hu, hlength, hrest⟩ := h _ _ ht
  rw [List.isEmpty_iff.mp hrest, List.append_nil] at hunits
  have hsimple : ∀ c ∈ chars t, Simple c := fun c hc =>
    simple_of_named (hu c (hunits ▸ Js.mem_units hc))
  have hbasic : Js.Basic t := by
    intro c hc
    have hhi := (hsimple c hc).2.1
    omega
  rw [Js.units_eq_chars hbasic] at hunits
  exact ⟨hsimple, hunits ▸ hlength⟩

theorem simple_requestId {t : String} (h : Command.uuidFormat t = true) :
    (∀ c ∈ chars t, Simple c) ∧ (chars t).length = 36 := by
  have hhex := sized_times fun c => named_hex (c := c)
  have hdash : Sized (.text "-") 1 := sized_text (by decide)
  have hversion : Sized (.times (fun c => decide ('1' ≤ c) && decide (c ≤ '5')) 1) 1 := by
    refine sized_times (fun c h => named_digit ?_) 1
    simp only [digit, Bool.and_eq_true, decide_eq_true_eq] at h ⊢
    exact ⟨h.1.trans' (by decide), h.2.trans (by decide)⟩
  have hvariant : Sized (.times (['8', '9', 'a', 'b', 'A', 'B'].contains ·) 1) 1 := by
    refine sized_times (fun c h => ?_) 1
    simp only [List.contains_eq_mem, List.mem_cons, List.not_mem_nil, or_false,
      decide_eq_true_eq] at h
    rcases h with rfl | rfl | rfl | rfl | rfl | rfl <;> rfl
  refine Sized.text ?_ h
  exact (hhex 8).cons (hdash.cons ((hhex 4).cons (hdash.cons (hversion.cons ((hhex 3).cons
    (hdash.cons (hvariant.cons ((hhex 3).cons (hdash.cons ((hhex 12).cons sized_nil))))))))))

theorem simple_iso {t : String} (h : isoFormat t = true) :
    (∀ c ∈ chars t, Simple c) ∧ (chars t).length = 24 := by
  have hdigits := sized_times fun c => named_digit (c := c)
  have hdash : Sized (.text "-") 1 := sized_text (by decide)
  have hcolon : Sized (.text ":") 1 := sized_text (by decide)
  have htime : Sized (.text "T") 1 := sized_text (by decide)
  have hpoint : Sized (.text ".") 1 := sized_text (by decide)
  have hzone : Sized (.text "Z") 1 := sized_text (by decide)
  refine Sized.text ?_ h
  exact (hdigits 4).cons (hdash.cons ((hdigits 2).cons (hdash.cons ((hdigits 2).cons (htime.cons
    ((hdigits 2).cons (hcolon.cons ((hdigits 2).cons (hcolon.cons ((hdigits 2).cons (hpoint.cons
      ((hdigits 3).cons (hzone.cons sized_nil)))))))))))))

/-! ## Outcomes as documents -/

section

variable {S : Service} {c : Call} {t : Readings} {data : Members} {status : Fin 1000}

theorem ne_zero_of_simple {cs : List Char} (h : ∀ c ∈ cs, Simple c) : ∀ c ∈ cs, c.toNat ≠ 0 := by
  intro c hc
  have hlo := (h c hc).1
  omega

theorem document_text {u : String} (h : ∀ c ∈ chars u, c.toNat ≠ 0) :
    (text u).document = some (.ofText u) := by
  rw [text, Tree.document, Js.storedText_literal h]
  rfl

theorem memberDocuments_cons {k : String} (h : ∀ c ∈ chars k, c.toNat ≠ 0) (x : Tree)
    (ms : List (String × Tree)) : Tree.memberDocuments (members ((k, x) :: ms)) =
      x.document.bind fun d => (Tree.memberDocuments (members ms)).map ((k, d) :: ·) := by
  rw [members, List.map_cons, Tree.memberDocuments, Js.storedText_literal h]
  cases x.document <;> cases h : Tree.memberDocuments (members ms) <;> simp_all [members]

/-- What the database has of an outcome whose owner answered. -/
def succeededDocument (S : Service) (c : Call) (t : Readings) (status : Fin 1000) (o d : Jsonb) :
    Jsonb :=
  .object [("status", .ofInt status.val), ("body", .object [
    ("schema", .ofText "opensphere.shell-command/v1"), ("controlPlane", .ofText "OS-Shell"),
    ("command", .ofText c.command), ("requestId", .ofText c.requestId), ("owner", .ofText c.owner),
    ("operationId", o), ("observedAt", .ofText (S.isoDate t.observed)), ("data", d)])]

theorem document_succeeded : (succeeded S c t status data).document =
    (operationId data).document.bind fun o =>
      (Tree.document (.object data)).map (succeededDocument S c t status o) := by
  have hcommand := ne_zero_of_simple (simple_command c.commandValid)
  have hrequest := ne_zero_of_simple (simple_requestId c.requestIdValid).1
  have howner := ne_zero_of_simple (simple_owner c.ownerValid)
  have hiso := ne_zero_of_simple (simple_iso (S.iso t.observed)).1
  rw [Outcome.document, Tree.document, succeeded]
  dsimp only
  iterate 8 rw [memberDocuments_cons (by decide)]
  rw [document_text (by decide), document_text (by decide), document_text hcommand,
    document_text hrequest, document_text howner, document_text hiso]
  cases (operationId data).document with
  | none => rfl
  | some o => cases Tree.document (.object data) <;> rfl

def failedDocument (c : Call) (e : Failure) (message : String) : Jsonb :=
  .object [("status", .ofInt (statusOr e.status 503).val), ("body", .object [
    ("controlPlane", .ofText "OS-Shell"), ("requestId", .ofText c.requestId),
    ("code", .ofText (e.code.getD "OwnerUnavailable")), ("message", .ofText message),
    ("sideEffect", .ofText (e.sideEffect.getD "unknown"))])]

theorem document_failed {e : Failure} (hcode : ∀ c ∈ chars (e.code.getD "OwnerUnavailable"), c.toNat ≠ 0)
    (heffect : ∀ c ∈ chars (e.sideEffect.getD "unknown"), c.toNat ≠ 0) :
    (failed c e).document = (Js.storedText e.message).map (failedDocument c e) := by
  have hrequest := ne_zero_of_simple (simple_requestId c.requestIdValid).1
  rw [Outcome.document, Tree.document, failed]
  dsimp only
  iterate 5 rw [memberDocuments_cons (by decide)]
  rw [document_text (by decide), document_text hrequest, document_text hcode, document_text heffect,
    Tree.document]
  cases Js.storedText e.message <;> rfl

theorem octets_status (n : Fin 1000) : octets (Jsonb.ofInt n.val).tree.chars ≤ 3 ∧
    (200 ≤ n.val → octets (Jsonb.ofInt n.val).tree.chars = 3) := by
  have hlt := n.isLt
  have hthree : (Nat.toDigits 10 n.val).length ≤ 3 ↔ n.val < 10 ^ 3 :=
    Nat.length_toDigits_le_iff (by omega) (by omega)
  have htwo : (Nat.toDigits 10 n.val).length ≤ 2 ↔ n.val < 10 ^ 2 :=
    Nat.length_toDigits_le_iff (by omega) (by omega)
  rw [octets_natural]
  omega

theorem outcomeKeys : ["status", "body"].Nodup := by decide

theorem bodyKeys : ["schema", "controlPlane", "command", "requestId", "owner", "operationId",
    "observedAt", "data"].Nodup := by decide

theorem failureKeys : ["controlPlane", "requestId", "code", "message", "sideEffect"].Nodup := by
  decide

/-- The room that an outcome takes beside what the owner sent. -/
theorem octets_succeeded (o d : Jsonb) (h : 200 ≤ status.val) :
    documentOctets (succeededDocument S c t status o d) = documentOctets d + documentOctets o +
      (chars c.command).length + (chars c.owner).length + 244 := by
  show octets (Jsonb.object _).tree.chars = _
  rw [octets_object (by simp) (by exact outcomeKeys)]
  simp only [List.map_cons, List.map_nil, List.sum_cons, List.sum_nil, memberOctets]
  rw [octets_object (by simp) (by exact bodyKeys)]
  simp only [List.map_cons, List.map_nil, List.sum_cons, List.sum_nil, memberOctets]
  show quotedOctets "status" + octets (Jsonb.ofInt status.val).tree.chars + 4 +
    (quotedOctets "body" + (quotedOctets "schema" + quotedOctets "opensphere.shell-command/v1" + 4 +
      (quotedOctets "controlPlane" + quotedOctets "OS-Shell" + 4 +
      (quotedOctets "command" + quotedOctets c.command + 4 +
      (quotedOctets "requestId" + quotedOctets c.requestId + 4 +
      (quotedOctets "owner" + quotedOctets c.owner + 4 +
      (quotedOctets "operationId" + documentOctets o + 4 +
      (quotedOctets "observedAt" + quotedOctets (S.isoDate t.observed) + 4 +
      (quotedOctets "data" + documentOctets d + 4 + 0)))))))) + 4 + 0) = _
  rw [(octets_status status).2 h, quotedOctets_simple (simple_command c.commandValid),
    quotedOctets_simple (simple_requestId c.requestIdValid).1,
    quotedOctets_simple (simple_owner c.ownerValid),
    quotedOctets_simple (simple_iso (S.iso t.observed)).1,
    (simple_requestId c.requestIdValid).2, (simple_iso (S.iso t.observed)).2,
    show quotedOctets "status" = 8 by decide, show quotedOctets "body" = 6 by decide,
    show quotedOctets "schema" = 8 by decide,
    show quotedOctets "opensphere.shell-command/v1" = 29 by decide,
    show quotedOctets "controlPlane" = 14 by decide, show quotedOctets "OS-Shell" = 10 by decide,
    show quotedOctets "command" = 9 by decide, show quotedOctets "requestId" = 11 by decide,
    show quotedOctets "owner" = 7 by decide, show quotedOctets "operationId" = 13 by decide,
    show quotedOctets "observedAt" = 12 by decide, show quotedOctets "data" = 6 by decide]
  omega

/-- A failure with a short message takes little room. -/
theorem octets_failed {e : Failure} {message : String} (hmessage : (chars message).length ≤ 1000)
    (hcode : quotedOctets (e.code.getD "OwnerUnavailable") ≤ 100)
    (heffect : quotedOctets (e.sideEffect.getD "unknown") ≤ 100) :
    documentOctets (failedDocument c e message) ≤ 1048576 := by
  have hrequest := quotedOctets_simple (simple_requestId c.requestIdValid).1
  rw [(simple_requestId c.requestIdValid).2] at hrequest
  have hstatus := (octets_status (statusOr e.status 503)).1
  have htext := quotedOctets_le message
  show octets (Jsonb.object _).tree.chars ≤ _
  rw [octets_object (by simp) (by exact outcomeKeys)]
  simp only [List.map_cons, List.map_nil, List.sum_cons, List.sum_nil, memberOctets]
  rw [octets_object (by simp) (by exact failureKeys)]
  simp only [List.map_cons, List.map_nil, List.sum_cons, List.sum_nil, memberOctets]
  show quotedOctets "status" + octets (Jsonb.ofInt (statusOr e.status 503).val).tree.chars + 4 +
    (quotedOctets "body" + (quotedOctets "controlPlane" + quotedOctets "OS-Shell" + 4 +
      (quotedOctets "requestId" + quotedOctets c.requestId + 4 +
      (quotedOctets "code" + quotedOctets (e.code.getD "OwnerUnavailable") + 4 +
      (quotedOctets "message" + quotedOctets message + 4 +
      (quotedOctets "sideEffect" + quotedOctets (e.sideEffect.getD "unknown") + 4 + 0))))) + 4 + 0) ≤ _
  have hkeys : quotedOctets "status" = 8 ∧ quotedOctets "body" = 6 ∧
      quotedOctets "controlPlane" = 14 ∧ quotedOctets "OS-Shell" = 10 ∧
      quotedOctets "requestId" = 11 ∧ quotedOctets "code" = 6 ∧ quotedOctets "message" = 9 ∧
      quotedOctets "sideEffect" = 12 := by decide
  omega

end

/-! ## What is recorded -/

def jsonbOctets (x : Tree) : ℕ := (x.document.map documentOctets).getD 0

/-- What an owner sent has texts of the database and leaves room for what names the command. -/
def Fits (c : Call) (data : Members) : Prop :=
  Tree.Storable (.object data) ∧
    jsonbOctets (.object data) + jsonbOctets (operationId data) + (chars c.command).length +
      (chars c.owner).length + 244 ≤ 1048576

def Recordable (S : Service) (c : Call) (t : Readings) : Option Response → Prop
  | none => True
  | some r =>
      match readObject r with
      | none => True
      | some data =>
          if accepted r then
            if c.native then Fits c data
            else bound S c t data = .ok true → Fits c (((get data "data").map membersOf).getD [])
          else ∀ u, toText (messageOf data) = some u → Sound (u.take 1000)

def Taken (o : Outcome) : Prop := ∃ doc, o.document = some doc ∧ documentOctets doc ≤ 1048576

section

variable {S : Service} {c : Call} {t : Readings} {data : Members} {status : Fin 1000}

theorem mem_of_get {ms : Members} {name : String} {x : Tree} (h : get ms name = some x) :
    (literal name, x) ∈ ms := by
  obtain ⟨before, after, rfl, -⟩ := List.lookup_eq_some_iff.mp h
  exact List.mem_append_right _ (List.mem_cons_self ..)

theorem storable_get {ms : Members} (h : Tree.Storable (.object ms)) {name : String} {x : Tree}
    (hx : get ms name = some x) : Tree.Storable x := (h.members _ (mem_of_get hx)).2

theorem storable_orElse {x : Option Tree} {y : Tree} (hx : ∀ x', x = some x' → Tree.Storable x')
    (hy : Tree.Storable y) : Tree.Storable (orElse x y) := by
  cases x with
  | none => exact hy
  | some x =>
      rw [orElse, Option.filter_some]
      split_ifs
      · exact hx x rfl
      · exact hy

theorem storable_operationId (h : Tree.Storable (.object data)) :
    Tree.Storable (operationId data) := by
  refine storable_orElse (fun x hx => storable_get h hx) (storable_orElse ?_ .null)
  intro x hx
  obtain ⟨y, hy, hid⟩ := Option.bind_eq_some_iff.mp hx
  cases y with
  | object ms => exact storable_get (storable_get h hy) hid
  | _ => cases hid

theorem taken_succeeded (h : 200 ≤ status.val) : Taken (succeeded S c t status data) ↔ Fits c data := by
  rw [Taken, document_succeeded, Fits, ← Tree.document_isSome_iff, jsonbOctets, jsonbOctets]
  cases hdata : Tree.document (.object data) with
  | none => simp
  | some d =>
      have hstorable := (Tree.document_isSome_iff _).mp (by rw [hdata]; rfl)
      obtain ⟨o, ho⟩ := Option.isSome_iff_exists.mp
        ((Tree.document_isSome_iff _).mpr (storable_operationId hstorable))
      rw [ho]
      simp [octets_succeeded o d h]

theorem length_utf16 (cs : List Char) : cs.length ≤ (Js.utf16 cs).length := by
  induction cs with
  | nil => exact Nat.le_refl _
  | cons c cs ih =>
      have hunits : 1 ≤ (Js.unitsOf c).length := by
        unfold Js.unitsOf
        split_ifs <;> simp
      rw [Js.utf16] at ih
      rw [Js.utf16, List.flatMap_cons, List.length_append, List.length_cons]
      omega

theorem length_storedText {u : Utf16} {m : String} (h : Js.storedText u = some m) :
    (chars m).length ≤ u.length := by
  obtain ⟨cs, hcs, hm⟩ := Option.bind_eq_some_iff.mp h
  unfold Js.textDocument at hm
  split_ifs at hm
  cases hm
  rw [chars_ofList, ← Js.characters_eq_some.mp hcs]
  exact length_utf16 cs

def Short (u : String) : Prop := (∀ c ∈ chars u, c.toNat ≠ 0) ∧ quotedOctets u ≤ 100

instance (u : String) : Decidable (Short u) := inferInstanceAs (Decidable (_ ∧ _))

/-- A failure whose code and side effect are short texts of the service. -/
structure Ordinary (e : Failure) : Prop where
  code : Short (e.code.getD "OwnerUnavailable")
  sideEffect : Short (e.sideEffect.getD "unknown")
  message : e.message.length ≤ 1000

theorem taken_failed {e : Failure} (h : Ordinary e) : Taken (failed c e) ↔ Sound e.message := by
  rw [Taken, document_failed h.code.1 h.sideEffect.1, ← Js.storedText_isSome_iff]
  cases hmessage : Js.storedText e.message with
  | none => simp
  | some m =>
      have hlength := (length_storedText hmessage).trans h.message
      have hoctets := octets_failed (c := c) hlength h.code.2 h.sideEffect.2
      simp [hoctets]

theorem sound_literal {u : String} (h : ∀ c ∈ chars u, c.toNat ≠ 0) : Sound (literal u) :=
  ⟨chars u, rfl, h⟩

theorem taken_unavailable : Taken (failed c ⟨literal
    "OS Shell이 명령 실행 결과를 확인하지 못했습니다. 상태를 조회한 후 재시도하세요.", some 503,
    some "OwnerUnavailable", some "unknown"⟩) :=
  (taken_failed ⟨by decide, by decide, by decide⟩).mpr
    (sound_literal (by decide))

theorem taken_unreadable : Taken (failed c ⟨literal
    "명령 소유자의 응답이 올바른 제한 내 JSON 객체가 아닙니다.", some 502,
    some "OwnerContractInvalid", some "unknown"⟩) :=
  (taken_failed ⟨by decide, by decide, by decide⟩).mpr
    (sound_literal (by decide))

theorem taken_unbound : Taken (failed c ⟨literal
    "명령 소유자의 응답이 현재 요청에 결속되지 않았습니다.", some 502, some "OwnerContractInvalid",
    some "unknown"⟩) :=
  (taken_failed ⟨by decide, by decide, by decide⟩).mpr
    (sound_literal (by decide))

theorem taken_typeError :
    Taken (failed c { message := literal "Cannot convert object to primitive value" }) :=
  (taken_failed ⟨by decide, by decide, by decide⟩).mpr
    (sound_literal (by decide))

theorem ordinary_rejected (status : Fin 1000) (u : Utf16) : Ordinary ⟨u.take 1000, some status,
    some (if status = 409 then "StateConflict" else "OwnerRejected"),
    some (if 500 ≤ status.val then "unknown" else "none")⟩ := by
  refine ⟨?_, ?_, List.length_take_le ..⟩
  · show Short (if status = 409 then "StateConflict" else "OwnerRejected")
    split_ifs <;> decide
  · show Short (if 500 ≤ status.val then "unknown" else "none")
    split_ifs <;> decide

theorem bound_error {e : Failure} (h : bound S c t data = .error e) :
    e = { message := literal "Cannot convert object to primitive value" } := by
  unfold bound asText at h
  split at h
  next => cases h
  next =>
    split at h
    next => cases h
    next =>
      cases h
      rfl

theorem outcome_of_error {r : Option Response} {e : Failure} (h : request r = .error e) :
    outcome S c t r = failed c e := by
  rw [outcome, attempt, h]
  rfl

/-- An answer to a request becomes an outcome with what the owner sent, or a failure. -/
theorem outcome_of_ok {r : Option Response} (h : request r = .ok (status, data)) :
    outcome S c t r =
      if c.native then succeeded S c t status data
      else
        match bound S c t data with
        | .ok true => succeeded S c t status (((get data "data").map membersOf).getD [])
        | .ok false => failed c ⟨literal "명령 소유자의 응답이 현재 요청에 결속되지 않았습니다.",
            some 502, some "OwnerContractInvalid", some "unknown"⟩
        | .error e => failed c e := by
  rw [outcome, attempt, h]
  simp only [bind, Except.bind]
  split_ifs
  · rfl
  · cases bound S c t data with
    | error e => rfl
    | ok current => cases current <;> rfl

/-- An outcome is taken exactly if what the owner sent can be recorded. -/
theorem taken_outcome_iff (r : Option Response) :
    Taken (outcome S c t r) ↔ Recordable S c t r := by
  cases r with
  | none =>
      rw [outcome_of_error (r := none) rfl]
      exact iff_of_true taken_unavailable trivial
  | some r =>
      unfold Recordable
      dsimp only
      cases hread : readObject r with
      | none =>
          rw [outcome_of_error (by rw [request, hread]; rfl)]
          exact iff_of_true taken_unreadable trivial
      | some data =>
          dsimp only
          by_cases haccepted : accepted r = true
          · have hstatus : 200 ≤ r.status.val := (of_decide_eq_true haccepted).1
            have hrequest : request (some r) = .ok (r.status, data) := by
              rw [request, hread]
              exact if_pos haccepted
            rw [if_pos haccepted, outcome_of_ok hrequest]
            split_ifs
            · exact taken_succeeded hstatus
            · cases hbound : bound S c t data with
              | error e =>
                  rw [bound_error hbound]
                  exact iff_of_true taken_typeError nofun
              | ok current =>
                  cases current with
                  | false => exact iff_of_true taken_unbound nofun
                  | true =>
                      rw [forall_prop_of_true rfl]
                      exact taken_succeeded hstatus
          · have hrequest : request (some r) = (asText (some (messageOf data))).bind fun u =>
                .error ⟨u.take 1000, some r.status,
                  some (if r.status = 409 then "StateConflict" else "OwnerRejected"),
                  some (if 500 ≤ r.status.val then "unknown" else "none")⟩ := by
              rw [request, hread]
              exact if_neg haccepted
            rw [if_neg haccepted]
            rw [asText] at hrequest
            cases htext : toText (messageOf data) with
            | none =>
                rw [htext] at hrequest
                rw [outcome_of_error hrequest]
                exact iff_of_true taken_typeError nofun
            | some u =>
                rw [htext] at hrequest
                rw [outcome_of_error hrequest]
                simp only [Option.some.injEq, forall_eq']
                exact taken_failed (ordinary_rejected r.status u)

/-- The request of a call was claimed with a digest, and has no outcome yet. -/
def Dispatched (db : Command.Ledger) (actor : Uuid) (c : Call) (digest : String) : Prop :=
  ∃ request row, castUuid c.requestId = some request ∧ db.row (actor, request) = some row ∧
    row.inputDigest = digest ∧ row.phase = .dispatching

def Recorded (db : Command.Ledger) (actor : Uuid) (c : Call) : Prop :=
  ∃ request row, castUuid c.requestId = some request ∧ db.row (actor, request) = some row ∧
    row.phase = .recorded

theorem typeof_document {o : Outcome} {doc : Jsonb} (h : o.document = some doc) :
    doc.typeof = "object" := by
  obtain ⟨body, -, rfl⟩ := Option.map_eq_some_iff.mp h
  rfl

theorem finish_iff {now : Timestamp} {db : Command.Ledger} {actor : Uuid} {digest : String}
    (h : Dispatched db actor c digest) (o : Outcome) :
    (∃ db', finish now actor c digest o db = .ok db' ∧ Recorded db' actor c) ↔ Taken o := by
  obtain ⟨request, row, hrequest, hrow, hdigest, hphase⟩ := h
  constructor
  · rintro ⟨db', hfinish, -⟩
    unfold finish Command.finishCommand at hfinish
    obtain ⟨request', hrequest', hfinish⟩ := bind_eq_ok.mp hfinish
    obtain ⟨doc, hdoc, hfinish⟩ := bind_eq_ok.mp hfinish
    obtain ⟨u, hraise, -⟩ := bind_eq_ok.mp hfinish
    rw [orRaise_eq_ok] at hdoc
    rw [raiseIf_eq_ok] at hraise
    refine ⟨doc, hdoc, ?_⟩
    by_contra hover
    exact hraise (by simp [not_le.mp hover])
  · rintro ⟨doc, hdoc, hoctets⟩
    have hraise : (some (decide (doc.typeof ≠ "object" ∨ 1048576 < documentOctets doc)) : Cond) ≠
        some true := by
      simp [typeof_document hdoc, hoctets]
    obtain ⟨hmem, -⟩ := Table.lookup_eq_some.mp hrow
    have hput : ∃ requests, db.requests.put (row.finish now doc) = .ok requests := by
      refine (Table.put_isOk (r := row.finish now doc) hmem rfl (fun _ => ⟨rfl, rfl⟩) rfl).mpr ?_
      have hcheck := db.requests.checked row hmem
      simp only [Command.commandRequestSchema, Bool.and_eq_true] at hcheck ⊢
      exact ⟨hcheck.1, by simp [Command.CommandRequest.finish]⟩
    obtain ⟨requests, hput⟩ := hput
    have hfinish : Command.finishCommand now ⟨actor, request, digest, doc⟩ db =
        .ok { db with requests := requests } := by
      unfold Command.finishCommand
      rw [bind_of_ok ((raiseIf_eq_ok (u := ())).mpr hraise)]
      have hlookup : db.requests.lookup (some (actor, request)) = some row := hrow
      dsimp only
      rw [hlookup]
      dsimp only
      rw [if_pos ⟨hdigest, hphase⟩, hput]
      rfl
    refine ⟨{ db with requests := requests }, ?_, request, row.finish now doc, hrequest, ?_, rfl⟩
    · unfold finish
      rw [bind_of_ok (orRaise_eq_ok.mpr hrequest), bind_of_ok (orRaise_eq_ok.mpr hdoc), hfinish]
    · obtain ⟨row', hrow', -, hrows⟩ := Command.finishCommand_cases hfinish
      rw [hrow] at hrow'
      cases hrow'
      rw [hrows, if_pos rfl]

/-- The outcome of a command that was claimed is recorded exactly if what its owner sent can
be. -/
theorem outcome_recorded_iff (S : Service) (c : Call) (t : Readings) (r : Option Response)
    (now : Timestamp) {db : Command.Ledger} {actor : Uuid} {digest : String}
    (h : Dispatched db actor c digest) :
    (∃ db', finish now actor c digest (outcome S c t r) db = .ok db' ∧ Recorded db' actor c) ↔
      Recordable S c t r :=
  (finish_iff h _).trans (taken_outcome_iff r)

end

theorem readObject_stringify {data : Members} (status : Fin 1000) (h : Tree.Plain (.object data))
    (hsize : (Codec.Utf8.encode (Tree.stringify (.object data))).length ≤ 4 * 1024 * 1024) :
    readObject ⟨status, [Codec.Utf8.encode (Tree.stringify (.object data))], true⟩ = some data := by
  have hcollect : collect 0 [Codec.Utf8.encode (Tree.stringify (.object data))] =
      some (Codec.Utf8.encode (Tree.stringify (.object data))) := by
    rw [collect, if_neg (by omega), collect, Option.map_some, List.append_nil]
  rw [readObject, if_pos rfl, hcollect]
  dsimp only
  rw [Codec.Utf8.decode_encode, Tree.parse_stringify h]

/-! ## Two answers -/

namespace Demo

def service : Service where
  dateParse _ := none
  isoDate _ := "2026-01-01T00:00:00.000Z"
  iso _ := by decide

def install : Call where
  command := "console.modules.install"
  requestId := "11111111-1111-4111-8111-111111111111"
  owner := "console"
  native := true
  commandValid := by decide
  requestIdValid := by decide
  ownerValid := by decide

def actor : Uuid := ⟨0x22222222222242228222222222222222⟩

def digest : String :=
  "sha256:0000000000000000000000000000000000000000000000000000000000000000"

def row : Command.CommandRequest where
  actorId := actor
  requestId := ⟨0x11111111111141118111111111111111⟩
  sessionId := actor
  command := "console.modules.install"
  inputDigest := digest
  aal := "aal2"
  phase := .dispatching
  result := none
  createdAt := 0
  recordedAt := none

def ledger : Command.Ledger where
  shell := .fresh (.fresh [] none .nativeShellAuthority) (.initial 0) ⟨"", "", ""⟩
  requests := ⟨[row], by decide, List.pairwise_singleton _ _⟩

def answer (data : Members) : Response :=
  ⟨202, [Codec.Utf8.encode (Tree.stringify (.object data))], true⟩

/-- A note with U+0000, which JSON writes as an escape. -/
def note : Members := [(literal "note", .string [0])]

theorem dispatched : Dispatched ledger actor install digest :=
  ⟨⟨0x11111111111141118111111111111111⟩, row, by decide, by decide, rfl, rfl⟩

end Demo

theorem outcome_recorded_empty : ∃ db', finish 0 Demo.actor Demo.install Demo.digest
    (outcome Demo.service Demo.install ⟨0, 0, 0⟩ (some (Demo.answer []))) Demo.ledger = .ok db' ∧
      Recorded db' Demo.actor Demo.install := by
  refine (outcome_recorded_iff _ _ _ _ _ Demo.dispatched).mpr ?_
  have hread : readObject (Demo.answer []) = some [] :=
    readObject_stringify 202 (.object .nil nofun) (by decide)
  rw [Recordable, hread]
  exact ⟨.object nofun nofun, by decide⟩

/-- The answer `{"note":"\u0000"}` is read, and what comes of it is never recorded. -/
theorem outcome_not_recorded : readObject (Demo.answer Demo.note) = some Demo.note ∧
    ¬ ∃ db', finish 0 Demo.actor Demo.install Demo.digest
      (outcome Demo.service Demo.install ⟨0, 0, 0⟩ (some (Demo.answer Demo.note))) Demo.ledger =
        .ok db' ∧ Recorded db' Demo.actor Demo.install := by
  have hplain : Tree.Plain (.object Demo.note) := by
    refine .object (List.nodup_singleton _) fun m hm => ?_
    rw [List.mem_singleton.mp hm]
    exact .string _
  have hread : readObject (Demo.answer Demo.note) = some Demo.note :=
    readObject_stringify 202 hplain (by decide)
  refine ⟨hread, fun hrecorded => ?_⟩
  have hrecordable := (taken_outcome_iff _).mp ((finish_iff Demo.dispatched _).mp hrecorded)
  rw [Recordable, hread] at hrecordable
  have hfits : Fits Demo.install Demo.note := hrecordable
  have hdocument := (Tree.document_isSome_iff _).mpr hfits.1
  exact absurd hdocument (by decide)

end CommandTransport
