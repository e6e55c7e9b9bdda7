import OpenSphere.Broker.Profiles
import OpenSphere.Catalog.Names
import OpenSphere.Js.Normal

/-!
# The ledger of dialogue states

`buildTransition` of `dialogue-state.js` closes the state that a turn proposes, and records it.  The
digest of a record is taken over its text, and the digest of the record before is in that text.

So the last digest stands for the whole ledger (`ledger_identified`): two ledgers that end in the same
digest have the same texts, one by one, or else a text of each has the same SHA-256 as another one of the
other.
-/

open Broker (put)
open Js (Members Value Values trim)

namespace Osdst

structure Identity where
  conversationId : String
  ownerId : String

def stateSchema : String := "osaa.dialogue-state/v1"

def deltaSchema : String := "osaa.dialogue-state-delta/v1"

/-- `digest(value)`, where `sha256` is the hexadecimal SHA-256 of a text. -/
def digest (sha256 : List Char → String) (x : Value) : String :=
  "sha256:" ++ sha256 x.canonical.stringify

/-! ## Closed states -/

def boundedString (x : Value) (maximum : ℕ) (optional : Bool) : Except String Value :=
  match (x.or (.string "")).toText with
  | none => .error "Cannot convert object to primitive value"
  | some t =>
      if trim t = "" ∧ optional then .ok .null
      else if trim t = "" ∨ maximum < Js.length (trim t) then
        .error ("Dialogue State string must contain 1-" ++ toString maximum ++ " characters")
      else .ok (.string (trim t))

def jsonObject (x : Value) (name : String) : Except String (Option Members) :=
  match x with
  | .undefined | .null => .ok none
  | .object ms => .ok (some ms.canonical)
  | _ => .error (name ++ " must be an object")

def jsonArray (x : Value) (name : String) (maximum : ℕ) : Except String Values :=
  let fails := .error (name ++ " must be an array with at most " ++ toString maximum ++ " entries")
  match x with
  | .undefined | .null => .ok .nil
  | .array xs => if maximum < xs.length then fails else .ok xs.canonical
  | _ => fails

def allowed : List String := ["domain", "intent", "phase", "targetRef", "slots", "missingSlots",
  "capabilityRef", "evidenceRefs", "operationRef"]

def stateMaterial (candidate : Value) (i : Identity) : Except String Members := do
  match candidate with
  | .object ms =>
      let extra := ms.keys.filter (· ∉ allowed)
      if extra ≠ [] then .error ("unsupported Dialogue State fields: " ++ ", ".intercalate extra)
      else
        let given := if (ms.get "slots").nullish then .object .nil else ms.get "slots"
        let slots := (← jsonObject given "slots").getD .nil
        if 32 < slots.keys.length ∨
            16384 < Js.length (String.ofList (Value.object slots).stringify) then
          .error "Dialogue State slots exceed the closed server budget"
        else
          let domain ← boundedString (ms.get "domain") 120 true
          let intent ← boundedString (ms.get "intent") 120 true
          let phase ← boundedString ((ms.get "phase").or (.string "idle")) 80 false
          let targetRef ← jsonObject (ms.get "targetRef") "targetRef"
          let missing ← jsonArray (ms.get "missingSlots") "missingSlots" 32
          let missingSlots ← missing.toList.mapM fun item => boundedString item 120 false
          let capabilityRef ← boundedString (ms.get "capabilityRef") 500 true
          let evidenceRefs ← jsonArray (ms.get "evidenceRefs") "evidenceRefs" 64
          let operationRef ← boundedString (ms.get "operationRef") 36 true
          return Members.canonical (.ofList [("schema", .string stateSchema),
            ("conversationId", .string i.conversationId), ("ownerId", .string i.ownerId),
            ("domain", domain), ("intent", intent), ("phase", phase),
            ("targetRef", (targetRef.map Value.object).getD .null), ("slots", .object slots),
            ("missingSlots", .array (.ofList missingSlots)), ("capabilityRef", capabilityRef),
            ("evidenceRefs", .array evidenceRefs), ("operationRef", operationRef)])
  | _ => .error "dialogueTransition must be a server-owned object"

/-! ## Transitions -/

/-- What the row before says. -/
structure Previous where
  revision : ℕ
  stateDigest : String

structure Transition where
  material : Members
  baseRevision : ℕ
  nextRevision : ℕ
  previousDigest : String
  stateDigest : String
  delta : Value

def number (n : ℕ) : Value := .number (toString n)

/-- What the first digest is taken over. -/
def genesis (i : Identity) : Value := .ofList [("schema", .string stateSchema),
  ("conversationId", .string i.conversationId), ("revision", number 0)]

/-- `{ ...material, revision, prevStateDigest }`. -/
def record (material : Members) (revision : ℕ) (prevStateDigest : String) : Members :=
  put "prevStateDigest" (.string prevStateDigest) (put "revision" (number revision) material)

/-- `previous?.state_digest || digest({ schema, conversationId, revision: 0 })`. -/
def previousDigest (sha256 : List Char → String) (i : Identity) : Option Previous → String
  | none => digest sha256 (genesis i)
  | some row => if row.stateDigest = "" then digest sha256 (genesis i) else row.stateDigest

def buildTransition (sha256 : List Char → String) (candidate : Value) (i : Identity)
    (previous : Option Previous) : Except String Transition := do
  let previousDigest := previousDigest sha256 i previous
  if !Catalog.digestFormat previousDigest then .error "previous Dialogue State digest is invalid"
  else
    let material ← stateMaterial candidate i
    let baseRevision := (previous.map Previous.revision).getD 0
    let nextRevision := baseRevision + 1
    let stateDigest := digest sha256 (.object (record material nextRevision previousDigest))
    let delta := Value.canonical (.ofList [("schema", .string deltaSchema),
      ("baseRevision", number baseRevision), ("nextRevision", number nextRevision),
      ("prevStateDigest", .string previousDigest), ("stateDigest", .string stateDigest),
      ("set", .object material)])
    return ⟨material, baseRevision, nextRevision, previousDigest, stateDigest, delta⟩

/-- The text that the digest of a transition is taken over. -/
def Transition.text (t : Transition) : List Char :=
  (Value.object (record t.material t.nextRevision t.previousDigest)).canonical.stringify

/-- The row that a transition is stored as. -/
def Transition.row (t : Transition) : Previous := ⟨t.nextRevision, t.stateDigest⟩

/-- The transitions of a conversation, the last one first. -/
inductive Ledger (sha256 : List Char → String) (i : Identity) : List Transition → Prop where
  | start : Ledger sha256 i []
  | next {ts : List Transition} {candidate : Value} {t : Transition} : Ledger sha256 i ts →
      buildTransition sha256 candidate i (ts.head?.map Transition.row) = .ok t →
      Ledger sha256 i (t :: ts)

/-! ## What a digest stands for -/

variable {sha256 : List Char → String} {i i' : Identity} {t t' : Transition} {ts ts' : List Transition}

/-- Two texts of the lists differ and have the same SHA-256. -/
def Collision (sha256 : List Char → String) (xs ys : List (List Char)) : Prop :=
  ∃ x ∈ xs, ∃ y ∈ ys, x ≠ y ∧ sha256 x = sha256 y

theorem Collision.cons {x y : List Char} {xs ys : List (List Char)} (h : Collision sha256 xs ys) :
    Collision sha256 (x :: xs) (y :: ys) := by
  obtain ⟨x', hx, y', hy, h⟩ := h
  exact ⟨x', List.mem_cons_of_mem _ hx, y', List.mem_cons_of_mem _ hy, h⟩

theorem digest_ne_empty (x : Value) : digest sha256 x ≠ "" := by
  intro h
  have hlist := congrArg String.toList h
  rw [digest, String.toList_append] at hlist
  cases hlist

theorem buildTransition_eq_ok {candidate : Value} {previous : Option Previous}
    (h : buildTransition sha256 candidate i previous = .ok t) :
    t.stateDigest = digest sha256 (.object (record t.material t.nextRevision t.previousDigest)) ∧
      t.previousDigest = previousDigest sha256 i previous := by
  rw [buildTransition] at h
  split at h
  · cases h
  · obtain ⟨material, -, h⟩ := Sql.bind_eq_ok.mp h
    cases h
    exact ⟨rfl, rfl⟩

/-- What the last digest of a ledger is taken over. -/
def last (i : Identity) : List Transition → Value
  | [] => genesis i
  | t :: _ => .object (record t.material t.nextRevision t.previousDigest)

/-- The texts that the digests of a ledger are taken over. -/
def texts (i : Identity) : List Transition → List (List Char)
  | [] => [(genesis i).canonical.stringify]
  | t :: ts => t.text :: texts i ts

theorem collision_of_last (hdigest : digest sha256 (last i ts) = digest sha256 (last i' ts'))
    (hne : (last i ts).canonical.stringify ≠ (last i' ts').canonical.stringify) :
    Collision sha256 (texts i ts) (texts i' ts') := by
  have hmem : ∀ i ts, (last i ts).canonical.stringify ∈ texts i ts := by
    intro i ts
    cases ts <;> exact List.mem_cons_self
  refine ⟨_, hmem i ts, _, hmem i' ts', hne, String.toList_injective ?_⟩
  have hlist := congrArg String.toList hdigest
  rw [digest, digest, String.toList_append, String.toList_append] at hlist
  exact List.append_cancel_left hlist

theorem Ledger.digests (h : Ledger sha256 i (t :: ts)) :
    t.stateDigest = digest sha256 (last i (t :: ts)) ∧
      t.previousDigest = digest sha256 (last i ts) ∧ Ledger sha256 i ts := by
  cases h with
  | next hts hbuild =>
      obtain ⟨hstate, hprevious⟩ := buildTransition_eq_ok hbuild
      refine ⟨hstate, ?_, hts⟩
      cases hts with
      | start => exact hprevious
      | @next us _ u _ hu =>
          have hdigest := (buildTransition_eq_ok hu).1
          have hne : u.stateDigest ≠ "" := hdigest ▸ digest_ne_empty _
          rw [hprevious]
          exact (if_neg hne).trans hdigest

theorem prevStateDigest_record (material : Members) (n : ℕ) (d : String) :
    (record material n d).get "prevStateDigest" = .string d :=
  Broker.get_put ..

theorem genesis_text (material : Members) (n : ℕ) (d : String) :
    (genesis i).canonical.stringify ≠ (Value.object (record material n d)).canonical.stringify := by
  intro h
  have hsimilar := (Js.similar_of_text h).get "prevStateDigest"
  have hrecord : (Value.object (record material n d)).normal.get "prevStateDigest" = .string d :=
    Js.normal_string (prevStateDigest_record material n d)
  rw [hrecord] at hsimilar
  cases hsimilar

theorem texts_of_last (h : Ledger sha256 i ts) (h' : Ledger sha256 i' ts')
    (hdigest : digest sha256 (last i ts) = digest sha256 (last i' ts')) :
    texts i ts = texts i' ts' ∨ Collision sha256 (texts i ts) (texts i' ts') := by
  induction ts generalizing ts' with
  | nil =>
      cases ts' with
      | nil =>
          by_cases htext : (genesis i).canonical.stringify = (genesis i').canonical.stringify
          · exact .inl (congrArg (· :: []) htext)
          · exact .inr (collision_of_last hdigest htext)
      | cons t' ts' => exact .inr (collision_of_last hdigest (genesis_text _ _ _))
  | cons t ts ih =>
      cases ts' with
      | nil => exact .inr (collision_of_last hdigest (genesis_text _ _ _).symm)
      | cons t' ts' =>
          obtain ⟨-, hprevious, h⟩ := h.digests
          obtain ⟨-, hprevious', h'⟩ := h'.digests
          by_cases htext : t.text = t'.text
          · -- a record names the digest before it
            have hsame : t.previousDigest = t'.previousDigest :=
              Js.string_of_text "prevStateDigest" htext (prevStateDigest_record ..)
                (prevStateDigest_record ..)
            rw [hprevious, hprevious'] at hsame
            exact (ih h h' hsame).imp (congrArg₂ List.cons htext) .cons
          · exact .inr (collision_of_last hdigest htext)

/-- **Ledgers.**  Two ledgers that end in the same digest have the same texts, from the first record to the
last, unless two of their texts collide. -/
theorem ledger_identified (h : Ledger sha256 i (t :: ts)) (h' : Ledger sha256 i' (t' :: ts'))
    (hdigest : t.stateDigest = t'.stateDigest) :
    texts i (t :: ts) = texts i' (t' :: ts') ∨
      Collision sha256 (texts i (t :: ts)) (texts i' (t' :: ts')) := by
  rw [h.digests.1, h'.digests.1] at hdigest
  exact texts_of_last h h' hdigest

namespace Demo

def hash (cs : List Char) : String :=
  String.ofList (List.replicate 64 (Char.ofNat (97 + cs.length % 6)))

def talk : Identity := ⟨"c", "o"⟩

def opened : Except String Transition :=
  buildTransition hash (.ofList [("phase", .string " ask "), ("slots", .ofList [])]) talk none

end Demo

theorem ledger_identified_opened : ∃ t, Demo.opened = .ok t ∧ (texts Demo.talk [t] = texts Demo.talk [t] ∨
    Collision Demo.hash (texts Demo.talk [t]) (texts Demo.talk [t])) := by
  have hopened : Demo.opened.isOk = true := by decide
  cases h : Demo.opened with
  | error e =>
      rw [h] at hopened
      cases hopened
  | ok t => exact ⟨t, rfl, ledger_identified (.next .start h) (.next .start h) rfl⟩

end Osdst
