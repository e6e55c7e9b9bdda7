import OpenSphere.Js.Message

/-!
# Frames of the PTY protocol

The gateway, the agent and the PTY server send each other JSON objects.  The two in
the Pod write and read them through one Go structure, `Frame`: a member whose tag says
`omitempty` is left out where its field has the zero value, and a missing member reads
as the zero value.  So they understand each other (`decode_encode`).  The gateway is
written in JavaScript, and a missing member is `undefined` to it.
-/

open Sql

namespace Pty

inductive Scalar where
  | string (t : String)
  | integer (n : Int)
deriving DecidableEq

/-- A JSON object whose members are texts and integers. -/
abbrev Wire := List (String × Scalar)

def Wire.member (w : Wire) (name : String) : Option Scalar := w.lookup name

/-! ## The structure of the runtime -/

/-- `ptyFrame`. -/
structure Frame where
  type : String
  sequence : UInt64
  sessionId : String := ""
  runtimeUid : String := ""
  generation : Int64 := 0
  fencingEpoch : Int64 := 0
  ticket : String := ""
  internalToken : String := ""
  contextJws : String := ""
  nonce : String := ""
  data : String := ""
  columns : UInt16 := 0
  rows : UInt16 := 0
  code : Int64 := 0
  message : String := ""
deriving DecidableEq

/-- A text field with `omitempty`. -/
def textField (name t : String) : Wire := if t = "" then [] else [(name, .string t)]

/-- An integer field with `omitempty`. -/
def integerField (name : String) (n : Int) : Wire := if n = 0 then [] else [(name, .integer n)]

/-- `json.Marshal(frame)`. -/
def Frame.encode (f : Frame) : Wire :=
  [("type", .string f.type), ("seq", .integer f.sequence.toNat)] ++
    textField "sessionId" f.sessionId ++ textField "runtimeUid" f.runtimeUid ++
    integerField "generation" f.generation.toInt ++
    integerField "fencingEpoch" f.fencingEpoch.toInt ++ textField "ticket" f.ticket ++
    textField "internalToken" f.internalToken ++ textField "contextJws" f.contextJws ++
    textField "nonce" f.nonce ++ textField "data" f.data ++
    integerField "columns" f.columns.toNat ++ integerField "rows" f.rows.toNat ++
    integerField "code" f.code.toInt ++ textField "message" f.message

def readText (w : Wire) (name : String) : Option String :=
  match w.member name with
  | some (.string t) => some t
  | some (.integer _) => none
  | none => some ""

/-- An integer field of an object that is read, within the bounds of its type. -/
def readInteger (w : Wire) (name : String) (lo hi : Int) : Option Int :=
  match w.member name with
  | some (.integer n) => if lo ≤ n ∧ n ≤ hi then some n else none
  | some (.string _) => none
  | none => some 0

/-- `json.Unmarshal`, into a frame. -/
def decode (w : Wire) : Option Frame := do
  let type ← readText w "type"
  let sequence ← readInteger w "seq" 0 (2 ^ 64 - 1)
  let sessionId ← readText w "sessionId"
  let runtimeUid ← readText w "runtimeUid"
  let generation ← readInteger w "generation" (-2 ^ 63) (2 ^ 63 - 1)
  let fencingEpoch ← readInteger w "fencingEpoch" (-2 ^ 63) (2 ^ 63 - 1)
  let ticket ← readText w "ticket"
  let internalToken ← readText w "internalToken"
  let contextJws ← readText w "contextJws"
  let nonce ← readText w "nonce"
  let data ← readText w "data"
  let columns ← readInteger w "columns" 0 (2 ^ 16 - 1)
  let rows ← readInteger w "rows" 0 (2 ^ 16 - 1)
  let code ← readInteger w "code" (-2 ^ 63) (2 ^ 63 - 1)
  let message ← readText w "message"
  return {
    type := type
    sequence := UInt64.ofNat sequence.toNat
    sessionId := sessionId
    runtimeUid := runtimeUid
    generation := Int64.ofInt generation
    fencingEpoch := Int64.ofInt fencingEpoch
    ticket := ticket
    internalToken := internalToken
    contextJws := contextJws
    nonce := nonce
    data := data
    columns := UInt16.ofNat columns.toNat
    rows := UInt16.ofNat rows.toNat
    code := Int64.ofInt code
    message := message }

/-- `JSON.parse`, of an object of texts and integers. -/
def parse (w : Wire) : Js.Message :=
  some fun name =>
    match w.member name with
    | some (.string t) => .string (Js.points t)
    | some (.integer n) => .number (some (Js.double n))
    | none => .undefined

/-! ## Members -/

section

variable {w : Wire} {name key t : String} {n lo hi : Int}

theorem member_cons {x : Scalar} : Wire.member ((key, x) :: w) name =
    if name = key then some x else w.member name := by
  unfold Wire.member
  rw [List.lookup_cons]
  by_cases hname : name = key
  · rw [if_pos hname, beq_iff_eq.mpr hname]
  · rw [if_neg hname, beq_false_of_ne hname]

theorem member_textField : (textField key t ++ w).member name =
    if name = key ∧ t ≠ "" then some (.string t) else w.member name := by
  unfold textField
  by_cases ht : t = ""
  · simp [ht]
  · simp [ht, member_cons]

theorem member_integerField : (integerField key n ++ w).member name =
    if name = key ∧ n ≠ 0 then some (.integer n) else w.member name := by
  unfold integerField
  by_cases hn : n = 0
  · simp [hn]
  · simp [hn, member_cons]

theorem readText_eq (h : w.member name = if t = "" then none else some (.string t)) :
    readText w name = some t := by
  rw [readText, h]
  by_cases ht : t = ""
  · simp [ht]
  · simp [ht]

theorem readInteger_eq (h : w.member name = if n = 0 then none else some (.integer n))
    (hlo : lo ≤ n) (hhi : n ≤ hi) : readInteger w name lo hi = some n := by
  rw [readInteger, h]
  by_cases hn : n = 0
  · simp [hn]
  · simp [hn, hlo, hhi]

end

theorem member_encode (f : Frame) (name : String) : f.encode.member name =
    if name = "type" then some (.string f.type)
    else if name = "seq" then some (.integer f.sequence.toNat)
    else if name = "sessionId" ∧ f.sessionId ≠ "" then some (.string f.sessionId)
    else if name = "runtimeUid" ∧ f.runtimeUid ≠ "" then some (.string f.runtimeUid)
    else if name = "generation" ∧ f.generation.toInt ≠ 0 then some (.integer f.generation.toInt)
    else if name = "fencingEpoch" ∧ f.fencingEpoch.toInt ≠ 0 then
      some (.integer f.fencingEpoch.toInt)
    else if name = "ticket" ∧ f.ticket ≠ "" then some (.string f.ticket)
    else if name = "internalToken" ∧ f.internalToken ≠ "" then some (.string f.internalToken)
    else if name = "contextJws" ∧ f.contextJws ≠ "" then some (.string f.contextJws)
    else if name = "nonce" ∧ f.nonce ≠ "" then some (.string f.nonce)
    else if name = "data" ∧ f.data ≠ "" then some (.string f.data)
    else if name = "columns" ∧ (f.columns.toNat : Int) ≠ 0 then some (.integer f.columns.toNat)
    else if name = "rows" ∧ (f.rows.toNat : Int) ≠ 0 then some (.integer f.rows.toNat)
    else if name = "code" ∧ f.code.toInt ≠ 0 then some (.integer f.code.toInt)
    else if name = "message" ∧ f.message ≠ "" then some (.string f.message)
    else none := by
  have hnil : ∀ w : Wire, w = w ++ [] := fun w => (List.append_nil w).symm
  rw [hnil f.encode, Frame.encode]
  simp only [List.append_assoc, List.cons_append, List.nil_append]
  simp only [member_cons, member_textField, member_integerField]
  rfl

/-- A frame that is written by one end is read by the other. -/
theorem decode_encode (f : Frame) : decode f.encode = some f := by
  have hsequence : (f.sequence.toNat : Int) ≤ 2 ^ 64 - 1 := by
    have := f.sequence.toNat_lt
    omega
  have hcolumns : (f.columns.toNat : Int) ≤ 2 ^ 16 - 1 := by
    have := f.columns.toNat_lt
    omega
  have hrows : (f.rows.toNat : Int) ≤ 2 ^ 16 - 1 := by
    have := f.rows.toNat_lt
    omega
  have hlo : ∀ x : Int64, -2 ^ 63 ≤ x.toInt := fun x => x.le_toInt
  have hhi : ∀ x : Int64, x.toInt ≤ 2 ^ 63 - 1 := fun x => Int.le_sub_one_of_lt x.toInt_lt
  have h0 : readText f.encode "type" = some f.type := by simp [readText, member_encode]
  have h1 : readInteger f.encode "seq" 0 (2 ^ 64 - 1) = some (f.sequence.toNat : Int) := by
    have hmember : f.encode.member "seq" = some (.integer f.sequence.toNat) := by
      simp [member_encode]
    rw [readInteger, hmember]
    exact if_pos ⟨Int.natCast_nonneg _, hsequence⟩
  have h2 : readText f.encode "sessionId" = some f.sessionId :=
    readText_eq (by simp [member_encode])
  have h3 : readText f.encode "runtimeUid" = some f.runtimeUid :=
    readText_eq (by simp [member_encode])
  have h4 : readInteger f.encode "generation" (-2 ^ 63) (2 ^ 63 - 1) = some f.generation.toInt :=
    readInteger_eq (by simp [member_encode]) (hlo _) (hhi _)
  have h5 : readInteger f.encode "fencingEpoch" (-2 ^ 63) (2 ^ 63 - 1) =
      some f.fencingEpoch.toInt := readInteger_eq (by simp [member_encode]) (hlo _) (hhi _)
  have h6 : readText f.encode "ticket" = some f.ticket := readText_eq (by simp [member_encode])
  have h7 : readText f.encode "internalToken" = some f.internalToken :=
    readText_eq (by simp [member_encode])
  have h8 : readText f.encode "contextJws" = some f.contextJws :=
    readText_eq (by simp [member_encode])
  have h9 : readText f.encode "nonce" = some f.nonce := readText_eq (by simp [member_encode])
  have h10 : readText f.encode "data" = some f.data := readText_eq (by simp [member_encode])
  have h11 : readInteger f.encode "columns" 0 (2 ^ 16 - 1) = some (f.columns.toNat : Int) :=
    readInteger_eq (by simp [member_encode]) (Int.natCast_nonneg _) hcolumns
  have h12 : readInteger f.encode "rows" 0 (2 ^ 16 - 1) = some (f.rows.toNat : Int) :=
    readInteger_eq (by simp [member_encode]) (Int.natCast_nonneg _) hrows
  have h13 : readInteger f.encode "code" (-2 ^ 63) (2 ^ 63 - 1) = some f.code.toInt :=
    readInteger_eq (by simp [member_encode]) (hlo _) (hhi _)
  have h14 : readText f.encode "message" = some f.message := readText_eq (by simp [member_encode])
  simp only [decode, h0, h1, h2, h3, h4, h5, h6, h7, h8, h9, h10, h11, h12, h13, h14,
    Option.bind_eq_bind, Option.bind_some, Int.toNat_natCast, UInt64.ofNat_toNat,
    UInt16.ofNat_toNat, Int64.ofInt_toInt]
  rfl

end Pty
