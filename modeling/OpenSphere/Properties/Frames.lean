import Mathlib.Data.List.Forall2
import OpenSphere.Pty.Relay

/-!
# Frames towards the browser

What the runtime writes and what the gateway makes of it.  The agent reads every
frame of the PTY server as it was written, and numbers them from 1 on, so the gateway
sees the frames of the channel in order with the numbers 1, 2, 3 and so on.

It takes each of them but two.  An exit code 0 is not written, because the field says
`omitempty`, and the gateway takes no `exit` without a code.  And it reads the octets of
each output by themselves, so that a character which is cut by the end of the buffer is
lost.
-/

open Sql
open Js (Datum points maxSafeInteger)

namespace Pty

variable {sessionId : String}

/-! ## What is to be shown -/

inductive Notice where
  | attached
  | stdout (bytes : List UInt8)
  | pong
  | error (message : String)
  | revoked (message : String)
  | exit (code : Int)

def Event.notice : Event → Notice
  | .stdout c => .stdout c.bytes
  | .unreadable => .error "PTY output failed"
  | .pinged => .pong
  | .exited how => .exit how.code.toInt
  | .refused => .error "invalid or excessive PTY frame"
  | .revoked => .revoked "runtime authorization revoked"

/-- A frame to the browser has the type, the payload and the exit code of a notice. -/
def BrowserFrame.Shows (sessionId : String) (out : BrowserFrame) : Notice → Prop
  | .attached => out.type = .string (points "attached") ∧ out.sessionId = some sessionId
  | .stdout bytes => out.type = .string (points "stdout") ∧
      ∃ t, out.data = some t ∧ Js.utf8 t = bytes
  | .pong => out.type = .string (points "pong")
  | .error message => out.type = .string (points "error") ∧ out.message = some (points message)
  | .revoked message => out.type = .string (points "revoked") ∧
      out.message = some (points message)
  | .exit code => out.type = .string (points "exit") ∧ out.code = some (.number (some code))

/-- An event that reaches the browser: an output that is octets of a text, or an end with an
exit code other than 0. -/
def Event.Kept : Event → Prop
  | .stdout c => Codec.Utf8.Valid c.bytes
  | .exited how => how.code ≠ 0
  | _ => True

/-! ## The channel of the agent -/

/-- The agent reads what the PTY server wrote, and numbers it anew. -/
theorem sequenceOutbound_channel (k s : UInt64) (es : List Event) :
    sequenceOutbound k (channel s es) = sequenceOutbound k (es.map Event.frame) := by
  induction es generalizing k s with
  | nil => rfl
  | cons e es ih =>
      rw [channel, List.map_cons]
      split
      · rw [decode_encode]
        simp only [sequenceOutbound, ih]
      · simp only [sequenceOutbound, ih]

/-! ## What the gateway reads -/

theorem isType_eq {get : String → Datum} {t name : String} (h : get "type" = .string (points t)) :
    isType get name = decide (t = name) := by
  unfold isType
  rw [h]
  refine decide_eq_decide.mpr ⟨fun heq => Js.points_injective (Datum.string.inj heq), ?_⟩
  rintro rfl
  rfl

/-- The members of an encoded frame that the gateway looks at. -/
structure Reads (f : Frame) (get : String → Datum) : Prop where
  type : get "type" = .string (points f.type)
  seq : get "seq" = .number (some (Js.double f.sequence.toNat))
  data : get "data" = if f.data = "" then .undefined else .string (points f.data)
  code : get "code" = if f.code.toInt = 0 then .undefined
    else .number (some (Js.double f.code.toInt))
  message : get "message" = if f.message = "" then .undefined else .string (points f.message)

theorem parse_encode (f : Frame) : ∃ get, parse f.encode = some get ∧ Reads f get := by
  refine ⟨_, rfl, ?_, ?_, ?_, ?_, ?_⟩
  · simp [member_encode]
  · simp [member_encode]
  · by_cases h : f.data = "" <;> simp [member_encode, h]
  · by_cases h : f.code.toInt = 0 <;> simp [member_encode, h]
  · by_cases h : f.message = "" <;> simp [member_encode, h]

section

variable {f : Frame} {get : String → Datum} {k : Nat}

theorem Reads.next (h : Reads f get) (hseq : f.sequence.toNat = k + 1) (hk : k + 1 < 2 ^ 53) :
    (get "seq").safeInteger.filter (fun n => decide ((k : Int) < n)) = some ((k : Int) + 1) := by
  have hdouble : Js.double ((k + 1 : Nat) : Int) = (k : Int) + 1 := by
    rw [Js.double_eq_self (by omega)]
    push_cast
    rfl
  have hsafe : -maxSafeInteger ≤ (k : Int) + 1 ∧ (k : Int) + 1 ≤ maxSafeInteger := by
    unfold maxSafeInteger
    omega
  rw [h.seq, hseq, hdouble, Datum.safeInteger, Datum.integer, Option.filter_some,
    if_pos (decide_eq_true hsafe), Option.filter_some, if_pos (decide_eq_true (by omega))]

theorem Reads.unsafe (h : Reads f get) (hseq : f.sequence.toNat = 2 ^ 53) :
    (get "seq").safeInteger = none := by
  have hdouble : Js.double ((2 ^ 53 : Nat) : Int) = 9007199254740992 := by decide
  rw [h.seq, hseq, hdouble]
  rfl

end

/-! Each kind of frame, with a sequence number that is taken. -/

section

variable {get : String → Datum} {previous seq : Int} {t : String} {d : List Js.Point}
  (hseq : (get "seq").safeInteger.filter (fun n => decide (previous < n)) = some seq)

include hseq

theorem runtimeFrame_attached (htype : get "type" = .string (points "attached")) :
    runtimeFrame (some get) previous sessionId =
      .ok ⟨.string (points "attached"), seq, some sessionId, none, none, none⟩ := by
  simp [runtimeFrame, hseq, isType_eq htype, htype]

theorem runtimeFrame_stdout (htype : get "type" = .string (points "stdout"))
    (hdata : get "data" = .string d) (hsize : (Js.fromBase64 d).length ≤ 65536) :
    runtimeFrame (some get) previous sessionId =
      .ok ⟨.string (points "stdout"), seq, none, some (Js.fromUtf8 (Js.fromBase64 d)), none,
        none⟩ := by
  simp [runtimeFrame, hseq, isType_eq htype, htype, outputData, hdata, Datum.text, hsize]

theorem runtimeFrame_exit {n : Int} (htype : get "type" = .string (points "exit"))
    (hcode : get "code" = .number (some n)) :
    runtimeFrame (some get) previous sessionId =
      .ok ⟨.string (points "exit"), seq, none, none, some (.number (some n)), none⟩ := by
  simp [runtimeFrame, hseq, isType_eq htype, htype, outputData, exitCode, hcode, Datum.integer]

theorem runtimeFrame_exit_missing (htype : get "type" = .string (points "exit"))
    (hcode : get "code" = .undefined) :
    runtimeFrame (some get) previous sessionId = .error "runtime frame contract rejected" := by
  simp [runtimeFrame, hseq, isType_eq htype, outputData, exitCode, noticeMessage, hcode,
    Datum.integer]

theorem runtimeFrame_pong (htype : get "type" = .string (points "pong")) :
    runtimeFrame (some get) previous sessionId =
      .ok ⟨.string (points "pong"), seq, none, none, none, none⟩ := by
  simp [runtimeFrame, hseq, isType_eq htype, htype, outputData, exitCode, noticeMessage]

theorem runtimeFrame_notice (ht : t = "error" ∨ t = "revoked")
    (htype : get "type" = .string (points t)) (hmessage : get "message" = .string d)
    (hlength : Js.pointsLength d ≤ 1024) :
    runtimeFrame (some get) previous sessionId =
      .ok ⟨.string (points t), seq, none, none, some (noticeCode get), some d⟩ := by
  rcases ht with rfl | rfl <;>
    simp [runtimeFrame, hseq, isType_eq htype, htype, outputData, exitCode, noticeMessage,
      hmessage, Datum.text, Option.filter_some, hlength]

end

theorem Reads.chunk {f : Frame} {get : String → Datum} {c : Chunk} {n : UInt64} {k seq : Int}
    (hreads : Reads f get) (hf : f = { (Event.stdout c).frame with sequence := n })
    (hseq : (get "seq").safeInteger.filter (fun m => decide (k < m)) = some seq) :
    runtimeFrame (some get) k sessionId =
      .ok ⟨.string (points "stdout"), seq, none, some (Js.fromUtf8 c.bytes), none, none⟩ := by
  subst hf
  have hback := Js.fromBase64_encodeRaw c.bytes
  have hne : String.ofList (Codec.Base64.encodeRaw c.bytes) ≠ "" := by
    intro hblank
    rw [hblank] at hback
    exact c.nonempty hback.symm
  have hdata : get "data" = .string (points (String.ofList (Codec.Base64.encodeRaw c.bytes))) :=
    hreads.data.trans (if_neg hne)
  have hsize : (Js.fromBase64 (points (String.ofList (Codec.Base64.encodeRaw c.bytes)))).length
      ≤ 65536 := by
    rw [hback]
    exact Nat.le_trans c.bounded (by decide)
  rw [runtimeFrame_stdout hseq hreads.type hdata hsize, hback]

/-! ## Every event -/

/-- The frame to the browser shows the event exactly when the event is kept, and a frame that
is not taken belongs to an event that is not. -/
def Relays (sessionId : String) (k : Nat) (e : Event) : Except String BrowserFrame → Prop
  | .ok out => out.sequence = k + 1 ∧ (out.Shows sessionId e.notice ↔ e.Kept)
  | .error _ => ¬ e.Kept

theorem Ended.code_bounds (how : Ended) : -1 ≤ how.code.toInt ∧ how.code.toInt ≤ 255 := by
  cases how with
  | success => decide
  | exited status nonzero =>
      have hlt := status.toNat_lt
      have hcode : (Ended.exited status nonzero).code.toInt = status.toNat :=
        Int64.toInt_ofInt_of_le (by omega) (by omega)
      omega
  | signaled => decide
  | failed => decide

section

-- the lemmas on the kinds of frames say what it does
attribute [local irreducible] runtimeFrame

theorem runtimeFrame_event (sessionId : String) (e : Event) {f : Frame} {n : UInt64} {k : Nat}
    (hf : f = { e.frame with sequence := n }) (hn : n.toNat = k + 1) (hk : k + 1 < 2 ^ 53) :
    Relays sessionId k e (runtimeFrame (parse f.encode) k sessionId) := by
  subst hf
  obtain ⟨get, hparse, hreads⟩ := parse_encode { e.frame with sequence := n }
  have hseq := hreads.next hn hk
  rw [hparse]
  cases e with
  | stdout c =>
      rw [hreads.chunk rfl hseq]
      refine ⟨rfl, ?_⟩
      show (_ ∧ ∃ t, some (Js.fromUtf8 c.bytes) = some t ∧ Js.utf8 t = c.bytes) ↔
        Codec.Utf8.Valid c.bytes
      rw [← Js.utf8_fromUtf8_iff]
      constructor
      · rintro ⟨-, t, ht, hbytes⟩
        cases ht
        exact hbytes
      · intro hbytes
        exact ⟨rfl, _, rfl, hbytes⟩
  | unreadable =>
      have hmessage : get "message" = .string (points "PTY output failed") :=
        hreads.message.trans (if_neg (by simp [Event.frame]))
      rw [runtimeFrame_notice hseq (.inl rfl) hreads.type hmessage (by decide)]
      exact ⟨rfl, iff_of_true ⟨rfl, rfl⟩ trivial⟩
  | pinged =>
      rw [runtimeFrame_pong hseq hreads.type]
      exact ⟨rfl, iff_of_true rfl trivial⟩
  | exited how =>
      by_cases hzero : how.code = 0
      · have hcode : get "code" = .undefined :=
          hreads.code.trans (if_pos (by show how.code.toInt = 0; rw [hzero]; rfl))
        rw [runtimeFrame_exit_missing hseq hreads.type hcode]
        exact not_not.mpr hzero
      · have hne : how.code.toInt ≠ 0 := fun h => hzero (Int64.toInt_inj.mp h)
        have hbounds := how.code_bounds
        have hcode : get "code" = .number (some (Js.double how.code.toInt)) :=
          hreads.code.trans (if_neg hne)
        rw [runtimeFrame_exit hseq hreads.type hcode]
        refine ⟨rfl, iff_of_true ⟨rfl, ?_⟩ hzero⟩
        show some (Datum.number (some (Js.double how.code.toInt))) = _
        rw [Js.double_eq_self (by omega)]
  | refused =>
      have hmessage : get "message" = .string (points "invalid or excessive PTY frame") :=
        hreads.message.trans (if_neg (by simp [Event.frame]))
      rw [runtimeFrame_notice hseq (.inl rfl) hreads.type hmessage (by decide)]
      exact ⟨rfl, iff_of_true ⟨rfl, rfl⟩ trivial⟩
  | revoked =>
      have hmessage : get "message" = .string (points "runtime authorization revoked") :=
        hreads.message.trans (if_neg (by simp [Event.frame]))
      rw [runtimeFrame_notice hseq (.inr rfl) hreads.type hmessage (by decide)]
      exact ⟨rfl, iff_of_true ⟨rfl, rfl⟩ trivial⟩

/-! ## Every run -/

/-- The frames of some events, with the sequence numbers from `k + 1` on. -/
def numbered (k : Nat) (es : List Event) : List Wire :=
  (sequenceOutbound (UInt64.ofNat k) (es.map Event.frame)).map Frame.encode

theorem numbered_cons (k : Nat) (e : Event) (es : List Event) :
    numbered k (e :: es) =
      { e.frame with sequence := UInt64.ofNat (k + 1) }.encode :: numbered (k + 1) es := by
  have hnext : UInt64.ofNat k + 1 = UInt64.ofNat (k + 1) := (UInt64.ofNat_add k 1).symm
  rw [numbered, List.map_cons, sequenceOutbound, hnext]
  rfl

theorem closed_receive (ws : List Wire) {g : Gateway} (h : g.closed = true) :
    ws.foldl (Gateway.receive sessionId) g = g := by
  induction ws with
  | nil => rfl
  | cons w ws ih =>
      rw [List.foldl_cons, Gateway.receive, if_pos h]
      exact ih

theorem sent_receive (sessionId : String) (ws : List Wire) (g : Gateway) :
    ∃ outs, (ws.foldl (Gateway.receive sessionId) g).sent = g.sent ++ outs := by
  induction ws generalizing g with
  | nil => exact ⟨[], (List.append_nil _).symm⟩
  | cons w ws ih =>
      obtain ⟨outs, houts⟩ := ih (g.receive sessionId w)
      rw [List.foldl_cons, houts]
      unfold Gateway.receive
      split
      · exact ⟨outs, rfl⟩
      · split
        · exact ⟨_ :: outs, by rw [List.append_assoc]; rfl⟩
        · exact ⟨outs, rfl⟩

/-- The gateway goes on from an open connection, and shows the events to the browser. -/
def Relayed (sessionId : String) (g g' : Gateway) (es : List Event) : Prop :=
  g'.closed = false ∧ ∃ outs, g'.sent = g.sent ++ outs ∧
    List.Forall₂ (BrowserFrame.Shows sessionId) outs (es.map Event.notice)

theorem relayed_cons {g g' : Gateway} {out : BrowserFrame} {e : Event} {es : List Event} {n : Int}
    (hsent : ∃ outs, g'.sent = g.sent ++ [out] ++ outs) :
    Relayed sessionId g g' (e :: es) ↔ out.Shows sessionId e.notice ∧
      Relayed sessionId { g with runtimeSequence := n, sent := g.sent ++ [out] } g' es := by
  obtain ⟨outs, houts⟩ := hsent
  constructor
  · rintro ⟨hopen, outs', houts', hshows⟩
    rw [houts, List.append_assoc, List.append_cancel_left_eq] at houts'
    subst houts'
    obtain ⟨hfirst, hrest⟩ := List.forall₂_cons.mp hshows
    exact ⟨hfirst, hopen, outs, houts, hrest⟩
  · rintro ⟨hfirst, hopen, outs', houts', hshows⟩
    refine ⟨hopen, out :: outs', ?_, .cons hfirst hshows⟩
    rw [houts', List.append_assoc]
    rfl

theorem receive_refused {g : Gateway} {w : Wire} {m : String} (hopen : g.closed = false)
    (h : runtimeFrame (parse w) g.runtimeSequence sessionId = .error m) :
    g.receive sessionId w = { g with closed := true } := by
  simp only [Gateway.receive, hopen, h, Bool.false_eq_true, if_false]

theorem receive_taken {g : Gateway} {w : Wire} {out : BrowserFrame} (hopen : g.closed = false)
    (h : runtimeFrame (parse w) g.runtimeSequence sessionId = .ok out) :
    g.receive sessionId w = { g with runtimeSequence := out.sequence, sent := g.sent ++ [out] } := by
  simp only [Gateway.receive, hopen, h, Bool.false_eq_true, if_false]

theorem last_refused {k : Int} (f : Frame) (h : f.sequence.toNat = 2 ^ 53) :
    runtimeFrame (parse f.encode) k sessionId = .error "non-monotonic runtime frame" := by
  obtain ⟨get, hparse, hreads⟩ := parse_encode f
  rw [hparse, runtimeFrame, hreads.unsafe h]
  rfl

/-- The gateway shows the events exactly when each is kept and the sequence numbers stay
below 2^53. -/
theorem relayed_from (es : List Event) (k : Nat) (g : Gateway) (hopen : g.closed = false)
    (hg : g.runtimeSequence = k) (hk : k < 2 ^ 53) :
    Relayed sessionId g ((numbered k es).foldl (Gateway.receive sessionId) g) es ↔
      k + es.length < 2 ^ 53 ∧ ∀ e ∈ es, e.Kept := by
  induction es generalizing k g with
  | nil =>
      refine iff_of_true ⟨hopen, [], (List.append_nil _).symm, .nil⟩ ⟨hk, fun e he => ?_⟩
      cases he
  | cons e es ih =>
      rw [numbered_cons, List.foldl_cons, List.length_cons, List.forall_mem_cons]
      have hn : (UInt64.ofNat (k + 1)).toNat = k + 1 := by
        rw [UInt64.toNat_ofNat']
        omega
      -- the connection is closed at a frame that is not taken
      have hfails : ∀ m, runtimeFrame (parse { e.frame with
          sequence := UInt64.ofNat (k + 1) }.encode) k sessionId = .error m →
          ¬ Relayed sessionId g ((numbered (k + 1) es).foldl (Gateway.receive sessionId)
            (g.receive sessionId { e.frame with sequence := UInt64.ofNat (k + 1) }.encode))
            (e :: es) := by
        intro m hm hrelayed
        rw [receive_refused hopen (hg ▸ hm), closed_receive _ rfl] at hrelayed
        exact Bool.noConfusion hrelayed.1
      by_cases hlast : k + 1 = 2 ^ 53
      · refine iff_of_false (hfails _ (last_refused _ (hn.trans hlast))) fun h => ?_
        omega
      · have hevent := runtimeFrame_event sessionId e rfl hn (by omega)
        cases hresult : runtimeFrame (parse { e.frame with
            sequence := UInt64.ofNat (k + 1) }.encode) k sessionId with
        | error m =>
            rw [hresult] at hevent
            exact iff_of_false (hfails m hresult) fun h => hevent h.2.1
        | ok out =>
            rw [hresult] at hevent
            obtain ⟨hsequence, hshows⟩ := hevent
            rw [receive_taken hopen (hg ▸ hresult), relayed_cons (sent_receive _ _ _), ih (k + 1)
              { g with runtimeSequence := out.sequence, sent := g.sent ++ [out] } hopen hsequence
              (by omega), hshows]
            constructor
            · rintro ⟨hkept, hlength, hrest⟩
              exact ⟨by omega, hkept, hrest⟩
            · rintro ⟨hlength, hkept, hrest⟩
              exact ⟨hkept, by omega, hrest⟩

end

def attachedFrame (sessionId : String) : BrowserFrame :=
  ⟨.string (points "attached"), 1, some sessionId, none, none, none⟩

/-- The gateway takes the first frame, and then those of the events. -/
theorem relayed_written (sessionId : String) (es : List Event) : relayed sessionId (written es) =
    (numbered 1 es).foldl (Gateway.receive sessionId) ⟨1, [attachedFrame sessionId], false⟩ := by
  obtain ⟨get, hparse, hreads⟩ := parse_encode { type := "attached", sequence := 1 }
  have hseq := hreads.next (k := 0) rfl (by decide)
  have hfirst : Gateway.receive sessionId ⟨0, [], false⟩
      (Frame.encode { type := "attached", sequence := 1 }) =
      ⟨1, [attachedFrame sessionId], false⟩ := by
    have hattached : runtimeFrame (some get) 0 sessionId = .ok (attachedFrame sessionId) :=
      runtimeFrame_attached hseq hreads.type
    simp only [Gateway.receive, hparse, Bool.false_eq_true, if_false, hattached]
    rfl
  have hwritten : written es =
      Frame.encode { type := "attached", sequence := 1 } :: numbered 1 es := by
    rw [written, sequenceOutbound, sequenceOutbound_channel]
    rfl
  rw [relayed, hwritten, List.foldl_cons, hfirst]

/-- The frames of the runtime reach the browser.  The gateway takes every frame the runtime
writes, in order, and sends the browser a frame with its type, its payload and its exit code,
exactly when no output ends within a character, the shell does not end with exit code 0, and
there are fewer than 2^53 frames. -/
theorem runtime_frames (sessionId : String) (es : List Event) :
    ((relayed sessionId (written es)).closed = false ∧
      List.Forall₂ (BrowserFrame.Shows sessionId) (relayed sessionId (written es)).sent
        (.attached :: es.map Event.notice)) ↔
      es.length + 1 < 2 ^ 53 ∧ ∀ e ∈ es, e.Kept := by
  rw [relayed_written, Nat.add_comm,
    ← relayed_from es 1 ⟨1, [attachedFrame sessionId], false⟩ rfl rfl (by decide)]
  constructor
  · rintro ⟨hopen, hshows⟩
    obtain ⟨outs, houts⟩ := sent_receive sessionId (numbered 1 es)
      ⟨1, [attachedFrame sessionId], false⟩
    rw [houts] at hshows
    exact ⟨hopen, outs, houts, (List.forall₂_cons.mp hshows).2⟩
  · rintro ⟨hopen, outs, houts, hshows⟩
    rw [houts]
    exact ⟨hopen, .cons ⟨rfl, rfl⟩ hshows⟩

/-! ## A clean exit and a cut character -/

namespace Demo

/-- The first octet of a character of two. -/
def cut : Chunk := ⟨[0xC3], by decide, by decide⟩

end Demo

/-- The frame of a shell that ends with exit code 0 closes the connection, and half a character
is not shown as it was written. -/
theorem clean_exit_refused :
    (relayed "9" (written [.exited .success])).closed = true ∧
    ¬ List.Forall₂ (BrowserFrame.Shows "9") (relayed "9" (written [.stdout Demo.cut])).sent
      [.attached, .stdout Demo.cut.bytes] := by
  constructor
  · decide
  · have hsent : (relayed "9" (written [.stdout Demo.cut])).sent.map (fun out => out.data.map Js.utf8) =
        [none, some [0xEF, 0xBF, 0xBD]] := by
      decide
    intro h
    obtain ⟨first, rest, -, hrest, heq⟩ := List.forall₂_cons_right_iff.mp h
    obtain ⟨second, rest', ⟨-, t, ht, hbytes⟩, -, rfl⟩ := List.forall₂_cons_right_iff.mp hrest
    rw [heq, List.map_cons, List.map_cons, ht, Option.map_some, hbytes] at hsent
    injection hsent with _ htail
    injection htail with hcut _
    exact absurd hcut (by decide)

end Pty
