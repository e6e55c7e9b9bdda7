import OpenSphere.Properties.Frames

/-!
# The text of the output

The shell writes one stream of octets, and the reads of the PTY cut it where they like.  The
gateway makes a text of each piece by itself.  So the pieces are the text of the stream only
where each of them is a text: a character that is cut by the end of a read is shown as two
or more replacement characters.
-/

open Sql
open Js (points)

namespace Pty

variable {sessionId : String}

/-! ## What is read and what is shown -/

/-- What the shell has written, as far as an event tells it. -/
def Event.output : Event → List UInt8
  | .stdout c => c.bytes
  | _ => []

def Event.isEnd : Event → Bool
  | .exited _ => true
  | _ => false

def output (es : List Event) : List UInt8 := es.flatMap Event.output

/-- The `data` fields of the frames to the browser, one after the other. -/
def Gateway.text (g : Gateway) : List Js.Point := g.sent.flatMap fun out => out.data.getD []

theorem decode_output (es : List Event) :
    (es.flatMap fun e => Js.fromUtf8 e.output) = Js.fromUtf8 (output es) ↔
      (es.map Event.output).flatMap Codec.Utf8.decode =
        Codec.Utf8.decode (es.map Event.output).flatten := by
  have hpieces : (es.flatMap fun e => Js.fromUtf8 e.output) =
      ((es.map Event.output).flatMap Codec.Utf8.decode).map Js.Point.char := by
    rw [List.flatMap_map, List.map_flatMap]
    rfl
  have hinjective : Function.Injective (List.map Js.Point.char) :=
    List.map_injective_iff.mpr fun _ _ => Js.Point.char.inj
  have hflatten : output es = (es.map Event.output).flatten := List.flatMap_def ..
  rw [hpieces, Js.fromUtf8, hinjective.eq_iff, hflatten]

/-! ## One frame -/

/-- The gateway takes the frame of an event, and its `data` is the text of the octets of that
event alone. -/
theorem runtimeFrame_output (sessionId : String) {e : Event} (he : e.isEnd = false) {f : Frame}
    {n : UInt64} {k : Nat} (hf : f = { e.frame with sequence := n }) (hn : n.toNat = k + 1)
    (hk : k + 1 < 2 ^ 53) :
    ∃ out, runtimeFrame (parse f.encode) k sessionId = .ok out ∧ out.sequence = k + 1 ∧
      out.data.getD [] = Js.fromUtf8 e.output := by
  subst hf
  obtain ⟨get, hparse, hreads⟩ := parse_encode { e.frame with sequence := n }
  have hseq := hreads.next hn hk
  rw [hparse]
  cases e with
  | stdout c => exact ⟨_, hreads.chunk rfl hseq, rfl, rfl⟩
  | unreadable =>
      have hmessage : get "message" = .string (points "PTY output failed") :=
        hreads.message.trans (if_neg (by simp [Event.frame]))
      exact ⟨_, runtimeFrame_notice hseq (.inl rfl) hreads.type hmessage (by decide),
        rfl, rfl⟩
  | pinged => exact ⟨_, runtimeFrame_pong hseq hreads.type, rfl, rfl⟩
  | exited how => cases he
  | refused =>
      have hmessage : get "message" = .string (points "invalid or excessive PTY frame") :=
        hreads.message.trans (if_neg (by simp [Event.frame]))
      exact ⟨_, runtimeFrame_notice hseq (.inl rfl) hreads.type hmessage (by decide),
        rfl, rfl⟩
  | revoked =>
      have hmessage : get "message" = .string (points "runtime authorization revoked") :=
        hreads.message.trans (if_neg (by simp [Event.frame]))
      exact ⟨_, runtimeFrame_notice hseq (.inr rfl) hreads.type hmessage (by decide),
        rfl, rfl⟩

/-! ## Every run -/

/-- While the sequence numbers last, the text grows by the text of each piece. -/
theorem text_from (es : List Event) (hes : ∀ e ∈ es, e.isEnd = false) (k : Nat) (g : Gateway)
    (hopen : g.closed = false) (hg : g.runtimeSequence = k) (hk : k < 2 ^ 53) :
    let g' := (numbered k es).foldl (Gateway.receive sessionId) g
    (g'.closed = false ↔ k + es.length < 2 ^ 53) ∧
      (g'.closed = false → g'.text = g.text ++ es.flatMap fun e => Js.fromUtf8 e.output) := by
  induction es generalizing k g with
  | nil => exact ⟨iff_of_true hopen hk, fun _ => (List.append_nil _).symm⟩
  | cons e es ih =>
      obtain ⟨he, hrest⟩ := List.forall_mem_cons.mp hes
      rw [numbered_cons, List.foldl_cons, List.length_cons, List.flatMap_cons]
      have hn : (UInt64.ofNat (k + 1)).toNat = k + 1 := by
        rw [UInt64.toNat_ofNat']
        omega
      by_cases hlast : k + 1 = 2 ^ 53
      · rw [receive_refused hopen (last_refused _ (hn.trans hlast)), closed_receive _ rfl]
        refine ⟨iff_of_false (fun h => Bool.noConfusion h) fun h => ?_, fun h => Bool.noConfusion h⟩
        omega
      · obtain ⟨out, hout, hsequence, hdata⟩ := runtimeFrame_output sessionId he rfl hn (by omega)
        obtain ⟨hlength, htext⟩ := ih hrest (k + 1)
          { g with runtimeSequence := out.sequence, sent := g.sent ++ [out] } hopen hsequence
          (by omega)
        rw [receive_taken hopen (hg ▸ hout)]
        refine ⟨hlength.trans ?_, fun h => (htext h).trans ?_⟩
        · show k + 1 + es.length < _ ↔ k + (es.length + 1) < _
          omega
        · show ((g.sent ++ [out]).flatMap fun out => out.data.getD []) ++ _ = _
          rw [List.flatMap_append, List.flatMap_singleton, hdata, List.append_assoc]
          rfl

/-- The output of a shell that runs is preserved.  The gateway takes every frame and sends the
browser the text of the whole stream exactly when each read is a text by itself and there are
fewer than 2^53 frames. -/
theorem output_preserved (sessionId : String) (es : List Event)
    (hes : ∀ e ∈ es, e.isEnd = false) (h : Codec.Utf8.Valid (output es)) :
    ((relayed sessionId (written es)).closed = false ∧
      (relayed sessionId (written es)).text = Js.fromUtf8 (output es)) ↔
      es.length + 1 < 2 ^ 53 ∧ ∀ e ∈ es, Codec.Utf8.Valid e.output := by
  obtain ⟨hlength, htext⟩ := text_from es hes 1
    ⟨1, [attachedFrame sessionId], false⟩ rfl rfl (by decide)
  have hflatten : (es.map Event.output).flatten = output es := (List.flatMap_def ..).symm
  have hvalid : Codec.Utf8.Valid (es.map Event.output).flatten := hflatten ▸ h
  have hpieces := Codec.Utf8.decode_pieces_iff hvalid
  rw [← decode_output, List.forall_mem_map] at hpieces
  rw [relayed_written, Nat.add_comm, ← hlength, ← hpieces]
  refine and_congr_right fun hopen => ?_
  rw [htext hopen]
  rfl

/-! ## A syllable in two reads -/

namespace Demo

/-- The octets of U+AC00, in one read. -/
def syllable : Chunk := ⟨[0xEA, 0xB0, 0x80], by decide, by decide⟩

def opening : Chunk := ⟨[0xEA, 0xB0], by decide, by decide⟩

def closing : Chunk := ⟨[0x80], by decide, by decide⟩

end Demo

theorem output_preserved_syllable :
    (relayed "9" (written [.stdout Demo.syllable, .pinged])).closed = false ∧
      (relayed "9" (written [.stdout Demo.syllable, .pinged])).text =
        Js.fromUtf8 (output [.stdout Demo.syllable, .pinged]) := by
  have hvalid : Codec.Utf8.Valid Demo.syllable.bytes := ⟨[Char.ofNat 0xAC00], by decide⟩
  refine (output_preserved "9" [.stdout Demo.syllable, .pinged] (by simp [Event.isEnd]) ?_).mpr
    ⟨by decide, ?_⟩
  · exact hvalid
  · simp only [List.forall_mem_cons, Event.output]
    exact ⟨hvalid, ⟨[], rfl⟩, by simp⟩

/-- The stream is the text of one syllable, and the browser is shown two replacement
characters. -/
theorem syllable_cut :
    Codec.Utf8.Valid (output [.stdout Demo.opening, .stdout Demo.closing]) ∧
    (relayed "9" (written [.stdout Demo.opening, .stdout Demo.closing])).text ≠
      Js.fromUtf8 (output [.stdout Demo.opening, .stdout Demo.closing]) := by
  refine ⟨⟨[Char.ofNat 0xAC00], by decide⟩, ?_⟩
  intro h
  have hlength : ((relayed "9" (written [.stdout Demo.opening, .stdout Demo.closing])).text.length,
      (Js.fromUtf8 (output [.stdout Demo.opening, .stdout Demo.closing])).length) = (2, 1) := by
    decide
  rw [h] at hlength
  exact absurd (Prod.mk.inj hlength) (by omega)

end Pty
