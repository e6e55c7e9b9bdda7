import OpenSphere.Pty.Relay

/-!
# Frames towards the shell

What the gateway takes from a browser the agent and the PTY server take as well, as far
as a frame by itself is concerned: its sequence number, its encoding, its size and its
bounds.

The three count with the same limits, but each in windows of its own.  The gateway cuts
time where it was attached and where its messages arrive, the others where they were
started and where the frames arrive.  So what is within the limits of the gateway need
not be within theirs, and `client_admission` says when it is.
-/

open Sql
open Js (Datum points maxSafeInteger)
open System (Limiter Limits Spaced)

namespace Pty

/-! ## Single frames -/

def messageBytes (m : Js.Message) : Nat := ((m.bind stdinData).map List.length).getD 0

def isDetach (m : Js.Message) : Bool := m.any fun get => isType get "detach"

/-- A frame that the gateway made of a message with the sequence number `seq`. -/
structure Carries (m : Js.Message) (seq : Int) (f : Frame) : Prop where
  sequence : (f.sequence.toNat : Int) = seq + 1
  bytes : clientBytes f = some (messageBytes m)
  detach : f.type = "detach" ↔ isDetach m = true

section

variable {get : String → Datum} {seq : Int} {out : Outgoing} {bytes : Nat}

theorem member_nil (name : String) : Wire.member [] name = none := rfl

theorem member_wire (o : Outgoing) (name : String) : o.wire.member name =
    if name = "type" then some (.string o.type)
    else if name = "seq" then some (.integer o.seq)
    else if name = "data" then o.data.map .string
    else if name = "columns" then o.columns.map .integer
    else if name = "rows" then o.rows.map .integer
    else none := by
  obtain ⟨type, seq, data, columns, rows⟩ := o
  cases data <;> cases columns <;> cases rows <;>
    simp [Outgoing.wire, member_cons, member_nil] <;> grind

theorem readInteger_option {w : Wire} {name : String} {lo hi : Int} {x : Option Int}
    (h : w.member name = x.map .integer) (hx : ∀ n ∈ x, lo ≤ n ∧ n ≤ hi) :
    readInteger w name lo hi = some (x.getD 0) := by
  rw [readInteger, h]
  cases x with
  | none => rfl
  | some n => exact if_pos (hx n rfl)

theorem readText_option {w : Wire} {name : String} {x : Option String}
    (h : w.member name = x.map .string) : readText w name = some (x.getD "") := by
  rw [readText, h]
  cases x <;> rfl

theorem decode_wire {o : Outgoing} (hseq : 0 ≤ o.seq ∧ o.seq ≤ 2 ^ 64 - 1)
    (hcolumns : ∀ n ∈ o.columns, 0 ≤ n ∧ n ≤ 2 ^ 16 - 1)
    (hrows : ∀ n ∈ o.rows, 0 ≤ n ∧ n ≤ 2 ^ 16 - 1) :
    decode o.wire = some {
      type := o.type
      sequence := UInt64.ofNat o.seq.toNat
      data := o.data.getD ""
      columns := UInt16.ofNat (o.columns.getD 0).toNat
      rows := UInt16.ofNat (o.rows.getD 0).toNat } := by
  have htype : readText o.wire "type" = some o.type := by simp [readText, member_wire]
  have hsequence : readInteger o.wire "seq" 0 (2 ^ 64 - 1) = some o.seq := by
    have hmember : o.wire.member "seq" = some (.integer o.seq) := by simp [member_wire]
    rw [readInteger, hmember]
    exact if_pos hseq
  have habsent : ∀ name ∉ ["type", "seq", "data", "columns", "rows"],
      o.wire.member name = none := by
    intro name hname
    simp only [List.mem_cons, List.not_mem_nil, or_false, not_or] at hname
    simp [member_wire, hname]
  have hblank : ∀ name ∉ ["type", "seq", "data", "columns", "rows"],
      readText o.wire name = some "" := by
    intro name hname
    rw [readText, habsent name hname]
  have hzero : ∀ name ∉ ["type", "seq", "data", "columns", "rows"], ∀ lo hi,
      readInteger o.wire name lo hi = some 0 := by
    intro name hname lo hi
    rw [readInteger, habsent name hname]
  have hdata : readText o.wire "data" = some (o.data.getD "") :=
    readText_option (by simp [member_wire])
  have hcols : readInteger o.wire "columns" 0 (2 ^ 16 - 1) = some (o.columns.getD 0) :=
    readInteger_option (by simp [member_wire]) hcolumns
  have hrow : readInteger o.wire "rows" 0 (2 ^ 16 - 1) = some (o.rows.getD 0) :=
    readInteger_option (by simp [member_wire]) hrows
  simp only [decode, htype, hsequence, hdata, hcols, hrow,
    hblank "sessionId" (by decide), hblank "runtimeUid" (by decide),
    hzero "generation" (by decide), hzero "fencingEpoch" (by decide), hblank "ticket" (by decide),
    hblank "internalToken" (by decide), hblank "contextJws" (by decide),
    hblank "nonce" (by decide), hzero "code" (by decide), hblank "message" (by decide),
    Option.bind_eq_bind, Option.bind_some]
  rfl

theorem isType_other {a b : String} (h : isType get a = true) (hne : a ≠ b) :
    isType get b = false := by
  unfold isType at h ⊢
  rw [of_decide_eq_true h, decide_eq_false_iff_not]
  intro heq
  exact hne (Js.points_injective (Datum.string.inj heq))

theorem resizeTo_eq_some {cols rows : Int} (h : resizeTo get = some (cols, rows)) :
    isType get "resize" = true ∧ (2 ≤ cols ∧ cols ≤ 500) ∧ 2 ≤ rows ∧ rows ≤ 200 := by
  unfold resizeTo at h
  split at h
  next htype =>
    split at h
    next c r hc hr =>
      cases h
      simp only [integerWithin, Option.filter_eq_some_iff, decide_eq_true_eq] at hc hr
      exact ⟨htype, hc.2, hr.2⟩
    next => cases h
  next => cases h

/-- What the gateway makes of a message passes the checks of a frame by itself. -/
theorem browserOutput_carries (h : browserOutput get seq = .ok (out, bytes)) (hlo : 0 ≤ seq)
    (hhi : seq < 2 ^ 53) :
    out.seq = seq ∧ bytes = messageBytes (some get) ∧
      ∃ f, decode { out with seq := out.seq + 1 }.wire = some f ∧ Carries (some get) seq f := by
  have hsent : (0 : Int) ≤ seq + 1 ∧ seq + 1 ≤ 2 ^ 64 - 1 := ⟨by omega, by omega⟩
  have hsequence : ((UInt64.ofNat (seq + 1).toNat).toNat : Int) = seq + 1 := by
    rw [UInt64.toNat_ofNat']
    omega
  unfold browserOutput at h
  cases hstdin : stdinData get with
  | some bs =>
      simp only [hstdin, Except.ok.injEq, Prod.mk.injEq] at h
      obtain ⟨rfl, rfl⟩ := h
      have hbytes : messageBytes (some get) = bs.length := by simp [messageBytes, hstdin]
      have htype : isType get "stdin" = true := by
        by_contra hno
        simp [stdinData, hno] at hstdin
      have hbound : bs.length ≤ 8192 := by
        simp only [stdinData, htype, if_true, Option.filter_eq_some_iff, decide_eq_true_eq] at hstdin
        exact hstdin.2
      refine ⟨rfl, hbytes.symm, _, decode_wire hsent (by simp) (by simp), hsequence, ?_, ?_⟩
      · rw [hbytes, Codec.Base64.stripPadding_encode]
        simp [clientBytes, Codec.Base64.decodeRaw_encodeRaw]
        omega
      · simp [isDetach, isType_other htype (by decide : "stdin" ≠ "detach")]
  | none =>
      simp only [hstdin] at h
      have hbytes : messageBytes (some get) = 0 := by simp [messageBytes, hstdin]
      cases hresize : resizeTo get with
      | some size =>
          obtain ⟨cols, rows⟩ := size
          simp only [hresize, Except.ok.injEq, Prod.mk.injEq] at h
          obtain ⟨rfl, rfl⟩ := h
          obtain ⟨htype, hcols, hrows⟩ := resizeTo_eq_some hresize
          have hcolumn : (UInt16.ofNat cols.toNat).toNat = cols.toNat := by
            rw [UInt16.toNat_ofNat']
            omega
          have hrow : (UInt16.ofNat rows.toNat).toNat = rows.toNat := by
            rw [UInt16.toNat_ofNat']
            omega
          refine ⟨rfl, hbytes.symm, _, decode_wire hsent (by simp; omega) (by simp; omega), hsequence,
            ?_, ?_⟩
          · rw [hbytes]
            simp only [clientBytes, Option.getD_some, Option.getD_none, UInt16.lt_iff_toNat_lt,
              hcolumn, hrow]
            simp
            omega
          · simp [isDetach, isType_other htype (by decide : "resize" ≠ "detach")]
      | none =>
          simp only [hresize] at h
          split at h
          next hping =>
            cases h
            refine ⟨rfl, hbytes.symm, _, decode_wire hsent (by simp) (by simp), hsequence, ?_, ?_⟩
            · rw [hbytes]
              simp [clientBytes]
            · simp [isDetach, isType_other hping (by decide : "ping" ≠ "detach")]
          next =>
            split at h
            next hdetach =>
              cases h
              refine ⟨rfl, hbytes.symm, _, decode_wire hsent (by simp) (by simp), hsequence, ?_, ?_⟩
              · rw [hbytes]
                simp [clientBytes]
              · simp [isDetach, hdetach]
            next => cases h

theorem browserFrame_carries {m : Js.Message} {previous now : Int} {rate rate' : Limiter}
    (h : browserFrame m previous now rate = .ok (out, rate')) (hlo : 0 ≤ previous) :
    ∃ seq, previous < seq ∧ out.seq = seq ∧
      ∃ f, decode { out with seq := out.seq + 1 }.wire = some f ∧ Carries m seq f := by
  unfold browserFrame at h
  cases m with
  | none => cases h
  | some get =>
      dsimp only at h
      cases hseq : (get "sequence").safeInteger.filter fun n => decide (previous < n) with
      | none =>
          rw [hseq] at h
          cases h
      | some seq =>
          simp only [hseq] at h
          rw [Option.filter_eq_some_iff, decide_eq_true_eq] at hseq
          obtain ⟨hsafe, hlt⟩ := hseq
          rw [Datum.safeInteger, Option.filter_eq_some_iff, decide_eq_true_eq] at hsafe
          have hhi : seq < 2 ^ 53 := by
            have hmax := hsafe.2.2
            unfold maxSafeInteger at hmax
            omega
          cases houtput : browserOutput get seq with
          | error e =>
              rw [houtput] at h
              cases h
          | ok result =>
              obtain ⟨out', bytes⟩ := result
              obtain ⟨hsame, -, hframe⟩ := browserOutput_carries houtput (by omega) hhi
              rw [houtput] at h
              obtain rfl : out' = out := by
                have hok := h
                dsimp only [bind, Except.bind] at hok
                split at hok
                · exact (Prod.mk.inj (Except.ok.inj hok)).1
                · cases hok
              exact ⟨seq, hlt, hsame, hframe⟩

end

/-! ## Whole attachments -/

/-- The frames the gateway made of some messages, with growing sequence numbers. -/
inductive Follows : Int → List Arrival → List Frame → Prop where
  | nil {previous : Int} : Follows previous [] []
  | cons {previous seq : Int} {a : Arrival} {as : List Arrival} {f : Frame} {fs : List Frame} :
      previous < seq → Carries a.message seq f → Follows seq as fs →
      Follows previous (a :: as) (f :: fs)

/-- What a limiter has to admit: the octets that arrive, up to the message that ends the
attachment. -/
def counted (time : Arrival → Int) : List Arrival → List (Int × Nat)
  | [] => []
  | a :: as => (time a, messageBytes a.message) ::
      if isDetach a.message then [] else counted time as

def attended : List Frame → List Frame
  | [] => []
  | f :: fs => f :: if f.type = "detach" then [] else attended fs

theorem forwards_follows {as : List Arrival} {previous : Int} {rate : Limiter} {ws : List Wire}
    (h : forwards as previous rate = some ws) (hlo : 0 ≤ previous) :
    ∃ fs, ws.mapM decode = some fs ∧ Follows previous as fs := by
  induction as generalizing previous rate ws with
  | nil =>
      cases h
      exact ⟨[], rfl, .nil⟩
  | cons a as ih =>
      rw [forwards] at h
      cases hframe : browserFrame a.message previous a.gateway rate with
      | error e =>
          rw [hframe] at h
          cases h
      | ok result =>
          obtain ⟨out, rate'⟩ := result
          rw [hframe] at h
          obtain ⟨ws', hws', rfl⟩ := Option.map_eq_some_iff.mp h
          obtain ⟨seq, hprevious, hseq, f, hdecode, hcarries⟩ := browserFrame_carries hframe hlo
          subst hseq
          obtain ⟨fs, hfs, hfollows⟩ := ih hws' (by omega)
          refine ⟨f :: fs, ?_, .cons hprevious hcarries hfollows⟩
          rw [List.mapM_cons, hdecode, hfs]
          rfl

/-- A frame that follows is admitted exactly when it leaves the limiter within its limits. -/
theorem Carries.validClientFrame_eq {m : Js.Message} {seq seq' : Int} {f : Frame}
    (h : Carries m seq f) {previous : UInt64} (hprevious : (previous.toNat : Int) = seq' + 1)
    (hlt : seq' < seq) (now : Int) (limiter : Limiter) :
    validClientFrame f previous now limiter =
      if (limiter.next frameLimits now (messageBytes m)).within frameLimits then
        some (limiter.next frameLimits now (messageBytes m))
      else none := by
  have hsequence := h.sequence
  have hfresh : ¬f.sequence ≤ previous := by
    rw [UInt64.le_iff_toNat_le]
    omega
  rw [validClientFrame, if_neg hfresh, h.bytes]

/-- A loop lets every frame through exactly when its limiter does, and then it lets the frames
up to the end of the attachment through. -/
theorem admitted_iff {as : List Arrival} {fs : List Frame} {seq : Int} (h : Follows seq as fs)
    (time : Arrival → Int) {previous : UInt64} (hprevious : (previous.toNat : Int) = seq + 1)
    (limiter : Limiter) :
    (admitted ((as.map time).zip fs) previous limiter).2 =
        limiter.admits frameLimits (counted time as) ∧
      ((admitted ((as.map time).zip fs) previous limiter).2 = true →
        (admitted ((as.map time).zip fs) previous limiter).1 = attended fs) := by
  induction h generalizing previous limiter with
  | nil => exact ⟨rfl, fun _ => rfl⟩
  | @cons previous' seq a as f fs hlt hcarries hfollows ih =>
      obtain ⟨hrest, hlets⟩ :=
        ih hcarries.sequence (limiter.next frameLimits (time a) (messageBytes a.message))
      rw [List.map_cons, List.zip_cons_cons, admitted,
        hcarries.validClientFrame_eq hprevious hlt, counted, Limiter.admits, attended]
      cases hwithin :
          (limiter.next frameLimits (time a) (messageBytes a.message)).within frameLimits with
      | false => exact ⟨by simp, fun h => absurd h (by simp)⟩
      | true =>
          by_cases hdetach : f.type = "detach"
          · simp [hdetach, hcarries.detach.mp hdetach, Limiter.admits]
          · have hstays : isDetach a.message = false :=
              Bool.eq_false_iff.mpr fun h => hdetach (hcarries.detach.mpr h)
            simp only [hstays, if_true, if_neg hdetach, Bool.true_and]
            exact ⟨hrest, fun h => congrArg (f :: ·) (hlets h)⟩

/-- What a loop lets through no later loop takes further. -/
theorem admitted_attended (times : List Int) (fs : List Frame) (previous : UInt64)
    (limiter : Limiter) :
    admitted (times.zip (attended fs)) previous limiter =
      admitted (times.zip fs) previous limiter := by
  induction times generalizing fs previous limiter with
  | nil => rfl
  | cons now times ih =>
      cases fs with
      | nil => rfl
      | cons f fs =>
          rw [attended, List.zip_cons_cons, List.zip_cons_cons, admitted, admitted]
          split
          next => rfl
          next limiter' _ =>
            by_cases hdetach : f.type = "detach"
            · rw [if_pos hdetach, if_pos hdetach]
            · rw [if_neg hdetach, if_neg hdetach, if_neg hdetach, ih]

/-- What the agent writes the PTY server reads. -/
theorem mapM_decode_encode (fs : List Frame) : (fs.map Frame.encode).mapM decode = some fs := by
  induction fs with
  | nil => rfl
  | cons f fs ih =>
      rw [List.map_cons, List.mapM_cons, decode_encode, ih]
      rfl

/-- The frames of an attachment whose messages the gateway takes all get through to the shell
exactly when the windows of the agent and of the PTY server are within the limits. -/
theorem client_admission (gatewayStart agentStart ptyStart : Int) (as : List Arrival)
    (ws : List Wire) (h : forwards as 0 (.new gatewayStart) = some ws) :
    delivered agentStart ptyStart as ws = true ↔
      Spaced frameLimits agentStart (counted Arrival.agent as) ∧
        Spaced frameLimits ptyStart (counted Arrival.pty as) := by
  obtain ⟨fs, hdecode, hfollows⟩ := forwards_follows h (Int.le_refl 0)
  have hone : ((1 : UInt64).toNat : Int) = 0 + 1 := rfl
  obtain ⟨hagent, hlets⟩ := admitted_iff hfollows Arrival.agent hone (.new agentStart)
  obtain ⟨hpty, -⟩ := admitted_iff hfollows Arrival.pty hone (.new ptyStart)
  rw [← System.admits_iff, ← System.admits_iff, ← hagent, ← hpty]
  simp only [delivered, hdecode]
  rw [Bool.and_eq_true]
  refine and_congr_right fun hadmits => ?_
  rw [hlets hadmits, mapM_decode_encode]
  dsimp only
  rw [admitted_attended]

/-- A `ping` of the browser. -/
def Demo.ping (seq : Int) : Js.Message := some fun name =>
  if name = "type" then .string (points "ping")
  else if name = "sequence" then .number (some seq)
  else .undefined

/-- Pings that reach the three at the same time, which is in milliseconds. -/
def Demo.pings (first : Int) (count : Nat) (time : Int) : List Arrival :=
  (List.range count).map fun i => ⟨Demo.ping (first + i), time, time * 1000000, time * 1000000⟩

theorem Demo.pings_delivered : ∃ ws, forwards (Demo.pings 1 2 1500) 0 (.new 0) = some ws ∧
    delivered 500000000 700000000 (Demo.pings 1 2 1500) ws = true ∧
      Spaced frameLimits 500000000 (counted Arrival.agent (Demo.pings 1 2 1500)) ∧
        Spaced frameLimits 700000000 (counted Arrival.pty (Demo.pings 1 2 1500)) := by
  have hboth : ((forwards (Demo.pings 1 2 1500) 0 (.new 0)).any fun ws =>
      delivered 500000000 700000000 (Demo.pings 1 2 1500) ws) = true := by
    decide
  obtain ⟨ws, hws, hdelivered⟩ := (Option.any_eq_true _ _).mp hboth
  exact ⟨ws, hws, hdelivered, (client_admission 0 500000000 700000000 _ ws hws).mp hdelivered⟩

/-- Sixty pings at the end of a window of the gateway and sixty at the start of the next.  They
are within the limits there, and all in one window of an agent that was started half a second
later. -/
theorem burst_refused : ∃ ws,
    forwards (Demo.pings 1 60 999 ++ Demo.pings 61 60 1000) 0 (.new 0) = some ws ∧
      delivered 500000000 500000000 (Demo.pings 1 60 999 ++ Demo.pings 61 60 1000) ws = false := by
  have hboth : ((forwards (Demo.pings 1 60 999 ++ Demo.pings 61 60 1000) 0 (.new 0)).any fun ws =>
      !delivered 500000000 500000000 (Demo.pings 1 60 999 ++ Demo.pings 61 60 1000) ws) = true := by
    decide +kernel
  obtain ⟨ws, hws, hrefused⟩ := (Option.any_eq_true _ _).mp hboth
  exact ⟨ws, hws, by simpa using hrefused⟩

end Pty
