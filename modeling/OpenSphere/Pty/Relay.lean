import OpenSphere.Pty.Frame
import OpenSphere.System.Window

/-!
# The relay between a browser and a shell

The browser talks to the gateway, the gateway to the agent in the Pod and the agent to
the PTY server, which runs the shell.  `browserFrame` and `runtimeFrame` are the two
checks of the gateway, and `validClientFrame` is the one check that the agent and the
PTY server both make of what comes from the browser.

Each of the three has a limiter of its own.  The agent and the PTY server give every
frame towards the browser a new sequence number, and towards the shell they keep the
one it has.
-/

open Sql
open System (Limiter Limits)

namespace Pty

/-! ## The gateway, towards the shell -/

/-- `value.type === name`. -/
def isType (get : String → Js.Datum) (name : String) : Bool :=
  decide (get "type" = .string (Js.points name))

/-- `rate.frames > 60 || rate.bytes > 64 << 10` in windows of 1000 ms. -/
def browserLimits : Limits where
  width := 1000
  count := 60
  weight := 65536

structure Outgoing where
  type : String
  seq : Int
  data : Option String
  columns : Option Int
  rows : Option Int

/-- `JSON.stringify(out)`. -/
def Outgoing.wire (o : Outgoing) : Wire :=
  [("type", .string o.type), ("seq", .integer o.seq)] ++
    (o.data.map fun t => ("data", Scalar.string t)).toList ++
    (o.columns.map fun n => ("columns", Scalar.integer n)).toList ++
    (o.rows.map fun n => ("rows", Scalar.integer n)).toList

/-- `value.type === 'stdin' && typeof value.data === 'string' &&
Buffer.byteLength(value.data) <= 8192`, with the octets. -/
def stdinData (get : String → Js.Datum) : Option (List UInt8) :=
  if isType get "stdin" then
    ((get "data").text.map Js.utf8).filter fun bs => decide (bs.length ≤ 8192)
  else none

/-- `Number.isInteger(x) && x >= lo && x <= hi`, with the value. -/
def integerWithin (x : Js.Datum) (lo hi : Int) : Option Int :=
  x.integer.filter fun n => decide (lo ≤ n ∧ n ≤ hi)

/-- `value.type === 'resize'` with columns and rows within their bounds. -/
def resizeTo (get : String → Js.Datum) : Option (Int × Int) :=
  if isType get "resize" then
    match integerWithin (get "cols") 2 500, integerWithin (get "rows") 2 200 with
    | some cols, some rows => some (cols, rows)
    | _, _ => none
  else none

/-- What `browserFrame` makes of a message, and the octets it counts. -/
def browserOutput (get : String → Js.Datum) (seq : Int) : Except String (Outgoing × Nat) :=
  match stdinData get with
  | some bs =>
      .ok (⟨"stdin", seq,
        some (String.ofList (Codec.Base64.stripPadding (Codec.Base64.encode bs))), none, none⟩,
        bs.length)
  | none =>
      match resizeTo get with
      | some (cols, rows) => .ok (⟨"resize", seq, none, some cols, some rows⟩, 0)
      | none =>
          if isType get "ping" then .ok (⟨"ping", seq, none, none, none⟩, 0)
          else if isType get "detach" then .ok (⟨"detach", seq, none, none, none⟩, 0)
          else .error "browser frame contract rejected"

/-- `browserFrame(value, previous, rate)`, with the rate it leaves. -/
def browserFrame (value : Js.Message) (previous now : Int) (rate : Limiter) :
    Except String (Outgoing × Limiter) :=
  match value with
  | none => .error "non-monotonic browser frame"
  | some get =>
      match (get "sequence").safeInteger.filter fun n => decide (previous < n) with
      | none => .error "non-monotonic browser frame"
      | some seq => do
          let (output, bytes) ← browserOutput get seq
          let rate := rate.next browserLimits now bytes
          if rate.within browserLimits then .ok (output, rate)
          else .error "browser frame rate exceeded"

/-! ## The agent and the PTY server, towards the shell -/

/-- `limiter.frames > 60 || limiter.bytes > maxPTYBytesPerSec` in windows of a second. -/
def frameLimits : Limits where
  width := 1000000000
  count := 60
  weight := 65536

/-- What `validClientFrame` counts of a frame it does not refuse for what is in it. -/
def clientBytes (f : Frame) : Option Nat :=
  if f.type = "stdin" then
    match Codec.Base64.decodeRaw (chars f.data) with
    | some decoded =>
        if 65536 < decoded.length ∨ f.columns ≠ 0 ∨ f.rows ≠ 0 then none else some decoded.length
    | none => none
  else if f.type = "resize" then
    if f.data ≠ "" ∨ f.columns < 2 ∨ 500 < f.columns ∨ f.rows < 2 ∨ 300 < f.rows then none
    else some 0
  else if f.type = "ping" ∨ f.type = "detach" then
    if f.data ≠ "" ∨ f.columns ≠ 0 ∨ f.rows ≠ 0 then none else some 0
  else none

/-- `validClientFrame(frame, previous, limiter)`, with the limiter it leaves where it is true. -/
def validClientFrame (f : Frame) (previous : UInt64) (now : Int) (limiter : Limiter) :
    Option Limiter :=
  if f.sequence ≤ previous then none
  else
    match clientBytes f with
    | none => none
    | some bytes =>
        let limiter := limiter.next frameLimits now bytes
        if limiter.within frameLimits then some limiter else none

/-- The loop of the agent or of the PTY server over the frames that come from the browser:
those it lets through, and whether it refuses one.  It ends with a `detach`. -/
def admitted : List (Int × Frame) → (previous : UInt64) → Limiter → List Frame × Bool
  | [], _, _ => ([], true)
  | (now, f) :: rest, previous, limiter =>
      match validClientFrame f previous now limiter with
      | none => ([], false)
      | some limiter =>
          if f.type = "detach" then ([f], true)
          else
            (f :: (admitted rest f.sequence limiter).1, (admitted rest f.sequence limiter).2)

/-! ## The runtime, towards the browser -/

inductive Ended where
  | success
  /-- It exits with a status that is not zero. -/
  | exited (status : UInt8) (nonzero : status ≠ 0)
  | signaled
  /-- `command.Wait` fails for another reason. -/
  | failed

def Ended.code : Ended → Int64
  | .success => 0
  | .exited status _ => Int64.ofInt status.toNat
  | .signaled => -1
  | .failed => 1

/-- What `terminal.Read(buffer)` returns with `count > 0`. -/
structure Chunk where
  bytes : List UInt8
  nonempty : bytes ≠ []
  bounded : bytes.length ≤ 32768

/-- What puts a frame into the channel of the agent, in the order of the channel. -/
inductive Event where
  /-- The PTY server reads some output, fails to, answers a ping, or sees the shell end. -/
  | stdout (chunk : Chunk)
  | unreadable
  | pinged
  | exited (how : Ended)
  /-- The agent refuses a frame of the browser, or its authorisation is revoked. -/
  | refused
  | revoked

/-- The frame of an event, before it is given a sequence number. -/
def Event.frame : Event → Frame
  | .stdout c => {
      type := "stdout", sequence := 0, data := String.ofList (Codec.Base64.encodeRaw c.bytes) }
  | .unreadable => { type := "error", sequence := 0, message := "PTY output failed" }
  | .pinged => { type := "pong", sequence := 0 }
  | .exited how => { type := "exit", sequence := 0, code := how.code }
  | .refused => { type := "error", sequence := 0, message := "invalid or excessive PTY frame" }
  | .revoked => { type := "revoked", sequence := 0, message := "runtime authorization revoked" }

/-- The PTY server sends the frame, and the agent forwards it. -/
def Event.forwarded : Event → Bool
  | .refused => false
  | .revoked => false
  | _ => true

/-- The frames in the channel of the agent.  The PTY server gives each of its frames the next
sequence number and writes it, and the agent reads it; it gives up where it cannot. -/
def channel : UInt64 → List Event → List Frame
  | _, [] => []
  | sequence, e :: es =>
      if e.forwarded then
        match decode { e.frame with sequence := sequence + 1 }.encode with
        | some f => f :: channel (sequence + 1) es
        | none => []
      else e.frame :: channel sequence es

/-- `sequenceOutboundFrame`, of one frame after the other. -/
def sequenceOutbound : UInt64 → List Frame → List Frame
  | _, [] => []
  | sequence, f :: fs => { f with sequence := sequence + 1 } :: sequenceOutbound (sequence + 1) fs

/-- What the runtime writes to the gateway once `attach` is authorised. -/
def written (es : List Event) : List Wire :=
  (sequenceOutbound 0 ({ type := "attached", sequence := 1 } :: channel 1 es)).map Frame.encode

/-! ## The gateway, towards the browser -/

structure BrowserFrame where
  type : Js.Datum
  sequence : Int
  sessionId : Option String
  data : Option (List Js.Point)
  code : Option Js.Datum
  message : Option (List Js.Point)

/-- `(value.type === 'stdout' || value.type === 'stderr') && typeof value.data === 'string'`,
with the text. -/
def outputData (get : String → Js.Datum) : Option (List Js.Point) :=
  if isType get "stdout" || isType get "stderr" then (get "data").text else none

/-- `value.type === 'exit' && Number.isInteger(value.code)`, with the code. -/
def exitCode (get : String → Js.Datum) : Option Int :=
  if isType get "exit" then (get "code").integer else none

/-- `(value.type === 'error' || value.type === 'revoked') && typeof value.message === 'string'
&& value.message.length <= 1024`, with the text. -/
def noticeMessage (get : String → Js.Datum) : Option (List Js.Point) :=
  if isType get "error" || isType get "revoked" then
    (get "message").text.filter fun t => decide (Js.pointsLength t ≤ 1024)
  else none

/-- `typeof value.code === 'string' && value.code.length <= 128 ? value.code
: 'RuntimeRejected'`. -/
def noticeCode (get : String → Js.Datum) : Js.Datum :=
  match (get "code").text.filter fun t => decide (Js.pointsLength t ≤ 128) with
  | some t => .string t
  | none => .string (Js.points "RuntimeRejected")

def runtimeFrame (value : Js.Message) (previous : Int) (sessionId : String) :
    Except String BrowserFrame :=
  match value with
  | none => .error "non-monotonic runtime frame"
  | some get =>
      match (get "seq").safeInteger.filter fun n => decide (previous < n) with
      | none => .error "non-monotonic runtime frame"
      | some seq =>
          let output : BrowserFrame := ⟨get "type", seq, none, none, none, none⟩
          if isType get "attached" then .ok { output with sessionId := some sessionId }
          else
            match outputData get, exitCode get, noticeMessage get with
            | some data, _, _ =>
                if 65536 < (Js.fromBase64 data).length then .error "runtime output too large"
                else .ok { output with data := some (Js.fromUtf8 (Js.fromBase64 data)) }
            | none, some code, _ => .ok { output with code := some (.number (some code)) }
            | none, none, message =>
                if isType get "pong" then .ok output
                else
                  match message with
                  | some t => .ok { output with code := some (noticeCode get), message := some t }
                  | none => .error "runtime frame contract rejected"

structure Gateway where
  runtimeSequence : Int
  sent : List BrowserFrame
  /-- It has closed the connection with `FrameContractInvalid`. -/
  closed : Bool

def Gateway.receive (sessionId : String) (g : Gateway) (w : Wire) : Gateway :=
  if g.closed then g
  else
    match runtimeFrame (parse w) g.runtimeSequence sessionId with
    | .ok out => { g with runtimeSequence := out.sequence, sent := g.sent ++ [out] }
    | .error _ => { g with closed := true }

def relayed (sessionId : String) (ws : List Wire) : Gateway :=
  ws.foldl (Gateway.receive sessionId) ⟨0, [], false⟩

/-! ## From the browser to the shell -/

/-- A message of the browser, and when it and what becomes of it reach the three. -/
structure Arrival where
  message : Js.Message
  /-- `Date.now()` in the gateway, in milliseconds. -/
  gateway : Int
  /-- `now()` in the agent and in the PTY server, in nanoseconds. -/
  agent : Int
  pty : Int

/-- What the gateway sends to the runtime if it takes every message. -/
def forwards : List Arrival → (browserSequence : Int) → Limiter → Option (List Wire)
  | [], _, _ => some []
  | a :: rest, browserSequence, rate =>
      match browserFrame a.message browserSequence a.gateway rate with
      | .ok (out, rate) =>
          (forwards rest out.seq rate).map ({ out with seq := out.seq + 1 }.wire :: ·)
      | .error _ => none

/-- Neither the agent nor the PTY server refuses a frame that reaches it.  The agent reads what
the gateway sends and writes what it lets through to the PTY server. -/
def delivered (agentStart ptyStart : Int) (as : List Arrival) (ws : List Wire) : Bool :=
  match ws.mapM decode with
  | none => false
  | some frames =>
      let agent := admitted ((as.map Arrival.agent).zip frames) 1 (.new agentStart)
      agent.2 &&
        match (agent.1.map Frame.encode).mapM decode with
        | none => false
        | some frames => (admitted ((as.map Arrival.pty).zip frames) 1 (.new ptyStart)).2

end Pty
