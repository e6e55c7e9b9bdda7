import OpenSphere.Js.Split
import OpenSphere.Js.Utf16

/-!
# Mail

`smtpSend` talks to a mail server one step after the other.  What the server sends arrives in chunks, and
`smtpReader` gives the last line of a reply to the step that waits for one.  The connection may fail, or
the server may end it.

The message is sent with a second dot before every dot that begins a line.  `receive` is what a server
makes of it.
-/

open Sql (chars digit)
open Js (CodeUnit Utf16 leading trailing literal)

namespace Notification.Smtp

/-! ## Replies -/

/-- What `smtpSend` waits for. -/
inductive Await where
  | reply (accepted : List Nat)
  /-- `secureConnect`. -/
  | secure
deriving DecidableEq

/-- The configuration of a channel.  Its addresses are on one line. -/
structure SmtpConfig where
  secure : Bool
  starttls : Bool
  sender : Utf16
  recipients : List Utf16
  titlePrefix : Utf16
  sender_line : (10 : CodeUnit) ∉ sender
  recipients_line : ∀ r ∈ recipients, (10 : CodeUnit) ∉ r

/-- What `smtpSend` waits for, in order: a greeting, and the reply to each command. -/
def SmtpConfig.steps (c : SmtpConfig) : List Await :=
  [Await.reply [220], .reply [250]] ++
  (if !c.secure && c.starttls then [Await.reply [220], .secure, .reply [250]] else []) ++
  [Await.reply [235], .reply [250]] ++ c.recipients.map (fun _ => Await.reply [250, 251]) ++
  [Await.reply [354], .reply [250]]

/-- What `smtpSend` returns. -/
inductive Sent where
  | accepted
  /-- `smtp-${code}`, permanent from 500 on. -/
  | refused (code : Nat)
  /-- `smtp-error`. -/
  | failed
deriving DecidableEq, Repr

structure Session where
  buffered : List Char
  awaits : List Await
  result : Option Sent
deriving DecidableEq

inductive Event where
  | data (chunk : List Char)
  | error
  /-- The server ends the connection. -/
  | ended
  | secureConnect
deriving DecidableEq

def crlf : Js.Separator
  | '\r' :: '\n' :: cs => some cs
  | _ => none

/-- `/^\d{3} /`, and the number. -/
def replyCode : List Char → Option Nat
  | a :: b :: c :: ' ' :: _ =>
      if digit a && digit b && digit c then
        some (100 * (a.toNat - 48) + 10 * (b.toNat - 48) + (c.toNat - 48))
      else none
  | _ => none

def Session.reply (s : Session) (accepted : List Nat) (rest : List Await) (code : Nat) : Session :=
  if accepted.contains code then
    { s with awaits := rest, result := if rest = [] then some .accepted else none }
  else { s with result := some (.refused code) }

/-- The first reply of a chunk is taken.  Nothing waits for another one yet. -/
def Session.data (s : Session) (accepted : List Nat) (rest : List Await) (chunk : List Char) : Session :=
  let lines := Js.split crlf (s.buffered ++ chunk)
  let s := { s with buffered := lines.getLast?.getD [] }
  match lines.dropLast.findSome? replyCode with
  | some code => s.reply accepted rest code
  | none => s

def Session.on (s : Session) (e : Event) : Session :=
  if s.result.isSome then s
  else
    match e, s.awaits with
    | .data chunk, .reply accepted :: rest => s.data accepted rest chunk
    | .error, _ => { s with result := some .failed }
    -- a handshake that is cut off is an error of its socket
    | .ended, .secure :: _ => { s with result := some .failed }
    | .secureConnect, .secure :: rest => { s with awaits := rest, buffered := [] }
    | _, _ => s

/-- `smtpSend` on a connection, after some events. -/
def smtpSend (c : SmtpConfig) (es : List Event) : Session := es.foldl Session.on ⟨[], c.steps, none⟩

/-! ## The message -/

structure MailEvent where
  title : Utf16
  severity : Utf16
  source : Utf16
  body : Utf16
  route : Utf16

/-- `${config.titlePrefix ? `[${config.titlePrefix}] ` : ''}${event.title}`. -/
def SmtpConfig.heading (c : SmtpConfig) (e : MailEvent) : Utf16 :=
  (if c.titlePrefix = [] then [] else literal "[" ++ c.titlePrefix ++ literal "] ") ++ e.title

/-- `x || fallback`. -/
def orElse (x : Utf16) (fallback : String) : Utf16 := if x = [] then literal fallback else x

/-- `toUpperCase` of the severities that there are. -/
def upperCase (t : Utf16) : Utf16 := t.map fun u => if 97 ≤ u ∧ u ≤ 122 then u - 32 else u

def messageFor (c : SmtpConfig) (e : MailEvent) : Utf16 :=
  let lines := [c.heading e, literal "Severity: " ++ upperCase (orElse e.severity "info"),
    literal "Source: " ++ orElse e.source "Console"] ++ [e.body, e.route].filter (· ≠ [])
  (List.intercalate [10] lines).take 3500

def SmtpConfig.head (c : SmtpConfig) (e : MailEvent) : List Utf16 :=
  [literal "From: <" ++ c.sender ++ literal ">",
    literal "To: " ++ List.intercalate (literal ", ") c.recipients,
    literal "Subject: " ++ (c.heading e).map fun u => if u = 10 ∨ u = 13 then 32 else u,
    literal "MIME-Version: 1.0", literal "Content-Type: text/plain; charset=UTF-8", []]

def lineTerminator (u : CodeUnit) : Bool := [10, 13, 8232, 8233].contains u

/-- `replace(/^\./gm, '..')`, at the beginning of a line or not. -/
def stuff : Bool → Utf16 → Utf16
  | _, [] => []
  | first, u :: us =>
      if first && u = 46 then 46 :: 46 :: stuff false us else u :: stuff (lineTerminator u) us

def withEnds (lines : List Utf16) : Utf16 := lines.flatMap (· ++ [13, 10])

/-- What is written after `DATA`. -/
def SmtpConfig.written (c : SmtpConfig) (e : MailEvent) : Utf16 :=
  withEnds (c.head e) ++ (stuff true (messageFor c e) ++ [13, 10, 46, 13, 10])

/-- A unit as octets, after the first half of a pair or not.  Half a pair is replaced. -/
def replaced (paired : Bool) (u : CodeUnit) (next : Option CodeUnit) : CodeUnit :=
  if (leading u ∧ next.all (fun v => !trailing v)) ∨ (trailing u ∧ paired = false) then 65533 else u

def encoded : Bool → Utf16 → Utf16
  | _, [] => []
  | paired, u :: us => replaced paired u us.head? :: encoded (leading u) us

/-! ## A server -/

inductive Place where
  | start
  | cr
  | middle
deriving DecidableEq

def Place.next (p : Place) (u : CodeUnit) : Place :=
  if u = 13 then .cr else if u = 10 ∧ p = .cr then .start else .middle

/-- The text up to the line with a dot alone.  A dot that begins another line is removed. -/
def receive : Place → Utf16 → Option Utf16
  | _, [] => none
  | p, u :: us =>
      if p = .start ∧ u = 46 then
        if us.take 2 = [13, 10] then some [] else receive .middle us
      else (receive (p.next u) us).map (u :: ·)

end Notification.Smtp
