import OpenSphere.Registry.Broker

/-!
# Replicas of the broker

The Secrets, what is on its way to them, and how they answer.  The world also holds a record
of what has happened: the states that were stored, the pull Secrets that were written, and the
refresh tokens that the provider was given.
-/

open System (Program)

namespace Registry

inductive Put where
  | state (version : Nat) (state : State)
  | pull (ns : String) (secret : PullSecret)

structure World where
  auth : Snapshot
  pulls : String → Option PullSecret
  /-- The last resource version that was given. -/
  revision : Nat
  /-- Writes that were given up and may still arrive. -/
  flight : List Put
  /-- The states that were stored, the last one first. -/
  history : List State
  /-- The namespaces whose pull Secret was written, with the generation, the last one first. -/
  writes : List (String × String)
  /-- The credentials that `provider.refresh` was called with, the last ones first. -/
  presented : List Credentials

def World.handoff (state : State) (pulls : String → Option PullSecret) : World where
  auth := ⟨0, state⟩
  pulls ns := (pulls ns).map fun p => { p with version := 0 }
  revision := 0
  flight := []
  history := [state]
  writes := []
  presented := []

/-- A write is accepted where the resource version is the stored one. -/
def Put.accepted (w : World) : Put → Bool
  | .state version _ => w.auth.version == version
  | .pull ns secret => (w.pulls ns).any (·.version == secret.version)

def World.store (w : World) : Put → World
  | .state _ state => { w with
      auth := ⟨w.revision + 1, state⟩
      revision := w.revision + 1
      history := state :: w.history }
  | .pull ns secret => { w with
      pulls := Function.update w.pulls ns (some { secret with version := w.revision + 1 })
      revision := w.revision + 1
      writes := (ns, secret.generation.getD "") :: w.writes }

/-- The world after a write that reached Kubernetes. -/
def World.receive (w : World) (p : Put) : World := if p.accepted w then w.store p else w

inductive Fate where
  | answered
  /-- The request does not arrive. -/
  | down
  /-- The answer does not arrive. -/
  | lost
  /-- The request is given up and arrives later. -/
  | late

structure Stamp where
  fate : Fate
  clock : Int
  id : String
  images : Except Failure (List String)
  authority : Except Failure Unit
  audit : Except Failure Unit
  replies : Replies
  verified : Except Failure Unit

/-- How Kubernetes answers a read. -/
def Stamp.get {α : Type} (e : Stamp) (x : α) : Except Failure α :=
  match e.fate with
  | .answered => .ok x
  | _ => .error (storeFault "CredentialAuthorityUnavailable")

/-- How Kubernetes answers a write. -/
def Stamp.put {α : Type} (e : Stamp) (w : World) (p : Put) (result : World → α) :
    Except Failure α × World :=
  match e.fate with
  | .answered =>
      if p.accepted w then (.ok (result (w.store p)), w.store p)
      else (.error (storeFault "CredentialConflict"), w)
  | .down => (.error (storeFault "CredentialAuthorityUnavailable"), w)
  | .lost => (.error (storeFault "CredentialAuthorityUnavailable"), w.receive p)
  | .late => (.error (storeFault "CredentialAuthorityUnavailable"),
      { w with flight := p :: w.flight })

/-- How the world answers a request.  A pull Secret that is not there cannot be written. -/
def answer (P : Platform) (e : Stamp) (q : Request) (w : World) : Except Failure q.Result × World :=
  match q with
  | .getState => (e.get w.auth, w)
  | .putState version state => e.put w (.state version state) World.auth
  | .getPull ns => (e.get (w.pulls ns), w)
  | .putPull ns secret =>
      if (w.pulls ns).isNone then (e.get none, w)
      else e.put w (.pull ns secret) fun w => w.pulls ns
  | .clock => (.ok e.clock, w)
  | .newId => (.ok e.id, w)
  | .installationImages => (e.images, w)
  | .assertAuthority _ => (e.authority, w)
  | .recordResult _ => (e.audit, w)
  | .start clientId => (start P e.replies clientId, w)
  | .poll flow => (poll P e.replies flow, w)
  | .refresh current => (refresh P e.replies current, { w with presented := current :: w.presented })
  | .inspect token username userId =>
      (inspect P e.replies (.string token) (some username) (some userId) .undefined, w)
  | .pat username token => (pat P e.replies username token, w)
  | .verifyImages _ _ => (e.verified, w)

def World.arrive (n : Nat) (w : World) : World :=
  match w.flight[n]? with
  | some p => ({ w with flight := w.flight.eraseIdx n } : World).receive p
  | none => w

inductive Call where
  | beginOAuth (operation : Operation)
  | replace (operation : Operation) (username token : String)
  | remove (operation : Operation)
  | tick

def Call.program (S : Service) : Call → Routine Unit
  | .beginOAuth operation => Registry.beginOAuth S operation
  | .replace operation username token => Registry.replace S operation username token
  | .remove operation => Registry.remove S operation
  | .tick => Registry.tick S

def setting (S : Service) :
    System.Setting Failure Request Request.Result Unit Call World Stamp Nat where
  program := Call.program S
  answer := answer S.toPlatform
  change := World.arrive

abbrev Calls := System.Pool Failure Request Request.Result Unit Call World

/-- A step of a call, or the arrival of a write. -/
abbrev Move := System.Move Call Stamp Nat

def Calls.initial (state : State) (pulls : String → Option PullSecret) : Calls where
  world := .handoff state pulls
  tasks := []

def Calls.after (S : Service) (ms : List Move) (s : Calls) : Calls :=
  System.run (System.Pool.perform (setting S)) ms s

end Registry
