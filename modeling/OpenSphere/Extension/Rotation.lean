import OpenSphere.Extension.Cleanup
import OpenSphere.Js.Coerce

/-!
# The rotation of the registrations

`reconcileOnce` takes one registration of the list at a time: the first whose name comes after the
one it took before, or the first of all.  The name is remembered once the registration has passed
`exactRegistration`.
-/

open Js (Value Collation)
open Catalog (dnsLabel)

namespace Extension

/-- What `exactRegistration` returns. -/
structure Registration where
  name : String
  uid : Value
  resourceVersion : String
  generation : ℤ
  desiredState : Value

/-- `fault('UIPluginRegistration contract is invalid', 'RegistrationContractViolation')`. -/
def invalidRegistration {α : Type} : Except Fault α :=
  .error ⟨"UIPluginRegistration contract is invalid", some "RegistrationContractViolation"⟩

def desiredStates : List String := ["Installed", "Enabled", "Disabled", "Uninstalled"]

/-- `registration?.spec || {}`. -/
def spec (registration : Value) : Value := (registration.get "spec").or (.object .nil)

/-- `Number(x)`, where it is a safe integer. -/
def safeIntegerOf (x : Value) : Except Fault (Option ℤ) :=
  match x.numeric with
  | some t => .ok ((Js.numberOfText t).bind (·.safeInteger))
  | none => .error ⟨"Cannot convert object to primitive value", none⟩

def exactRegistration (namespace' : String) (registration : Value) : Except Fault Registration := do
  let name ← textOf ((metadata registration).get "name")
  if !(is (registration.get "apiVersion") "plugins.opensphere.io/v1alpha1" &&
      is (registration.get "kind") "UIPluginRegistration" &&
      is ((metadata registration).get "namespace") namespace' && dnsLabel name) then
    invalidRegistration
  else do
    let resourceVersion ← textOf ((metadata registration).get "resourceVersion")
    if !(resourceVersionFormat (.string resourceVersion) &&
        boundedText 1 128 ((metadata registration).get "uid")) then
      invalidRegistration
    else do
      let generation ← safeIntegerOf ((metadata registration).get "generation")
      match generation.filter fun n => decide (1 ≤ n) with
      | none => invalidRegistration
      | some generation =>
          if is (((spec registration).get "packageRef").get "name") name &&
              desiredStates.any (is ((spec registration).get "desiredState")) then
            return ⟨name, (metadata registration).get "uid", resourceVersion, generation,
              (spec registration).get "desiredState"⟩
          else invalidRegistration

/-! ## The choice -/

/-- A registration of the list, with its place there and `String(item?.metadata?.name || '')`. -/
structure Entry where
  index : ℕ
  registration : Value
  name : String

def entryOf (p : Value × ℕ) : Except Fault Entry := do
  let name ← textOf ((p.1.get "metadata").get "name")
  return ⟨p.2, p.1, name⟩

def ordered (collation : Collation) (entries : List Entry) : List Entry :=
  entries.mergeSort fun a b => decide (collation.compare a.name b.name ≤ 0)

/-- `ordered.find(...) || ordered[0]`. -/
def next (collation : Collation) (last : String) (entries : List Entry) : Option Entry :=
  match entries.find? fun e => decide (0 < collation.compare e.name last) with
  | some e => if e.registration.truthy then some e else entries.head?
  | none => entries.head?

/-! ## The calls -/

inductive Outcome (σ : Type) where
  /-- It throws before it has chosen a registration. -/
  | failed (f : Fault)
  | idle
  /-- It has chosen a registration, which does not pass `exactRegistration`. -/
  | refused (index : ℕ) (f : Fault)
  /-- It has chosen a registration, and what comes of reconciling it. -/
  | reconciled (index : ℕ) (result : Except Fault σ)

/-- The place of the registration that a call has chosen. -/
def Outcome.selected {σ : Type} : Outcome σ → Option ℕ
  | .failed _ => none
  | .idle => none
  | .refused i _ => some i
  | .reconciled i _ => some i

/-- `listed.value.items`, where the list is what the API server returns of it. -/
def itemsOf (listed : Value) : Option (List Value) :=
  match listed.get "items" with
  | .array xs => some xs.toList
  | _ => none

section

variable {σ : Type} (collation : Collation) (namespace' : String) (listed : Value)

def take (reconcile : Registration → Except Fault σ) (last : String) (e : Entry) :
    Outcome σ × String :=
  match exactRegistration namespace' e.registration with
  | .error f => (.refused e.index f, last)
  | .ok current => (.reconciled e.index (reconcile current), current.name)

/-- A call of `reconcileOnce`, and what `lastRegistrationName` is after it. -/
def reconcileOnce (reconcile : Registration → Except Fault σ) (last : String) :
    Outcome σ × String :=
  match itemsOf listed with
  | none => (.failed ⟨"UIPluginRegistration list contract is invalid",
      some "AuthorityContractViolation"⟩, last)
  | some items =>
      if 256 < items.length then
        (.failed ⟨"UIPluginRegistration list exceeds its bounded reconciliation set",
          some "AuthorityContractViolation"⟩, last)
      else
        match items.zipIdx.mapM entryOf with
        | .error f => (.failed f, last)
        | .ok entries =>
            match next collation last (ordered collation entries) with
            | none => (.idle, "")
            | some e =>
                if e.registration.truthy then take namespace' reconcile last e else (.idle, "")

/-- So many calls, one after the other, while the list does not change. -/
def calls (reconcile : ℕ → Registration → Except Fault σ) : ℕ → String → List (Outcome σ)
  | 0, _ => []
  | n + 1, last =>
      let call := reconcileOnce collation namespace' listed (reconcile n) last
      call.1 :: calls reconcile n call.2

end

end Extension
