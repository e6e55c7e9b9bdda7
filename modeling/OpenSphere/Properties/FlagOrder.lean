import OpenSphere.Cli.Payload

/-!
# The order of flags

A flag fails or is written whatever the payload is.  So the order of the flags makes no difference if
all that fail do so alike, and, where none fails, no two are written at one path or one at a part of
the path of another.
-/

namespace Cli

variable {α : Type} {S : Steps α} {schema : InputSchema α} {flags : List (Octets × Octets)}

def write : List Octets → Item α → Object α → Object α
  | [], _, m => m
  | part :: rest, v, m =>
      Function.update m part (some (if rest = [] then v else .object (write rest v (objectAt m part))))

theorem objectAt_update_self (m o : Object α) (part : Octets) :
    objectAt (Function.update m part (some (.object o))) part = o := by
  rw [objectAt, Function.update_self]

theorem objectAt_update_of_ne (m : Object α) (x : Option (Item α)) {part other : Octets}
    (h : part ≠ other) : objectAt (Function.update m other x) part = objectAt m part := by
  rw [objectAt, objectAt, Function.update_of_ne h]

/-- Values at paths that go apart are written in any order. -/
theorem write_comm (v w : Item α) : ∀ {p q : List Octets} (m : Object α), ¬ p <+: q → ¬ q <+: p →
    write p v (write q w m) = write q w (write p v m)
  | [], q, _, hp, _ => absurd List.nil_prefix hp
  | p, [], _, _, hq => absurd List.nil_prefix hq
  | a :: p, b :: q, m, hp, hq => by
      by_cases hab : a = b
      · subst hab
        rw [List.prefix_cons_inj] at hp hq
        have hp' : p ≠ [] := fun h => hp (h ▸ List.nil_prefix)
        have hq' : q ≠ [] := fun h => hq (h ▸ List.nil_prefix)
        simp only [write, if_neg hp', if_neg hq', objectAt_update_self, Function.update_idem,
          write_comm v w _ hp hq]
      · simp only [write, objectAt_update_of_ne _ _ hab, objectAt_update_of_ne _ _ (Ne.symm hab)]
        exact Function.update_comm (Ne.symm hab) _ _ m

/-- The value that a flag writes at a path, or why it fails. -/
def flagValue (S : Steps α) (key raw : Octets) :
    List Octets → InputSchema α → Except PayloadFault (Item α)
  | [], _ => .error (.unknownOption key)
  | part :: rest, schema =>
      match schema.properties.lookup part with
      | none => .error (.unknownOption key)
      | some property =>
          if property.secret then .error (.secretOption key)
          else if rest = [] then S.coerce raw property (45 :: 45 :: key)
          else if property.type ≠ objectType then .error (.pathNotObject key)
          else flagValue S key raw rest property

theorem setParts_eq (key raw : Octets) : ∀ (path : List Octets) (m : Object α)
    (schema : InputSchema α), path ≠ [] → setParts S key raw path m schema =
      (flagValue S key raw path schema).map fun v => write path v m := by
  intro path
  induction path with
  | nil => exact fun _ _ h => absurd rfl h
  | cons part rest ih =>
      intro m schema _
      rw [setParts, flagValue]
      cases schema.properties.lookup part with
      | none => rfl
      | some property =>
          dsimp only
          split_ifs with hsecret hrest htype
          · rfl
          · simp only [write, if_pos hrest]
          · rfl
          · rw [ih _ _ hrest]
            simp only [write, if_neg hrest]
            cases flagValue S key raw rest property <;> rfl

def written (S : Steps α) (schema : InputSchema α) (flag : Octets × Octets) :
    Except PayloadFault (Item α) :=
  flagValue S flag.1 flag.2 (flagPath flag.1) schema

/-- A flag fails or is written at its path whatever the payload is. -/
theorem setTypedFlag_eq (m : Object α) (flag : Octets × Octets) : setTypedFlag S schema m flag =
    (written S schema flag).map fun v => write (flagPath flag.1) v m :=
  setParts_eq _ _ _ _ _ fun h => List.splitOnP_ne_nil _ _ (List.map_eq_nil_iff.mp h)

/-! ## Orders -/

def FailAlike (S : Steps α) (schema : InputSchema α) (flags : List (Octets × Octets)) : Prop :=
  ∀ f ∈ flags, ∀ g ∈ flags, ∀ e e', written S schema f = .error e → written S schema g = .error e' →
    e = e'

/-- The paths of two flags go apart, or the flags write the same at the same place. -/
def Apart (S : Steps α) (schema : InputSchema α) (f g : Octets × Octets) : Prop :=
  ¬ flagPath f.1 <+: flagPath g.1 ∧ ¬ flagPath g.1 <+: flagPath f.1 ∨
    flagPath f.1 = flagPath g.1 ∧ written S schema f = written S schema g

structure Settled (S : Steps α) (schema : InputSchema α) (flags : List (Octets × Octets)) : Prop where
  alike : FailAlike S schema flags
  apart : (∀ f ∈ flags, (written S schema f).toBool = true) →
    ∀ f ∈ flags, ∀ g ∈ flags, Apart S schema f g

theorem foldlM_error {f : Octets × Octets} {e : PayloadFault}
    (halike : FailAlike S schema flags) (hf : f ∈ flags) (he : written S schema f = .error e)
    (m : Object α) : flags.foldlM (setTypedFlag S schema) m = .error e := by
  induction flags generalizing m with
  | nil => exact absurd hf List.not_mem_nil
  | cons g flags ih =>
      rw [List.foldlM_cons, setTypedFlag_eq]
      cases hg : written S schema g with
      | error e' =>
          cases halike g (List.mem_cons_self ..) f hf e' e hg he
          rfl
      | ok v =>
          rcases List.mem_cons.mp hf with rfl | hf
          · cases he.symm.trans hg
          · exact ih (fun x hx y hy => halike x (List.mem_cons_of_mem g hx) y
              (List.mem_cons_of_mem g hy)) hf _

def step (S : Steps α) (schema : InputSchema α) (m : Object α) (flag : Octets × Octets) : Object α :=
  match written S schema flag with
  | .ok v => write (flagPath flag.1) v m
  | .error _ => m

theorem foldlM_ok (h : ∀ f ∈ flags, (written S schema f).toBool = true) (m : Object α) :
    flags.foldlM (setTypedFlag S schema) m = .ok (flags.foldl (step S schema) m) := by
  induction flags generalizing m with
  | nil => rfl
  | cons g flags ih =>
      rw [List.foldlM_cons, setTypedFlag_eq, List.foldl_cons, step]
      cases hg : written S schema g with
      | error e =>
          have hok := h g (List.mem_cons_self ..)
          rw [hg] at hok
          cases hok
      | ok v => exact ih (fun f hf => h f (List.mem_cons_of_mem g hf)) _

theorem step_comm {f g : Octets × Octets} (h : Apart S schema f g) (m : Object α) :
    step S schema (step S schema m f) g = step S schema (step S schema m g) f := by
  unfold step
  rcases h with ⟨hfg, hgf⟩ | ⟨hpath, hvalue⟩
  · cases written S schema f <;> cases written S schema g <;> try rfl
    exact write_comm _ _ m hgf hfg
  · rw [hpath, hvalue]

theorem Settled.foldlM_perm {flags' : List (Octets × Octets)} (h : Settled S schema flags)
    (hperm : flags.Perm flags') (m : Object α) :
    flags.foldlM (setTypedFlag S schema) m = flags'.foldlM (setTypedFlag S schema) m := by
  by_cases hok : ∀ f ∈ flags, (written S schema f).toBool = true
  · rw [foldlM_ok hok, foldlM_ok fun f hf => hok f (hperm.mem_iff.mpr hf)]
    exact congrArg _ (hperm.foldl_eq' (fun f hf g hg m => step_comm (h.apart hok f hf g hg) m) m)
  · obtain ⟨f, hf, hfails⟩ : ∃ f ∈ flags, (written S schema f).toBool ≠ true := by
      simpa using hok
    cases he : written S schema f with
    | ok v =>
        rw [he] at hfails
        exact absurd rfl hfails
    | error e =>
        rw [foldlM_error h.alike hf he]
        exact (foldlM_error (fun x hx y hy => h.alike x (hperm.mem_iff.mpr hx) y
          (hperm.mem_iff.mpr hy)) (hperm.mem_iff.mp hf) he m).symm

theorem jsonFlagPayload_perm {flags' : List (Octets × Octets)} (hperm : flags.Perm flags')
    (h : ∀ f ∈ flags, ∀ g ∈ flags, kebabToCamel f.1 = kebabToCamel g.1 → f.2 = g.2) :
    jsonFlagPayload flags = jsonFlagPayload flags' := by
  refine hperm.foldl_eq' (fun f hf g hg m => ?_) _
  by_cases hname : kebabToCamel f.1 = kebabToCamel g.1
  · rw [hname, h f hf g hg hname]
  · exact Function.update_comm hname _ _ m

namespace Demo

/-- A flag is taken as it is, and every payload is valid. -/
def steps : Steps Octets where
  coerce raw _ _ := .ok (.scalar raw)
  validate := .ok
  text raw := raw

/-- A schema with the property `aB`. -/
def aliased : InputSchema Octets :=
  .mk objectType [([97, 66], .mk [] [] none [] false [])] none [] false []

/-- `--a-b=1`. -/
def kebab : Octets × Octets := ([97, 45, 98], [49])

/-- `--aB=2`. -/
def camel : Octets × Octets := ([97, 66], [50])

end Demo

end Cli
