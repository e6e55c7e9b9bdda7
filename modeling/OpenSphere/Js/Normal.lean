import OpenSphere.Js.Json

/-!
# What JSON keeps of a value

`JSON.stringify` writes null for what JSON cannot express.  `Value.normal` is the value that is read
back, and `similar_of_text` says that the text of the canonical value stands for the normal value up to
the order of its members, whatever the value is.
-/

open Sql

namespace Js

mutual

/-- `JSON.parse(JSON.stringify(x))`. -/
def Value.normal : Value → Value
  | .undefined => .null
  | .number t => if finite t then .number t else .null
  | .array xs => .array xs.normal
  | .object ms => .object ms.normal
  | x => x

def Values.normal : Values → Values
  | .nil => .nil
  | .cons x xs => .cons x.normal xs.normal

def Members.normal : Members → Members
  | .nil => .nil
  | .cons k x ms => .cons k x.normal ms.normal

end

mutual

theorem stringify_normal : ∀ x : Value, x.normal.stringify = x.stringify
  | .undefined => rfl
  | .null => rfl
  | .boolean _ => rfl
  | .number t => by
      rw [Value.normal, Value.stringify]
      split
      next h => rw [Value.stringify, if_pos h]
      next => rfl
  | .string _ => rfl
  | .array xs => by rw [Value.normal, Value.stringify, Value.stringify, stringify_normals]
  | .object ms => by rw [Value.normal, Value.stringify, Value.stringify, stringify_normalMembers]

theorem stringify_normals : ∀ xs : Values, xs.normal.stringify = xs.stringify
  | .nil => rfl
  | .cons x xs => by
      rw [Values.normal, Values.stringify, Values.stringify, stringify_normal, stringify_normalsRest]

theorem stringify_normalsRest : ∀ xs : Values, xs.normal.stringifyRest = xs.stringifyRest
  | .nil => rfl
  | .cons x xs => by
      rw [Values.normal, Values.stringifyRest, Values.stringifyRest, stringify_normal,
        stringify_normalsRest]

theorem stringify_normalMembers : ∀ ms : Members, ms.normal.stringify = ms.stringify
  | .nil => rfl
  | .cons k x ms => by
      rw [Members.normal, Members.stringify, Members.stringify, stringify_normal,
        stringify_normalMembersRest]

theorem stringify_normalMembersRest : ∀ ms : Members, ms.normal.stringifyRest = ms.stringifyRest
  | .nil => rfl
  | .cons k x ms => by
      rw [Members.normal, Members.stringifyRest, Members.stringifyRest, stringify_normal,
        stringify_normalMembersRest]

end

mutual

theorem plain_normal : ∀ x : Value, x.normal.plain = true
  | .undefined => rfl
  | .null => rfl
  | .boolean _ => rfl
  | .number t => by
      rw [Value.normal]
      split
      next h => exact h
      next => rfl
  | .string _ => rfl
  | .array xs => by rw [Value.normal, Value.plain, plain_normals]
  | .object ms => by rw [Value.normal, Value.plain, plain_normalMembers]

theorem plain_normals : ∀ xs : Values, xs.normal.plain = true
  | .nil => rfl
  | .cons x xs => by rw [Values.normal, Values.plain, plain_normal, plain_normals]; rfl

theorem plain_normalMembers : ∀ ms : Members, ms.normal.plain = true
  | .nil => rfl
  | .cons k x ms => by rw [Members.normal, Members.plain, plain_normal, plain_normalMembers]; rfl

end

theorem normal_place (k : String) (x : Value) : ∀ ms : Members,
    (ms.place k x).normal = ms.normal.place k x.normal
  | .nil => rfl
  | .cons k' x' ms => by
      rw [Members.place, Members.normal, Members.place]
      split
      · rw [Members.normal, normal_place]
      · rfl

mutual

/-- The order of the members does not matter to what is read back. -/
theorem canonical_normal : ∀ x : Value, x.normal.canonical = x.canonical.normal
  | .undefined => rfl
  | .null => rfl
  | .boolean _ => rfl
  | .number t => by
      show (Value.number t).normal.canonical = (Value.number t).normal
      rw [Value.normal]
      split <;> rfl
  | .string _ => rfl
  | .array xs => by
      rw [Value.normal, Value.canonical, Value.canonical, Value.normal, canonical_normals]
  | .object ms => by
      rw [Value.normal, Value.canonical, Value.canonical, Value.normal, canonical_normalMembers]

theorem canonical_normals : ∀ xs : Values, xs.normal.canonical = xs.canonical.normal
  | .nil => rfl
  | .cons x xs => by
      rw [Values.normal, Values.canonical, Values.canonical, Values.normal, canonical_normal,
        canonical_normals]

theorem canonical_normalMembers : ∀ ms : Members, ms.normal.canonical = ms.canonical.normal
  | .nil => rfl
  | .cons k x ms => by
      rw [Members.normal, Members.canonical, Members.canonical, normal_place, canonical_normal,
        canonical_normalMembers]

end

/-- Values with the same text are read back as the same value, up to the order of members. -/
theorem similar_of_text {x y : Value} (h : x.canonical.stringify = y.canonical.stringify) :
    Value.Similar x.normal y.normal := by
  refine (stringify_canonical_iff (plain_normal x) (plain_normal y)).mp ?_
  rw [canonical_normal, canonical_normal, stringify_normal, stringify_normal]
  exact h

/-! ## Members -/

theorem Members.Similar.get {name : String} {ms ns : Members} (h : Members.Similar ms ns) :
    Value.Similar (ms.get name) (ns.get name) := by
  refine @Members.Similar.rec (fun _ _ _ => True) (fun _ _ _ => True)
    (fun ms ns _ => Value.Similar (ms.get name) (ns.get name)) (fun _ => trivial)
    (fun _ _ => trivial) (fun _ _ => trivial) trivial (fun _ _ _ _ => trivial) (.refl _)
    (fun hx _ _ ih => ?_) (fun hne => ?_) (fun _ _ ih ih' => ih.trans ih') ms ns h
  · rw [Members.get, Members.get]
    split
    · exact hx
    · exact ih
  · simp only [Members.get]
    split
    next h =>
      rw [if_neg fun h' => hne (h.trans h'.symm)]
      exact .refl _
    next => exact .refl _

theorem Value.Similar.get {x y : Value} (h : Value.Similar x y) (name : String) :
    Value.Similar (x.get name) (y.get name) := by
  cases h with
  | refl => exact .refl _
  | array => exact .refl _
  | object hms => exact hms.get

/-- A text is read back as it is. -/
theorem normal_string {name s : String} : ∀ {ms : Members}, ms.get name = .string s →
    ms.normal.get name = .string s
  | .nil, h => by cases h
  | .cons k x ms, h => by
      rw [Members.get] at h
      rw [Members.normal, Members.get]
      split
      next hname =>
        rw [if_pos hname] at h
        rw [h]
        rfl
      next hname =>
        rw [if_neg hname] at h
        exact normal_string h

theorem string_of_text (name : String) {ms ns : Members} {s t : String}
    (h : (Value.object ms).canonical.stringify = (Value.object ns).canonical.stringify)
    (hs : ms.get name = .string s) (ht : ns.get name = .string t) : s = t := by
  have hsimilar : Value.Similar (ms.normal.get name) (ns.normal.get name) := (similar_of_text h).get name
  rw [normal_string hs, normal_string ht] at hsimilar
  cases hsimilar
  rfl

end Js
