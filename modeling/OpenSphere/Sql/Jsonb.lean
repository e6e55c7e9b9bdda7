import Mathlib.Data.List.Induction
import OpenSphere.Sql.Text

/-!
# `jsonb` documents

A document is a tree.  The keys of an object are kept in the storage order of
`jsonb` and occur once, so that equality of documents is equality of trees up
to the scale of numbers.  `Jsonb` carries that order, and `object` restores it
for any list of keys and values.

`x -> k` and `x ->> k` are `get` and `getText`.  Both are NULL for a missing
key, and the second is NULL for a JSON null as well; a comparison of either
with a constant is then NULL too, which is where a guard can let a document
through.  `get_object` is the one equation about them that proofs use.
-/

namespace Sql

/-! ## Trees -/

mutual

inductive Json where
  | null
  | bool (b : Bool)
  /-- The number `coeff / 10 ^ scale`, printed with `scale` decimals. -/
  | num (coeff : Int) (scale : Nat)
  | str (s : String)
  | arr (xs : Items)
  | obj (fs : Fields)
deriving DecidableEq, Repr

inductive Items where
  | nil
  | cons (x : Json) (xs : Items)
deriving DecidableEq, Repr

inductive Fields where
  | nil
  | cons (k : String) (x : Json) (fs : Fields)
deriving DecidableEq, Repr

end

/-- The storage order of keys: shorter first, then by bytes. -/
def keyLt (a b : String) : Bool :=
  decide (a.utf8ByteSize < b.utf8ByteSize) ||
    (decide (a.utf8ByteSize = b.utf8ByteSize) && decide (chars a < chars b))

/-- Whether a key may stand before the first key of the fields. -/
def Fields.follows (k : String) : Fields → Bool
  | .nil => true
  | .cons k' _ _ => keyLt k k'

mutual

/-- Whether the keys of every object are in storage order. -/
def Json.ordered : Json → Bool
  | .arr xs => xs.ordered
  | .obj fs => fs.ordered
  | _ => true

def Items.ordered : Items → Bool
  | .nil => true
  | .cons x xs => x.ordered && xs.ordered

/-- The keys increase and the values are ordered documents. -/
def Fields.ordered : Fields → Bool
  | .nil => true
  | .cons k x fs => fs.follows k && x.ordered && fs.ordered

end

def Fields.get (k : String) : Fields → Option Json
  | .nil => none
  | .cons k' x fs => if k = k' then some x else fs.get k

def Fields.keys : Fields → List String
  | .nil => []
  | .cons k _ fs => k :: fs.keys

/-- Sets a key at its place in the order.  The last value given for a key
stays. -/
def Fields.set (k : String) (x : Json) : Fields → Fields
  | .nil => .cons k x .nil
  | .cons k' x' fs =>
      if k = k' then .cons k x fs
      else if keyLt k k' then .cons k x (.cons k' x' fs)
      else .cons k' x' (fs.set k x)

theorem keyLt_total {a b : String} (hne : a ≠ b) (hlt : keyLt a b = false) : keyLt b a = true := by
  unfold keyLt at *
  simp only [Bool.or_eq_false_iff, decide_eq_false_iff_not, Bool.and_eq_false_iff,
    Bool.or_eq_true, Bool.and_eq_true, decide_eq_true_eq] at *
  obtain ⟨hsize, hrest⟩ := hlt
  by_cases heq : a.utf8ByteSize = b.utf8ByteSize
  · have hba : ¬ a < b := by
      rcases hrest with h | h
      · exact absurd heq h
      · rwa [chars_eq, chars_eq, ← String.lt_iff] at h
    refine .inr ⟨heq.symm, ?_⟩
    rw [chars_eq, chars_eq, ← String.lt_iff]
    by_contra hab
    exact hne (String.le_antisymm (String.not_lt.mp hab) (String.not_lt.mp hba))
  · exact .inl (by omega)

theorem Fields.follows_set {k k' : String} {x : Json} {fs : Fields} (hfs : fs.follows k' = true)
    (hk : keyLt k' k = true) : (fs.set k x).follows k' = true := by
  cases fs with
  | nil => simpa [Fields.set, Fields.follows] using hk
  | cons k'' x'' fs =>
      unfold Fields.set
      split
      · simpa [Fields.follows] using hk
      · split
        · simpa [Fields.follows] using hk
        · simpa [Fields.follows] using hfs

theorem Fields.ordered_set (k : String) {x : Json} (hx : x.ordered = true) :
    ∀ fs : Fields, fs.ordered = true → (fs.set k x).ordered = true
  | .nil => fun _ => by simp [Fields.set, Fields.ordered, Fields.follows, hx]
  | .cons k' x' fs => fun hfs => by
      have ih := Fields.ordered_set k hx fs
      simp only [Fields.ordered, Bool.and_eq_true] at hfs
      unfold Fields.set
      split
      next heq =>
        subst heq
        simp [Fields.ordered, hfs, hx]
      next hne =>
        split
        next hlt =>
          have hfirst : (Fields.cons k' x' fs).follows k = true := hlt
          simp [Fields.ordered, hfirst, hx, hfs]
        next hlt =>
          have hgt := keyLt_total hne (by simpa using hlt)
          simp [Fields.ordered, Fields.follows_set hfs.1.1 hgt, hfs.1.2, ih hfs.2]

@[simp] theorem Fields.get_set (k k' : String) (x : Json) :
    ∀ fs : Fields, (fs.set k x).get k' = if k' = k then some x else fs.get k'
  | .nil => by simp [Fields.set, Fields.get]
  | .cons k'' x'' fs => by
      have ih := Fields.get_set k k' x fs
      unfold Fields.set
      split
      next heq =>
        subst heq
        simp only [Fields.get]
        split <;> rfl
      next hne =>
        split
        next => simp only [Fields.get]
        next =>
          simp only [Fields.get, ih]
          split
          next heq => subst heq; rw [if_neg (Ne.symm hne)]
          next => rfl

theorem Fields.ordered_get {k : String} {x : Json} :
    ∀ fs : Fields, fs.ordered = true → fs.get k = some x → x.ordered = true
  | .nil => fun _ hget => by simp [Fields.get] at hget
  | .cons k' x' fs => fun hfs hget => by
      simp only [Fields.ordered, Bool.and_eq_true] at hfs
      simp only [Fields.get] at hget
      split at hget
      · cases hget; exact hfs.1.2
      · exact Fields.ordered_get fs hfs.2 hget

/-- The fields of one object overridden by those of another. -/
def Fields.merge (fs : Fields) : Fields → Fields
  | .nil => fs
  | .cons k x gs => (fs.set k x).merge gs

theorem Fields.ordered_merge :
    ∀ gs fs : Fields, fs.ordered = true → gs.ordered = true → (fs.merge gs).ordered = true
  | .nil => fun _ hfs _ => hfs
  | .cons k x gs => fun fs hfs hgs => by
      simp only [Fields.ordered, Bool.and_eq_true] at hgs
      exact Fields.ordered_merge gs _ (Fields.ordered_set k hgs.1.2 fs hfs) hgs.2

/-- The elements of one array after those of another. -/
def Items.append : Items → Items → Items
  | .nil, ys => ys
  | .cons x xs, ys => .cons x (xs.append ys)

theorem Items.ordered_append {ys : Items} (hys : ys.ordered = true) :
    ∀ xs : Items, xs.ordered = true → (xs.append ys).ordered = true
  | .nil => fun _ => hys
  | .cons x xs => fun hxs => by
      simp only [Items.ordered, Bool.and_eq_true, Items.append] at hxs ⊢
      exact ⟨hxs.1, Items.ordered_append hys xs hxs.2⟩

/-- A value as the elements it contributes to a concatenation. -/
def Json.items : Json → Items
  | .arr xs => xs
  | x => .cons x .nil

theorem Json.ordered_items {x : Json} (hx : x.ordered = true) : x.items.ordered = true := by
  cases x <;> simp_all [Json.items, Items.ordered, Json.ordered]

/-! ## Text -/

def numberChars (coeff : Int) (scale : Nat) : List Char :=
  let d := padded (scale + 1) coeff.natAbs
  (if coeff < 0 then ['-'] else []) ++ d.take (d.length - scale) ++
    (if scale = 0 then [] else '.' :: d.drop (d.length - scale))

/-- A character inside a quoted string. -/
def escapeChar (c : Char) : List Char :=
  if c = '"' then ['\\', '"']
  else if c = '\\' then ['\\', '\\']
  else if c = '\n' then ['\\', 'n']
  else if c = '\r' then ['\\', 'r']
  else if c = '\t' then ['\\', 't']
  else if c.toNat = 8 then ['\\', 'b']
  else if c.toNat = 12 then ['\\', 'f']
  else if c.toNat < 32 then
    ['\\', 'u', '0', '0', Nat.digitChar (c.toNat / 16), Nat.digitChar (c.toNat % 16)]
  else [c]

def quotedChars (s : String) : List Char := '"' :: (chars s).flatMap escapeChar ++ ['"']

mutual

/-- `x::text`. -/
def Json.chars : Json → List Char
  | .null => ['n', 'u', 'l', 'l']
  | .bool true => ['t', 'r', 'u', 'e']
  | .bool false => ['f', 'a', 'l', 's', 'e']
  | .num c s => numberChars c s
  | .str s => quotedChars s
  | .arr xs => '[' :: xs.chars ++ [']']
  | .obj fs => '\x7b' :: fs.chars ++ ['\x7d']

def Items.chars : Items → List Char
  | .nil => []
  | .cons x .nil => x.chars
  | .cons x xs => x.chars ++ ',' :: ' ' :: xs.chars

def Fields.chars : Fields → List Char
  | .nil => []
  | .cons k x .nil => quotedChars k ++ ':' :: ' ' :: x.chars
  | .cons k x fs => quotedChars k ++ ':' :: ' ' :: x.chars ++ ',' :: ' ' :: fs.chars

end

/-- The value as `->>` gives it: a string without its quotes, NULL for a JSON
null. -/
def Json.asText : Json → Option String
  | .null => none
  | .str s => some s
  | x => some (String.ofList x.chars)

mutual

/-- `x = y` on documents: numbers are compared by value. -/
def Json.same : Json → Json → Bool
  | .null, .null => true
  | .bool a, .bool b => a == b
  | .num c s, .num c' s' => c * 10 ^ s' == c' * 10 ^ s
  | .str a, .str b => a == b
  | .arr xs, .arr ys => xs.same ys
  | .obj fs, .obj gs => fs.same gs
  | _, _ => false

/-- Equal elements at equal places. -/
def Items.same : Items → Items → Bool
  | .nil, .nil => true
  | .cons x xs, .cons y ys => x.same y && xs.same ys
  | _, _ => false

/-- Equal keys with equal values. -/
def Fields.same : Fields → Fields → Bool
  | .nil, .nil => true
  | .cons k x fs, .cons k' y gs => k == k' && x.same y && fs.same gs
  | _, _ => false

end

/-! ## Documents -/

/-- A `jsonb` value. -/
structure Jsonb where
  /-- The document. -/
  tree : Json
  /-- Its keys are in storage order, each once. -/
  ordered : tree.ordered = true
deriving DecidableEq

namespace Jsonb

def ofText (s : String) : Jsonb := ⟨.str s, rfl⟩

def ofInt (n : Int) : Jsonb := ⟨.num n 0, rfl⟩

def ofBool (b : Bool) : Jsonb := ⟨.bool b, rfl⟩

def null : Jsonb := ⟨.null, rfl⟩

/-- An SQL value in a document: NULL becomes the JSON null. -/
def ofNull (x : Option Jsonb) : Jsonb := x.getD null

/-- The fields of an object, set one key after the other: a repeated key keeps
its last value. -/
def fields (kvs : List (String × Jsonb)) : { fs : Fields // fs.ordered = true } :=
  kvs.foldl (fun fs kv => ⟨fs.1.set kv.1 kv.2.tree, Fields.ordered_set kv.1 kv.2.ordered fs.1 fs.2⟩)
    ⟨.nil, rfl⟩

/-- `jsonb_build_object(k₁, x₁, ...)`. -/
def object (kvs : List (String × Jsonb)) : Jsonb := ⟨.obj (fields kvs).1, (fields kvs).2⟩

/-- `x || y`: objects are merged, everything else is joined as arrays. -/
def concat : Jsonb → Jsonb → Jsonb
  | ⟨.obj fs, hfs⟩, ⟨.obj gs, hgs⟩ => ⟨.obj (fs.merge gs), Fields.ordered_merge gs fs hfs hgs⟩
  | ⟨x, hx⟩, ⟨y, hy⟩ =>
      ⟨.arr (x.items.append y.items),
        Items.ordered_append (Json.ordered_items hy) _ (Json.ordered_items hx)⟩

/-- `x -> k`. -/
def get (x : Jsonb) (k : String) : Option Jsonb :=
  match x with
  | ⟨.obj fs, hfs⟩ =>
      match hget : fs.get k with
      | some y => some ⟨y, Fields.ordered_get fs hfs hget⟩
      | none => none
  | _ => none

/-- `x ->> k`. -/
def getText (x : Jsonb) (k : String) : Option String := (x.get k).bind fun y => y.tree.asText

def typeof (x : Jsonb) : String :=
  match x.tree with
  | .null => "null"
  | .bool _ => "boolean"
  | .num _ _ => "number"
  | .str _ => "string"
  | .arr _ => "array"
  | .obj _ => "object"

/-- `jsonb_object_keys(x)`, which fails on what is not an object. -/
def objectKeys (x : Jsonb) : Option (List String) :=
  match x.tree with
  | .obj fs => some fs.keys
  | _ => none

/-- `x = y`. -/
def same (x y : Jsonb) : Bool := x.tree.same y.tree

/-- `x IS DISTINCT FROM y`. -/
def distinct : Option Jsonb → Option Jsonb → Cond
  | some x, some y => some (!x.same y)
  | none, none => some false
  | _, _ => some true

/-- `(SELECT count(*) FROM jsonb_object_keys(x))`.  It is 0 for NULL, and for a
document without keys as well: guards ask for its type first. -/
def keyCount (x : Option Jsonb) : Int := ((x.bind objectKeys).getD []).length

theorem get_tree (x : Jsonb) (k : String) :
    (x.get k).map tree = match x.tree with
      | .obj fs => fs.get k
      | _ => none := by
  obtain ⟨t, ht⟩ := x
  cases t with
  | obj fs =>
      simp only [get]
      split <;> simp_all
  | _ => rfl

theorem fields_get (kvs : List (String × Jsonb)) (k : String) :
    (fields kvs).1.get k = (kvs.reverse.lookup k).map tree := by
  -- from the right: the last key set is the first one looked at
  induction kvs using List.reverseRecOn with
  | nil => rfl
  | append_singleton kvs kv ih =>
      have hstep : (fields (kvs ++ [kv])).1 = (fields kvs).1.set kv.1 kv.2.tree := by
        simp [fields, List.foldl_append]
      rw [hstep, Fields.get_set, ih, List.reverse_append, List.reverse_singleton,
        List.singleton_append]
      obtain ⟨k', x⟩ := kv
      by_cases hk : k = k'
      · simp [hk]
      · have hbeq : (k == k') = false := by simpa using hk
        simp [List.lookup_cons, hk, hbeq]

/-- A built object gives back what was stored under a key. -/
theorem get_object (kvs : List (String × Jsonb)) (k : String) :
    (object kvs).get k = kvs.reverse.lookup k := by
  have htree := get_tree (object kvs) k
  have hinj : Function.Injective (Option.map tree) :=
    Option.map_injective fun a b hab => by
      obtain ⟨t, ht⟩ := a
      obtain ⟨t', ht'⟩ := b
      cases hab
      rfl
  exact hinj (htree.trans (fields_get kvs k))

theorem getText_object (kvs : List (String × Jsonb)) (k : String) :
    (object kvs).getText k = (kvs.reverse.lookup k).bind fun y => y.tree.asText := by
  rw [getText, get_object]

@[simp] theorem asText_ofText (s : String) : (ofText s).tree.asText = some s := rfl

/-- An integer reads as its decimal digits. -/
@[simp] theorem asText_ofInt (n : Int) : (ofInt n).tree.asText = some (decimal n) := by
  have hpad : ∀ k : Nat, padded 1 k = Nat.toDigits 10 k := by
    intro k
    have hne : (Nat.toDigits 10 k).length ≠ 0 := by simp [Nat.toDigits_ne_nil]
    simp [padded, show 1 - (Nat.toDigits 10 k).length = 0 by omega]
  cases n with
  | ofNat k => simp [ofInt, Json.asText, Json.chars, numberChars, decimal, decimalChars, hpad]
  | negSucc k =>
      simp [ofInt, Json.asText, Json.chars, numberChars, decimal, decimalChars, hpad,
        Int.negSucc_lt_zero]

theorem ofText_injective {a b : String} (h : ofText a = ofText b) : a = b := by
  injection h with h
  injection h

theorem ofBool_injective {a b : Bool} (h : ofBool a = ofBool b) : a = b := by
  injection h with h
  injection h

end Jsonb

end Sql
