import OpenSphere.Cli.Hints
import OpenSphere.Properties.FlagOrder

/-!
# Hints that work

The name of a property is read back from its hint if it has no hyphen and no dot, and no capitals but
those of ASCII behind its first character.  The hint sets the property then, unless its option is
read otherwise, or a secret is on the way.
-/

namespace Cli

variable {α : Type} {L : ToLower} {V : View α} {S : Steps α} {schema : InputSchema α} {o : Object α}
  {a b : UInt8} {bs key field : Octets} {names : List Octets}

/-! ## Names -/

theorem mem_splitOn {x : UInt8} : ∀ {l t : Octets}, t ∈ l.splitOn a → x ∈ t → x ∈ l ∧ x ≠ a
  | [], t, h, hx => by
      rw [List.splitOn_nil, List.mem_singleton] at h
      exact absurd (h ▸ hx) List.not_mem_nil
  | y :: l, t, h, hx => by
      have hrest {t} (ht : t ∈ l.splitOn a) (hx : x ∈ t) : x ∈ y :: l ∧ x ≠ a :=
        (mem_splitOn ht hx).imp_left (List.mem_cons_of_mem y)
      rw [List.splitOn_cons_eq_if_modifyHead] at h
      split_ifs at h with hy
      · rcases List.mem_cons.mp h with rfl | h
        · exact absurd hx List.not_mem_nil
        · exact hrest h hx
      · obtain ⟨p, ps, hps⟩ := List.exists_cons_of_ne_nil (List.splitOn_ne_nil a l)
        rw [hps] at h hrest
        rcases List.mem_cons.mp h with rfl | h
        · rcases List.mem_cons.mp hx with rfl | hx
          · exact ⟨List.mem_cons_self .., fun h => hy (beq_iff_eq.mpr h)⟩
          · exact hrest (List.mem_cons_self ..) hx
        · exact hrest (List.mem_cons_of_mem _ h) hx

theorem splitOn_append {x y p : Octets} {ps : List Octets} (hx : a ∉ x)
    (hy : y.splitOn a = p :: ps) : (x ++ y).splitOn a = (x ++ p) :: ps := by
  induction x with
  | nil => exact hy
  | cons b x ih =>
      obtain ⟨hb, hx⟩ := not_or.mp (mt List.mem_cons.mpr hx)
      rw [List.cons_append, List.splitOn_cons_eq_if_modifyHead, ih hx,
        if_neg (fun h => hb (beq_iff_eq.mp h).symm), List.modifyHead_cons, List.cons_append]

theorem mem_capital (ha : a < 65) : ∀ {bs : Octets}, a ∈ capital bs → a ∈ bs
  | [], h => h
  | b :: bs, h => by
      rw [capital, List.mem_append] at h
      refine h.elim (fun h => ?_) (List.mem_cons_of_mem b)
      rw [UInt8.lt_iff_toNat_lt] at ha
      split_ifs at h with hsmall habove
      · rw [List.mem_singleton.mp h, UInt8.toNat_sub_of_le _ _ (by grind)] at ha
        simp only [UInt8.le_iff_toNat_le, UInt8.reduceToNat] at ha hsmall
        omega
      · simp only [List.mem_cons, List.not_mem_nil, or_false] at h
        rcases h with rfl | rfl | rfl <;> simp at ha
      · exact List.mem_singleton.mp h ▸ List.mem_cons_self ..

theorem mem_kebabToCamel (ha : a < 65) (h : a ∈ kebabToCamel key) : a ∈ key ∧ a ≠ 45 := by
  unfold kebabToCamel at h
  split at h
  · exact absurd h List.not_mem_nil
  · next part parts hparts =>
    rcases List.mem_append.mp h with h | h
    · exact mem_splitOn (hparts ▸ List.mem_cons_self ..) h
    · obtain ⟨_, ht, hat⟩ := List.mem_flatten.mp h
      obtain ⟨t, ht', rfl⟩ := List.mem_map.mp ht
      exact mem_splitOn (hparts ▸ List.mem_cons_of_mem _ ht') (mem_capital ha hat)

theorem mem_flagPath {part : Octets} (h : part ∈ flagPath key) : 45 ∉ part ∧ 46 ∉ part := by
  obtain ⟨t, ht, rfl⟩ := List.mem_map.mp h
  exact ⟨fun h => (mem_kebabToCamel (by decide) h).2 rfl,
    fun h => (mem_splitOn ht (mem_kebabToCamel (by decide) h).1).2 rfl⟩

/-! ## Hints -/

/-- A name with small letters from its beginning, or from a capital, up to the next capital. -/
def restored (L : ToLower) : Octets → Octets → Octets
  | before, [] => L.run before
  | before, b :: bs =>
      if 65 ≤ b ∧ b ≤ 90 then L.run before ++ b :: restored L [] bs else restored L (before ++ [b]) bs

def readBack (L : ToLower) : Octets → Octets
  | [] => []
  | b :: bs => restored L [b] bs

theorem small_capital (h : 65 ≤ b ∧ b ≤ 90) : b < 128 ∧ 97 ≤ small b ∧
    ∀ bs, capital (small b :: bs) = b :: bs := by
  have hbounds : 65 ≤ b.toNat ∧ b.toNat ≤ 90 := h
  have hadd : (b + 32).toNat = b.toNat + 32 := (UInt8.toNat_add b 32).trans
    (Nat.mod_eq_of_lt (show b.toNat + 32 < 256 by omega))
  have hsmall : 97 ≤ b + 32 ∧ b + 32 ≤ 122 := by
    constructor
    · exact show 97 ≤ (b + 32).toNat by omega
    · exact show (b + 32).toNat ≤ 122 by omega
  refine ⟨show b.toNat < 128 by omega, ?_, fun bs => ?_⟩
  · rw [small, if_pos h]
    exact hsmall.1
  · rw [small, if_pos h, capital, if_pos hsmall, UInt8.add_sub_cancel]
    rfl

theorem splitOn_dashes (bs : Octets) (hbs : 45 ∉ bs) : ∀ before : Octets, 45 ∉ before → ∃ p ps,
    (L.run (before ++ bs.flatMap dash)).splitOn 45 = p :: ps ∧
      p ++ (ps.map capital).flatten = restored L before bs := by
  induction bs with
  | nil =>
      intro before h
      rw [List.flatMap_nil, List.append_nil, List.splitOn_eq_singleton (mt (L.hyphen _) h)]
      exact ⟨_, [], rfl, List.append_nil _⟩
  | cons b bs ih =>
      intro before h
      obtain ⟨hb, hbs⟩ := not_or.mp (mt List.mem_cons.mpr hbs)
      rw [List.flatMap_cons, dash, restored]
      split_ifs with hcapital
      · obtain ⟨hascii, hsmall, hback⟩ := small_capital hcapital
        obtain ⟨p, ps, hsplit, hread⟩ := ih hbs [] List.not_mem_nil
        rw [List.nil_append] at hsplit
        have hrest := splitOn_append (by simp; grind : 45 ∉ [small b]) hsplit
        refine ⟨L.run before, ([small b] ++ p) :: ps, ?_, ?_⟩
        · show (L.run (before ++ 45 :: ([] ++ b :: _))).splitOn 45 = _
          rw [L.ascii _ _ _ (by decide), L.ascii _ _ _ hascii, L.nil,
            ← hrest]
          exact List.splitOn_append_cons_self_of_not_mem (mt (L.hyphen _) h) _
        · rw [← hread, List.map_cons, List.flatten_cons, List.singleton_append, hback]
          rfl
      · obtain ⟨p, ps, hsplit, hread⟩ := ih hbs (before ++ [b])
          (by simp [h, hb])
        exact ⟨p, ps, by rwa [List.append_assoc] at hsplit, hread⟩

theorem kebabToCamel_dashes (h : 45 ∉ bs) : kebabToCamel (L.run (dashes bs)) = readBack L bs := by
  cases bs with
  | nil => rw [dashes, L.nil]; rfl
  | cons b bs =>
      obtain ⟨hb, hbs⟩ := not_or.mp (mt List.mem_cons.mpr h)
      obtain ⟨p, ps, hsplit, hread⟩ := splitOn_dashes (L := L) bs hbs [b]
        (List.mem_singleton.not.mpr hb)
      rw [kebabToCamel, show L.run (dashes (b :: bs)) = L.run ([b] ++ bs.flatMap dash) from rfl, hsplit]
      exact hread

theorem dot_dashes (h : 46 ∉ bs) : 46 ∉ L.run (dashes bs) := by
  refine mt (L.dot _) ?_
  cases bs with
  | nil => exact h
  | cons b bs =>
      simp only [dashes, List.mem_cons, List.mem_flatMap, dash, not_or, not_exists] at h ⊢
      grind

structure Plain (L : ToLower) (name : Octets) : Prop where
  hyphen : 45 ∉ name
  dot : 46 ∉ name
  small : readBack L name = name

/-- A path is read back from its hint exactly if its names are. -/
theorem flagPath_camelPathToKebab (hne : names ≠ []) :
    flagPath (camelPathToKebab L ([46].intercalate names)) = names ↔ ∀ name ∈ names, Plain L name := by
  have hread (h : ∀ name ∈ names, 45 ∉ name ∧ 46 ∉ name) :
      flagPath (camelPathToKebab L ([46].intercalate names)) = names.map (readBack L) := by
    unfold camelPathToKebab flagPath
    rw [List.splitOn_intercalate 46 (fun name hname => (h name hname).2) hne,
      List.splitOn_intercalate 46 ?_ (mt List.map_eq_nil_iff.mp hne), List.map_map]
    · exact List.map_congr_left fun name hname => kebabToCamel_dashes (h name hname).1
    · rintro _ hpart
      obtain ⟨name, hname, rfl⟩ := List.mem_map.mp hpart
      exact dot_dashes (h name hname).2
  constructor
  · intro h name hname
    have hmarks (name) (hname : name ∈ names) : 45 ∉ name ∧ 46 ∉ name := mem_flagPath (h.symm ▸ hname)
    exact ⟨(hmarks name hname).1, (hmarks name hname).2, List.map_inj_left.mp
      (((hread hmarks).symm.trans h).trans (List.map_id names).symm) name hname⟩
  · intro h
    rw [hread fun name hname => ⟨(h name hname).hyphen, (h name hname).dot⟩]
    exact (List.map_congr_left fun name hname => (h name hname).small).trans (List.map_id names)

/-! ## What is missing -/

/-- A required property, at the end of a path of objects, is not given. -/
inductive Missing (V : View α) : InputSchema α → Object α → List Octets → Prop where
  | here {schema : InputSchema α} {o : Object α} {name : Octets} : name ∈ schema.required →
      V.given (o name) = false → Missing V schema o [name]
  | inside {schema property : InputSchema α} {o o' : Object α} {name : Octets} {names : List Octets} :
      schema.properties.lookup name = some property → property.type = objectType →
      o name = some (.object o') → Missing V property o' names → Missing V schema o (name :: names)

def pathOf (field : Octets) (names : List Octets) : Octets := names.foldl (· ++ 46 :: ·) field

theorem pathOf_eq (hne : names ≠ []) : pathOf field names = field ++ 46 :: [46].intercalate names := by
  induction names generalizing field with
  | nil => exact absurd rfl hne
  | cons name names ih =>
      cases names with
      | nil => simp [pathOf]
      | cons name' names =>
          rw [pathOf, List.foldl_cons, ← pathOf, ih (List.cons_ne_nil _ _),
            List.intercalate_cons_cons]
          simp

theorem optionPath_request (path : Octets) : optionPath (request ++ 46 :: path) = path := by
  rw [optionPath, if_pos ⟨path, List.append_assoc ..⟩]
  rfl

theorem Missing.ne_nil (h : Missing V schema o names) : names ≠ [] := by
  cases h <;> exact List.cons_ne_nil _ _

structure Told (L : ToLower) (V : View α) (schema : InputSchema α) (o : Object α) (field : Octets)
    (input : MissingInput α) : Prop where
  made : ∃ schema' field' name, input = missingInput L schema' field' name
  begins : field <+: input.path
  named : 91 ∈ input.path ∨ ∃ names, Missing V schema o names ∧ input.path = pathOf field names

theorem told_collectMissingInputs : ∀ {n : ℕ} {schema : InputSchema α} {o : Object α} {field : Octets}
    {input : MissingInput α}, sizeOf schema ≤ n → input ∈ collectMissingInputs L V o schema field →
    Told L V schema o field input := by
  intro n
  induction n with
  | zero =>
      intro schema _ _ _ hsize
      cases schema
      simp at hsize
  | succ n ih =>
      intro schema o field input hsize h
      rw [collectMissingInputs, List.mem_append] at h
      rcases h with h | h
      · obtain ⟨name, hname, rfl⟩ := List.mem_map.mp h
        obtain ⟨hname, hgiven⟩ := List.mem_filter.mp hname
        exact ⟨⟨schema, field, name, rfl⟩, List.prefix_append _ _,
          .inr ⟨[name], .here hname (by simpa using hgiven), rfl⟩⟩
      · obtain ⟨key, -, h⟩ := List.mem_flatMap.mp h
        split at h
        · cases h
        next property hproperty =>
          have hless := sizeOf_lookup hproperty
          split_ifs at h with htype harray
          · split at h
            next o' ho =>
              obtain ⟨hmade, hbegins, hnamed⟩ := ih (by omega) h
              refine ⟨hmade, (List.prefix_append _ _).trans hbegins, hnamed.imp_right ?_⟩
              rintro ⟨names, hmissing, hpath⟩
              exact ⟨key :: names, .inside hproperty htype ho hmissing, hpath⟩
            next => cases h
          · split at h
            next items x hitems hx =>
              split_ifs at h with hobjects
              swap
              · cases h
              obtain ⟨⟨item, index⟩, -, h⟩ := List.mem_flatMap.mp h
              cases item with
              | scalar x => cases h
              | object o' =>
                  have hsmaller := sizeOf_items hitems
                  obtain ⟨hmade, hbegins, -⟩ := ih (by omega) h
                  refine ⟨hmade, ?_, .inl (hbegins.mem (by simp))⟩
                  refine List.IsPrefix.trans ?_ hbegins
                  simp only [List.append_assoc]
                  exact List.prefix_append _ _
            next => cases h
          · cases h

/-! ## Hints that work -/

/-- The option of a hint is read as one, and some text is taken, which sets exactly the property,
whatever the payload is. -/
def Works (S : Steps α) (schema : InputSchema α) (names : List Octets) (key : Octets) : Prop :=
  key ∉ reservedFlags ∧
    ∃ raw v, ∀ m, setTypedFlag S schema m (key, raw) = .ok (write names v m)

/-- The property takes some text, and there is no secret on the way to it. -/
def Settable (S : Steps α) (label : Octets) : InputSchema α → List Octets → Prop
  | _, [] => False
  | schema, name :: rest => ∃ property, schema.properties.lookup name = some property ∧
      property.secret = false ∧
        if rest = [] then ∃ raw v, S.coerce raw property label = .ok v
        else Settable S label property rest

theorem write_varies {p : List Octets} (hp : p ≠ []) (v x : Item α) :
    ¬ ∀ o : Object α, x = .object (write p v o) := by
  obtain ⟨a, p, rfl⟩ := List.exists_cons_of_ne_nil hp
  intro h
  have hsame := (h fun _ => none).symm.trans (h fun _ => some x)
  have hother := congrFun (Item.object.inj hsame) (0 :: a)
  have hne : 0 :: a ≠ a := List.cons_ne_self _ _
  rw [write, write, Function.update_of_ne hne, Function.update_of_ne hne] at hother
  cases hother

theorem write_path {v w : Item α} : ∀ {p q : List Octets}, p ≠ [] → q ≠ [] →
    (∀ m : Object α, write p v m = write q w m) → p = q
  | [], _, hp, _, _ | _, [], _, hp, _ => absurd rfl hp
  | a :: p, b :: q, _, _, h => by
      have hab : a = b := by
        by_contra hab
        have hnone := congrFun (h fun _ => none) a
        rw [write, write, Function.update_self, Function.update_of_ne hab] at hnone
        cases hnone
      subst hab
      have hinner (o : Object α) : (if p = [] then v else .object (write p v o)) =
          if q = [] then w else .object (write q w o) := by
        have hat := congrFun (h (Function.update (fun _ => none) a (some (.object o)))) a
        rw [write, write, Function.update_self, Function.update_self, objectAt_update_self] at hat
        exact Option.some.inj hat
      by_cases hp : p = [] <;> by_cases hq : q = []
      · rw [hp, hq]
      · simp only [if_pos hp, if_neg hq] at hinner
        exact absurd hinner (write_varies hq w v)
      · simp only [if_neg hp, if_pos hq] at hinner
        exact absurd (fun o => (hinner o).symm) (write_varies hp v w)
      · simp only [if_neg hp, if_neg hq, Item.object.injEq] at hinner
        rw [write_path hp hq hinner]

theorem flagValue_iff (h : Missing V schema o names) :
    (∃ raw v, flagValue S key raw names schema = .ok v) ↔
      Settable S (45 :: 45 :: key) schema names := by
  induction h with
  | @here schema _ name =>
      cases hproperty : schema.properties.lookup name with
      | none => simp [flagValue, Settable, hproperty]
      | some property => cases hsecret : property.secret <;> simp [flagValue, Settable, hproperty, hsecret]
  | @inside _ property _ _ _ _ hproperty htype _ hmissing ih =>
      cases hsecret : property.secret <;>
        simp [flagValue, Settable, hproperty, hsecret, htype, hmissing.ne_nil, ih]

theorem works_iff (h : names ≠ []) : Works S schema names key ↔ key ∉ reservedFlags ∧
    flagPath key = names ∧ ∃ raw v, flagValue S key raw names schema = .ok v := by
  refine and_congr_right fun _ => ?_
  simp only [setTypedFlag_eq, written]
  constructor
  · rintro ⟨raw, v, hsets⟩
    cases hw : flagValue S key raw (flagPath key) schema with
    | error e =>
        rw [hw] at hsets
        cases hsets fun _ => none
    | ok w =>
        rw [hw] at hsets
        have hpath : flagPath key = names := write_path
          (fun h => List.splitOn_ne_nil _ _ (List.map_eq_nil_iff.mp h)) h
          fun m => Except.ok.inj (hsets m)
        exact ⟨hpath, raw, w, hpath ▸ hw⟩
  · rintro ⟨rfl, raw, v, hv⟩
    exact ⟨raw, v, fun m => congrArg _ hv⟩

theorem bracket_optionPath {path : Octets} (h : 91 ∈ path) : 91 ∈ optionPath path := by
  unfold optionPath
  split_ifs with hprefix
  · obtain ⟨rest, rfl⟩ := hprefix
    exact (List.mem_append.mp h).resolve_left (by decide)
  · exact h

theorem run_ascii (L : ToLower) {bs : Octets} (h : ∀ b ∈ bs, b < 128) : L.run bs = bs.map small := by
  induction bs with
  | nil => exact L.nil
  | cons b bs ih =>
      obtain ⟨hb, hbs⟩ := List.forall_mem_cons.mp h
      have hcons := L.ascii [] b bs hb
      rwa [L.nil, ih hbs] at hcons

theorem camelPathToKebab_reserved (L : ToLower) : ∀ r ∈ reservedFlags, camelPathToKebab L r = r := by
  have hsplit : ∀ r ∈ reservedFlags, r.splitOn 46 = [r] ∧ dashes r = r ∧ (∀ b ∈ r, b < 128) ∧
      r.map small = r := by decide +kernel
  intro r hr
  obtain ⟨hone, hdashes, hascii, hsmall⟩ := hsplit r hr
  rw [camelPathToKebab, hone, List.map_singleton, hdashes, run_ascii L hascii, hsmall]
  exact List.append_nil r

theorem mem_collectMissingInputs {name : Octets} (h : name ∈ schema.required)
    (hgiven : V.given (o name) = false) :
    missingInput L schema field name ∈ collectMissingInputs L V o schema field := by
  rw [collectMissingInputs]
  exact List.mem_append_left _ (List.mem_map_of_mem (List.mem_filter.mpr ⟨h, by rw [hgiven]; rfl⟩))

namespace Demo

theorem mark_small {s : Octets} (ha : a < 65) (h : a ∈ s.map small) : a ∈ s := by
  obtain ⟨b, hb, rfl⟩ := List.mem_map.mp h
  by_cases hcapital : 65 ≤ b ∧ b ≤ 90
  · have := (small_capital hcapital).2.1
    grind
  · rwa [small, if_neg hcapital]

/-- Nothing but ASCII has small letters. -/
def lower : ToLower where
  run := List.map small
  nil := rfl
  ascii _ _ _ _ := List.map_append
  hyphen _ := mark_small (by decide)
  dot _ := mark_small (by decide)

def view : View Octets := ⟨List.isEmpty, fun _ => []⟩

/-- A schema that requires `N`. -/
def upper : InputSchema Octets := .mk objectType [([78], .mk [] [] none [] false [])] none [] false [[78]]

end Demo

end Cli
