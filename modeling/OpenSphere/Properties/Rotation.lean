import Mathlib.Data.List.Perm.Subperm
import OpenSphere.Extension.Rotation

/-!
# Every registration in its turn

While the list does not change, the choice goes round the registrations in the order of their
names: after each call, the rotation of the list begins with the next of them.  It does so as long
as every registration that is chosen passes `exactRegistration`, since one that does not leaves the
last name as it is and is chosen again.
-/

open Js (Value Collation)

namespace Extension

variable {i : ℕ} {rest : List Entry}

/-! ## Rotations -/

section

variable (collation : Collation)

def rotation (last : String) (entries : List Entry) : List Entry :=
  entries.filter (fun e => decide (0 < collation.compare e.name last)) ++
    entries.filter fun e => !decide (0 < collation.compare e.name last)

/-- The entries are in order, and no two of them have names that compare as equal. -/
def Ascending (entries : List Entry) : Prop :=
  entries.Pairwise fun a b => collation.compare a.name b.name < 0

variable {collation} {last : String} {entries upper lower : List Entry} {e : Entry}

theorem rotation_perm (last : String) (entries : List Entry) :
    (rotation collation last entries).Perm entries := List.filter_append_perm ..

theorem next_eq (htruthy : ∀ e ∈ entries, e.registration.truthy = true) :
    next collation last entries = (rotation collation last entries).head? := by
  rw [rotation, List.head?_append, List.head?_filter, next]
  cases hfind : entries.find? fun e => decide (0 < collation.compare e.name last) with
  | some e =>
      rw [Option.some_or]
      exact if_pos (htruthy e (List.mem_of_find?_eq_some hfind))
  | none =>
      have hall : entries.filter (fun e => !decide (0 < collation.compare e.name last)) = entries := by
        rw [List.filter_eq_self]
        intro e he
        have hnot := List.find?_eq_none.mp hfind e he
        simpa using hnot
      rw [Option.none_or, hall]

/-- From the name of an entry on, the rotation begins after it and ends with it. -/
theorem rotation_from (h : Ascending collation (lower ++ e :: upper)) :
    rotation collation e.name (lower ++ e :: upper) = upper ++ lower ++ [e] := by
  obtain ⟨-, hupper, hlower⟩ := List.pairwise_append.mp h
  have habove : ∀ a ∈ upper, decide (0 < collation.compare a.name e.name) = true := by
    intro a ha
    exact decide_eq_true ((collation.swap e.name a.name).mp ((List.pairwise_cons.mp hupper).1 a ha))
  have hbelow : ∀ a ∈ lower, decide (0 < collation.compare a.name e.name) = false := by
    intro a ha
    have hlt := hlower a ha e (List.mem_cons_self ..)
    exact decide_eq_false (by omega)
  have hself : decide (0 < collation.compare e.name e.name) = false := by
    rw [collation.refl]
    rfl
  rw [rotation, List.filter_append, List.filter_append, List.filter_cons, List.filter_cons, hself,
    List.filter_eq_nil_iff.mpr (by simpa using hbelow), List.filter_eq_self.mpr habove,
    List.filter_eq_self.mpr (by simpa using hbelow),
    List.filter_eq_nil_iff.mpr (by simpa using habove)]
  simp

/-- The entries after a name stand behind the others. -/
theorem filter_append_filter (h : Ascending collation entries) (last : String) :
    entries.filter (fun e => !decide (0 < collation.compare e.name last)) ++
      entries.filter (fun e => decide (0 < collation.compare e.name last)) = entries := by
  induction entries with
  | nil => rfl
  | cons a entries ih =>
      obtain ⟨ha, hrest⟩ := List.pairwise_cons.mp h
      by_cases habove : 0 < collation.compare a.name last
      · have hall : ∀ b ∈ entries, 0 < collation.compare b.name last := by
          intro b hb
          rw [← collation.swap]
          exact collation.lt_of_lt_of_le ((collation.swap ..).mpr habove) (ha b hb).le
        rw [List.filter_eq_nil_iff.mpr, List.nil_append, List.filter_eq_self.mpr]
        · simpa [habove] using hall
        · simpa [habove] using hall
      · rw [List.filter_cons_of_pos (by simpa using habove),
          List.filter_cons_of_neg (by simpa using habove), List.cons_append, ih hrest]

/-- The head of a rotation is somewhere among the entries. -/
theorem exists_split (h : Ascending collation entries)
    (hrotation : rotation collation last entries = e :: rest) :
    ∃ lower upper, entries = lower ++ e :: upper ∧ rest = upper ++ lower := by
  have hsplit := filter_append_filter h last
  unfold rotation at hrotation
  cases hupper : entries.filter fun e => decide (0 < collation.compare e.name last) with
  | nil =>
      rw [hupper, List.nil_append] at hrotation
      rw [hupper, List.append_nil, hrotation] at hsplit
      exact ⟨[], rest, hsplit.symm, (List.append_nil rest).symm⟩
  | cons a upper =>
      rw [hupper, List.cons_append, List.cons.injEq] at hrotation
      obtain ⟨rfl, rfl⟩ := hrotation
      rw [hupper] at hsplit
      exact ⟨_, upper, hsplit.symm, rfl⟩

/-- Once its head is remembered, the rotation goes on with the next. -/
theorem rotation_next (h : Ascending collation entries)
    (hrotation : rotation collation last entries = e :: rest) :
    rotation collation e.name entries = rest ++ [e] := by
  obtain ⟨lower, upper, rfl, rfl⟩ := exists_split h hrotation
  exact rotation_from h

/-- An entry whose name compares as equal to an earlier one is never the choice. -/
theorem next_ne {earlier later : List Entry} {a b : Entry} (ha : a ∈ earlier)
    (hab : 0 ≤ collation.compare a.name b.name) (hb : b ∉ earlier) :
    next collation last (earlier ++ b :: later) ≠ some b := by
  have hhead : (earlier ++ b :: later).head? ≠ some b := by
    obtain ⟨c, earlier, rfl⟩ := List.exists_cons_of_ne_nil (List.ne_nil_of_mem ha)
    rw [List.cons_append, List.head?_cons, ne_eq, Option.some.injEq]
    rintro rfl
    exact hb (List.mem_cons_self ..)
  intro hnext
  unfold next at hnext
  split at hnext
  next e hfind =>
    split at hnext
    · cases hnext
      obtain ⟨habove, before, after, hsplit, hbefore⟩ := List.find?_eq_some_iff_append.mp hfind
      -- what is found is where `b` is, and so `a` comes before it
      have hmem : a ∈ before := by
        rcases List.append_eq_append_iff.mp hsplit with ⟨l, rfl, hl⟩ | ⟨l, rfl, hl⟩
        · exact List.mem_append_left _ ha
        · cases l with
          | nil =>
              rw [List.append_nil] at ha
              exact ha
          | cons c l =>
              rw [List.cons_append, List.cons.injEq] at hl
              exact absurd (by rw [hl.1]; simp) hb
      have hnot := hbefore a hmem
      simp only [decide_eq_true_eq, Bool.not_eq_true', decide_eq_false_iff_not] at habove hnot
      have hle := collation.lt_of_lt_of_le ((collation.swap ..).mpr habove)
        (show collation.compare b.name a.name ≤ 0 by
          have hswap := collation.swap a.name b.name
          have hswap' := collation.swap b.name a.name
          omega)
      exact hnot ((collation.swap ..).mp hle)
    · exact hhead hnext
  next => exact hhead hnext

end

/-! ## The entries of a list -/

theorem entryOf_ok {x : Value} {e : Entry} (h : entryOf (x, i) = .ok e) :
    e.index = i ∧ e.registration = x ∧ textOf ((x.get "metadata").get "name") = .ok e.name := by
  unfold entryOf at h
  cases hname : textOf ((x.get "metadata").get "name") with
  | error f =>
      rw [hname] at h
      cases h
  | ok name =>
      rw [hname] at h
      cases h
      exact ⟨rfl, rfl, rfl⟩

theorem entries_spec {items : List Value} : ∀ {k : ℕ} {entries : List Entry},
    (items.zipIdx k).mapM entryOf = .ok entries →
      entries.map (·.index) = List.range' k items.length ∧ entries.map (·.registration) = items ∧
        ∀ e ∈ entries, textOf ((e.registration.get "metadata").get "name") = .ok e.name := by
  induction items with
  | nil =>
      intro k entries h
      cases h
      exact ⟨rfl, rfl, fun _ h => nomatch h⟩
  | cons x items ih =>
      intro k entries h
      rw [List.zipIdx_cons, List.mapM_cons] at h
      cases he : entryOf (x, k) with
      | error f =>
          rw [he] at h
          cases h
      | ok e =>
          cases hrest : (items.zipIdx (k + 1)).mapM entryOf with
          | error f =>
              rw [he, hrest] at h
              cases h
          | ok rest =>
              rw [he, hrest] at h
              cases h
              obtain ⟨hindex, hregistration, hname⟩ := entryOf_ok he
              obtain ⟨hindices, hregistrations, hnames⟩ := ih hrest
              refine ⟨?_, ?_, List.forall_mem_cons.mpr ⟨?_, hnames⟩⟩
              · rw [List.map_cons, hindex, hindices, List.length_cons, List.range'_succ]
              · rw [List.map_cons, hregistration, hregistrations]
              · rwa [hregistration]

theorem ordered_perm (collation : Collation) (entries : List Entry) :
    (ordered collation entries).Perm entries := List.mergeSort_perm ..

/-! ## Calls -/

/-- The registration of an entry passes `exactRegistration`. -/
def Accepted (namespace' : String) (e : Entry) : Prop :=
  ∃ current, exactRegistration namespace' e.registration = .ok current

def registrations (listed : Value) : List Value := (itemsOf listed).getD []

/-- Every registration has a name that is a text and differs from the other names, there are not
too many of them, each is an object, and all but the last in the rotation pass
`exactRegistration`. -/
def Fair (collation : Collation) (namespace' : String) (items : List Value) (last : String) : Prop :=
  ∃ entries, items.zipIdx.mapM entryOf = .ok entries ∧ items.length ≤ 256 ∧
    Ascending collation (ordered collation entries) ∧
    (∀ x ∈ items, x.truthy = true) ∧
    ∀ e ∈ (rotation collation last (ordered collation entries)).dropLast, Accepted namespace' e

section

variable {σ : Type} {collation : Collation} {namespace' : String} {listed : Value}
  {reconcile : ℕ → Registration → Except Fault σ} {last : String}

/-- The places of the registrations that some calls choose. -/
def selections (collation : Collation) (namespace' : String) (listed : Value)
    (reconcile : ℕ → Registration → Except Fault σ) (n : ℕ) (last : String) : List (Option ℕ) :=
  (calls collation namespace' listed reconcile n last).map Outcome.selected

structure Listing (listed : Value) (entries : List Entry) : Prop where
  items : ∃ items, itemsOf listed = some items ∧ items.length ≤ 256 ∧
    items.zipIdx.mapM entryOf = .ok entries

namespace Listing

variable {entries : List Entry} {last : String} {e : Entry}

theorem call (h : Listing listed entries) (reconcile : Registration → Except Fault σ)
    (last : String) : reconcileOnce collation namespace' listed reconcile last =
      match next collation last (ordered collation entries) with
      | none => (.idle, "")
      | some e =>
          if e.registration.truthy then take namespace' reconcile last e else (.idle, "") := by
  obtain ⟨items, hitems, hlength, hentries⟩ := h.items
  rw [reconcileOnce, hitems]
  simp only [if_neg (not_lt.mpr hlength), hentries] <;> rfl

theorem indices (h : Listing listed entries) :
    entries.map (·.index) = List.range (registrations listed).length := by
  obtain ⟨items, hitems, -, hentries⟩ := h.items
  rw [registrations, hitems, Option.getD_some, (entries_spec hentries).1, List.range_eq_range']

theorem indices_perm (h : Listing listed entries) (collation : Collation) :
    ((ordered collation entries).map (·.index)).Perm
      (List.range (registrations listed).length) := by
  rw [← h.indices]
  exact (ordered_perm collation entries).map _

theorem length_ordered (h : Listing listed entries) (collation : Collation) :
    (ordered collation entries).length = (registrations listed).length := by
  have hlength := (h.indices_perm collation).length_eq
  rwa [List.length_map, List.length_range] at hlength

theorem registrations_eq (h : Listing listed entries) :
    entries.map (·.registration) = registrations listed := by
  obtain ⟨items, hitems, -, hentries⟩ := h.items
  rw [registrations, hitems, Option.getD_some, (entries_spec hentries).2.1]

theorem truthy (h : Listing listed entries) (collation : Collation)
    (htruthy : ∀ x ∈ registrations listed, x.truthy = true) :
    ∀ e ∈ ordered collation entries, e.registration.truthy = true := by
  intro e he
  refine htruthy _ ?_
  rw [← h.registrations_eq]
  exact List.mem_map_of_mem ((ordered_perm collation entries).mem_iff.mp he)

theorem exactRegistration_name {r : Value} {current : Registration}
    (h : exactRegistration namespace' r = .ok current) :
    textOf ((metadata r).get "name") = .ok current.name := by
  unfold exactRegistration at h
  cases hname : textOf ((metadata r).get "name") with
  | error f =>
      rw [hname] at h
      cases h
  | ok name =>
      simp only [hname, bind, Except.bind, pure, Except.pure] at h
      split at h
      · cases h
      · split at h
        · cases h
        · split at h
          · cases h
          · split at h
            · cases h
            · split at h
              · cases h
              · split at h
                · cases h
                  rfl
                · cases h

theorem name_eq (h : Listing listed entries) (he : e ∈ entries) {current : Registration}
    (hcurrent : exactRegistration namespace' e.registration = .ok current) :
    current.name = e.name := by
  obtain ⟨items, -, -, hentries⟩ := h.items
  have hname := (entries_spec hentries).2.2 e he
  have hsame : (metadata e.registration).get "name" =
      (e.registration.get "metadata").get "name" := by
    unfold metadata Value.or
    split_ifs with htruthy
    · rfl
    · cases hm : e.registration.get "metadata" with
      | object ms =>
          rw [hm] at htruthy
          exact absurd rfl htruthy
      | _ => rfl
  have hexact := exactRegistration_name hcurrent
  rw [hsame, hname, Except.ok.injEq] at hexact
  exact hexact.symm

theorem call_cons (h : Listing listed entries)
    (htruthy : ∀ x ∈ registrations listed, x.truthy = true)
    (reconcile : Registration → Except Fault σ)
    (hrotation : rotation collation last (ordered collation entries) = e :: rest) :
    reconcileOnce collation namespace' listed reconcile last = take namespace' reconcile last e := by
  have hordered := h.truthy collation htruthy
  have he : e ∈ ordered collation entries := by
    rw [← (rotation_perm last _).mem_iff, hrotation]
    exact List.mem_cons_self ..
  rw [h.call, next_eq hordered, hrotation, List.head?_cons]
  exact if_pos (hordered e he)

/-- One whose registration passes is remembered, and the rotation goes on. -/
theorem calls_accepted (h : Listing listed entries)
    (hascending : Ascending collation (ordered collation entries))
    (htruthy : ∀ x ∈ registrations listed, x.truthy = true)
    (hrotation : rotation collation last (ordered collation entries) = e :: rest)
    (haccepted : Accepted namespace' e) (reconcile : ℕ → Registration → Except Fault σ) (n : ℕ) :
    selections collation namespace' listed reconcile (n + 1) last =
        some e.index :: selections collation namespace' listed reconcile n e.name ∧
      rotation collation e.name (ordered collation entries) = rest ++ [e] := by
  obtain ⟨current, hcurrent⟩ := haccepted
  have he : e ∈ entries := by
    rw [← (ordered_perm collation entries).mem_iff, ← (rotation_perm last _).mem_iff, hrotation]
    exact List.mem_cons_self ..
  refine ⟨?_, rotation_next hascending hrotation⟩
  rw [selections, calls, List.map_cons, h.call_cons htruthy _ hrotation, take, hcurrent]
  dsimp only
  rw [h.name_eq he hcurrent]
  rfl

theorem calls_refused (h : Listing listed entries)
    (htruthy : ∀ x ∈ registrations listed, x.truthy = true)
    (hrotation : rotation collation last (ordered collation entries) = e :: rest)
    (hrefused : ¬ Accepted namespace' e) (n : ℕ) :
    selections collation namespace' listed reconcile n last = List.replicate n (some e.index) := by
  induction n with
  | zero => rfl
  | succ n ih =>
      cases hexact : exactRegistration namespace' e.registration with
      | ok current => exact absurd ⟨current, hexact⟩ hrefused
      | error f =>
          have hcall : reconcileOnce collation namespace' listed (reconcile n) last =
              take namespace' (reconcile n) last e := h.call_cons htruthy (reconcile n) hrotation
          rw [take, hexact] at hcall
          rw [selections, calls, List.map_cons, hcall, List.replicate_succ]
          exact congrArg _ ih

theorem rotation_length (h : Listing listed entries) (collation : Collation) (last : String) :
    (rotation collation last (ordered collation entries)).length = (registrations listed).length := by
  rw [(rotation_perm last _).length_eq, h.length_ordered collation]

/-- As long as the registrations pass, the calls choose the rotation. -/
theorem selections_eq (h : Listing listed entries)
    (hascending : Ascending collation (ordered collation entries))
    (htruthy : ∀ x ∈ registrations listed, x.truthy = true) :
    ∀ n last, n ≤ (registrations listed).length →
      (∀ e ∈ ((rotation collation last (ordered collation entries)).take n).dropLast,
        Accepted namespace' e) →
      selections collation namespace' listed reconcile n last =
        ((rotation collation last (ordered collation entries)).take n).map (some ·.index) := by
  intro n
  induction n with
  | zero => exact fun _ _ _ => rfl
  | succ n ih =>
      intro last hn haccepted
      have hlength := h.rotation_length collation last
      cases hrotation : rotation collation last (ordered collation entries) with
      | nil =>
          rw [hrotation, List.length_nil] at hlength
          omega
      | cons e rest =>
          rw [hrotation, List.length_cons] at hlength
          rw [hrotation, List.take_succ_cons] at haccepted
          by_cases hlast : n = 0
          · subst hlast
            rw [selections, calls, List.map_cons, h.call_cons htruthy _ hrotation, take]
            cases exactRegistration namespace' e.registration <;> rfl
          · have hne : rest.take n ≠ [] := by
              rw [ne_eq, List.take_eq_nil_iff, not_or]
              exact ⟨hlast, List.ne_nil_of_length_pos (by omega)⟩
            rw [List.dropLast_cons_of_ne_nil hne, List.forall_mem_cons] at haccepted
            obtain ⟨hselections, hnext⟩ :=
              h.calls_accepted hascending htruthy hrotation haccepted.1 reconcile n
            rw [hselections, ih e.name (by omega), hnext, List.take_append_of_le_length (by omega)]
            · rfl
            · rw [hnext, List.take_append_of_le_length (by omega)]
              exact haccepted.2

/-- Calls that choose no registration twice choose those that pass, but for the last. -/
theorem accepted_of_nodup (h : Listing listed entries)
    (hascending : Ascending collation (ordered collation entries))
    (htruthy : ∀ x ∈ registrations listed, x.truthy = true) :
    ∀ n last, n ≤ (registrations listed).length →
      (selections collation namespace' listed reconcile n last).Nodup →
      ∀ e ∈ ((rotation collation last (ordered collation entries)).take n).dropLast,
        Accepted namespace' e := by
  intro n
  induction n with
  | zero => exact fun _ _ _ _ he => nomatch he
  | succ n ih =>
      intro last hn hnodup
      have hlength := h.rotation_length collation last
      cases hrotation : rotation collation last (ordered collation entries) with
      | nil => exact fun _ he => nomatch he
      | cons e rest =>
          rw [hrotation, List.length_cons] at hlength
          rw [List.take_succ_cons]
          by_cases hlast : n = 0
          · subst hlast
            exact fun _ he => nomatch he
          · have hne : rest.take n ≠ [] := by
              rw [ne_eq, List.take_eq_nil_iff, not_or]
              exact ⟨hlast, List.ne_nil_of_length_pos (by omega)⟩
            have haccepted : Accepted namespace' e := by
              by_contra hrefused
              rw [h.calls_refused htruthy hrotation hrefused] at hnodup
              have hone := List.nodup_replicate.mp hnodup
              omega
            obtain ⟨hselections, hnext⟩ :=
              h.calls_accepted hascending htruthy hrotation haccepted reconcile n
            rw [hselections] at hnodup
            have hrest := ih e.name (by omega) (List.nodup_cons.mp hnodup).2
            rw [hnext, List.take_append_of_le_length (by omega)] at hrest
            rw [List.dropLast_cons_of_ne_nil hne, List.forall_mem_cons]
            exact ⟨haccepted, hrest⟩

theorem registration_at (h : Listing listed entries) (he : e ∈ entries) :
    (registrations listed)[e.index]? = some e.registration := by
  obtain ⟨i, hi, rfl⟩ := List.mem_iff_getElem.mp he
  have hindex := List.getElem_of_eq h.indices (i := i) (by rwa [List.length_map])
  rw [List.getElem_map, List.getElem_range] at hindex
  rw [← h.registrations_eq, hindex, List.getElem?_map, List.getElem?_eq_getElem hi]
  rfl

theorem index_injective (h : Listing listed entries) {a b : Entry}
    (ha : a ∈ ordered collation entries) (hb : b ∈ ordered collation entries)
    (hab : a.index = b.index) : a = b :=
  List.inj_on_of_nodup_map ((h.indices_perm collation).nodup_iff.mpr List.nodup_range) ha hb hab

end Listing

theorem choice_of_selected {reconcile : Registration → Except Fault σ}
    (h : (reconcileOnce collation namespace' listed reconcile last).1.selected = some i) :
    ∃ entries e, Listing listed entries ∧
      next collation last (ordered collation entries) = some e ∧
      e.registration.truthy = true ∧ e.index = i := by
  unfold reconcileOnce at h
  split at h
  next => cases h
  next items hitems =>
    split_ifs at h with hlength
    · cases h
    · split at h
      next => cases h
      next entries hentries =>
        split at h
        next => cases h
        next e hnext =>
          split_ifs at h with htruthy
          · refine ⟨entries, e, ⟨items, hitems, not_lt.mp hlength, hentries⟩, hnext, htruthy, ?_⟩
            unfold take at h
            split at h <;> exact Option.some.inj h
          · cases h

theorem choice_of_mem : ∀ {n : ℕ} {last : String},
    some i ∈ selections collation namespace' listed reconcile n last →
      ∃ entries e last', Listing listed entries ∧
        next collation last' (ordered collation entries) = some e ∧
        e.registration.truthy = true ∧ e.index = i := by
  intro n
  induction n with
  | zero => exact fun h => nomatch h
  | succ n ih =>
      intro last h
      rw [selections, calls, List.map_cons, List.mem_cons] at h
      rcases h with h | h
      · obtain ⟨entries, e, hchoice⟩ := choice_of_selected h.symm
        exact ⟨entries, e, last, hchoice⟩
      · exact ih h

theorem next_mem {entries : List Entry} {e : Entry}
    (h : next collation last entries = some e) : e ∈ entries := by
  unfold next at h
  split at h
  next a hfind =>
    split_ifs at h
    · cases h
      exact List.mem_of_find?_eq_some hfind
    · exact List.mem_of_head? h
  next => exact List.mem_of_head? h

theorem Listing.unique {entries entries' : List Entry} (h : Listing listed entries)
    (h' : Listing listed entries') : entries = entries' := by
  obtain ⟨items, hitems, -, hentries⟩ := h.items
  obtain ⟨items', hitems', -, hentries'⟩ := h'.items
  rw [hitems] at hitems'
  cases hitems'
  rw [hentries] at hentries'
  exact Except.ok.inj hentries'

theorem length_calls (n : ℕ) (last : String) :
    (selections collation namespace' listed reconcile n last).length = n := by
  induction n generalizing last with
  | zero => rfl
  | succ n ih =>
      rw [selections, calls, List.map_cons, List.length_cons]
      exact congrArg (· + 1) (ih _)

/-- As many calls as there are registrations choose none twice if they choose each. -/
theorem nodup_of_count
    (h : ∀ i < (registrations listed).length, (selections collation namespace' listed reconcile
      (registrations listed).length last).count (some i) = 1) :
    (selections collation namespace' listed reconcile (registrations listed).length last).Nodup := by
  have hrange : ((List.range (registrations listed).length).map some).Nodup :=
    List.nodup_range.map (Option.some_injective ℕ)
  have hsubset : (List.range (registrations listed).length).map some ⊆
      selections collation namespace' listed reconcile (registrations listed).length last := by
    intro x hx
    obtain ⟨i, hi, rfl⟩ := List.mem_map.mp hx
    refine List.count_pos_iff.mp ?_
    rw [h i (List.mem_range.mp hi)]
    exact Nat.one_pos
  have hperm := (List.subperm_of_subset hrange hsubset).perm_of_length_le
    (by rw [length_calls, List.length_map, List.length_range])
  exact hperm.nodup_iff.mp hrange

theorem ascending_of_selected {entries : List Entry} (h : Listing listed entries)
    (hselected : ∀ i < (registrations listed).length,
      some i ∈ selections collation namespace' listed reconcile (registrations listed).length last) :
    Ascending collation (ordered collation entries) := by
  rw [Ascending, List.pairwise_iff_getElem]
  intro i j hi hj hij
  by_contra hge
  generalize hb : (ordered collation entries)[j] = b at hge
  have hsplit : ordered collation entries = (ordered collation entries).take j ++
      b :: (ordered collation entries).drop (j + 1) := by
    rw [← hb, List.getElem_cons_drop, List.take_append_drop]
  have hmem : b ∈ ordered collation entries := by
    rw [← hb]
    exact List.getElem_mem hj
  have hindex : b.index < (registrations listed).length := by
    rw [← List.mem_range, ← h.indices]
    exact List.mem_map_of_mem ((ordered_perm collation entries).mem_iff.mp hmem)
  obtain ⟨entries', e, last', h', hnext, -, he⟩ := choice_of_mem (hselected _ hindex)
  cases h.unique h'
  cases h.index_injective (next_mem hnext) hmem he
  have hnodup : (ordered collation entries).Nodup :=
    ((h.indices_perm collation).nodup_iff.mpr List.nodup_range).of_map
  rw [hsplit] at hnext
  refine next_ne (a := (ordered collation entries)[i]) ?_ (not_lt.mp hge) ?_ hnext
  · exact List.mem_take_iff_getElem.mpr ⟨i, by omega, rfl⟩
  · rw [hsplit] at hnodup
    exact fun hb' => (List.nodup_append.mp hnodup).2.2 _ hb' _ (List.mem_cons_self ..) rfl

theorem truthy_of_selected (hselected : ∀ i < (registrations listed).length,
    some i ∈ selections collation namespace' listed reconcile (registrations listed).length last) :
    ∀ x ∈ registrations listed, x.truthy = true := by
  intro x hx
  obtain ⟨i, hi, rfl⟩ := List.mem_iff_getElem.mp hx
  obtain ⟨entries, e, last', h, hnext, htruthy, rfl⟩ := choice_of_mem (hselected i hi)
  have hat := h.registration_at ((ordered_perm collation entries).mem_iff.mp (next_mem hnext))
  rw [List.getElem?_eq_getElem hi, Option.some.injEq] at hat
  rwa [hat]

theorem fair_of_selected
    (h : ∀ i < (registrations listed).length, (selections collation namespace' listed reconcile
      (registrations listed).length last).count (some i) = 1) :
    Fair collation namespace' (registrations listed) last := by
  have hselected : ∀ i < (registrations listed).length,
      some i ∈ selections collation namespace' listed reconcile (registrations listed).length last := by
    intro i hi
    refine List.count_pos_iff.mp ?_
    rw [h i hi]
    exact Nat.one_pos
  have htruthy := truthy_of_selected hselected
  by_cases hempty : registrations listed = []
  · rw [hempty]
    exact ⟨[], rfl, by simp, by simp [Ascending, ordered], by simp, by simp [rotation, ordered]⟩
  · obtain ⟨entries, -, -, hlisting, -⟩ :=
      choice_of_mem (hselected 0 (List.length_pos_iff.mpr hempty))
    have hascending := ascending_of_selected hlisting hselected
    have haccepted := hlisting.accepted_of_nodup hascending htruthy _ last le_rfl (nodup_of_count h)
    obtain ⟨items, hitems, hlength, hentries⟩ := hlisting.items
    have hregistrations : registrations listed = items := by
      rw [registrations, hitems, Option.getD_some]
    rw [List.take_of_length_le (hlisting.rotation_length collation last).le] at haccepted
    rw [hregistrations] at htruthy ⊢
    exact ⟨entries, hentries, hlength, hascending, htruthy, haccepted⟩

theorem selected_of_fair (h : Fair collation namespace' (registrations listed) last)
    (hi : i < (registrations listed).length) : (selections collation namespace' listed reconcile
      (registrations listed).length last).count (some i) = 1 := by
  obtain ⟨entries, hentries, hlength, hascending, htruthy, haccepted⟩ := h
  have hlisting : Listing listed entries := by
    cases hitems : itemsOf listed with
    | none =>
        rw [registrations, hitems] at hi
        exact absurd hi (Nat.not_lt_zero i)
    | some items =>
        rw [registrations, hitems] at hentries hlength
        exact ⟨items, hitems, hlength, hentries⟩
  have htake := List.take_of_length_le
    (hlisting.rotation_length collation last).le
  rw [hlisting.selections_eq hascending htruthy _ last le_rfl (by rwa [htake]), htake]
  have hperm : ((rotation collation last (ordered collation entries)).map (some ·.index)).Perm
      ((List.range (registrations listed).length).map some) := by
    have hrotation : (rotation collation last (ordered collation entries)).Perm
        (ordered collation entries) := rotation_perm last _
    have hsome := ((hrotation.map (·.index)).trans (hlisting.indices_perm collation)).map some
    rwa [List.map_map] at hsome
  rw [hperm.count_eq]
  exact List.count_eq_one_of_mem (List.nodup_range.map (Option.some_injective ℕ))
    (List.mem_map_of_mem (List.mem_range.mpr hi))

/-- As many calls as there are registrations choose each of them exactly once if, and only if, all
but the last in the rotation pass `exactRegistration` and their names tell them apart. -/
theorem rotation_fair_iff (collation : Collation) (namespace' : String) (listed : Value)
    (reconcile : ℕ → Registration → Except Fault σ) (last : String) :
    (∀ i < (registrations listed).length, (selections collation namespace' listed reconcile
      (registrations listed).length last).count (some i) = 1) ↔
      Fair collation namespace' (registrations listed) last :=
  ⟨fair_of_selected, fun h _ hi => selected_of_fair h hi⟩

end

/-! ## A registration that is not as it has to be -/

namespace Demo

/-- The order of code points, which is the one of the language for the names here. -/
def collation : Collation where
  compare s t := if s < t then -1 else if t < s then 1 else 0
  swap s t := by
    rcases lt_trichotomy s t with h | rfl | h
    · simp [h, h.not_gt]
    · simp
    · simp [h, h.not_gt]
  trans s t u hst htu := by
    have hle : ∀ {s t : String}, (if s < t then (-1 : ℤ) else if t < s then 1 else 0) ≤ 0 ↔ s ≤ t := by
      intro s t
      rcases lt_trichotomy s t with h | rfl | h
      · simp [h, h.le]
      · simp
      · simp [h, h.not_gt]
    rw [hle] at *
    exact hst.trans htu
  plain s t _ _ h := by
    rcases lt_trichotomy s t with hlt | rfl | hlt
    · simp [hlt] at h
    · rfl
    · simp [hlt, hlt.not_gt] at h

def registration (name : String) : Value := .ofList [
  ("apiVersion", .string "plugins.opensphere.io/v1alpha1"),
  ("kind", .string "UIPluginRegistration"),
  ("metadata", .ofList [("name", .string name), ("namespace", .string "opensphere-console"),
    ("resourceVersion", .string "7"), ("uid", .string "5f0c"), ("generation", .number "1")]),
  ("spec", .ofList [("packageRef", .ofList [("name", .string name)]),
    ("desiredState", .string "Enabled")])]

/-- Two registrations.  The name of the first is one of Kubernetes, but no label. -/
def listed : Value :=
  .ofList [("items", .array (.ofList [registration "a.b", registration "c"]))]

def entries : List Entry := [⟨0, registration "a.b", "a.b"⟩, ⟨1, registration "c", "c"⟩]

theorem listing : Listing listed entries :=
  ⟨[registration "a.b", registration "c"], rfl, by decide, rfl⟩

theorem ordered_entries : ordered collation entries = entries :=
  List.mergeSort_of_pairwise (by decide)

theorem refused : ¬ Accepted "opensphere-console" ⟨0, registration "a.b", "a.b"⟩ := by
  rintro ⟨current, h⟩
  have hrefused : exactRegistration "opensphere-console" (registration "a.b") =
      .error ⟨"UIPluginRegistration contract is invalid",
        some "RegistrationContractViolation"⟩ := rfl
  rw [hrefused] at h
  cases h

end Demo

theorem refused_again : ¬ ∀ i < (registrations Demo.listed).length,
    (selections Demo.collation "opensphere-console" Demo.listed
      (fun _ _ => (.ok () : Except Fault Unit)) (registrations Demo.listed).length "").count
        (some i) = 1 := by
  intro h
  have hrotation : rotation Demo.collation "" (ordered Demo.collation Demo.entries) =
      ⟨0, Demo.registration "a.b", "a.b"⟩ :: [⟨1, Demo.registration "c", "c"⟩] := by
    rw [Demo.ordered_entries]
    rfl
  have hcount := h 1 (by decide)
  rw [Demo.listing.calls_refused (by decide) hrotation Demo.refused] at hcount
  cases hcount

end Extension
