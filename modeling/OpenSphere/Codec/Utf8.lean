import Mathlib.Data.List.Basic

/-!
# UTF-8

A text is sent as its octets and read back from them.  The reader never fails:
octets that no text has are read as the replacement character, one for each
beginning of a character that breaks off.

`decode_encode` says that a text comes back.  Octets that are not those of a text
do not (`encode_decode_iff`), since whatever is read has octets of its own.  A text that is read in
pieces comes back exactly when no piece ends within a character (`decode_pieces_iff`).
-/

namespace Codec.Utf8

variable {bss : List (List UInt8)} {q : State}

def encode (cs : List Char) : List UInt8 := cs.flatMap String.utf8EncodeChar

def Valid (bs : List UInt8) : Prop := ∃ cs, encode cs = bs

def replacement : Char := Char.ofNat 0xFFFD

structure State where
  /-- The bits it has. -/
  point : Nat
  /-- The octets it waits for. -/
  owed : Nat
  /-- The least and the greatest octet that may come next. -/
  lower : Nat
  upper : Nat

def State.start : State := ⟨0, 0, 0x80, 0xBF⟩

/-- The first octet of a character: what is read, and what is waited for. -/
def first (b : Nat) : List Char × State :=
  if b ≤ 0x7F then ([Char.ofNat b], .start)
  else if 0xC2 ≤ b ∧ b ≤ 0xDF then ([], ⟨b % 32, 1, 0x80, 0xBF⟩)
  else if 0xE0 ≤ b ∧ b ≤ 0xEF then
    ([], ⟨b % 16, 2, if b = 0xE0 then 0xA0 else 0x80, if b = 0xED then 0x9F else 0xBF⟩)
  else if 0xF0 ≤ b ∧ b ≤ 0xF4 then
    ([], ⟨b % 8, 3, if b = 0xF0 then 0x90 else 0x80, if b = 0xF4 then 0x8F else 0xBF⟩)
  else ([replacement], .start)

/-- One octet.  One that does not go on with the character begins another one. -/
def step (q : State) (b : Nat) : List Char × State :=
  if q.owed = 0 then first b
  else if q.lower ≤ b ∧ b ≤ q.upper then
    if q.owed = 1 then ([Char.ofNat (q.point * 64 + b % 64)], .start)
    else ([], ⟨q.point * 64 + b % 64, q.owed - 1, 0x80, 0xBF⟩)
  else (replacement :: (first b).1, (first b).2)

def decodeFrom : State → List UInt8 → List Char
  | q, [] => if q.owed = 0 then [] else [replacement]
  | q, b :: bs => (step q b.toNat).1 ++ decodeFrom (step q b.toNat).2 bs

def decode (bs : List UInt8) : List Char := decodeFrom .start bs

/-! ## A text comes back -/

section

variable {p n lo hi : Nat} {b : UInt8} {bs : List UInt8}

theorem decodeFrom_tail (hlo : lo ≤ b.toNat) (hhi : b.toNat ≤ hi) :
    decodeFrom ⟨p, n + 2, lo, hi⟩ (b :: bs) =
      decodeFrom ⟨p * 64 + b.toNat % 64, n + 1, 0x80, 0xBF⟩ bs := by
  have hstep : step ⟨p, n + 2, lo, hi⟩ b.toNat =
      ([], ⟨p * 64 + b.toNat % 64, n + 1, 0x80, 0xBF⟩) := by
    rw [step, if_neg (by simp), if_pos ⟨hlo, hhi⟩, if_neg (by simp)]
    rfl
  rw [decodeFrom, hstep, List.nil_append]

theorem decodeFrom_last (hlo : lo ≤ b.toNat) (hhi : b.toNat ≤ hi) :
    decodeFrom ⟨p, 1, lo, hi⟩ (b :: bs) =
      Char.ofNat (p * 64 + b.toNat % 64) :: decodeFrom .start bs := by
  have hstep : step ⟨p, 1, lo, hi⟩ b.toNat =
      ([Char.ofNat (p * 64 + b.toNat % 64)], .start) := by
    rw [step, if_neg (by simp), if_pos ⟨hlo, hhi⟩, if_pos rfl]
  rw [decodeFrom, hstep, List.singleton_append]

theorem decodeFrom_first {out : List Char} (h : first b.toNat = (out, q)) :
    decodeFrom .start (b :: bs) = out ++ decodeFrom q bs := by
  have hstep : step .start b.toNat = first b.toNat := if_pos rfl
  rw [decodeFrom, hstep, h]

theorem first_one {b : Nat} (hhi : b ≤ 0x7F) : first b = ([Char.ofNat b], .start) := if_pos hhi

theorem first_two {b : Nat} (hlo : 0xC2 ≤ b) (hhi : b ≤ 0xDF) :
    first b = ([], ⟨b % 32, 1, 0x80, 0xBF⟩) := by
  rw [first, if_neg (by omega), if_pos ⟨hlo, hhi⟩]

theorem first_three {b : Nat} (hlo : 0xE0 ≤ b) (hhi : b ≤ 0xEF) :
    first b = ([], ⟨b % 16, 2, if b = 0xE0 then 0xA0 else 0x80,
      if b = 0xED then 0x9F else 0xBF⟩) := by
  rw [first, if_neg (by omega), if_neg (by omega), if_pos ⟨hlo, hhi⟩]

theorem first_four {b : Nat} (hlo : 0xF0 ≤ b) (hhi : b ≤ 0xF4) :
    first b = ([], ⟨b % 8, 3, if b = 0xF0 then 0x90 else 0x80,
      if b = 0xF4 then 0x8F else 0xBF⟩) := by
  rw [first, if_neg (by omega), if_neg (by omega), if_neg (by omega), if_pos ⟨hlo, hhi⟩]

theorem toNat_ofNat (h : n < 256) : (UInt8.ofNat n).toNat = n := by
  rw [UInt8.toNat_ofNat', Nat.mod_eq_of_lt h]

end

/-- One character after the other.  The cases are the four lengths of an encoding. -/
theorem decodeFrom_char (c : Char) (bs : List UInt8) :
    decodeFrom .start (String.utf8EncodeChar c ++ bs) = c :: decodeFrom .start bs := by
  have hvalid : c.toNat < 0xD800 ∨ 0xDFFF < c.toNat ∧ c.toNat < 0x110000 := c.valid
  have hback : ∀ n, n = c.toNat → Char.ofNat n = c := fun n hn => hn ▸ Char.ofNat_toNat c
  unfold String.utf8EncodeChar
  have hv : c.val.toNat = c.toNat := rfl
  simp only [hv]
  generalize c.toNat = v at hvalid hback
  have htail : (UInt8.ofNat (v % 64 + 128)).toNat = v % 64 + 128 := toNat_ofNat (by omega)
  have hthird : (UInt8.ofNat (v / 64 % 64 + 128)).toNat = v / 64 % 64 + 128 :=
    toNat_ofNat (by omega)
  have hsecond : (UInt8.ofNat (v / 4096 % 64 + 128)).toNat = v / 4096 % 64 + 128 :=
    toNat_ofNat (by omega)
  split
  next h1 =>
    have hlead : (UInt8.ofNat v).toNat = v := toNat_ofNat (by omega)
    rw [List.singleton_append, decodeFrom_first (first_one (by omega)), hlead, hback v rfl]
    rfl
  next h1 =>
    split
    next h2 =>
      have hlead : (UInt8.ofNat (v / 64 % 32 + 192)).toNat = v / 64 + 192 := by
        rw [toNat_ofNat (by omega)]
        omega
      rw [List.cons_append, List.singleton_append,
        decodeFrom_first (first_two (by omega) (by omega)), List.nil_append,
        decodeFrom_last (by omega) (by omega), htail, hlead, hback _ (by omega)]
    next h2 =>
      split
      next h3 =>
        have hlead : (UInt8.ofNat (v / 4096 % 16 + 224)).toNat = v / 4096 + 224 := by
          rw [toNat_ofNat (by omega)]
          omega
        rw [List.cons_append, List.cons_append, List.singleton_append,
          decodeFrom_first (first_three (by omega) (by omega)), List.nil_append, decodeFrom_tail,
          decodeFrom_last (by omega) (by omega), htail, hthird, hlead, hback _ (by omega)]
        · split <;> omega
        · split <;> omega
      next h3 =>
        have hlead : (UInt8.ofNat (v / 262144 % 8 + 240)).toNat = v / 262144 + 240 := by
          rw [toNat_ofNat (by omega)]
          omega
        rw [List.cons_append, List.cons_append, List.cons_append, List.singleton_append,
          decodeFrom_first (first_four (by omega) (by omega)), List.nil_append, decodeFrom_tail,
          decodeFrom_tail (by omega) (by omega), decodeFrom_last (by omega) (by omega), htail,
          hthird, hsecond, hlead, hback _ (by omega)]
        · split <;> omega
        · split <;> omega

/-- A text is read back from its octets. -/
theorem decode_encode (cs : List Char) : decode (encode cs) = cs := by
  induction cs with
  | nil => rfl
  | cons c cs ih =>
      show decodeFrom .start (String.utf8EncodeChar c ++ encode cs) = c :: cs
      rw [decodeFrom_char]
      exact congrArg (c :: ·) ih

/-- What is read has the octets it was read from exactly when they are those of a text. -/
theorem encode_decode_iff {bs : List UInt8} : encode (decode bs) = bs ↔ Valid bs := by
  constructor
  · intro h
    exact ⟨decode bs, h⟩
  · rintro ⟨cs, rfl⟩
    rw [decode_encode]

/-! ## A text in pieces -/

def isTail (b : UInt8) : Bool := decide (0x80 ≤ b.toNat ∧ b.toNat ≤ 0xBF)

def heads (bs : List UInt8) : Nat := bs.countP fun b => !isTail b

/-- What a place in a character still adds to what is read. -/
def State.pending (q : State) : Nat := if q.owed = 0 then 0 else 1

/-- Only what is not a first octet goes on with a character. -/
def State.Sound (q : State) : Prop := 0x80 ≤ q.lower ∧ q.upper ≤ 0xBF

theorem first_spec (b : Nat) :
    (first b).2.Sound ∧ (first b).1.length + (first b).2.pending = 1 := by
  unfold first
  split
  · exact ⟨⟨Nat.le_refl _, Nat.le_refl _⟩, rfl⟩
  · split
    · exact ⟨⟨Nat.le_refl _, Nat.le_refl _⟩, rfl⟩
    · split
      · refine ⟨⟨?_, ?_⟩, rfl⟩ <;> dsimp only <;> split <;> decide
      · split
        · refine ⟨⟨?_, ?_⟩, rfl⟩ <;> dsimp only <;> split <;> decide
        · exact ⟨⟨Nat.le_refl _, Nat.le_refl _⟩, rfl⟩

/-- One octet reads no less than it begins. -/
theorem step_spec (hq : q.Sound) (b : UInt8) : (step q b.toNat).2.Sound ∧
    q.pending + heads [b] ≤ (step q b.toNat).1.length + (step q b.toNat).2.pending := by
  obtain ⟨hsound, hfirst⟩ := first_spec b.toNat
  have hone : heads [b] ≤ 1 := List.countP_le_length
  unfold step State.pending
  split
  next =>
    refine ⟨hsound, ?_⟩
    rw [State.pending] at hfirst
    omega
  next hmid =>
    split
    next hin =>
      have htail : heads [b] = 0 := by
        have hb : isTail b = true := decide_eq_true ⟨Nat.le_trans hq.1 hin.1, Nat.le_trans hin.2 hq.2⟩
        rw [heads, List.countP_eq_zero]
        simp [hb]
      rw [htail]
      split
      · exact ⟨⟨Nat.le_refl _, Nat.le_refl _⟩, Nat.le_refl _⟩
      · refine ⟨⟨Nat.le_refl _, Nat.le_refl _⟩, ?_⟩
        dsimp only
        rw [if_neg (by omega)]
        exact Nat.le_add_left ..
    next =>
      refine ⟨hsound, ?_⟩
      rw [State.pending] at hfirst
      dsimp only
      rw [List.length_cons]
      omega

theorem heads_cons (b : UInt8) (bs : List UInt8) : heads (b :: bs) = heads [b] + heads bs := by
  rw [heads, heads, heads, ← List.countP_append]
  rfl

theorem heads_append (bs bs' : List UInt8) : heads (bs ++ bs') = heads bs + heads bs' :=
  List.countP_append ..

theorem length_decodeFrom (bs : List UInt8) (hq : q.Sound) :
    q.pending + heads bs ≤ (decodeFrom q bs).length := by
  induction bs generalizing q with
  | nil =>
      rw [decodeFrom, State.pending]
      split <;> exact Nat.le_refl _
  | cons b bs ih =>
      obtain ⟨hsound, hstep⟩ := step_spec hq b
      have hrest := ih hsound
      rw [decodeFrom, List.length_append, heads_cons]
      omega

theorem length_decode (bs : List UInt8) : heads bs ≤ (decode bs).length :=
  Nat.le_trans (Nat.le_add_left ..) (length_decodeFrom bs ⟨Nat.le_refl _, Nat.le_refl _⟩)

/-- The first octet is read as something, whatever it is. -/
theorem length_decode_cons (b : UInt8) (bs : List UInt8) :
    1 + heads bs ≤ (decode (b :: bs)).length := by
  obtain ⟨hsound, hfirst⟩ := first_spec b.toNat
  have hrest := length_decodeFrom bs hsound
  have hdecode : decode (b :: bs) = (first b.toNat).1 ++ decodeFrom (first b.toNat).2 bs :=
    decodeFrom_first rfl
  rw [hdecode, List.length_append]
  omega

theorem length_pieces (bss : List (List UInt8)) :
    heads bss.flatten ≤ (bss.flatMap decode).length := by
  induction bss with
  | nil => exact Nat.le_refl _
  | cons bs bss ih =>
      have hfirst := length_decode bs
      rw [List.flatten_cons, List.flatMap_cons, heads_append, List.length_append]
      omega

theorem length_pieces_cons {b : UInt8} {bs : List UInt8}
    (h : bss.flatten = b :: bs) : 1 + heads bs ≤ (bss.flatMap decode).length := by
  induction bss with
  | nil => cases h
  | cons piece bss ih =>
      cases piece with
      | nil => exact ih h
      | cons b' piece =>
          rw [List.flatten_cons, List.cons_append, List.cons.injEq] at h
          obtain ⟨-, rfl⟩ := h
          have hfirst := length_decode_cons b' piece
          have hrest := length_pieces bss
          rw [List.flatMap_cons, heads_append, List.length_append]
          omega

/-- A character begins with its first octet, and the others do not begin anything. -/
theorem utf8EncodeChar_spec (c : Char) :
    ∃ b bs, String.utf8EncodeChar c = b :: bs ∧ isTail b = false ∧ ∀ x ∈ bs, isTail x = true := by
  have hvalid : c.toNat < 0xD800 ∨ 0xDFFF < c.toNat ∧ c.toNat < 0x110000 := c.valid
  have hv : c.val.toNat = c.toNat := rfl
  unfold String.utf8EncodeChar
  simp only [hv]
  generalize c.toNat = v at hvalid
  have htail (n : Nat) : isTail (UInt8.ofNat (n % 64 + 128)) = true := by
    rw [isTail, toNat_ofNat (by omega)]
    exact decide_eq_true (by omega)
  have hhead {n : Nat} (hn : n < 128 ∨ 192 ≤ n ∧ n < 256) : isTail (UInt8.ofNat n) = false := by
    rw [isTail, toNat_ofNat (by omega)]
    exact decide_eq_false (by omega)
  split
  · exact ⟨_, _, rfl, hhead (by omega), fun x hx => (List.not_mem_nil hx).elim⟩
  · split
    · refine ⟨_, _, rfl, hhead (by omega), fun x hx => ?_⟩
      rw [List.mem_singleton.mp hx]
      exact htail v
    · split
      · refine ⟨_, _, rfl, hhead (by omega), fun x hx => ?_⟩
        simp only [List.mem_cons, List.not_mem_nil, or_false] at hx
        rcases hx with rfl | rfl
        · exact htail (v / 64)
        · exact htail v
      · refine ⟨_, _, rfl, hhead (by omega), fun x hx => ?_⟩
        simp only [List.mem_cons, List.not_mem_nil, or_false] at hx
        rcases hx with rfl | rfl | rfl
        · exact htail (v / 4096)
        · exact htail (v / 64)
        · exact htail v

/-- A text has as many characters as first octets. -/
theorem heads_encode (cs : List Char) : heads (encode cs) = cs.length := by
  induction cs with
  | nil => rfl
  | cons c cs ih =>
      obtain ⟨b, bs, hc, hhead, htail⟩ := utf8EncodeChar_spec c
      have hfirst : heads [b] = 1 := by simp [heads, hhead]
      have hrest : heads bs = 0 := by
        rw [heads, List.countP_eq_zero]
        intro x hx
        simp [htail x hx]
      show heads (String.utf8EncodeChar c ++ encode cs) = cs.length + 1
      rw [heads_append, hc, heads_cons, hfirst, hrest, ih]
      omega

theorem valid_append {bs bs' : List UInt8} (h : Valid bs) (h' : Valid bs') : Valid (bs ++ bs') := by
  obtain ⟨cs, rfl⟩ := h
  obtain ⟨ds, rfl⟩ := h'
  exact ⟨cs ++ ds, List.flatMap_append⟩

/-- Where a text is cut in two, the first part is a text, or the second goes on with a character. -/
theorem cut_cases {bs rest : List UInt8} : ∀ {cs : List Char}, encode cs = bs ++ rest →
    Valid bs ∨ ∃ b bs', rest = b :: bs' ∧ isTail b = true
  | [], h => by
      have hnil : bs = [] := (List.append_eq_nil_iff.mp h.symm).1
      exact .inl ⟨[], hnil.symm⟩
  | c :: cs, h => by
      have hc : String.utf8EncodeChar c ++ encode cs = bs ++ rest := h
      obtain ⟨b, tail, hchar, -, htail⟩ := utf8EncodeChar_spec c
      rcases List.append_eq_append_iff.mp hc with ⟨more, rfl, hrest⟩ | ⟨more, hmore, hrest⟩
      · -- the first part holds the character
        rcases cut_cases hrest with hvalid | hcut
        · exact .inl (valid_append ⟨[c], List.flatMap_singleton ..⟩ hvalid)
        · exact .inr hcut
      · cases more with
        | nil =>
            rw [List.append_nil] at hmore
            exact .inl ⟨[c], (List.flatMap_singleton ..).trans hmore⟩
        | cons x more =>
            cases bs with
            | nil => exact .inl ⟨[], rfl⟩
            | cons b' bs =>
                rw [hchar, List.cons_append, List.cons.injEq] at hmore
                refine .inr ⟨x, more ++ encode cs, hrest, htail x ?_⟩
                rw [hmore.2]
                simp

theorem decode_encode_append (cs : List Char) (bs : List UInt8) :
    decode (encode cs ++ bs) = cs ++ decode bs := by
  induction cs with
  | nil => rfl
  | cons c cs ih =>
      show decodeFrom .start (String.utf8EncodeChar c ++ encode cs ++ bs) = c :: (cs ++ decode bs)
      rw [List.append_assoc, decodeFrom_char]
      exact congrArg (c :: ·) ih

theorem decode_pieces (h : ∀ bs ∈ bss, Valid bs) :
    bss.flatMap decode = decode bss.flatten := by
  induction bss with
  | nil => rfl
  | cons bs bss ih =>
      obtain ⟨⟨cs, rfl⟩, hrest⟩ := List.forall_mem_cons.mp h
      rw [List.flatMap_cons, List.flatten_cons, decode_encode_append, decode_encode, ih hrest]

theorem valid_of_decode_pieces (h : Valid bss.flatten)
    (heq : bss.flatMap decode = decode bss.flatten) : ∀ bs ∈ bss, Valid bs := by
  induction bss with
  | nil => exact fun bs hbs => (List.not_mem_nil hbs).elim
  | cons bs bss ih =>
      obtain ⟨cs, hcs⟩ := h
      rw [List.flatten_cons] at hcs heq
      rw [List.flatMap_cons] at heq
      rcases cut_cases hcs with ⟨ds, rfl⟩ | ⟨b, rest, hrest, htail⟩
      · -- the first piece is a text, and the others are pieces of a text
        rw [decode_encode, decode_encode_append, List.append_cancel_left_eq] at heq
        have hsplit : cs = ds ++ decode bss.flatten := by
          rw [← decode_encode_append, ← hcs, decode_encode]
        have hvalid : Valid bss.flatten := by
          have htexts : encode ds ++ encode (decode bss.flatten) = encode ds ++ bss.flatten := by
            rw [← hcs, hsplit]
            exact (List.flatMap_append).symm
          exact ⟨decode bss.flatten, List.append_cancel_left htexts⟩
        exact List.forall_mem_cons.mpr ⟨⟨ds, rfl⟩, ih hvalid heq⟩
      · -- the first piece is cut within a character, and too much is read
        have hfirst := length_decode bs
        have hothers := length_pieces_cons hrest
        have hheads := heads_encode cs
        rw [hcs, heads_append, hrest, heads_cons] at hheads
        have hzero : heads [b] = 0 := by simp [heads, htail]
        have hlength := congrArg List.length heq
        rw [← hcs, decode_encode, List.length_append] at hlength
        omega

/-- The pieces of a text are read as the text exactly when each of them is a text. -/
theorem decode_pieces_iff (h : Valid bss.flatten) :
    bss.flatMap decode = decode bss.flatten ↔ ∀ bs ∈ bss, Valid bs :=
  ⟨valid_of_decode_pieces h, decode_pieces⟩

end Codec.Utf8
