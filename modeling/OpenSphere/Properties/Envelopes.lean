import OpenSphere.Broker.Envelope

/-!
# Envelopes fit

`encrypt` bounds the octets of a credential and the database the characters of its envelope.  The
version, the vector, the tag and the dots take 43 characters, which the first bound leaves out.
-/

open Sql (Pattern chars chars_ofList matchClass matchChars_append)
open Js (Utf16 characters characters_eq_some)
open Codec.Base64 (sextets letter encodeRaw length_sextets)

namespace Broker

variable {s : Utf16} {G : Gcm} {iv : List UInt8} {e : List Char}

/-! ## Texts -/

theorem replaced_of_characters : ∀ {s cs}, characters s = some cs → replaced s = cs
  | [], cs, h => by
      cases h
      rfl
  | [u], cs, h => by
      rw [characters] at h
      split_ifs at h with hhalf
      cases h
      rw [replaced, if_neg hhalf]
  | u :: v :: us, cs, h => by
      rw [characters] at h
      rw [replaced]
      split_ifs at h with hpair hhalf
      · obtain ⟨rest, hrest, rfl⟩ := Option.map_eq_some_iff.mp h
        rw [if_pos hpair, replaced_of_characters hrest]
      · obtain ⟨rest, hrest, rfl⟩ := Option.map_eq_some_iff.mp h
        rw [if_neg hpair, if_neg hhalf, replaced_of_characters hrest]

theorem utf16_replaced_iff : Js.utf16 (replaced s) = s ↔ ∃ cs, Js.utf16 cs = s := by
  constructor
  · intro h
    exact ⟨replaced s, h⟩
  · rintro ⟨cs, h⟩
    rw [replaced_of_characters (characters_eq_some.mpr h), h]

/-! ## Characters of an envelope -/

theorem length_base64url (bs : List UInt8) : (base64url bs).length = (4 * bs.length + 2) / 3 := by
  rw [base64url, List.length_map, encodeRaw, List.length_map, length_sextets]

theorem url_letter : ∀ n < 64,
    let c := if letter n = '+' then '-' else if letter n = '/' then '_' else letter n
    urlChar c = true ∧ c ≠ '.' ∧
      (if c = '-' then some 62 else if c = '_' then some 63 else Codec.Base64.value c) = some n := by
  decide

theorem mem_base64url {bs : List UInt8} {c : Char} (h : c ∈ base64url bs) :
    urlChar c = true ∧ c ≠ '.' := by
  obtain ⟨d, hd, rfl⟩ := List.mem_map.mp h
  obtain ⟨n, hn, rfl⟩ := Codec.Base64.mem_encodeRaw hd
  exact ⟨(url_letter n hn).1, (url_letter n hn).2.1⟩

theorem decode_base64url (bs : List UInt8) : Codec.Base64.decode (base64url bs) = bs := by
  have hread : ∀ xs : List Nat, (∀ x ∈ xs, x < 64) →
      ((xs.map letter).map fun c => if c = '+' then '-' else if c = '/' then '_' else c).filterMap
        (fun c => if c = '-' then some 62 else if c = '_' then some 63
          else Codec.Base64.value c) = xs := by
    intro xs h
    induction xs with
    | nil => rfl
    | cons x xs ih =>
        have hx := (url_letter x (h x (List.mem_cons_self ..))).2.2
        rw [List.map_cons, List.map_cons, List.filterMap_cons, hx,
          ih fun y hy => h y (List.mem_cons_of_mem _ hy)]
  rw [Codec.Base64.decode, base64url, encodeRaw, hread _ (Codec.Base64.sextets_lt bs),
    Codec.Base64.octets_sextets]

theorem base64url_ne_nil {bs : List UInt8} (h : bs ≠ []) : base64url bs ≠ [] := by
  intro hnil
  have hlength := length_base64url bs
  have hpos := List.length_pos_iff.mpr h
  rw [hnil, List.length_nil] at hlength
  omega

/-! ## The form -/

theorem matchClass_append {p : Char → Bool} {k : List Char → Bool} {u rest : List Char}
    (h : ∀ c ∈ u, p c = true) (hk : k rest = true) (lo : Nat) (hlo : lo ≤ u.length) :
    matchClass p k (u ++ rest) lo none = true := by
  induction u generalizing lo with
  | nil =>
      obtain rfl := Nat.le_zero.mp hlo
      cases rest with
      | nil => simp [matchClass, hk]
      | cons c rest => simp [matchClass, hk]
  | cons c u ih =>
      obtain ⟨hc, hu⟩ := List.forall_mem_cons.mp h
      rw [List.length_cons] at hlo
      simp [matchClass, hc, ih hu (lo - 1) (by omega)]

theorem many1_base64url {bs : List UInt8} {k : List Char → Bool} {rest : List Char} (h : bs ≠ [])
    (hk : k rest = true) : Pattern.many1 urlChar k (base64url bs ++ rest) = true :=
  matchClass_append (fun _ hc => (mem_base64url hc).1) hk 1
    (List.length_pos_iff.mpr (base64url_ne_nil h))

def envelope (iv tag ciphertext : List UInt8) : List Char :=
  chars "v1." ++ base64url iv ++ '.' :: base64url tag ++ '.' :: base64url ciphertext

section

variable {tag ciphertext : List UInt8}

theorem envelope_format (hiv : iv ≠ []) (htag : tag ≠ []) (hciphertext : ciphertext ≠ []) :
    envelopeFormat (String.ofList (envelope iv tag ciphertext)) = true := by
  rw [envelopeFormat, Pattern.full, chars_ofList]
  have hdot : ∀ (k : List Char → Bool) (rest : List Char), k rest = true →
      Pattern.text "." k ('.' :: rest) = true := by
    intro k rest hk
    exact (matchChars_append (chars ".") k rest).trans hk
  have htext : envelope iv tag ciphertext = chars "v1" ++ '.' :: (base64url iv ++
      '.' :: (base64url tag ++ '.' :: (base64url ciphertext ++ []))) := by
    have hversion : chars "v1." = chars "v1" ++ ['.'] := rfl
    simp [envelope, hversion]
  rw [htext]
  show Pattern.text "v1" _ _ = true
  refine (matchChars_append (chars "v1") _ _).trans (hdot _ _ (many1_base64url hiv (hdot _ _ ?_)))
  exact many1_base64url htag (hdot _ _ (many1_base64url hciphertext rfl))

theorem length_envelope : (envelope iv tag ciphertext).length =
    5 + (4 * iv.length + 2) / 3 + (4 * tag.length + 2) / 3 + (4 * ciphertext.length + 2) / 3 := by
  simp only [envelope, List.length_append, List.length_cons, length_base64url]
  have hversion : (chars "v1.").length = 3 := rfl
  omega

theorem splitOn_envelope : (envelope iv tag ciphertext).splitOn '.' =
    [chars "v1", base64url iv, base64url tag, base64url ciphertext] := by
  have hjoin : envelope iv tag ciphertext =
      ['.'].intercalate [chars "v1", base64url iv, base64url tag, base64url ciphertext] := by
    have hversion : chars "v1." = chars "v1" ++ ['.'] := rfl
    simp [envelope, List.intercalate, hversion]
  rw [hjoin]
  refine List.splitOn_intercalate _ ?_ (List.cons_ne_nil _ _)
  intro l hl
  simp only [List.mem_cons, List.not_mem_nil, or_false] at hl
  rcases hl with rfl | rfl | rfl | rfl
  · decide
  all_goals exact fun hdot => (mem_base64url hdot).2 rfl

end

/-! ## What is encrypted -/

theorem encrypt_ok (h : G.encrypt iv s = .ok e) : s ≠ [] ∧ iv.length = 12 ∧
    e = envelope iv (G.encipher iv (octetsOf s)).2 (G.encipher iv (octetsOf s)).1 := by
  unfold Gcm.encrypt at h
  split_ifs at h with hlength hiv
  cases h
  exact ⟨fun hs => hlength (.inl hs), not_not.mp hiv, rfl⟩

theorem exists_encrypt (hs : s ≠ []) (hlength : (octetsOf s).length ≤ 12 * 1024)
    (hiv : iv.length = 12) : ∃ e, G.encrypt iv s = .ok e := by
  rw [Gcm.encrypt, if_neg (not_or.mpr ⟨hs, Nat.not_lt.mpr hlength⟩), if_neg (not_not.mpr hiv)]
  exact ⟨_, rfl⟩

theorem octetsOf_ne_nil (h : s ≠ []) : octetsOf s ≠ [] := by
  have hcons : ∀ (c : Char) (cs : List Char), Codec.Utf8.encode (c :: cs) ≠ [] := by
    intro c cs hnil
    have hheads := Codec.Utf8.heads_encode (c :: cs)
    rw [hnil] at hheads
    cases hheads
  unfold octetsOf
  unfold replaced
  split
  · exact absurd rfl h
  · exact hcons _ _
  · split_ifs
    · exact hcons _ _
    · exact hcons _ _
    · exact hcons _ _

theorem ne_nil_of_length {bs : List UInt8} {n : Nat} (h : bs.length = n + 1) : bs ≠ [] := by
  rintro rfl
  cases h

theorem decrypt_encrypt (h : G.encrypt iv s = .ok e) :
    G.decrypt e = .ok (Js.utf16 (replaced s)) := by
  obtain ⟨hs, hiv, rfl⟩ := encrypt_ok h
  have htag := G.length_tag iv (octetsOf s)
  have hciphertext : (G.encipher iv (octetsOf s)).1 ≠ [] := by
    refine List.length_pos_iff.mp ?_
    rw [G.length_ciphertext]
    exact List.length_pos_iff.mpr (octetsOf_ne_nil hs)
  rw [Gcm.decrypt, splitOn_envelope]
  dsimp only
  rw [if_neg, decode_base64url, decode_base64url, decode_base64url, if_neg, G.decipher_encipher]
  · dsimp only
    rw [octetsOf, Codec.Utf8.decode_encode]
  · rintro (h | h | h)
    · exact h hiv
    · exact h htag
    · exact hciphertext h
  · rintro (h | h | h | h)
    · exact h rfl
    · exact base64url_ne_nil (ne_nil_of_length hiv) h
    · exact base64url_ne_nil (ne_nil_of_length htag) h
    · exact base64url_ne_nil hciphertext h

theorem storable_encrypt (h : G.encrypt iv s = .ok e) :
    storable e = true ↔ (octetsOf s).length ≤ 12255 := by
  obtain ⟨hs, hiv, rfl⟩ := encrypt_ok h
  have htag := G.length_tag iv (octetsOf s)
  have hlength := G.length_ciphertext iv (octetsOf s)
  have hpos := List.length_pos_iff.mpr (octetsOf_ne_nil hs)
  have hciphertext : (G.encipher iv (octetsOf s)).1 ≠ [] := List.length_pos_iff.mp (by omega)
  rw [storable, envelope_format (ne_nil_of_length hiv) (ne_nil_of_length htag) hciphertext,
    length_envelope, hiv, htag, hlength]
  simp only [Bool.true_and, Bool.and_eq_true, decide_eq_true_eq]
  omega

/-- **Credential envelopes.**  What is encrypted comes back and can be stored exactly if it is a
text of characters and has at most 12255 octets. -/
theorem envelope_fits_iff (G : Gcm) (iv : List UInt8) (s : Utf16) (e : List Char)
    (h : G.encrypt iv s = .ok e) :
    (G.decrypt e = .ok s ∧ storable e = true) ↔
      (∃ cs, Js.utf16 cs = s) ∧ (octetsOf s).length ≤ 12255 := by
  rw [decrypt_encrypt h, storable_encrypt h, Except.ok.injEq, utf16_replaced_iff]

namespace Demo

/-- A cipher whose key stream and tags are zeros. -/
def gcm : Gcm where
  encipher _ p := (p, List.replicate 16 0)
  decipher _ _ c := some c
  length_ciphertext _ _ := rfl
  length_tag _ _ := rfl
  decipher_encipher _ _ := rfl

end Demo

theorem envelope_fits_short :
    (Demo.gcm.decrypt (envelope (List.replicate 12 0) (List.replicate 16 0) [97]) = .ok [97] ∧
      storable (envelope (List.replicate 12 0) (List.replicate 16 0) [97]) = true) ↔
        (∃ cs, Js.utf16 cs = [97]) ∧ (octetsOf [97]).length ≤ 12255 :=
  envelope_fits_iff Demo.gcm (List.replicate 12 0) [97] _ (by decide)

/-- A credential of 12 KiB is encrypted and cannot be stored. -/
theorem envelope_too_long : ∃ e,
    Demo.gcm.encrypt (List.replicate 12 0) (List.replicate 12288 97) = .ok e ∧
      storable e = false := by
  have hreplaced : ∀ n, replaced (List.replicate n 97) = List.replicate n 'a' := by
    intro n
    refine replaced_of_characters (characters_eq_some.mpr ?_)
    rw [Js.utf16, List.flatMap_replicate]
    exact List.flatten_replicate_singleton ..
  have hoctets : (octetsOf (List.replicate 12288 97)).length = 12288 := by
    rw [octetsOf, hreplaced, Codec.Utf8.encode, List.flatMap_replicate,
      show String.utf8EncodeChar 'a' = [97] from rfl, List.flatten_replicate_singleton,
      List.length_replicate]
  obtain ⟨e, he⟩ : ∃ e, Demo.gcm.encrypt (List.replicate 12 0) (List.replicate 12288 97) = .ok e :=
    exists_encrypt (mt (List.replicate_eq_nil_iff _).mp (by decide)) (Nat.le_of_eq hoctets) rfl
  refine ⟨e, he, ?_⟩
  rw [Bool.eq_false_iff, ne_eq, storable_encrypt he, hoctets]
  decide

end Broker
