import OpenSphere.Catalog.Names

/-!
# The names of releases agree

The Registry and the extension controller cut a long id short and drop the hyphens at the cut.
The resolver of command providers asks for the whole id.  So the three agree on a release exactly
when its id is not cut.
-/

open Sql

namespace Catalog

structure NamesAgree (h : Hash) (id : String) : Prop where
  same : ∀ digest manifest, digestFormat digest = true → manifestFormat manifest = true →
    revisionResourceName h id digest manifest = releaseServiceID h id digest manifest
  required : ∀ digest manifest, digestFormat digest = true → manifestFormat manifest = true →
    providerService id (releaseServiceID h id digest manifest) = true
  label : ∀ digest manifest, digestFormat digest = true → manifestFormat manifest = true →
    dnsLabel (releaseServiceID h id digest manifest) = true ∧
      (chars (releaseServiceID h id digest manifest)).length ≤ 63
  /-- Two releases have one name only if the beginnings of their hashes collide. -/
  distinct : ∀ digest manifest digest' manifest', digestFormat digest = true →
    manifestFormat manifest = true → digestFormat digest' = true → manifestFormat manifest' = true →
    releaseServiceID h id digest manifest = releaseServiceID h id digest' manifest' →
    (releaseToken h id digest manifest = releaseToken h id digest' manifest' →
      releaseText id digest manifest = releaseText id digest' manifest') →
    digest = digest' ∧ manifest = manifest'

section

variable {h : Hash} {id digest manifest : String}

theorem digestFormat_length (hd : digestFormat digest = true) : (chars digest).length = 71 := by
  rw [digestFormat, Pattern.full, Pattern.seq_cons, Pattern.text_iff] at hd
  obtain ⟨rest, heq, hd⟩ := hd
  rw [Pattern.seq_cons, Pattern.times_iff] at hd
  obtain ⟨t, _, rfl, -, hlength, hrest⟩ := hd
  obtain rfl := List.isEmpty_iff.mp hrest
  rw [heq, List.append_nil, List.length_append, hlength]
  decide

theorem releaseText_injective {digest' manifest' : String} (hd : digestFormat digest = true)
    (hd' : digestFormat digest' = true)
    (heq : releaseText id digest manifest = releaseText id digest' manifest') :
    digest = digest' ∧ manifest = manifest' := by
  have hchars := congrArg String.toList heq
  simp only [releaseText, String.toList_append, List.append_assoc, List.append_cancel_left_eq]
    at hchars
  have hlength : digest.toList.length = digest'.toList.length := by
    rw [← chars_eq, ← chars_eq, digestFormat_length hd, digestFormat_length hd']
  obtain ⟨hdigest, hrest⟩ := List.append_inj hchars hlength
  exact ⟨String.toList_injective hdigest,
    String.toList_injective (List.append_cancel_left hrest)⟩

/-- What is before the token begins with a letter or a digit and is no longer than the cut. -/
theorem releasePrefix_label (hid : extensionId id = true) :
    ∃ c t, releasePrefix id = c :: t ∧ alphanumeric c = true ∧ (∀ d ∈ t, labelChar d = true) ∧
      t.length ≤ 39 := by
  obtain ⟨c, t, hchars, hc, ht, -⟩ := extensionId_iff.mp hid
  have hfirst : (c == '-') = false := by
    rw [beq_eq_false_iff_ne]
    rintro rfl
    exact absurd hc (by decide)
  have hcut : (chars id).take 40 = c :: t.take 39 := by rw [hchars]; rfl
  have hpre : releasePrefix id <+: c :: t.take 39 := by
    rw [releasePrefix, hcut]
    exact List.rdropWhile_prefix _ _
  have hne : releasePrefix id ≠ [] := by
    rw [releasePrefix, hcut]
    intro hnil
    exact Bool.false_ne_true (hfirst.symm.trans
      (List.rdropWhile_eq_nil_iff.mp hnil c (List.mem_cons_self ..)))
  obtain ⟨d, u, hd⟩ := List.exists_cons_of_ne_nil hne
  rw [hd] at hpre ⊢
  obtain ⟨rfl, hu⟩ := List.cons_prefix_cons.mp hpre
  refine ⟨d, u, rfl, hc, fun e he => ht e (List.mem_of_mem_take (hu.subset he)), ?_⟩
  exact Nat.le_trans hu.length_le (List.length_take_le 39 t)

theorem releaseServiceID_label (hid : extensionId id = true) :
    dnsLabel (releaseServiceID h id digest manifest) = true ∧
      (chars (releaseServiceID h id digest manifest)).length ≤ 63 := by
  obtain ⟨c, t, hpre, hc, ht, hlength⟩ := releasePrefix_label hid
  have hdash : chars "-r-" = ['-', 'r', '-'] := by decide
  have htoken : (releaseToken h id digest manifest).length = 20 := releaseToken_length
  have hhex : ∀ c ∈ releaseToken h id digest manifest, hexLower c = true := releaseToken_hex
  have hclass : ∀ c, hexLower c = true → alphanumeric c = true := by
    intro c hc
    simp only [hexLower, alphanumeric, lower, Bool.or_eq_true, Bool.and_eq_true,
      decide_eq_true_eq] at hc ⊢
    rcases hc with hdigit | ⟨hlo, hhi⟩
    · exact .inr hdigit
    · exact .inl ⟨hlo, Char.le_trans hhi (by decide)⟩
  rw [releaseServiceID_eq]
  generalize releaseToken h id digest manifest = token at htoken hhex ⊢
  rw [dnsLabel, Pattern.full, chars_ofList, hpre, hdash]
  constructor
  · -- the last character of the token ends the label
    obtain ⟨u, x, rfl⟩ := List.eq_nil_or_concat token |>.resolve_left (by
      rintro rfl
      cases htoken)
    rw [List.concat_eq_append, List.length_append] at htoken
    rw [Pattern.seq_cons, Pattern.times_iff]
    refine ⟨[c], t ++ ['-', 'r', '-'] ++ u ++ [x], by simp, ?_, rfl, ?_⟩
    · rintro d hd
      rwa [List.mem_singleton.mp hd]
    rw [Pattern.seq_cons, Pattern.opt_iff, Pattern.seq_cons, Pattern.repeated_iff]
    refine .inl ⟨t ++ ['-', 'r', '-'] ++ u, [x], rfl, ?_, Nat.zero_le _, ?_, ?_⟩
    · intro d hd
      simp only [List.append_assoc, List.mem_append] at hd
      rcases hd with hd | hd | hd
      · exact ht d hd
      · exact List.all_eq_true.mp (by decide : ['-', 'r', '-'].all labelChar = true) d hd
      · have halpha := hclass d (hhex d (by simp [hd]))
        simp [labelChar, orOneOf, halpha]
    · rintro n ⟨⟩
      simp only [List.length_append, List.length_cons, List.length_nil] at htoken ⊢
      omega
    · rw [Pattern.seq_cons, Pattern.times_iff]
      refine ⟨[x], [], rfl, ?_, rfl, rfl⟩
      rintro d hd
      rw [List.mem_singleton.mp hd]
      exact hclass x (hhex x (by simp))
  · simp only [List.length_append, List.length_cons, List.length_nil, htoken]
    omega

theorem providerService_iff (hid : extensionId id = true) :
    providerService id (releaseServiceID h id digest manifest) = true ↔ releasePrefix id = chars id := by
  rw [providerService, hid, Bool.true_and, releaseServiceID_eq, Pattern.full, chars_ofList,
    Pattern.seq_cons, Pattern.text_iff]
  constructor
  · rintro ⟨rest, heq, hrest⟩
    rw [Pattern.seq_cons, Pattern.text_iff] at hrest
    obtain ⟨rest', rfl, hrest⟩ := hrest
    rw [Pattern.seq_cons, Pattern.times_iff] at hrest
    obtain ⟨t, _, rfl, -, hlength, hend⟩ := hrest
    obtain rfl := List.isEmpty_iff.mp hend
    rw [List.append_assoc] at heq
    refine (List.append_inj' heq ?_).1
    simp [releaseToken_length, hlength]
  · intro hwhole
    rw [hwhole, List.append_assoc]
    refine ⟨_, rfl, ?_⟩
    rw [Pattern.seq_cons, Pattern.text_iff]
    refine ⟨_, rfl, ?_⟩
    rw [Pattern.seq_cons, Pattern.times_iff]
    exact ⟨_, [], (List.append_nil _).symm, releaseToken_hex, releaseToken_length, rfl⟩

/-- An id is not cut if it is short and does not end in a hyphen. -/
theorem releasePrefix_eq_iff :
    releasePrefix id = chars id ↔ (chars id).length ≤ 40 ∧ (chars id).getLast? ≠ some '-' := by
  constructor
  · intro hwhole
    have hpre : releasePrefix id <+: (chars id).take 40 := List.rdropWhile_prefix _ _
    have hlength : (chars id).length ≤ 40 := by
      rw [← hwhole]
      exact Nat.le_trans hpre.length_le (List.length_take_le 40 _)
    refine ⟨hlength, fun hlast => ?_⟩
    rw [releasePrefix, List.take_of_length_le hlength] at hwhole
    have hkept := List.rdropWhile_eq_self_iff.mp hwhole
    obtain ⟨front, heq⟩ := List.getLast?_eq_some_iff.mp hlast
    have hne : chars id ≠ [] := by simp [heq]
    have hend : (chars id).getLast hne = '-' := by simp only [heq, List.getLast_concat]
    exact hkept hne (by rw [hend]; rfl)
  · rintro ⟨hlength, hlast⟩
    rw [releasePrefix, List.take_of_length_le hlength]
    refine List.rdropWhile_eq_self_iff.mpr fun hne hend => hlast ?_
    rw [List.getLast?_eq_getLast_of_ne_nil hne, beq_iff_eq.mp hend]

end

theorem zeros_formats : digestFormat ("sha256:" ++ String.ofList (List.replicate 64 '0')) = true ∧
    manifestFormat (String.ofList (List.replicate 64 '0')) = true := by
  decide

/-- **The names of releases.**  The Registry, the extension controller and the resolver of command
providers agree on the names of the releases of an id, which are labels of at most 63 characters
and distinct for distinct releases, exactly if the id has at most 40 characters and does not end
in a hyphen. -/
theorem release_names (h : Hash) (id : String) (hid : extensionId id = true) :
    NamesAgree h id ↔ (chars id).length ≤ 40 ∧ (chars id).getLast? ≠ some '-' := by
  rw [← releasePrefix_eq_iff]
  constructor
  · intro hagree
    exact (providerService_iff hid).mp (hagree.required _ _ zeros_formats.1 zeros_formats.2)
  · intro hwhole
    refine ⟨fun d m _ _ => ?_, fun d m _ _ => (providerService_iff hid).mpr hwhole,
      fun d m _ _ => releaseServiceID_label hid, fun d m d' m' hd _ hd' _ hsame hfree => ?_⟩
    · rw [revisionResourceName_eq, releaseServiceID_eq]
    · rw [releaseServiceID_eq, releaseServiceID_eq] at hsame
      have htoken := List.append_cancel_left (String.ofList_injective hsame)
      exact releaseText_injective hd hd' (hfree htoken)

namespace Demo

def hash : Hash where
  sha256 t := List.replicate 31 0 ++ [UInt8.ofNat (chars t).length]
  octets _ := by simp

end Demo

theorem cluster_manager_names : NamesAgree Demo.hash "cluster-manager" :=
  (release_names Demo.hash "cluster-manager" (by decide)).mpr (by decide)

theorem long_id_refused :
    extensionId "observability-collector-for-edge-clusters" = true ∧
      ¬ NamesAgree Demo.hash "observability-collector-for-edge-clusters" := by
  have hid : extensionId "observability-collector-for-edge-clusters" = true := by decide
  refine ⟨hid, fun hagree => ?_⟩
  have hwhole := (providerService_iff hid).mp (hagree.required _ _ zeros_formats.1 zeros_formats.2)
  exact absurd (releasePrefix_eq_iff.mp hwhole).1 (by decide)

end Catalog
