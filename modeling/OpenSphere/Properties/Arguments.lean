import OpenSphere.Cli.Native

/-!
# Arguments of native commands

The validator knows which options take a value, and the handlers guess.  They agree on what the
validator accepts if there is no positional argument behind the first option: behind a switch it
would be taken for its value, and elsewhere it would be left out.
-/

open Sql (startsWith)

namespace Cli

variable {C : NativeContract} {rules : List (String × Bool)} {r r' : Reading}

def takesNext (rules : List (String × Bool)) (arg : String) : Bool :=
  rules.lookup (cutOption arg).1 == some true && (cutOption arg).2.isNone

def onlyOptions (rules : List (String × Bool)) : List String → Bool
  | [] => true
  | arg :: rest =>
      startsWith arg "--" && match takesNext rules arg, rest with
        | true, _ :: rest => onlyOptions rules rest
        | _, rest => onlyOptions rules rest

section

variable {arg value : String} {rest : List String}

theorem onlyOptions_positional (h : startsWith arg "--" = false) :
    onlyOptions rules (arg :: rest) = false := by
  unfold onlyOptions
  rw [h, Bool.false_and]

theorem onlyOptions_option (h : startsWith arg "--" = true) (hnext : takesNext rules arg = false) :
    onlyOptions rules (arg :: rest) = onlyOptions rules rest := by
  rw [onlyOptions.eq_def]
  dsimp only
  rw [h, hnext, Bool.true_and]

theorem onlyOptions_value (h : startsWith arg "--" = true) (hnext : takesNext rules arg = true) :
    onlyOptions rules (arg :: value :: rest) = onlyOptions rules rest := by
  rw [onlyOptions.eq_def]
  dsimp only
  rw [h, hnext, Bool.true_and]

/-- What the handlers make of an option with a value behind `=`. -/
theorem parseFlags_inline (flags : Flags) (h : startsWith arg "--" = true)
    (hinline : (cutOption arg).2 = some value) : parseFlags flags (arg :: rest) =
      parseFlags (Function.update flags (cutOption arg).1 (some value)) rest := by
  rw [parseFlags.eq_def]
  dsimp only
  rw [h, hinline]
  rfl

theorem parseFlags_next (flags : Flags) (h : startsWith arg "--" = true)
    (hinline : (cutOption arg).2 = none) (hvalue : startsWith value "--" = false) :
    parseFlags flags (arg :: value :: rest) =
      parseFlags (Function.update flags (cutOption arg).1 (some value)) rest := by
  rw [parseFlags.eq_def]
  dsimp only
  rw [h, hinline]
  dsimp only
  rw [hvalue]
  rfl

theorem parseFlags_switch (flags : Flags) (h : startsWith arg "--" = true)
    (hinline : (cutOption arg).2 = none) (hrest : onlyOptions rules rest = true) :
    parseFlags flags (arg :: rest) =
      parseFlags (Function.update flags (cutOption arg).1 (some "true")) rest := by
  rw [parseFlags.eq_def]
  dsimp only
  rw [h, hinline]
  cases rest with
  | nil => rfl
  | cons value rest =>
      have hvalue : startsWith value "--" = true := by
        cases hvalue : startsWith value "--" with
        | true => rfl
        | false =>
            rw [onlyOptions_positional hvalue] at hrest
            exact hrest
      dsimp only
      rw [hvalue]
      rfl

end

structure Options (rules : List (String × Bool)) (r r' : Reading) (args : List String) : Prop where
  flags : onlyOptions rules args = true → parseFlags r.options args = r'.options
  positionals : ∃ ps, r'.positionals = r.positionals ++ ps ∧ (ps = [] ↔ onlyOptions rules args = true)

theorem startsWith_dash {arg : String} (h : startsWith arg "--" = true) : startsWith arg "-" = true := by
  unfold startsWith at h ⊢
  generalize Sql.chars arg = cs at h ⊢
  have hlong : Sql.chars "--" = ['-', '-'] := rfl
  have hshort : Sql.chars "-" = ['-'] := rfl
  rw [hlong] at h
  rw [hshort]
  cases cs with
  | nil => cases h
  | cons c cs =>
      simp only [Sql.matchChars, Bool.and_eq_true] at h ⊢
      exact ⟨h.1, trivial⟩

theorem Options.positional {arg : String} {rest : List String} (harg : startsWith arg "-" = false)
    (h : Options rules { r with positionals := r.positionals ++ [arg] } r' rest) :
    Options rules r r' (arg :: rest) := by
  have hlong : startsWith arg "--" = false := by
    cases hlong : startsWith arg "--" with
    | false => rfl
    | true => rw [startsWith_dash hlong] at harg; exact harg
  have honly : onlyOptions rules (arg :: rest) = false := onlyOptions_positional hlong
  obtain ⟨ps, hps, -⟩ := h.positionals
  rw [List.append_assoc] at hps
  refine ⟨fun htrue => absurd (honly.symm.trans htrue) (by decide), arg :: ps, hps, ?_⟩
  rw [honly]
  exact iff_of_false (List.cons_ne_nil _ _) (by decide)

theorem Options.option {name value : String} {args rest : List String}
    (honly : onlyOptions rules args = onlyOptions rules rest)
    (hflags : onlyOptions rules rest = true → parseFlags r.options args =
      parseFlags (Function.update r.options name (some value)) rest)
    (h : Options rules (r.set name value) r' rest) : Options rules r r' args := by
  obtain ⟨ps, hps, hnil⟩ := h.positionals
  constructor
  · intro htrue
    rw [honly] at htrue
    exact (hflags htrue).trans (h.flags htrue)
  · exact ⟨ps, hps, hnil.trans (by rw [honly])⟩

theorem checkValue_bind {α : Type} {name value : String} {k : Unit → Except UsageFault α} {a : α}
    (h : (checkValue C name value).bind k = .ok a) : k () = .ok a := by
  unfold checkValue at h
  split at h
  · cases h
  · exact h

theorem readOptions_spec : ∀ (n : ℕ) (args : List String) (r : Reading), args.length ≤ n →
    readOptions C rules r args = .ok r' → Options rules r r' args := by
  intro n
  induction n with
  | zero =>
      intro args r hn h
      obtain rfl := List.length_eq_zero_iff.mp (Nat.le_zero.mp hn)
      cases h
      exact ⟨fun _ => rfl, [], (List.append_nil _).symm, by simp [onlyOptions]⟩
  | succ n ih =>
      intro args r hn h
      cases args with
      | nil =>
          cases h
          exact ⟨fun _ => rfl, [], (List.append_nil _).symm, by simp [onlyOptions]⟩
      | cons arg rest =>
          rw [List.length_cons] at hn
          rw [readOptions] at h
          split_ifs at h with hdash hlong
          · rw [Bool.not_eq_true'] at hdash
            exact .positional hdash (ih rest _ (by omega) h)
          · simp only [Bool.or_eq_true, Bool.not_eq_true', not_or, Bool.not_eq_false] at hlong
            dsimp only at h
            cases hrule : rules.lookup (cutOption arg).1 with
            | none =>
                rw [hrule] at h
                cases h
            | some requiresValue =>
                have hnext : takesNext rules arg = (requiresValue && (cutOption arg).2.isNone) := by
                  rw [takesNext, hrule]
                  cases requiresValue <;> rfl
                rw [hrule] at h
                dsimp only at h
                cases hinline : (cutOption arg).2 with
                | some value =>
                    rw [hinline] at h hnext
                    rw [Option.isNone_some, Bool.and_false] at hnext
                    split_ifs at h with hseen hrequires hsome
                    · dsimp only at h
                      split_ifs at h with htrim
                      exact .option (onlyOptions_option hlong.1 hnext)
                        (fun _ => parseFlags_inline r.options hlong.1 hinline)
                        (ih rest _ (by omega) (checkValue_bind h))
                    · exact absurd rfl hsome
                | none =>
                    rw [hinline] at h hnext
                    rw [Option.isNone_none, Bool.and_true] at hnext
                    split_ifs at h with hseen hrequires
                    · cases rest with
                      | nil => cases h
                      | cons value rest =>
                          dsimp only at h
                          split_ifs at h with hvalue
                          exact .option (onlyOptions_value hlong.1 (hnext.trans hrequires))
                            (fun _ => parseFlags_next r.options hlong.1 hinline (by simpa using hvalue))
                            (ih rest _ (by rw [List.length_cons] at hn; omega) (checkValue_bind h))
                    · exact .option (onlyOptions_option hlong.1 (hnext.trans (by simpa using hrequires)))
                        (fun htrue => parseFlags_switch r.options hlong.1 hinline htrue)
                        (ih rest _ (by omega) h)

/-- The positional arguments that the handlers see are those in front of the first option. -/
theorem readOptions_lead : ∀ (args : List String) (r : Reading),
    readOptions C rules r args = .ok r' →
    Options rules { r with positionals := r.positionals ++ nonFlagArgs args } r'
      (args.dropWhile fun arg => !startsWith arg "--") := by
  intro args
  induction args with
  | nil =>
      intro r h
      rw [nonFlagArgs, List.takeWhile_nil, List.append_nil]
      exact readOptions_spec 0 [] r le_rfl h
  | cons arg rest ih =>
      intro r h
      cases hlong : startsWith arg "--" with
      | true =>
          rw [nonFlagArgs, List.takeWhile_cons_of_neg (by simp [hlong]), List.append_nil,
            List.dropWhile_cons_of_neg (by simp [hlong])]
          exact readOptions_spec _ _ r le_rfl h
      | false =>
          rw [nonFlagArgs, List.takeWhile_cons_of_pos (by simp [hlong]),
            List.dropWhile_cons_of_pos (by simp [hlong])]
          rw [readOptions] at h
          split_ifs at h with hdash hshort
          · have h := ih _ h
            rw [nonFlagArgs, List.append_assoc] at h
            exact h
          · exact absurd (by rw [hlong]; rfl) hshort

theorem parseFlags_dropWhile (flags : Flags) : ∀ args : List String,
    parseFlags flags (args.dropWhile fun arg => !startsWith arg "--") = parseFlags flags args := by
  intro args
  induction args with
  | nil => rfl
  | cons arg rest ih =>
      cases hlong : startsWith arg "--" with
      | true => rw [List.dropWhile_cons_of_neg (by simp [hlong])]
      | false =>
          rw [List.dropWhile_cons_of_pos (by simp [hlong]), ih]
          conv_rhs => rw [parseFlags.eq_def]
          dsimp only
          rw [hlong]
          rfl

theorem nativeReading_eq_ok {args : List String} {r : Reading} (h : nativeReading C args = .ok r) :
    readOptions C (nativeRuleFor C args).2 ⟨fun _ => none, []⟩
      (args.drop (prefixLength C args)) = .ok r := by
  unfold nativeReading at h
  cases hread : readOptions C (nativeRuleFor C args).2 ⟨fun _ => none, []⟩
      (args.drop (prefixLength C args)) with
  | error fault =>
      rw [hread] at h
      cases h
  | ok r' =>
      rw [hread] at h
      simp only [Except.bind] at h
      split at h
      · split_ifs at h
        exact h
      · exact h

/-- The handlers read the arguments of a command as the validator did. -/
def Agree (args : List String) (r : Reading) : Prop :=
  parseLongFlags args = r.options ∧ nonFlagArgs args = r.positionals

theorem agree_iff {args : List String} {r : Reading}
    (h : readOptions C rules ⟨fun _ => none, []⟩ args = .ok r) :
    Agree args r ↔ onlyOptions rules (args.dropWhile fun arg => !startsWith arg "--") = true := by
  have hread := readOptions_lead args _ h
  obtain ⟨ps, hps, hnil⟩ := hread.positionals
  rw [List.nil_append] at hps
  constructor
  · intro hagree
    rw [← hagree.2] at hps
    exact hnil.mp (List.self_eq_append_right.mp hps)
  · intro honly
    rw [hnil.mpr honly, List.append_nil] at hps
    exact ⟨(parseFlags_dropWhile _ args).symm.trans (hread.flags honly), hps.symm⟩

theorem exists_reading {command : String} {args : List String} (hknown : toLower command ∈ C.commands)
    (haccepted : validateNativeCommandOptions C (command :: args) = .ok ()) :
    ∃ r, nativeReading C (command :: args) = .ok r := by
  rw [validateNativeCommandOptions, if_pos hknown] at haccepted
  cases hread : nativeReading C (command :: args) with
  | error fault =>
      rw [hread] at haccepted
      cases haccepted
  | ok r => exact ⟨r, rfl⟩

/-- What the validator accepts, the handlers read alike exactly if there is no positional argument
behind the first option. -/
theorem arguments_agree_iff (C : NativeContract) (command : String) (args : List String)
    (hknown : toLower command ∈ C.commands)
    (haccepted : validateNativeCommandOptions C (command :: args) = .ok ()) :
    ∃ r, nativeReading C (command :: args) = .ok r ∧
      (Agree ((command :: args).drop (prefixLength C (command :: args))) r ↔
        onlyOptions (nativeRuleFor C (command :: args)).2
          (((command :: args).drop (prefixLength C (command :: args))).dropWhile
            fun arg => !startsWith arg "--") = true) := by
  obtain ⟨r, hread⟩ := exists_reading hknown haccepted
  exact ⟨r, hread, agree_iff (nativeReading_eq_ok hread)⟩

theorem arguments_agree_health : ∃ r,
    nativeReading (nativeContract fun _ _ => none) ["health", "--strict"] = .ok r ∧
      (Agree (["health", "--strict"].drop
          (prefixLength (nativeContract fun _ _ => none) ["health", "--strict"])) r ↔
        onlyOptions (nativeRuleFor (nativeContract fun _ _ => none) ["health", "--strict"]).2
          ((["health", "--strict"].drop
              (prefixLength (nativeContract fun _ _ => none) ["health", "--strict"])).dropWhile
            fun arg => !startsWith arg "--") = true) :=
  arguments_agree_iff (nativeContract fun _ _ => none) "health" ["--strict"] (by decide)
    (by decide +kernel)

/-- A plan behind the reason for applying it: the validator counts it, the handler finds none. -/
def applyArgs : List String :=
  ["platform", "update", "apply", "--reason", "planned maintenance", "0123456789abcdef"]

theorem arguments_disagree :
    validateNativeCommandOptions (nativeContract fun _ _ => none) applyArgs = .ok () ∧
      ∃ r, nativeReading (nativeContract fun _ _ => none) applyArgs = .ok r ∧
        ¬ Agree (applyArgs.drop (prefixLength (nativeContract fun _ _ => none) applyArgs)) r := by
  have haccepted : validateNativeCommandOptions (nativeContract fun _ _ => none) applyArgs =
      .ok () := by decide +kernel
  obtain ⟨r, hread⟩ := exists_reading (by decide) haccepted
  refine ⟨haccepted, r, hread, fun hagree => ?_⟩
  have honly := (agree_iff (nativeReading_eq_ok hread)).mp hagree
  exact absurd honly (by decide)

end Cli
