import OpenSphere.Cli.Dynamic

/-!
# Help describes what runs

A call runs the first tool whose words begin those of the call, and its help describes the one
with the most words.  The two are the same in every order of the tools if at most one tool is
begun with, and a tool without words of its own does not stand alone.
-/

open Sql (chars)

namespace Cli

section

variable {ns : String} {words : List String} {tools : List Tool} {t t' : Tool}

def Fits (ns : String) (words : List String) (t : Tool) : Prop :=
  toolCommandPrefix t.command ns ≠ [] ∧ begins ns words t = true

theorem selectTool_eq_some (h : selectTool ns words tools = some t) : t ∈ tools ∧ Fits ns words t := by
  have hfits := List.find?_some h
  simp only [Bool.and_eq_true, decide_eq_true_eq] at hfits
  exact ⟨List.mem_of_find?_eq_some h, hfits⟩

theorem selectTool_isSome (ht : t ∈ tools) (hfits : Fits ns words t) :
    ∃ t', selectTool ns words tools = some t' := by
  refine Option.isSome_iff_exists.mp (List.find?_isSome.mpr ⟨t, ht, ?_⟩)
  simp only [Bool.and_eq_true, decide_eq_true_eq]
  exact hfits

/-! ## The longest tool -/

/-- What the loop has selected: nothing while no tool began the words, and else one that did and
has the most words. -/
structure Longest (ns : String) (words : List String) (tools : List Tool) (best : Option Tool) :
    Prop where
  found : ∀ b ∈ best, b ∈ tools ∧ begins ns words b = true
  longest : ∀ t ∈ tools, begins ns words t = true → ∃ b ∈ best,
    (toolCommandPrefix t.command ns).length ≤ (toolCommandPrefix b.command ns).length

theorem Longest.step {best : Option Tool} (h : Longest ns words tools best) (t : Tool) :
    Longest ns words (tools ++ [t]) (longer ns words best t) := by
  unfold longer
  dsimp only
  split_ifs with ht
  · obtain ⟨hbegins, hlonger⟩ := ht
    constructor
    · rintro b ⟨⟩
      exact ⟨List.mem_append_right _ (List.mem_singleton_self _), hbegins⟩
    · intro t' ht' hbegins'
      refine ⟨t, rfl, ?_⟩
      rcases List.mem_append.mp ht' with ht' | ht'
      · obtain ⟨b, hb, hle⟩ := h.longest t' ht' hbegins'
        exact Nat.le_trans hle (Nat.le_of_lt (hlonger b hb))
      · rw [List.mem_singleton.mp ht']
  · constructor
    · intro b hb
      exact ⟨List.mem_append_left _ (h.found b hb).1, (h.found b hb).2⟩
    · intro t' ht' hbegins'
      rcases List.mem_append.mp ht' with ht' | ht'
      · exact h.longest t' ht' hbegins'
      · obtain rfl := List.mem_singleton.mp ht'
        have hsome : ¬ ∀ b ∈ best, (toolCommandPrefix b.command ns).length <
            (toolCommandPrefix t'.command ns).length := fun hall => ht ⟨hbegins', hall⟩
        push Not at hsome
        exact hsome

theorem longestTool_spec (tools : List Tool) :
    Longest ns words tools (longestTool ns words tools) := by
  unfold longestTool
  suffices hfold : ∀ (rest before : List Tool) (best : Option Tool),
      Longest ns words before best →
        Longest ns words (before ++ rest) (rest.foldl (longer ns words) best) from
    hfold tools [] none ⟨nofun, nofun⟩
  intro rest
  induction rest with
  | nil =>
      intro before best h
      rwa [List.append_nil]
  | cons t rest ih =>
      intro before best h
      have hrest := ih _ _ (h.step t)
      rwa [List.append_assoc] at hrest

/-! ## Agreement -/

/-- At most one tool fits, and where none does and there are words, every tool has words. -/
structure Unambiguous (ns : String) (words : List String) (tools : List Tool) : Prop where
  single : ∀ t ∈ tools, ∀ t' ∈ tools, Fits ns words t → Fits ns words t' → t = t'
  worded : words ≠ [] → ∀ t ∈ tools, toolCommandPrefix t.command ns = [] →
    ∃ t' ∈ tools, Fits ns words t'

def Help.described : Help → Option Tool
  | .tool t => some t
  | _ => none

theorem described_eq {args : List String} {m : ToolManifest} :
    (printDynamicCommandHelp ns args m).described =
      if nonFlagArgs args = [] then none else longestTool ns (nonFlagArgs args) m.tools := by
  unfold printDynamicCommandHelp
  split
  · rename_i h
    rw [if_pos h]
    rfl
  · rename_i h
    rw [if_neg h]
    cases longestTool ns (nonFlagArgs args) m.tools with
    | none => rfl
    | some t => rfl

theorem not_fits_nil : ¬ Fits ns [] t := by
  rintro ⟨hne, hbegins⟩
  have hlength := List.length_pos_iff.mpr hne
  simp only [begins, Bool.and_eq_true, decide_eq_true_eq, List.length_nil] at hbegins
  omega

theorem begins_of_nil (h : toolCommandPrefix t.command ns = []) : begins ns words t = true := by
  rw [begins, h]
  rfl

theorem Unambiguous.perm {tools' : List Tool} (h : Unambiguous ns words tools)
    (hperm : tools'.Perm tools) : Unambiguous ns words tools' where
  single t ht t' ht' := h.single t (hperm.mem_iff.mp ht) t' (hperm.mem_iff.mp ht')
  worded hwords t ht hnil := by
    obtain ⟨t', ht', hfits⟩ := h.worded hwords t (hperm.mem_iff.mp ht) hnil
    exact ⟨t', hperm.mem_iff.mpr ht', hfits⟩

theorem Unambiguous.selectTool_eq (h : Unambiguous ns words tools) (ht : t ∈ tools)
    (hfits : Fits ns words t) : selectTool ns words tools = some t := by
  obtain ⟨t', hselect⟩ := selectTool_isSome ht hfits
  obtain ⟨ht', hfits'⟩ := selectTool_eq_some hselect
  rw [hselect, h.single t' ht' t ht hfits' hfits]

theorem selectTool_eq_none (h : ∀ t ∈ tools, ¬ Fits ns words t) : selectTool ns words tools = none := by
  cases hselect : selectTool ns words tools with
  | none => rfl
  | some t =>
      obtain ⟨ht, hfits⟩ := selectTool_eq_some hselect
      exact absurd hfits (h t ht)

theorem Unambiguous.longestTool_eq (h : Unambiguous ns words tools) (hwords : words ≠ []) :
    longestTool ns words tools = selectTool ns words tools := by
  have hspec : Longest ns words tools (longestTool ns words tools) := longestTool_spec tools
  by_cases hex : ∃ t ∈ tools, Fits ns words t
  · obtain ⟨t, ht, hfits⟩ := hex
    obtain ⟨b, hb, hle⟩ := hspec.longest t ht hfits.2
    obtain ⟨hmem, hbegins⟩ := hspec.found b hb
    have hpos := List.length_pos_iff.mpr hfits.1
    have hb' : Fits ns words b := ⟨List.length_pos_iff.mp (Nat.lt_of_lt_of_le hpos hle), hbegins⟩
    rw [h.selectTool_eq ht hfits, Option.mem_def.mp hb, h.single b hmem t ht hb' hfits]
  · have hno : ∀ t ∈ tools, ¬ Fits ns words t := fun t ht hfits => hex ⟨t, ht, hfits⟩
    rw [selectTool_eq_none hno]
    cases hlongest : longestTool ns words tools with
    | none => rfl
    | some b =>
        obtain ⟨hmem, hbegins⟩ := hspec.found b hlongest
        by_cases hnil : toolCommandPrefix b.command ns = []
        · exact absurd (h.worded hwords b hmem hnil) hex
        · exact absurd ⟨hnil, hbegins⟩ (hno b hmem)

end

/-- **Help and execution.**  In every order of the tools the tool that runs is the one that is
described, and the same, exactly if the words are unambiguous. -/
theorem help_agrees_iff (ns : String) (args : List String) (m : ToolManifest) :
    (∀ tools' : List Tool, tools'.Perm m.tools →
      (printDynamicCommandHelp ns args { m with tools := tools' }).described =
        selectTool ns (nonFlagArgs args) tools' ∧
      selectTool ns (nonFlagArgs args) tools' = selectTool ns (nonFlagArgs args) m.tools) ↔
    Unambiguous ns (nonFlagArgs args) m.tools := by
  simp only [described_eq]
  generalize nonFlagArgs args = words
  generalize m.tools = tools
  constructor
  · intro h
    have hfirst : ∀ t ∈ tools, Fits ns words t → selectTool ns words tools = some t := by
      intro t ht hfits
      obtain ⟨a, b, rfl⟩ := List.append_of_mem ht
      rw [← (h (t :: (a ++ b)) List.perm_middle.symm).2, selectTool, List.find?_cons_of_pos]
      simp only [Bool.and_eq_true, decide_eq_true_eq]
      exact hfits
    constructor
    · intro t ht t' ht' hfits hfits'
      exact Option.some.inj ((hfirst t ht hfits).symm.trans (hfirst t' ht' hfits'))
    · intro hwords t ht hnil
      obtain ⟨b, hb, -⟩ := (longestTool_spec tools).longest t ht (begins_of_nil hnil)
      have hsame := (h tools (.refl _)).1
      rw [if_neg hwords, Option.mem_def.mp hb] at hsame
      exact ⟨b, selectTool_eq_some hsame.symm⟩
  · intro h tools' hperm
    have hperm' := h.perm hperm
    constructor
    · split_ifs with hwords
      · rw [hwords, selectTool_eq_none fun t _ => not_fits_nil]
      · exact hperm'.longestTool_eq hwords
    · by_cases hex : ∃ t ∈ tools, Fits ns words t
      · obtain ⟨t, ht, hfits⟩ := hex
        rw [h.selectTool_eq ht hfits, hperm'.selectTool_eq (hperm.mem_iff.mpr ht) hfits]
      · have hno : ∀ t ∈ tools, ¬ Fits ns words t := fun t ht hfits => hex ⟨t, ht, hfits⟩
        rw [selectTool_eq_none hno, selectTool_eq_none fun t ht => hno t (hperm.mem_iff.mp ht)]

namespace Demo

def tool (command path : String) : Tool :=
  { id := "", command := command, method := "GET", path := path, components := [],
    operations := [], description := "", executionClass := "console-api", availability := none,
    webShell := none, actionBinding := none }

/-- Two tools, of which one begins the words of the other. -/
def manifest : ToolManifest :=
  ⟨"CLIContribution", [tool "os cluster node" "/nodes", tool "os cluster node drain" "/drains"]⟩

end Demo

/-- Draining a node lists the nodes, and its help describes the drain. -/
theorem help_differs : validateToolManifest Demo.manifest = .ok () ∧
    selectTool "cluster" (nonFlagArgs ["node", "drain"]) Demo.manifest.tools =
      some (Demo.tool "os cluster node" "/nodes") ∧
    (printDynamicCommandHelp "cluster" ["node", "drain"] Demo.manifest).described =
      some (Demo.tool "os cluster node drain" "/drains") ∧
    Demo.tool "os cluster node" "/nodes" ≠ Demo.tool "os cluster node drain" "/drains" :=
  ⟨rfl, rfl, rfl, fun h => absurd (congrArg Tool.path h) (by decide)⟩

end Cli
