import Rill.Kernel.Content
import Rill.Lib.Mask
import Rill.Lib.Replace

/-!
# Redacted exports

An event's text leaves the kernel with the literals of the rules replaced, rule after rule.
A replacement can close up what stands around it into a literal that has had its turn.
-/

namespace Rill.Kernel

open Lib

structure RedactionRule where
  literal : String
  replacement : String
  version : String
  deriving DecidableEq, Repr

structure RedactedExport where
  text : String
  ruleVersions : List String
  deriving DecidableEq, Repr

namespace RedactionRule

/-- The literal and what stands for it, as they are looked for. -/
def turn (rule : RedactionRule) : List Char × List Char := (rule.literal.toList, rule.replacement.toList)

/-- One turn of the export's loop, on the text and the versions so far. -/
def apply (rule : RedactionRule) (state : List Char × List String) : List Char × List String :=
  let (text, ruleVersions) := state
  if occurs rule.literal.toList text then
    (replace rule.literal.toList rule.replacement.toList text, ruleVersions ++ [rule.version])
  else (text, ruleVersions)

end RedactionRule

namespace ContentEvent

def redactedExport (e : ContentEvent) (rules : List RedactionRule) : RedactedExport :=
  let (text, ruleVersions) := rules.foldl (fun state rule => rule.apply state)
    ((e.materializedText.getD "").toList, [])
  ⟨String.ofList text, ruleVersions⟩

end ContentEvent

/-- The rules whose literal was replaced at least once, each in the text its turn had. -/
def replacedRules : List RedactionRule → List Char → List RedactionRule
  | [], _ => []
  | rule :: rules, text =>
    let later := replacedRules rules (replace rule.literal.toList rule.replacement.toList text)
    if 1 < (pieces rule.literal.toList text).length then rule :: later else later

structure Exported (rules : List RedactionRule) (text : String) (out : RedactedExport) : Prop where
  clean : ∀ rule ∈ rules, ¬ rule.literal.toList <:+: out.text.toList
  versions : out.ruleVersions = (replacedRules rules text.toList).map RedactionRule.version

theorem replace_eq_self {p l : List Char} (hp : p ≠ []) (h : ¬ p <:+: l) (r : List Char) :
    replace p r l = l := by
  rw [replace, pieces_eq_singleton hp h, List.intercalate_singleton]

theorem foldl_apply {rules : List RedactionRule} (hne : ∀ rule ∈ rules, rule.literal.toList ≠ [])
    (text : List Char) (versions : List String) :
    rules.foldl (fun state rule => rule.apply state) (text, versions) =
      (replaceAll (rules.map RedactionRule.turn) text,
        versions ++ (replacedRules rules text).map RedactionRule.version) := by
  induction rules generalizing text versions with
  | nil => simp [replaceAll, replacedRules]
  | cons rule rules ih =>
    have hrule := hne rule List.mem_cons_self
    have ih := ih fun rule hrule => hne rule (List.mem_cons_of_mem _ hrule)
    have hpieces := one_lt_length_pieces_iff hrule text
    rw [List.foldl_cons, RedactionRule.apply, replacedRules, List.map_cons, replaceAll, List.foldl_cons,
      ← replaceAll]
    by_cases h : rule.literal.toList <:+: text
    · simp only [occurs_iff.mpr h, hpieces.mpr h, if_true, ih, List.map_cons, List.append_assoc,
        List.singleton_append, RedactionRule.turn]
    · have hkeep := replace_eq_self hrule h rule.replacement.toList
      simp only [occurs_iff, h, hpieces, if_false, ih, hkeep, RedactionRule.turn]

theorem redactedExport_eq {rules : List RedactionRule} (hne : ∀ rule ∈ rules, rule.literal ≠ "")
    (e : ContentEvent) :
    e.redactedExport rules =
      ⟨String.ofList (replaceAll (rules.map RedactionRule.turn) (e.materializedText.getD "").toList),
        (replacedRules rules (e.materializedText.getD "").toList).map RedactionRule.version⟩ := by
  have hne : ∀ rule ∈ rules, rule.literal.toList ≠ [] := fun rule hrule hnil =>
    hne rule hrule (String.toList_eq_nil_iff.mp hnil)
  rw [ContentEvent.redactedExport, foldl_apply hne]
  rfl

/-- An export is redacted when no literal is made again behind its turn, whatever the rules are. -/
theorem redactedExport_iff (e : ContentEvent) (rules : List RedactionRule)
    (hne : ∀ rule ∈ rules, rule.literal ≠ "") :
    Exported rules (e.materializedText.getD "") (e.redactedExport rules) ↔
      ¬ Remade (rules.map RedactionRule.turn) (e.materializedText.getD "").toList := by
  have hturns : ∀ turn ∈ rules.map RedactionRule.turn, turn.1 ≠ [] := by
    intro turn hturn
    obtain ⟨rule, hrule, rfl⟩ := List.mem_map.mp hturn
    exact fun hnil => hne rule hrule (String.toList_eq_nil_iff.mp hnil)
  rw [← clean_iff hturns, redactedExport_eq hne]
  constructor
  · intro h turn hturn
    obtain ⟨rule, hrule, rfl⟩ := List.mem_map.mp hturn
    have hclean := h.clean rule hrule
    rwa [String.toList_ofList] at hclean
  · intro h
    refine ⟨fun rule hrule => ?_, rfl⟩
    rw [String.toList_ofList]
    exact h rule.turn (List.mem_map_of_mem hrule)

/-- Two rules that mask what they are for, and none of it is made again. -/
theorem redactedExport_iff_masked :
    let rules : List RedactionRule := [⟨"secret", "[redacted]", "rule-v1"⟩, ⟨"key", "[gone]", "rule-v2"⟩]
    (ContentEvent.structuredTerminalInput "e1" 1 "my key, my secret").redactedExport rules =
        ⟨"my [gone], my [redacted]", ["rule-v1", "rule-v2"]⟩ ∧
      ¬ Remade (rules.map RedactionRule.turn) "my key, my secret".toList := by
  intro rules
  have hout : (ContentEvent.structuredTerminalInput "e1" 1 "my key, my secret").redactedExport rules =
      ⟨"my [gone], my [redacted]", ["rule-v1", "rule-v2"]⟩ := by decide
  have hne : ∀ rule ∈ rules, rule.literal ≠ "" := by decide
  refine ⟨hout, (redactedExport_iff (.structuredTerminalInput "e1" 1 "my key, my secret") rules hne).mp ?_⟩
  rw [hout]
  exact ⟨by decide, by decide⟩

/-- The rule takes the secret out of the middle of a secret, and what is left is the secret. -/
theorem secret_closes_up :
    let rule : RedactionRule := ⟨"secret", "", "rule-v1"⟩
    let out := (ContentEvent.structuredTerminalInput "e1" 1 "sesecretcret").redactedExport [rule]
    rule.literal ≠ "" ∧ ¬ rule.literal.toList <:+: rule.replacement.toList ∧
      out = ⟨"secret", ["rule-v1"]⟩ ∧ ¬ Exported [rule] "sesecretcret" out := by
  intro rule out
  have hout : out = ⟨"secret", ["rule-v1"]⟩ := by decide
  refine ⟨by decide, by simp [rule], hout, fun h => ?_⟩
  have hclean := h.clean rule List.mem_cons_self
  rw [hout] at hclean
  exact hclean (List.infix_refl _)

end Rill.Kernel
