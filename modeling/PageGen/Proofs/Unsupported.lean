import Mathlib
import PageGen.Proofs.Encounters
import PageGen.Proofs.Simulation

/-! The list of unsupported kinds. An import is the one kind that no target
writes, so the list tells whether one has been met. The head and the script
functions are not searched below their own nodes; the body is, through containers
and components, and an import that stands anywhere else is met by no target. -/
namespace PageGen

/-- An import stands directly among these nodes. -/
def HoldsImport (nodes : List Node) : Prop := ∃ path, .element (.imported path) ∈ nodes

/-- A target comes upon an import: directly in the head, directly in a script
function, or in the body, where containers and the components that the body leads
to are searched as well. -/
def Document.MeetsImport (document : Document) : Prop :=
  HoldsImport document.head ∨ (∃ path, .imported path ∈ document.met document.body) ∨
    ∃ function ∈ document.scripts, HoldsImport function.body

/-- The list names imports, and nothing else, exactly if one has been met. -/
def TellsImport (kinds : List NodeKind) (met : Prop) : Prop :=
  kinds = [.imported] ∧ met ∨ kinds = [] ∧ ¬ met

/-- The kind of a node that no target writes, if it is looked at by itself. -/
def Node.unsupported? : Node → Option NodeKind
  | .element e => e.unsupported?
  | .div _ => none
  | .useComponent _ _ => none

namespace TellsImport

variable {kinds more : List NodeKind} {met others : Prop}

theorem nil : TellsImport [] False := Or.inr ⟨rfl, not_false⟩

theorem congr (hKinds : TellsImport kinds met) (hSame : met ↔ others) :
    TellsImport kinds others := by
  rw [← propext hSame]
  exact hKinds

/-- An import that is met is listed, unless it is listed already. -/
theorem addKind (hKinds : TellsImport kinds met) :
    TellsImport (addKind kinds .imported) True := by
  left
  rcases hKinds with ⟨rfl, -⟩ | ⟨rfl, -⟩ <;> exact ⟨rfl, trivial⟩

/-- Merging lists tells of what one of them tells. -/
theorem merge (hKinds : TellsImport kinds met) (hMore : TellsImport more others) :
    TellsImport (more.foldl PageGen.addKind kinds) (met ∨ others) := by
  rcases hMore with ⟨rfl, hOthers⟩ | ⟨rfl, hOthers⟩
  · exact hKinds.addKind.congr (by simp [hOthers])
  · exact hKinds.congr (by simp [hOthers])

end TellsImport

theorem Element.unsupported?_eq_some_iff {e : Element} {kind : NodeKind} :
    e.unsupported? = some kind ↔ kind = .imported ∧ ∃ path, e = .imported path := by
  cases e <;> simp [Element.unsupported?, eq_comm]

theorem Node.unsupported?_eq_some_iff {node : Node} {kind : NodeKind} :
    node.unsupported? = some kind ↔ kind = .imported ∧ HoldsImport [node] := by
  cases node with
  | element e =>
      rw [Node.unsupported?, Element.unsupported?_eq_some_iff]
      simp [HoldsImport, eq_comm]
  | div children => simp [Node.unsupported?, HoldsImport]
  | useComponent name arguments => simp [Node.unsupported?, HoldsImport]

theorem holdsImport_cons {node : Node} {rest : List Node} :
    HoldsImport (node :: rest) ↔ HoldsImport [node] ∨ HoldsImport rest := by
  simp only [HoldsImport, List.mem_cons, List.not_mem_nil, or_false, exists_or]

variable {σ α : Type} {options : Options} {output final : Output σ} {met : Prop}

/-- An emission adds to the list what its verdict is, if that is an import or nothing. -/
theorem Output.emit_tells {write : α → σ → Run Failure σ} {emission : Run Failure (Emission α)}
    {verdict : Option NodeKind} {imported : Prop}
    (hVerdict : ∀ kind, verdict = some kind ↔ kind = .imported ∧ imported)
    (hEmission : emission.Yields fun outcome => outcome.unsupported? = verdict)
    (hOutput : TellsImport output.unsupported met)
    (hEmit : (output.emit options write emission).result = .ok final) :
    TellsImport final.unsupported (met ∨ imported) := by
  obtain ⟨outcome, hOutcome, -, hRecord⟩ := Output.emit_result_eq_ok_iff.mp hEmit
  rw [recordEmission_result_eq_ok_iff, hEmission outcome hOutcome] at hRecord
  cases verdict with
  | none =>
      have hNot : ¬ imported := fun hImported => by simpa using (hVerdict .imported).mpr ⟨rfl, hImported⟩
      rw [hRecord]
      exact hOutput.congr (by simp [hNot])
  | some kind =>
      obtain ⟨rfl, hImported⟩ := (hVerdict kind).mp rfl
      rw [hRecord.2]
      exact hOutput.addKind.congr (by simp [hImported])

theorem Output.emitEach_tells {write : α → σ → Run Failure σ}
    {emission : Node → Run Failure (Emission α)}
    (hEmission : ∀ node, (emission node).Yields fun outcome =>
      outcome.unsupported? = node.unsupported?)
    {nodes : List Node} (hOutput : TellsImport output.unsupported met)
    (hEmit : (output.emitEach options write emission nodes).result = .ok final) :
    TellsImport final.unsupported (met ∨ HoldsImport nodes) := by
  induction nodes generalizing output met with
  | nil =>
      obtain rfl := Except.ok.inj hEmit
      exact hOutput.congr (by simp [HoldsImport])
  | cons node rest ih =>
      obtain ⟨next, hNode, hRest⟩ := Run.result_bind_eq_ok_iff.mp hEmit
      have hNext := Output.emit_tells (fun _ => Node.unsupported?_eq_some_iff) (hEmission node)
        hOutput hNode
      exact (ih hNext hRest).congr (by rw [or_assoc, ← holdsImport_cons])

/-- A walk adds to the list what the nodes come to. -/
theorem Pass.Modest.walk_tells {pass : Pass σ α} (hPass : pass.Modest)
    (hElement : ∀ context e, (pass.element context e).Yields fun outcome =>
      outcome.unsupported? = e.unsupported?)
    {document : Document} {context : Context} {nodes : List Node}
    (hOutput : TellsImport output.unsupported met)
    (hWalk : (pass.walk document options context nodes output).result = .ok final) :
    TellsImport final.unsupported (met ∨ ∃ path, .imported path ∈ document.met nodes) := by
  have hKeeps : pass.Keeps options fun seen (output : Output σ) =>
      TellsImport output.unsupported (met ∨ ∃ path, .imported path ∈ seen) := by
    constructor
    · intro context e seen before after hBefore hEmit
      refine (Output.emit_tells (fun _ => Element.unsupported?_eq_some_iff) (hElement context e)
        hBefore hEmit).congr ?_
      simp only [Set.mem_union, Set.mem_singleton_iff, exists_or, or_assoc, eq_comm]
    · intro seen before hBefore
      exact hBefore
    · intro seen before hBefore
      exact hBefore
  have hStart : TellsImport output.unsupported
      (met ∨ ∃ path, Element.imported path ∈ (∅ : Set Element)) :=
    hOutput.congr (by simp)
  have hFinal := hKeeps.walk hPass context nodes ∅ output final hStart hWalk
  rwa [Set.empty_union] at hFinal

theorem Html.headNode_yields (context : Context) (node : Node) :
    (Html.headNode context node).Yields fun outcome =>
      outcome.unsupported? = node.unsupported? := by
  cases node with
  | element e =>
      cases e with
      | title text => exact .bind fun _ => .pure rfl
      | icon path => exact .bind fun _ => .pure rfl
      | _ => exact .pure rfl
  | div children => exact .pure rfl
  | useComponent name arguments => exact .pure rfl

theorem Css.element_yields (context : Context) (e : Element) :
    (Css.element context e).Yields fun outcome => outcome.unsupported? = e.unsupported? := by
  cases e <;> exact .pure rfl

theorem Script.statement_yields (node : Node) :
    (Script.statement node).Yields fun outcome => outcome.unsupported? = node.unsupported? := by
  cases node with
  | element e =>
      cases e with
      | popup text => exact .bind fun _ => .pure rfl
      | _ => exact .pure rfl
  | div children => exact .pure rfl
  | useComponent name arguments => exact .pure rfl

variable {document : Document} {compiled : Compiled}

theorem Html.compile_tells (hPage : (Html.compile document options).result = .ok compiled) :
    TellsImport compiled.unsupported
      (HoldsImport document.head ∨ ∃ path, .imported path ∈ document.met document.body) := by
  obtain ⟨head, body, hHead, hBody, rfl⟩ := Html.compile_eq_ok_iff.mp hPage
  have hHeadKinds := Output.emitEach_tells (Html.headNode_yields Context.empty) .nil hHead
  rw [false_or] at hHeadKinds
  have hStart : TellsImport (enterBody head).unsupported
      (HoldsImport document.head) := hHeadKinds
  exact Html.pass_modest.walk_tells Html.bodyElement_yields hStart hBody

theorem Css.compile_tells (hSheet : (Css.compile document options).result = .ok compiled) :
    TellsImport compiled.unsupported (∃ path, .imported path ∈ document.met document.body) := by
  obtain ⟨body, hBody, rfl⟩ := Css.compile_eq_ok_iff.mp hSheet
  have hStart : TellsImport (Css.start options).unsupported False := .nil
  have hKinds := Css.pass_modest.walk_tells Css.element_yields hStart hBody
  rwa [false_or] at hKinds

namespace Script

variable {output final : Output Writer}

theorem addFunction_tells {function : ScriptFunction} (hOutput : TellsImport output.unsupported met)
    (hAdd : (addFunction Writer.call options function output).result = .ok final) :
    TellsImport final.unsupported (met ∨ HoldsImport function.body) := by
  rw [addFunction_eq] at hAdd
  obtain ⟨-, -, hRest⟩ := Run.result_bind_eq_ok_iff.mp hAdd
  obtain ⟨body, hBody, hEnd⟩ := Run.result_bind_eq_ok_iff.mp hRest
  obtain rfl := Except.ok.inj hEnd
  have hStart : TellsImport (opened function output).unsupported met := hOutput
  have hKinds := Output.emitEach_tells statement_yields hStart hBody
  exact hKinds

theorem addMore_tells {functions : List ScriptFunction}
    (hOutput : TellsImport output.unsupported met)
    (hAdd : (addMore Writer.call options functions output).result = .ok final) :
    TellsImport final.unsupported (met ∨ ∃ function ∈ functions, HoldsImport function.body) := by
  induction functions generalizing output met with
  | nil =>
      obtain rfl := Except.ok.inj hAdd
      exact hOutput.congr (by simp)
  | cons function rest ih =>
      obtain ⟨next, hFunction, hRest⟩ := Run.result_bind_eq_ok_iff.mp hAdd
      have hStart : TellsImport (output.map fun writer => writer.call .blank).unsupported met :=
        hOutput
      exact (ih (addFunction_tells hStart hFunction) hRest).congr (by simp [or_assoc])

theorem addAll_tells {functions : List ScriptFunction}
    (hOutput : TellsImport output.unsupported met)
    (hAdd : (addAll Writer.call options functions output).result = .ok final) :
    TellsImport final.unsupported (met ∨ ∃ function ∈ functions, HoldsImport function.body) := by
  cases functions with
  | nil =>
      obtain rfl := Except.ok.inj hAdd
      exact hOutput.congr (by simp)
  | cons function rest =>
      obtain ⟨next, hFunction, hRest⟩ := Run.result_bind_eq_ok_iff.mp hAdd
      exact (addMore_tells (addFunction_tells hOutput hFunction) hRest).congr
        (by simp [or_assoc])

theorem compile_tells (hScript : (compile document options).result = .ok compiled) :
    TellsImport compiled.unsupported (∃ function ∈ document.scripts, HoldsImport function.body) := by
  obtain ⟨output, hOutput, rfl⟩ := compile_eq_ok_iff.mp hScript
  have hKinds := addAll_tells (.nil : TellsImport (Output.mk _ []).unsupported False) hOutput
  rwa [false_or] at hKinds

end Script

/-- Unsupported nodes are reported exactly when they are met. A site that is
generated names imports, once, if a target has come upon one, and reports nothing
otherwise. What stands in a component that the body does not lead to, or in a
container of the head or of a script function, makes no difference. -/
theorem unsupported_iff_met {site : Site}
    (hSite : (Site.generate document options).result = .ok site) :
    (document.MeetsImport → site.unsupported.map NodeKind.name = ["Import"]) ∧
      (¬ document.MeetsImport → site.unsupported.map NodeKind.name = []) := by
  obtain ⟨page, sheet, script, hPage, hSheet, hScript, rfl⟩ := Site.generate_eq_ok_iff.mp hSite
  have hMerged := ((TellsImport.nil.merge (Html.compile_tells hPage)).merge
    (Css.compile_tells hSheet)).merge (Script.compile_tells hScript)
  have hKinds : TellsImport
      ((page.unsupported ++ sheet.unsupported ++ script.unsupported).foldl addKind [])
      document.MeetsImport := by
    rw [List.foldl_append, List.foldl_append]
    refine hMerged.congr ?_
    unfold Document.MeetsImport
    tauto
  rcases hKinds with ⟨hKinds, hMet⟩ | ⟨hKinds, hMet⟩
  · rw [hKinds]
    exact ⟨fun _ => rfl, fun hNot => False.elim (hNot hMet)⟩
  · rw [hKinds]
    exact ⟨fun hSome => False.elim (hMet hSome), fun _ => rfl⟩

/-- Imports in a container of the head, in one of a script function and in a
component without a use are met by no target. The one in the note is. -/
def scatteredImports : Document where
  head := [.div [.element (.imported "head")]]
  body := [.useComponent "card" []]
  scripts := [⟨"run", [], [.div [.element (.imported "script")]]⟩]
  components :=
    [⟨"card", [], [.div [.useComponent "note" []]]⟩,
    ⟨"note", [], [.element (.imported "note")]⟩,
    ⟨"unused", [], [.element (.imported "unused")]⟩]

def scatteredImportsSite : Site where
  html := "<!DOCTYPE html>\n<html>\n<head>\n<link rel=\"stylesheet\" href=\"stylesheet.css\">\n" ++
    "<script src=\"script.js\"></script>\n</head>\n<body>\n<div>\n</div>\n</body>\n</html>\n"
  css := ""
  js := "function run() \x7b\n\x7d\n"
  unsupported := [.imported]

set_option maxRecDepth 4000 in
theorem scatteredImports_unsupported :
    (Site.generate scatteredImports ⟨"", false⟩).result = .ok scatteredImportsSite ∧
      (scatteredImports.MeetsImport →
        scatteredImportsSite.unsupported.map NodeKind.name = ["Import"]) ∧
      (¬ scatteredImports.MeetsImport →
        scatteredImportsSite.unsupported.map NodeKind.name = []) := by
  have hSite : (Site.generate scatteredImports ⟨"", false⟩).result = .ok scatteredImportsSite := by
    cbv
  exact ⟨hSite, unsupported_iff_met hSite⟩

end PageGen
