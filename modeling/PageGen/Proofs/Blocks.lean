import PageGen.Css
import PageGen.Html
import PageGen.Proofs.Emission
import PageGen.Proofs.Lines

/-! What is written for a node of the head, an element of the body or a rule is a
block, whatever the texts in it. So it adds its lines wherever it is written, and
leaves the depth as it was. -/
namespace PageGen

namespace Emission

/-- Whatever is written is a block. -/
def IsBlock : Emission (List Writer.Call) → Prop
  | .written calls => Writer.IsBlock calls
  | .skipped => True
  | .unsupported _ => True

/-- The lines that are written. -/
def lines : Emission (List Writer.Call) → List Line
  | .written calls => Writer.linesOf calls
  | .skipped => []
  | .unsupported _ => []

variable {outcome : Emission (List Writer.Call)}

theorem IsBlock.writeOn_writer (hBlock : outcome.IsBlock) (writer : Writer) :
    outcome.writeOn (carryOut Writer.call) writer =
      pure (writer.append (Writer.linesText writer.indent writer.depth outcome.lines)) := by
  have hNothing : writer.append "" = writer := by simp [Writer.append]
  cases outcome with
  | written calls => exact congrArg pure (Writer.IsBlock.foldl_writer hBlock writer)
  | skipped => exact congrArg pure hNothing.symm
  | unsupported kind => exact congrArg pure hNothing.symm

end Emission

theorem Writer.isBlock_line (text : String) : IsBlock [.line text] := ⟨rfl, by simp⟩

namespace Html

theorem headNode_isBlock (context : Context) (node : Node) :
    (headNode context node).Yields Emission.IsBlock := by
  cases node with
  | div children => exact .pure trivial
  | useComponent name arguments => exact .pure trivial
  | element e =>
      cases e with
      | title text => exact .bind fun _ => .pure (Writer.isBlock_line _)
      | icon path => exact .bind fun _ => .pure (Writer.isBlock_line _)
      | _ => exact .pure trivial

/-- A page header goes two levels in and comes out of both. All other elements stay
where they are. -/
theorem bodyElement_isBlock (context : Context) (e : Element) :
    (bodyElement context e).Yields Emission.IsBlock := by
  have hLine : ∀ text, Emission.IsBlock (single text) := Writer.isBlock_line
  cases e with
  | paragraph text styles => exact .bind fun _ => .bind fun _ => .pure (hLine _)
  | button text action arguments =>
      cases action with
      | none => exact .bind fun _ => .pure (hLine _)
      | some action => exact .bind fun _ => .bind fun _ => .pure (hLine _)
  | link url text =>
      cases text with
      | none => exact .bind fun _ => .pure (hLine _)
      | some text => exact .bind fun _ => .bind fun _ => .pure (hLine _)
  | textbox name placeholder label labelAfter =>
      cases label with
      | none => exact .bind fun _ => .pure (hLine _)
      | some label =>
          have hTwo : ∀ first next : String, Writer.IsBlock [.line first, .line next] :=
            fun _ _ => ⟨rfl, by simp⟩
          cases labelAfter with
          | true => exact .bind fun _ => .bind fun _ => .pure (hTwo _ _)
          | false => exact .bind fun _ => .bind fun _ => .pure (hTwo _ _)
  | linebreak => exact .pure (hLine _)
  | image path alt styles => exact .bind fun _ => .bind fun _ => .pure (hLine _)
  | heading level text styles => exact .bind fun _ => .bind fun _ => .pure (hLine _)
  | topbar value fixed styles =>
      exact .bind fun _ => .bind fun _ => .pure ⟨rfl, by simp⟩
  | _ => exact .pure trivial

end Html

namespace Css

/-- The lines of a rule. -/
def Rule.lines (rule : Rule) : List Line :=
  ⟨0, rule.selector ++ " \x7b"⟩ ::
    (rule.declarations.map fun declaration =>
      ⟨1, declaration.1 ++ ": " ++ declaration.2 ++ ";"⟩) ++ [⟨0, "\x7d"⟩]

/-- Declarations are lines at the depth that they find. -/
theorem foldl_declarations (declarations : List (String × String)) (lines : Lines) :
    (declarations.map fun declaration =>
        Writer.Call.line (declaration.1 ++ ": " ++ declaration.2 ++ ";")).foldl Lines.call lines =
      ⟨lines.depth, lines.written ++ declarations.map fun declaration =>
        ⟨lines.depth, declaration.1 ++ ": " ++ declaration.2 ++ ";"⟩⟩ := by
  induction declarations generalizing lines with
  | nil => simp
  | cons declaration rest ih =>
      rw [List.map_cons, List.foldl_cons, ih]
      simp [Lines.call, Lines.line]

theorem Rule.linesOf_calls (rule : Rule) : Writer.linesOf rule.calls = rule.lines := by
  rw [Writer.linesOf, calls, List.foldl_append, List.foldl_append, foldl_declarations]
  rfl

theorem Rule.isBlock_calls (rule : Rule) : Writer.IsBlock rule.calls := by
  have hDeclarations : ∀ declarations : List (String × String),
      Writer.depthAfter? 1 (declarations.map fun declaration =>
        .line (declaration.1 ++ ": " ++ declaration.2 ++ ";")) = some 1 := by
    intro declarations
    induction declarations with
    | nil => rfl
    | cons declaration rest ih => exact ih
  constructor
  · have hOpen : ∀ text, Writer.depthAfter? 0 [.line text, .indent] = some 1 := fun _ => rfl
    rw [calls, Writer.depthAfter?_append, Writer.depthAfter?_append, hOpen, Option.bind_some,
      hDeclarations, Option.bind_some]
    rfl
  · simp [calls]

end Css

end PageGen
