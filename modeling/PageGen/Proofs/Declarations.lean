import Mathlib.Data.List.Nodup
import PageGen.Proofs.Encounters

/-! Declarations that are not in use. The walk over a body looks up no names but those
that the body leads to by uses, so two documents that agree on these names generate
the same site, or fail alike. A declaration may then be moved, added or repeated
without effect, as long as every name that is in use keeps its first declaration. -/
namespace PageGen

namespace Document

/-- The other document has the same first declaration, or the same lack of one, for
every name that these names lead to. -/
def AgreesFrom (document : Document) (names : List String) (other : Document) : Prop :=
  ∀ name, document.ReachableFrom names name → other.component? name = document.component? name

/-- The other document differs at most in declarations that the body does not lead to. -/
structure SameInUse (document other : Document) : Prop where
  head : other.head = document.head
  body : other.body = document.body
  scripts : other.scripts = document.scripts
  declarations : document.AgreesFrom (usedNames document.body) other

variable {document other : Document} {names names' : List String} {name : String}

theorem AgreesFrom.mono (hAgrees : document.AgreesFrom names other) (hNames : names' ⊆ names) :
    document.AgreesFrom names' other :=
  fun name hReach => hAgrees name (hReach.mono hNames)

/-- What the body of a component leads to, its name leads to. -/
theorem AgreesFrom.enter {component : Component} (hAgrees : document.AgreesFrom [name] other)
    (hComponent : document.component? name = some component) :
    document.AgreesFrom (usedNames component.body) other := by
  intro used hReach
  exact hAgrees used ((reachableFrom_singleton hComponent).mpr (Or.inr hReach))

theorem AgreesFrom.resolve (hAgrees : document.AgreesFrom [name] other) (context : Context) :
    other.resolve context name = document.resolve context name := by
  have hReach : document.ReachableFrom [name] name := ⟨name, by simp, .refl⟩
  unfold Document.resolve
  rw [hAgrees name hReach]

/-- A walk over these nodes makes the same run with either document, whether it
succeeds or fails. -/
theorem AgreesFrom.walk {σ α : Type} {pass : Pass σ α} {options : Options} (context : Context)
    (nodes : List Node) :
    document.AgreesFrom (usedNames nodes) other → ∀ output : Output σ,
      pass.walk other options context nodes output =
        pass.walk document options context nodes output := by
  induction context, nodes using document.walk_induction fun context node =>
    document.AgreesFrom node.uses other → ∀ output : Output σ,
      pass.walkNode other options context node output =
        pass.walkNode document options context node output with
  | nil context =>
      intro _ output
      rw [Pass.walk_nil, Pass.walk_nil]
  | cons context node rest ihNode ihRest =>
      intro hAgrees output
      have hNode := ihNode (hAgrees.mono (List.subset_append_left _ _))
      have hRest := ihRest (hAgrees.mono (List.subset_append_right _ _))
      simp only [Pass.walk_cons, hNode, hRest]
  | element context e hAgrees output => rw [Pass.walkNode_element, Pass.walkNode_element]
  | div context children ih hAgrees output =>
      rw [Pass.walkNode_div, Pass.walkNode_div, ih hAgrees]
  | useComponent context name arguments ih hAgrees output =>
      rw [Pass.walkNode_useComponent, Pass.walkNode_useComponent, hAgrees.resolve]
      cases hResolve : document.resolve context name with
      | error cause => rfl
      | ok component =>
          obtain ⟨-, hFirst⟩ := resolve_eq_ok_iff.mp hResolve
          have hBody := fun bindings =>
            ih component bindings hResolve (hAgrees.enter hFirst) output
          simp only [Run.ofExcept_ok, pure_bind, hBody]

namespace SameInUse

theorem compile_html (hSame : document.SameInUse other) (options : Options) :
    Html.compile other options = Html.compile document options := by
  simp only [Html.compile_eq, Html.headPart, hSame.head, hSame.body, hSame.declarations.walk]

theorem compile_css (hSame : document.SameInUse other) (options : Options) :
    Css.compile other options = Css.compile document options := by
  simp only [Css.compile, hSame.body, hSame.declarations.walk]

theorem compile_script (hSame : document.SameInUse other) (options : Options) :
    Script.compile other options = Script.compile document options := by
  simp only [Script.compile, hSame.scripts]

/-- The log tells the number of declarations, and nothing else tells the two apart. -/
theorem generate (hSame : document.SameInUse other) (options : Options) :
    (Site.generate other options).result = (Site.generate document options).result := by
  have hPart : ∀ target, Site.part target other options = Site.part target document options := by
    intro target
    unfold Site.part
    cases target with
    | html => rw [Site.compile, Site.compile, hSame.compile_html]
    | css => rw [Site.compile, Site.compile, hSame.compile_css]
    | js => rw [Site.compile, Site.compile, hSame.compile_script]
  simp only [Site.generate, hPart, Run.result_bind, Run.result_log]

end SameInUse

/-- Where all names differ, a declaration is found whatever its place. -/
theorem component?_eq_some_iff (hNames : (document.components.map Component.name).Nodup)
    {component : Component} :
    document.component? name = some component ↔
      component ∈ document.components ∧ component.name = name := by
  constructor
  · exact component?_mem
  · rintro ⟨hMem, rfl⟩
    cases hFound : document.component? component.name with
    | none =>
        have hNone := List.find?_eq_none.mp hFound component hMem
        simp at hNone
    | some found =>
        obtain ⟨hFoundMem, hName⟩ := component?_mem hFound
        rw [List.inj_on_of_nodup_map hNames hFoundMem hMem hName]

theorem component?_perm {components : List Component}
    (hNames : (document.components.map Component.name).Nodup)
    (hPerm : document.components.Perm components) (name : String) :
    { document with components := components }.component? name = document.component? name := by
  have hNames' : (components.map Component.name).Nodup := (hPerm.map _).nodup_iff.mp hNames
  apply Option.ext
  intro component
  rw [component?_eq_some_iff hNames, component?_eq_some_iff hNames']
  exact and_congr_left fun _ => hPerm.mem_iff.symm

/-- A further declaration matters to no name but its own, and not to that one
where it comes behind another declaration of the name. -/
theorem component?_insert {before after : List Component} {extra : Component}
    (hComponents : document.components = before ++ after)
    (hIdle : extra.name ≠ name ∨ ∃ earlier ∈ before, earlier.name = name) :
    { document with components := before ++ extra :: after }.component? name =
      document.component? name := by
  unfold component?
  rw [hComponents, List.find?_append, List.find?_append]
  rcases hIdle with hOther | ⟨earlier, hMem, rfl⟩
  · rw [List.find?_cons_of_neg (by simpa using hOther)]
  · cases hFound : before.find? fun component => component.name == earlier.name with
    | none =>
        have hNone := List.find?_eq_none.mp hFound earlier hMem
        simp at hNone
    | some found => rfl

end Document

/-- Generation depends on the first declarations of the names in use, and on no other
declaration. In particular it does not see the order of declarations with different
names, nor a further declaration, whatever is in it, that the body does not lead to or
that repeats the name of an earlier one. -/
theorem Site.generate_eq_of_same_in_use (document : Document) (options : Options) :
    (∀ other, document.SameInUse other →
      (generate other options).result = (generate document options).result) ∧
    (∀ components, (document.components.map Component.name).Nodup →
      document.components.Perm components →
        (generate { document with components := components } options).result =
          (generate document options).result) ∧
    (∀ before after extra, document.components = before ++ after →
      ¬ document.Reachable extra.name ∨ (∃ earlier ∈ before, earlier.name = extra.name) →
        (generate { document with components := before ++ extra :: after } options).result =
          (generate document options).result) := by
  refine ⟨?_, ?_, ?_⟩
  · intro other hSame
    exact hSame.generate options
  · intro components hNames hPerm
    have hSame : document.SameInUse { document with components := components } :=
      ⟨rfl, rfl, rfl, fun name _ => Document.component?_perm hNames hPerm name⟩
    exact hSame.generate options
  · intro before after extra hComponents hIdle
    have hSame : document.SameInUse { document with components := before ++ extra :: after } := by
      refine ⟨rfl, rfl, rfl, fun name hReach => Document.component?_insert hComponents ?_⟩
      rcases hIdle with hUnused | ⟨earlier, hMem, hName⟩
      · left
        rintro rfl
        exact hUnused hReach
      · by_cases hOwn : extra.name = name
        · exact Or.inr ⟨earlier, hMem, hName.trans hOwn⟩
        · exact Or.inl hOwn
    exact hSame.generate options

/-- A page with a card on it, and a note on the card. -/
def cardPage (components : List Component) : Document :=
  ⟨[], [.div [.useComponent "card" [.string "a"]]], [], components⟩

def card : Component := ⟨"card", [⟨"text", .string⟩], [.useComponent "note" [.symbol "text"]]⟩

def note : Component := ⟨"note", [⟨"text", .string⟩], [.element (.paragraph (.symbol "text") [])]⟩

/-- A declaration that would fail wherever it is used. -/
def selfUse : Component := ⟨"loop", [], [.useComponent "loop" [], .useComponent "nothing" []]⟩

theorem reachable_cardPage {name : String} :
    (cardPage [card, note]).Reachable name ↔ name = "card" ∨ name = "note" := by
  have hCard : (cardPage [card, note]).component? "card" = some card := rfl
  have hNote : (cardPage [card, note]).component? "note" = some note := rfl
  have hNone : ¬ (cardPage [card, note]).ReachableFrom (usedNames note.body) name :=
    Document.reachableFrom_nil
  change (cardPage [card, note]).ReachableFrom ["card"] name ↔ _
  rw [Document.reachableFrom_singleton hCard]
  change name = "card" ∨ (cardPage [card, note]).ReachableFrom ["note"] name ↔ _
  rw [Document.reachableFrom_singleton hNote, or_iff_left hNone]

theorem cardPage_generate_eq_of_same_in_use :
    (cardPage [card, note]).SameInUse (cardPage [selfUse, note, card, { note with body := [] }]) ∧
      (Site.generate (cardPage [selfUse, note, card, { note with body := [] }]) .default).result =
        (Site.generate (cardPage [card, note]) .default).result ∧
    ([card, note].map Component.name).Nodup ∧ [card, note].Perm [note, card] ∧
      (Site.generate (cardPage [note, card]) .default).result =
        (Site.generate (cardPage [card, note]) .default).result ∧
    ¬ (cardPage [card, note]).Reachable selfUse.name ∧
      (Site.generate (cardPage [card, selfUse, note]) .default).result =
        (Site.generate (cardPage [card, note]) .default).result := by
  obtain ⟨hOther, hOrder, hFurther⟩ :=
    Site.generate_eq_of_same_in_use (cardPage [card, note]) .default
  have hSame : (cardPage [card, note]).SameInUse
      (cardPage [selfUse, note, card, { note with body := [] }]) := by
    refine ⟨rfl, rfl, rfl, fun name hReach => ?_⟩
    rcases reachable_cardPage.mp hReach with rfl | rfl <;> rfl
  have hNames : ([card, note].map Component.name).Nodup := by decide
  have hPerm : [card, note].Perm [note, card] := .swap note card []
  have hUnused : ¬ (cardPage [card, note]).Reachable selfUse.name := by
    rw [reachable_cardPage]
    decide
  exact ⟨hSame, hOther _ hSame, hNames, hPerm, hOrder _ hNames hPerm, hUnused,
    hFurther [card] [note] selfUse rfl (Or.inl hUnused)⟩

end PageGen
