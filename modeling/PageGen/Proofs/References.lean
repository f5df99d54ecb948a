import PageGen.Text.Escape
import PageGen.Proofs.ReferenceTables

/-! Character references. The escapes for markup are those of two tables, so they
write each character on its own, whatever stands around it, although they are
chains of substitutions. What they write reads back as the text, and has none of
the characters in it that could end it. -/
namespace PageGen

namespace ReferenceTable

/-- The five references for element content and for quoted attribute values. -/
def markup : ReferenceTable where
  others := [⟨'<', "lt".toList⟩, ⟨'>', "gt".toList⟩, ⟨'\x22', "quot".toList⟩,
    ⟨'\x27', "#39".toList⟩]
  distinct := by decide
  plain := by decide
  closed := by decide

/-- The two references for an attribute value in single quotes that holds script. -/
def singleQuotes : ReferenceTable where
  others := [⟨'\x27', "#39".toList⟩]
  distinct := by decide
  plain := by decide
  closed := by decide

/-- Who reads all five references reads the two. -/
theorem knows_singleQuotes : singleQuotes.Knows markup.meaning := by
  have hMem : ∀ reference ∈ singleQuotes.references, reference ∈ markup.references := by
    decide
  exact fun reference hReference => knows_meaning reference (hMem reference hReference)

end ReferenceTable

namespace Escape

theorem html_eq_successive (text : List Char) :
    html text = successive ReferenceTable.markup.rules text := rfl

theorem singleQuoted_eq_successive (text : List Char) :
    singleQuoted text = successive ReferenceTable.singleQuotes.rules text := rfl

end Escape

namespace Reference

/-- A text with the five character references read. An ampersand that starts
none of them stands for itself, as every other character does. -/
def decode : List Char → List Char
  | '&' :: 'a' :: 'm' :: 'p' :: ';' :: rest => '&' :: decode rest
  | '&' :: 'l' :: 't' :: ';' :: rest => '<' :: decode rest
  | '&' :: 'g' :: 't' :: ';' :: rest => '>' :: decode rest
  | '&' :: 'q' :: 'u' :: 'o' :: 't' :: ';' :: rest => '\x22' :: decode rest
  | '&' :: '#' :: '3' :: '9' :: ';' :: rest => '\x27' :: decode rest
  | c :: rest => c :: decode rest
  | [] => []

theorem decode_cons {c : Char} (hPlain : c ≠ '&') (rest : List Char) :
    decode (c :: rest) = c :: decode rest := by
  conv =>
    lhs
    unfold decode
  split <;> simp_all

/-- This is how someone reads who knows the five references and no others. -/
theorem decode_eq_read (text : List Char) :
    decode text = read ReferenceTable.markup.meaning text := by
  have hRead := @ReferenceTable.read_write .markup _ ReferenceTable.knows_meaning
  induction text using decode.induct with
  | case1 rest ih =>
      rw [decode, ih]
      exact (hRead '&' rest).symm
  | case2 rest ih =>
      rw [decode, ih]
      exact (hRead '<' rest).symm
  | case3 rest ih =>
      rw [decode, ih]
      exact (hRead '>' rest).symm
  | case4 rest ih =>
      rw [decode, ih]
      exact (hRead '\x22' rest).symm
  | case5 rest ih =>
      rw [decode, ih]
      exact (hRead '\x27' rest).symm
  | case6 c rest hAmpersand hLess hGreater hDouble hSingle ih =>
      have hOther : decode (c :: rest) = c :: decode rest := by
        rw [decode] <;> assumption
      rw [hOther, ih]
      by_cases hPlain : c = '&'
      · subst hPlain
        have hNone : next? ReferenceTable.markup.meaning rest = none := by
          refine Option.eq_none_iff_forall_ne_some.mpr ?_
          rintro ⟨meant, behind⟩ hNext
          obtain ⟨reference, hMem, rfl⟩ := ReferenceTable.exists_of_next? hNext
          simp only [ReferenceTable.references, ReferenceTable.markup, List.mem_cons,
            List.not_mem_nil, or_false] at hMem
          rcases hMem with rfl | rfl | rfl | rfl | rfl
          · exact hAmpersand behind rfl rfl
          · exact hLess behind rfl rfl
          · exact hGreater behind rfl rfl
          · exact hDouble behind rfl rfl
          · exact hSingle behind rfl rfl
        exact (read_ampersand hNone).symm
      · exact (read_cons hPlain rest).symm
  | case7 => exact read_nil.symm

/-- A character that no other is written with, and that is not written as it
stands, does not occur in what is written. -/
theorem not_mem_flatMap {write : Char → List Char} {character : Char}
    (hWrite : ∀ c, character ∉ write c) (text : List Char) :
    character ∉ text.flatMap write := by
  rw [List.mem_flatMap]
  rintro ⟨c, -, hMem⟩
  exact hWrite c hMem

theorem not_mem_html {character : Char} (hEscaped : character ∈ ['<', '>', '\x22', '\x27'])
    (text : List Char) : character ∉ Escape.html text := by
  have hSpecial : ∃ special ∈ ReferenceTable.markup.others, special.character = character := by
    simpa [ReferenceTable.markup, eq_comm] using hEscaped
  obtain ⟨special, hMem, rfl⟩ := hSpecial
  rw [Escape.html_eq_successive, ReferenceTable.successive_rules]
  exact (ReferenceTable.escaped_flatMap_write text).absent special hMem

theorem quote_not_mem_singleQuoted (text : List Char) : '\x27' ∉ Escape.singleQuoted text := by
  rw [Escape.singleQuoted_eq_successive, ReferenceTable.successive_rules]
  exact (ReferenceTable.escaped_flatMap_write text).absent ⟨'\x27', "#39".toList⟩
    List.mem_cons_self

end Reference

/-- A text as a reader of markup takes it, with its character references read. -/
def decodeReferences (text : String) : String := String.ofList (Reference.decode text.toList)

theorem decodeReferences_eq (text : String) :
    decodeReferences text = readReferences ReferenceTable.markup.meaning text := by
  rw [decodeReferences, Reference.decode_eq_read, readReferences]

theorem escapes_escapeHtml : ReferenceTable.markup.Escapes escapeHtml := by
  refine ReferenceTable.escapes_of_successive fun text => ?_
  rw [escapeHtml, String.toList_ofList, Escape.html_eq_successive]

theorem escapes_escapeSingleQuoted : ReferenceTable.singleQuotes.Escapes escapeSingleQuoted := by
  refine ReferenceTable.escapes_of_successive fun text => ?_
  rw [escapeSingleQuoted, String.toList_ofList, Escape.singleQuoted_eq_successive]

@[simp] theorem decodeReferences_escapeHtml (text : String) :
    decodeReferences (escapeHtml text) = text := by
  rw [decodeReferences_eq, escapes_escapeHtml.decoded]

@[simp] theorem decodeReferences_escapeSingleQuoted (text : String) :
    decodeReferences (escapeSingleQuoted text) = text := by
  rw [decodeReferences_eq,
    escapes_escapeSingleQuoted.displayed _ ReferenceTable.knows_singleQuotes]

/-- The escapes for markup make their substitutions one after the other, and yet
as if all were made at once. Nothing of a text is lost in them, and it is shown
as it is, also where it looks like a reference. -/
theorem markup_escapes_reversible :
    (ReferenceTable.markup.Escapes escapeHtml ∧
      ∀ text, decodeReferences (escapeHtml text) = text) ∧
    (ReferenceTable.singleQuotes.Escapes escapeSingleQuoted ∧
      ∀ text, decodeReferences (escapeSingleQuoted text) = text) :=
  ⟨⟨escapes_escapeHtml, decodeReferences_escapeHtml⟩,
    escapes_escapeSingleQuoted, decodeReferences_escapeSingleQuoted⟩

example : escapeHtml "&amp;#39;" = "&amp;amp;#39;" := by decide

end PageGen
