import Mathlib.Data.List.Basic
import Mathlib.Tactic.SplitIfs
import PageGen.Text.Escape

/-! Tables of character references. Substitutions that are made one after the
other write each character on its own, whatever stands around it, if none of
them meets a character that an earlier one has written. References are written
so when the ampersand comes first, as it does in a table. What is written with a
table is read back by everyone who knows its references, and all texts in which
special characters stand in references alone are written by it. -/
namespace PageGen

namespace Escape

/-- One substitution after the other, in the order of the list. -/
def successive (rules : List (Char × List Char)) (text : List Char) : List Char :=
  rules.foldl (fun text rule => substitute rule.1 rule.2 text) text

/-- What the first rule for a character puts in its place. -/
def replaced : List (Char × List Char) → Char → List Char
  | [], c => [c]
  | rule :: rules, c => if c = rule.1 then rule.2 else replaced rules c

theorem replaced_of_absent {rules : List (Char × List Char)} {c : Char}
    (hAbsent : ∀ rule ∈ rules, c ≠ rule.1) : replaced rules c = [c] := by
  induction rules with
  | nil => rfl
  | cons rule rules ih =>
      rw [List.forall_mem_cons] at hAbsent
      rw [replaced, if_neg hAbsent.1, ih hAbsent.2]

theorem replaced_of_mem {rules : List (Char × List Char)} {rule : Char × List Char}
    (hDistinct : rules.Pairwise fun first second => first.1 ≠ second.1) (hMem : rule ∈ rules) :
    replaced rules rule.1 = rule.2 := by
  induction rules with
  | nil => cases hMem
  | cons first rules ih =>
      obtain ⟨hFirst, hOthers⟩ := List.pairwise_cons.mp hDistinct
      rcases List.mem_cons.mp hMem with rfl | hMem
      · rw [replaced, if_pos rfl]
      · rw [replaced, if_neg (hFirst rule hMem).symm, ih hOthers hMem]

/-- A text stays as it is if there is a rule for none of its characters. -/
theorem flatMap_replaced_of_absent {rules : List (Char × List Char)} {text : List Char}
    (hAbsent : ∀ rule ∈ rules, rule.1 ∉ text) : text.flatMap (replaced rules) = text := by
  induction text with
  | nil => rfl
  | cons c rest ih =>
      have hHead : replaced rules c = [c] :=
        replaced_of_absent fun rule hRule hSame =>
          hAbsent rule hRule (hSame ▸ List.mem_cons_self)
      have hTail := ih fun rule hRule hMem => hAbsent rule hRule (List.mem_cons_of_mem c hMem)
      rw [List.flatMap_cons, hHead, hTail, List.singleton_append]

/-- Substitutions that follow each other are made at once if none of them finds
its character in what an earlier one has put in. -/
theorem successive_eq_flatMap {rules : List (Char × List Char)}
    (hOrder : rules.Pairwise fun earlier later => later.1 ∉ earlier.2) (text : List Char) :
    successive rules text = text.flatMap (replaced rules) := by
  induction rules generalizing text with
  | nil => exact (List.flatMap_singleton' text).symm
  | cons rule rules ih =>
      obtain ⟨hFirst, hOthers⟩ := List.pairwise_cons.mp hOrder
      change successive rules (substitute rule.1 rule.2 text) = _
      rw [ih hOthers, substitute, List.flatMap_assoc]
      congr 1
      funext c
      rw [replaced]
      split_ifs with hSame
      · exact flatMap_replaced_of_absent hFirst
      · simp

/-- The ampersand that is put in for the first character is met by the second rule. -/
example : successive [('<', "&lt;".toList), ('&', "&amp;".toList)] ['<'] = "&amp;lt;".toList := by
  decide

end Escape

/-- A character and the name of the reference that stands for it. -/
structure CharacterReference where
  character : Char
  name : List Char
  deriving DecidableEq

namespace CharacterReference

/-- The reference as it is written, from the ampersand to the semicolon. -/
def written (reference : CharacterReference) : List Char := '&' :: (reference.name ++ [';'])

def ampersand : CharacterReference := ⟨'&', "amp".toList⟩

end CharacterReference

/-- References for the ampersand and for some other characters. -/
structure ReferenceTable where
  others : List CharacterReference
  distinct : (CharacterReference.ampersand :: others).Pairwise fun first second =>
    first.character ≠ second.character ∧ first.name ≠ second.name
  /-- Behind its ampersand a reference has no character in it that one is for. -/
  plain : ∀ reference ∈ CharacterReference.ampersand :: others,
    ∀ special ∈ CharacterReference.ampersand :: others,
      special.character ∉ reference.name ++ [';']
  /-- The first semicolon ends the name. -/
  closed : ∀ reference ∈ CharacterReference.ampersand :: others, ';' ∉ reference.name

namespace Reference

/-- What stands behind an ampersand, if the characters before the next semicolon
are the name of a reference: what the reference means, and what comes after it. -/
def next? (meaning : List Char → Option (List Char)) (text : List Char) :
    Option (List Char × List Char) :=
  match text.dropWhile (· ≠ ';') with
  | [] => none
  | _ :: rest => (meaning (text.takeWhile (· ≠ ';'))).map fun meant => (meant, rest)

theorem length_next?_lt {meaning : List Char → Option (List Char)}
    {text meant rest : List Char} (hNext : next? meaning text = some (meant, rest)) :
    rest.length < text.length := by
  unfold next? at hNext
  split at hNext
  · cases hNext
  · next first others hDrop =>
      obtain ⟨_, -, hPair⟩ := Option.map_eq_some_iff.mp hNext
      cases hPair
      have hShorter := (List.dropWhile_suffix (l := text) (· ≠ ';')).length_le
      rw [hDrop, List.length_cons] at hShorter
      omega

/-- A text with its references read by someone who knows what some names mean.
An ampersand that starts no known reference stands for itself, as every other
character does. -/
def read (meaning : List Char → Option (List Char)) : List Char → List Char
  | [] => []
  | c :: rest =>
    if c = '&' then
      match _hNext : next? meaning rest with
      | some (meant, after) => meant ++ read meaning after
      | none => '&' :: read meaning rest
    else c :: read meaning rest
termination_by text => text.length
decreasing_by
  · exact Nat.lt_succ_of_lt (length_next?_lt _hNext)
  · exact Nat.lt_succ_self _
  · exact Nat.lt_succ_self _

variable {meaning : List Char → Option (List Char)}

@[simp] theorem read_nil : read meaning [] = [] := by
  unfold read
  rfl

theorem read_cons {c : Char} (hPlain : c ≠ '&') (rest : List Char) :
    read meaning (c :: rest) = c :: read meaning rest := by
  rw [read, if_neg hPlain]

theorem next?_name {name : List Char} (hClosed : ';' ∉ name) (rest : List Char) :
    next? meaning (name ++ ';' :: rest) = (meaning name).map fun meant => (meant, rest) := by
  have hName : ∀ c ∈ name, (decide (c ≠ ';')) = true := by
    intro c hMem
    exact decide_eq_true (ne_of_mem_of_not_mem hMem hClosed)
  unfold next?
  rw [List.dropWhile_append_of_pos hName, List.takeWhile_append_of_pos hName]
  simp

/-- Only what stands before the first semicolon is taken for a name. -/
theorem exists_name_of_next? {text meant rest : List Char}
    (hNext : next? meaning text = some (meant, rest)) :
    ∃ name, meaning name = some meant ∧ text = name ++ ';' :: rest := by
  unfold next? at hNext
  split at hNext
  · cases hNext
  · next first others hDrop =>
      obtain ⟨meant, hMeaning, hPair⟩ := Option.map_eq_some_iff.mp hNext
      cases hPair
      have hFirst := List.head?_dropWhile_not (fun c => decide (c ≠ ';')) text
      rw [hDrop] at hFirst
      obtain rfl : first = ';' := by simpa using hFirst
      exact ⟨_, hMeaning, hDrop ▸ List.takeWhile_append_dropWhile.symm⟩

theorem read_ampersand {rest : List Char} (hNone : next? meaning rest = none) :
    read meaning ('&' :: rest) = '&' :: read meaning rest := by
  rw [read, if_pos rfl]
  split
  · next hNext =>
      rw [hNone] at hNext
      cases hNext
  · rfl

theorem read_written {reference : CharacterReference} {meant : List Char}
    (hClosed : ';' ∉ reference.name) (hMeaning : meaning reference.name = some meant)
    (rest : List Char) :
    read meaning (reference.written ++ rest) = meant ++ read meaning rest := by
  have hText : reference.written ++ rest = '&' :: (reference.name ++ ';' :: rest) := by
    simp [CharacterReference.written]
  have hNext : next? meaning (reference.name ++ ';' :: rest) = some (meant, rest) := by
    rw [next?_name hClosed, hMeaning, Option.map_some]
  rw [hText, read, if_pos rfl]
  split
  · next hOther =>
      rw [hNext] at hOther
      cases hOther
      rfl
  · next hNone =>
      rw [hNext] at hNone
      cases hNone

end Reference

/-- A text with its references read by someone who knows what some names mean. -/
def readReferences (meaning : List Char → Option (List Char)) (text : String) : String :=
  String.ofList (Reference.read meaning text.toList)

namespace ReferenceTable

variable (table : ReferenceTable)

def references : List CharacterReference := .ampersand :: table.others

/-- The substitutions for the table, that of the ampersand being the first. -/
def rules : List (Char × List Char) :=
  table.references.map fun reference => (reference.character, reference.written)

/-- What is written for one character. -/
def write : Char → List Char := Escape.replaced table.rules

variable {table}

theorem write_of_mem {reference : CharacterReference} (hMem : reference ∈ table.references) :
    table.write reference.character = reference.written := by
  have hDistinct : table.rules.Pairwise fun first second => first.1 ≠ second.1 :=
    List.pairwise_map.mpr (table.distinct.imp And.left)
  exact Escape.replaced_of_mem hDistinct (List.mem_map_of_mem hMem)

theorem write_of_absent {c : Char}
    (hAbsent : ∀ reference ∈ table.references, c ≠ reference.character) :
    table.write c = [c] := by
  refine Escape.replaced_of_absent fun rule hRule => ?_
  obtain ⟨reference, hMem, rfl⟩ := List.mem_map.mp hRule
  exact hAbsent reference hMem

variable (table) in
theorem write_cases (c : Char) :
    (∃ reference ∈ table.references, reference.character = c ∧
      table.write c = reference.written) ∨
    ((∀ reference ∈ table.references, c ≠ reference.character) ∧ table.write c = [c]) := by
  by_cases hSpecial : ∃ reference ∈ table.references, reference.character = c
  · obtain ⟨reference, hMem, rfl⟩ := hSpecial
    exact .inl ⟨reference, hMem, rfl, write_of_mem hMem⟩
  · have hAbsent : ∀ reference ∈ table.references, c ≠ reference.character :=
      fun reference hMem hSame => hSpecial ⟨reference, hMem, hSame.symm⟩
    exact .inr ⟨hAbsent, write_of_absent hAbsent⟩

theorem ampersand_ne {special : CharacterReference} (hMem : special ∈ table.others) :
    special.character ≠ '&' :=
  ((List.pairwise_cons.mp table.distinct).1 special hMem).1.symm

/-- The ampersand is the one special character that there is in a reference. -/
theorem not_mem_written {reference special : CharacterReference}
    (hReference : reference ∈ table.references) (hSpecial : special ∈ table.others) :
    special.character ∉ reference.written := by
  rw [CharacterReference.written, List.mem_cons, not_or]
  exact ⟨ampersand_ne hSpecial,
    table.plain reference hReference special (List.mem_cons_of_mem _ hSpecial)⟩

variable (table) in
/-- The substitutions of a table come to one, in which each character is written
on its own. -/
theorem successive_rules (text : List Char) :
    Escape.successive table.rules text = text.flatMap table.write := by
  refine Escape.successive_eq_flatMap (List.pairwise_map.mpr ?_) text
  -- Only the first of the references is that of the ampersand.
  refine List.pairwise_cons.mpr ⟨fun later hLater =>
    not_mem_written List.mem_cons_self hLater, ?_⟩
  refine List.pairwise_of_forall_mem_list fun earlier hEarlier later hLater => ?_
  exact not_mem_written (List.mem_cons_of_mem _ hEarlier) hLater

/-- A text without any special character is written as it is. -/
theorem flatMap_write_of_absent {text : List Char}
    (hAbsent : ∀ special ∈ table.references, special.character ∉ text) :
    text.flatMap table.write = text := by
  refine Escape.flatMap_replaced_of_absent fun rule hRule => ?_
  obtain ⟨special, hMem, rfl⟩ := List.mem_map.mp hRule
  exact hAbsent special hMem

variable (table) in
/-- A reader who takes every reference of the table for its character, whatever
other names mean. -/
def Knows (meaning : List Char → Option (List Char)) : Prop :=
  ∀ reference ∈ table.references, meaning reference.name = some [reference.character]

variable (table) in
/-- What the names of the table mean to someone who knows no others. -/
def meaning (name : List Char) : Option (List Char) :=
  (table.references.find? fun reference => reference.name = name).map fun reference =>
    [reference.character]

theorem find?_name {references : List CharacterReference} {reference : CharacterReference}
    (hDistinct : references.Pairwise fun first second => first.name ≠ second.name)
    (hMem : reference ∈ references) :
    references.find? (fun other => other.name = reference.name) = some reference := by
  induction references with
  | nil => cases hMem
  | cons first references ih =>
      obtain ⟨hFirst, hOthers⟩ := List.pairwise_cons.mp hDistinct
      rcases List.mem_cons.mp hMem with rfl | hMem
      · exact List.find?_cons_of_pos (decide_eq_true rfl)
      · rw [List.find?_cons_of_neg (by simpa using hFirst reference hMem), ih hOthers hMem]

theorem knows_meaning : table.Knows table.meaning := by
  intro reference hMem
  have hFound := @find?_name table.references reference
    (table.distinct.imp And.right) hMem
  rw [meaning, hFound, Option.map_some]

theorem exists_of_next? {text meant rest : List Char}
    (hNext : Reference.next? table.meaning text = some (meant, rest)) :
    ∃ reference ∈ table.references, text = reference.name ++ ';' :: rest := by
  obtain ⟨name, hMeaning, rfl⟩ := Reference.exists_name_of_next? hNext
  obtain ⟨reference, hFound, -⟩ := Option.map_eq_some_iff.mp hMeaning
  obtain rfl : reference.name = name := by simpa using List.find?_some hFound
  exact ⟨reference, List.mem_of_find?_eq_some hFound, rfl⟩

theorem read_write {meaning : List Char → Option (List Char)} (hKnows : table.Knows meaning)
    (c : Char) (rest : List Char) :
    Reference.read meaning (table.write c ++ rest) = c :: Reference.read meaning rest := by
  obtain ⟨reference, hMem, rfl, hWrite⟩ | ⟨hAbsent, hWrite⟩ := table.write_cases c
  · rw [hWrite, Reference.read_written (table.closed reference hMem) (hKnows reference hMem),
      List.singleton_append]
  · have hPlain : c ≠ '&' := hAbsent .ampersand List.mem_cons_self
    rw [hWrite, List.singleton_append, Reference.read_cons hPlain]

theorem read_flatMap_write {meaning : List Char → Option (List Char)}
    (hKnows : table.Knows meaning) (text : List Char) :
    Reference.read meaning (text.flatMap table.write) = text := by
  induction text with
  | nil => exact Reference.read_nil
  | cons c rest ih => rw [List.flatMap_cons, read_write hKnows, ih]

variable (table) in
/-- Of the special characters there is none but the ampersand, and every
ampersand starts one of the references. -/
structure Escaped (written : List Char) : Prop where
  absent : ∀ special ∈ table.others, special.character ∉ written
  starts : ∀ rest, '&' :: rest <:+ written →
    ∃ reference ∈ table.references, reference.written <+: '&' :: rest

theorem suffix_of_not_mem {c : Char} {front back rest : List Char} (hFront : c ∉ front)
    (hSuffix : c :: rest <:+ front ++ back) : c :: rest <:+ back := by
  induction front with
  | nil => exact hSuffix
  | cons first front ih =>
      rw [List.mem_cons, not_or] at hFront
      rw [List.cons_append, List.suffix_cons_iff] at hSuffix
      rcases hSuffix with hWhole | hLater
      · exact absurd (List.cons.inj hWhole).1 hFront.1
      · exact ih hFront.2 hLater

theorem Escaped.write_append {written : List Char} (hEscaped : table.Escaped written)
    (c : Char) : table.Escaped (table.write c ++ written) := by
  obtain ⟨reference, hMem, rfl, hWrite⟩ | ⟨hAbsent, hWrite⟩ := table.write_cases c
  · rw [hWrite]
    refine ⟨fun special hSpecial => ?_, fun rest hSuffix => ?_⟩
    · rw [List.mem_append, not_or]
      exact ⟨not_mem_written hMem hSpecial, hEscaped.absent special hSpecial⟩
    · have hName : '&' ∉ reference.name ++ [';'] :=
        table.plain reference hMem .ampersand List.mem_cons_self
      rw [CharacterReference.written, List.cons_append, List.suffix_cons_iff] at hSuffix
      rcases hSuffix with hWhole | hLater
      · exact ⟨reference, hMem, written, hWhole.symm⟩
      · exact hEscaped.starts rest (suffix_of_not_mem hName hLater)
  · rw [hWrite]
    refine ⟨fun special hSpecial => ?_, fun rest hSuffix => ?_⟩
    · rw [List.singleton_append, List.mem_cons, not_or]
      exact ⟨(hAbsent special (List.mem_cons_of_mem _ hSpecial)).symm,
        hEscaped.absent special hSpecial⟩
    · have hPlain : '&' ∉ [c] :=
        mt List.mem_singleton.mp (hAbsent .ampersand List.mem_cons_self).symm
      exact hEscaped.starts rest (suffix_of_not_mem hPlain hSuffix)

theorem escaped_flatMap_write (text : List Char) : table.Escaped (text.flatMap table.write) := by
  induction text with
  | nil => exact ⟨by simp, by simp⟩
  | cons c rest ih => exact ih.write_append c

theorem Escaped.of_suffix {written rest : List Char} (hEscaped : table.Escaped written)
    (hSuffix : rest <:+ written) : table.Escaped rest :=
  ⟨fun special hSpecial hMem => hEscaped.absent special hSpecial (hSuffix.subset hMem),
    fun later hLater => hEscaped.starts later (hLater.trans hSuffix)⟩

/-- A reference at the front is read as its character. -/
theorem Escaped.next?_eq {rest : List Char} (hEscaped : table.Escaped ('&' :: rest)) :
    ∃ reference ∈ table.references, ∃ after, rest = reference.name ++ ';' :: after ∧
      Reference.next? table.meaning rest = some ([reference.character], after) := by
  obtain ⟨reference, hMem, after, hText⟩ := hEscaped.starts rest List.suffix_rfl
  have hRest : rest = reference.name ++ ';' :: after := by
    simpa [CharacterReference.written] using hText.symm
  refine ⟨reference, hMem, after, hRest, ?_⟩
  rw [hRest, Reference.next?_name (table.closed reference hMem), knows_meaning reference hMem,
    Option.map_some]

/-- A text whose special characters stand in references alone is what is written
for the text that it reads as. -/
theorem flatMap_write_read {written : List Char} (hEscaped : table.Escaped written) :
    (Reference.read table.meaning written).flatMap table.write = written := by
  induction written using Reference.read.induct table.meaning with
  | case1 => rw [Reference.read_nil, List.flatMap_nil]
  | case2 rest meant after hNext ih =>
      obtain ⟨reference, hMem, behind, rfl, hOther⟩ := hEscaped.next?_eq
      obtain ⟨rfl, rfl⟩ : [reference.character] = meant ∧ behind = after := by
        simpa [hOther] using hNext
      have hText : '&' :: (reference.name ++ ';' :: behind) = reference.written ++ behind := by
        simp [CharacterReference.written]
      have hBehind := hEscaped.of_suffix (hText ▸ List.suffix_append reference.written behind)
      rw [hText, Reference.read_written (table.closed reference hMem)
        (knows_meaning reference hMem), List.singleton_append, List.flatMap_cons,
        write_of_mem hMem, ih hBehind]
  | case3 rest hNext ih =>
      obtain ⟨reference, hMem, behind, rfl, hOther⟩ := hEscaped.next?_eq
      rw [hNext] at hOther
      cases hOther
  | case4 c rest hPlain ih =>
      have hAbsent : ∀ reference ∈ table.references, c ≠ reference.character := by
        intro reference hMem
        rcases List.mem_cons.mp hMem with rfl | hOther
        · exact hPlain
        · rintro rfl
          exact hEscaped.absent reference hOther List.mem_cons_self
      rw [Reference.read_cons hPlain, List.flatMap_cons, write_of_absent hAbsent,
        ih (hEscaped.of_suffix (List.suffix_cons c rest)), List.singleton_append]

/-- There is no reference for the semicolon. -/
theorem semicolon_ne {special : CharacterReference} (hMem : special ∈ table.references) :
    special.character ≠ ';' := by
  intro hSame
  exact table.plain .ampersand List.mem_cons_self special hMem (by simp [hSame])

/-- What looks like a reference is written with a reference for its ampersand. -/
theorem flatMap_write_lookalike {name : List Char}
    (hPlain : ∀ special ∈ table.references, special.character ∉ name) :
    ('&' :: (name ++ [';'])).flatMap table.write = "&amp;".toList ++ (name ++ [';']) := by
  have hAmpersand : table.write '&' = "&amp;".toList :=
    @write_of_mem table .ampersand List.mem_cons_self
  have hBehind : (name ++ [';']).flatMap table.write = name ++ [';'] := by
    refine flatMap_write_of_absent fun special hMem => ?_
    rw [List.mem_append, List.mem_singleton, not_or]
    exact ⟨hPlain special hMem, semicolon_ne hMem⟩
  rw [List.flatMap_cons, hAmpersand, hBehind]

variable (table) in
/-- An escape that makes the substitutions of the table one after the other, and
what this comes to for every text. -/
structure Escapes (escape : String → String) : Prop where
  inTurn : ∀ text, (escape text).toList = Escape.successive table.rules text.toList
  /-- Each character of the text is written once, on its own. -/
  atOnce : ∀ text, (escape text).toList = text.toList.flatMap table.write
  escaped : ∀ text, table.Escaped (escape text).toList
  /-- No other text looks like an escaped one. -/
  exists_of_escaped : ∀ written : String,
    table.Escaped written.toList → ∃ text, escape text = written
  decoded : ∀ text, readReferences table.meaning (escape text) = text
  /-- However many references a reader knows, those of the table are the only
  ones that are found. -/
  displayed : ∀ meaning, table.Knows meaning →
    ∀ text, readReferences meaning (escape text) = text
  injective : Function.Injective escape
  append : ∀ first second, escape (first ++ second) = escape first ++ escape second
  lookalike : ∀ name : String,
    (∀ special ∈ table.references, special.character ∉ name.toList) →
      escape ("&" ++ name ++ ";") = "&amp;" ++ name ++ ";"

section

variable {escape : String → String}
  (hAtOnce : ∀ text, (escape text).toList = text.toList.flatMap table.write)

include hAtOnce

theorem readReferences_escape {meaning : List Char → Option (List Char)}
    (hKnows : table.Knows meaning) (text : String) :
    readReferences meaning (escape text) = text := by
  rw [readReferences, hAtOnce, read_flatMap_write hKnows, String.ofList_toList]

theorem escape_readReferences {written : String} (hEscaped : table.Escaped written.toList) :
    escape (readReferences table.meaning written) = written := by
  refine String.toList_injective ?_
  rw [hAtOnce, readReferences, String.toList_ofList, flatMap_write_read hEscaped]

theorem escape_append (first second : String) :
    escape (first ++ second) = escape first ++ escape second := by
  refine String.toList_injective ?_
  rw [hAtOnce, String.toList_append, List.flatMap_append, String.toList_append, hAtOnce, hAtOnce]

theorem escape_lookalike {name : String}
    (hPlain : ∀ special ∈ table.references, special.character ∉ name.toList) :
    escape ("&" ++ name ++ ";") = "&amp;" ++ name ++ ";" := by
  refine String.toList_injective ?_
  have hLookalike := flatMap_write_lookalike hPlain
  simpa [hAtOnce] using hLookalike

end

theorem escapes_of_successive {escape : String → String}
    (hInTurn : ∀ text, (escape text).toList = Escape.successive table.rules text.toList) :
    table.Escapes escape := by
  have hAtOnce : ∀ text, (escape text).toList = text.toList.flatMap table.write :=
    fun text => (hInTurn text).trans (table.successive_rules text.toList)
  have hDecoded := readReferences_escape hAtOnce knows_meaning
  refine ⟨hInTurn, hAtOnce, fun text => ?_, fun written hEscaped => ?_, hDecoded,
    fun meaning hKnows => readReferences_escape hAtOnce hKnows,
    Function.LeftInverse.injective hDecoded, escape_append hAtOnce,
    fun name hPlain => escape_lookalike hAtOnce hPlain⟩
  · rw [hAtOnce]
    exact escaped_flatMap_write text.toList
  · exact ⟨_, escape_readReferences hAtOnce hEscaped⟩

end ReferenceTable

end PageGen
