/-! Escaping for the places where text is put into the generated files. Each
escape is a chain of substitutions, of which every one sees what the earlier
ones have written. -/
namespace PageGen

namespace Escape

/-- Puts a text in place of every occurrence of a character. -/
def substitute (character : Char) (replacement : List Char) (text : List Char) : List Char :=
  text.flatMap fun c => if c = character then replacement else [c]

/-- Escapes for element content and for quoted attribute values. -/
def html (text : List Char) : List Char :=
  substitute '\x27' "&#39;".toList
    (substitute '\x22' "&quot;".toList
      (substitute '>' "&gt;".toList
        (substitute '<' "&lt;".toList
          (substitute '&' "&amp;".toList text))))

/-- Escapes for an attribute value in single quotes that holds script. -/
def singleQuoted (text : List Char) : List Char :=
  substitute '\x27' "&#39;".toList (substitute '&' "&amp;".toList text)

/-- Escapes for a script string in double quotes. -/
def doubleQuotedScript (text : List Char) : List Char :=
  substitute '\n' "\\n".toList
    (substitute '\x22' "\\\"".toList
      (substitute '\x5c' "\\\\".toList text))

/-- Puts a backslash between `<` and `/`, so that no end tag can stand in a script. -/
def breakEndTags : List Char → List Char
  | '<' :: '/' :: rest => '<' :: '\x5c' :: '/' :: breakEndTags rest
  | c :: rest => c :: breakEndTags rest
  | [] => []

/-- Escapes for a script string in single quotes. -/
def singleQuotedScript (text : List Char) : List Char :=
  breakEndTags
    (substitute '\n' "\\n".toList
      (substitute '\x27' "\\'".toList
        (substitute '\x5c' "\\\\".toList text)))

end Escape

@[inherit_doc Escape.html]
def escapeHtml (text : String) : String := String.ofList (Escape.html text.toList)

@[inherit_doc Escape.singleQuoted]
def escapeSingleQuoted (text : String) : String :=
  String.ofList (Escape.singleQuoted text.toList)

@[inherit_doc Escape.doubleQuotedScript]
def escapeDoubleQuotedScript (text : String) : String :=
  String.ofList (Escape.doubleQuotedScript text.toList)

@[inherit_doc Escape.singleQuotedScript]
def escapeSingleQuotedScript (text : String) : String :=
  String.ofList (Escape.singleQuotedScript text.toList)

end PageGen
