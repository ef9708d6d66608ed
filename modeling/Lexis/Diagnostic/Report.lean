import Lexis.Diagnostic
import Lexis.Text.Lines

/-!
The two forms in which a diagnostic is shown: `Diagnostic.report` gives all there is to say about it,
and `Diagnostic.render` shows the line of the text with a caret below the place. Both change the case
of the severity, which is a word of ASCII letters; severities with other letters are left out.
-/

namespace Lexis.Diagnostic

/-- The help as a line of its own. An empty help has none. -/
def helpLines (d : Diagnostic) : List String :=
  match d.help with
  | none | some "" => []
  | some help => ["  help: " ++ help]

/-- The suggestions below a heading. An empty list of them has none. -/
def suggestionLines (d : Diagnostic) : List String :=
  match d.suggestions with
  | none | some [] => []
  | some suggestions => "  suggestions:" :: suggestions.map ("    - " ++ ·)

/-- The lines of the full report, with an ASCII severity in large letters. -/
def reportLines (d : Diagnostic) : List String :=
  [d.severity.toUpper ++ "[" ++ d.fault.code ++ "]: " ++ d.message,
    "  --> " ++ d.location.text] ++ d.helpLines ++ d.suggestionLines

/-- The full report: severity, code, message, place, help and suggestions. -/
def report (d : Diagnostic) : String := Text.unlines d.reportLines

/-- An ASCII word with its first letter large and all others small. -/
def capitalize (word : String) : String :=
  match word.toList with
  | [] => ""
  | c :: cs => String.ofList (c.toUpper :: cs.map Char.toLower)

/-- What stands before the text's own line in the rendered form. -/
def gutter (d : Diagnostic) : String := "   " ++ Decimal.ofInt d.location.line ++ " | "

/-- The blanks that bring the caret below the column of the place. -/
def padding (d : Diagnostic) : String :=
  String.ofList (List.replicate ((d.gutter.length : Int) + d.location.column - 1).toNat ' ')

/-- The lines of the rendered form. -/
def renderLines (d : Diagnostic) (source : String) : List String :=
  [capitalize d.severity ++ "[" ++ d.fault.code ++ "]:",
    d.gutter ++ Text.lineAt d.location.line source,
    d.padding ++ "^--- " ++ d.message] ++ d.helpLines

/-- The rendered form: the line of the text, a caret below the place with the message, the help. -/
def render (d : Diagnostic) (source : String) : String := Text.unlines (d.renderLines source)

end Lexis.Diagnostic
