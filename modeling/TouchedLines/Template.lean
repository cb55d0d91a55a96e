import TouchedLines.Linter.Basic

/-! # Rules for templates

A tag of a template is written with a blank after its opening mark.
-/

namespace TouchedLines.Template

open Pattern

/-- The rest of a tag, up to the first percent sign. -/
def tagRest : Pattern := many (.noneOf [.char '%']) ++ text "%>"

def badCommentFormat : Rule where
  id := "bad_comment_format"
  cop := "BadCommentFormat"
  severity := .error
  criterion := .pattern (text "<%" ++ (atLeastOne .blank ++ (text "#" ++ tagRest)))
  message := "Use <%# comment %> instead of <% # comment %> for ERB comments"

def badSpacing : Rule where
  id := "bad_spacing"
  cop := "BadSpacing"
  severity := .warning
  criterion := .pattern
    (text "<%" ++ (one (.noneOf [.blank, .char '#', .char '=']) ++ tagRest))
  message := "<% your_code %> for better readability"

def badOutputSpacing : Rule where
  id := "bad_output_spacing"
  cop := "BadOutputSpacing"
  severity := .warning
  criterion := .pattern (text "<%=" ++ (one .nonBlank ++ tagRest))
  message := "<%= your_code %> for better readability"

def badCommentSpacing : Rule where
  id := "bad_comment_spacing"
  cop := "BadCommentSpacing"
  severity := .warning
  criterion := .pattern (text "<%#" ++ (one .nonBlank ++ tagRest))
  message := "<%# your_comment %> for better readability"

def table : RuleTable where
  name := "erb_conventions"
  rules := [badCommentFormat, badSpacing, badOutputSpacing, badCommentSpacing]

def linter : Linter where
  category := .erb
  tables := [table]
  skips := fun _ => false

end TouchedLines.Template
