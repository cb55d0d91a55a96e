import TouchedLines.Linter.Basic
import TouchedLines.Script.Comment
import TouchedLines.Script.Equality
import TouchedLines.Script.Statement

/-! # Rules for scripts

Scripts are held to the fifth edition of the language: newer syntax is an error. A second table
holds questions of quality. Neither sees comment lines.
-/

namespace TouchedLines.Script

open Text Pattern

def arrowFunctions : Rule where
  id := "arrow_functions"
  cop := "ArrowFunctions"
  severity := .error
  criterion := .pattern (text "=>")
  message := "Arrow functions (ES6) are not allowed. Use function() syntax instead."

def constLet : Rule where
  id := "const_let"
  cop := "ConstLet"
  severity := .error
  criterion := .pattern
    (boundary ++ (capture 1 (either (text "const") (text "let")) ++ boundary))
  message := "const/let (ES6) are not allowed. Use var instead."

def templateLiterals : Rule where
  id := "template_literals"
  cop := "TemplateLiterals"
  severity := .error
  criterion := .pattern
    (text "`" ++ (without '`' ++ (text "$\x7b" ++ (without '\x7d' ++ (text "\x7d" ++
      (without '`' ++ text "`"))))))
  message := "Template literals (ES6) are not allowed. Use string concatenation instead."

def destructuring : Rule where
  id := "destructuring"
  cop := "Destructuring"
  severity := .error
  criterion := .pattern
    (text "\x7b" ++ (without '\x7d' ++ (blanks ++ (text "=" ++ (blanks ++
      (without '\x7d' ++ text "\x7d"))))))
  message := "Destructuring assignment (ES6) is not allowed."

def spreadOperator : Rule where
  id := "spread_operator"
  cop := "SpreadOperator"
  severity := .error
  criterion := .pattern (text "...")
  message := "Spread operator (ES6) is not allowed."

def classes : Rule where
  id := "classes"
  cop := "Classes"
  severity := .error
  criterion := .pattern
    (boundary ++ (text "class" ++ (atLeastOne .blank ++ atLeastOne .word)))
  message := "ES6 classes are not allowed. Use function constructors instead."

def modules : Rule where
  id := "modules"
  cop := "Modules"
  severity := .error
  criterion := .pattern
    (boundary ++ (capture 1 (either (text "import") (text "export")) ++ boundary))
  message := "ES6 modules (import/export) are not allowed. Use traditional script loading."

def defaultParameters : Rule where
  id := "default_parameters"
  cop := "DefaultParameters"
  severity := .error
  criterion := .condition
    "`=` inside the parameter list of a function, arrow function or method"
    fun v => hasDefaultParameters v.line
  message := "Default parameters (ES6) are not allowed."

def restParameters : Rule where
  id := "rest_parameters"
  cop := "RestParameters"
  severity := .error
  criterion := .pattern (text "..." ++ atLeastOne .word)
  message := "Rest parameters (ES6) are not allowed."

def syntaxTable : RuleTable where
  name := "es6_syntax"
  rules := [arrowFunctions, constLet, templateLiterals, destructuring, spreadOperator, classes,
    modules, defaultParameters, restParameters]

def multipleEmptyLines : Rule where
  id := "multiple_empty_lines"
  cop := "MultipleEmptyLines"
  severity := .warning
  criterion := .condition "blank line directly after another blank line"
    fun v => v.isBlank && v.above.head?.any isBlankLine
  message := "Multiple consecutive empty lines found. Use maximum 1 empty lines."
  onBlankLines := true

def maxLineLength : Nat := 120

def lineTooLong : Rule where
  id := "line_too_long"
  cop := "LineTooLong"
  severity := .warning
  criterion := .condition "more than 120 characters"
    fun v => decide (maxLineLength < v.line.length)
  message :=
    "Line is too long (over 120 characters). Consider breaking it into multiple lines."

def consoleStatements : Rule where
  id := "console_statements"
  cop := "ConsoleStatements"
  severity := .warning
  criterion := .pattern
    (boundary ++ (text "console." ++ (capture 1 (firstOf [text "log", text "debug",
      text "info", text "warn", text "error"]) ++ (blanks ++ text "("))))
  message :=
    "Console statements should not be left in production code. Remove or use proper logging."

def inlineComment : Rule where
  id := "no_inline_comment"
  cop := "InlineComment"
  severity := .warning
  criterion := .pattern
    (one (.noneOf [.blank]) ++ (many .any ++ (text "//" ++ atLeastOne .any)))
  message := "Avoid inline comments at the end of code lines."

def evalUsage : Rule where
  id := "eval_usage"
  cop := "EvalUsage"
  severity := .error
  criterion := .pattern (boundary ++ (text "eval" ++ (blanks ++ text "(")))
  message := "eval() is dangerous and should not be used. Use safer alternatives."

def withStatement : Rule where
  id := "with_statement"
  cop := "WithStatement"
  severity := .error
  criterion := .pattern (boundary ++ (text "with" ++ (blanks ++ text "(")))
  message := "with statement is deprecated and can cause scope confusion. Avoid using it."

def documentWrite : Rule where
  id := "document_write"
  cop := "DocumentWrite"
  severity := .warning
  criterion := .pattern (boundary ++ (text "document.write" ++ (blanks ++ text "(")))
  message :=
    "document.write() can cause performance issues and security risks. Use DOM manipulation instead."

def looseEquality : Rule where
  id := "loose_equality"
  cop := "LooseEquality"
  severity := .warning
  criterion := .condition "`==` not followed by null or undefined"
    fun v => hasLoose "==".toList v.line
  message :=
    "Use strict equality (===) instead of loose equality (==) to avoid type coercion issues."
  exempts := fun v => hasStrictEquality v.line || hasStrictInequality v.line

def looseInequality : Rule where
  id := "loose_inequality"
  cop := "LooseInequality"
  severity := .warning
  criterion := .condition "`!=` not followed by null or undefined"
    fun v => hasLoose "!=".toList v.line
  message :=
    "Use strict inequality (!==) instead of loose inequality (!=) to avoid type coercion issues."
  exempts := fun v => hasStrictInequality v.line

def unusedVariables : Rule where
  id := "unused_variables"
  cop := "UnusedVariables"
  severity := .warning
  criterion := .pattern declaration
  message := "Variable is declared but may not be used. Consider removing if unused."
  exempts := isUsedBelow

def missingSemicolon : Rule where
  id := "missing_semicolon"
  cop := "MissingSemicolon"
  severity := .warning
  criterion := .pattern
    (one (.noneOf [.char ';', .char '\x7b', .char '\x7d']) ++ (blanks ++ lineEnd))
  message := "Missing semicolon at end of statement. Add semicolon for consistency."
  exempts := needsNoSemicolon

def innerHtmlUsage : Rule where
  id := "innerhtml_usage"
  cop := "InnerhtmlUsage"
  severity := .warning
  criterion := .pattern (text ".innerHTML" ++ (blanks ++ text "="))
  message := "innerHTML can cause XSS vulnerabilities. Use textContent or proper sanitization."

def globalVariables : Rule where
  id := "global_variables"
  cop := "GlobalVariables"
  severity := .warning
  criterion := .pattern (lineStart ++ (one nameStart ++ (many nameRest ++ (blanks ++ text "="))))
  message :=
    "Global variable declaration detected. Consider using var to avoid global scope pollution."

def qualityTable : RuleTable where
  name := "code_quality"
  rules := [multipleEmptyLines, lineTooLong, consoleStatements, inlineComment, evalUsage,
    withStatement, documentWrite, looseEquality, looseInequality, unusedVariables,
    missingSemicolon, innerHtmlUsage, globalVariables]

def linter : Linter where
  category := .javascript
  tables := [syntaxTable, qualityTable]
  skips := isComment

end TouchedLines.Script
