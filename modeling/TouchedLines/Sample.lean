/-! # Sample sources, listings and patches

Small texts with known offenses and known touched lines. The examples beside the general statements
say of each what it holds.
-/

namespace TouchedLines.Sample

def cleanScript : String :=
  String.join [
    "var total = 0;\n",
    "function add(value) \x7b\n",
    "  total = total + value;\n",
    "  return total;\n",
    "\x7d\n",
    "add(1);\n"]

/-- One offense on each of the first four lines: newer syntax, a console call, a loose comparison
and a call of `eval`. -/
def offendingScript : String :=
  String.join [
    "const limit = 10;\n",
    "console.log(limit);\n",
    "if (limit == 10) \x7b\n",
    "eval(code);\n",
    "\x7d\n"]

/-- A variable declared twice; the first line lacks a semicolon, the second is never used. -/
def redeclaredVariable : String := "var x = 1\nvar x = 2;\n"

def scriptWithoutFinalNewline : String := "var a = 1;\nuse(a);"

/-- One offense on each of the first four lines, one for each rule of templates. -/
def offendingTemplate : String :=
  String.join [
    "<% # legacy comment %>\n",
    "<%if admin? %>\n",
    "<p><%=user.name %></p>\n",
    "<%#todo %>\n",
    "<% end %>\n"]

def cleanTemplate : String :=
  String.join [
    "<%# header %>\n",
    "<% if admin? %>\n",
    "  <p><%= user.name %></p>\n",
    "<% end %>\n"]

/-- A listing with every code that is told apart. -/
def mixedListing : String :=
  String.join [
    "A\tapp/models/user.rb\n",
    "M\tapp/assets/site.js\n",
    "R100\tapp/views/old.html.erb\tapp/views/new.html.erb\n",
    "D\tapp/assets/gone.js\n\n"]

def twoHunkPatch : String :=
  String.join [
    "diff --git a/app/assets/site.js b/app/assets/site.js\n",
    "index 1111111..2222222 100644\n",
    "--- a/app/assets/site.js\n",
    "+++ b/app/assets/site.js\n",
    "@@ -3 +3 @@\n-var a = 1;\n+var a = 2;\n",
    "@@ -10,0 +11,2 @@\n+foo();\n+bar();\n"]

def deletionPatch : String :=
  String.join [
    "diff --git a/app/views/show.html.erb b/app/views/show.html.erb\n",
    "index 1111111..2222222 100644\n",
    "--- a/app/views/show.html.erb\n",
    "+++ b/app/views/show.html.erb\n",
    "@@ -4,2 +3,0 @@\n-<p>gone</p>\n-<p>gone</p>\n"]

/-- A patch with a hunk header whose numbers do not fit into 32 bits. -/
def malformedHunkPatch : String :=
  String.join [
    "diff --git a/lib/task.rb b/lib/task.rb\n",
    "--- a/lib/task.rb\n",
    "+++ b/lib/task.rb\n",
    "@@ -1 +99999999999,2 @@\n+puts 1\n",
    "@@ -5 +5 @@\n+puts 2\n"]

end TouchedLines.Sample
