/-!
# The template of module files

A module file is a fixed text with places for seven texts. The places are filled by name; a name
without a text is reported with the line and column of the first place that asks for it.
-/

namespace RouteClient

/-- The texts that vary between module files. -/
inductive TemplateVariable where
  | moduleName
  | importBase
  | encryptor
  | fetcher
  | primitive
  | connectionType
  | sections
  deriving DecidableEq

/-- The name under which a template asks for a text. -/
def TemplateVariable.name : TemplateVariable → String
  | .moduleName => "module_name"
  | .importBase => "import_prefix"
  | .encryptor => "encryptor"
  | .fetcher => "fetcher"
  | .primitive => "primitive"
  | .connectionType => "connection_type"
  | .sections => "sections"

/-- A part of a line of a template: fixed text, or a place to be filled. -/
inductive TemplatePart where
  | text (s : String)
  | slot (v : TemplateVariable)
  deriving DecidableEq

/-- The width of a part in the template itself, where a place is its name between double braces. -/
def TemplatePart.width : TemplatePart → Nat
  | .text s => s.length
  | .slot v => v.name.length + 4

/-- The lines of the module template. -/
def moduleTemplate : List (List TemplatePart) :=
  [[.text "/**"],
   [.text " * @packageDocumentation"],
   [.text " * @module ", .slot .moduleName],
   [.text " */"],
   [.text "//================================================================"],
   [.text "import \x7b ", .slot .encryptor, .text " \x7d from \x22", .slot .importBase,
    .text "__internal/", .slot .encryptor, .text "\x22;"],
   [.text "import \x7b ", .slot .fetcher, .text " \x7d from \x22", .slot .importBase,
    .text "__internal/", .slot .fetcher, .text "\x22;"],
   [.text "import \x7b ", .slot .primitive, .text " \x7d from \x22", .slot .importBase,
    .slot .primitive, .text "\x22;"],
   [.text "import type \x7b ", .slot .connectionType, .text " \x7d from \x22", .slot .importBase,
    .slot .connectionType, .text "\x22;"],
   [],
   [.slot .sections],
   [],
   [.text "//---------------------------------------------------------"],
   [.text "// TO PREVENT THE UNUSED VARIABLE ERROR"],
   [.text "//---------------------------------------------------------"],
   [.slot .encryptor, .text ";"],
   [.slot .fetcher, .text ";"],
   [.slot .primitive, .text ";"]]

/-- A place in a template that could not be filled. -/
structure MissingText where
  slot : TemplateVariable
  line : Nat
  column : Nat
  deriving DecidableEq

namespace Template

/-- The text of a part. -/
def partText (value : TemplateVariable → String) : TemplatePart → String
  | .text s => s
  | .slot v => value v

/-- A filled template. Every line ends with a line feed. -/
def fill (template : List (List TemplatePart)) (value : TemplateVariable → String) : String :=
  String.join (template.map fun line => String.join (line.map (partText value)) ++ "\n")

/-- The first place on the rest of a line that has no text. -/
def missingInLine (value : TemplateVariable → Option String) (line : Nat) :
    (column : Nat) → List TemplatePart → Option MissingText
  | _, [] => none
  | column, part :: parts =>
    match part with
    | .text _ => missingInLine value line (column + part.width) parts
    | .slot v =>
      if (value v).isSome then missingInLine value line (column + part.width) parts
      else some ⟨v, line, column⟩

/-- The first place from line number `line` on that has no text. -/
def missingFrom (value : TemplateVariable → Option String) :
    (line : Nat) → List (List TemplatePart) → Option MissingText
  | _, [] => none
  | line, parts :: rest =>
    match missingInLine value line 1 parts with
    | some missing => some missing
    | none => missingFrom value (line + 1) rest

/-- A template filled with the texts that there are, or the first place without one. -/
def render (template : List (List TemplatePart)) (value : TemplateVariable → Option String) :
    Except MissingText String :=
  match missingFrom value 1 template with
  | some missing => .error missing
  | none => .ok (fill template fun v => (value v).getD "")

end Template

end RouteClient
