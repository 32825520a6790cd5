import RouteClient.Proofs.Client.Capture
import RouteClient.Proofs.Json.Decoding
import RouteClient.Proofs.Json.Writing
import RouteClient.Proofs.Module.Assembly

/-!
# What string literals denote

`Json.Denotes` relates a literal to its value: it is one quoted string by the grammar, nothing in it
closes it before its end, and decoding it gives the value. `denotes_of_token` shows this of every
quoted string that stands for a text, however it is spelled. The main statement,
`literals_denote`, adds the spelling in use and the places where generated code has it: the path of
a route in its companion, and the specifiers of the re-exports in a module file.
-/

namespace RouteClient

open Outcome (map_eq_ok)

namespace Json

/-- A literal denotes a value when it is one quoted string of the grammar, without raw control
characters, that ends at its last quote whatever follows, and that is decoded to the value. -/
structure Denotes (literal value : String) : Prop where
  token : ∃ q : Quotation, literal.toList = q.token ∧ q.text? = some value
  printable : ∀ c ∈ literal.toList, 32 ≤ c.toNat
  closed : ∃ inside, literal.toList = '\x22' :: inside ∧
    ∀ rest, (stringBody (inside ++ rest)).Reads (some value.toList) rest
  decoded : Decoder.run Decoder.string literal.toList = .ok value

variable {c char : Char} {n : Nat}

private theorem printable_of_letterEscape? (known : letterEscape? c = some char) :
    32 ≤ c.toNat := by
  by_contra control
  have differs (d : Char) (printable : 32 ≤ d.toNat) : c ≠ d := by
    intro same
    rw [same] at control
    exact control printable
  have unknown : letterEscape? c = none := by
    simp [letterEscape?, differs]
  rw [unknown] at known
  cases known

private theorem printable_of_hexValue? (known : hexValue? c = some n) : 32 ≤ c.toNat := by
  have least (d : Char) (printable : 32 ≤ d.toNat) (above : d ≤ c) : 32 ≤ c.toNat :=
    Nat.le_trans printable above
  unfold hexValue? at known
  simp only [Bool.and_eq_true, decide_eq_true_eq] at known
  split at known
  next digit => exact least '0' (by decide) digit.1
  split at known
  next lower => exact least 'a' (by decide) lower.1
  split at known
  next upper => exact least 'A' (by decide) upper.1
  cases known

private theorem Piece.printable (p : Piece) : ∀ c ∈ p.chars, 32 ≤ c.toNat := by
  cases p with
  | plain d free =>
      intro c member
      rw [List.mem_singleton.mp member]
      exact free.2.2
  | letter d char known =>
      simpa [chars] using printable_of_letterEscape? known
  | unit a b c d number known =>
      simp only [hexUnit?, bind, Option.bind_eq_some_iff] at known
      obtain ⟨_, first, _, second, _, third, _, fourth, _⟩ := known
      simp [chars, printable_of_hexValue? first, printable_of_hexValue? second,
        printable_of_hexValue? third, printable_of_hexValue? fourth]

/-- No quoted string has raw control characters. -/
theorem Quotation.printable (q : Quotation) : ∀ c ∈ q.token, 32 ≤ c.toNat := by
  intro c member
  rw [token, List.mem_cons, List.mem_append, List.mem_singleton] at member
  rcases member with rfl | inside | rfl
  · decide
  · obtain ⟨p, _, among⟩ := List.mem_flatMap.mp inside
    exact p.printable c among
  · decide

/-- A quoted string that stands for a text denotes it. -/
theorem denotes_of_token {literal value : String} {q : Quotation} (same : literal.toList = q.token)
    (text : q.text? = some value) : Denotes literal value where
  token := ⟨q, same, text⟩
  printable := same ▸ q.printable
  closed := by
    refine ⟨q.inside ++ ['\x22'], same, fun rest => ?_⟩
    have chars : q.chars? = some value.toList := by
      obtain ⟨cs, known, rfl⟩ := Option.map_eq_some_iff.mp text
      rw [known, String.toList_ofList]
    have reads := stringBody_inside rest q
    rw [chars] at reads
    rw [List.append_assoc]
    exact reads
  decoded := by
    have whole : (Spelling.string q).tokens.flatten = literal.toList := by
      rw [Spelling.tokens, List.flatten_singleton, same]
    have spaced := Spaced.flatten (Spelling.string q).tokens
    rw [whole] at spaced
    exact decodes_string.run spaced (.quoted text)

/-- The literal of a text stands for the text. -/
theorem denotes_quote (value : String) : Denotes (quote value) value := by
  apply denotes_of_token (q := .of value)
  · rw [Quotation.token_of, quote, String.toList_ofList]
  · exact Quotation.text?_of value

end Json

/-- What a companion has in front of the path of its route. -/
def Companion.opening (c : Companion) : String :=
  "export namespace " ++ c.name ++ "\n\x7b\n" ++ c.aliasText ++
    "    export const METHOD = " ++ Json.quote c.method.name ++ ";\n"

/-- A companion declares its path as the literal of the path. -/
theorem Companion.text_path (c : Companion) : ∃ back, c.text =
    c.opening ++ "    export const PATH = " ++ Json.quote c.path ++ ";\n" ++ back := by
  refine ⟨"    export const CONFIG = \x7b\n" ++
    "        input_encrypted: " ++ boolText c.inputEncrypted ++ ",\n" ++
    "        output_encrypted: " ++ boolText c.outputEncrypted ++ ",\n" ++
    "    \x7d;\n\n" ++ c.builderText ++ "\x7d", ?_⟩
  unfold text opening factText
  simp only [String.append_assoc]

/-- The section of the re-exports of a module, with the literals given for its submodules. -/
def ModuleUnit.reExportsFrom (u : ModuleUnit) (literal : String → String) : List String :=
  if u.children = [] then []
  else ["\n".intercalate (u.children.map fun child =>
    "export * as " ++ Code.exportName child ++ " from " ++ literal child ++ ";")]

/-- **String literals denote their values.** A text as it is quoted is one literal that denotes the
text. The path of a route stands in the text of its function as a literal that denotes the path, and
each submodule of a module is re-exported from a literal that denotes its directory. -/
theorem literals_denote :
    (∀ value, Json.Denotes (Json.quote value) value) ∧
    (∀ (s : Settings) (r : Route) (text : String), r.unitText s = .ok text →
      ∃ f literal back, r.clientFunction s = .ok f ∧
        text = sectionBreak.intercalate [f.signature.text, f.body.text,
          f.companion.opening ++ "    export const PATH = " ++ literal ++ ";\n" ++ back] ∧
        Json.Denotes literal r.path) ∧
    ∀ (s : Settings) (routes : List Route) (files : SourceFiles),
      generate s routes = .ok files → ∀ file ∈ files.files,
        ∃ (u : ModuleUnit) (text : Route → String) (literal : String → String),
          file.OfUnit s routes u ∧
          (∀ r ∈ u.routes, r.unitText s = .ok (text r)) ∧
          file.content = fileLines (u.headerLines s) ++
            sectionBreak.intercalate (u.reExportsFrom literal ++ u.routes.map text) ++ "\n" ++
            fileLines (ModuleUnit.footerLines s) ∧
          ∀ child ∈ u.children, Json.Denotes (literal child) ("./" ++ child) := by
  refine ⟨Json.denotes_quote, fun s r text made => ?_, fun s routes files made file member => ?_⟩
  · obtain ⟨f, accepted, written⟩ := map_eq_ok.mp made
    have path : f.companion.path = r.path := by
      obtain ⟨_, _, _, rfl⟩ := Route.clientFunction_eq_ok.mp accepted
      rfl
    obtain ⟨back, companion⟩ := f.companion.text_path
    refine ⟨f, Json.quote r.path, back, accepted, ?_, Json.denotes_quote r.path⟩
    rw [← written, ClientFunction.text, companion, path]
  · obtain ⟨u, ofUnit⟩ := (mem_files_iff made).mp member
    obtain ⟨text, texts, assembled⟩ := ModuleUnit.eq_assembled_of_file ofUnit.written
    refine ⟨u, text, fun child => Json.quote ("./" ++ child), ofUnit, texts, ?_,
      fun child _ => Json.denotes_quote _⟩
    rw [assembled]
    rfl

end RouteClient
