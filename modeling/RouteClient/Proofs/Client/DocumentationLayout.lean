import Mathlib.Data.List.Forall2
import RouteClient.Client.FunctionText
import RouteClient.Proofs.Code.Comment

/-!
# Layout of the documentation of a function

The documentation of a function is laid out in lines: its description, its tags and a trailer, the
first two with an empty line behind them (`Route.layout`). Its tags are the tags of the route that
have text, with the tag of the connection handle before the first `@param` tag
(`Tag.PutBeforeParam`). When all that the documentation is made of fits on lines, the comment has
just these lines (`Route.documentation_laidOut`).
-/

namespace RouteClient

open Code (docComment docLines guarded normalized)
open Settings (isSingleLine)
open Text (IsReplaced lines)

namespace Tag

/-- Tags with another one put before the first `@param` tag. Without such a tag none is put in. -/
inductive PutBeforeParam (tag : Tag) : (tags shown : List Tag) → Prop
  | none {tags : List Tag} (others : ∀ t ∈ tags, t.name ≠ "param") : PutBeforeParam tag tags tags
  | before {front back : List Tag} {first : Tag} (others : ∀ t ∈ front, t.name ≠ "param")
      (named : first.name = "param") :
      PutBeforeParam tag (front ++ first :: back) (front ++ tag :: first :: back)

variable {tag t : Tag} {tags shown : List Tag}

namespace PutBeforeParam

private theorem cons (put : PutBeforeParam tag tags shown) (other : t.name ≠ "param") :
    PutBeforeParam tag (t :: tags) (t :: shown) := by
  cases put with
  | none others => exact .none (List.forall_mem_cons.mpr ⟨other, others⟩)
  | @before front back first others named =>
      exact @before tag (t :: front) back first (List.forall_mem_cons.mpr ⟨other, others⟩) named

private theorem of_insert (tag : Tag) (tags : List Tag) :
    PutBeforeParam tag tags (insertBeforeParam tag tags) := by
  induction tags with
  | nil => exact .none (List.forall_mem_nil _)
  | cons t ts ih =>
      by_cases named : t.name = "param"
      · rw [insertBeforeParam, if_pos named]
        exact @before tag [] ts t (List.forall_mem_nil _) named
      · rw [insertBeforeParam, if_neg named]
        exact ih.cons named

private theorem mem (put : PutBeforeParam tag tags shown) (member : t ∈ shown) :
    t = tag ∨ t ∈ tags := by
  cases put with
  | none => exact Or.inr member
  | before => simpa [or_left_comm] using member

/-- Without the tag that was put in there are the tags from before. -/
theorem erase_eq (put : PutBeforeParam tag tags shown) (named : tag.name = "param") :
    shown.erase tag = tags := by
  cases put with
  | none others => exact List.erase_of_not_mem fun member => others tag member named
  | before others =>
      rw [List.erase_append_right _ fun member => others tag member named, List.erase_cons_head]

/-- The first `@param` tag is the one that was put in. -/
theorem eq_of_find? (put : PutBeforeParam tag tags shown) (named : tag.name = "param")
    (found : shown.find? (·.name = "param") = some t) : t = tag := by
  cases put with
  | none others =>
      have isParam : t.name = "param" := by simpa using List.find?_some found
      exact absurd isParam (others t (List.mem_of_find?_eq_some found))
  | @before front _ _ others =>
      have passed : front.find? (·.name = "param") = Option.none := by simpa using others
      rw [List.find?_append, passed, Option.none_or] at found
      simpa [named, eq_comm] using found

end PutBeforeParam

end Tag

/-- The tag of the connection handle. -/
def Settings.connectionTag (s : Settings) : Tag := .param connectionName s.connectionDescription

/-- Fragments one behind the other, the text of a link behind a space. -/
def Fragment.joined : List Fragment → String
  | [] => ""
  | fragment :: rest =>
    (if fragment.kind = .linkText then " " else "") ++ fragment.text ++ joined rest

/-- Lines with an empty line behind them, if there are any. -/
def setOff (entries : List String) : List String :=
  if entries = [] then [] else entries ++ [""]

namespace Route

/-- The lines of the documentation of a route that shows the given tags. -/
def layout (r : Route) (s : Settings) (shown : List Tag) : List String :=
  setOff ([Fragment.joined r.comments].filter (· ≠ "")) ++
    setOff (shown.map fun tag => "@" ++ tag.name ++ " " ++ Fragment.joined (tag.text.getD [])) ++
    [s.attribution, "@controller " ++ r.symbol, "@path " ++ r.method.name ++ " " ++ r.path]

/-- All texts that the documentation of a route is made of fit on a line. -/
structure SingleLined (r : Route) (s : Settings) : Prop where
  comments : ∀ fragment ∈ r.comments, isSingleLine fragment.text = true
  tagNames : ∀ tag ∈ r.tags, isSingleLine tag.name = true
  tagTexts : ∀ tag ∈ r.tags, ∀ fragment ∈ tag.text.getD [], isSingleLine fragment.text = true
  symbol : isSingleLine r.symbol = true
  path : isSingleLine r.path = true
  attribution : isSingleLine s.attribution = true
  connection : isSingleLine s.connectionDescription = true

end Route

/-- Fragments are written one after the other. -/
theorem Fragment.concat_eq_joined (fragments : List Fragment) :
    concat fragments = joined fragments := by
  induction fragments with
  | nil => rfl
  | cons fragment rest ih =>
      rw [joined, ← ih, concat, List.map_cons, String.join_cons, rendered]
      split_ifs <;> simp [concat]

private theorem Tag.line_eq (tag : Tag) :
    tag.line = "@" ++ tag.name ++ " " ++ Fragment.joined (tag.text.getD []) := by
  rw [Tag.line, ← Fragment.concat_eq_joined]
  cases tag.text <;> rfl

section Text

private theorem isSingleLine_iff {text : String} :
    isSingleLine text = true ↔ '\n' ∉ text.toList ∧ '\r' ∉ text.toList := by
  simp [isSingleLine, List.forall_mem_ne', forall_and]

private theorem isSingleLine_append {front back : String} :
    isSingleLine (front ++ back) = (isSingleLine front && isSingleLine back) := by
  simp [isSingleLine, String.toList_append]

private theorem isSingleLine_joined {fragments : List Fragment}
    (single : ∀ fragment ∈ fragments, isSingleLine fragment.text = true) :
    isSingleLine (Fragment.joined fragments) = true := by
  induction fragments with
  | nil => rfl
  | cons fragment rest ih =>
      obtain ⟨first, others⟩ := List.forall_mem_cons.mp single
      rw [Fragment.joined, isSingleLine_append, isSingleLine_append, first, ih others]
      split_ifs <;> rfl

private theorem forall_mem_setOff {entries : List String}
    (single : ∀ entry ∈ entries, isSingleLine entry = true) :
    ∀ entry ∈ setOff entries, isSingleLine entry = true := by
  unfold setOff
  split_ifs
  · exact List.forall_mem_nil _
  · exact List.forall_mem_append.mpr ⟨single, List.forall_mem_singleton.mpr rfl⟩

/-- Lines with further ones behind them. -/
theorem intercalate_newline (front : List String) {back : List String} (nonempty : back ≠ []) :
    "\n".intercalate (front ++ back) =
      String.join (front.map (· ++ "\n")) ++ "\n".intercalate back := by
  induction front with
  | nil => simp
  | cons line rest ih =>
      rw [List.cons_append, String.intercalate_cons_of_ne_nil (by simp [nonempty]), ih,
        List.map_cons, String.join_cons]
      simp only [String.append_assoc]

end Text

namespace Route

variable {r : Route} {s : Settings}

/-- The tags that are shown are those with text, with the tag of the connection put in its place. -/
theorem putBeforeParam_documentedTags (r : Route) (s : Settings) :
    Tag.PutBeforeParam s.connectionTag (r.tags.filter (·.text.isSome)) (r.documentedTags s) :=
  .of_insert _ _

private theorem describedText_eq (r : Route) : r.describedText =
    String.join ((setOff ([Fragment.joined r.comments].filter (· ≠ ""))).map (· ++ "\n")) := by
  rw [describedText, Fragment.concat_eq_joined]
  by_cases empty : Fragment.joined r.comments = ""
  · simp [empty, setOff]
  · simp [empty, setOff, String.append_assoc]

private theorem taggedText_eq_join (r : Route) (s : Settings) : r.taggedText s =
    String.join ((setOff ((r.documentedTags s).map Tag.line)).map (· ++ "\n")) := by
  unfold taggedText
  cases r.documentedTags s with
  | nil => rfl
  | cons tag tags => simp [setOff, Function.comp_def, String.append_assoc]

private theorem trailerText_eq (r : Route) (s : Settings) : r.trailerText s = "\n".intercalate
    [s.attribution, "@controller " ++ r.symbol, "@path " ++ r.method.name ++ " " ++ r.path] := by
  have controller : "\n@controller " = "\n" ++ "@controller " := rfl
  have path : "\n@path " = "\n" ++ "@path " := rfl
  rw [trailerText, controller, path]
  simp only [String.intercalate_cons_cons, String.intercalate_singleton, String.append_assoc]

/-- A documentation is written as its lines. -/
theorem documentation_eq (r : Route) (s : Settings) :
    r.documentation s = "\n".intercalate (r.layout s (r.documentedTags s)) := by
  have tags : (r.documentedTags s).map (fun tag => "@" ++ tag.name ++ " " ++
      Fragment.joined (tag.text.getD [])) = (r.documentedTags s).map Tag.line :=
    List.map_congr_left fun tag _ => (Tag.line_eq tag).symm
  rw [layout, tags, intercalate_newline _ (List.cons_ne_nil _ _), List.map_append,
    String.join_append, ← describedText_eq, ← taggedText_eq_join, ← trailerText_eq, documentation]

/-- The lines of a documentation are lines. -/
theorem isSingleLine_layout (single : r.SingleLined s) :
    ∀ line ∈ r.layout s (r.documentedTags s), isSingleLine line = true := by
  have tags : ∀ tag ∈ r.documentedTags s, isSingleLine tag.name = true ∧
      ∀ fragment ∈ tag.text.getD [], isSingleLine fragment.text = true := by
    intro tag shown
    rcases (putBeforeParam_documentedTags r s).mem shown with rfl | kept
    · simp only [Settings.connectionTag, Tag.param, Option.getD_some, List.forall_mem_cons,
        single.connection]
      decide
    · have listed := List.mem_of_mem_filter kept
      exact ⟨single.tagNames tag listed, single.tagTexts tag listed⟩
  unfold layout
  refine List.forall_mem_append.mpr ⟨List.forall_mem_append.mpr
    ⟨forall_mem_setOff ?_, forall_mem_setOff ?_⟩, ?_⟩
  · intro line member
    rw [List.mem_singleton.mp (List.mem_of_mem_filter member)]
    exact isSingleLine_joined single.comments
  · intro line member
    obtain ⟨tag, shown, rfl⟩ := List.mem_map.mp member
    simp only [isSingleLine_append, (tags tag shown).1, isSingleLine_joined (tags tag shown).2]
    rfl
  · have method : isSingleLine r.method.name = true := by cases r.method <;> rfl
    simp only [List.forall_mem_cons, isSingleLine_append, single.attribution, single.symbol,
      single.path, method]
    decide

/-- Of a documentation made of lines the comment shows these lines, guarded. -/
theorem docLines_documentation (single : r.SingleLined s) :
    docLines (r.documentation s) = (r.layout s (r.documentedTags s)).map guarded := by
  have plain : ∀ line ∈ r.layout s (r.documentedTags s), '\n' ∉ line.toList ∧ '\r' ∉ line.toList :=
    fun line member => isSingleLine_iff.mp (isSingleLine_layout single line member)
  have laidOut : lines (r.documentation s) = r.layout s (r.documentedTags s) := by
    rw [documentation_eq]
    exact Text.lines_intercalate (by simp [layout]) fun line member => (plain line member).1
  have unreturned : '\r' ∉ (r.documentation s).toList := by
    have apart : '\r' ≠ '\n' := by decide
    rw [Text.mem_iff_mem_splitAt apart, ← lines, laidOut]
    rintro ⟨line, member, returned⟩
    exact (plain line member).2 returned
  have normal : normalized (r.documentation s) = r.documentation s := by
    rw [normalized, Code.normalizeLineEnds_of_not_mem unreturned, String.ofList_toList]
  rw [Code.docLines_eq, normal, Code.lines_guarded, laidOut]

/-- **The documentation of a function is laid out in lines.** It shows the tags with text, and
before the first `@param` tag that of the connection handle. When all that it is made of fits on
lines, the comment has the lines of the layout, with the closing characters replaced in each. -/
theorem documentation_laidOut (r : Route) (s : Settings) :
    Tag.PutBeforeParam s.connectionTag (r.tags.filter (·.text.isSome)) (r.documentedTags s) ∧
      (r.documentedTags s).erase s.connectionTag = r.tags.filter (·.text.isSome) ∧
      (∀ first, (r.documentedTags s).find? (·.name = "param") = some first →
        first = s.connectionTag) ∧
      r.documentation s = "\n".intercalate (r.layout s (r.documentedTags s)) ∧
      (r.SingleLined s → ∃ body,
        List.Forall₂ (IsReplaced "*/" "*\\/") (r.layout s (r.documentedTags s)) body ∧
          lines (docComment (r.documentation s)) =
            "/**" :: (body.map (" * " ++ ·) ++ [" */"])) := by
  have put := putBeforeParam_documentedTags r s
  refine ⟨put, put.erase_eq rfl, fun first found => put.eq_of_find? rfl found, documentation_eq r s,
    fun single => ⟨docLines (r.documentation s), ?_, Code.lines_docComment _⟩⟩
  rw [docLines_documentation single, List.forall₂_map_right_iff, List.forall₂_same]
  exact fun line _ => Code.isReplaced_guarded line

/-- A route with closing characters in two fragments and in its path, a link, a tag without text
before the documented parameter, and tags whose text is empty. -/
def saleRemove : Route :=
  { name := "remove", method := .delete, path := "/sales/:id/*/all"
    symbol := "SaleController.remove"
    parameters := [.path "id" "id" "string"]
    comments := [{ text := "Removes *" }, { kind := .other, text := "/" },
      { kind := .linkText, text := "ISale" }]
    tags := [{ name := "param" }, .plain "author" "", .param "id" "of the sale",
      { name := "returns", text := some [] }] }

/-- Settings that describe the connection handle in a few words. -/
def shopSettings : Settings := { connectionDescription := "to the shop" }

/-- A comment with a terminator in its description and with a tag for a parameter, line by line. -/
theorem documentation_saleRemove : saleRemove.SingleLined shopSettings ∧
    saleRemove.layout shopSettings (saleRemove.documentedTags shopSettings) =
      ["Removes */ ISale", "", "@author ", "@param connection to the shop", "@param id of the sale",
        "@returns ", "", "@sdkgen Generated by sdkgen", "@controller SaleController.remove",
        "@path DELETE /sales/:id/*/all"] ∧
    ∃ body, List.Forall₂ (IsReplaced "*/" "*\\/")
        (saleRemove.layout shopSettings (saleRemove.documentedTags shopSettings)) body ∧
      lines (docComment (saleRemove.documentation shopSettings)) =
        "/**" :: (body.map (" * " ++ ·) ++ [" */"]) := by
  have single : saleRemove.SingleLined shopSettings := by constructor <;> decide
  exact ⟨single, by decide, (documentation_laidOut saleRemove _).2.2.2.2 single⟩

end Route

end RouteClient
