import Mathlib.Data.List.Find
import Mathlib.Data.List.Forall2
import RouteClient.Client.FunctionText
import RouteClient.Proofs.Route.Contract

/-!
# Data of a route without influence

Some of what a route says has no influence on its text: whether a parameter other than the payload
travels encrypted, the field of a parameter that fills no placeholder, tags without text, and the
kinds of fragments other than the text of a link. Routes that differ in nothing else are alike
(`Route.Alike`). They have the same essential route, in which all this is set to fixed values, and
every stage of generation gives for the essential route what it gives for the route
(`Route.unitText_essential`).
-/

namespace RouteClient

/-- Lists are related entry by entry when their views are equal. -/
theorem forall₂_iff_map_eq {α β : Type} {related : α → α → Prop} {view : α → β}
    (same : ∀ a b, related a b ↔ view a = view b) (first second : List α) :
    List.Forall₂ related first second ↔ first.map view = second.map view := by
  have byView : related = fun a b => view a = view b :=
    funext fun a => funext fun b => propext (same a b)
  rw [byView, ← List.forall₂_eq_eq_eq, List.forall₂_map_left_iff, List.forall₂_map_right_iff]

namespace Fragment

/-- Fragments of one text, both the text of a link or neither. -/
structure Alike (a b : Fragment) : Prop where
  text : a.text = b.text
  linkText : a.kind = .linkText ↔ b.kind = .linkText

/-- A fragment that is plain unless it is the text of a link. -/
def essential (fragment : Fragment) : Fragment :=
  { fragment with kind := if fragment.kind = .linkText then .linkText else .text }

/-- Fragments are alike when they are the same but for what is not written of them. -/
theorem alike_iff (a b : Fragment) : a.Alike b ↔ a.essential = b.essential := by
  have kinds : a.essential.kind = b.essential.kind ↔ (a.kind = .linkText ↔ b.kind = .linkText) := by
    simp only [essential]
    by_cases first : a.kind = .linkText <;> by_cases second : b.kind = .linkText <;>
      simp [first, second]
  constructor
  · rintro ⟨text, linkText⟩
    exact congrArg₂ mk (kinds.mpr linkText) text
  · intro same
    have text := congrArg Fragment.text same
    exact ⟨text, kinds.mp (congrArg Fragment.kind same)⟩

@[simp] private theorem rendered_essential (fragment : Fragment) :
    fragment.essential.rendered = fragment.rendered := by
  unfold rendered essential
  by_cases linkText : fragment.kind = .linkText <;> simp [linkText]

/-- What is left of fragments is written as the fragments are. -/
@[simp] theorem concat_essential (fragments : List Fragment) :
    concat (fragments.map essential) = concat fragments := by
  simp [concat, Function.comp_def]

end Fragment

namespace Parameter

/-- Parameters that differ at most in the field, unless they fill placeholders, and in the
encryption, unless they are payloads. A field that is the name of its parameter counts as none. -/
structure Alike (p q : Parameter) : Prop where
  name : p.name = q.name
  category : p.category = q.category
  type : p.type = q.type
  encrypted : p.category = .payload → p.encrypted = q.encrypted
  field : p.category = .pathSegment → p.field = q.field ∨
    (p.field = none ∧ q.field = some q.name) ∨ (p.field = some p.name ∧ q.field = none)

/-- A parameter with a field only if it fills a placeholder, and encrypted only if it is a
payload. -/
def essential (p : Parameter) : Parameter :=
  { p with
    field := if p.category = .pathSegment then some p.placeholder else none
    encrypted := p.category = .payload && p.encrypted }

/-- Parameters of one name fill the same placeholder when their fields agree, where no field stands
for the name. -/
theorem placeholder_eq_iff {p q : Parameter} (name : p.name = q.name) :
    p.placeholder = q.placeholder ↔ p.field = q.field ∨
      (p.field = none ∧ q.field = some q.name) ∨ (p.field = some p.name ∧ q.field = none) := by
  unfold placeholder
  cases p.field <;> cases q.field <;> simp [name, eq_comm]

/-- Parameters are alike when they are the same but for what is not written of them. -/
theorem alike_iff (p q : Parameter) : p.Alike q ↔ p.essential = q.essential := by
  simp only [essential, mk.injEq]
  constructor
  · rintro ⟨name, category, type, encrypted, field⟩
    refine ⟨name, ?_, category, type, ?_⟩
    · rw [← category]
      by_cases segment : p.category = .pathSegment
      · rw [if_pos segment, if_pos segment, (placeholder_eq_iff name).mpr (field segment)]
      · rw [if_neg segment, if_neg segment]
    · rw [← category]
      by_cases payload : p.category = .payload
      · rw [encrypted payload]
      · rw [decide_eq_false payload, Bool.false_and, Bool.false_and]
  · rintro ⟨name, field, category, type, encrypted⟩
    rw [← category] at field encrypted
    refine ⟨name, category, type, ?_, ?_⟩
    · intro payload
      rwa [decide_eq_true payload, Bool.true_and, Bool.true_and] at encrypted
    · intro segment
      rw [if_pos segment, if_pos segment] at field
      exact (placeholder_eq_iff name).mp (Option.some.inj field)

@[simp] private theorem name_essential (p : Parameter) : p.essential.name = p.name := rfl

@[simp] private theorem category_essential (p : Parameter) :
    p.essential.category = p.category := rfl

@[simp] private theorem type_essential (p : Parameter) : p.essential.type = p.type := rfl

@[simp] private theorem placeholder_essential {p : Parameter}
    (segment : p.category = .pathSegment) :
    p.essential.placeholder = p.placeholder := by
  simp [essential, placeholder, segment]

@[simp] private theorem encrypted_essential {p : Parameter} (payload : p.category = .payload) :
    p.essential.encrypted = p.encrypted := by
  simp [essential, payload]

@[simp] private theorem reference_essential (p : Parameter) (primitive function : String) :
    p.essential.reference primitive function = p.reference primitive function := rfl

end Parameter

namespace Tag

/-- Tags of one name whose texts are alike. -/
structure Alike (a b : Tag) : Prop where
  name : a.name = b.name
  text : Option.Rel (List.Forall₂ Fragment.Alike) a.text b.text

/-- A tag whose fragments are reduced to what is essential. -/
def essential (tag : Tag) : Tag :=
  { tag with text := tag.text.map (·.map Fragment.essential) }

/-- Tags are alike when they are the same but for what is not written of them. -/
theorem alike_iff (a b : Tag) : a.Alike b ↔ a.essential = b.essential := by
  have texts : Option.Rel (List.Forall₂ Fragment.Alike) a.text b.text ↔
      a.text.map (·.map Fragment.essential) = b.text.map (·.map Fragment.essential) := by
    cases a.text <;> cases b.text <;> simp [forall₂_iff_map_eq Fragment.alike_iff]
  simp only [essential, mk.injEq, ← texts]
  constructor
  · rintro ⟨name, text⟩
    exact ⟨name, text⟩
  · rintro ⟨name, text⟩
    exact ⟨name, text⟩

@[simp] private theorem line_essential (tag : Tag) : tag.essential.line = tag.line := by
  unfold line essential
  cases tag.text <;> simp

end Tag

namespace Route

/-- Routes that differ in nothing but data without influence. -/
structure Alike (a b : Route) : Prop where
  name : a.name = b.name
  method : a.method = b.method
  path : a.path = b.path
  symbol : a.symbol = b.symbol
  parameters : List.Forall₂ Parameter.Alike a.parameters b.parameters
  output : a.output = b.output
  encrypted : a.encrypted = b.encrypted
  comments : List.Forall₂ Fragment.Alike a.comments b.comments
  tags : List.Forall₂ Tag.Alike (a.tags.filter (·.text.isSome)) (b.tags.filter (·.text.isSome))

/-- A route with the data without influence set to fixed values. -/
def essential (r : Route) : Route :=
  { r with
    parameters := r.parameters.map Parameter.essential
    comments := r.comments.map Fragment.essential
    tags := (r.tags.filter (·.text.isSome)).map Tag.essential }

/-- Routes are alike when they are the same but for what is not written of them. -/
theorem alike_iff (a b : Route) : a.Alike b ↔ a.essential = b.essential := by
  simp only [essential, mk.injEq, ← forall₂_iff_map_eq Parameter.alike_iff,
    ← forall₂_iff_map_eq Fragment.alike_iff, ← forall₂_iff_map_eq Tag.alike_iff]
  constructor
  · rintro ⟨name, method, path, symbol, parameters, output, encrypted, comments, tags⟩
    exact ⟨name, method, path, symbol, parameters, output, encrypted, comments, tags⟩
  · rintro ⟨name, method, path, symbol, parameters, output, encrypted, comments, tags⟩
    exact ⟨name, method, path, symbol, parameters, output, encrypted, comments, tags⟩

/-- Whether routes are alike can be decided. -/
instance (a b : Route) : Decidable (a.Alike b) :=
  decidable_of_iff _ (alike_iff a b).symm

end Route

section Documentation

variable (s : Settings) (r : Route)

private theorem Tag.map_line_insertBeforeParam (tag : Tag) (tags : List Tag) :
    (Tag.insertBeforeParam tag (tags.map Tag.essential)).map Tag.line =
      (Tag.insertBeforeParam tag tags).map Tag.line := by
  induction tags with
  | nil => rfl
  | cons t ts ih =>
      have name : t.essential.name = t.name := rfl
      simp only [List.map_cons, Tag.insertBeforeParam, name]
      by_cases isParam : t.name = "param"
      · simp [isParam, Function.comp_def]
      · simp [isParam, ih]

namespace Route

/-- The lines of the tags that the documentation shows. -/
theorem map_line_essential : (r.essential.documentedTags s).map Tag.line =
    (r.documentedTags s).map Tag.line := by
  have kept : r.essential.tags.filter (·.text.isSome) = r.essential.tags := by
    refine List.filter_eq_self.mpr fun tag member => ?_
    obtain ⟨original, listed, rfl⟩ := List.mem_map.mp member
    simpa [Tag.essential] using (List.mem_filter.mp listed).2
  rw [documentedTags, documentedTags, kept]
  exact Tag.map_line_insertBeforeParam _ _

/-- The tags of a documentation are written by their lines. -/
theorem taggedText_eq : r.taggedText s =
    match (r.documentedTags s).map Tag.line with
    | [] => ""
    | lines => String.join (lines.map (· ++ "\n")) ++ "\n" := by
  unfold taggedText
  cases r.documentedTags s with
  | nil => rfl
  | cons tag tags => simp [Function.comp_def]

private theorem documentation_essential : r.essential.documentation s = r.documentation s := by
  have described : r.essential.describedText = r.describedText := by
    simp [describedText, essential]
  rw [documentation, described, taggedText_eq, map_line_essential, ← taggedText_eq]
  rfl

end Route

end Documentation

namespace Roles

/-- Roles whose parameters are reduced to what is essential. -/
def essential (roles : Roles) : Roles where
  query := roles.query.map Parameter.essential
  payload := roles.payload.map Parameter.essential
  pathSegments := roles.pathSegments.map Parameter.essential

/-- A parameter gets the same role as the essential one. -/
theorem add_essential (route : String) (roles : Roles) (p : Parameter) :
    add route roles.essential p.essential = (add route roles p).map essential := by
  obtain ⟨query, payload, pathSegments⟩ := roles
  unfold add
  rw [Parameter.category_essential]
  cases p.category with
  | pathSegment => simp [essential, Except.map]
  | query => cases query <;> simp [essential, Except.map, taken]
  | payload => cases payload <;> simp [essential, Except.map, taken]

end Roles

namespace Route

section Checks

variable {rest segments : List Parameter} {r : Route} {roles : Roles}

private theorem parametersFault?_essential (names : List String) (parameters : List Parameter) :
    parametersFault? names (parameters.map Parameter.essential) =
      parametersFault? names parameters := by
  induction parameters generalizing names with
  | nil => rfl
  | cons p ps ih => simp [parametersFault?, ih]

private theorem checkNames_essential (r : Route) : r.essential.checkNames = r.checkNames := by
  have faults : r.essential.namesFault? = r.namesFault? := by
    simp [namesFault?, essential, parametersFault?_essential]
  rw [checkNames, checkNames, faults]
  rfl

/-- The essential route has the roles of the route. -/
theorem roles_essential (r : Route) : r.essential.roles = r.roles.map Roles.essential :=
  Outcome.foldlM_map Roles.essential Parameter.essential (Roles.add_essential r.name) {}
    r.parameters

/-- Of path-segment parameters the same one fills a placeholder. -/
theorem find?_essential (ofPath : ∀ p ∈ segments, p.category = .pathSegment) (field : String) :
    (segments.map Parameter.essential).find? (·.placeholder = field) =
      (segments.find? (·.placeholder = field)).map Parameter.essential := by
  rw [List.find?_map]
  refine congrArg _ (List.find?_congr fun p member => ?_)
  simp [Parameter.placeholder_essential (ofPath p member)]

private theorem checkBindings_essential (route : String) (names : List String)
    (before : List Parameter) (ofPath : ∀ p ∈ before ++ rest, p.category = .pathSegment) :
    checkBindings route names (before.map Parameter.essential) (rest.map Parameter.essential) =
      checkBindings route names before rest := by
  induction rest generalizing before with
  | nil => rfl
  | cons p ps ih =>
      have segment : p.category = .pathSegment := ofPath p List.mem_append_cons_self
      have earlier := find?_essential (fun q member => ofPath q (List.mem_append_left _ member))
        p.placeholder
      have later := ih (before ++ [p])
        (by rwa [List.append_assoc, List.singleton_append])
      rw [List.map_append, List.map_singleton] at later
      simp only [List.map_cons, checkBindings, Parameter.placeholder_essential segment, earlier,
        Parameter.name_essential, later]
      cases before.find? (·.placeholder = p.placeholder) <;> rfl

private theorem substitute_essential
    (ofPath : ∀ p ∈ roles.pathSegments, p.category = .pathSegment) :
    substitute roles.essential = substitute roles := by
  funext field
  rw [substitute, substitute, Roles.essential, find?_essential ofPath, Option.map_map]
  rfl

private theorem literalOf_essential (holds : Roles.Of r.parameters roles) :
    r.essential.literalOf roles.essential = r.literalOf roles := by
  have ofPath : ∀ p ∈ roles.pathSegments, p.category = .pathSegment := by
    intro p member
    rw [holds.pathSegments] at member
    exact of_decide_eq_true (List.mem_filter.mp member).2
  have checked := checkBindings_essential r.name ((placeholders r.path).map (·.name)) [] ofPath
  have query : roles.essential.query.map (·.name) = roles.query.map (·.name) := by
    simp [Roles.essential, Function.comp_def]
  rw [literalOf, literalOf, substitute_essential ofPath, query, ← checked]
  rfl

/-- The essential route passes the checks that the route passes, with the same path literal. -/
theorem prepared_essential (r : Route) :
    r.essential.prepared = r.prepared.map fun found => (found.1.essential, found.2) := by
  rw [prepared, prepared, checkNames_essential, roles_essential]
  cases r.checkNames with
  | error failure => rfl
  | ok _ =>
      cases classified : r.roles with
      | error failure => rfl
      | ok roles =>
          have literal := literalOf_essential (roles_of classified)
          simp only [Except.map, bind, Except.bind, literal]
          cases r.literalOf roles <;> rfl

end Checks

section Code

variable {r : Route} {roles : Roles} {s : Settings}

private theorem signature_essential (s : Settings) (r : Route) :
    r.essential.signature s = r.signature s := by
  rw [signature, documentation_essential, signature]
  simp [essential, Function.comp_def]

private theorem callOrder_essential (roles : Roles) :
    roles.essential.callOrder = roles.callOrder.map Parameter.essential := by
  rw [Roles.callOrder, Roles.callOrder, List.map_append, Roles.essential, Option.toList_map]

private theorem body_essential : r.essential.body s roles.essential = r.body s roles := by
  have arguments : roles.essential.callOrder.map (·.name) = roles.callOrder.map (·.name) := by
    rw [callOrder_essential, List.map_map]
    rfl
  have payload : roles.essential.payload.map (·.name) = roles.payload.map (·.name) := by
    simp [Roles.essential, Function.comp_def]
  rw [body, body, arguments, payload]
  rfl

private theorem companion_essential (holds : Roles.Of r.parameters roles) (literal : PathLiteral) :
    r.essential.companion s roles.essential literal = r.companion s roles literal := by
  have formals : roles.essential.callOrder.map (fun p => (⟨p.name, .verbatim p.type⟩ : Formal)) =
      roles.callOrder.map fun p => ⟨p.name, .verbatim p.type⟩ := by
    rw [callOrder_essential, List.map_map]
    rfl
  have aliases : r.essential.aliases s roles.essential = r.aliases s roles := by
    simp [Route.aliases, Roles.essential, essential, Function.comp_def]
  -- The payload keeps its encryption, since it is known to be one.
  have encrypted : roles.essential.payload.any (·.encrypted) = roles.payload.any (·.encrypted) := by
    have ofPayload : ∀ p ∈ roles.payload, p.category = .payload := by
      intro p member
      have listed : p ∈ roles.payload.toList := Option.mem_toList.mpr member
      rw [holds.payload] at listed
      exact of_decide_eq_true (List.mem_filter.mp listed).2
    rw [Roles.essential]
    cases payload : roles.payload with
    | none => rfl
    | some p => exact Parameter.encrypted_essential (ofPayload p payload)
  rw [companion, companion, formals, aliases, encrypted]
  rfl

/-- The essential route has the code of the route. -/
theorem clientFunction_essential (s : Settings) (r : Route) :
    r.essential.clientFunction s = r.clientFunction s := by
  rw [clientFunction, clientFunction, prepared_essential]
  cases prepared : r.prepared with
  | error failure => rfl
  | ok found =>
      obtain ⟨roles, literal⟩ := found
      obtain ⟨_, classified, _⟩ := prepared_eq_ok.mp prepared
      simp only [Except.map, bind, Except.bind, signature_essential, body_essential,
        companion_essential (roles_of classified)]

end Code

/-- The text of a route is made from what is left of it when all that is not written is taken
away. -/
theorem unitText_essential (s : Settings) (r : Route) : r.essential.unitText s = r.unitText s := by
  rw [unitText, clientFunction_essential, unitText]

/-- **Data without influence.** Under any settings, routes that are alike have one text, or are
refused with one failure. -/
theorem unitText_eq_of_alike {a b : Route} (alike : a.Alike b) (s : Settings) :
    a.unitText s = b.unitText s := by
  rw [← unitText_essential s a, ← unitText_essential s b, (alike_iff a b).mp alike]

/-- A route without any data that has no influence. -/
def saleStore : Route :=
  { name := "store", method := .post, path := "/sales/:id/files/:no"
    parameters :=
      [.path "id" "id" "string", .query "page" "IPage", .path "file" "no" "number",
        .payload "input" "IFile" true]
    comments := [{ text := "See " }, { kind := .linkText, text := "files" }]
    tags := [.param "id" "of the sale"] }

/-- The same route with such data in every place that there is for it. -/
def saleStoreAdorned : Route :=
  { saleStore with
    parameters :=
      [{ name := "id", category := .pathSegment, type := "string", encrypted := true },
        { name := "page", field := some "id", category := .query, type := "IPage",
          encrypted := true },
        .path "file" "no" "number",
        { name := "input", field := some "input", category := .payload, type := "IFile",
          encrypted := true }]
    comments := [{ kind := .link, text := "See " }, { kind := .linkText, text := "files" }]
    tags :=
      [{ name := "param" },
        { name := "param"
          text := some
            [{ text := "id" }, { kind := .other, text := " " },
              { kind := .linkName, text := "of the sale" }] },
        { name := "internal" }] }

/-- A route and one that differs from it in all that is not written have the same text. -/
theorem unitText_saleStoreAdorned : saleStore.Alike saleStoreAdorned ∧
    ∃ text, saleStore.unitText {} = .ok text ∧ saleStoreAdorned.unitText {} = .ok text := by
  have alike : saleStore.Alike saleStoreAdorned := by decide
  obtain ⟨text, accepted⟩ : ∃ text, saleStore.unitText {} = .ok text := ⟨_, by rfl⟩
  exact ⟨alike, text, accepted, unitText_eq_of_alike alike {} ▸ accepted⟩

end Route

end RouteClient
