import Mathlib.Data.List.Nodup
import RouteClient.Proofs.Route.Contract
import RouteClient.Proofs.Route.LiteralValue
import RouteClient.Proofs.Route.Scanning

/-!
# What a path builder returns

The path builder of an accepted route returns the path of the route with the value of each
path-segment parameter in place of the one placeholder it fills, all at once, and a query string
behind it when the route has a query parameter (`Route.evaluate_prepared`).
-/

namespace RouteClient

open Text (byteCount takeBytes dropBytes slice)

/-- A text with the spans of some of its placeholders replaced, all at once. The text begins at byte
`offset`, and the spans are given in their order. -/
def replaceSpans (offset : Nat) (text : List Char) : List (Placeholder × List Char) → List Char
  | [] => text
  | (h, value) :: spans =>
    takeBytes (h.start - offset) text ++ value ++
      replaceSpans h.stop (dropBytes (h.stop - offset) text) spans

private theorem replaceSpans_append (offset : Nat) (kept text : List Char)
    {spans : List (Placeholder × List Char)}
    (later : ∀ span ∈ spans, offset + byteCount kept ≤ span.1.start ∧ span.1.start ≤ span.1.stop) :
    replaceSpans offset (kept ++ text) spans =
      kept ++ replaceSpans (offset + byteCount kept) text spans := by
  cases spans with
  | nil => rfl
  | cons span spans =>
      obtain ⟨h, value⟩ := span
      obtain ⟨begins, ends⟩ := later _ List.mem_cons_self
      dsimp only at begins ends
      have toStart : h.start - offset = byteCount kept + (h.start - (offset + byteCount kept)) := by
        omega
      have toStop : h.stop - offset = byteCount kept + (h.stop - (offset + byteCount kept)) := by
        omega
      simp only [replaceSpans]
      rw [toStart, toStop, Text.takeBytes_append, Text.dropBytes_append]
      simp only [List.append_assoc]

namespace PathLiteral

/-- The placeholders among tokens that are bound, with the values put in their places. -/
def filled (bound : String → Option String) (value : String → List Char) (start : Nat)
    (tokens : List PathToken) : List (Placeholder × List Char) :=
  (placeholdersFrom start tokens).filterMap fun h =>
    (bound h.name).map fun name => (h, value name)

private theorem mem_placeholders_of_mem_filled {bound : String → Option String}
    {value : String → List Char}
    {start : Nat} {tokens : List PathToken} {span : Placeholder × List Char}
    (member : span ∈ filled bound value start tokens) : span.1 ∈ placeholdersFrom start tokens := by
  obtain ⟨h, listed, found⟩ := List.mem_filterMap.mp member
  obtain ⟨name, _, rfl⟩ := Option.map_eq_some_iff.mp found
  exact listed

private theorem filled_later (bound : String → Option String) (value : String → List Char)
    (start : Nat) (tokens : List PathToken) : ∀ span ∈ filled bound value start tokens,
      start ≤ span.1.start ∧ span.1.start ≤ span.1.stop := by
  intro span member
  have listed := mem_placeholders_of_mem_filled member
  obtain ⟨_, _, _, _, stops⟩ := placeholdersFrom_split listed
  exact ⟨placeholdersFrom_start_le listed, by omega⟩

/-- The pieces cut from tokens, with values between them, are the characters of the tokens with the
spans of the bound placeholders replaced. -/
theorem cut_eq_replaceSpans (bound : String → Option String) (value : String → List Char)
    (start : Nat) (tokens : List PathToken) :
    (cut bound tokens).1 ++ (cut bound tokens).2.flatMap (fun part => value part.1 ++ part.2) =
      replaceSpans start (tokens.flatMap PathToken.chars) (filled bound value start tokens) := by
  induction tokens generalizing start with
  | nil => rfl
  | cons token rest ih =>
      cases token with
      | char c =>
          have shifted := replaceSpans_append start [c] (rest.flatMap PathToken.chars)
            (filled_later bound value _ rest)
          have size : byteCount [c] = c.utf8Size := by simp [byteCount]
          rw [size] at shifted
          have listed : filled bound value start (.char c :: rest) =
              filled bound value (start + c.utf8Size) rest := rfl
          rw [List.flatMap_cons, PathToken.chars, listed, shifted, ← ih]
          simp [cut]
      | slot name =>
          cases found : bound (String.ofList name) with
          | some parameter =>
              have listed : filled bound value start (.slot name :: rest) =
                  (⟨String.ofList name, start, start + byteCount (':' :: name)⟩, value parameter) ::
                    filled bound value (start + byteCount (':' :: name)) rest := by
                simp [filled, placeholdersFrom, found]
              rw [List.flatMap_cons, PathToken.chars, listed, replaceSpans, Nat.sub_self,
                Nat.add_sub_cancel_left, Text.takeBytes_zero, Text.dropBytes_length, ← ih]
              simp [cut, found]
          | none =>
              have listed : filled bound value start (.slot name :: rest) =
                  filled bound value (start + byteCount (':' :: name)) rest := by
                simp [filled, placeholdersFrom, found]
              rw [List.flatMap_cons, PathToken.chars, listed,
                replaceSpans_append start (':' :: name) _ (filled_later bound value _ rest),
                ← ih]
              simp [cut, found]

/-- The texts cut from tokens hold only characters of the tokens. -/
theorem mem_of_mem_cut (bound : String → Option String) (tokens : List PathToken) (c : Char)
    (member : c ∈ (cut bound tokens).1 ∨ ∃ part ∈ (cut bound tokens).2, c ∈ part.2) :
    c ∈ tokens.flatMap PathToken.chars := by
  induction tokens with
  | nil => simp [cut] at member
  | cons token rest ih =>
      rw [List.flatMap_cons, List.mem_append]
      cases token with
      | char d =>
          simp only [cut, List.mem_cons, or_assoc] at member
          rcases member with rfl | later
          · exact Or.inl List.mem_cons_self
          · exact Or.inr (ih later)
      | slot name =>
          cases found : bound (String.ofList name) with
          | some parameter =>
              simp only [cut, found, List.not_mem_nil, List.exists_mem_cons_iff, false_or] at member
              exact Or.inr (ih member)
          | none =>
              simp only [cut, found, List.cons_append, List.mem_cons, List.mem_append,
                or_assoc] at member
              rcases member with rfl | inName | later
              · exact Or.inl List.mem_cons_self
              · exact Or.inl (List.mem_cons_of_mem _ inName)
              · exact Or.inr (ih later)

private theorem bound_of_mem_cut {bound : String → Option String} {tokens : List PathToken}
    {part : String × List Char} (member : part ∈ (cut bound tokens).2) :
    ∃ field, bound field = some part.1 := by
  induction tokens with
  | nil => simp [cut] at member
  | cons token rest ih =>
      cases token with
      | char d => exact ih member
      | slot name =>
          cases found : bound (String.ofList name) with
          | some parameter =>
              simp only [cut, found, List.mem_cons] at member
              rcases member with rfl | later
              · exact ⟨_, found⟩
              · exact ih later
          | none =>
              simp only [cut, found] at member
              exact ih member

end PathLiteral

namespace Route

open TemplateLiteral (evaluate IsComplete)

/-- The path-segment parameter that fills a placeholder. -/
def filler? (r : Route) (h : Placeholder) : Option Parameter :=
  (r.parametersOf .pathSegment).find? (·.placeholder = h.name)

/-- The placeholders of a route's path that are filled, each with its parameter, in the order of the
path. -/
def bindings (r : Route) : List (Placeholder × Parameter) :=
  (placeholders r.path).filterMap fun h => (r.filler? h).map (h, ·)

variable {r : Route}

/-- A placeholder is bound to the parameter that fills it. -/
theorem mem_bindings {binding : Placeholder × Parameter} :
    binding ∈ r.bindings ↔
      binding.1 ∈ placeholders r.path ∧ r.filler? binding.1 = some binding.2 := by
  simp only [bindings, List.mem_filterMap, Option.map_eq_some_iff]
  constructor
  · rintro ⟨h, listed, p, found, rfl⟩
    exact ⟨listed, found⟩
  · rintro ⟨listed, found⟩
    exact ⟨binding.1, listed, binding.2, found, rfl⟩

/-- A placeholder is filled by a path parameter that names it. -/
theorem filler?_eq_some {h : Placeholder} {p : Parameter} (found : r.filler? h = some p) :
    p ∈ r.parametersOf .pathSegment ∧ p.placeholder = h.name := by
  rw [filler?] at found
  have same := List.find?_some found
  exact ⟨List.mem_of_find?_eq_some found, of_decide_eq_true same⟩

/-- Filled placeholders stand one behind the other. -/
theorem bindings_pairwise (r : Route) : r.bindings.Pairwise fun a b => a.1.stop ≤ b.1.start := by
  refine List.pairwise_filterMap.mpr ((placeholders_pairwise r.path).imp ?_)
  intro a b order first firstFound second secondFound
  obtain ⟨_, _, rfl⟩ := Option.map_eq_some_iff.mp firstFound
  obtain ⟨_, _, rfl⟩ := Option.map_eq_some_iff.mp secondFound
  exact order

/-- The condition under which every path-segment parameter is bound: its placeholder occurs once in
the path, and no other one fills it. -/
structure Bound (r : Route) : Prop where
  once : ∀ p ∈ r.parametersOf .pathSegment,
    ((placeholders r.path).map (·.name)).count p.placeholder = 1
  distinct : ((r.parametersOf .pathSegment).map (·.placeholder)).Nodup

/-- The placeholder of a filled span occurs nowhere else in the path. -/
theorem Bound.filter_eq_singleton (bound : r.Bound) {binding : Placeholder × Parameter}
    (member : binding ∈ r.bindings) :
    (placeholders r.path).filter (·.name = binding.2.placeholder) = [binding.1] := by
  obtain ⟨listed, found⟩ := mem_bindings.mp member
  obtain ⟨parameter, same⟩ := filler?_eq_some found
  have inside : binding.1 ∈ (placeholders r.path).filter (·.name = binding.2.placeholder) :=
    List.mem_filter.mpr ⟨listed, decide_eq_true same.symm⟩
  have single : ((placeholders r.path).filter (·.name = binding.2.placeholder)).length = 1 := by
    have once := bound.once binding.2 parameter
    rw [List.count, List.countP_map, List.countP_eq_length_filter] at once
    exact once
  obtain ⟨only, isOnly⟩ := List.length_eq_one_iff.mp single
  rw [isOnly] at inside ⊢
  rw [List.mem_singleton.mp inside]

/-- Every path-segment parameter fills exactly one placeholder. -/
theorem Bound.bindings_perm (bound : r.Bound) :
    (r.bindings.map Prod.snd).Perm (r.parametersOf .pathSegment) := by
  have fillers : r.bindings.map Prod.snd = (placeholders r.path).filterMap r.filler? := by
    simp [bindings, List.map_filterMap, Function.comp_def]
  have separate : (r.bindings.map Prod.snd).Nodup := by
    rw [fillers]
    -- A parameter that filled two placeholders would have its field twice in the path.
    refine List.pairwise_filterMap.mpr (List.pairwise_of_forall_sublist ?_)
    intro a b both p first q second same
    subst same
    obtain ⟨parameter, named⟩ := filler?_eq_some first
    obtain ⟨_, namedToo⟩ := filler?_eq_some second
    have twice := (both.map (·.name)).count_le p.placeholder
    rw [bound.once p parameter] at twice
    simp [← named, ← namedToo] at twice
  refine (List.perm_ext_iff_of_nodup separate (List.Nodup.of_map _ bound.distinct)).mpr ?_
  intro p
  rw [fillers, List.mem_filterMap]
  constructor
  · rintro ⟨h, _, found⟩
    exact (filler?_eq_some found).1
  · intro parameter
    have occurs : p.placeholder ∈ (placeholders r.path).map (·.name) := by
      apply List.count_pos_iff.mp
      rw [bound.once p parameter]
      exact Nat.one_pos
    obtain ⟨h, listed, named⟩ := List.mem_map.mp occurs
    refine ⟨h, listed, ?_⟩
    cases found : r.filler? h with
    | none =>
        exact absurd (decide_eq_true named.symm) (List.find?_eq_none.mp found p parameter)
    | some q =>
        obtain ⟨other, filled⟩ := filler?_eq_some found
        exact congrArg some
          (List.inj_on_of_nodup_map bound.distinct other parameter (filled.trans named))

/-- In a route that is prepared every path parameter has its placeholder. -/
theorem bound_of_prepared {roles : Roles} {literal : PathLiteral}
    (accepted : r.prepared = .ok (roles, literal)) : r.Bound := by
  obtain ⟨_, classified, made⟩ := prepared_eq_ok.mp accepted
  obtain ⟨checked, _⟩ := literalOf_eq_ok.mp made
  obtain ⟨once, distinct, _⟩ := checkBindings_eq_ok.mp checked
  rw [(roles_of classified).pathSegments] at once distinct
  exact ⟨once, distinct⟩

/-- The literal of a prepared route is plain when its path stands on one line. -/
theorem plain_of_prepared {roles : Roles} {literal : PathLiteral}
    (accepted : r.prepared = .ok (roles, literal)) (noReturn : '\r' ∉ r.path.toList) :
    literal.Plain := by
  obtain ⟨named, classified, made⟩ := prepared_eq_ok.mp accepted
  obtain ⟨_, rfl⟩ := literalOf_eq_ok.mp made
  have usable : ∀ p ∈ r.parameters, Code.isIdentifier p.name = true := by
    intro p member
    have usable := ((checkNames_eq_ok.mp named).2.1 p member).1
    exact (Bool.and_eq_true _ _ ▸ usable).1
  have fromPath := PathToken.flatMap_chars_scan r.path.toList ▸ fun c =>
    PathLiteral.mem_of_mem_cut (substitute roles) (PathToken.scan r.path.toList) c
  refine ⟨fun member => noReturn (fromPath _ (Or.inl member)),
    fun part listed member => noReturn (fromPath _ (Or.inr ⟨part, listed, member⟩)), ?_, ?_⟩
  · intro part listed
    obtain ⟨field, found⟩ := PathLiteral.bound_of_mem_cut listed
    obtain ⟨p, filled, same⟩ := Option.map_eq_some_iff.mp found
    rw [← same]
    have member := List.mem_of_find?_eq_some filled
    rw [(roles_of classified).pathSegments] at member
    exact usable p (List.mem_filter.mp member).1
  · intro name known
    obtain ⟨p, taken, same⟩ := Option.map_eq_some_iff.mp known
    rw [← same]
    have member : p ∈ roles.query.toList := Option.mem_toList.mpr taken
    rw [(roles_of classified).query] at member
    exact usable p (List.mem_filter.mp member).1

/-- **What a path builder returns.** The literal of a prepared route is one complete template
literal. Its value is the path of the route in which each path-segment parameter, exactly once,
stands in the span of the only placeholder with its field, and all other characters are unchanged,
with the query string behind it exactly when the route has a query parameter. -/
theorem evaluate_prepared {r : Route} {roles : Roles} {literal : PathLiteral}
    (accepted : r.prepared = .ok (roles, literal)) (noReturn : '\r' ∉ r.path.toList)
    (scope : Scope) :
    IsComplete literal.text.toList ∧
      evaluate scope literal.text.toList = some
        (replaceSpans 0 r.path.toList
            (r.bindings.map fun binding => (binding.1, (scope.value binding.2.name).toList)) ++
          PathLiteral.querySuffix scope ((r.parametersOf .query).head?.map (·.name))) ∧
      (r.bindings.map Prod.snd).Perm (r.parametersOf .pathSegment) ∧
      (r.bindings.Pairwise fun a b => a.1.stop ≤ b.1.start) ∧
      ∀ binding ∈ r.bindings,
        (placeholders r.path).filter (·.name = binding.2.placeholder) = [binding.1] ∧
          slice binding.1.start binding.1.stop r.path.toList =
            ':' :: binding.2.placeholder.toList := by
  have bound := bound_of_prepared accepted
  have plain := plain_of_prepared accepted noReturn
  refine ⟨PathLiteral.isComplete_text plain, ?_, bound.bindings_perm, r.bindings_pairwise, ?_⟩
  · rw [PathLiteral.evaluate_text plain, PathLiteral.valueIn]
    obtain ⟨_, classified, made⟩ := prepared_eq_ok.mp accepted
    obtain ⟨_, rfl⟩ := literalOf_eq_ok.mp made
    have query : roles.query = (r.parametersOf .query).head? := by
      rw [parametersOf, ← (roles_of classified).query]
      cases roles.query <;> rfl
    have filled : PathLiteral.filled (substitute roles) (fun name => (scope.value name).toList) 0
        (PathToken.scan r.path.toList) =
          r.bindings.map fun binding => (binding.1, (scope.value binding.2.name).toList) := by
      simp only [PathLiteral.filled, bindings, List.map_filterMap, Option.map_map, substitute,
        (roles_of classified).pathSegments]
      rfl
    have value := PathLiteral.cut_eq_replaceSpans (substitute roles)
      (fun name => (scope.value name).toList) 0 (PathToken.scan r.path.toList)
    rw [filled, PathToken.flatMap_chars_scan] at value
    rw [value, query]
  · intro binding member
    obtain ⟨listed, found⟩ := mem_bindings.mp member
    refine ⟨bound.filter_eq_singleton member, ?_⟩
    rw [(filler?_eq_some found).2]
    exact mem_placeholders_slice listed

/-- A route whose path holds characters that a template literal escapes, placeholders whose names
begin alike, and one that no parameter fills. -/
def saleFiles : Route :=
  { name := "at", method := .get, path := "/\x60a\\$\x7bb\x7d/:idx/:id/ü/:free"
    parameters := [.query "page" "IPage", .path "key" "id" "string", .path "id" "idx" "number"] }

/-- A path with characters that are escaped, fields out of order, a free placeholder and a query. -/
theorem evaluate_saleFiles :
    ∃ roles literal, saleFiles.prepared = .ok (roles, literal) ∧
      '\r' ∉ saleFiles.path.toList ∧
      evaluate ⟨fun name => name ++ "/:id", fun name => name ++ "=$\x7b"⟩ literal.text.toList =
        some "/\x60a\\$\x7bb\x7d/id/:id/key/:id/ü/:free?page=$\x7b".toList := by
  have accepted : saleFiles.prepared = .ok
      (⟨some (.query "page" "IPage"), none, [.path "key" "id" "string", .path "id" "idx" "number"]⟩,
        ⟨"/\x60a\\$\x7bb\x7d/".toList, [("id", ['/']), ("key", "/ü/:free".toList)],
          some "page"⟩) := by rfl
  have noReturn : '\r' ∉ saleFiles.path.toList := by decide
  refine ⟨_, _, accepted, noReturn, ?_⟩
  rw [(evaluate_prepared accepted noReturn _).2.1]
  decide

end Route

end RouteClient
