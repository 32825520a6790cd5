import RouteClient.Proofs.Module.Admission

/-!
# Which lists of routes have no plan

A route offends behind the routes before it when a segment of its path names no directory, or when
one of those routes has its module and its name (`ModulePlan.Offence`). Planning fails with the
offence of the first route that offends (`ModulePlan.ofRoutes_decides`), so that routes behind it
change nothing.
-/

namespace RouteClient

open Outcome (bind_eq_ok bind_eq_error)

namespace ModulePath

/-- A segment that cannot name a directory: it stands for another directory, or holds a quote, a
backslash or a control character. -/
def NamesNoDirectory (segment : String) : Prop :=
  segment = "." ∨ segment = ".." ∨ ∃ c ∈ segment.toList,
    c = '\x22' ∨ c = '\x27' ∨ c = '\x60' ∨ c = '\\' ∨ Text.isControl c = true

/-- A segment can name a directory unless it is one of those that cannot. -/
theorem isDirectorySegment_eq_true {segment : String} :
    isDirectorySegment segment = true ↔ ¬NamesNoDirectory segment := by
  simp only [isDirectorySegment, isForbidden, NamesNoDirectory, Bool.and_eq_true, List.all_eq_true,
    decide_eq_true_eq, Bool.not_eq_true', Bool.or_eq_false_iff, decide_eq_false_iff_not, not_or,
    not_exists, not_and, ne_eq, Bool.not_eq_true, and_assoc]

end ModulePath

open ModulePath (NamesNoDirectory)

namespace ModulePlan

variable {plan : ModulePlan} {routes before : List Route} {r : Route} {failure : Failure}

/-- What is wrong with a route behind the routes before it. -/
inductive Offence (before : List Route) (r : Route) : Failure → Prop
  | segment {front back : List String} {segment : String}
      (split : r.home.segments = front ++ segment :: back)
      (usable : ∀ earlier ∈ front, ¬NamesNoDirectory earlier)
      (unusable : NamesNoDirectory segment) :
      Offence before r (.invalidRoute r.name (.unusableSegment segment r.path))
  | name {first : Route} (usable : ∀ segment ∈ r.home.segments, ¬NamesNoDirectory segment)
      (earlier : first ∈ before) (home : first.home = r.home) (taken : first.name = r.name) :
      Offence before r (.duplicateRoute r.home.text r.name)

/-- No route offends behind the routes before it. -/
def Faultless (routes : List Route) : Prop :=
  ∀ before r after, routes = before ++ r :: after → ∀ failure, ¬Offence before r failure

/-- A failure is the offence of the first route that offends. -/
def FirstOffence (routes : List Route) (failure : Failure) : Prop :=
  ∃ before r after, routes = before ++ r :: after ∧ Faultless before ∧ Offence before r failure

private theorem invalidSegment?_eq_some {m : ModulePath} {segment : String} :
    m.invalidSegment? = some segment ↔ ∃ front back, m.segments = front ++ segment :: back ∧
      (∀ earlier ∈ front, ¬NamesNoDirectory earlier) ∧ NamesNoDirectory segment := by
  simp only [ModulePath.invalidSegment?, List.find?_eq_some_iff_append, Bool.not_eq_true',
    Bool.not_not, Bool.eq_false_iff, ne_eq, ModulePath.isDirectorySegment_eq_true, not_not]
  constructor
  · rintro ⟨unusable, front, back, split, usable⟩
    exact ⟨front, back, split, usable, unusable⟩
  · rintro ⟨front, back, split, usable, unusable⟩
    exact ⟨unusable, front, back, split, usable⟩

private theorem invalidSegment?_eq_none {m : ModulePath} :
    m.invalidSegment? = none ↔ ∀ segment ∈ m.segments, ¬NamesNoDirectory segment := by
  simp only [ModulePath.invalidSegment?, List.find?_eq_none, Bool.not_eq_true', Bool.not_eq_false,
    ModulePath.isDirectorySegment_eq_true]

/-- The first segment that names no directory is all that is wrong with a route that has one. -/
theorem offence_iff_of_unusable {segment : String}
    (found : r.home.invalidSegment? = some segment) :
    Offence before r failure ↔
      failure = .invalidRoute r.name (.unusableSegment segment r.path) := by
  obtain ⟨front, back, split, usable, unusable⟩ := invalidSegment?_eq_some.mp found
  constructor
  · intro offence
    cases offence with
    | segment otherSplit otherUsable otherUnusable =>
        have same := invalidSegment?_eq_some.mpr ⟨_, _, otherSplit, otherUsable, otherUnusable⟩
        rw [Option.some.inj (found.symm.trans same)]
    | name allUsable =>
        refine absurd unusable (allUsable segment ?_)
        rw [split]
        exact List.mem_append_cons_self
  · rintro rfl
    exact .segment split usable unusable

/-- A route whose segments name directories can only be a duplicate. -/
theorem offence_iff_of_usable (found : r.home.invalidSegment? = none) :
    Offence before r failure ↔ failure = .duplicateRoute r.home.text r.name ∧
      ∃ first ∈ before, first.home = r.home ∧ first.name = r.name := by
  have usable := invalidSegment?_eq_none.mp found
  constructor
  · intro offence
    cases offence with
    | segment split _ unusable =>
        refine absurd unusable (usable _ ?_)
        rw [split]
        exact List.mem_append_cons_self
    | name _ earlier home taken => exact ⟨rfl, _, earlier, home, taken⟩
  · rintro ⟨rfl, first, earlier, home, taken⟩
    exact .name usable earlier home taken

/-- A plan refuses a route for what is wrong with it behind the routes of the plan. -/
theorem TreeOf.refusal?_eq_some (tree : TreeOf before plan) :
    plan.refusal? r = some failure ↔ Offence before r failure := by
  have home : ModulePath.ofRoutePath r.path = r.home := rfl
  have taken : (plan.routesOf r.home).any (·.name = r.name) = true ↔
      ∃ first ∈ before, first.home = r.home ∧ first.name = r.name := by
    rw [routesOf_eq, tree.grouped, List.any_filter]
    simp
  simp only [refusal?, home]
  cases found : r.home.invalidSegment? with
  | some segment => rw [offence_iff_of_unusable found, Option.some.injEq, eq_comm]
  | none => rw [offence_iff_of_usable found, Option.ite_none_right_eq_some, taken, and_comm,
      Option.some.injEq, eq_comm]

/-- A route cannot be added when it is refused, and why it is refused is the failure. -/
theorem add_eq_error : plan.add r = .error failure ↔ plan.refusal? r = some failure := by
  unfold add
  cases plan.refusal? r <;> simp

/-- Planning goes on with further routes where it stopped. -/
theorem ofRoutes_append (routes more : List Route) :
    ofRoutes (routes ++ more) = ofRoutes routes >>= more.foldlM add :=
  List.foldlM_append

/-- Planning fails at a route that offends behind routes that have a plan. -/
theorem ofRoutes_eq_error_split : ofRoutes routes = .error failure ↔ ∃ before r after plan,
    routes = before ++ r :: after ∧ ofRoutes before = .ok plan ∧ Offence before r failure := by
  rw [ofRoutes, Outcome.foldlM_eq_error]
  constructor
  · rintro ⟨before, r, after, plan, split, planned, refused⟩
    have tree : TreeOf before plan := treeOf_ofRoutes planned
    exact ⟨before, r, after, plan, split, planned,
      tree.refusal?_eq_some.mp (add_eq_error.mp refused)⟩
  · rintro ⟨before, r, after, plan, split, planned, offence⟩
    have tree : TreeOf before plan := treeOf_ofRoutes planned
    exact ⟨before, r, after, plan, split, planned,
      add_eq_error.mpr (tree.refusal?_eq_some.mpr offence)⟩

/-- Routes have a plan when none of them offends. -/
theorem faultless_iff : Faultless routes ↔ ∃ plan, ofRoutes routes = .ok plan := by
  constructor
  · intro faultless
    cases planned : ofRoutes routes with
    | ok plan => exact ⟨plan, rfl⟩
    | error failure =>
        obtain ⟨before, r, after, _, split, _, offence⟩ := ofRoutes_eq_error_split.mp planned
        exact absurd offence (faultless before r after split failure)
  · rintro ⟨plan, planned⟩ before r after rfl failure offence
    have planned' := planned
    rw [ofRoutes_append, bind_eq_ok] at planned'
    obtain ⟨state, reached, _⟩ := planned'
    have fails := ofRoutes_eq_error_split.mpr ⟨before, r, after, state, rfl, reached, offence⟩
    rw [planned] at fails
    cases fails

/-- Planning fails in the way of the first offence. -/
theorem ofRoutes_eq_error : ofRoutes routes = .error failure ↔ FirstOffence routes failure := by
  rw [ofRoutes_eq_error_split]
  refine exists_congr fun before => exists_congr fun r => exists_congr fun after => ?_
  rw [exists_and_left, exists_and_right, faultless_iff]

/-- Routes that are not admitted hold one with a segment that names no directory, or two of one
module and name. -/
theorem not_admitted_iff : ¬Admitted routes ↔
    (∃ r ∈ routes, ∃ segment ∈ r.home.segments, NamesNoDirectory segment) ∨
      ∃ first second, [first, second].Sublist routes ∧ first.home = second.home ∧
        first.name = second.name := by
  have fields : Admitted routes ↔
      (∀ r ∈ routes, ∀ segment ∈ r.home.segments, ¬NamesNoDirectory segment) ∧
        ∀ first second, [first, second].Sublist routes → first.home = second.home →
          first.name ≠ second.name := by
    simp only [← ModulePath.isDirectorySegment_eq_true]
    constructor
    · rintro ⟨directories, distinct⟩
      exact ⟨directories, fun _ _ listed => List.pairwise_iff_forall_sublist.mp distinct listed⟩
    · rintro ⟨directories, distinct⟩
      exact ⟨directories, List.pairwise_iff_forall_sublist.mpr fun listed => distinct _ _ listed⟩
  rw [fields, not_and_or]
  push Not
  rfl

/-- **The first offence decides.** Planning fails exactly when a route has a segment that names no
directory or two routes of one module have one name, and then with the offence of the first route
that offends, whatever routes are behind it. -/
theorem ofRoutes_decides (routes : List Route) :
    ((∃ failure, ofRoutes routes = .error failure) ↔
        (∃ r ∈ routes, ∃ segment ∈ r.home.segments, NamesNoDirectory segment) ∨
          ∃ first second, [first, second].Sublist routes ∧ first.home = second.home ∧
            first.name = second.name) ∧
      ∀ failure, (ofRoutes routes = .error failure ↔ FirstOffence routes failure) ∧
        ∀ more, ofRoutes routes = .error failure → ofRoutes (routes ++ more) = .error failure := by
  refine ⟨?_, fun failure => ⟨ofRoutes_eq_error, fun more failed => ?_⟩⟩
  · rw [← not_admitted_iff]
    constructor
    · rintro ⟨failure, failed⟩ admitted
      obtain ⟨plan, planned⟩ := admitted.exists_plan
      rw [failed] at planned
      cases planned
    · intro refused
      cases planned : ofRoutes routes with
      | ok plan => exact absurd (admitted_ofRoutes planned) refused
      | error failure => exact ⟨failure, rfl⟩
  · rw [ofRoutes_append, failed]
    rfl

/-- Routes of which the third has the module and the name of the first, and the last leads
upwards. -/
def salesTwice : List Route :=
  [.bare "list" .get "/shop/sales", .bare "open" .post "/shop",
    .bare "list" .post "/shop/:id/sales", .bare "leave" .get "/shop/.."]

/-- A route that is there twice, also with a further route at the end. -/
theorem ofRoutes_decides_salesTwice :
    ofRoutes salesTwice = .error (.duplicateRoute "/shop/sales" "list") ∧
      FirstOffence salesTwice (.duplicateRoute "/shop/sales" "list") ∧
        ofRoutes (salesTwice ++ [.bare "open" .get "/shop"]) =
          .error (.duplicateRoute "/shop/sales" "list") := by
  have failed : ofRoutes salesTwice = .error (.duplicateRoute "/shop/sales" "list") := by rfl
  obtain ⟨decides, stays⟩ := (ofRoutes_decides salesTwice).2 (.duplicateRoute "/shop/sales" "list")
  exact ⟨failed, decides.mp failed, stays _ failed⟩

end ModulePlan

end RouteClient
