/-!
# Outcomes of checked steps

A run of checked steps stops at the first failure. These lemmas take such runs apart: a bind into
its two steps, a traversal into the outcome on each element, and a fold into an invariant that every
accepted step keeps.
-/

namespace RouteClient

namespace Outcome

variable {ε α β : Type}

/-- Two steps succeed when the first does, and then the second with its value. -/
theorem bind_eq_ok {first : Except ε α} {next : α → Except ε β} {result : β} :
    first >>= next = .ok result ↔ ∃ value, first = .ok value ∧ next value = .ok result := by
  cases first with
  | error failure => simp [bind, Except.bind]
  | ok value => simp [bind, Except.bind]

/-- Two steps fail when the first does, or when the second does with the value of the first. -/
theorem bind_eq_error {first : Except ε α} {next : α → Except ε β} {failure : ε} :
    first >>= next = .error failure ↔
      first = .error failure ∨ ∃ value, first = .ok value ∧ next value = .error failure := by
  cases first with
  | error failure => simp [bind, Except.bind]
  | ok value => simp [bind, Except.bind]

/-- Changing a value keeps failures. -/
theorem map_eq_error {first : Except ε α} {change : α → β} {failure : ε} :
    first.map change = .error failure ↔ first = .error failure := by
  cases first <;> simp [Except.map]

/-- A changed value is that of a success. -/
theorem map_eq_ok {first : Except ε α} {change : α → β} {result : β} :
    first.map change = .ok result ↔ ∃ value, first = .ok value ∧ change value = result := by
  cases first <;> simp [Except.map]

/-- Changing failures keeps values. -/
theorem mapError_eq_ok {ε' : Type} {first : Except ε α} {change : ε → ε'} {value : α} :
    first.mapError change = .ok value ↔ first = .ok value := by
  cases first with
  | error failure => exact ⟨nofun, nofun⟩
  | ok found =>
      exact ⟨fun same => congrArg Except.ok (Except.ok.inj same),
        fun same => congrArg Except.ok (Except.ok.inj same)⟩

/-- A changed failure is that of a failure. -/
theorem mapError_eq_error {ε' : Type} {first : Except ε α} {change : ε → ε'} {failure : ε'} :
    first.mapError change = .error failure ↔
      ∃ cause, first = .error cause ∧ change cause = failure := by
  cases first with
  | error cause =>
      constructor
      · exact fun same => ⟨cause, rfl, Except.error.inj same⟩
      · rintro ⟨_, same, rfl⟩
        cases same
        rfl
  | ok value =>
      constructor
      · intro same
        cases same
      · rintro ⟨_, same, _⟩
        cases same

/-- A failure is the one of the first element of a list on which a check fails. -/
def FailsFirst (check : α → Except ε β) (items : List α) (failure : ε) : Prop :=
  ∃ before item after, items = before ++ item :: after ∧
    (∀ earlier ∈ before, ∃ value, check earlier = .ok value) ∧ check item = .error failure

/-- The first failure of a list is that of its head, or the head passes and it is the first failure
of the tail. -/
theorem failsFirst_cons {check : α → Except ε β} {head : α} {tail : List α} {failure : ε} :
    FailsFirst check (head :: tail) failure ↔
      check head = .error failure ∨
        (∃ value, check head = .ok value) ∧ FailsFirst check tail failure := by
  constructor
  · rintro ⟨before, item, after, split, passes, fails⟩
    cases before with
    | nil =>
        obtain ⟨rfl, rfl⟩ := List.cons.inj split
        exact Or.inl fails
    | cons first rest =>
        obtain ⟨rfl, rfl⟩ := List.cons.inj split
        exact Or.inr ⟨passes _ List.mem_cons_self, rest, item, after, rfl,
          fun earlier member => passes earlier (List.mem_cons_of_mem _ member), fails⟩
  · rintro (fails | ⟨passes, before, item, after, rfl, passesBefore, fails⟩)
    · exact ⟨[], head, tail, rfl, fun _ member => absurd member List.not_mem_nil, fails⟩
    · refine ⟨head :: before, item, after, rfl, ?_, fails⟩
      intro earlier member
      rcases List.mem_cons.mp member with rfl | member
      · exact passes
      · exact passesBefore earlier member

/-- A traversal gives the list of the values that it gives on each element. -/
theorem mapM_eq_ok {check : α → Except ε β} {items : List α} {values : List β} :
    items.mapM check = .ok values ↔ items.map check = values.map .ok := by
  induction items generalizing values with
  | nil =>
      rw [List.mapM_nil, List.map_nil]
      cases values <;> simp [pure, Except.pure]
  | cons head tail ih =>
      rw [List.mapM_cons, bind_eq_ok]
      simp only [bind_eq_ok, ih]
      cases values with
      | nil => simp [pure, Except.pure]
      | cons value rest =>
          simp only [List.map_cons, List.cons.injEq, pure, Except.pure, Except.ok.injEq]
          constructor
          · rintro ⟨_, first, _, others, rfl, rfl⟩
            exact ⟨first, others⟩
          · rintro ⟨first, others⟩
            exact ⟨value, first, rest, others, rfl, rfl⟩

/-- A traversal fails with the failure of the first element that fails. -/
theorem mapM_eq_error {check : α → Except ε β} {items : List α} {failure : ε} :
    items.mapM check = .error failure ↔ FailsFirst check items failure := by
  induction items with
  | nil =>
      rw [List.mapM_nil]
      constructor
      · intro fails
        cases fails
      · rintro ⟨before, item, after, split, _⟩
        exact absurd split.symm (List.append_ne_nil_of_right_ne_nil _ (List.cons_ne_nil item after))
  | cons head tail ih =>
      rw [List.mapM_cons, bind_eq_error, failsFirst_cons, ← ih]
      refine or_congr_right ?_
      constructor
      · rintro ⟨value, first, fails⟩
        rcases bind_eq_error.mp fails with fails | ⟨values, _, fails⟩
        · exact ⟨⟨value, first⟩, fails⟩
        · cases fails
      · rintro ⟨⟨value, first⟩, fails⟩
        exact ⟨value, first, bind_eq_error.mpr (Or.inl fails)⟩

/-- A traversal succeeds when it does on each element. -/
theorem exists_mapM_eq_ok {check : α → Except ε β} {items : List α} :
    (∃ values, items.mapM check = .ok values) ↔
      ∀ item ∈ items, ∃ value, check item = .ok value := by
  induction items with
  | nil => simp [List.mapM_nil, pure, Except.pure]
  | cons head tail ih =>
      simp only [List.mapM_cons, bind_eq_ok, List.forall_mem_cons, ← ih]
      constructor
      · rintro ⟨_, value, first, values, others, _⟩
        exact ⟨⟨value, first⟩, values, others⟩
      · rintro ⟨⟨value, first⟩, values, others⟩
        exact ⟨value :: values, value, first, values, others, rfl⟩

/-- A fold fails with the failure of the first element that fails in the state before it. -/
theorem foldlM_eq_error {step : β → α → Except ε β} {start : β} {items : List α} {failure : ε} :
    items.foldlM step start = .error failure ↔ ∃ before item after state,
      items = before ++ item :: after ∧ before.foldlM step start = .ok state ∧
        step state item = .error failure := by
  induction items generalizing start with
  | nil =>
      constructor
      · intro fails
        cases fails
      · rintro ⟨before, item, after, _, split, _⟩
        exact absurd split.symm (List.append_ne_nil_of_right_ne_nil _ (List.cons_ne_nil item after))
  | cons head tail ih =>
      rw [List.foldlM_cons, bind_eq_error]
      constructor
      · rintro (fails | ⟨next, stepped, fails⟩)
        · exact ⟨[], head, tail, start, rfl, rfl, fails⟩
        · obtain ⟨before, item, after, state, rfl, reached, fails⟩ := ih.mp fails
          refine ⟨head :: before, item, after, state, rfl, ?_, fails⟩
          rw [List.foldlM_cons, bind_eq_ok]
          exact ⟨next, stepped, reached⟩
      · rintro ⟨before, item, after, state, split, reached, fails⟩
        cases before with
        | nil =>
            obtain ⟨rfl, rfl⟩ := List.cons.inj split
            cases reached
            exact Or.inl fails
        | cons first rest =>
            obtain ⟨rfl, rfl⟩ := List.cons.inj split
            rw [List.foldlM_cons, bind_eq_ok] at reached
            obtain ⟨next, stepped, reached⟩ := reached
            exact Or.inr ⟨next, stepped, ih.mpr ⟨rest, item, after, state, rfl, reached, fails⟩⟩

/-- A fold whose steps can be seen through a view of elements and states is seen so as a whole. -/
theorem foldlM_map {α' β' : Type} {step : β → α → Except ε β} {seenStep : β' → α' → Except ε β'}
    (view : β → β') (change : α → α')
    (seen : ∀ state item, seenStep (view state) (change item) = (step state item).map view)
    (start : β) (items : List α) :
    (items.map change).foldlM seenStep (view start) = (items.foldlM step start).map view := by
  induction items generalizing start with
  | nil => rfl
  | cons item rest ih =>
      rw [List.map_cons, List.foldlM_cons, List.foldlM_cons, seen]
      cases step start item with
      | error failure => rfl
      | ok next => exact ih next

/-- What holds at the start of a fold and is kept by every accepted step holds at its end, of the
elements that were folded and the result. -/
theorem foldlM_invariant {step : β → α → Except ε β} {start result : β} {items : List α}
    (invariant : List α → β → Prop) (initially : invariant [] start)
    (kept : ∀ done state item next, invariant done state → step state item = .ok next →
      invariant (done ++ [item]) next)
    (accepted : items.foldlM step start = .ok result) : invariant items result := by
  suffices general : ∀ done state, invariant done state →
      items.foldlM step state = .ok result → invariant (done ++ items) result from
    general [] start initially accepted
  clear accepted
  induction items with
  | nil =>
      intro done state holds same
      cases same
      rwa [List.append_nil]
  | cons item rest ih =>
      intro done state holds run
      rw [List.foldlM_cons, bind_eq_ok] at run
      obtain ⟨next, stepped, run⟩ := run
      have result := ih (done ++ [item]) next (kept done state item next holds stepped) run
      rwa [List.append_assoc, List.singleton_append] at result

end Outcome

end RouteClient
