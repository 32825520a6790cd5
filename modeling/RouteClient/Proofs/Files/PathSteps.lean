import RouteClient.Proofs.Module.FilePaths

/-!
# Steps of paths

A path leads down along those of its parts that are names (`PathText.walk_names`). A path of names
that is joined to the path of a directory has its own parts behind those of the directory
(`PathText.parts_join`), and the path above it leads to the directory and then down its names but
the last (`PathText.steps_above`).
-/

namespace RouteClient

namespace PathText

/-- A part of a path that names an entry of a directory. -/
def IsName (part : String) : Prop := part ≠ "" ∧ part ≠ "." ∧ part ≠ ".."

/-- Whether a part of a path is a name can be decided. -/
instance (part : String) : Decidable (IsName part) :=
  inferInstanceAs (Decidable (part ≠ "" ∧ part ≠ "." ∧ part ≠ ".."))

/-- The place that steps lead to from a place: `.` stays there, `..` goes up, and a name goes
down. -/
def walk (place : List String) : (steps : List String) → List String
  | [] => place
  | step :: steps =>
    if step = "." then walk place steps
    else if step = ".." then walk place.dropLast steps
    else walk (place ++ [step]) steps

/-- Names lead down from a place. -/
theorem walk_names {place names : List String} (named : ∀ name ∈ names, IsName name) :
    walk place names = place ++ names := by
  induction names generalizing place with
  | nil => rw [walk, List.append_nil]
  | cons name names ih =>
      obtain ⟨⟨_, stays, goesUp⟩, named⟩ := List.forall_mem_cons.mp named
      rw [walk, if_neg stays, if_neg goesUp, ih named, List.append_assoc, List.singleton_append]

/-- The places that steps lead through, with the first and the last. -/
def trail (place : List String) : (steps : List String) → List (List String)
  | [] => [place]
  | step :: steps => place :: trail (walk place [step]) steps

/-- Steps lead on from where the steps before them lead. -/
theorem walk_append (place first later : List String) :
    walk place (first ++ later) = walk (walk place first) later := by
  induction first generalizing place with
  | nil => rfl
  | cons step first ih =>
      simp only [List.cons_append, walk, ih]
      split_ifs <;> rfl

/-- The first step is taken before the others. -/
theorem walk_cons (place : List String) (step : String) (steps : List String) :
    walk place (step :: steps) = walk (walk place [step]) steps := walk_append place [step] steps

/-- Steps pass the place that they lead to. -/
theorem walk_mem_trail (place steps : List String) : walk place steps ∈ trail place steps := by
  induction steps generalizing place with
  | nil => exact List.mem_singleton_self place
  | cons step steps ih =>
      rw [walk_cons]
      exact List.mem_cons_of_mem place (ih (walk place [step]))

/-- Steps pass the place where they begin. -/
theorem start_mem_trail (place steps : List String) : place ∈ trail place steps := by
  cases steps with
  | nil => exact List.mem_singleton_self place
  | cons step steps => exact List.mem_cons_self

/-- Steps pass what the first of them pass, and what the others pass from there. -/
theorem mem_trail_append {place first later passed : List String} :
    passed ∈ trail place (first ++ later) ↔
      passed ∈ trail place first ∨ passed ∈ trail (walk place first) later := by
  induction first generalizing place with
  | nil =>
      rw [List.nil_append, trail, List.mem_singleton, walk]
      apply Iff.symm
      apply or_iff_right_of_imp
      rintro rfl
      exact start_mem_trail passed later
  | cons step first ih =>
      rw [List.cons_append, trail, trail, List.mem_cons, List.mem_cons, ih,
        walk_cons place step first, or_assoc]

/-- Names lead down, through the places of their first ones. -/
theorem mem_trail_names {place names passed : List String} (named : ∀ name ∈ names, IsName name) :
    passed ∈ trail place names ↔ ∃ front, front <+: names ∧ passed = place ++ front := by
  induction names generalizing place with
  | nil => simp [trail]
  | cons name names ih =>
      obtain ⟨isName, named⟩ := List.forall_mem_cons.mp named
      have down : walk place [name] = place ++ [name] :=
        walk_names (List.forall_mem_singleton.mpr isName)
      rw [trail, List.mem_cons, down, ih named]
      simp [List.prefix_cons_iff, or_and_right, exists_or]

/-- The empty path has one part, which is empty. -/
theorem parts_empty : parts "" = [""] := by decide

private theorem eq_of_isAbsolute {path : String} (absolute : isAbsolute path = true) :
    ∃ rest, path = "/" ++ rest := by
  have first : path.toList.head? = some '/' := of_decide_eq_true absolute
  obtain ⟨rest, split⟩ := List.head?_eq_some_iff.mp first
  refine ⟨String.ofList rest, String.toList_injective ?_⟩
  simp [split]

/-- A path that ends with a slash is some path with a slash behind it. -/
theorem eq_of_endsWithSlash {path : String} (ends : endsWithSlash path = true) :
    ∃ front, path = front ++ "/" := by
  have last : path.toList.getLast? = some '/' := of_decide_eq_true ends
  obtain ⟨front, split⟩ := List.getLast?_eq_some_iff.mp last
  refine ⟨String.ofList front, String.toList_injective ?_⟩
  simp [split]

/-- A slash at the end of a path is followed by an empty part. -/
theorem parts_slash_end (front : String) : parts (front ++ "/") = parts front ++ [""] := by
  rw [← parts_empty, ← parts_slash, String.append_empty]

private theorem parts_slash_start (rest : String) : parts ("/" ++ rest) = "" :: parts rest := by
  rw [← String.empty_append (s := "/"), parts_slash, parts_empty, List.singleton_append]

variable {path base last : String} {stem names : List String}

private theorem isAbsolute_of_names (named : ∀ part ∈ parts path, IsName part) :
    isAbsolute path = false := by
  apply Bool.eq_false_iff.mpr
  intro absolute
  obtain ⟨rest, rfl⟩ := eq_of_isAbsolute absolute
  rw [parts_slash_start] at named
  exact (named "" List.mem_cons_self).1 rfl

/-- A path does not end with a slash when its last part is a name. -/
theorem endsWithSlash_of_name (split : parts path = names ++ [last]) (named : IsName last) :
    endsWithSlash path = false := by
  apply Bool.eq_false_iff.mpr
  intro ends
  obtain ⟨front, rfl⟩ := eq_of_endsWithSlash ends
  rw [parts_slash_end] at split
  have empty : "" = last := (List.cons.inj (List.append_inj' split rfl).2).1
  exact named.1 empty.symm

/-- No name is an empty part. -/
theorem filter_names (named : ∀ name ∈ names, IsName name) : names.filter (· ≠ "") = names :=
  List.filter_eq_self.mpr fun name member => decide_eq_true (named name member).1

/-- A path of names takes them as its steps. -/
theorem steps_names (named : ∀ part ∈ parts path, IsName part) : steps path = parts path := by
  have split := (List.dropLast_append_getLast (parts_ne_nil path)).symm
  have plain := endsWithSlash_of_name split (named _ (List.getLast_mem (parts_ne_nil path)))
  rw [steps, filter_names named, plain, if_neg Bool.false_ne_true, List.append_nil]

/-- A path of names below another path has its own parts behind those of the other path. -/
theorem parts_join (nonempty : base ≠ "") (named : ∀ part ∈ parts path, IsName part) :
    ∃ stem, parts (join base path) = stem ++ parts path ∧
      steps base = stem.filter (· ≠ "") ++ if endsWithSlash base then ["."] else [] := by
  rw [join, isAbsolute_of_names named, if_neg Bool.false_ne_true]
  cases ends : endsWithSlash base with
  | true =>
      obtain ⟨front, rfl⟩ := eq_of_endsWithSlash ends
      refine ⟨parts front, ?_, ?_⟩
      · rw [Bool.or_true, if_pos rfl, parts_slash]
      · rw [steps, ends, parts_slash_end, List.filter_append]
        simp
  | false =>
      refine ⟨parts base, ?_, ?_⟩
      · rw [decide_eq_false nonempty, Bool.or_false, if_neg Bool.false_ne_true, parts_slash]
      · rw [steps, ends]

/-- A name is not idle. -/
theorem dropIdle_of_name {part : String} {rest : List String} (named : IsName part) :
    dropIdle (part :: rest) = part :: rest := by
  cases rest with
  | nil => rw [dropIdle, if_neg named.1]
  | cons next rest =>
      have steps : isIdle part = false := by simp [isIdle, named.1, named.2.1]
      rw [dropIdle, steps, if_neg Bool.false_ne_true]
      exact List.cons_ne_nil next rest

/-- The path above a path is made of its parts but the last, where names stand. -/
theorem parent?_of_names (split : parts path = stem ++ names ++ [last]) (inside : names ≠ [])
    (named : ∀ name ∈ names ++ [last], IsName name) :
    parent? path = some ("/".intercalate (stem ++ names)) ∧
      parts ("/".intercalate (stem ++ names)) = stem ++ names := by
  obtain ⟨front, name, rfl⟩ := (List.eq_nil_or_concat names).resolve_left inside
  rw [List.concat_eq_append] at split named ⊢
  have isName : IsName name := named name (by simp)
  have lastName : IsName last := named last (by simp)
  have above : parts ("/".intercalate (stem ++ (front ++ [name]))) = stem ++ (front ++ [name]) := by
    apply parts_intercalate
    · simp
    · intro part member
      have listed : part ∈ parts path := split ▸ List.mem_append_left _ member
      exact slash_not_mem_parts listed
  refine ⟨?_, above⟩
  have kept : "/".intercalate (stem ++ (front ++ [name])) ≠ "" := by
    intro empty
    rw [empty, parts_empty, ← List.append_assoc] at above
    have same := congrArg List.getLast? above
    rw [List.getLast?_singleton, List.getLast?_concat, Option.some.injEq] at same
    exact isName.1 same.symm
  have turned : (parts path).reverse = last :: name :: (stem ++ front).reverse := by
    simp [split]
  have restored : (name :: (stem ++ front).reverse).reverse = stem ++ (front ++ [name]) := by
    simp
  simp only [parent?, turned, dropIdle_of_name lastName, dropIdle_of_name isName, restored, kept,
    decide_false, Bool.and_false, Bool.false_eq_true, if_false]

/-- The steps to the directory above a path of names are those to the directory that it is joined
to, and then its names. -/
theorem steps_above (above : parts path = stem ++ names) (inside : names ≠ [])
    (named : ∀ name ∈ names, IsName name) : steps path = stem.filter (· ≠ "") ++ names := by
  have split : parts path = (stem ++ names.dropLast) ++ [names.getLast inside] := by
    rw [above, List.append_assoc, List.dropLast_append_getLast]
  have plain := endsWithSlash_of_name split (named _ (List.getLast_mem inside))
  rw [steps, plain, if_neg Bool.false_ne_true, above, List.filter_append, filter_names named,
    List.append_nil]

/-- A path of names that is joined to another path has the steps of that path and then the names.
The path above it lacks the last one. -/
theorem steps_join (nonempty : base ≠ "") (named : ∀ part ∈ parts path, IsName part)
    (split : parts path = names ++ [last]) (inside : names ≠ []) :
    ∃ above front idle, parent? (join base path) = some above ∧
      (∀ part ∈ parts above, part ∈ parts (join base path)) ∧
      steps above = front ++ names ∧ steps (join base path) = front ++ names ++ [last] ∧
      steps base = front ++ idle ∧ ∀ step ∈ idle, step = "." := by
  obtain ⟨stem, joined, fromBase⟩ := parts_join nonempty named
  rw [split] at named joined
  have namedAbove : ∀ name ∈ names, IsName name :=
    fun name member => named name (List.mem_append_left [last] member)
  have wholeSteps := steps_above joined (by simp) named
  rw [← List.append_assoc] at joined wholeSteps
  obtain ⟨isParent, above⟩ := parent?_of_names joined inside named
  refine ⟨_, _, _, isParent, fun part member => ?_, steps_above above inside namedAbove, wholeSteps,
    fromBase, ?_⟩
  · rw [above] at member
    rw [joined]
    exact List.mem_append_left [last] member
  · split_ifs <;> simp

/-- A character between the slashes of a path stands in one of the parts. -/
theorem mem_iff_mem_parts {c : Char} (plain : c ≠ '/') :
    c ∈ path.toList ↔ ∃ part ∈ parts path, c ∈ part.toList := Text.mem_iff_mem_splitAt plain

/-- Single dots lead nowhere else. -/
theorem walk_idle {place idle : List String} (stays : ∀ step ∈ idle, step = ".") :
    walk place idle = place := by
  induction idle with
  | nil => rfl
  | cons step idle ih =>
      obtain ⟨rfl, others⟩ := List.forall_mem_cons.mp stays
      rw [walk, if_pos rfl, ih others]

/-- Single dots pass one place only. -/
theorem mem_trail_idle {place idle passed : List String} (stays : ∀ step ∈ idle, step = ".") :
    passed ∈ trail place idle ↔ passed = place := by
  induction idle with
  | nil => rw [trail, List.mem_singleton]
  | cons step idle ih =>
      obtain ⟨rfl, others⟩ := List.forall_mem_cons.mp stays
      have here : walk place ["."] = place := rfl
      rw [trail, List.mem_cons, here, ih others, or_self]

end PathText

end RouteClient
