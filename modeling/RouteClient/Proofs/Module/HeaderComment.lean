import RouteClient.Proofs.Module.ImportBase

/-!
# The comment on top of a module file

A module file begins with a comment that holds the name of its module. The comment is meant to end
on the fourth line of the template, so that the imports behind it are code
(`SourceFile.HeaderCloses`). Segments of modules cannot end it earlier, but nothing is checked of
the name that all modules have in front of their segments. `headersClose_iff` says in which settings
each comment ends where it should, and which line ends its name may hold.
-/

namespace RouteClient

namespace Code

/-- A character that ends a line in the target language. -/
def endsLine (c : Char) : Bool :=
  c = '\n' || c = '\r' || c = '\u2028' || c = '\u2029'

/-- The text behind the first two characters that close a comment. -/
def behindTerminator? : List Char → Option (List Char)
  | [] => none
  | '*' :: '/' :: cs => some cs
  | _ :: cs => behindTerminator? cs

/-- The text behind the comment that a text begins with. -/
def behindComment? : List Char → Option (List Char)
  | '/' :: '*' :: cs => behindTerminator? cs
  | _ => none

/-- The terminator that closes a comment is the first one. -/
theorem behindTerminator?_eq_iff (front back : List Char) :
    behindTerminator? (front ++ '*' :: '/' :: back) = some back ↔
      ¬['*', '/'] <:+: front ++ ['*'] := by
  fun_induction behindTerminator? front with
  | case1 => exact iff_of_true rfl (by decide)
  | case2 cs =>
      refine iff_of_false (fun early => ?_) (not_not.mpr ⟨[], cs ++ ['*'], rfl⟩)
      have same : cs ++ '*' :: '/' :: back = back := Option.some.inj early
      have size := congrArg List.length same
      simp only [List.length_append, List.length_cons] at size
      omega
  | case3 c cs unpaired ih =>
      -- No terminator begins here, neither in the whole text nor in the part before its last slash.
      have apart (tail rest : List Char) (star : c = '*')
          (slash : cs ++ '*' :: tail = '/' :: rest) :
          False := by
        cases cs with
        | nil => cases slash
        | cons d ds => exact unpaired ds star (congrArg (· :: ds) (List.cons.inj slash).1)
      have begins : ¬['*', '/'] <+: c :: (cs ++ ['*']) := by
        rintro ⟨rest, split⟩
        obtain ⟨star, slash⟩ := List.cons.inj split
        exact apart [] rest star.symm slash.symm
      rw [List.cons_append, behindTerminator?.eq_3 _ _ (apart ('/' :: back)), ih, List.cons_append,
        List.infix_cons_iff, or_iff_right begins]

end Code

namespace ModulePath

variable {m : ModulePath} {base : String} {pattern : List Char}

/-- A pattern without dots stands in a dotted name when it stands in one of its parts. -/
theorem infix_dotted_iff (nonempty : pattern ≠ []) (absent : '.' ∉ pattern) :
    pattern <:+: (m.dotted base).toList ↔
      pattern <:+: base.toList ∨ ∃ segment ∈ m.segments, pattern <:+: segment.toList := by
  have parts : pattern <:+: (m.dotted base).toList ↔
      ∃ part ∈ (base :: m.segments).filter (· ≠ ""), pattern <:+: part.toList := by
    have dot : ".".toList = ['.'] := rfl
    rw [dotted, String.toList_intercalate, dot]
    by_cases none : (base :: m.segments).filter (· ≠ "") = []
    · rw [none]
      simp [nonempty]
    · rw [infix_intercalate_iff absent (mt List.map_eq_nil_iff.mp none)]
      simp
  have filled {part : String} (occurs : pattern <:+: part.toList) : part ≠ "" := by
    rintro rfl
    exact nonempty (List.infix_nil.mp occurs)
  rw [parts, ← List.exists_mem_cons_iff (p := fun part : String => pattern <:+: part.toList)]
  constructor
  · rintro ⟨part, listed, occurs⟩
    exact ⟨part, (List.mem_filter.mp listed).1, occurs⟩
  · rintro ⟨part, listed, occurs⟩
    exact ⟨part, List.mem_filter.mpr ⟨listed, decide_eq_true (filled occurs)⟩, occurs⟩

end ModulePath

namespace ModuleUnit

/-- The name of a module as its file has it. -/
def headerName (u : ModuleUnit) (s : Settings) : String := u.path.dotted s.moduleName

/-- The comment of a module file as it is meant to be: the first four lines. -/
def headerComment (u : ModuleUnit) (s : Settings) : String :=
  "\n".intercalate ((u.headerLines s).take 4)

/-- The imports of a module file, with the lines around them. -/
def importLines (u : ModuleUnit) (s : Settings) : List String := (u.headerLines s).drop 4

end ModuleUnit

/-- The comment on top of a file is closed by its own last characters, and the imports are code. -/
def SourceFile.HeaderCloses (s : Settings) (file : SourceFile) (u : ModuleUnit) : Prop :=
  ∃ back, file.content = u.headerComment s ++ ("\n" ++ fileLines (u.importLines s) ++ back) ∧
    Code.behindComment? file.content.toList =
      some ("\n" ++ fileLines (u.importLines s) ++ back).toList

section Files

variable {s : Settings} {routes : List Route} {files : SourceFiles} {file : SourceFile}
  {u : ModuleUnit}

private theorem ModuleUnit.take_headerLines (u : ModuleUnit) (s : Settings) :
    (u.headerLines s).take 4 =
    ["/**", " * @packageDocumentation", " * @module " ++ u.headerName s, " */"] :=
  rfl

/-- The comment at the head of a file has the name of its module on its third line. -/
theorem ModuleUnit.headerComment_eq (u : ModuleUnit) (s : Settings) :
    u.headerComment s =
      "/**\n * @packageDocumentation\n * @module" ++ " " ++ u.headerName s ++ "\n" ++ " */" := by
  have opening : "/**\n * @packageDocumentation\n * @module" ++ " " =
      "/**" ++ "\n" ++ (" * @packageDocumentation" ++ "\n") ++ " * @module " := rfl
  rw [headerComment, take_headerLines, opening]
  simp only [String.intercalate_cons_cons, String.intercalate_singleton, String.append_assoc]

/-- The first lines of a file are the comment and the imports. -/
theorem ModuleUnit.fileLines_headerLines (u : ModuleUnit) (s : Settings) :
    fileLines (u.headerLines s) = u.headerComment s ++ "\n" ++ fileLines (u.importLines s) := by
  have comment : fileLines ((u.headerLines s).take 4) = u.headerComment s ++ "\n" := by
    simp only [headerComment, take_headerLines, fileLines, List.map_cons, List.map_nil,
      String.join_cons, String.join_nil, String.intercalate_cons_cons, String.intercalate_singleton,
      String.append_assoc, String.append_empty]
  have parts : (u.headerLines s).take 4 ++ u.importLines s = u.headerLines s :=
    List.take_append_drop 4 _
  calc fileLines (u.headerLines s)
      = fileLines ((u.headerLines s).take 4 ++ u.importLines s) := by rw [parts]
    _ = fileLines ((u.headerLines s).take 4) ++ fileLines (u.importLines s) :=
      fileLines_append _ _
    _ = u.headerComment s ++ "\n" ++ fileLines (u.importLines s) := by rw [comment]

/-- A generated file begins with its comment and its imports. -/
theorem SourceFile.OfUnit.exists_content (ofUnit : file.OfUnit s routes u) : ∃ back,
    file.content = u.headerComment s ++ ("\n" ++ fileLines (u.importLines s) ++ back) := by
  obtain ⟨text, _, rfl⟩ := ModuleUnit.eq_assembled_of_file ofUnit.written
  refine ⟨sectionBreak.intercalate (u.sectionTexts text) ++ "\n" ++
    fileLines (ModuleUnit.footerLines s), ?_⟩
  simp only [ModuleUnit.assembled, ModuleUnit.fileLines_headerLines, String.append_assoc]

/-- The comment of a module file ends where it should when the name in it does not end it
earlier. -/
theorem SourceFile.OfUnit.headerCloses_iff (ofUnit : file.OfUnit s routes u) :
    file.HeaderCloses s u ↔ ¬['*', '/'] <:+: (u.headerName s).toList := by
  have closes {code : String} (content : file.content = u.headerComment s ++ code) :
      Code.behindComment? file.content.toList = some code.toList ↔
        ¬['*', '/'] <:+: (u.headerName s).toList := by
    have chars : file.content.toList = '/' :: '*' ::
        ("*\n * @packageDocumentation\n * @module".toList ++
          ' ' :: ((u.headerName s).toList ++ '\n' :: [' ']) ++ '*' :: '/' :: code.toList) := by
      rw [content, ModuleUnit.headerComment_eq]
      simp
    -- No terminator reaches across the blank in front of the name or the line feed behind it.
    rw [chars, Code.behindComment?, Code.behindTerminator?_eq_iff, List.append_assoc,
      List.cons_append, List.append_assoc, List.cons_append, infix_append_cons_iff (by decide),
      infix_append_cons_iff (by decide)]
    have before : ¬['*', '/'] <:+: "*\n * @packageDocumentation\n * @module".toList := by decide
    have behind : ¬['*', '/'] <:+: [' '] ++ ['*'] := by decide
    rw [or_iff_right before, or_iff_left behind]
  constructor
  · rintro ⟨back, content, closed⟩
    exact (closes content).mp closed
  · intro free
    obtain ⟨back, content⟩ := ofUnit.exists_content
    exact ⟨back, content, (closes content).mpr free⟩

/-- A pattern without dots stands in no name of a module when it stands neither in the name that all
modules have in front nor in a segment of a route's module. -/
theorem forall_headerName_iff (made : generate s routes = .ok files) (pattern : List Char)
    (nonempty : pattern ≠ []) (absent : '.' ∉ pattern) :
    (∀ file ∈ files.files, ∀ u, file.OfUnit s routes u → ¬pattern <:+: (u.headerName s).toList) ↔
      routes = [] ∨ ¬pattern <:+: s.moduleName.toList ∧
        ∀ r ∈ routes, ∀ segment ∈ r.home.segments, ¬pattern <:+: segment.toList := by
  obtain ⟨plan, planned, _⟩ := exists_generate.mp ⟨files, made⟩
  have tree := ModulePlan.treeOf_ofRoutes planned
  constructor
  · intro free
    refine or_iff_not_imp_left.mpr fun filled => ?_
    have freeAt {m : ModulePath} (member : m ∈ plan.modules) :
        ¬pattern <:+: (m.dotted s.moduleName).toList := by
      obtain ⟨file, u, ofUnit, rfl⟩ := exists_ofUnit made planned member
      exact free file ((mem_files_iff made).mpr ⟨u, ofUnit⟩) u ofUnit
    obtain ⟨r, present⟩ := List.exists_mem_of_ne_nil routes filled
    constructor
    · exact fun occurs => freeAt (tree.home_mem present)
        ((ModulePath.infix_dotted_iff nonempty absent).mpr (Or.inl occurs))
    · exact fun r present segment listed occurs => freeAt (tree.home_mem present)
        ((ModulePath.infix_dotted_iff nonempty absent).mpr (Or.inr ⟨segment, listed, occurs⟩))
  · intro free file _ u ofUnit occurs
    obtain ⟨r, present, covers⟩ := (tree.covered _).mp (ofUnit.mem_modules planned)
    obtain ⟨inName, inSegments⟩ := free.resolve_left (List.ne_nil_of_mem present)
    rcases (ModulePath.infix_dotted_iff nonempty absent).mp occurs with
      inBase | ⟨segment, listed, inside⟩
    · exact inName inBase
    · exact inSegments r present segment (covers.subset listed) inside

/-- **Where the comment of a module file ends.** The comment on top of a generated file ends where
it should exactly when the name of its module does not hold the end of a comment. No segment of a
module holds it, so all comments end where they should exactly when it is not in the name that all
modules have in front. Likewise the names hold no end of a line exactly when this name holds none,
apart from ends of lines that are no control characters, which segments may hold too. -/
theorem headersClose_iff (made : generate s routes = .ok files) :
    (∀ (file : SourceFile) (u : ModuleUnit), file.OfUnit s routes u →
      (file.HeaderCloses s u ↔ ¬['*', '/'] <:+: (u.headerName s).toList)) ∧
    ((∀ file ∈ files.files, ∀ u, file.OfUnit s routes u → file.HeaderCloses s u) ↔
      routes = [] ∨ ¬['*', '/'] <:+: s.moduleName.toList) ∧
    ∀ c, Code.endsLine c = true →
      ((∀ file ∈ files.files, ∀ u, file.OfUnit s routes u → c ∉ (u.headerName s).toList) ↔
        routes = [] ∨ c ∉ s.moduleName.toList ∧
          (Text.isControl c = false →
            ∀ r ∈ routes, ∀ segment ∈ r.home.segments, c ∉ segment.toList)) := by
  obtain ⟨plan, planned, _⟩ := exists_generate.mp ⟨files, made⟩
  have tree := ModulePlan.treeOf_ofRoutes planned
  have harmless {r : Route} (present : r ∈ routes) {segment : String}
      (listed : segment ∈ r.home.segments) : ModulePath.IsHarmless segment :=
    (ModulePlan.admitted_ofRoutes planned).harmless tree (tree.home_mem present) listed
  refine ⟨fun file u ofUnit => ofUnit.headerCloses_iff, ?_, fun c ends => ?_⟩
  · have segments : ∀ r ∈ routes, ∀ segment ∈ r.home.segments, ¬['*', '/'] <:+: segment.toList :=
      fun r present segment listed occurs =>
        ((harmless present listed).plain '/' (occurs.subset (by decide))).1 rfl
    have names := forall_headerName_iff made ['*', '/'] (by decide) (by decide)
    rw [and_iff_left segments] at names
    rw [← names]
    exact forall₂_congr fun file _ => forall₂_congr fun u ofUnit => ofUnit.headerCloses_iff
  · have noDot : '.' ∉ [c] := by
      rw [List.mem_singleton]
      rintro rfl
      cases ends
    have names := forall_headerName_iff made [c] (List.cons_ne_nil c []) noDot
    simp only [List.singleton_infix_iff] at names
    rw [names]
    refine or_congr_right (and_congr_right fun _ => ?_)
    constructor
    · exact fun free _ => free
    · intro free r present segment listed inside
      exact free ((harmless present listed).plain c inside).2.2.2.2.2 r present segment listed
        inside

/-- A route whose module has a segment with a line separator. -/
def Route.separatedItems : List Route := [.bare "list" .get "/shop/sale\u2028items"]

/-- A module with a line separator in its name: the headers close, and the separator stands in one
of them. -/
theorem headersClose_separatedItems : ∃ files : SourceFiles,
    generate {} Route.separatedItems = .ok files ∧
      (∀ file ∈ files.files, ∀ u, file.OfUnit {} Route.separatedItems u → file.HeaderCloses {} u) ∧
      (∀ file ∈ files.files, ∀ u, file.OfUnit {} Route.separatedItems u →
        '\n' ∉ (u.headerName {}).toList) ∧
      ¬∀ file ∈ files.files, ∀ u, file.OfUnit {} Route.separatedItems u →
        '\u2028' ∉ (u.headerName {}).toList := by
  have planned : ModulePlan.ofRoutes Route.separatedItems =
      .ok [⟨.root, [], ["shop"]⟩, ⟨⟨["shop"]⟩, [], ["sale\u2028items"]⟩,
        ⟨⟨["shop", "sale\u2028items"]⟩, [.bare "list" .get "/shop/sale\u2028items"], []⟩] := by rfl
  have texts : ∀ r ∈ Route.separatedItems, ∃ text, r.unitText {} = .ok text := by
    simp only [Route.separatedItems, List.forall_mem_cons]
    exact ⟨⟨_, by rfl⟩, by simp⟩
  obtain ⟨files, made⟩ := exists_generate_of_texts planned texts (by decide)
  obtain ⟨_, closing, lines⟩ := headersClose_iff made
  have noTerminator : ¬['*', '/'] <:+: (Settings.moduleName {}).toList := by decide
  have noLineFeed : '\n' ∉ (Settings.moduleName {}).toList := by decide
  refine ⟨files, made, closing.mpr (Or.inr noTerminator),
    (lines '\n' rfl).mpr (Or.inr ⟨noLineFeed, fun plain => absurd plain (by decide)⟩), ?_⟩
  rw [lines '\u2028' rfl]
  rintro (none | ⟨_, segments⟩)
  · cases none
  · exact segments (by decide) (.bare "list" .get "/shop/sale\u2028items") (by decide)
      "sale\u2028items" (by decide) (by decide)

/-- Settings that give all modules a name which ends a comment. -/
def Settings.starred : Settings := { moduleName := "api */ client" }

/-- Nothing is checked of the name that all modules have in front. One that ends a comment turns the
rest of the comment into code. -/
theorem starred_headerComment : Settings.validate .starred = .ok () ∧
    ∃ (files : SourceFiles) (file : SourceFile) (u : ModuleUnit),
      generate .starred Route.health = .ok files ∧ file ∈ files.files ∧
      file.OfUnit .starred Route.health u ∧ u.headerName .starred = "api */ client" ∧
        ¬file.HeaderCloses .starred u ∧
        ∃ back, Code.behindComment? file.content.toList =
          some (" client\n */\n".toList ++ back) := by
  have planned := Route.planned_health
  have texts : ∀ r ∈ Route.health, ∃ text, r.unitText .starred = .ok text := by
    simp only [Route.health, List.forall_mem_cons]
    exact ⟨⟨_, by rfl⟩, by simp⟩
  obtain ⟨files, made⟩ := exists_generate_of_texts planned texts (by decide)
  obtain ⟨file, u, ofUnit, path⟩ := exists_ofUnit (m := .root) made planned (by decide)
  have name : u.headerName .starred = "api */ client" := by
    rw [ModuleUnit.headerName, path]
    decide
  refine ⟨by rfl, files, file, u, made, (mem_files_iff made).mpr ⟨u, ofUnit⟩, ofUnit, name, ?_, ?_⟩
  · rw [ofUnit.headerCloses_iff, name, not_not]
    exact ⟨"api ".toList, " client".toList, by decide⟩
  · obtain ⟨back, content⟩ := ofUnit.exists_content
    refine ⟨(fileLines (u.importLines .starred) ++ back).toList, ?_⟩
    rw [content, ModuleUnit.headerComment_eq, name]
    simp only [String.append_assoc, String.toList_append]
    rfl

end Files

end RouteClient
