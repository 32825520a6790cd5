import RouteClient.Proofs.Json.Scalars

/-!
# Reading JSON values as they are spelled

`Draft.Shows` relates a draft to the spelling of a value that has been read without a fault. However
blanks stand between the tokens of a value, it is read to its end, and the draft shows it
(`Spelling.exists_read`).
-/

namespace RouteClient

namespace Json

mutual

/-- The draft is what has been read of a value that is spelled in this way, with nothing wrong. -/
inductive Draft.Shows : Draft → Spelling → Prop where
  | null {span : Span} : Shows (.null span) .null
  | bool {span : Span} {b : Bool} : Shows (.bool span b) (.bool b)
  | number {span : Span} {n : Numeral} {f : Figure} : Shows (.number span n) (.number f)
  | string {span : Span} {read : Except Malformed String} {q : Quotation}
    (same : read.toOption = q.text?) : Shows (.string span read) (.string q)
  | array {span : Span} {drafts : List Draft} {items : List Spelling}
    (shows : Draft.ShowItems drafts items) : Shows (.array span drafts none) (.array items)
  | object {span : Span} {drafts : List (Key × Draft)} {members : List (Quotation × Spelling)}
    (shows : Draft.ShowMembers drafts members) : Shows (.object span drafts none) (.object members)

/-- Drafts of the items of an array show them, one by one. -/
inductive Draft.ShowItems : List Draft → List Spelling → Prop where
  | nil : ShowItems [] []
  | cons {draft : Draft} {drafts : List Draft} {item : Spelling} {items : List Spelling}
    (shows : Draft.Shows draft item) (behind : ShowItems drafts items) :
    ShowItems (draft :: drafts) (item :: items)

/-- Drafts of the members of an object show them, with their keys and the colons behind them. -/
inductive Draft.ShowMembers : List (Key × Draft) → List (Quotation × Spelling) → Prop where
  | nil : ShowMembers [] []
  | cons {key : Key} {draft : Draft} {drafts : List (Key × Draft)} {q : Quotation}
    {value : Spelling} {members : List (Quotation × Spelling)} (same : key.text.toOption = q.text?)
    (colon : key.colon = none) (shows : Draft.Shows draft value)
    (behind : ShowMembers drafts members) :
    ShowMembers ((key, draft) :: drafts) ((q, value) :: members)

end

variable {token text : List Char} {tokens more : List (List Char)} {s : Spelling}

private theorem skipGap_append {gap : List Char} (blank : ∀ c ∈ gap, isGap c) :
    skipGap (gap ++ text) = skipGap text := List.dropWhile_append_of_pos blank

private theorem Spaced.skipGap_eq_nil (spaced : Spaced [] text) : skipGap text = [] := by
  cases spaced with
  | done blank => rw [← List.append_nil text, skipGap_append blank]; rfl

/-- Behind blanks a text begins with its first token. -/
theorem Spaced.begins (spaced : Spaced ((c :: token) :: tokens) text) (solid : isGap c = false) :
    ∃ rest, skipGap text = c :: (token ++ rest) ∧ Spaced tokens rest ∧
      rest.length < text.length := by
  cases spaced with
  | @step gap _ rest _ blank spaced =>
      refine ⟨rest, ?_, spaced, ?_⟩
      · rw [skipGap_append blank, skipGap, List.cons_append,
          List.dropWhile_cons_of_neg (by simp [solid])]
      · simp only [List.length_append, List.length_cons]
        omega

/-- The tokens are none, or the first of them is a comma or a closing bracket. -/
def Delimited (tokens : List (List Char)) : Prop :=
  ∀ token ∈ tokens.head?, token ∈ [[','], [']'], ['\x7d']]

/-- A blank ends a number. -/
theorem ends_of_isGap {c : Char} (blank : isGap c) : c.isDigit = false ∧ c ∉ ['.', 'e', 'E'] := by
  have blanks : c = ' ' ∨ c = '\t' ∨ c = '\n' ∨ c = '\r' := by simpa [isGap, or_assoc] using blank
  rcases blanks with rfl | rfl | rfl | rfl <;> decide

private theorem Spaced.endsNumber (spaced : Spaced tokens text) (delimited : Delimited tokens) :
    EndsNumber text := by
  cases spaced with
  | @done gap blank =>
      intro c head
      exact ends_of_isGap (blank c (List.mem_of_mem_head? head))
  | @step gap token rest tokens blank spaced =>
      intro c head
      cases gap with
      | cons b gap =>
          obtain rfl : b = c := by simpa using head
          exact ends_of_isGap (blank b List.mem_cons_self)
      | nil =>
          have delimiter := delimited token rfl
          simp only [List.mem_cons, List.not_mem_nil, or_false] at delimiter
          rcases delimiter with rfl | rfl | rfl
          · obtain rfl : ',' = c := by simpa using head
            decide
          · obtain rfl : ']' = c := by simpa using head
            decide
          · obtain rfl : '\x7d' = c := by simpa using head
            decide

private theorem Figure.token_head (f : Figure) :
    ∃ c token, f.token = c :: token ∧ isGap c = false ∧ c ≠ ']' := by
  obtain ⟨d, ds, whole, isDigit⟩ := f.exists_whole
  cases sign : f.negative with
  | true =>
      exact ⟨'-', f.whole ++ (f.fraction ++ f.exponent), by simp [token, sign], by decide,
        by decide⟩
  | false =>
      refine ⟨d, ds ++ (f.fraction ++ f.exponent), by simp [token, sign, whole], ?_, ?_⟩
      · exact Bool.eq_false_iff.mpr fun blank => absurd isDigit (by simp [(ends_of_isGap blank).1])
      · rintro rfl
        exact absurd isDigit (by decide)

/-- A value begins neither with a blank nor like the end of an array. -/
theorem Spelling.tokens_head (s : Spelling) :
    ∃ c token tokens, s.tokens = (c :: token) :: tokens ∧ isGap c = false ∧ c ≠ ']' := by
  match s with
  | .null => exact ⟨_, _, _, rfl, by decide, by decide⟩
  | .bool true => exact ⟨_, _, _, rfl, by decide, by decide⟩
  | .bool false => exact ⟨_, _, _, rfl, by decide, by decide⟩
  | .number f =>
    obtain ⟨c, token, head, solid, noEnd⟩ := f.token_head
    exact ⟨c, token, [], by rw [tokens, head], solid, noEnd⟩
  | .string q => exact ⟨_, _, _, rfl, by decide, by decide⟩
  | .array items => exact ⟨_, _, _, rfl, by decide, by decide⟩
  | .object members => exact ⟨_, _, _, rfl, by decide, by decide⟩

private theorem valueNode_number {fuel : Nat} (f : Figure) (ends : EndsNumber text) : ∃ draft,
    valueNode (fuel + 1) (f.token ++ text) = (draft, some text) ∧ draft.Shows (.number f) := by
  obtain ⟨n, read⟩ := numeral_token f ends
  refine ⟨.number ⟨f.token ++ text, text⟩ n, ?_, .number⟩
  have number : numberNode (f.token ++ text) = (.number ⟨f.token ++ text, text⟩ n, some text) := by
    rw [numberNode, read]
  rw [← number]
  obtain ⟨d, ds, whole, isDigit⟩ := f.exists_whole
  cases sign : f.negative with
  | true =>
    have token : f.token = '-' :: (f.whole ++ (f.fraction ++ f.exponent)) := by
      simp [Figure.token, sign]
    rw [token, List.cons_append, valueNode]
    simp
  | false =>
    have token : f.token = d :: (ds ++ (f.fraction ++ f.exponent)) := by
      simp [Figure.token, sign, whole]
    have noWord : d ≠ 'n' ∧ d ≠ 't' ∧ d ≠ 'f' := by
      refine ⟨?_, ?_, ?_⟩ <;> (rintro rfl; exact absurd isDigit (by decide))
    rw [token, List.cons_append, valueNode]
    simp [noWord, isDigit]

private theorem valueNode_string {fuel : Nat} (q : Quotation) (text : List Char) : ∃ draft,
    valueNode (fuel + 1) (q.token ++ text) = (draft, some text) ∧ draft.Shows (.string q) := by
  have reads := stringBody_inside text q
  have token : q.token ++ text = '\x22' :: (q.inside ++ '\x22' :: text) := by
    simp [Quotation.token]
  let read := (stringBody (q.inside ++ '\x22' :: text)).chars.map String.ofList
  refine ⟨.string ⟨q.token ++ text, text⟩ read, ?_, .string ?_⟩
  · rw [token, valueNode]
    simp [stringNode, reads.ending, read]
  · exact reads.text

open Spelling (separator itemTokens memberTokens)

variable {first : Bool}

private theorem nextItem_close (first : Bool) (spaced : Spaced ([']'] :: more) text) : ∃ rest,
    nextItem first text = .inl (.close rest) ∧ Spaced more rest ∧ rest.length < text.length := by
  obtain ⟨rest, begins, spaced, shorter⟩ := spaced.begins (by decide)
  refine ⟨rest, ?_, spaced, shorter⟩
  rw [nextItem, begins]
  rfl

private theorem nextKey_close (first : Bool) (spaced : Spaced (['\x7d'] :: more) text) : ∃ rest,
    nextKey first text = .inl (.close rest) ∧ Spaced more rest ∧ rest.length < text.length := by
  obtain ⟨rest, begins, spaced, shorter⟩ := spaced.begins (by decide)
  refine ⟨rest, ?_, spaced, shorter⟩
  rw [nextKey, begins]
  rfl

private theorem nextItem_value (spaced : Spaced (separator first ++ (s.tokens ++ more)) text) :
    ∃ start, nextItem first text = .inr (skipGap start) ∧ Spaced (s.tokens ++ more) start ∧
      start.length ≤ text.length := by
  obtain ⟨c, token, tokens, split, solid, noEnd⟩ := s.tokens_head
  cases first with
  | true =>
      refine ⟨text, ?_, spaced, Nat.le_refl _⟩
      rw [split] at spaced
      obtain ⟨rest, begins, _⟩ := spaced.begins solid
      simp [nextItem, begins]
  | false =>
      obtain ⟨start, comma, spaced, shorter⟩ := spaced.begins (by decide)
      refine ⟨start, ?_, spaced, Nat.le_of_lt shorter⟩
      rw [split] at spaced
      obtain ⟨rest, begins, _⟩ := spaced.begins solid
      simp [nextItem, comma, begins, noEnd]

private theorem nextKey_key {q : Quotation}
    (spaced : Spaced (separator first ++ (q.token :: more)) text) :
    ∃ rest, nextKey first text = .inr (q.inside ++ '\x22' :: rest) ∧ Spaced more rest ∧
      rest.length < text.length := by
  cases first with
  | true =>
      obtain ⟨rest, begins, spaced, shorter⟩ := spaced.begins (by decide)
      refine ⟨rest, ?_, spaced, shorter⟩
      simp [nextKey, begins]
  | false =>
      obtain ⟨start, comma, spaced, shorter⟩ := spaced.begins (by decide)
      obtain ⟨rest, begins, spaced, shorter'⟩ := spaced.begins (by decide)
      refine ⟨rest, ?_, spaced, Nat.lt_trans shorter' shorter⟩
      simp [nextKey, comma, begins]

mutual

/-- A value is read to its end, however blanks stand between its tokens. -/
theorem valueNode_spelled {fuel : Nat} {more : List (List Char)} {text : List Char}
    (delimited : Delimited more) : (s : Spelling) → Spaced (s.tokens ++ more) text →
      2 * text.length < fuel → ∃ draft rest, valueNode fuel (skipGap text) = (draft, some rest) ∧
        draft.Shows s ∧ Spaced more rest ∧ rest.length < text.length
  | s, spaced, enough => by
      -- Each value takes a unit of fuel, and so does each entry of a list. An entry begins behind a
      -- token, so that two units for each character are enough for both.
      obtain ⟨fuel, rfl⟩ := Nat.exists_eq_succ_of_ne_zero (Nat.ne_zero_of_lt enough)
      match s, spaced with
      | .null, spaced =>
        obtain ⟨rest, begins, spaced, shorter⟩ := spaced.begins (by decide)
        exact ⟨_, rest, by rw [begins]; rfl, .null, spaced, shorter⟩
      | .bool true, spaced =>
        obtain ⟨rest, begins, spaced, shorter⟩ := spaced.begins (by decide)
        exact ⟨_, rest, by rw [begins]; rfl, .bool, spaced, shorter⟩
      | .bool false, spaced =>
        obtain ⟨rest, begins, spaced, shorter⟩ := spaced.begins (by decide)
        exact ⟨_, rest, by rw [begins]; rfl, .bool, spaced, shorter⟩
      | .number f, spaced =>
        obtain ⟨c, token, head, solid, _⟩ := f.token_head
        rw [Spelling.tokens, head] at spaced
        obtain ⟨rest, begins, spaced, shorter⟩ := spaced.begins solid
        obtain ⟨draft, read, shows⟩ := valueNode_number f (spaced.endsNumber delimited)
        rw [begins, ← List.cons_append, ← head]
        exact ⟨draft, rest, read, shows, spaced, shorter⟩
      | .string q, spaced =>
        obtain ⟨rest, begins, spaced, shorter⟩ := spaced.begins (by decide)
        obtain ⟨draft, read, shows⟩ := valueNode_string q rest
        rw [begins]
        exact ⟨draft, rest, read, shows, spaced, shorter⟩
      | .array items, spaced =>
        rw [Spelling.tokens, List.cons_append, List.append_assoc] at spaced
        obtain ⟨start, begins, spaced, shorter⟩ := spaced.begins (by decide)
        have enough : 2 * start.length + 1 < fuel := by omega
        obtain ⟨drafts, rest, read, shows, spaced, behind⟩ := itemNodes_spelled items spaced enough
        refine ⟨.array ⟨'[' :: start, rest⟩ drafts none, rest, ?_, .array shows, spaced,
          Nat.lt_trans behind shorter⟩
        rw [begins]
        change (itemNodes fuel true start).arrayNode ('[' :: start) = _
        rw [read]
        rfl
      | .object members, spaced =>
        rw [Spelling.tokens, List.cons_append, List.append_assoc] at spaced
        obtain ⟨start, begins, spaced, shorter⟩ := spaced.begins (by decide)
        have enough : 2 * start.length + 1 < fuel := by omega
        obtain ⟨drafts, rest, read, shows, spaced, behind⟩ :=
          memberNodes_spelled members spaced enough
        refine ⟨.object ⟨'\x7b' :: start, rest⟩ drafts none, rest, ?_, .object shows, spaced,
          Nat.lt_trans behind shorter⟩
        rw [begins]
        change (memberNodes fuel true start).objectNode ('\x7b' :: start) = _
        rw [read]
        rfl

/-- The items of an array are read to its closing bracket. -/
theorem itemNodes_spelled {fuel : Nat} {first : Bool} {more : List (List Char)}
    {text : List Char} : (items : List Spelling) →
      Spaced (itemTokens first items ++ ([']'] :: more)) text →
      2 * text.length + 1 < fuel → ∃ drafts rest,
        itemNodes fuel first text = ⟨drafts, none, some rest⟩ ∧ Draft.ShowItems drafts items ∧
          Spaced more rest ∧ rest.length < text.length
  | items, spaced, enough => by
      obtain ⟨fuel, rfl⟩ := Nat.exists_eq_succ_of_ne_zero (Nat.ne_zero_of_lt enough)
      match items, spaced with
      | [], spaced =>
        rw [itemTokens, List.nil_append] at spaced
        obtain ⟨rest, close, spaced, shorter⟩ := nextItem_close first spaced
        refine ⟨[], rest, ?_, .nil, spaced, shorter⟩
        rw [itemNodes, close]
        rfl
      | item :: items, spaced =>
        rw [itemTokens, List.append_assoc, List.append_assoc] at spaced
        obtain ⟨start, next, spaced, within⟩ := nextItem_value spaced
        have delimited : Delimited (itemTokens false items ++ ([']'] :: more)) := by
          cases items <;> simp [Delimited, itemTokens, separator]
        have enoughForItem : 2 * start.length < fuel := by omega
        obtain ⟨draft, behind, read, shows, spaced, shorter⟩ :=
          valueNode_spelled delimited item spaced enoughForItem
        have enoughForItems : 2 * behind.length + 1 < fuel := by omega
        obtain ⟨drafts, rest, reads, showItems, spaced, _⟩ :=
          itemNodes_spelled items spaced enoughForItems
        refine ⟨draft :: drafts, rest, ?_, .cons shows showItems, spaced, by omega⟩
        rw [itemNodes, next]
        simp only [read, reads]
        rfl

/-- The members of an object are read to its closing bracket. -/
theorem memberNodes_spelled {fuel : Nat} {first : Bool} {more : List (List Char)}
    {text : List Char} : (members : List (Quotation × Spelling)) →
      Spaced (memberTokens first members ++ (['\x7d'] :: more)) text →
      2 * text.length + 1 < fuel → ∃ drafts rest,
        memberNodes fuel first text = ⟨drafts, none, some rest⟩ ∧ Draft.ShowMembers drafts members ∧
          Spaced more rest ∧ rest.length < text.length
  | members, spaced, enough => by
      obtain ⟨fuel, rfl⟩ := Nat.exists_eq_succ_of_ne_zero (Nat.ne_zero_of_lt enough)
      match members, spaced with
      | [], spaced =>
        rw [memberTokens, List.nil_append] at spaced
        obtain ⟨rest, close, spaced, shorter⟩ := nextKey_close first spaced
        refine ⟨[], rest, ?_, .nil, spaced, shorter⟩
        rw [memberNodes, close]
        rfl
      | (q, value) :: members, spaced =>
        rw [memberTokens, List.append_assoc, List.cons_append, List.cons_append,
          List.append_assoc] at spaced
        obtain ⟨stop, next, spaced, within⟩ := nextKey_key spaced
        have body := stringBody_inside stop q
        obtain ⟨start, colon, spaced, behindColon⟩ := spaced.begins (by decide)
        have delimited : Delimited (memberTokens false members ++ (['\x7d'] :: more)) := by
          cases members <;> simp [Delimited, memberTokens, separator]
        have enoughForValue : 2 * start.length < fuel := by omega
        obtain ⟨draft, behind, read, shows, spaced, shorter⟩ :=
          valueNode_spelled delimited value spaced enoughForValue
        have enoughForMembers : 2 * behind.length + 1 < fuel := by omega
        obtain ⟨drafts, rest, reads, showMembers, spaced, _⟩ :=
          memberNodes_spelled members spaced enoughForMembers
        let name := (stringBody (q.inside ++ '\x22' :: stop)).chars.map String.ofList
        let key : Key := ⟨name, stop, ':' :: start, none⟩
        refine ⟨(key, draft) :: drafts, rest, ?_, .cons body.text rfl shows showMembers, spaced,
          by omega⟩
        rw [memberNodes, next]
        simp only [body.ending, colon, Json.colon, read, reads, List.nil_append]
        rfl

end

/-- **Reading what is spelled.** A text that spells a value is read to its end, and the draft shows
the value. -/
theorem Spelling.exists_read (spaced : Spaced s.tokens text) :
    ∃ draft rest, Draft.read text = (draft, some rest) ∧ draft.Shows s ∧ skipGap rest = [] := by
  rw [← List.append_nil s.tokens] at spaced
  have delimited : Delimited [] := by simp [Delimited]
  obtain ⟨draft, rest, read, shows, spaced, _⟩ :=
    valueNode_spelled delimited s spaced (Nat.lt_succ_self (2 * text.length))
  exact ⟨draft, rest, read, shows, spaced.skipGap_eq_nil⟩

namespace Draft

mutual

/-- A value that is spelled can be skipped. -/
theorem Shows.skipFault?_eq_none {draft : Draft} : (s : Spelling) → draft.Shows s →
    draft.skipFault? = none
  | .null, .null => rfl
  | .bool _, .bool => rfl
  | .number _, .number => rfl
  | .string _, .string _ => rfl
  | .array items, .array shows => by
      rw [skipFault?, ShowItems.itemsSkipFault?_eq_none items shows]
      rfl
  | .object members, .object shows => by
      rw [skipFault?, ShowMembers.membersSkipFault?_eq_none members shows]
      rfl

private theorem ShowItems.itemsSkipFault?_eq_none {drafts : List Draft} : (items : List Spelling) →
    ShowItems drafts items → itemsSkipFault? drafts = none
  | [], .nil => rfl
  | item :: items, .cons shows behind => by
      rw [itemsSkipFault?, Shows.skipFault?_eq_none item shows,
        ShowItems.itemsSkipFault?_eq_none items behind]
      rfl

private theorem ShowMembers.membersSkipFault?_eq_none {drafts : List (Key × Draft)} :
    (members : List (Quotation × Spelling)) → ShowMembers drafts members →
      membersSkipFault? drafts = none
  | [], .nil => rfl
  | (_, value) :: members, .cons _ colon shows behind => by
      rw [membersSkipFault?, colon, Shows.skipFault?_eq_none value shows,
        ShowMembers.membersSkipFault?_eq_none members behind]
      rfl

end

end Draft

end Json

end RouteClient
