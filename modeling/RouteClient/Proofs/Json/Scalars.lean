import RouteClient.Proofs.Json.Spelling

/-!
# Reading strings and numbers as they are spelled

The readers of strings and numbers go to the end of what the grammar says they stand before. What a
string stands for comes from its pieces one by one (`stringBody_inside`); a string with half of a
pair of units is still read to its end, but stands for nothing. A number is read whatever its size
(`numeral_token`), as long as no number goes on behind it.
-/

namespace RouteClient

namespace Json

open Quotation (inside)

variable {a b c d char : Char} {value : Nat} {cs? : Option (List Char)} {ds rest more : List Char}
  {body : StringBody} {q : Quotation}

/-- The string has been read up to its closing quote, and it stands for the characters. -/
structure StringBody.Reads (body : StringBody) (cs? : Option (List Char)) (rest : List Char) :
    Prop where
  ending : body.ending = .closed rest
  chars : body.chars.toOption = cs?

private theorem StringBody.Reads.push (reads : body.Reads cs? rest) (c : Char) :
    (body.push c).Reads (cs?.map (c :: ·)) rest := by
  refine ⟨reads.ending, ?_⟩
  rw [← reads.chars, StringBody.push]
  cases body.chars <;> rfl

private theorem StringBody.Reads.spoil (reads : body.Reads cs? rest) (fault : Malformed) :
    (body.spoil fault).Reads none rest :=
  ⟨reads.ending, rfl⟩

/-- The body of a string that has been read has its text. -/
theorem StringBody.Reads.text (reads : body.Reads q.chars? rest) :
    (body.chars.map String.ofList).toOption = q.text? := by
  rw [Quotation.text?, ← reads.chars]
  cases body.chars <;> rfl

private theorem letter_ne_unit (known : letterEscape? c = some char) : c ≠ 'u' := by
  rintro rfl
  exact absurd (known.symm.trans (by decide : letterEscape? 'u' = none)) (Option.some_ne_none char)

private theorem stringBody_plain (free : c ≠ '\x22' ∧ c ≠ '\\' ∧ 32 ≤ c.toNat) :
    stringBody (c :: rest) = (stringBody rest).push c := by
  obtain ⟨noQuote, noEscape, printable⟩ := free
  rw [stringBody]
  · rw [if_neg noQuote, if_neg (Nat.not_lt.mpr printable)]
  all_goals simp [noEscape]

private theorem stringBody_letter (known : letterEscape? c = some char) :
    stringBody ('\\' :: c :: rest) = (stringBody rest).push char := by
  have notUnit := letter_ne_unit known
  rw [stringBody]
  · simp only [known]
  all_goals simp [notUnit]

/-- The string goes on with the number of a unit. -/
def Quotation.BeginsWithUnit (q : Quotation) : Prop :=
  ∃ a b c d value known more, q = .unit a b c d value known :: more

private theorem Quotation.beginsWithUnit_of_inside
    (read : inside q ++ '\x22' :: rest = '\\' :: 'u' :: more) : q.BeginsWithUnit := by
  match q, read with
  | [], read => simp [inside] at read
  | .plain c free :: q, read =>
    have same : c = '\\' := (List.cons.inj read).1
    exact absurd same free.2.1
  | .letter c _ known :: q, read =>
    have same : c = 'u' := (List.cons.inj (List.cons.inj read).2).1
    exact absurd same (letter_ne_unit known)
  | .unit a b c d value known :: q, _ => exact ⟨a, b, c, d, value, known, q, rfl⟩

private theorem Quotation.chars?_alone (known : hexUnit? a b c d = some value)
    (alone : ¬ q.BeginsWithUnit) : Quotation.chars? (.unit a b c d value known :: q) =
      if isTrailing value || isLeading value then none
      else q.chars?.map (Char.ofNat value :: ·) := by
  rw [Quotation.chars?]
  intro a b c d value known more same
  exact alone ⟨a, b, c, d, value, known, more, same⟩

/-- Half of a pair of units without the other half spoils the string and goes no further. -/
theorem afterLeading_inside (alone : ¬ q.BeginsWithUnit) (rest : List Char) :
    afterLeading (inside q ++ '\x22' :: rest) body = body.spoil .endOfHexEscape := by
  unfold afterLeading
  split
  · rename_i none
    exact absurd none (by simp)
  · rename_i single
    rcases List.append_eq_singleton_iff.mp single with ⟨_, quote⟩ | ⟨_, none⟩
    · exact absurd (List.cons.inj quote).1 (by decide)
    · exact absurd none (List.cons_ne_nil _ _)
  · rename_i read
    exact absurd (Quotation.beginsWithUnit_of_inside read) alone
  · rfl

private theorem stringBody_alone (known : hexUnit? a b c d = some value)
    (alone : ¬ q.BeginsWithUnit)
    (behind : (stringBody (inside q ++ '\x22' :: rest)).Reads q.chars? rest) :
    (stringBody ('\\' :: 'u' :: a :: b :: c :: d :: (inside q ++ '\x22' :: rest))).Reads
      (Quotation.chars? (.unit a b c d value known :: q)) rest := by
  rw [stringBody, Quotation.chars?_alone known alone]
  simp only [known]
  by_cases trailing : isTrailing value
  · simp only [trailing, if_true, Bool.true_or]
    exact behind.spoil _
  by_cases leading : isLeading value
  · simp only [trailing, leading, Bool.false_eq_true, if_false, if_true, Bool.or_true]
    split
    · rename_i read
      exact absurd (Quotation.beginsWithUnit_of_inside read) alone
    · rw [afterLeading_inside alone]
      exact behind.spoil _
  · simp only [trailing, leading]
    exact behind.push _

/-- A string is read to its closing quote, and its characters are those that its pieces stand
for. -/
theorem stringBody_inside (rest : List Char) : (q : Quotation) →
    (stringBody (q.inside ++ '\x22' :: rest)).Reads q.chars? rest
  -- The cases are those of `chars?`: a unit is taken with the unit behind it, and alone when there
  -- is none.
  | [] => by
      rw [inside, List.flatMap_nil, List.nil_append, stringBody]
      · exact ⟨rfl, rfl⟩
      all_goals simp
  | .plain c free :: q => by
      change (stringBody (c :: (inside q ++ '\x22' :: rest))).Reads _ rest
      rw [stringBody_plain free]
      exact (stringBody_inside rest q).push c
  | .letter c char known :: q => by
      change (stringBody ('\\' :: c :: (inside q ++ '\x22' :: rest))).Reads _ rest
      rw [stringBody_letter known]
      exact (stringBody_inside rest q).push char
  | .unit a b c d leading known :: .unit e f g h trailing known' :: q => by
      have behind := stringBody_inside rest (.unit e f g h trailing known' :: q)
      change (stringBody ('\\' :: 'u' :: a :: b :: c :: d :: '\\' :: 'u' :: e :: f :: g :: h ::
        (inside q ++ '\x22' :: rest))).Reads _ rest
      rw [stringBody, Quotation.chars?]
      simp only [known, known']
      split
      · exact behind.spoil _
      · split
        · split
          · exact (stringBody_inside rest q).push _
          · exact behind.spoil _
        · exact behind.push _
  | [.unit _ _ _ _ _ known] =>
      stringBody_alone known (by simp [Quotation.BeginsWithUnit]) (stringBody_inside rest [])
  | .unit _ _ _ _ _ known :: .plain c free :: q =>
      stringBody_alone known (by simp [Quotation.BeginsWithUnit])
        (stringBody_inside rest (.plain c free :: q))
  | .unit _ _ _ _ _ known :: .letter c char known' :: q =>
      stringBody_alone known (by simp [Quotation.BeginsWithUnit])
        (stringBody_inside rest (.letter c char known' :: q))

/-- The text does not go on with anything that could belong to a number. -/
def EndsNumber (rest : List Char) : Prop :=
  ∀ c ∈ rest.head?, c.isDigit = false ∧ c ∉ ['.', 'e', 'E']

private theorem digits_append (isDigits : IsDigits ds)
    (stops : ∀ c ∈ rest.head?, c.isDigit = false) :
    digits (ds ++ rest) = (ds, rest) := by
  have behind : rest.takeWhile Char.isDigit = [] ∧ rest.dropWhile Char.isDigit = rest := by
    cases rest with
    | nil => exact ⟨rfl, rfl⟩
    | cons c rest =>
        have stop : c.isDigit = false := stops c rfl
        simp [stop]
  rw [digits, List.takeWhile_append_of_pos isDigits.2, List.dropWhile_append_of_pos isDigits.2,
    behind.1, behind.2, List.append_nil]

private theorem wholePart_append (isDigits : IsDigits ds)
    (loneZero : ds.head? = some '0' → ds = ['0'])
    (stops : ∀ c ∈ rest.head?, c.isDigit = false) : wholePart (ds ++ rest) = .ok (ds, rest) := by
  rw [wholePart, digits_append isDigits stops]
  split
  · rename_i same
    exact absurd (Prod.mk.inj same).1 isDigits.1
  · rename_i same
    rw [(Prod.mk.inj same).1, (Prod.mk.inj same).2]
  · rename_i longer same
    obtain ⟨rfl, rfl⟩ := Prod.mk.inj same
    exact absurd (List.cons.inj (loneZero rfl)).2 longer
  · rfl

private theorem someDigits_append (isDigits : IsDigits ds)
    (stops : ∀ c ∈ rest.head?, c.isDigit = false) : someDigits (ds ++ rest) = .ok (ds, rest) := by
  rw [someDigits, digits_append isDigits stops]
  split
  · rename_i same
    exact absurd (Prod.mk.inj same).1 isDigits.1
  · rfl

private theorem fractionPart_append {fraction : List Char} (isFraction : IsFraction fraction)
    (ends : ∀ c ∈ rest.head?, c.isDigit = false ∧ c ≠ '.') :
    ∃ ds, fractionPart (fraction ++ rest) = .ok (ds, rest) := by
  rcases isFraction with rfl | ⟨ds, isDigits, rfl⟩
  · refine ⟨[], ?_⟩
    rw [List.nil_append, fractionPart]
    rintro cs rfl
    exact (ends '.' rfl).2 rfl
  · exact ⟨ds, someDigits_append isDigits fun c head => (ends c head).1⟩

private theorem exponentDigits_append {sign : List Char} (isSign : sign ∈ [[], ['+'], ['-']])
    (isDigits : IsDigits ds) (stops : ∀ c ∈ rest.head?, c.isDigit = false) :
    ∃ value, exponentDigits (sign ++ (ds ++ rest)) = .ok (value, rest) := by
  have read := someDigits_append isDigits stops
  rw [List.mem_cons, List.mem_cons, List.mem_singleton] at isSign
  rcases isSign with rfl | rfl | rfl
  · obtain ⟨d, ds, rfl⟩ := List.exists_cons_of_ne_nil isDigits.1
    have isDigit : d.isDigit = true := isDigits.2 d (List.mem_cons_self)
    refine ⟨digitsValue (d :: ds), ?_⟩
    rw [List.nil_append, exponentDigits, read]
    · rfl
    · intro cs same
      have plus : d = '+' := (List.cons.inj same).1
      exact absurd isDigit (by rw [plus]; decide)
    · intro cs same
      have minus : d = '-' := (List.cons.inj same).1
      exact absurd isDigit (by rw [minus]; decide)
  · refine ⟨digitsValue ds, ?_⟩
    rw [List.singleton_append, exponentDigits, read]
    rfl
  · refine ⟨-digitsValue ds, ?_⟩
    rw [List.singleton_append, exponentDigits, read]
    rfl

private theorem exponentPart_append {exponent : List Char} (isExponent : IsExponent exponent)
    (ends : EndsNumber rest) :
    ∃ value, exponentPart (exponent ++ rest) = .ok (value, rest) := by
  rcases isExponent with rfl | ⟨mark, isMark, sign, isSign, ds, isDigits, rfl⟩
  · refine ⟨none, ?_⟩
    cases rest with
    | nil => rfl
    | cons c rest =>
        have noMark : c ≠ 'e' ∧ c ≠ 'E' := by
          refine ⟨?_, ?_⟩ <;> (rintro rfl; exact (ends _ rfl).2 (by decide))
        simp [exponentPart, noMark]
  · obtain ⟨value, read⟩ := exponentDigits_append isSign isDigits fun c head => (ends c head).1
    refine ⟨some value, ?_⟩
    have isMark : mark = 'e' ∨ mark = 'E' := by simpa using isMark
    simp [exponentPart, isMark, read, Except.map]

private theorem unsigned_append (f : Figure) (negative : Bool) (ends : EndsNumber rest) :
    ∃ n, unsigned negative (f.whole ++ (f.fraction ++ (f.exponent ++ rest))) = .ok (n, rest) := by
  have behindFraction : ∀ c ∈ (f.exponent ++ rest).head?, c.isDigit = false ∧ c ≠ '.' := by
    rcases f.isExponent with none | ⟨mark, isMark, sign, _, ds, _, exponent⟩
    · rw [none, List.nil_append]
      exact fun c head => ⟨(ends c head).1, fun dot => (ends c head).2 (by simp [dot])⟩
    · have isMark : mark = 'e' ∨ mark = 'E' := by simpa using isMark
      rw [exponent]
      rintro c ⟨⟩
      rcases isMark with rfl | rfl <;> decide
  have behindWhole : ∀ c ∈ (f.fraction ++ (f.exponent ++ rest)).head?, c.isDigit = false := by
    rcases f.isFraction with none | ⟨ds, _, fraction⟩
    · rw [none, List.nil_append]
      exact fun c head => (behindFraction c head).1
    · rw [fraction]
      rintro c ⟨⟩
      decide
  obtain ⟨fraction, readFraction⟩ := fractionPart_append f.isFraction behindFraction
  obtain ⟨exponent, readExponent⟩ := exponentPart_append f.isExponent ends
  refine ⟨numeralOf negative f.whole fraction exponent, ?_⟩
  simp only [unsigned, wholePart_append f.isDigits f.loneZero behindWhole, readFraction,
    readExponent, bind, Except.bind, pure, Except.pure]

/-- The whole part of a figure has a first digit. -/
theorem Figure.exists_whole (f : Figure) : ∃ d ds, f.whole = d :: ds ∧ d.isDigit := by
  obtain ⟨d, ds, whole⟩ := List.exists_cons_of_ne_nil f.isDigits.1
  exact ⟨d, ds, whole, f.isDigits.2 d (by simp [whole])⟩

/-- A number is read to its end. -/
theorem numeral_token (f : Figure) (ends : EndsNumber rest) :
    ∃ n, numeral (f.token ++ rest) = .ok (n, rest) := by
  obtain ⟨n, read⟩ := unsigned_append f f.negative ends
  refine ⟨n, ?_⟩
  cases sign : f.negative with
  | true => simpa [Figure.token, sign, numeral] using read
  | false =>
      obtain ⟨d, ds, whole, isDigit⟩ := f.exists_whole
      rw [Figure.token, sign, numeral]
      · simpa [sign] using read
      · intro cs same
        have minus : d = '-' := by simpa [whole] using (congrArg List.head? same)
        exact absurd isDigit (by rw [minus]; decide)

end Json

end RouteClient
