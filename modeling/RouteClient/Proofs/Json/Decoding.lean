import Mathlib.Data.List.Forall2
import RouteClient.Json.Decoder
import RouteClient.Proofs.Json.Reading

/-!
# Decoding values as they are spelled

What the spellings of strings, truth values, lists and words stand for, and that the decoders find
it (`Decodes`). Two spellings of one value are decoded alike because both are decoded to that value.
-/

namespace RouteClient

namespace Json

variable {α : Type}

/-- The decoder gives each value, however it is spelled. -/
def Decodes (decode : Decoder α) (spells : Spelling → α → Prop) : Prop :=
  ∀ ⦃draft s a⦄, Draft.Shows draft s → spells s a → decode draft = .ok a

/-- A quoted string spells its text. -/
inductive SpellsString : Spelling → String → Prop where
  | quoted {q : Quotation} {text : String} (same : q.text? = some text) :
    SpellsString (.string q) text

/-- The words `true` and `false` spell truth values. -/
inductive SpellsBool : Spelling → Bool → Prop where
  | word (b : Bool) : SpellsBool (.bool b) b

/-- Null spells an absent value. -/
inductive SpellsOption (spells : Spelling → α → Prop) : Spelling → Option α → Prop where
  | absent : SpellsOption spells .null none
  | present {s : Spelling} {a : α} (spelled : spells s a) : SpellsOption spells s (some a)

/-- An array spells the list of the values of its items. -/
inductive SpellsList (spells : Spelling → α → Prop) : Spelling → List α → Prop where
  | items {items : List Spelling} {values : List α} (spelled : List.Forall₂ spells items values) :
    SpellsList spells (.array items) values

/-- A quoted string spells the value that its text stands for. -/
inductive SpellsWord (find : String → Option α) : Spelling → α → Prop where
  | quoted {q : Quotation} {name : String} {a : α} (same : q.text? = some name)
    (known : find name = some a) : SpellsWord find (.string q) a

variable {decode : Decoder α} {spells : Spelling → α → Prop}

/-- What has been read without a fault, and is known, has been read. -/
theorem eq_ok_of_toOption {read : Except Malformed String} {text? : Option String} {text : String}
    (same : read.toOption = text?) (known : text? = some text) : read = .ok text := by
  subst same
  cases read with
  | ok read => rw [Option.some.inj known]
  | error => cases known

/-- Texts are decoded. -/
theorem decodes_string : Decodes Decoder.string SpellsString := by
  intro draft s text shows spelled
  cases spelled with
  | quoted known =>
      cases shows with
      | string same =>
          rw [eq_ok_of_toOption same known]
          rfl

/-- Truth values are decoded. -/
theorem decodes_bool : Decodes Decoder.bool SpellsBool := by
  intro draft s b shows spelled
  cases spelled
  cases shows
  rfl

/-- Words of a fixed choice are decoded. -/
theorem decodes_word (find : String → Option α) (known : List String) :
    Decodes (Decoder.word find known) (SpellsWord find) := by
  intro draft s a shows spelled
  cases spelled with
  | quoted text found =>
      cases shows with
      | @string span _ _ same =>
          rw [eq_ok_of_toOption same text]
          change Decoder.lookUp find known _ span.stop = .ok a
          rw [Decoder.lookUp, found]

/-- Values that may be null are decoded when the values are. -/
theorem Decodes.nullable (decodes : Decodes decode spells) (notNull : ∀ a, ¬ spells .null a) :
    Decodes (Decoder.nullable decode) (SpellsOption spells) := by
  intro draft s value shows spelled
  cases spelled with
  | absent =>
      cases shows
      rfl
  | present spelled =>
      have read := decodes shows spelled
      cases shows with
      | null => exact absurd spelled (notNull _)
      | _ =>
          rw [Decoder.nullable]
          · rw [read]
            rfl
          · intro span same
            cases same

/-- Lists are decoded when their items are. -/
theorem Decodes.list (decodes : Decodes decode spells) :
    Decodes (Decoder.list decode) (SpellsList spells) := by
  intro draft s values shows spelled
  cases spelled with
  | items spelled =>
      cases shows with
      | @array span drafts items shows =>
          -- The drafts show the items one by one, as the items spell the values.
          have read : drafts.mapM decode = .ok values := by
            induction spelled generalizing drafts with
            | nil =>
                cases shows
                rfl
            | cons spelled _ ih =>
                cases shows with
                | cons shows behind =>
                    rw [List.mapM_cons, decodes shows spelled, ih behind]
                    rfl
          rw [Decoder.list, read]
          rfl

/-- A text that spells a value is decoded to that value. -/
theorem Decodes.run (decodes : Decodes decode spells) {s : Spelling} {a : α} {text : List Char}
    (spaced : Spaced s.tokens text) (spelled : spells s a) : Decoder.run decode text = .ok a := by
  obtain ⟨draft, rest, read, shows, finished⟩ := Spelling.exists_read spaced
  rw [Decoder.run, read]
  simp only [decodes shows spelled, bind, Except.bind, Option.getD_some, finished, List.isEmpty_nil]
  rfl

end Json

end RouteClient
