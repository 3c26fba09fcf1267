import EventRecorder.CText

/-!
# Formats with fields

A format is a text in which `{}` stands for a field. It matches a text as a whole, and each
field takes at least one character and as few as it can, those in front first. So a field
that is followed by a separator ends where the separator first stands.
-/

namespace EventRecorder.Formats

open CText

/-- A piece of a format: a character that stands for itself, or a field. -/
inductive Piece where
  | char (c : Char)
  | field
  deriving DecidableEq, Repr

/-- The pieces of a format. Braces with something between them are not taken for fields,
since the formats in use have none. -/
def pieces : Text → List Piece
  | [] => []
  | '{' :: '}' :: rest => .field :: pieces rest
  | c :: rest => .char c :: pieces rest

/-- The fields of a text by the pieces of a format. A field first tries to end after one
character, and goes on where the rest then does not match. -/
def matchLazily : List Piece → Text → Option (List Text)
  | [], [] => some []
  | .char c :: format, d :: text => if c = d then matchLazily format text else none
  | .field :: format, d :: text =>
    match matchLazily format text with
    | some fields => some ([d] :: fields)
    | none =>
      match matchLazily (.field :: format) text with
      | some (first :: others) => some ((d :: first) :: others)
      | _ => none
  | _, _ => none

/-- The fields of a text by a format, as the library returns them in order. -/
def parse (format text : Text) : Option (List Text) := matchLazily (pieces format) text

/-- Formats with fields behind a head are matched as documented, where the head is of
letters and blanks and all fields but the last are words: the last is the rest of the text. -/
def ParsesFields (parse : Text → Text → Option (List Text)) : Prop :=
  ∀ (head : Text) (words : List Text) (last : Text), (∀ c ∈ head, c.isAlpha = true ∨ c = ' ') →
    (∀ word ∈ words, word ≠ [] ∧ ' ' ∉ word) → last ≠ [] →
      parse (head ++ (words.flatMap fun _ => "{} ".toList) ++ "{}".toList)
          (head ++ words.flatMap (· ++ [' ']) ++ last) = some (words ++ [last])

/-! ## What a format matches -/

/-- A head without a brace stands for itself, character by character. -/
theorem pieces_head (head rest : Text) (plain : '{' ∉ head) :
    pieces (head ++ rest) = head.map .char ++ pieces rest := by
  induction head with
  | nil => rfl
  | cons c head inductionHypothesis =>
    obtain ⟨other, others⟩ := not_or.mp (List.mem_cons.not.mp plain)
    rw [List.cons_append, pieces, inductionHypothesis others]
    · rfl
    · rintro _ rfl
      exact absurd rfl other

/-- A head is matched by itself, and the rest by the rest. -/
theorem match_head (head text : Text) (format : List Piece) :
    matchLazily (head.map .char ++ format) (head ++ text) = matchLazily format text := by
  induction head with
  | nil => rfl
  | cons c head inductionHypothesis =>
    simpa [matchLazily] using inductionHypothesis

/-- The last field takes all that is left, since the text has to be matched to its end. -/
theorem match_last (last : Text) (some : last ≠ []) :
    matchLazily [.field] last = Option.some [last] := by
  induction last with
  | nil => exact absurd rfl some
  | cons c last inductionHypothesis =>
    cases last with
    | nil => rfl
    | cons d last =>
      rw [matchLazily, inductionHypothesis (List.cons_ne_nil _ _)]
      rfl

/-- A field ends at the first separator, if the rest is matched, because a shorter one
would be followed by something else. -/
theorem match_field (field text : Text) (separator : Char) (format : List Piece)
    (fields : List Text) (some : field ≠ []) (none : separator ∉ field)
    (rest : matchLazily format text = Option.some fields) :
    matchLazily (.field :: .char separator :: format) (field ++ separator :: text) =
      Option.some (field :: fields) := by
  induction field with
  | nil => exact absurd rfl some
  | cons c field inductionHypothesis =>
    obtain ⟨_, others⟩ := not_or.mp (List.mem_cons.not.mp none)
    cases field with
    | nil => simp [matchLazily, rest]
    | cons d field =>
      have early : separator ≠ d := (not_or.mp (List.mem_cons.not.mp others)).1
      have later := inductionHypothesis (List.cons_ne_nil _ _) others
      rw [List.cons_append, matchLazily, later]
      simp [matchLazily, early]

/-- The fields behind a head are found as they were written, so that what the plots ask
of the library holds of this definition. -/
theorem parses_fields : ParsesFields parse := by
  intro head words last letters spaceless some
  have plain : '{' ∉ head := fun member => absurd (letters _ member) (by decide)
  rw [parse, List.append_assoc, List.append_assoc, pieces_head _ _ plain, match_head]
  induction words with
  | nil => exact match_last last some
  | cons word words inductionHypothesis =>
    obtain ⟨⟨long, none⟩, others⟩ := List.forall_mem_cons.mp spaceless
    have format (rest : Text) : pieces ("{} ".toList ++ rest) =
        .field :: .char ' ' :: pieces rest := rfl
    rw [List.flatMap_cons, List.append_assoc, format, List.flatMap_cons, List.append_assoc,
      List.append_assoc, List.singleton_append]
    exact match_field word _ ' ' _ _ long none (inductionHypothesis others)

end EventRecorder.Formats
