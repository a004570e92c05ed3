import PlcTags.Text.Classes
import PlcTags.Text.Trim

/-!
# Attribute lists

A cell such as `(Usage := Input, Default := 'a, b')` holds attributes: a word, `:=` and a
value.  A value with a comma, a closing parenthesis or an apostrophe in it stands between
apostrophes, and inside an apostrophe is written twice.
-/

namespace PlcTags.Table

/-! ## Writing -/

def doubleApostrophes (text : List Char) : List Char :=
  text.flatMap fun c => if c = '\'' then ['\'', '\''] else [c]

def needsApostrophes (value : List Char) : Bool :=
  value.any fun c => c == ',' || c == ')' || c == '\''

def writeValue (value : List Char) : List Char :=
  if needsApostrophes value then '\'' :: doubleApostrophes value ++ ['\''] else value

/-! ## Reading -/

/-- What stands between apostrophes, up to and with the last of them, and the rest.  Two
apostrophes in a row belong to the text if the text ends after them. -/
def cutApostrophes : List Char → Option (List Char × List Char)
  | [] => none
  | '\'' :: '\'' :: rest =>
    match cutApostrophes rest with
    | some (text, after) => some ('\'' :: '\'' :: text, after)
    | none => some (['\''], '\'' :: rest)
  | '\'' :: rest => some (['\''], rest)
  | c :: rest => (cutApostrophes rest).map fun (text, after) => (c :: text, after)

theorem length_of_cutApostrophes {text value rest : List Char}
    (h : cutApostrophes text = some (value, rest)) : rest.length ≤ text.length := by
  fun_induction cutApostrophes text generalizing value rest with
  | case1 => simp at h
  | case2 tail inner after hcut ih =>
    simp only [Option.some.injEq, Prod.mk.injEq] at h
    have := ih hcut
    rw [← h.2]
    simp only [List.length_cons]; omega
  | case3 tail hcut ih =>
    simp only [Option.some.injEq, Prod.mk.injEq] at h
    rw [← h.2]; simp
  | case4 tail =>
    simp only [Option.some.injEq, Prod.mk.injEq] at h
    rw [← h.2]; simp
  | case5 c tail _ _ ih =>
    obtain ⟨⟨inner, last⟩, hcut, heq⟩ := Option.map_eq_some_iff.1 h
    simp only [Prod.mk.injEq] at heq
    obtain ⟨-, rfl⟩ := heq
    have := ih hcut
    simp only [List.length_cons]; omega

/-- A value up to a comma or a closing parenthesis, and the rest. -/
def cutBare (text : List Char) : List Char × List Char :=
  (text.takeWhile fun c => c != ',' && c != ')', text.dropWhile fun c => c != ',' && c != ')')

/-- The value at the front of a text, and the rest. -/
def cutValue (text : List Char) : List Char × List Char :=
  match text with
  | '\'' :: rest =>
    match cutApostrophes rest with
    | some (value, after) => ('\'' :: value, after)
    | none => cutBare text
  | _ => cutBare text

theorem length_cutValue_le (text : List Char) : (cutValue text).2.length ≤ text.length := by
  unfold cutValue
  split
  · split
    · rename_i hcut
      exact Nat.le_succ_of_le (length_of_cutApostrophes hcut)
    · exact (List.dropWhile_suffix _).length_le
  · exact (List.dropWhile_suffix _).length_le

/-- Apostrophes written twice are read once. -/
def singleApostrophes : List Char → List Char
  | '\'' :: '\'' :: rest => '\'' :: singleApostrophes rest
  | c :: rest => c :: singleApostrophes rest
  | [] => []

/-- A value as it is meant: without the apostrophes around it. -/
def readValue (value : List Char) : List Char :=
  match Text.trim value with
  | '\'' :: rest =>
    if rest.getLast? = some '\'' then singleApostrophes rest.dropLast else '\'' :: rest
  | value => value

/-- The attributes of a text, in order. -/
def attributesOf (text : List Char) : List (String × String) :=
  match text with
  | [] => []
  | c :: rest =>
    have _ : (rest.dropWhile Text.isWordChar).length ≤ rest.length :=
      (List.dropWhile_suffix _).length_le
    if Text.isWordChar c then
      match h : Text.trimStart (rest.dropWhile Text.isWordChar) with
      | ':' :: '=' :: value =>
        have _ : (Text.trimStart (rest.dropWhile Text.isWordChar)).length ≤
            (rest.dropWhile Text.isWordChar).length := (List.dropWhile_suffix _).length_le
        have _ := congrArg List.length h
        have _ : (Text.trimStart value).length ≤ value.length :=
          (List.dropWhile_suffix _).length_le
        have _ := length_cutValue_le (Text.trimStart value)
        (String.ofList (c :: rest.takeWhile Text.isWordChar),
            String.ofList (readValue (cutValue (Text.trimStart value)).1)) ::
          attributesOf (cutValue (Text.trimStart value)).2
      | _ => attributesOf (rest.dropWhile Text.isWordChar)
    else attributesOf rest
  termination_by text.length
  decreasing_by all_goals (simp only [List.length_cons] at *; omega)

end PlcTags.Table
