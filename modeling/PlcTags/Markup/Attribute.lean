import PlcTags.Markup.Entity

/-!
# Attributes

A tag holds the name of its element and then attributes, `key="value"` or
`key='value'`, with blanks around the equals sign and between attributes where one
likes.  Keys are compared in full; afterwards only what follows the first colon of a key
or a name counts.
-/

namespace PlcTags.Markup

/-- A blank of markup. -/
def isSpace (c : Char) : Bool :=
  c == ' ' || c == '\t' || c == '\r' || c == '\n'

/-- What follows the first colon of a name; all of it without one. -/
def localName (name : List Char) : List Char :=
  match name.dropWhile (· != ':') with
  | _ :: rest => rest
  | [] => name

/-- The name at the front of a tag. -/
def tagName (tag : List Char) : List Char :=
  tag.takeWhile fun c => !isSpace c

structure Attribute where
  key : List Char
  value : List Char
  deriving DecidableEq, Repr

/-- The key at the front of a text that begins with no blank, and the rest from the
equals sign or blank on.  The first character belongs to the key whatever it is. -/
def cutKey : List Char → List Char × List Char
  | [] => ([], [])
  | c :: rest =>
    (c :: rest.takeWhile fun c => c != '=' && !isSpace c,
      rest.dropWhile fun c => c != '=' && !isSpace c)

theorem length_cutKey_lt (c : Char) (rest : List Char) :
    (cutKey (c :: rest)).2.length < (c :: rest).length := by
  have := (List.dropWhile_suffix (l := rest) fun c => c != '=' && !isSpace c).length_le
  simp only [cutKey, List.length_cons]; omega

/-- What follows the equals sign after a key; the tag has `size` bytes. -/
def afterEquals (size : Nat) (text : List Char) : Except Fault (List Char) :=
  match text.dropWhile isSpace with
  | '=' :: rest => .ok rest
  | rest => .error (.missingEquals (size - Text.byteLength rest))

theorem length_of_afterEquals {size : Nat} {text rest : List Char}
    (h : afterEquals size text = .ok rest) : rest.length < text.length := by
  unfold afterEquals at h
  split at h
  · rename_i after hafter
    have hle := (List.dropWhile_suffix (l := text) isSpace).length_le
    rw [hafter, List.length_cons] at hle
    cases h
    omega
  · cases h

/-- The value after an equals sign, entities unresolved, and the rest. -/
def cutValue (size : Nat) (text : List Char) : Except Fault (List Char × List Char) :=
  match text.dropWhile isSpace with
  | [] => .error (.missingValue size)
  | quote :: rest =>
    if quote == '"' || quote == '\'' then
      match rest.dropWhile (· != quote) with
      | _ :: after => .ok (rest.takeWhile (· != quote), after)
      | [] => .error (.missingQuote size quote)
    else .error (.unquotedValue (size - Text.byteLength (quote :: rest)))

theorem length_of_cutValue {size : Nat} {text value rest : List Char}
    (h : cutValue size text = .ok (value, rest)) : rest.length < text.length := by
  unfold cutValue at h
  split at h
  · cases h
  · rename_i quote inner hinner
    have hle := (List.dropWhile_suffix (l := text) isSpace).length_le
    rw [hinner, List.length_cons] at hle
    split at h
    · split at h
      · rename_i last after hafter
        have hquote := (List.dropWhile_suffix (l := inner) (· != quote)).length_le
        rw [hafter, List.length_cons] at hquote
        cases h
        omega
      · cases h
    · cases h

/-- The attributes of a tag of `size` bytes, from `text` on.  The keys that have been
read stand in `seen` with their positions. -/
def attributesFrom (size : Nat) (seen : List (List Char × Nat)) (text : List Char) :
    Except Fault (List Attribute) :=
  match hskip : text.dropWhile isSpace with
  | [] => .ok []
  | c :: rest =>
    have hle : (c :: rest).length ≤ text.length := by
      rw [← hskip]; exact (List.dropWhile_suffix _).length_le
    have hkey := length_cutKey_lt c rest
    let position := size - Text.byteLength (c :: rest)
    let key := (cutKey (c :: rest)).1
    match hequals : afterEquals size (cutKey (c :: rest)).2 with
    | .error fault => .error fault
    | .ok after =>
      have hafter := length_of_afterEquals hequals
      match seen.lookup key with
      | some previous => .error (.repeatedAttribute position previous)
      | none =>
        match hvalue : cutValue size after with
        | .error fault => .error fault
        | .ok (value, rest) => do
          have hrest := length_of_cutValue hvalue
          let value ← unescape value
          let more ← attributesFrom size (seen ++ [(key, position)]) rest
          return ⟨localName key, value⟩ :: more
  termination_by text.length
  decreasing_by omega

/-- The attributes of a tag. -/
def attributes (tag : List Char) : Except Fault (List Attribute) :=
  attributesFrom (Text.byteLength tag) [] (tag.dropWhile fun c => !isSpace c)

end PlcTags.Markup
