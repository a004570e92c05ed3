import PlcTags.Markup.Event
import PlcTags.Markup.Node

/-!
# Written tags are read back

A written tag is cut out at its closing angle bracket (`readMarkup_start`,
`readMarkup_empty`) and gives the name and the attributes that were written
(`tagName_renderTag`, `attributes_renderTag`).

The first holds because no written tag has a closing bracket inside: names have
none, and in values it is escaped.  At the end of the tag all quotes are closed,
as in values quotes are escaped, too.  The second needs that the keys of a tag
are distinct.
-/

namespace PlcTags.Markup

/-! ## Names -/

/-- A character of a name without a namespace: it is no blank and means nothing inside of
a tag.  Letters of all scripts are such characters. -/
def isNameChar (c : Char) : Bool :=
  !(isSpace c || ['<', '>', '/', '=', '"', '\'', ':', '!', '?'].contains c)

/-- A name of an element or a key of an attribute. -/
def IsName (name : String) : Prop :=
  name.toList ≠ [] ∧ name.toList.all isNameChar = true

instance (name : String) : Decidable (IsName name) :=
  inferInstanceAs (Decidable (_ ∧ _))

theorem ne_of_isNameChar {c d : Char} (hc : isNameChar c = true) (hd : isNameChar d = false) :
    c ≠ d := by
  rintro rfl
  rw [hc] at hd
  cases hd

theorem isSpace_of_isNameChar {c : Char} (hc : isNameChar c = true) : isSpace c = false := by
  rw [isNameChar, Bool.not_eq_true', Bool.or_eq_false_iff] at hc
  exact hc.1

theorem IsName.isNameChar_of_mem {name : String} (h : IsName name) {c : Char}
    (hc : c ∈ name.toList) : isNameChar c = true :=
  List.all_eq_true.mp h.2 c hc

theorem IsName.exists_cons {name : String} (h : IsName name) :
    ∃ c rest, name.toList = c :: rest ∧ isNameChar c = true := by
  cases hname : name.toList with
  | nil => exact absurd hname h.1
  | cons c rest => exact ⟨c, rest, rfl, h.isNameChar_of_mem (hname ▸ List.mem_cons_self)⟩

/-- A name has no namespace in front. -/
theorem IsName.localName {name : String} (h : IsName name) :
    localName name.toList = name.toList := by
  have hcolon : ∀ c ∈ name.toList, (c != ':') = true := by
    intro c hc
    simpa using ne_of_isNameChar (h.isNameChar_of_mem hc) (d := ':') (by decide)
  have hdrop : name.toList.dropWhile (· != ':') = [] := by
    rw [← List.append_nil name.toList, List.dropWhile_append_of_pos hcolon]
    rfl
  rw [Markup.localName, hdrop]

/-! ## Escaped texts -/

/-- What escaping makes of a character means nothing. -/
theorem plain_of_mem_escapeChar {c d : Char} (h : d ∈ escapeChar c) :
    d ≠ '<' ∧ d ≠ '>' ∧ d ≠ '"' := by
  have hentity : ∀ entity : List Char,
      entity.all (fun d => d != '<' && d != '>' && d != '"') = true → d ∈ entity →
        d ≠ '<' ∧ d ≠ '>' ∧ d ≠ '"' := by
    intro entity hall hmem
    simpa [and_assoc] using List.all_eq_true.mp hall d hmem
  unfold escapeChar at h
  split at h
  · exact hentity _ (by decide) h
  · exact hentity _ (by decide) h
  · exact hentity _ (by decide) h
  · exact hentity _ (by decide) h
  · exact hentity _ (by decide) h
  · simp_all

theorem plain_of_mem_escape {text : List Char} {d : Char} (h : d ∈ escape text) :
    d ≠ '<' ∧ d ≠ '>' ∧ d ≠ '"' := by
  obtain ⟨c, -, hd⟩ := List.mem_flatMap.mp h
  exact plain_of_mem_escapeChar hd

/-! ## Written tags -/

/-- The name and the attributes of a tag are names, and no key comes twice. -/
structure IsTag (name : String) (attributes : List (String × String)) : Prop where
  name : IsName name
  keys : ∀ pair ∈ attributes, IsName pair.1
  distinct : (attributes.map Prod.fst).Nodup

/-- Only the names in a tag matter, not the values. -/
theorem IsTag.of_keys {name : String} {attributes : List (String × String)}
    (keys : List String) (hkeys : attributes.map Prod.fst = keys)
    (h : IsName name ∧ (∀ key ∈ keys, IsName key) ∧ keys.Nodup) : IsTag name attributes where
  name := h.1
  keys pair hpair := h.2.1 pair.1 (hkeys ▸ List.mem_map_of_mem hpair)
  distinct := hkeys ▸ h.2.2

theorem not_mem_renderTag {name : String} {attributes : List (String × String)}
    (h : IsTag name attributes) : '>' ∉ renderTag name attributes := by
  intro hmem
  rw [renderTag, List.mem_append, List.mem_flatMap] at hmem
  rcases hmem with hname | ⟨pair, hpair, hrender⟩
  · exact ne_of_isNameChar (h.name.isNameChar_of_mem hname) (d := '>') (by decide) rfl
  · simp only [renderAttribute, List.mem_append, List.mem_cons, List.not_mem_nil, or_false]
      at hrender
    rcases hrender with (((hspace | hkey) | hsign | hopen) | hvalue) | hclose
    · exact absurd hspace (by decide)
    · exact ne_of_isNameChar ((h.keys pair hpair).isNameChar_of_mem hkey) (d := '>')
        (by decide) rfl
    · exact absurd hsign (by decide)
    · exact absurd hopen (by decide)
    · exact (plain_of_mem_escape hvalue).2.1 rfl
    · exact absurd hclose (by decide)

/-! ## Quotes of a tag -/

theorem quoteAfter_of_isNameChar {c : Char} (hc : isNameChar c = true) :
    quoteAfter none c = none := by
  have hdouble := ne_of_isNameChar hc (d := '"') (by decide)
  have hsingle := ne_of_isNameChar hc (d := '\'') (by decide)
  simp [quoteAfter, hdouble, hsingle]

theorem foldl_quoteAfter_name {name : String} (h : IsName name) :
    name.toList.foldl quoteAfter none = none := by
  have hchars : ∀ text : List Char, (∀ c ∈ text, isNameChar c = true) →
      text.foldl quoteAfter none = none := by
    intro text htext
    induction text with
    | nil => rfl
    | cons c rest ih =>
        rw [List.foldl_cons, quoteAfter_of_isNameChar (htext c List.mem_cons_self)]
        exact ih fun d hd => htext d (List.mem_cons_of_mem _ hd)
  exact hchars _ fun c hc => h.isNameChar_of_mem hc

/-- A quote that is open stays open throughout an escaped text. -/
theorem foldl_quoteAfter_escape (text : List Char) :
    (escape text).foldl quoteAfter (some '"') = some '"' := by
  have hchars : ∀ text : List Char, (∀ c ∈ text, c ≠ '"') →
      text.foldl quoteAfter (some '"') = some '"' := by
    intro text htext
    induction text with
    | nil => rfl
    | cons c rest ih =>
        have hkeep : quoteAfter (some '"') c = some '"' := by
          simp [quoteAfter, htext c List.mem_cons_self]
        rw [List.foldl_cons, hkeep]
        exact ih fun d hd => htext d (List.mem_cons_of_mem _ hd)
  exact hchars _ fun c hc => (plain_of_mem_escape hc).2.2

theorem foldl_quoteAfter_renderAttribute {pair : String × String} (h : IsName pair.1) :
    (renderAttribute pair).foldl quoteAfter none = none := by
  have hkey : (' ' :: pair.1.toList).foldl quoteAfter none = none := by
    rw [List.foldl_cons]
    exact foldl_quoteAfter_name h
  have hopen : ['=', '"'].foldl quoteAfter none = some '"' := rfl
  unfold renderAttribute
  rw [List.foldl_append, List.foldl_append, List.foldl_append, hkey, hopen,
    foldl_quoteAfter_escape]
  rfl

/-- At the end of a written tag all quotes are closed. -/
theorem foldl_quoteAfter_renderTag {name : String} {attributes : List (String × String)}
    (h : IsTag name attributes) : (renderTag name attributes).foldl quoteAfter none = none := by
  have hattributes : ∀ attributes : List (String × String),
      (∀ pair ∈ attributes, IsName pair.1) →
        (attributes.flatMap renderAttribute).foldl quoteAfter none = none := by
    intro attributes hkeys
    induction attributes with
    | nil => rfl
    | cons pair rest ih =>
        rw [List.flatMap_cons, List.foldl_append,
          foldl_quoteAfter_renderAttribute (hkeys pair List.mem_cons_self)]
        exact ih fun other hother => hkeys other (List.mem_cons_of_mem _ hother)
  rw [renderTag, List.foldl_append, foldl_quoteAfter_name h.name, hattributes _ h.keys]

/-! ## Cutting at the closing bracket -/

/-- The text is cut at the first bracket that counts. -/
theorem cutWhere_append {isEnd : List Char → Bool} {body passed : List Char}
    (hskip : ∀ front back, body = front ++ '>' :: back → isEnd (front.reverse ++ passed) = false)
    (hend : isEnd (body.reverse ++ passed) = true) (rest : List Char) :
    cutWhere isEnd passed (body ++ '>' :: rest) = some (passed.reverse ++ body, rest) := by
  induction body generalizing passed with
  | nil =>
      rw [List.reverse_nil, List.nil_append] at hend
      simp [cutWhere, hend]
  | cons c body ih =>
      have hgo : (c == '>' && isEnd passed) = false := by
        by_cases hc : c = '>'
        · subst hc
          simpa using hskip [] body rfl
        · simp [hc]
      rw [List.cons_append, cutWhere, hgo, if_neg (by decide), ih]
      · simp
      · intro front back hbody
        have := hskip (c :: front) back (by rw [hbody]; rfl)
        simpa using this
      · simpa using hend

theorem closed_append {reading : Section} {make : List Char → Event}
    {isEnd : List Char → Bool} {body passed : List Char}
    (hskip : ∀ front back, body = front ++ '>' :: back → isEnd (front.reverse ++ passed) = false)
    (hend : isEnd (body.reverse ++ passed) = true) (rest : List Char) :
    closed reading make isEnd passed (body ++ '>' :: rest) =
      (make (passed.reverse ++ body), rest) := by
  rw [closed, cutWhere_append hskip hend]

/-- What begins like a name is an element. -/
theorem readMarkup_of_isNameChar {c : Char} (hc : isNameChar c = true) (text : List Char) :
    readMarkup (c :: text) = closed .element tagEvent endsTag [] (c :: text) := by
  have hbang := ne_of_isNameChar hc (d := '!') (by decide)
  have hslash := ne_of_isNameChar hc (d := '/') (by decide)
  have hmark := ne_of_isNameChar hc (d := '?') (by decide)
  unfold readMarkup
  split
  · contradiction
  · simp_all
  · simp_all
  · simp_all
  · rfl

theorem exists_renderTag_eq_cons {name : String} (h : IsName name)
    (attributes : List (String × String)) :
    ∃ c rest, renderTag name attributes = c :: rest ∧ isNameChar c = true := by
  obtain ⟨c, rest, hname, hc⟩ := h.exists_cons
  exact ⟨c, rest ++ attributes.flatMap renderAttribute, by rw [renderTag, hname]; rfl, hc⟩

/-- The last character of a tag belongs to a name or is a quote. -/
theorem getLast?_renderTag {name : String} {attributes : List (String × String)}
    (h : IsName name) : ((renderTag name attributes).getLast? == some '/') = false := by
  rcases List.eq_nil_or_concat attributes with rfl | ⟨front, pair, rfl⟩
  · obtain ⟨c, rest, hname, -⟩ := h.exists_cons
    rw [renderTag, List.flatMap_nil, List.append_nil]
    have hlast : name.toList.getLast? = some (name.toList.getLast h.1) :=
      List.getLast?_eq_some_getLast h.1
    have hne := ne_of_isNameChar (h.isNameChar_of_mem (List.getLast_mem h.1)) (d := '/')
      (by decide)
    rw [hlast]
    simpa using hne
  · have hquote : renderTag name (front.concat pair) =
        name.toList ++ front.flatMap renderAttribute ++
          (' ' :: pair.1.toList ++ ['=', '"'] ++ escape pair.2.toList) ++ ['"'] := by
      simp [renderTag, renderAttribute]
    rw [hquote, List.getLast?_concat]
    rfl

theorem readMarkup_renderTag {name : String} {attributes : List (String × String)}
    (h : IsTag name attributes) (last : List Char) (hbracket : '>' ∉ last)
    (hlast : last.foldl quoteAfter none = none) (rest : List Char) :
    readMarkup (renderTag name attributes ++ last ++ '>' :: rest) =
      (tagEvent (renderTag name attributes ++ last), rest) := by
  obtain ⟨c, tail, htag, hc⟩ := exists_renderTag_eq_cons h.name attributes
  have hread : readMarkup (renderTag name attributes ++ last ++ '>' :: rest) =
      closed .element tagEvent endsTag []
        (renderTag name attributes ++ last ++ '>' :: rest) := by
    rw [htag]
    exact readMarkup_of_isNameChar hc _
  rw [hread, closed_append]
  · rfl
  · -- There is no bracket in front of the one that ends the tag.
    intro front back hbody
    have hmem : '>' ∈ renderTag name attributes ++ last := by rw [hbody]; simp
    rcases List.mem_append.mp hmem with htag | hafter
    · exact absurd htag (not_mem_renderTag h)
    · exact absurd hafter hbracket
  · rw [List.append_nil, endsTag, List.reverse_reverse, List.foldl_append,
      foldl_quoteAfter_renderTag h, hlast]
    rfl

/-- A written start tag is cut out. -/
theorem readMarkup_start {name : String} {attributes : List (String × String)}
    (h : IsTag name attributes) (rest : List Char) :
    readMarkup (renderTag name attributes ++ '>' :: rest) =
      (.start (renderTag name attributes), rest) := by
  have hread := readMarkup_renderTag h [] List.not_mem_nil rfl rest
  rw [List.append_nil] at hread
  rw [hread, tagEvent, getLast?_renderTag h.name]
  rfl

/-- A written tag of an empty element is cut out. -/
theorem readMarkup_empty {name : String} {attributes : List (String × String)}
    (h : IsTag name attributes) (rest : List Char) :
    readMarkup (renderTag name attributes ++ '/' :: '>' :: rest) =
      (.empty (renderTag name attributes), rest) := by
  have hread := readMarkup_renderTag h ['/'] (by decide) rfl rest
  rw [List.append_assoc, List.singleton_append] at hread
  rw [hread, tagEvent, List.getLast?_concat, List.dropLast_concat]
  rfl

/-! ## Name and attributes of a tag -/

theorem takeWhile_name {name : String} (h : IsName name) (attributes : List (String × String)) :
    (renderTag name attributes).takeWhile (fun c => !isSpace c) = name.toList ∧
      (renderTag name attributes).dropWhile (fun c => !isSpace c) =
        attributes.flatMap renderAttribute := by
  have hname : ∀ c ∈ name.toList, (!isSpace c) = true := by
    intro c hc
    rw [isSpace_of_isNameChar (h.isNameChar_of_mem hc)]
    rfl
  rw [renderTag, List.takeWhile_append_of_pos hname, List.dropWhile_append_of_pos hname]
  cases attributes with
  | nil => exact ⟨List.append_nil _, rfl⟩
  | cons pair rest => exact ⟨List.append_nil _, rfl⟩

/-- The name of a written tag. -/
theorem tagName_renderTag {name : String} (h : IsName name)
    (attributes : List (String × String)) :
    tagName (renderTag name attributes) = name.toList :=
  (takeWhile_name h attributes).1

/-- An attribute that was read. -/
def Attribute.ofPair (pair : String × String) : Attribute :=
  ⟨pair.1.toList, pair.2.toList⟩

theorem cutKey_name {name : String} (h : IsName name) (rest : List Char) :
    cutKey (name.toList ++ '=' :: rest) = (name.toList, '=' :: rest) := by
  obtain ⟨c, tail, hname, -⟩ := h.exists_cons
  have htail : ∀ d ∈ tail, (d != '=' && !isSpace d) = true := by
    intro d hd
    have hchar := h.isNameChar_of_mem (hname ▸ List.mem_cons_of_mem c hd)
    have hne := ne_of_isNameChar hchar (d := '=') (by decide)
    simp [hne, isSpace_of_isNameChar hchar]
  rw [hname, List.cons_append, cutKey, List.takeWhile_append_of_pos htail,
    List.dropWhile_append_of_pos htail]
  simp

theorem cutValue_escape (size : Nat) (value rest : List Char) :
    cutValue size ('"' :: (escape value ++ '"' :: rest)) = .ok (escape value, rest) := by
  have hplain : ∀ c ∈ escape value, (c != '"') = true := by
    intro c hc
    simpa using (plain_of_mem_escape hc).2.2
  have hskip : ('"' :: (escape value ++ '"' :: rest)).dropWhile isSpace =
      '"' :: (escape value ++ '"' :: rest) := rfl
  rw [cutValue, hskip]
  simp [List.takeWhile_append_of_pos hplain, List.dropWhile_append_of_pos hplain]

/-- One attribute that is read without a fault. -/
theorem attributesFrom_step {size : Nat} {seen : List (List Char × Nat)} {text : List Char}
    {c : Char} {rest key afterKey after raw value afterValue : List Char}
    (hskip : text.dropWhile isSpace = c :: rest)
    (hkey : cutKey (c :: rest) = (key, afterKey))
    (hequals : afterEquals size afterKey = .ok after) (hseen : seen.lookup key = none)
    (hvalue : cutValue size after = .ok (raw, afterValue)) (hraw : unescape raw = .ok value) :
    ∃ position, attributesFrom size seen text =
      (⟨localName key, value⟩ :: ·) <$>
        attributesFrom size (seen ++ [(key, position)]) afterValue := by
  refine ⟨size - Text.byteLength (c :: rest), ?_⟩
  obtain rfl : (cutKey (c :: rest)).1 = key := by rw [hkey]
  obtain rfl : (cutKey (c :: rest)).2 = afterKey := by rw [hkey]
  conv => lhs; unfold attributesFrom
  -- The outcome of every stage is given, so each split leaves one branch open.
  split
  · rename_i hnil
    rw [hskip] at hnil
    cases hnil
  · rename_i d tail hcons
    obtain ⟨rfl, rfl⟩ := List.cons.inj (hskip.symm.trans hcons)
    split
    · rename_i hfault
      rw [hequals] at hfault
      cases hfault
    · rename_i found hfound
      obtain rfl := Except.ok.inj (hequals.symm.trans hfound)
      dsimp only
      rw [hseen]
      dsimp only
      split
      · rename_i hfault
        rw [hvalue] at hfault
        cases hfault
      · rename_i cut remaining hcut
        obtain ⟨rfl, rfl⟩ := Prod.mk.inj (Except.ok.inj (hvalue.symm.trans hcut))
        rw [hraw]
        rfl

/-- The keys that were seen before only matter if they come again. -/
theorem attributesFrom_flatMap (size : Nat) {attributes : List (String × String)}
    (hkeys : ∀ pair ∈ attributes, IsName pair.1)
    (hdistinct : (attributes.map Prod.fst).Nodup) {seen : List (List Char × Nat)}
    (hseen : ∀ pair ∈ attributes, seen.lookup pair.1.toList = none) :
    attributesFrom size seen (attributes.flatMap renderAttribute) =
      .ok (attributes.map Attribute.ofPair) := by
  induction attributes generalizing seen with
  | nil =>
      unfold attributesFrom
      rfl
  | cons pair attributes ih =>
      have hkey := hkeys pair List.mem_cons_self
      obtain ⟨c, tail, hname, hc⟩ := hkey.exists_cons
      have hskip : ((pair :: attributes).flatMap renderAttribute).dropWhile isSpace =
          c :: (tail ++ '=' :: '"' :: (escape pair.2.toList ++ '"' ::
            attributes.flatMap renderAttribute)) := by
        have hspace : (pair :: attributes).flatMap renderAttribute =
            ' ' :: c :: (tail ++ '=' :: '"' :: (escape pair.2.toList ++ '"' ::
              attributes.flatMap renderAttribute)) := by
          simp [renderAttribute, hname]
        rw [hspace, List.dropWhile_cons_of_pos (by decide),
          List.dropWhile_cons_of_neg (by simp [isSpace_of_isNameChar hc])]
      have hcut := cutKey_name hkey ('"' :: (escape pair.2.toList ++ '"' ::
        attributes.flatMap renderAttribute))
      rw [hname, List.cons_append, ← hname] at hcut
      obtain ⟨position, hstep⟩ := attributesFrom_step hskip hcut rfl
        (hseen pair List.mem_cons_self) (cutValue_escape size pair.2.toList _)
        (unescape_escape _)
      rw [List.map_cons, List.nodup_cons] at hdistinct
      -- The key joins those that were seen, and does not come again.
      have hnext : ∀ other ∈ attributes,
          (seen ++ [(pair.1.toList, position)]).lookup other.1.toList = none := by
        intro other hother
        have hne : other.1.toList ≠ pair.1.toList := by
          intro heq
          exact hdistinct.1 (String.toList_inj.mp heq ▸ List.mem_map_of_mem hother)
        have hbeq : (other.1.toList == pair.1.toList) = false := beq_false_of_ne hne
        rw [List.lookup_append, hseen other (List.mem_cons_of_mem _ hother)]
        simp only [List.lookup_cons, List.lookup_nil, hbeq, Option.none_or]
      rw [hstep, ih (fun other hother => hkeys other (List.mem_cons_of_mem _ hother))
        hdistinct.2 hnext, hkey.localName]
      rfl

/-- The attributes of a written tag. -/
theorem attributes_renderTag {name : String} {attributes : List (String × String)}
    (h : IsTag name attributes) :
    Markup.attributes (renderTag name attributes) = .ok (attributes.map Attribute.ofPair) := by
  rw [Markup.attributes, (takeWhile_name h.name attributes).2]
  exact attributesFrom_flatMap _ h.keys h.distinct fun _ _ => rfl

end PlcTags.Markup
