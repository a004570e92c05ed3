import PlcTags.Markup.Element
import PlcTags.Proofs.Markup.Tag

/-!
# Written documents are read back

A document that was written from a tree of nodes is read into the tree of
elements that the nodes stand for: `parse_renderDocument`.

`Reads` says what one stretch of text does: it leads from one progress to another
and leaves the rest of the text, wherever in the document the stretch begins.
These steps are composed (`Reads.trans`), first to the parts of an element and
then, along the tree, to elements and lists of them (`reads_bare`,
`reads_nodes`).  The line of an element begins in front of it (`reads_line`).

An element that has others in it gets the beginnings of their lines as its text.
This is the only trace of the indentation; the text of an element without
children is what was written.
-/

namespace PlcTags.Markup

/-! ## What nodes stand for -/

def Content.text : Content → String
  | .escaped text => text
  | .cdata text => text

/-- The beginnings of the lines of nodes side by side. -/
def lineStarts (depth : Nat) (nodes : List Node) : List Char :=
  nodes.flatMap fun _ => newLine depth

mutual

/-- The element of a node inside `depth` elements. -/
def Node.element (depth : Nat) : Node → Element
  | .empty name attributes => ⟨name, attributes, [], ""⟩
  | .leaf name attributes content => ⟨name, attributes, [], content.text⟩
  | .branch name attributes children =>
    ⟨name, attributes, Node.elements (depth + 1) children,
      String.ofList (lineStarts (depth + 1) children ++ newLine depth)⟩

/-- The elements of nodes side by side. -/
def Node.elements (depth : Nat) : List Node → List Element
  | [] => []
  | node :: nodes => node.element depth :: Node.elements depth nodes

end

mutual

/-- Whether all tags of a node can be read back. -/
def Node.IsWritable : Node → Prop
  | .empty name attributes => IsTag name attributes
  | .leaf name attributes _ => IsTag name attributes
  | .branch name attributes children => IsTag name attributes ∧ Node.AllWritable children

/-- The same for nodes side by side. -/
def Node.AllWritable : List Node → Prop
  | [] => True
  | node :: nodes => node.IsWritable ∧ Node.AllWritable nodes

end

theorem elements_eq_map (depth : Nat) (nodes : List Node) :
    Node.elements depth nodes = nodes.map (Node.element depth) := by
  induction nodes with
  | nil => rfl
  | cons node nodes ih => rw [Node.elements, ih, List.map_cons]

theorem allWritable_iff (nodes : List Node) :
    Node.AllWritable nodes ↔ ∀ node ∈ nodes, node.IsWritable := by
  induction nodes with
  | nil => simp [Node.AllWritable]
  | cons node nodes ih => simp [Node.AllWritable, ih]

/-! ## Progress -/

namespace Progress

/-- An element can be put in its place: inside of another, or as the root. -/
def Accepts (progress : Progress) : Prop :=
  progress.stack ≠ [] ∨ progress.root = none

/-- The progress with an element in its place. -/
def attached (progress : Progress) (element : Element) : Progress :=
  match progress.stack with
  | frame :: stack =>
    { progress with stack := { frame with children := element :: frame.children } :: stack }
  | [] => { progress with root := some element }

theorem attach_of_accepts {progress : Progress} (h : progress.Accepts) (offset : Nat)
    (element : Element) : progress.attach offset element = .ok (progress.attached element) := by
  obtain ⟨stack, root⟩ := progress
  cases stack with
  | cons frame stack => rfl
  | nil =>
      have hroot : root = none := h.resolve_left fun hne => hne rfl
      subst hroot
      rfl

theorem addText_nil (progress : Progress) : progress.addText [] = progress := by
  obtain ⟨stack, root⟩ := progress
  cases stack with
  | nil => rfl
  | cons frame stack => simp [addText]

theorem Accepts.addText {progress : Progress} (h : progress.Accepts) (text : List Char) :
    (progress.addText text).Accepts := by
  obtain ⟨stack, root⟩ := progress
  cases stack with
  | nil => exact h
  | cons frame stack => exact .inl (List.cons_ne_nil _ _)

end Progress

/-! ## Stretches of text -/

/-- From `before`, the text is read up to `rest`, and that leads to `after`. -/
def Reads (before : Progress) (text : List Char) (after : Progress) (rest : List Char) : Prop :=
  ∀ offset, ∃ next, walk before (eventsFrom offset text) = walk after (eventsFrom next rest)

theorem Reads.trans {first second third : Progress} {text rest last : List Char}
    (h : Reads first text second rest) (h' : Reads second rest third last) :
    Reads first text third last := by
  intro offset
  obtain ⟨middle, hfirst⟩ := h offset
  obtain ⟨next, hsecond⟩ := h' middle
  exact ⟨next, hfirst.trans hsecond⟩

/-- One event. -/
theorem Reads.of_event {before after : Progress} {c : Char} {text rest : List Char}
    {event : Event} (hread : readEvent c text = (event, rest))
    (hstep : ∀ offset, before.step ⟨offset, event⟩ = .ok after) :
    Reads before (c :: text) after rest := by
  intro offset
  refine ⟨offset + (Text.byteLength (c :: text) - Text.byteLength rest), ?_⟩
  rw [eventsFrom, walk]
  simp only [hread, hstep]

/-- What stands behind an opening bracket. -/
theorem Reads.of_markup {before after : Progress} {text rest : List Char} {event : Event}
    (hread : readMarkup text = (event, rest))
    (hstep : ∀ offset, before.step ⟨offset, event⟩ = .ok after) :
    Reads before ('<' :: text) after rest :=
  .of_event (by rw [readEvent, if_pos rfl, hread]) hstep

/-- An escaped text up to the next tag. -/
theorem reads_escape (progress : Progress) (text rest : List Char) :
    Reads progress (escape text ++ '<' :: rest) (progress.addText text) ('<' :: rest) := by
  cases hescape : escape text with
  | nil =>
      -- Without a character there is no event, so nothing must be lost.
      have htext : text = [] := by
        have hback := unescape_escape text
        rw [hescape] at hback
        have hnil : unescape [] = .ok [] := unescape_escape []
        exact Except.ok.inj (hback.symm.trans hnil)
      rw [htext, Progress.addText_nil]
      exact fun offset => ⟨offset, rfl⟩
  | cons c tail =>
      have hplain : ∀ d ∈ c :: tail, (d != '<') = true := by
        intro d hd
        simpa using (plain_of_mem_escape (hescape ▸ hd)).1
      have hc : c ≠ '<' := by simpa using hplain c List.mem_cons_self
      have htail : ∀ d ∈ tail, (d != '<') = true := fun d hd =>
        hplain d (List.mem_cons_of_mem _ hd)
      have hread : readEvent c (tail ++ '<' :: rest) = (.text (c :: tail), '<' :: rest) := by
        rw [readEvent, if_neg hc, List.takeWhile_append_of_pos htail,
          List.dropWhile_append_of_pos htail]
        simp
      rw [List.cons_append]
      refine .of_event hread ?_
      intro offset
      obtain ⟨stack, root⟩ := progress
      cases stack with
      | nil => rfl
      | cons frame stack =>
          have hstep : (unescape (c :: tail)).mapError (Error.fault offset) = .ok text := by
            rw [← hescape, unescape_escape]
            rfl
          simp only [Progress.step]
          rw [hstep]
          rfl

theorem escape_newLine (depth : Nat) : escape (newLine depth) = newLine depth := by
  have hspaces : ∀ n, escape (List.replicate n ' ') = List.replicate n ' ' := by
    intro n
    induction n with
    | zero => rfl
    | succ n ih =>
        have hcons : escape (' ' :: List.replicate n ' ') = ' ' :: escape (List.replicate n ' ') :=
          rfl
        rw [List.replicate_succ, hcons, ih]
  have hcons : escape (newLine depth) = '\n' :: escape (List.replicate (2 * depth) ' ') := rfl
  rw [hcons, hspaces]
  rfl

theorem reads_newLine (progress : Progress) (depth : Nat) (rest : List Char) :
    Reads progress (newLine depth ++ '<' :: rest) (progress.addText (newLine depth))
      ('<' :: rest) := by
  have h := reads_escape progress (newLine depth) rest
  rwa [escape_newLine] at h

/-! ## CDATA sections -/

theorem endsSection_append (front back : List Char) :
    endsSection (front ++ ']' :: ']' :: '>' :: back) = true := by
  induction front with
  | nil => rfl
  | cons c front ih =>
      rw [List.cons_append]
      unfold endsSection
      split
      · rfl
      · rename_i heq
        obtain ⟨-, rfl⟩ := List.cons.inj heq
        exact ih
      · rename_i heq
        cases heq

/-- Brackets at the end of a text do not end a section. -/
theorem endsSection_brackets {text : List Char} (h : endsSection text = false) :
    endsSection (text ++ [']', ']']) = false := by
  induction text with
  | nil => rfl
  | cons c text ih =>
      have htail : endsSection text = false := by
        unfold endsSection at h
        split at h
        · cases h
        · rename_i heq
          obtain ⟨-, rfl⟩ := List.cons.inj heq
          exact h
        · rename_i heq
          cases heq
      rw [List.cons_append]
      unfold endsSection
      split
      · -- The end of a section would lie in the text itself.
        rename_i after heq
        match text with
        | [] => simp at heq
        | [d] => simp at heq
        | d :: e :: text =>
            simp only [List.cons_append, List.cons.injEq] at heq
            obtain ⟨rfl, rfl, rfl, -⟩ := heq
            cases h
      · rename_i heq
        obtain ⟨-, rfl⟩ := List.cons.inj heq
        exact ih htail
      · rename_i heq
        cases heq

theorem readMarkup_cdata {text : List Char} (h : endsSection text = false) (rest : List Char) :
    readMarkup ('!' :: '[' :: ("CDATA[".toList ++ (text ++ [']', ']']) ++ '>' :: rest)) =
      (.cdata text, rest) := by
  have hsection : endsSection ("CDATA[".toList ++ (text ++ [']', ']'])) = false :=
    endsSection_brackets h
  show closed .cdata cdataEvent endsCdata ['[', '!'] _ = _
  rw [closed_append]
  · have hword : afterWord? "![CDATA[".toList
        ("![CDATA[".toList ++ (text ++ [']', ']'])) = some (text ++ [']', ']']) := by
      rw [afterWord?, List.take_left, List.drop_left]
      rfl
    have hevent : cdataEvent ("![CDATA[".toList ++ (text ++ [']', ']'])) = .cdata text := by
      rw [cdataEvent, hword]
      simp
    exact congrArg (·, rest) hevent
  · intro front back hbody
    cases hend : endsCdata (front.reverse ++ ['[', '!']) with
    | false => rfl
    | true =>
        -- Two brackets in front of the closing one would end the section.
        exfalso
        obtain ⟨tail, htail⟩ := List.isPrefixOf_iff_prefix.mp hend
        match hfront : front.reverse with
        | [] => simp [hfront] at htail
        | [c] => simp [hfront] at htail
        | c :: d :: others =>
            simp only [hfront, List.cons_append, List.cons.injEq] at htail
            obtain ⟨rfl, rfl, -⟩ := htail
            have hsplit : front = others.reverse ++ [']', ']'] := by
              rw [← List.reverse_reverse front, hfront]
              simp
            have hbreak := endsSection_append others.reverse back
            rw [hbody, hsplit, List.append_assoc] at hsection
            rw [List.cons_append, List.singleton_append, hbreak] at hsection
            cases hsection
  · simp [endsCdata]

/-- The text of an element, whether escaped or in a section. -/
theorem reads_content (progress : Progress) (content : Content) (rest : List Char) :
    Reads progress (content.render ++ '<' :: rest)
      (progress.addText content.text.toList) ('<' :: rest) := by
  cases content with
  | escaped text => exact reads_escape progress text.toList rest
  | cdata text =>
      rw [Content.render]
      cases hsection : endsSection text.toList with
      | true => exact reads_escape progress text.toList rest
      | false =>
          have htext : "<![CDATA[".toList ++ text.toList ++ "]]>".toList ++ '<' :: rest =
              '<' :: '!' :: '[' :: ("CDATA[".toList ++ (text.toList ++ [']', ']']) ++
                '>' :: '<' :: rest) := by
            simp
          rw [if_neg (by decide), htext]
          exact .of_markup (readMarkup_cdata hsection _) fun _ => rfl

/-! ## Parts of an element -/

/-- The frame of an open element with some children and some text. -/
def Frame.filled (name : String) (attributes : List (String × String)) (children : List Element)
    (text : List Char) : Frame :=
  ⟨name.toList, attributes.map Attribute.ofPair, children.reverse, text⟩

/-- An element has the name and the attributes of the tag that opened it. -/
theorem toElement_filled {name : String} (h : IsName name)
    (attributes : List (String × String)) (children : List Element) (text : List Char) :
    (Frame.filled name attributes children text).toElement =
      ⟨name, attributes, children, String.ofList text⟩ := by
  have hpairs : (attributes.map Attribute.ofPair).map
      (fun pair => (String.ofList pair.key, String.ofList pair.value)) = attributes := by
    rw [List.map_map]
    exact List.map_id'' (fun pair => by simp [Attribute.ofPair]) attributes
  have hname : String.ofList (localName name.toList) = name := by
    rw [h.localName, String.ofList_toList]
  unfold Frame.toElement Frame.name Frame.filled
  rw [hpairs, hname, List.reverse_reverse]

theorem ofTag_renderTag {name : String} {attributes : List (String × String)}
    (h : IsTag name attributes) :
    Frame.ofTag (renderTag name attributes) = .ok (.filled name attributes [] []) := by
  rw [Frame.ofTag, attributes_renderTag h, tagName_renderTag h.name]
  rfl

namespace Progress

/-- The progress inside of one more element. -/
def push (progress : Progress) (frame : Frame) : Progress :=
  { progress with stack := frame :: progress.stack }

theorem addText_push (progress : Progress) (name : String) (attributes : List (String × String))
    (children : List Element) (text more : List Char) :
    (progress.push (.filled name attributes children text)).addText more =
      progress.push (.filled name attributes children (text ++ more)) := rfl

theorem attached_push (progress : Progress) (name : String)
    (attributes : List (String × String)) (children : List Element) (text : List Char)
    (element : Element) :
    (progress.push (.filled name attributes children text)).attached element =
      progress.push (.filled name attributes (children ++ [element]) text) := by
  simp [push, attached, Frame.filled]

theorem accepts_push (progress : Progress) (frame : Frame) : (progress.push frame).Accepts :=
  .inl (List.cons_ne_nil _ _)

end Progress

theorem reads_start {name : String} {attributes : List (String × String)}
    (h : IsTag name attributes) (progress : Progress) (rest : List Char) :
    Reads progress ('<' :: (renderTag name attributes ++ '>' :: rest))
      (progress.push (.filled name attributes [] [])) rest := by
  refine .of_markup (readMarkup_start h rest) ?_
  intro offset
  simp only [Progress.step]
  rw [ofTag_renderTag h]
  rfl

theorem reads_empty {name : String} {attributes : List (String × String)}
    (h : IsTag name attributes) {progress : Progress} (haccepts : progress.Accepts)
    (rest : List Char) :
    Reads progress ('<' :: (renderTag name attributes ++ '/' :: '>' :: rest))
      (progress.attached ⟨name, attributes, [], ""⟩) rest := by
  refine .of_markup (readMarkup_empty h rest) ?_
  intro offset
  simp only [Progress.step]
  rw [ofTag_renderTag h]
  show progress.attach offset (Frame.filled name attributes [] []).toElement = _
  rw [Progress.attach_of_accepts haccepts, toElement_filled h.name]

theorem endName_of_isName {name : String} (h : IsName name) :
    Progress.endName name.toList = name.toList := by
  obtain ⟨c, rest, hname, hc⟩ := h.exists_cons
  have hall : name.toList.all isSpace = false := by
    simp [hname, isSpace_of_isNameChar hc]
  -- Closing tags may have blanks behind the name, which are dropped; a name has none.
  have hlast : name.toList.reverse.dropWhile isSpace = name.toList.reverse := by
    cases hreverse : name.toList.reverse with
    | nil => rfl
    | cons d front =>
        have hd : d ∈ name.toList := by
          rw [← List.mem_reverse, hreverse]
          exact List.mem_cons_self
        simp [isSpace_of_isNameChar (h.isNameChar_of_mem hd)]
  rw [Progress.endName, hall, if_neg (by decide), hlast, List.reverse_reverse]

theorem readMarkup_close {name : String} (h : IsName name) (rest : List Char) :
    readMarkup ('/' :: (name.toList ++ '>' :: rest)) = (.close name.toList, rest) := by
  have hname : ∀ c ∈ name.toList, (c != '>') = true := by
    intro c hc
    simpa using ne_of_isNameChar (h.isNameChar_of_mem hc) (d := '>') (by decide)
  have hcut : upToBracket (name.toList ++ '>' :: rest) = (name.toList, rest) := by
    rw [upToBracket, List.takeWhile_append_of_pos hname, List.dropWhile_append_of_pos hname]
    simp
  rw [readMarkup, hcut]

theorem reads_close {name : String} (h : IsName name) (attributes : List (String × String))
    (children : List Element) (text : List Char) {progress : Progress}
    (haccepts : progress.Accepts) (rest : List Char) :
    Reads (progress.push (.filled name attributes children text))
      ('<' :: '/' :: (name.toList ++ '>' :: rest))
      (progress.attached ⟨name, attributes, children, String.ofList text⟩) rest := by
  refine .of_markup (readMarkup_close h rest) ?_
  intro offset
  show Progress.close (progress.push _) offset name.toList = _
  simp only [Progress.close, Progress.push]
  rw [endName_of_isName h, toElement_filled h]
  exact (if_pos rfl).trans (Progress.attach_of_accepts haccepts _ _)

/-! ## Elements -/

/-- A node without the beginning of its line. -/
def Node.bare (depth : Nat) (node : Node) : List Char :=
  (node.render depth).drop (newLine depth).length

theorem Node.bare_empty (depth : Nat) (name : String) (attributes : List (String × String)) :
    (Node.empty name attributes).bare depth =
      '<' :: (renderTag name attributes ++ ['/', '>']) := by
  simp [Node.bare, Node.render]

theorem Node.bare_leaf (depth : Nat) (name : String) (attributes : List (String × String))
    (content : Content) :
    (Node.leaf name attributes content).bare depth =
      '<' :: (renderTag name attributes ++ '>' :: (content.render ++
        '<' :: '/' :: (name.toList ++ ['>']))) := by
  simp [Node.bare, Node.render]

theorem Node.bare_branch (depth : Nat) (name : String) (attributes : List (String × String))
    (children : List Node) :
    (Node.branch name attributes children).bare depth =
      '<' :: (renderTag name attributes ++ '>' :: (Node.renderAll (depth + 1) children ++
        (newLine depth ++ '<' :: '/' :: (name.toList ++ ['>'])))) := by
  simp [Node.bare, Node.render]

theorem Node.render_eq (depth : Nat) (node : Node) :
    node.render depth = newLine depth ++ node.bare depth := by
  cases node with
  | empty name attributes => simp [Node.bare_empty, Node.render]
  | leaf name attributes content => simp [Node.bare_leaf, Node.render]
  | branch name attributes children => simp [Node.bare_branch, Node.render]

/-- Every node begins with a bracket. -/
theorem Node.exists_bare_eq_cons (depth : Nat) (node : Node) :
    ∃ rest, node.bare depth = '<' :: rest := by
  cases node with
  | empty name attributes => exact ⟨_, Node.bare_empty depth name attributes⟩
  | leaf name attributes content => exact ⟨_, Node.bare_leaf depth name attributes content⟩
  | branch name attributes children =>
      exact ⟨_, Node.bare_branch depth name attributes children⟩

/-- The line of a node begins. -/
theorem reads_line (progress : Progress) (node : Node) (depth : Nat) (rest : List Char) :
    Reads progress (node.render depth ++ rest) (progress.addText (newLine depth))
      (node.bare depth ++ rest) := by
  obtain ⟨tail, htail⟩ := node.exists_bare_eq_cons depth
  rw [node.render_eq, List.append_assoc, htail]
  exact reads_newLine progress depth _

mutual

/-- An element is put in its place. -/
theorem reads_bare : ∀ (node : Node) (_ : node.IsWritable) (depth : Nat) {progress : Progress}
    (_ : progress.Accepts) (rest : List Char),
    Reads progress (node.bare depth ++ rest) (progress.attached (node.element depth)) rest
  | .empty name attributes, h, depth, progress, haccepts, rest => by
      rw [Node.bare_empty, List.cons_append, List.append_assoc]
      exact reads_empty h haccepts rest
  | .leaf name attributes content, h, depth, progress, haccepts, rest => by
      have hclose := reads_close h.name attributes [] content.text.toList haccepts rest
      rw [String.ofList_toList] at hclose
      rw [Node.bare_leaf]
      simp only [List.cons_append, List.append_assoc, List.nil_append]
      refine (reads_start h _ _).trans ?_
      exact (reads_content _ content _).trans hclose
  | .branch name attributes children, h, depth, progress, haccepts, rest => by
      rw [Node.bare_branch]
      simp only [List.cons_append, List.append_assoc, List.nil_append]
      -- The line of the closing tag adds to the text of the element, like those of the children.
      refine (reads_start h.1 _ _).trans ?_
      refine (reads_nodes children h.2 (depth + 1) name attributes [] [] _ _).trans ?_
      refine (reads_newLine _ depth _).trans ?_
      rw [Progress.addText_push]
      exact reads_close h.1.name _ _ _ haccepts rest

/-- Elements side by side are gathered in the innermost open element. -/
theorem reads_nodes : ∀ (nodes : List Node) (_ : Node.AllWritable nodes) (depth : Nat)
    (name : String) (attributes : List (String × String)) (children : List Element)
    (text : List Char) (progress : Progress) (rest : List Char),
    Reads (progress.push (.filled name attributes children text))
      (Node.renderAll depth nodes ++ rest)
      (progress.push (.filled name attributes (children ++ Node.elements depth nodes)
        (text ++ lineStarts depth nodes))) rest
  | [], _, depth, name, attributes, children, text, progress, rest => by
      have hchildren : children ++ Node.elements depth [] = children := by
        simp [Node.elements]
      have htext : text ++ lineStarts depth [] = text := by
        simp [lineStarts]
      rw [hchildren, htext]
      exact fun offset => ⟨offset, rfl⟩
  | node :: nodes, h, depth, name, attributes, children, text, progress, rest => by
      have hrender : Node.renderAll depth (node :: nodes) ++ rest =
          node.render depth ++ (Node.renderAll depth nodes ++ rest) := by
        simp [Node.renderAll]
      have hchildren : children ++ Node.elements depth (node :: nodes) =
          children ++ [node.element depth] ++ Node.elements depth nodes := by
        simp [Node.elements]
      have htext : text ++ lineStarts depth (node :: nodes) =
          text ++ newLine depth ++ lineStarts depth nodes := by
        simp [lineStarts]
      rw [hrender, hchildren, htext]
      -- First the beginning of the line is read, then the node, and then those behind it.
      refine (reads_line _ node depth _).trans ?_
      rw [Progress.addText_push]
      refine (reads_bare node h.1 depth (Progress.accepts_push _ _) _).trans ?_
      rw [Progress.attached_push]
      exact reads_nodes nodes h.2 depth name attributes _ _ progress rest

end

/-- An element is put in its place, behind the beginning of its line. -/
theorem reads_node (node : Node) (h : node.IsWritable) (depth : Nat) {progress : Progress}
    (haccepts : progress.Accepts) (rest : List Char) :
    Reads progress (node.render depth ++ rest)
      ((progress.addText (newLine depth)).attached (node.element depth)) rest :=
  (reads_line progress node depth rest).trans (reads_bare node h depth (haccepts.addText _) rest)

/-! ## Documents -/

theorem reads_declaration (standalone : Bool) (progress : Progress) (rest : List Char) :
    Reads progress (declaration standalone ++ rest) progress rest := by
  have hdeclaration : ∃ body, declaration standalone = '<' :: '?' :: (body ++ ['>']) ∧
      ('?' :: body).all (· != '>') = true ∧ instructionEvent ('?' :: body) = .skipped := by
    cases standalone with
    | true =>
        exact ⟨"xml version=\"1.0\" encoding=\"UTF-8\" standalone=\"yes\"?".toList, rfl,
          by decide, by decide⟩
    | false =>
        exact ⟨"xml version=\"1.0\" encoding=\"UTF-8\"?".toList, rfl, by decide, by decide⟩
  obtain ⟨body, hbody, hall, hskipped⟩ := hdeclaration
  have hplain := List.all_eq_true.mp hall
  have hcut : upToBracket ('?' :: body ++ '>' :: rest) = ('?' :: body, rest) := by
    rw [upToBracket, List.takeWhile_append_of_pos hplain, List.dropWhile_append_of_pos hplain]
    simp
  have hread : readMarkup ('?' :: (body ++ '>' :: rest)) = (.skipped, rest) := by
    have hinstruction : readMarkup ('?' :: (body ++ '>' :: rest)) =
        (instructionEvent (upToBracket ('?' :: body ++ '>' :: rest)).1,
          (upToBracket ('?' :: body ++ '>' :: rest)).2) := rfl
    rw [hinstruction, hcut, hskipped]
  have htext : declaration standalone ++ rest = '<' :: '?' :: (body ++ '>' :: rest) := by
    rw [hbody]
    simp
  rw [htext]
  exact .of_markup hread fun _ => rfl

theorem exists_declaration_eq_cons (standalone : Bool) :
    ∃ rest, declaration standalone = '<' :: rest := by
  cases standalone with
  | true => exact ⟨_, rfl⟩
  | false => exact ⟨_, rfl⟩

/-- A written document begins with a bracket. -/
theorem exists_renderDocument_eq_cons (standalone : Bool) (root : Node) :
    ∃ rest, renderDocument standalone root = String.ofList ('<' :: rest) := by
  obtain ⟨rest, hrest⟩ := exists_declaration_eq_cons standalone
  exact ⟨rest ++ root.render 0, by rw [renderDocument, hrest]; rfl⟩

/-- A document is what leads to its root and ends there. -/
theorem parse_of_reads {text : List Char} {root : Element}
    (hread : Reads {} ('<' :: text) (Progress.attached {} root) []) :
    parse (String.ofList ('<' :: text)) = .ok root := by
  obtain ⟨next, hwalk⟩ := hread 0
  -- Behind the root the text ends, and no element is open.
  have hend : walk (Progress.attached {} root) (eventsFrom next []) = .ok ⟨[], some root⟩ := by
    rw [eventsFrom]
    rfl
  have hevents : walk {} (events ('<' :: text)) = .ok ⟨[], some root⟩ := hwalk.trans hend
  have hmark : Markup.withoutMarks ('<' :: text) = '<' :: text := rfl
  rw [parse, String.toList_ofList, hmark, hevents]

/-- **Documents are read back.**  A document of a writable tree is read into the tree of
its elements. -/
theorem parse_renderDocument (standalone : Bool) {root : Node} (h : root.IsWritable) :
    parse (renderDocument standalone root) = .ok (root.element 0) := by
  have haccepts : Progress.Accepts {} := .inr rfl
  have hroot := reads_node root h 0 haccepts []
  rw [List.append_nil] at hroot
  have hread := (reads_declaration standalone {} _).trans hroot
  obtain ⟨rest, hrest⟩ := exists_declaration_eq_cons standalone
  rw [hrest, List.cons_append] at hread
  rw [renderDocument, hrest, List.cons_append]
  exact parse_of_reads hread

/-- A root without a declaration in front is a document, too. -/
theorem parse_bare {root : Node} (h : root.IsWritable) :
    parse (String.ofList (root.bare 0)) = .ok (root.element 0) := by
  have haccepts : Progress.Accepts {} := .inr rfl
  have hroot := reads_bare root h 0 haccepts []
  obtain ⟨rest, hbare⟩ := root.exists_bare_eq_cons 0
  rw [List.append_nil, hbare] at hroot
  rw [hbare]
  exact parse_of_reads hroot

end PlcTags.Markup
