import PlcTags.Proofs.Stamp.Text
import PlcTags.Wire.Message

/-!
# Messages are read back

A message that is written as JSON is one object which names its kind under `type`, once,
and reading this object gives the message back (`messages_readBack`).  The object has a
field for whatever the reader asks for and no other (`fields?_object`), so it remains to
read each field: words, numbers of 64 bits, identifiers, instants, and lists of tags and of
diagnostics.
-/

namespace PlcTags

/-! ## Fields -/

namespace Json

variable {α : Type}

/-- An object that names its kind under `type`, and has no other field of this name. -/
def NamesKind (json : Json) : Prop :=
  ∃ kind members, json = .object (("type", .string kind) :: members) ∧
    ∀ member ∈ members, member.1 ≠ "type"

theorem namesKind_ofVariant (kind : String) {members : List (String × Json)}
    (h : ∀ member ∈ members, member.1 ≠ "type") : (ofVariant kind members).NamesKind :=
  ⟨kind, members, rfl, h⟩

/-- What was put under a kind is found there. -/
theorem variant?_ofVariant (kind : String) {members : List (String × Json)}
    (h : ∀ member ∈ members, member.1 ≠ "type") :
    (ofVariant kind members).variant? = some (kind, .object members) := by
  have hnone : members.filter (·.1 == "type") = [] :=
    List.filter_eq_nil_iff.mpr fun member hmember => by simpa using h member hmember
  have hall : members.filter (·.1 != "type") = members :=
    List.filter_eq_self.mpr fun member hmember => bne_iff_ne.mpr (h member hmember)
  rw [ofVariant, variant?, List.filter_cons_of_pos (by simp), hnone]
  simp [hall]

theorem distinctNames_of_nodup {members : List (String × Json)}
    (h : (members.map (·.1)).Nodup) : distinctNames members = true := by
  induction members with
  | nil => rfl
  | cons member rest ih =>
      obtain ⟨hfirst, hrest⟩ := List.nodup_cons.mp h
      have hnone : rest.any (·.1 == member.1) = false := by
        refine List.any_eq_false.mpr fun other hother heq => hfirst ?_
        exact List.mem_map.mpr ⟨other, hother, beq_iff_eq.mp heq⟩
      rw [distinctNames, hnone, ih hrest]
      rfl

/-- An object that has known fields only, each once, has these fields. -/
theorem fields?_object {names : List String} {members : List (String × Json)}
    (hknown : ∀ member ∈ members, member.1 ∈ names) (hdistinct : (members.map (·.1)).Nodup) :
    (object members).fields? names = some ⟨members, false⟩ := by
  rw [fields?, List.filter_eq_self.mpr, if_pos (distinctNames_of_nodup hdistinct)]
  intro member hmember
  simpa using hknown member hmember

theorem list?_map {read : Json → Option α} {write : α → Json} {items : List α}
    (h : ∀ item ∈ items, read (write item) = some item) :
    list? read (.array (items.map write)) = some items := by
  show (items.map write).mapM read = some items
  induction items with
  | nil => rfl
  | cons item rest ih =>
      obtain ⟨hitem, hrest⟩ := List.forall_mem_cons.mp h
      rw [List.map_cons, List.mapM_cons, hitem, ih hrest]
      rfl

/-! ## Numbers -/

/-- A signed integer of 64 bits. -/
def IsInt64 (n : Int) : Prop :=
  minInt64 ≤ n ∧ n ≤ maxInt64

instance (n : Int) : Decidable (IsInt64 n) :=
  inferInstanceAs (Decidable (_ ∧ _))

/-- An unsigned integer of 64 bits. -/
def IsNat64 (n : Nat) : Prop :=
  (n : Int) ≤ maxNat64

instance (n : Nat) : Decidable (IsNat64 n) :=
  inferInstanceAs (Decidable (_ ≤ _))

theorem int64?_int {n : Int} (h : IsInt64 n) : int64? (.int n) = some n :=
  if_pos h

theorem nat64?_int {n : Nat} (h : IsNat64 n) : nat64? (.int n) = some n := by
  have hread : int? 0 maxNat64 (.int n) = some (n : Int) := if_pos ⟨Int.natCast_nonneg n, h⟩
  rw [nat64?, hread]
  rfl

theorem isInt64_of_int64? {json : Json} {n : Int} (h : int64? json = some n) : IsInt64 n := by
  unfold int64? int? at h
  split at h
  · split at h
    · rename_i hrange
      exact Option.some.inj h ▸ hrange
    · cases h
  · cases h

theorem isNat64_of_nat64? {json : Json} {n : Nat} (h : nat64? json = some n) : IsNat64 n := by
  obtain ⟨value, hvalue, rfl⟩ := Option.map_eq_some_iff.mp h
  unfold int? at hvalue
  split at hvalue
  · split at hvalue
    · rename_i hrange
      obtain rfl := Option.some.inj hvalue
      show ((Int.toNat _ : Nat) : Int) ≤ maxNat64
      rw [Int.toNat_of_nonneg hrange.1]
      exact hrange.2
    · cases hvalue
  · cases hvalue

end Json

/-! ## Words -/

theorem vocabulary?_vendor (vendor : Vendor) :
    Json.vocabulary? Vendor.ofWord? (.string vendor.word) = some vendor := by
  cases vendor <;> decide

theorem vocabulary?_dataType (dataType : DataType) :
    Json.vocabulary? DataType.ofWord? (.string dataType.word) = some dataType := by
  cases dataType <;> decide

theorem vocabulary?_scope (scope : Scope) :
    Json.vocabulary? Scope.ofWord? (.string scope.word) = some scope := by
  cases scope <;> decide

theorem vocabulary?_category (category : Category) :
    Json.vocabulary? Category.ofWord? (.string category.word) = some category := by
  cases category <;> decide

theorem vocabulary?_severity (severity : Severity) :
    Json.vocabulary? Severity.ofWord? (.string severity.word) = some severity := by
  cases severity <;> decide

theorem vocabulary?_code (code : Diagnostic.Code) :
    Json.vocabulary? Diagnostic.Code.ofWord? (.string code.word) = some code := by
  cases code <;> decide

/-! ## Diagnostics -/

namespace Diagnostic

/-- The line is a number of 64 bits. -/
def Fits (diagnostic : Diagnostic) : Prop :=
  ∀ line ∈ diagnostic.line, Json.IsNat64 line

theorem ofJson?_toJson {diagnostic : Diagnostic} (h : diagnostic.Fits) :
    ofJson? diagnostic.toJson = some diagnostic := by
  obtain ⟨severity, code, message, line, tag⟩ := diagnostic
  have hline : ∀ n, line = some n → Json.nat64? (.int n) = some n :=
    fun n hn => Json.nat64?_int (h n hn)
  unfold toJson ofJson?
  -- Each of the two may be there or not.
  rcases line with - | line <;> rcases tag with - | tag <;>
    rw [Json.fields?_object (by simp) (by simp)] <;>
    simp [Json.Fields.required, Json.Fields.optional, Json.Fields.get?, vocabulary?_severity,
      vocabulary?_code, Json.string?, Json.nullable?, hline, List.lookup_cons]

end Diagnostic

/-! ## Stored tags -/

namespace StoredTag

/-- The project is a number of 64 bits. -/
def Fits (stored : StoredTag) : Prop :=
  Json.IsInt64 stored.project

/-- A tag is read from its fields among those of its row. -/
theorem ofFields?_toMembers (tag : Tag) (first second third fourth : Json) :
    Tag.ofFields? ⟨[("id", first), ("projectId", second)] ++ tag.toMembers ++
      [("createdAt", third), ("updatedAt", fourth)], false⟩ = some tag := by
  simp [Tag.ofFields?, Tag.toMembers, Json.Fields.required, Json.Fields.withDefault,
    Json.Fields.get?, List.lookup_cons, vocabulary?_vendor, vocabulary?_dataType,
    vocabulary?_scope, vocabulary?_category, Json.string?, Json.bool?]

theorem ofJson?_toJson {stored : StoredTag} (h : stored.Fits) :
    ofJson? stored.toJson = some stored := by
  have hproject : Json.int64? (.int stored.project) = some stored.project := Json.int64?_int h
  unfold toJson ofJson?
  rw [Json.fields?_object (by simp [Tag.toMembers, Tag.fieldNames]) (by simp [Tag.toMembers])]
  simp only [Option.bind_eq_bind, Option.bind_some, ofFields?_toMembers]
  simp [Json.Fields.required, Json.Fields.get?, Tag.toMembers, List.lookup_cons, Json.string?,
    hproject, Uuid.read?_render, Instant.read?_render]

theorem list?_listToJson {tags : List StoredTag} (h : ∀ stored ∈ tags, stored.Fits) :
    Json.list? ofJson? (listToJson tags) = some tags :=
  Json.list?_map fun stored hstored => ofJson?_toJson (h stored hstored)

end StoredTag

/-! ## Messages of clients -/

namespace Live

namespace ClientMessage

/-- All numbers are of 64 bits. -/
def Fits : ClientMessage → Prop
  | subscribe project => Json.IsInt64 project
  | syncEdit edit => ∀ delay ∈ edit.debounceMs, Json.IsNat64 delay
  | auth _ | unsubscribe | ping => True

theorem namesKind_toJson (message : ClientMessage) : message.toJson.NamesKind := by
  cases message <;> exact Json.namesKind_ofVariant _ (by simp)

theorem ofJson?_toJson {message : ClientMessage} (h : message.Fits) :
    ofJson? message.toJson = some message := by
  cases message with
  | auth token =>
      rw [toJson, ofJson?, Json.variant?_ofVariant _ (by simp)]
      simp only [Option.bind_eq_bind, Option.bind_some]
      rw [Json.fields?_object (by simp) (by simp)]
      rfl
  | subscribe project =>
      rw [toJson, ofJson?, Json.variant?_ofVariant _ (by simp)]
      simp only [Option.bind_eq_bind, Option.bind_some]
      rw [Json.fields?_object (by simp) (by simp)]
      simp [Json.Fields.required, Json.Fields.get?, Json.int64?_int h]
  | unsubscribe => rfl
  | syncEdit edit =>
      obtain ⟨vendor, sourceText, debounceMs, generated⟩ := edit
      have hdelay : ∀ n, debounceMs = some n → Json.nat64? (.int n) = some n :=
        fun n hn => Json.nat64?_int (h n hn)
      rw [toJson, ofJson?, Json.variant?_ofVariant _ (by simp)]
      simp only [Option.bind_eq_bind, Option.bind_some, Edit.ofJson?]
      rw [Json.fields?_object (by simp) (by simp)]
      -- The delay may be there or not.
      rcases debounceMs with - | delay <;>
        simp [Json.Fields.required, Json.Fields.withDefault, Json.Fields.get?, List.lookup_cons,
          vocabulary?_vendor, Json.string?, Json.bool?, Json.nullable?, hdelay]
  | ping => rfl

theorem isNat64_of_edit? {json : Json} {edit : Edit} (h : Edit.ofJson? json = some edit) :
    ∀ delay ∈ edit.debounceMs, Json.IsNat64 delay := by
  obtain ⟨fields, -, h⟩ := Option.bind_eq_some_iff.mp h
  obtain ⟨vendor, -, h⟩ := Option.bind_eq_some_iff.mp h
  obtain ⟨sourceText, -, h⟩ := Option.bind_eq_some_iff.mp h
  obtain ⟨debounceMs, hdebounce, h⟩ := Option.bind_eq_some_iff.mp h
  obtain ⟨generated, -, h⟩ := Option.bind_eq_some_iff.mp h
  obtain rfl := Option.some.inj h
  rintro delay rfl
  unfold Json.Fields.withDefault Json.nullable? at hdebounce
  split at hdebounce
  · split at hdebounce
    · cases hdebounce
    · obtain ⟨value, hvalue, heq⟩ := Option.map_eq_some_iff.mp hdebounce
      obtain rfl := Option.some.inj heq
      exact Json.isNat64_of_nat64? hvalue
  · cases hdebounce

/-- What was read as a message fits. -/
theorem fits_of_ofJson? {json : Json} {message : ClientMessage}
    (h : ofJson? json = some message) : message.Fits := by
  obtain ⟨⟨kind, content⟩, -, hread⟩ := Option.bind_eq_some_iff.mp h
  dsimp only at hread
  split at hread
  · obtain ⟨fields, -, hread⟩ := Option.bind_eq_some_iff.mp hread
    obtain ⟨token, -, rfl⟩ := Option.map_eq_some_iff.mp hread
    trivial
  · obtain ⟨fields, -, hread⟩ := Option.bind_eq_some_iff.mp hread
    obtain ⟨project, hproject, rfl⟩ := Option.map_eq_some_iff.mp hread
    obtain ⟨value, -, hvalue⟩ := Option.bind_eq_some_iff.mp hproject
    exact Json.isInt64_of_int64? hvalue
  · split at hread
    · exact Option.some.inj hread ▸ trivial
    · cases hread
  · obtain ⟨edit, hedit, rfl⟩ := Option.map_eq_some_iff.mp hread
    exact isNat64_of_edit? hedit
  · split at hread
    · exact Option.some.inj hread ▸ trivial
    · cases hread
  · cases hread

end ClientMessage

/-! ## Messages of the service -/

namespace ServerMessage

/-- All numbers are of 64 bits. -/
def Fits : ServerMessage → Prop
  | subscribed project tags | tagsUpdated project tags =>
    Json.IsInt64 project ∧ ∀ stored ∈ tags, stored.Fits
  | unsubscribed project => Json.IsInt64 project
  | syncQueued sync => Json.IsNat64 sync
  | syncComplete sync project inserted updated unchanged diagnostics =>
    Json.IsNat64 sync ∧ Json.IsInt64 project ∧ Json.IsNat64 inserted ∧ Json.IsNat64 updated ∧
      Json.IsNat64 unchanged ∧ ∀ diagnostic ∈ diagnostics, diagnostic.Fits
  | authenticated _ | error _ | pong => True

theorem namesKind_toJson (message : ServerMessage) : message.toJson.NamesKind := by
  cases message <;> exact Json.namesKind_ofVariant _ (by simp)

theorem tags?_members {project : Int} {tags : List StoredTag} (hproject : Json.IsInt64 project)
    (htags : ∀ stored ∈ tags, stored.Fits) :
    tags? (.object [("projectId", .int project), ("tags", StoredTag.listToJson tags)]) =
      some (project, tags) := by
  rw [tags?, Json.fields?_object (by simp) (by simp)]
  simp [Json.Fields.required, Json.Fields.get?, List.lookup_cons, Json.int64?_int hproject,
    StoredTag.list?_listToJson htags]

theorem ofJson?_toJson {message : ServerMessage} (h : message.Fits) :
    ofJson? message.toJson = some message := by
  cases message with
  | authenticated identity =>
      rw [toJson, ofJson?, Json.variant?_ofVariant _ (by simp)]
      simp only [Option.bind_eq_bind, Option.bind_some]
      rw [Json.fields?_object (by simp) (by simp)]
      rfl
  | subscribed project tags =>
      rw [toJson, ofJson?, Json.variant?_ofVariant _ (by simp)]
      simp only [Option.bind_eq_bind, Option.bind_some, tags?_members h.1 h.2]
      rfl
  | unsubscribed project =>
      rw [toJson, ofJson?, Json.variant?_ofVariant _ (by simp)]
      simp only [Option.bind_eq_bind, Option.bind_some]
      rw [Json.fields?_object (by simp) (by simp)]
      simp [Json.Fields.required, Json.Fields.get?, Json.int64?_int h]
  | syncQueued sync =>
      rw [toJson, ofJson?, Json.variant?_ofVariant _ (by simp)]
      simp only [Option.bind_eq_bind, Option.bind_some]
      rw [Json.fields?_object (by simp) (by simp)]
      simp [Json.Fields.required, Json.Fields.get?, Json.nat64?_int h]
  | syncComplete sync project inserted updated unchanged diagnostics =>
      obtain ⟨hsync, hproject, hinserted, hupdated, hunchanged, hdiagnostics⟩ := h
      have hlist : Json.list? Diagnostic.ofJson? (Diagnostic.listToJson diagnostics) =
          some diagnostics :=
        Json.list?_map fun diagnostic hmember =>
          Diagnostic.ofJson?_toJson (hdiagnostics diagnostic hmember)
      rw [toJson, ofJson?, Json.variant?_ofVariant _ (by simp)]
      simp only [Option.bind_eq_bind, Option.bind_some, syncComplete?]
      rw [Json.fields?_object (by simp) (by simp)]
      simp [Json.Fields.required, Json.Fields.get?, List.lookup_cons, Json.int64?_int hproject,
        Json.nat64?_int hsync, Json.nat64?_int hinserted, Json.nat64?_int hupdated,
        Json.nat64?_int hunchanged, hlist]
  | tagsUpdated project tags =>
      rw [toJson, ofJson?, Json.variant?_ofVariant _ (by simp)]
      simp only [Option.bind_eq_bind, Option.bind_some, tags?_members h.1 h.2]
      rfl
  | error text =>
      rw [toJson, ofJson?, Json.variant?_ofVariant _ (by simp)]
      simp only [Option.bind_eq_bind, Option.bind_some]
      rw [Json.fields?_object (by simp) (by simp)]
      rfl
  | pong => rfl

end ServerMessage

/-- **Messages are read back.**  A message of the service or of a client, if its numbers are
of 64 bits, is written as one object that names its kind, and the object is read as the same
message.  What any JSON is read as, as a message of a client, is also what it is read as
after it was written again. -/
theorem messages_readBack :
    (∀ message : ServerMessage, message.Fits →
      message.toJson.NamesKind ∧ ServerMessage.ofJson? message.toJson = some message) ∧
    (∀ message : ClientMessage, message.Fits →
      message.toJson.NamesKind ∧ ClientMessage.ofJson? message.toJson = some message) ∧
    ∀ (json : Json) (message : ClientMessage), ClientMessage.ofJson? json = some message →
      ClientMessage.ofJson? message.toJson = some message :=
  ⟨fun message h => ⟨message.namesKind_toJson, ServerMessage.ofJson?_toJson h⟩,
    fun message h => ⟨message.namesKind_toJson, ClientMessage.ofJson?_toJson h⟩,
    fun _ _ h => ClientMessage.ofJson?_toJson (ClientMessage.fits_of_ofJson? h)⟩

/-- A tag that was written in the second that was put in at the end of 2016. -/
def leapTag : StoredTag where
  id := Uuid.ofNat 0xFEDCBA98
  project := Json.minInt64
  tag :=
    { name := "Straße", dataType := .timer, address := "%M 0.0", scope := .global,
      category := .constant, defaultValue := "'\"'", description := "// ", vendor := .siemens }
  createdAt := ⟨1483228799, 1500000000, by decide⟩
  updatedAt := ⟨-62167219201, 120, by decide⟩

/-- The report of a merge with two diagnostics, one of which tells line and tag. -/
def mergeReport : ServerMessage :=
  .syncComplete 0xFFFFFFFFFFFFFFFF (-1) 1 0 2 [
    { severity := .warning, code := .duplicateName, message := "", line := some 3,
      tag := some "Straße" },
    { severity := .error, code := .unparseable, message := "\x7b" }]

/-- An edit as an array, without the fields that may be missing, and with its vendor in the
place of a name. -/
def bareEdit : Json :=
  .array [.string "syncEdit", .object [("siemens", .null)], .string "VAR\n"]

theorem messages_readBack_leapTag :
    (ServerMessage.tagsUpdated (-1) [leapTag, leapTag]).Fits ∧ mergeReport.Fits ∧
    (ClientMessage.syncEdit ⟨.rockwell, "", some 0, true⟩).Fits ∧
    ClientMessage.ofJson? bareEdit = some (.syncEdit ⟨.siemens, "VAR\n", none, false⟩) ∧
    ServerMessage.ofJson? (ServerMessage.tagsUpdated (-1) [leapTag, leapTag]).toJson =
      some (.tagsUpdated (-1) [leapTag, leapTag]) ∧
    mergeReport.toJson.NamesKind ∧ ServerMessage.ofJson? mergeReport.toJson = some mergeReport ∧
    ClientMessage.ofJson? (ClientMessage.syncEdit ⟨.rockwell, "", some 0, true⟩).toJson =
      some (.syncEdit ⟨.rockwell, "", some 0, true⟩) ∧
    ClientMessage.ofJson? (ClientMessage.syncEdit ⟨.siemens, "VAR\n", none, false⟩).toJson =
      some (.syncEdit ⟨.siemens, "VAR\n", none, false⟩) := by
  have hsmall : Json.IsInt64 (-1) := by decide
  have htag : leapTag.Fits := show Json.IsInt64 Json.minInt64 by decide
  have htags : (ServerMessage.tagsUpdated (-1) [leapTag, leapTag]).Fits :=
    ⟨hsmall, by simp [htag]⟩
  have hreport : mergeReport.Fits := by
    refine ⟨by decide, hsmall, by decide, by decide, by decide, ?_⟩
    simp [Diagnostic.Fits, Json.IsNat64, Json.maxNat64]
  have hedit : (ClientMessage.syncEdit ⟨.rockwell, "", some 0, true⟩).Fits := by
    rintro delay hdelay
    obtain rfl := Option.some.inj hdelay
    decide
  have hbare : ClientMessage.ofJson? bareEdit =
      some (.syncEdit ⟨.siemens, "VAR\n", none, false⟩) := by decide
  obtain ⟨hserver, hclient, hagain⟩ := messages_readBack
  exact ⟨htags, hreport, hedit, hbare, (hserver _ htags).2, (hserver _ hreport).1,
    (hserver _ hreport).2, (hclient _ hedit).2, hagain _ _ hbare⟩

end Live

end PlcTags
