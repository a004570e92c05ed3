import PlcTags.Proofs.Container.Csv
import PlcTags.Proofs.Container.L5x
import PlcTags.Proofs.Container.Plcopen
import PlcTags.Proofs.Container.Tia

/-!
# Containers keep tags

The documents of portable tags are read back, for every vendor.  Of other tags that can be
written, whatever texts they have, containers of every vendor and format give back what is
carried of them (`decode_encode_carried`), in order and without a problem.
-/

namespace PlcTags.Container

/-! ## Documents of portable tags -/

/-- **Documents keep tags.**  The document of portable tags of a vendor is read back without
a problem, tag by tag and in order, and its bytes look like a document. -/
theorem decode_encode_xml (date : String) (vendor : Vendor) (tags : List Tag)
    (htags : ∀ tag ∈ tags, tag.Portable vendor) :
    Format.sniff (encode date vendor .xml tags).toUTF8 = .xml ∧
      ∃ decoded, decode vendor .xml (encode date vendor .xml tags).toUTF8 = .ok decoded ∧
        decoded.issues = [] ∧ List.Forall₂ Tag.Equivalent tags decoded.tags := by
  cases vendor with
  | rockwell =>
      exact decode_renderDocument true (L5x.isWritable_document date .rockwell tags) htags
        (L5x.entries_document date htags) fun tag htag => describes_ofTag (htags tag htag) none
  | siemens =>
      exact decode_renderDocument false (Tia.isWritable_document .siemens tags) htags
        (Tia.entries_document htags) fun tag htag => describes_ofTag (htags tag htag) none
  | beckhoff =>
      exact decode_renderDocument false (Plcopen.isWritable_document date .beckhoff tags) htags
        (Plcopen.entries_document date htags) fun tag htag =>
          Plcopen.describes_entryOfTag (htags tag htag)

theorem decode_encode_xml_awkward :
    (∀ tag ∈ [awkwardTag, awkwardTag], tag.Portable .rockwell) ∧
      Format.sniff (encode "" .rockwell .xml [awkwardTag, awkwardTag]).toUTF8 = .xml ∧
        ∃ decoded,
          decode .rockwell .xml (encode "" .rockwell .xml [awkwardTag, awkwardTag]).toUTF8 =
              .ok decoded ∧
            decoded.issues = [] ∧
              List.Forall₂ Tag.Equivalent [awkwardTag, awkwardTag] decoded.tags := by
  have htags : ∀ tag ∈ [awkwardTag, awkwardTag], tag.Portable .rockwell := by
    simpa using portable_awkwardTag
  exact ⟨htags, decode_encode_xml "" .rockwell [awkwardTag, awkwardTag] htags⟩

/-! ## What is carried -/

variable {vendor : Vendor} {tags : List Tag}

theorem forall₂_describes_carried {entry : Tag → Entry}
    (htags : ∀ tag ∈ tags, tag.Expressible vendor)
    (h : ∀ tag : Tag, tag.Expressible vendor → (entry tag).Describes vendor tag.carried) :
    List.Forall₂ (fun tag entry => Entry.Describes vendor tag.carried entry) tags
      (tags.map entry) :=
  List.forall₂_map_right_iff.mpr (List.forall₂_same.mpr fun tag htag => h tag (htags tag htag))

theorem decode_encode_carried_csv (date : String)
    (htags : ∀ tag ∈ tags, tag.Expressible vendor) :
    Format.sniff (encode date vendor .csv tags).toUTF8 = .csv ∧
      decode vendor .csv (encode date vendor .csv tags).toUTF8 =
        .ok { tags := tags.map Tag.carried } := by
  constructor
  · obtain ⟨c, rest, hencode, hc⟩ := Csv.exists_encode_eq_cons vendor tags
    show Format.sniff (Csv.encode vendor tags).toUTF8 = .csv
    rw [hencode]
    exact Format.sniff_of_letter hc rest
  · obtain ⟨entries, hentries, hdescribes⟩ := Csv.entries_encode_carried htags
    show (Container.entries vendor .csv (Csv.encode vendor tags).toUTF8).map
      (Decoded.ofEntries vendor) = _
    rw [Container.entries, Container.text, Text.Utf8.decode_toUTF8]
    simp only [hentries]
    rw [← ofEntries_of_describes_carried htags hdescribes]
    rfl

theorem decode_encode_carried_xml (date : String)
    (htags : ∀ tag ∈ tags, tag.Expressible vendor) :
    Format.sniff (encode date vendor .xml tags).toUTF8 = .xml ∧
      decode vendor .xml (encode date vendor .xml tags).toUTF8 =
        .ok { tags := tags.map Tag.carried } := by
  cases vendor with
  | rockwell =>
      rw [← ofEntries_of_describes_carried htags
        (forall₂_describes_carried htags fun _ => L5x.describes_carriedEntry)]
      exact decode_renderDocument_eq true (L5x.isWritable_document date .rockwell tags)
        (L5x.entries_document_carried date .rockwell tags)
  | siemens =>
      rw [← ofEntries_of_describes_carried htags
        (forall₂_describes_carried htags fun _ => Tia.describes_carriedEntry)]
      exact decode_renderDocument_eq false (Tia.isWritable_document .siemens tags)
        (Tia.entries_document_carried htags)
  | beckhoff =>
      rw [← ofEntries_of_describes_carried htags
        (forall₂_describes_carried htags fun _ => Plcopen.describes_carriedEntry)]
      exact decode_renderDocument_eq false (Plcopen.isWritable_document date .beckhoff tags)
        (Plcopen.entries_document_carried date tags)

/-- **Containers carry tags.**  The container of tags of a vendor looks like its format, and
is read back to what is carried of the tags. -/
theorem decode_encode_carried (date : String) (format : Format)
    (htags : ∀ tag ∈ tags, tag.Expressible vendor) :
    Format.sniff (encode date vendor format tags).toUTF8 = format ∧
      decode vendor format (encode date vendor format tags).toUTF8 =
        .ok { tags := tags.map Tag.carried } := by
  cases format with
  | csv => exact decode_encode_carried_csv date htags
  | xml => exact decode_encode_carried_xml date htags

/-- Nothing else comes out if the format has to be told from the bytes. -/
theorem decode_encode_hinted (date : String) {format : Format} {hint : Option Format}
    (hhint : hint = none ∨ hint = some format) (htags : ∀ tag ∈ tags, tag.Expressible vendor) :
    decode vendor (hint.getD (Format.sniff (encode date vendor format tags).toUTF8))
      (encode date vendor format tags).toUTF8 = .ok { tags := tags.map Tag.carried } := by
  obtain ⟨hsniff, hdecode⟩ := decode_encode_carried date format htags
  rcases hhint with rfl | rfl
  · rw [Option.getD_none, hsniff, hdecode]
  · exact hdecode

end PlcTags.Container
