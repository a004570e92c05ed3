import PlcTags.Container.Codec
import PlcTags.Proofs.Container.Portable
import PlcTags.Proofs.Container.Sniff
import PlcTags.Proofs.Markup.Document

/-!
# Documents that carry tags

What the documents of all vendors have in common: a document is read back as a
tree of elements, so that a vendor only has to say which entries this tree gives
(`decode_renderDocument`).
-/

namespace PlcTags.Container

open Markup (Node Element)

/-- Numbered elements that are all read give their results in order. -/
theorem mapM_zipIdx {α ε : Type} {element : Tag → α} {read : α × Nat → Except ε Entry}
    {entry : Tag → Entry} {tags : List Tag}
    (h : ∀ tag ∈ tags, ∀ index, read (element tag, index) = .ok (entry tag)) (first : Nat) :
    ((tags.map element).zipIdx first).mapM read = .ok (tags.map entry) := by
  induction tags generalizing first with
  | nil => rfl
  | cons tag tags ih =>
      rw [List.map_cons, List.zipIdx_cons, List.mapM_cons, h tag List.mem_cons_self,
        ih fun other hother => h other (List.mem_cons_of_mem _ hother)]
      rfl

/-- A written document is read back if its tree gives entries. -/
theorem decode_renderDocument_eq {vendor : Vendor} {root : Node} {entries : List Entry}
    (standalone : Bool) (hroot : root.IsWritable)
    (hentries : documentEntries vendor (root.element 0) = .ok entries) :
    Format.sniff (Markup.renderDocument standalone root).toUTF8 = .xml ∧
      decode vendor .xml (Markup.renderDocument standalone root).toUTF8 =
        .ok (Decoded.ofEntries vendor entries) := by
  constructor
  · obtain ⟨rest, hrender⟩ := Markup.exists_renderDocument_eq_cons standalone root
    rw [hrender]
    exact Format.sniff_of_bracket rest
  · rw [decode, Container.entries, Container.text, Text.Utf8.decode_toUTF8]
    simp only [Markup.parse_renderDocument standalone hroot, hentries]
    rfl

/-- It gives the tags again that these entries describe. -/
theorem decode_renderDocument {vendor : Vendor} {tags : List Tag} {root : Node}
    {entry : Tag → Entry} (standalone : Bool) (hroot : root.IsWritable)
    (htags : ∀ tag ∈ tags, tag.Portable vendor)
    (hentries : documentEntries vendor (root.element 0) = .ok (tags.map entry))
    (hdescribes : ∀ tag ∈ tags, (entry tag).Describes vendor tag) :
    Format.sniff (Markup.renderDocument standalone root).toUTF8 = .xml ∧
      ∃ decoded, decode vendor .xml (Markup.renderDocument standalone root).toUTF8 =
          .ok decoded ∧
        decoded.issues = [] ∧ List.Forall₂ Tag.Equivalent tags decoded.tags := by
  obtain ⟨hsniff, hdecode⟩ := decode_renderDocument_eq standalone hroot hentries
  refine ⟨hsniff, _, hdecode, ofEntries_of_describes htags ?_⟩
  exact List.forall₂_map_right_iff.mpr (List.forall₂_same.mpr hdescribes)

end PlcTags.Container
