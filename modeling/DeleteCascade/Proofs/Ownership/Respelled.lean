import DeleteCascade.Ownership.Classifier
import DeleteCascade.Proofs.Schema.Respelled
/-!
# Ownership — records in two spellings

Records may differ in the case of letters only (`OwnershipRecord.Respelled`),
and lists of them in their order besides, and in how often a record stands there
(`OwnershipRecord.SameRecords`). A classifier should not tell them apart
(`Classifier.Respelled`).
-/

namespace DeleteCascade

/-- One record in two spellings. -/
structure OwnershipRecord.Respelled (r r' : OwnershipRecord) : Prop where
  child : sameName r.child r'.child
  parent : sameName r.parent r'.parent
  link : Option.Rel (fun l l' => sameName l l') r.link r'.link
  kind : r.kind = r'.kind

instance (r r' : OwnershipRecord) : Decidable (r.Respelled r') :=
  decidable_of_iff
    (sameName r.child r'.child ∧ sameName r.parent r'.parent ∧
      Option.Rel (fun l l' => sameName l l') r.link r'.link ∧ r.kind = r'.kind)
    ⟨fun ⟨child, parent, link, kind⟩ => ⟨child, parent, link, kind⟩,
      fun h => ⟨h.child, h.parent, h.link, h.kind⟩⟩

/-- **One classifier in two spellings**: what it says of a link, if it does, does
not depend on how the link is spelled. -/
def Classifier.Respelled (κ κ' : Classifier) : Prop :=
  ∀ t t' u u' l l', t.same t' → u.same u' → sameName l l' →
    EndAlike (fun _ _ => True) Eq (κ t u (some l)) (κ' t' u' (some l'))

namespace OwnershipRecord

variable {records records' : List OwnershipRecord}

theorem Respelled.refl (r : OwnershipRecord) : r.Respelled r where
  child := sameName_refl r.child
  parent := sameName_refl r.parent
  link := by cases r.link with
    | none => exact .none
    | some l => exact .some (sameName_refl l)
  kind := rfl

/-- **The same records** up to their order, how often they stand there and
the case of the letters in their names. -/
structure SameRecords (records records' : List OwnershipRecord) : Prop where
  sound : ∀ r ∈ records, ∃ r' ∈ records', r.Respelled r'
  complete : ∀ r' ∈ records', ∃ r ∈ records, r.Respelled r'

instance (records records' : List OwnershipRecord) : Decidable (SameRecords records records') :=
  decidable_of_iff
    ((∀ r ∈ records, ∃ r' ∈ records', r.Respelled r') ∧
      ∀ r' ∈ records', ∃ r ∈ records, r.Respelled r')
    ⟨fun ⟨sound, complete⟩ => ⟨sound, complete⟩, fun h => ⟨h.sound, h.complete⟩⟩

theorem SameRecords.refl (records : List OwnershipRecord) : SameRecords records records where
  sound r hr := ⟨r, hr, .refl r⟩
  complete r hr := ⟨r, hr, .refl r⟩

theorem SameRecords.of_forall₂ (h : List.Forall₂ Respelled records records') :
    SameRecords records records' where
  sound _ hr := exists_of_forall₂ h hr
  complete _ hr' := exists_of_forall₂ h.flip hr'

end OwnershipRecord

end DeleteCascade
