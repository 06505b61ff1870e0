import DeleteCascade.Ownership.Classifier
import DeleteCascade.Proofs.Schema.Links
/-!
# Ownership — records in every spelling

The records about a link are looked up without regard to letter case. So an
answer does not depend on how the tables and the link are spelled
(`Classifier.ofRecords_congr`); only the message of a contradiction does.
-/

namespace DeleteCascade

namespace OwnershipRecord

variable {records group : List OwnershipRecord} {t t' u u' : TableName} {l l' : String}
variable {link link' : Option String} {o : Option Relation}

/-- What a group agrees on does not depend on who asks. -/
theorem agreed_congr (h : agreed t u link group = .ok o) : agreed t' u' link' group = .ok o := by
  cases group with
  | nil => exact h
  | cons first rest =>
    unfold agreed at h ⊢
    dsimp only at h ⊢
    split at h
    · cases h
    · exact h

theorem coversPair_congr (ht : t.same t') (hu : u.same u') (r : OwnershipRecord) :
    r.coversPair t.name u.name = r.coversPair t'.name u'.name := by
  simp only [coversPair, sameName_congr_right (TableName.sameName_of_same ht),
    sameName_congr_right (TableName.sameName_of_same hu)]

theorem hasLink_congr (hl : sameName l l') (r : OwnershipRecord) : r.hasLink l = r.hasLink l' := by
  unfold hasLink
  cases r.link with
  | none => rfl
  | some a => exact sameName_congr_right hl a

/-- Records answer in every spelling alike, unless they contradict each
other. -/
theorem consult_congr (ht : t.same t') (hu : u.same u') (hl : sameName l l')
    (h : consult records t u (some l) = .ok o) : consult records t' u' (some l') = .ok o := by
  have hspecific : specific records t u l = specific records t' u' l' := by
    simp only [specific, coversPair_congr ht hu, hasLink_congr hl]
  have hgeneric : generic records t u = generic records t' u' := by
    simp only [generic, coversPair_congr ht hu]
  unfold consult at h ⊢
  dsimp only at h ⊢
  rw [hspecific, hgeneric] at h
  split at h
  · cases h
  · rename_i hsome
    rw [agreed_congr hsome]
    exact h
  · rename_i hnone
    rw [agreed_congr hnone]
    exact agreed_congr h

end OwnershipRecord

/-- The classifier of records answers in every spelling alike. -/
theorem Classifier.ofRecords_congr {records : List OwnershipRecord} {explicitOnly : Bool}
    {t t' u u' : TableName} {l l' : String} {kind : Relation} (ht : t.same t') (hu : u.same u')
    (hl : sameName l l') (h : Classifier.ofRecords records explicitOnly t u (some l) = .ok kind) :
    Classifier.ofRecords records explicitOnly t' u' (some l') = .ok kind := by
  unfold Classifier.ofRecords at h ⊢
  split at h
  · cases h
  · rename_i hsome
    rw [OwnershipRecord.consult_congr ht hu hl hsome]
    exact h
  · rename_i hnone
    rw [OwnershipRecord.consult_congr ht hu hl hnone]
    dsimp only
    split at h
    · rename_i hexplicit
      rw [if_pos hexplicit]
      exact h
    · rename_i hopen
      rw [if_neg hopen]
      cases hcity : OwnershipRecord.consult cityModelRecords t u (some l) with
      | error e =>
        rw [hcity] at h
        cases h
      | ok o =>
        rw [hcity] at h
        rw [OwnershipRecord.consult_congr ht hu hl hcity]
        exact h

end DeleteCascade
