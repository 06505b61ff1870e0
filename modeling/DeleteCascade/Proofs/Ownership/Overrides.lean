import DeleteCascade.Config.Basic
import DeleteCascade.Proofs.Ownership.Precedence
import Mathlib.Data.List.Nodup
/-!
# Ownership — configured records before others

Configured records and others are put together, the others only where no
configured one is about the same (`Config.recordsWith`). If neither give two
kinds to one link (`OwnershipRecord.Consistent`), both together do not
either, and what they say of a link is what the configured ones say, or else
the others (`kindOf?_recordsWith`). So no conflict is left, and the classifier
goes through both for the link before it goes through both for the pair
(`Config.classifier_overrides`).
-/

namespace DeleteCascade

namespace OwnershipRecord

variable {r s : OwnershipRecord} {records : List OwnershipRecord}
variable {child parent asking asked : TableName} {link asks : Option String} {kind : Relation}

/-- **No two kinds** are given to one link of a pair, or to all of its links. -/
def Consistent (records : List OwnershipRecord) : Prop :=
  ∀ r ∈ records, ∀ s ∈ records, r.subject = s.subject → r.kind = s.kind

instance (records : List OwnershipRecord) : Decidable (Consistent records) :=
  inferInstanceAs (Decidable (∀ r ∈ records, ∀ s ∈ records, r.subject = s.subject → r.kind = s.kind))

/-- The kind that records give to a link of the pair, or, where no link is
asked for, to all of its links. -/
def kindOf? (records : List OwnershipRecord) (child parent : TableName) (link : Option String) :
    Option Relation :=
  (records.find? (·.IsAbout child parent link)).map (·.kind)

theorem kindOf?_eq_none_iff :
    kindOf? records child parent link = none ↔ ∀ r ∈ records, ¬ r.IsAbout child parent link := by
  simp [kindOf?]

/-- Of consistent records any one tells the kind. -/
theorem Consistent.kindOf?_eq_some_iff (h : Consistent records) :
    kindOf? records child parent link = some kind ↔
      ∃ r ∈ records, r.IsAbout child parent link ∧ r.kind = kind := by
  constructor
  · intro hkind
    obtain ⟨r, hr, rfl⟩ := Option.map_eq_some_iff.1 hkind
    exact ⟨r, List.mem_of_find?_eq_some hr, by simpa using List.find?_some hr, rfl⟩
  · rintro ⟨r, hr, habout, rfl⟩
    have hsome : (records.find? (·.IsAbout child parent link)).isSome := by
      rw [List.find?_isSome]
      exact ⟨r, hr, by simpa using habout⟩
    obtain ⟨s, hs⟩ := Option.isSome_iff_exists.1 hsome
    have hsabout : s.IsAbout child parent link := by simpa using List.find?_some hs
    have hkinds := h s (List.mem_of_find?_eq_some hs) r hr (hsabout.trans habout.symm)
    rw [kindOf?, hs, Option.map_some, hkinds]

/-- Consistent records do not contradict each other. -/
theorem Consistent.agreed_about (h : Consistent records) :
    agreed asking asked asks (about records child parent link) =
      .ok (kindOf? records child parent link) := by
  cases hkind : kindOf? records child parent link with
  | none =>
    have hempty : about records child parent link = [] := by
      refine List.eq_nil_iff_forall_not_mem.2 fun r hr => ?_
      obtain ⟨hmem, habout⟩ := mem_about.1 hr
      exact kindOf?_eq_none_iff.1 hkind r hmem habout
    rw [hempty]
    rfl
  | some kind =>
    obtain ⟨r, hr, habout, rfl⟩ := h.kindOf?_eq_some_iff.1 hkind
    refine (agreed_eq_ok_iff (List.ne_nil_of_mem (mem_about.2 ⟨hr, habout⟩))).2 fun s hs => ?_
    obtain ⟨hmem, hsabout⟩ := mem_about.1 hs
    exact h s hmem r hr (hsabout.trans habout.symm)

theorem Consistent.consult (h : Consistent records) (child parent : TableName)
    (link : Option String) :
    consult records child parent link =
      .ok ((kindOf? records child parent link).or (kindOf? records child parent none)) := by
  rw [consult_eq_inTurn, OwnershipRecord.asked, inTurn, inTurn, inTurn, h.agreed_about,
    h.agreed_about]
  cases kindOf? records child parent link <;> cases kindOf? records child parent none <;> rfl

theorem sameSubject_iff : r.sameSubject s = true ↔ r.subject = s.subject := by
  unfold sameSubject coversPair subject
  cases r.link <;> cases s.link <;> simp [sameName_iff, and_assoc]

/-- The city model has one record about each link it knows. -/
theorem nodup_cityModelRecords : (cityModelRecords.map subject).Nodup := by decide +kernel

theorem consistent_cityModelRecords : Consistent cityModelRecords := fun r hr s hs hsubject => by
  rw [List.inj_on_of_nodup_map nodup_cityModelRecords hr hs hsubject]

end OwnershipRecord

open OwnershipRecord

/-- What the city model says of a link, if it counts. -/
def cityModelKind (explicitOnly : Bool) (child parent : TableName) (link : Option String) :
    Relation :=
  if explicitOnly then .none
  else ((kindOf? cityModelRecords child parent link).or
    (kindOf? cityModelRecords child parent none)).getD .none

/-- **Consistent records are never in conflict.** -/
theorem Classifier.ofRecords_of_consistent {records : List OwnershipRecord}
    (h : Consistent records) (explicitOnly : Bool) (child parent : TableName)
    (link : Option String) :
    Classifier.ofRecords records explicitOnly child parent link =
      .ok (((kindOf? records child parent link).or (kindOf? records child parent none)).getD
        (cityModelKind explicitOnly child parent link)) := by
  unfold Classifier.ofRecords cityModelKind
  rw [h.consult, consistent_cityModelRecords.consult]
  cases (kindOf? records child parent link).or (kindOf? records child parent none) with
  | some kind => rfl
  | none => cases explicitOnly <;> rfl

namespace Config

variable {c : Config} {others : List OwnershipRecord}

theorem mem_recordsWith {r : OwnershipRecord} : r ∈ c.recordsWith others ↔
    r ∈ c.ownership ∨ r ∈ others ∧ ∀ s ∈ c.ownership, s.subject ≠ r.subject := by
  simp [recordsWith, ← sameSubject_iff]

/-- What is put together is consistent if the parts are. -/
theorem consistent_recordsWith (hown : Consistent c.ownership) (hothers : Consistent others) :
    Consistent (c.recordsWith others) := by
  intro r hr s hs hsubject
  rcases mem_recordsWith.1 hr with hr | ⟨hr, hnew⟩ <;>
    rcases mem_recordsWith.1 hs with hs | ⟨hs, hnew'⟩
  · exact hown r hr s hs hsubject
  · exact absurd hsubject (hnew' r hr)
  · exact absurd hsubject.symm (hnew s hs)
  · exact hothers r hr s hs hsubject

/-- **What is configured comes before the rest**, for one link of a pair. -/
theorem kindOf?_recordsWith (c : Config) (others : List OwnershipRecord) (child parent : TableName)
    (link : Option String) :
    kindOf? (c.recordsWith others) child parent link =
      (kindOf? c.ownership child parent link).or (kindOf? others child parent link) := by
  unfold kindOf? recordsWith
  rw [List.find?_append, Option.map_or]
  cases hown : c.ownership.find? (·.IsAbout child parent link) with
  | some r => rfl
  | none =>
    -- nothing is left out of what the others say of this link
    have hkeep (r : OwnershipRecord) (habout : r.IsAbout child parent link) :
        (c.ownership.any (·.sameSubject r)) = false := by
      refine List.any_eq_false.2 fun s hs hsame => ?_
      have hsabout : s.IsAbout child parent link := (sameSubject_iff.1 hsame).trans habout
      exact List.find?_eq_none.1 hown s hs (by simpa using hsabout)
    rw [List.find?_filter]
    congr 3
    funext r
    by_cases habout : r.IsAbout child parent link
    · simp [habout, hkeep r habout]
    · simp [habout]

/-- **Configured ownership overrides other ownership without conflicts.** Where
neither the configured records nor the others give two kinds to one link, every
link is answered: by what is configured for it, else by what the others say of
it, else by what is configured for all links of the pair, else by what the
others say of these, else as without any records, by the city model or, if it
does not count, that nothing is known. -/
theorem classifier_overrides (c : Config) (others : List OwnershipRecord)
    (hown : Consistent c.ownership) (hothers : Consistent others) (child parent : TableName)
    (link : Option String) :
    ∃ fallback, Classifier.ofRecords [] c.explicitOwnershipOnly child parent link = .ok fallback ∧
      (c.explicitOwnershipOnly = true → fallback = .none) ∧
      c.classifier others child parent link = .ok
        ((((kindOf? c.ownership child parent link).or (kindOf? others child parent link)).or
          ((kindOf? c.ownership child parent none).or
            (kindOf? others child parent none))).getD fallback) := by
  have hempty : Consistent [] := by simp [Consistent]
  have hcity := Classifier.ofRecords_of_consistent hempty c.explicitOwnershipOnly child parent link
  have hboth := Classifier.ofRecords_of_consistent (consistent_recordsWith hown hothers)
    c.explicitOwnershipOnly child parent link
  rw [kindOf?_recordsWith, kindOf?_recordsWith] at hboth
  refine ⟨cityModelKind c.explicitOwnershipOnly child parent link, hcity, fun hexplicit => ?_, hboth⟩
  rw [cityModelKind, if_pos hexplicit]

/-- Settings that speak of one link of a pair. -/
def annexConfig : Config :=
  { ownership := [⟨"annex", "building", some "Building_ID", .aggregation⟩] }

/-- Records found elsewhere about the same link, about another one, and about
all links of the pair. -/
def annexRecords : List OwnershipRecord :=
  [⟨"Annex", "building", some "building_id", .composition⟩,
    ⟨"annex", "Building", some "owner_id", .association⟩, ⟨"annex", "building", none, .composition⟩]

/-- What the links of that pair are found to mean. -/
def annexKinds : List (Option String × Relation) :=
  [(some "building_id", .aggregation), (some "owner_id", .association), (none, .composition),
    (some "lot_id", .composition)]

theorem classifier_overrides_annex :
    Consistent annexConfig.ownership ∧ Consistent annexRecords ∧
      ∀ q ∈ annexKinds, annexConfig.classifier annexRecords ⟨"citydb", "annex"⟩
        ⟨"citydb", "building"⟩ q.1 = .ok q.2 := by
  have hown : Consistent annexConfig.ownership := by decide
  have hothers : Consistent annexRecords := by decide +kernel
  have hkinds : ∀ q ∈ annexKinds,
      ((kindOf? annexConfig.ownership ⟨"citydb", "annex"⟩ ⟨"citydb", "building"⟩ q.1).or
        (kindOf? annexRecords ⟨"citydb", "annex"⟩ ⟨"citydb", "building"⟩ q.1)).or
      ((kindOf? annexConfig.ownership ⟨"citydb", "annex"⟩ ⟨"citydb", "building"⟩ none).or
        (kindOf? annexRecords ⟨"citydb", "annex"⟩ ⟨"citydb", "building"⟩ none)) = some q.2 := by
    decide +kernel
  refine ⟨hown, hothers, fun q hq => ?_⟩
  obtain ⟨fallback, -, -, hanswer⟩ := classifier_overrides annexConfig annexRecords hown hothers
    ⟨"citydb", "annex"⟩ ⟨"citydb", "building"⟩ q.1
  rw [hanswer, hkinds q hq, Option.getD_some]

end Config

end DeleteCascade
