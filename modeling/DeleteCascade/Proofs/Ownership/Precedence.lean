import DeleteCascade.Proofs.Ownership.Respelled
/-!
# Ownership — which records decide

Records about a link stand before records about all links of its pair, and
the given records before those of the city model. So there are up to four
groups of records to ask (`Classifier.groups`), and the first that is not
empty decides (`Classifier.deciding?`): its records agree on the answer, or
they contradict each other (`Classifier.ofRecords_eq`). Of the records of a
group nothing counts but which kinds there are. Their order, how often one
of them stands there and how it is spelled make no difference
(`Classifier.endAlike_ofRecords`).
-/

namespace DeleteCascade

namespace OwnershipRecord

variable {r r' : OwnershipRecord} {records records' group group' : List OwnershipRecord}
variable {child child' parent parent' : TableName} {link link' : Option String} {kind : Relation}

/-! ## What a record is about -/

/-- What a record is about, in small letters: a pair of tables and, if it
names one, a link. -/
def subject (r : OwnershipRecord) : String × String × Option String :=
  (foldCase r.child, foldCase r.parent, r.link.map foldCase)

/-- **The record is about this link of the pair**, or, where no link is
asked for, about all of its links. -/
def IsAbout (r : OwnershipRecord) (child parent : TableName) (link : Option String) : Prop :=
  r.subject = (foldCase child.name, foldCase parent.name, link.map foldCase)

instance (r : OwnershipRecord) (child parent : TableName) (link : Option String) :
    Decidable (r.IsAbout child parent link) :=
  inferInstanceAs (Decidable (_ = _))

/-- The records about this link of the pair, or about all of its links. -/
def about (records : List OwnershipRecord) (child parent : TableName) (link : Option String) :
    List OwnershipRecord :=
  records.filter (·.IsAbout child parent link)

theorem mem_about : r ∈ about records child parent link ↔
    r ∈ records ∧ r.IsAbout child parent link := by
  rw [about, List.mem_filter, decide_eq_true_iff]

theorem specific_eq_about (records : List OwnershipRecord) (child parent : TableName) (l : String) :
    specific records child parent l = about records child parent (some l) := by
  refine List.filter_congr fun r _ => ?_
  rw [Bool.eq_iff_iff, decide_eq_true_iff]
  cases hlink : r.link <;>
    simp [coversPair, hasLink, IsAbout, subject, hlink, sameName_iff, and_assoc]

theorem generic_eq_about (records : List OwnershipRecord) (child parent : TableName) :
    generic records child parent = about records child parent none := by
  refine List.filter_congr fun r _ => ?_
  rw [Bool.eq_iff_iff, decide_eq_true_iff]
  cases hlink : r.link <;>
    simp [coversPair, isGeneric, IsAbout, subject, hlink, sameName_iff]

theorem map_foldCase_eq (h : Option.Rel (fun l l' => sameName l l') link link') :
    link.map foldCase = link'.map foldCase := by
  cases h with
  | none => rfl
  | some hsame => exact congrArg some (sameName_iff.1 hsame)

theorem Respelled.subject (h : r.Respelled r') : r.subject = r'.subject := by
  rw [OwnershipRecord.subject, OwnershipRecord.subject, sameName_iff.1 h.child,
    sameName_iff.1 h.parent, map_foldCase_eq h.link]

theorem isAbout_congr (ht : child.same child') (hu : parent.same parent')
    (hl : Option.Rel (fun l l' => sameName l l') link link') (h : r.subject = r'.subject) :
    r.IsAbout child parent link ↔ r'.IsAbout child' parent' link' := by
  unfold IsAbout
  rw [h, sameName_iff.1 (TableName.sameName_of_same ht),
    sameName_iff.1 (TableName.sameName_of_same hu), map_foldCase_eq hl]

/-! ## What a group says -/

/-- **What a group says**: nothing if it is empty, the kind of its records if
they have one kind, and that they contradict each other if they have two. -/
theorem agreed_cases (child parent : TableName) (link : Option String)
    (group : List OwnershipRecord) :
    (group = [] ∧ agreed child parent link group = .ok none) ∨
    (∃ kind, group ≠ [] ∧ (∀ r ∈ group, r.kind = kind) ∧
      agreed child parent link group = .ok (some kind)) ∨
    ∃ e, (∃ r ∈ group, ∃ r' ∈ group, r.kind ≠ r'.kind) ∧
      agreed child parent link group = .error e := by
  cases group with
  | nil => exact .inl ⟨rfl, rfl⟩
  | cons first rest =>
    unfold agreed
    dsimp only
    split
    · rename_i other hother
      have hdiffers : other.kind ≠ first.kind := by simpa using List.find?_some hother
      have hmem := List.mem_cons_of_mem first (List.mem_of_find?_eq_some hother)
      exact .inr (.inr ⟨_, ⟨other, hmem, first, List.mem_cons_self, hdiffers⟩, rfl⟩)
    · rename_i hnone
      have hrest : ∀ r ∈ rest, r.kind = first.kind := by simpa using List.find?_eq_none.1 hnone
      refine .inr (.inl ⟨first.kind, List.cons_ne_nil first rest, fun r hr => ?_, rfl⟩)
      rcases List.mem_cons.1 hr with rfl | hr
      · rfl
      · exact hrest r hr

theorem agreed_eq_ok_iff (hne : group ≠ []) :
    agreed child parent link group = .ok (some kind) ↔ ∀ r ∈ group, r.kind = kind := by
  obtain ⟨r₀, hr₀⟩ := List.exists_mem_of_ne_nil group hne
  rcases agreed_cases child parent link group with
    ⟨hempty, -⟩ | ⟨said, -, hall, hanswer⟩ | ⟨e, ⟨r, hr, r', hr', hdiffers⟩, hanswer⟩
  · exact absurd hempty hne
  · rw [hanswer]
    constructor
    · rintro ⟨⟩
      exact hall
    · intro hkind
      rw [← hall r₀ hr₀, hkind r₀ hr₀]
  · rw [hanswer]
    exact ⟨nofun, fun hkind => absurd ((hkind r hr).trans (hkind r' hr').symm) hdiffers⟩

theorem agreed_eq_error_iff :
    (∃ e, agreed child parent link group = .error e) ↔
      ∃ r ∈ group, ∃ r' ∈ group, r.kind ≠ r'.kind := by
  rcases agreed_cases child parent link group with
    ⟨rfl, hanswer⟩ | ⟨kind, -, hall, hanswer⟩ | ⟨e, hdiffer, hanswer⟩
  · simp [hanswer]
  · rw [hanswer]
    refine ⟨nofun, ?_⟩
    rintro ⟨r, hr, r', hr', hdiffers⟩
    exact absurd ((hall r hr).trans (hall r' hr').symm) hdiffers
  · exact ⟨fun _ => hdiffer, fun _ => ⟨e, hanswer⟩⟩

/-- Two groups have records of the same kinds. -/
def SameKinds (group group' : List OwnershipRecord) : Prop :=
  ∀ kind, (∃ r ∈ group, r.kind = kind) ↔ ∃ r' ∈ group', r'.kind = kind

theorem SameKinds.symm (h : SameKinds group group') : SameKinds group' group :=
  fun kind => (h kind).symm

theorem SameKinds.nil (h : SameKinds group group') (hempty : group = []) : group' = [] := by
  subst hempty
  refine List.eq_nil_iff_forall_not_mem.2 fun r' hr' => ?_
  obtain ⟨r, hr, -⟩ := (h r'.kind).2 ⟨r', hr', rfl⟩
  cases hr

/-- **Only the kinds count** of the records of a group. -/
theorem endAlike_of_sameKinds (h : SameKinds group group') :
    EndAlike (fun _ _ => True) Eq (agreed child parent link group)
      (agreed child' parent' link' group') := by
  rcases agreed_cases child parent link group with
    ⟨hempty, hanswer⟩ | ⟨kind, hne, hall, hanswer⟩ | ⟨e, ⟨r, hr, r₁, hr₁, hdiffers⟩, hanswer⟩
  · rw [hanswer, h.nil hempty]
    exact .ok rfl
  · have hall' : ∀ r' ∈ group', r'.kind = kind := by
      intro r' hr'
      obtain ⟨r, hr, hkind⟩ := (h r'.kind).2 ⟨r', hr', rfl⟩
      rw [← hkind, hall r hr]
    rw [hanswer, (agreed_eq_ok_iff fun hempty' => hne (h.symm.nil hempty')).2 hall']
    exact .ok rfl
  · obtain ⟨r', hr', hkind⟩ := (h r.kind).1 ⟨r, hr, rfl⟩
    obtain ⟨r₁', hr₁', hkind₁⟩ := (h r₁.kind).1 ⟨r₁, hr₁, rfl⟩
    obtain ⟨e', hanswer'⟩ : ∃ e, agreed child' parent' link' group' = .error e :=
      agreed_eq_error_iff.2 ⟨r', hr', r₁', hr₁', by rwa [hkind, hkind₁]⟩
    rw [hanswer, hanswer']
    exact .error trivial

/-! ## Records that say the same -/

theorem SameRecords.about (h : SameRecords records records') (ht : child.same child')
    (hu : parent.same parent') (hl : Option.Rel (fun l l' => sameName l l') link link') :
    SameKinds (about records child parent link) (about records' child' parent' link') := by
  intro kind
  constructor
  · rintro ⟨r, hr, rfl⟩
    obtain ⟨hmem, habout⟩ := mem_about.1 hr
    obtain ⟨r', hmem', hrespelled⟩ := h.sound r hmem
    exact ⟨r', mem_about.2 ⟨hmem', (isAbout_congr ht hu hl hrespelled.subject).1 habout⟩,
      hrespelled.kind.symm⟩
  · rintro ⟨r', hr', rfl⟩
    obtain ⟨hmem', habout⟩ := mem_about.1 hr'
    obtain ⟨r, hmem, hrespelled⟩ := h.complete r' hmem'
    exact ⟨r, mem_about.2 ⟨hmem, (isAbout_congr ht hu hl hrespelled.subject).2 habout⟩,
      hrespelled.kind⟩

/-! ## Groups asked in turn -/

/-- The groups that records are asked in, each with what it is about: those
about the link, then those about all links. -/
def asked (records : List OwnershipRecord) (child parent : TableName) (link : Option String) :
    List (Option String × List OwnershipRecord) :=
  [(link, about records child parent link), (none, about records child parent none)]

/-- What groups say that are asked in turn, until one says something. -/
def inTurn (child parent : TableName) :
    List (Option String × List OwnershipRecord) → Except OwnershipConflict (Option Relation)
  | [] => .ok none
  | (link, group) :: rest =>
    match agreed child parent link group with
    | .error e => .error e
    | .ok (some kind) => .ok (some kind)
    | .ok none => inTurn child parent rest

variable {groups groups' : List (Option String × List OwnershipRecord)}

theorem inTurn_append (child parent : TableName)
    (groups later : List (Option String × List OwnershipRecord)) :
    inTurn child parent (groups ++ later) =
      match inTurn child parent groups with
      | .error e => .error e
      | .ok (some kind) => .ok (some kind)
      | .ok none => inTurn child parent later := by
  induction groups with
  | nil => rfl
  | cons group groups ih =>
    simp only [List.cons_append, inTurn]
    split
    · rfl
    · rfl
    · exact ih

theorem consult_eq_inTurn (records : List OwnershipRecord) (child parent : TableName)
    (link : Option String) :
    consult records child parent link = inTurn child parent (asked records child parent link) := by
  have hlast (group : List OwnershipRecord) :
      inTurn child parent [(none, group)] = agreed child parent none group := by
    unfold inTurn
    cases agreed child parent none group with
    | error e => rfl
    | ok said => cases said <;> rfl
  unfold consult asked
  dsimp only
  rw [generic_eq_about]
  cases link with
  | none =>
    -- the records about all links are asked twice, and say the same twice
    unfold inTurn
    rw [hlast]
    cases agreed child parent none (about records child parent none) with
    | error e => rfl
    | ok said => cases said <;> rfl
  | some l =>
    dsimp only
    rw [specific_eq_about, ← hlast]
    rfl

/-- **The first group that is not empty decides.** -/
theorem inTurn_of_find? {l : Option String} (h : groups.find? (!·.2.isEmpty) = some (l, group)) :
    inTurn child parent groups = agreed child parent l group := by
  induction groups with
  | nil => cases h
  | cons first rest ih =>
    obtain ⟨l₁, group₁⟩ := first
    unfold inTurn
    rw [List.find?_cons] at h
    rcases agreed_cases child parent l₁ group₁ with
      ⟨rfl, hanswer⟩ | ⟨kind, hne, -, hanswer⟩ | ⟨e, ⟨r, hr, -⟩, hanswer⟩
    · rw [hanswer]
      exact ih h
    · have hsome : (!group₁.isEmpty) = true := by simpa using hne
      simp only [hsome, Option.some.injEq, Prod.mk.injEq] at h
      obtain ⟨rfl, rfl⟩ := h
      rw [hanswer]
    · have hsome : (!group₁.isEmpty) = true := by simpa using List.ne_nil_of_mem hr
      simp only [hsome, Option.some.injEq, Prod.mk.injEq] at h
      obtain ⟨rfl, rfl⟩ := h
      rw [hanswer]

/-- Where all groups are empty nothing is said. -/
theorem inTurn_of_empty (h : ∀ group ∈ groups, group.2 = []) :
    inTurn child parent groups = .ok none := by
  induction groups with
  | nil => rfl
  | cons first rest ih =>
    obtain ⟨l, group⟩ := first
    obtain rfl : group = [] := h _ List.mem_cons_self
    exact ih fun g hg => h g (List.mem_cons_of_mem _ hg)

theorem endAlike_inTurn (h : List.Forall₂ (fun g g' => SameKinds g.2 g'.2) groups groups') :
    EndAlike (fun _ _ => True) Eq (inTurn child parent groups)
      (inTurn child' parent' groups') := by
  induction h with
  | nil => exact .ok rfl
  | @cons group group' rest rest' hkinds _ ih =>
    have hagreed : EndAlike (fun _ _ => True) Eq (agreed child parent group.1 group.2)
        (agreed child' parent' group'.1 group'.2) := endAlike_of_sameKinds hkinds
    unfold inTurn
    with_reducible refine EndAlike.casesOn hagreed (fun he => .error he) fun {said _} heq => ?_
    subst heq
    cases said with
    | some kind => exact .ok rfl
    | none => exact ih

end OwnershipRecord

namespace Classifier

open OwnershipRecord

variable {records records' : List OwnershipRecord} {explicitOnly : Bool}
variable {child child' parent parent' : TableName} {link link' : Option String}

/-- **The groups of records that are asked about a link**: the given records
about the link, those about all links of the pair, and, unless only the given
ones count, the same two of the city model. -/
def groups (records : List OwnershipRecord) (explicitOnly : Bool) (child parent : TableName)
    (link : Option String) : List (Option String × List OwnershipRecord) :=
  asked records child parent link ++
    if explicitOnly then [] else asked cityModelRecords child parent link

/-- The first of these groups that is not empty. -/
def deciding? (records : List OwnershipRecord) (explicitOnly : Bool) (child parent : TableName)
    (link : Option String) : Option (List OwnershipRecord) :=
  ((groups records explicitOnly child parent link).find? (!·.2.isEmpty)).map (·.2)

theorem ofRecords_eq (records : List OwnershipRecord) (explicitOnly : Bool)
    (child parent : TableName) (link : Option String) :
    ofRecords records explicitOnly child parent link =
      (inTurn child parent (groups records explicitOnly child parent link)).map (·.getD .none) := by
  unfold ofRecords groups
  rw [consult_eq_inTurn, consult_eq_inTurn, inTurn_append]
  cases inTurn child parent (asked records child parent link) with
  | error e => rfl
  | ok said =>
    cases said with
    | some kind => rfl
    | none => cases explicitOnly <;> rfl

theorem eq_of_deciding? {group : List OwnershipRecord}
    (h : deciding? records explicitOnly child parent link = some group) :
    group ≠ [] ∧ ∃ l, ofRecords records explicitOnly child parent link =
      (agreed child parent l group).map (·.getD .none) := by
  obtain ⟨⟨l, found⟩, hfound, rfl⟩ := Option.map_eq_some_iff.1 h
  refine ⟨by simpa using List.find?_some hfound, l, ?_⟩
  rw [ofRecords_eq, inTurn_of_find? hfound]

theorem deciding?_eq_none : deciding? records explicitOnly child parent link = none ↔
    ∀ group ∈ groups records explicitOnly child parent link, group.2 = [] := by
  simp [deciding?]

theorem eq_of_silent (h : deciding? records explicitOnly child parent link = none) :
    ofRecords records explicitOnly child parent link = .ok .none := by
  rw [ofRecords_eq, inTurn_of_empty (deciding?_eq_none.1 h)]
  rfl

/-- The records of the deciding group have the kind that is answered. -/
theorem eq_ok_iff_of_deciding? {group : List OwnershipRecord}
    (h : deciding? records explicitOnly child parent link = some group) (kind : Relation) :
    ofRecords records explicitOnly child parent link = .ok kind ↔ ∀ r ∈ group, r.kind = kind := by
  obtain ⟨hne, l, heq⟩ := eq_of_deciding? h
  have hagreed : agreed child parent l group = .ok (some kind) ↔ ∀ r ∈ group, r.kind = kind :=
    agreed_eq_ok_iff hne
  rw [heq, ← hagreed]
  rcases agreed_cases child parent l group with
    ⟨hempty, -⟩ | ⟨said, -, -, hanswer⟩ | ⟨e, -, hanswer⟩
  · exact absurd hempty hne
  · simp [hanswer, Except.map]
  · simp [hanswer, Except.map]

theorem eq_error_iff_of_deciding? {group : List OwnershipRecord}
    (h : deciding? records explicitOnly child parent link = some group) :
    (∃ e, ofRecords records explicitOnly child parent link = .error e) ↔
      ∃ r ∈ group, ∃ r' ∈ group, r.kind ≠ r'.kind := by
  obtain ⟨-, l, heq⟩ := eq_of_deciding? h
  have hagreed : (∃ e, agreed child parent l group = .error e) ↔
      ∃ r ∈ group, ∃ r' ∈ group, r.kind ≠ r'.kind := agreed_eq_error_iff
  rw [heq, ← hagreed]
  cases agreed child parent l group <;> simp [Except.map]

/-- **Order, number and spelling of the records make no difference.** -/
theorem endAlike_ofRecords (h : SameRecords records records') (explicitOnly : Bool)
    (ht : child.same child') (hu : parent.same parent')
    (hl : Option.Rel (fun l l' => sameName l l') link link') :
    EndAlike (fun _ _ => True) Eq (ofRecords records explicitOnly child parent link)
      (ofRecords records' explicitOnly child' parent' link') := by
  have hasked {given given' : List OwnershipRecord} (hgiven : SameRecords given given') :
      List.Forall₂ (fun g g' => SameKinds g.2 g'.2) (asked given child parent link)
        (asked given' child' parent' link') :=
    .cons (hgiven.about ht hu hl) (.cons (hgiven.about ht hu .none) .nil)
  have hgroups : List.Forall₂ (fun g g' => SameKinds g.2 g'.2)
      (groups records explicitOnly child parent link)
      (groups records' explicitOnly child' parent' link') := by
    refine List.rel_append (hasked h) ?_
    split
    · exact .nil
    · exact hasked (.refl _)
  rw [ofRecords_eq, ofRecords_eq]
  exact (endAlike_inTurn hgroups).map fun _ _ heq => by rw [heq]

/-- **The classifier of records in two spellings.** -/
theorem respelled_ofRecords (h : List.Forall₂ OwnershipRecord.Respelled records records')
    (explicitOnly : Bool) :
    (ofRecords records explicitOnly).Respelled (ofRecords records' explicitOnly) :=
  fun _ _ _ _ _ _ ht hu hl => endAlike_ofRecords (.of_forall₂ h) explicitOnly ht hu (.some hl)

/-- **Classification has one precedence and no order.** The first group that is
not empty decides: the answer is the kind that its records share, or a conflict
if it has two kinds. The answer is that nothing is known if all groups are empty
or the deciding one says so. Records in another order or another spelling, or
given more than once, are answered alike. -/
theorem ofRecords_decided (records : List OwnershipRecord) (explicitOnly : Bool)
    (child parent : TableName) (link : Option String) :
    let answer := ofRecords records explicitOnly child parent link
    (∀ group, deciding? records explicitOnly child parent link = some group →
      (∀ kind, answer = .ok kind ↔ ∀ r ∈ group, r.kind = kind) ∧
      ((∃ e, answer = .error e) ↔ ∃ r ∈ group, ∃ r' ∈ group, r.kind ≠ r'.kind)) ∧
    (answer = .ok .none ↔
      (∀ group ∈ groups records explicitOnly child parent link, group.2 = []) ∨
      ∃ group, deciding? records explicitOnly child parent link = some group ∧
        ∀ r ∈ group, r.kind = .none) ∧
    ∀ records' child' parent' link', SameRecords records records' → child.same child' →
      parent.same parent' → Option.Rel (fun l l' => sameName l l') link link' →
      EndAlike (fun _ _ => True) Eq answer
        (ofRecords records' explicitOnly child' parent' link') := by
  intro answer
  refine ⟨fun group h => ⟨eq_ok_iff_of_deciding? h, eq_error_iff_of_deciding? h⟩, ?_,
    fun records' child' parent' link' h ht hu hl => endAlike_ofRecords h explicitOnly ht hu hl⟩
  rw [← deciding?_eq_none]
  cases h : deciding? records explicitOnly child parent link with
  | none => simp [answer, eq_of_silent h]
  | some group =>
    rw [show answer = .ok .none ↔ _ from eq_ok_iff_of_deciding? h .none]
    simp

/-- Three records of one pair of tables: those about all of its links
contradict each other, and one is about a link. -/
def roomRecords : List OwnershipRecord :=
  [⟨"room", "building", none, .composition⟩, ⟨"room", "building", none, .association⟩,
    ⟨"Room", "building", some "BUILDING_ID", .aggregation⟩]

/-- The same in another order and another spelling, one of them twice. -/
def roomRecordsAgain : List OwnershipRecord :=
  [⟨"ROOM", "building", some "building_id", .aggregation⟩, ⟨"room", "Building", none, .association⟩,
    ⟨"room", "building", some "Building_Id", .aggregation⟩,
    ⟨"room", "building", none, .composition⟩]

theorem ofRecords_decided_room :
    deciding? roomRecords false ⟨"citydb", "room"⟩ ⟨"citydb", "building"⟩ (some "building_id") =
      some [⟨"Room", "building", some "BUILDING_ID", .aggregation⟩] ∧
    ofRecords roomRecords false ⟨"citydb", "room"⟩ ⟨"citydb", "building"⟩ (some "building_id") =
      .ok .aggregation ∧
    (∃ e, ofRecords roomRecords false ⟨"citydb", "room"⟩ ⟨"citydb", "building"⟩ (some "other_id") =
      .error e) ∧
    SameRecords roomRecords roomRecordsAgain ∧
    EndAlike (fun _ _ => True) Eq
      (ofRecords roomRecords false ⟨"citydb", "room"⟩ ⟨"citydb", "building"⟩ (some "building_id"))
      (ofRecords roomRecordsAgain false ⟨"citydb", "ROOM"⟩ ⟨"citydb", "building"⟩
        (some "Building_ID")) := by
  have hfirst : deciding? roomRecords false ⟨"citydb", "room"⟩ ⟨"citydb", "building"⟩
      (some "building_id") = some [⟨"Room", "building", some "BUILDING_ID", .aggregation⟩] := by
    decide +kernel
  have hother : deciding? roomRecords false ⟨"citydb", "room"⟩ ⟨"citydb", "building"⟩
      (some "other_id") = some [⟨"room", "building", none, .composition⟩,
        ⟨"room", "building", none, .association⟩] := by
    decide +kernel
  have hsame : SameRecords roomRecords roomRecordsAgain := by decide +kernel
  obtain ⟨hdecides, -, halike⟩ := ofRecords_decided roomRecords false ⟨"citydb", "room"⟩
    ⟨"citydb", "building"⟩ (some "building_id")
  obtain ⟨hdecidesOther, -⟩ := ofRecords_decided roomRecords false ⟨"citydb", "room"⟩
    ⟨"citydb", "building"⟩ (some "other_id")
  refine ⟨hfirst, ((hdecides _ hfirst).1 .aggregation).2 (by decide),
    (hdecidesOther _ hother).2.2 (by decide), hsame, ?_⟩
  exact halike _ _ _ _ hsame (by decide) (by decide) (.some (by decide))

/-- A record can say that nothing is known of a link; then that is the answer,
whatever records come after it. -/
theorem not_none_iff_empty :
    ¬ (ofRecords [⟨"room", "building", some "building_id", .none⟩] false ⟨"citydb", "room"⟩
          ⟨"citydb", "building"⟩ (some "building_id") = .ok .none ↔
        ∀ group ∈ groups [⟨"room", "building", some "building_id", .none⟩] false
          ⟨"citydb", "room"⟩ ⟨"citydb", "building"⟩ (some "building_id"), group.2 = []) := by
  decide +kernel

end Classifier

end DeleteCascade
