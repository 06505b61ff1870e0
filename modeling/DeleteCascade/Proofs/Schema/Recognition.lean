import DeleteCascade.Proofs.Schema.Bridges
/-!
# Links — recognising bridges

A bridge is recognised from one end, through one of the two columns of its
key. What is looked for there is a property of the table alone
(`Table.Joins`): its key is this column and another, neither takes NULL, and
the other column carries a foreign key. `shape_eq_bridge_iff` says that
nothing else is taken for a bridge and that none is missed. The property is
symmetric where no column carries two foreign keys (`Joins.flip`), so that a
bridge is recognised from its other end as well (`bridges_recognised`).
-/

namespace DeleteCascade

/-- Whether the foreign key has one column on either side, and this is its own. -/
def ForeignKey.isOn (fk : ForeignKey) (column : String) : Bool :=
  fk.columns?.any fun cols => sameName cols.1 column

namespace Table

variable {d : Table} {c c' m m' k : String} {fk far : ForeignKey}

/-- The column is listed, and as one that takes no NULL. -/
def DeclaredNotNull (d : Table) (column : String) : Prop :=
  ∃ col, d.column? column = some col ∧ col.nullable = false

/-- The key of the table is two columns of these names, which differ. -/
def KeyPair (d : Table) (c m : String) : Prop :=
  sameName m c = false ∧ ∃ k k', d.primaryKey = [k, k'] ∧
    ((sameName k c ∧ sameName k' m) ∨ (sameName k m ∧ sameName k' c))

/-- The first single-column foreign key on a column. -/
def keyOn? (d : Table) (column : String) : Option ForeignKey :=
  d.foreignKeys.find? (·.isOn column)

/-- **The table joins two others**: its key is the columns `c` and `m`, none of
them takes NULL, and `far` is the first foreign key on `m`. -/
structure Joins (d : Table) (c m : String) (far : ForeignKey) : Prop where
  key : d.KeyPair c m
  near_notNull : d.DeclaredNotNull c
  far_notNull : d.DeclaredNotNull m
  keyOn : d.keyOn? m = some far

/-- No column of the table carries two single-column foreign keys. -/
def OneKeyPerColumn (d : Table) : Prop :=
  ∀ fk ∈ d.foreignKeys, ∀ fk' ∈ d.foreignKeys, ∀ c p c' p', fk.columns? = some (c, p) →
    fk'.columns? = some (c', p') → sameName c c' → fk = fk'

instance (d : Table) : Decidable d.OneKeyPerColumn :=
  decidable_of_iff
    (∀ fk ∈ d.foreignKeys, ∀ fk' ∈ d.foreignKeys, ∀ cols ∈ fk.columns?, ∀ cols' ∈ fk'.columns?,
      sameName cols.1 cols'.1 → fk = fk')
    ⟨fun h fk hfk fk' hfk' c p c' p' hcols hcols' =>
        h fk hfk fk' hfk' (c, p) hcols (c', p') hcols',
      fun h fk hfk fk' hfk' cols hcols cols' hcols' =>
        h fk hfk fk' hfk' cols.1 cols.2 cols'.1 cols'.2 hcols hcols'⟩

theorem declaredNotNull_iff : d.DeclaredNotNull c ↔ d.isNullable c = false := by
  unfold DeclaredNotNull isNullable
  cases d.column? c <;> simp

theorem DeclaredNotNull.congr (h : d.DeclaredNotNull c) (hc : sameName c c') :
    d.DeclaredNotNull c' := by
  obtain ⟨col, hcol, hnull⟩ := h
  exact ⟨col, by rw [← d.column?_congr hc, hcol], hnull⟩

theorem KeyPair.symm (h : d.KeyPair c m) : d.KeyPair m c := by
  obtain ⟨hapart, k, k', hpk, hpair⟩ := h
  exact ⟨by rwa [sameName_comm], k, k', hpk, hpair.symm⟩

theorem KeyPair.congr (h : d.KeyPair c m) (hm : sameName m m') : d.KeyPair c m' := by
  obtain ⟨hapart, k, k', hpk, hpair⟩ := h
  refine ⟨by rwa [← sameName_congr_left hm], k, k', hpk, ?_⟩
  rw [← sameName_congr_right hm, ← sameName_congr_right hm]
  exact hpair

/-- The other column of the key is the first that is not this one. -/
theorem keyPair_iff : d.KeyPair c m ↔ d.primaryKey.length = 2 ∧ d.keyContains c = true ∧
    ∃ k, d.primaryKey.find? (fun k => !sameName k c) = some k ∧ sameName k m := by
  constructor
  · rintro ⟨hapart, k, k', hpk, ⟨hk, hk'⟩ | ⟨hk, hk'⟩⟩
    · have hne : sameName k' c = false := by rw [sameName_congr_left hk', hapart]
      exact ⟨by simp [hpk], by simp [keyContains, hpk, hk], k', by simp [hpk, hk, hne], hk'⟩
    · have hne : sameName k c = false := by rw [sameName_congr_left hk, hapart]
      exact ⟨by simp [hpk], by simp [keyContains, hpk, hk'], k, by simp [hpk, hne], hk⟩
  · rintro ⟨hlen, hcontains, k₀, hfind, hm⟩
    obtain ⟨k, k', hpk⟩ := List.length_eq_two.1 hlen
    have hne : sameName k₀ c = false := by simpa using List.find?_some hfind
    refine ⟨by rw [← sameName_congr_left hm, hne], k, k', hpk, ?_⟩
    by_cases hk : sameName k c = true
    · obtain ⟨-, rfl⟩ : sameName k' c = false ∧ k' = k₀ := by simpa [hpk, hk] using hfind
      exact .inl ⟨hk, hm⟩
    · obtain rfl : k = k₀ := by simpa [hpk, hk] using hfind
      exact .inr ⟨hm, by simpa [keyContains, hpk, hk] using hcontains⟩

theorem keyOn?_congr (d : Table) (h : sameName m m') : d.keyOn? m = d.keyOn? m' := by
  simp only [keyOn?, ForeignKey.isOn, sameName_congr_right h]

theorem of_keyOn? (h : d.keyOn? m = some far) :
    far ∈ d.foreignKeys ∧ ∃ m' q, far.columns? = some (m', q) ∧ sameName m' m := by
  have hon : far.isOn m = true := List.find?_some (p := fun fk : ForeignKey => fk.isOn m) h
  obtain ⟨⟨m', q⟩, hcols, hm⟩ := (Option.any_eq_true _ _).1 hon
  refine ⟨List.mem_of_find?_eq_some h, ?_⟩
  exact ⟨m', q, hcols, hm⟩

/-- Under one key per column the first foreign key on a column is the only one. -/
theorem OneKeyPerColumn.keyOn?_eq (hone : d.OneKeyPerColumn) (hfk : fk ∈ d.foreignKeys) {p : String}
    (hcols : fk.columns? = some (c, p)) : d.keyOn? c = some fk := by
  have hsome : (d.keyOn? c).isSome := by
    rw [keyOn?, List.find?_isSome]
    exact ⟨fk, hfk, by simp [ForeignKey.isOn, hcols]⟩
  obtain ⟨fk', hfk'⟩ := Option.isSome_iff_exists.1 hsome
  obtain ⟨hmem, c', q, hcols', hc'⟩ := of_keyOn? hfk'
  rw [hfk', hone fk' hmem fk hfk c' q c p hcols' hcols hc']

/-- **From its far end a bridge joins as well**, in the other order. -/
theorem Joins.flip (h : d.Joins c m far) (hone : d.OneKeyPerColumn) (hfk : fk ∈ d.foreignKeys)
    {p q : String} (hcols : fk.columns? = some (c, p)) (hfar : far.columns? = some (m', q)) :
    d.Joins m' c fk := by
  obtain ⟨-, m₀, q₀, hcols₀, hm₀⟩ := of_keyOn? h.keyOn
  rw [hfar] at hcols₀
  cases hcols₀
  have hm := sameName_symm hm₀
  exact ⟨(h.key.congr hm).symm, h.far_notNull.congr hm, h.near_notNull, hone.keyOn?_eq hfk hcols⟩

/-- The sibling that is looked for is the first foreign key on its column. -/
theorem find?_siblings (d : Table) (hapart : sameName k c = false) :
    (d.siblings c).find? (fun s => sameName s.column k) =
      (d.keyOn? k).bind fun fk => fk.columns?.map fun cols => ⟨cols.1, fk.target, cols.2⟩ := by
  unfold siblings keyOn?
  induction d.foreignKeys with
  | nil => rfl
  | cons fk rest ih =>
    rw [List.filterMap_cons, List.find?_cons]
    cases hcols : fk.columns? with
    | none => simpa [ForeignKey.isOn, hcols] using ih
    | some cols =>
      obtain ⟨a, p⟩ := cols
      by_cases hon : sameName a k = true
      · -- what is on the other column is not on this one
        have hne : sameName a c = false := by rw [sameName_congr_left hon, hapart]
        simp [ForeignKey.isOn, hcols, hon, hne]
      · by_cases hsame : sameName a c = true
        · simpa [ForeignKey.isOn, hcols, hon, hsame] using ih
        · simpa [ForeignKey.isOn, hcols, hon, hsame] using ih

/-- **A bridge is told by its table**: one is seen from a column just if the
table joins by this column, and it is made of the other column and of the first
foreign key there. -/
theorem bridge?_eq_some_iff {r : Reference} {b : Bridge}
    (hnull : r.nullable = d.isNullable r.childColumn) :
    d.bridge? r = some b ↔ ∃ m far m' q, d.Joins r.childColumn m far ∧
      far.columns? = some (m', q) ∧ b = ⟨r.child, r.childColumn, m', far.target, q⟩ := by
  constructor
  · intro h
    unfold bridge? at h
    split at h
    · rename_i hcond
      obtain ⟨hlen, hcontains, hnear⟩ := hcond
      obtain ⟨m, hm, h⟩ := Option.bind_eq_some_iff.1 h
      obtain ⟨s, hs, h⟩ := Option.bind_eq_some_iff.1 h
      have hapart : sameName m r.childColumn = false := by simpa using List.find?_some hm
      rw [d.find?_siblings hapart] at hs
      obtain ⟨far, hfar, hs⟩ := Option.bind_eq_some_iff.1 hs
      obtain ⟨⟨m', q⟩, hcols, rfl⟩ := Option.map_eq_some_iff.1 hs
      obtain ⟨-, m₀, q₀, hcols₀, hm'⟩ := of_keyOn? hfar
      rw [hcols] at hcols₀
      cases hcols₀
      split at h
      · cases h
      · rename_i hfarnull
        cases h
        refine ⟨m, far, m', q, ⟨keyPair_iff.2 ⟨hlen, hcontains, m, hm, sameName_refl m⟩, ?_, ?_, hfar⟩,
          hcols, rfl⟩
        · exact declaredNotNull_iff.2 (by simpa [hnull] using hnear)
        · exact (declaredNotNull_iff.2 (by simpa using hfarnull)).congr hm'
    · cases h
  · rintro ⟨m, far, m', q, hjoins, hcols, rfl⟩
    obtain ⟨hlen, hcontains, k, hk, hkm⟩ := keyPair_iff.1 hjoins.key
    have hapart : sameName k r.childColumn = false := by simpa using List.find?_some hk
    have hnear : (!r.nullable) = true := by
      rw [hnull, declaredNotNull_iff.1 hjoins.near_notNull]
      rfl
    have hfarnull : d.isNullable m' = false := by
      obtain ⟨-, m₀, q₀, hcols₀, hm'⟩ := of_keyOn? hjoins.keyOn
      rw [hcols] at hcols₀
      cases hcols₀
      exact declaredNotNull_iff.1 (hjoins.far_notNull.congr (sameName_symm hm'))
    unfold bridge?
    rw [if_pos ⟨hlen, hcontains, hnear⟩, hk]
    simp only [Option.bind_eq_bind, Option.bind_some]
    rw [d.find?_siblings hapart, d.keyOn?_congr hkm, hjoins.keyOn]
    simp [hcols, hfarnull]

end Table

namespace Schema

variable {g : Schema} {d : Table} {fk : ForeignKey} {c p : String} {i : Incoming}

/-- **Foreign keys are listed under their own source table**, the one that is
found under the name of their source. -/
def ListsAtSource (g : Schema) : Prop :=
  ∀ d ∈ g.tables, ∀ fk ∈ d.foreignKeys, g.table? fk.source = some d

instance (g : Schema) : Decidable g.ListsAtSource :=
  inferInstanceAs (Decidable (∀ d ∈ g.tables, ∀ fk ∈ d.foreignKeys, g.table? fk.source = some d))

/-- **Bridges are recognised exactly**, by what their table is. -/
theorem shape_eq_bridge_iff (hg : g.ListsAtSource) (hd : d ∈ g.tables) (hfk : fk ∈ d.foreignKeys)
    (hcols : fk.columns? = some (c, p)) (h : g.enter fk = .ok (some i)) (b : Bridge) :
    i.shape = .bridge b ↔ ∃ m far m' q, d.Joins c m far ∧ far.columns? = some (m', q) ∧
      b = ⟨fk.source, c, m', far.target, q⟩ := by
  obtain ⟨hres, -, hshape⟩ := enter_eq_ok_some h
  obtain ⟨c', p', d', e, hcols', hd', -, hr⟩ := resolve_eq_ok.1 hres
  rw [hcols] at hcols'
  cases hcols'
  rw [hg d hd fk hfk] at hd'
  cases hd'
  have hfound : g.table? i.reference.child = some d := by rw [hr, hg d hd fk hfk]
  have hbridge := Table.bridge?_eq_some_iff (d := d) (r := i.reference) (b := b) (by rw [hr])
  have hnear : i.reference.child = fk.source ∧ i.reference.childColumn = c := by
    rw [hr]
    exact ⟨rfl, rfl⟩
  rw [hnear.1, hnear.2] at hbridge
  rw [← hbridge]
  constructor
  · intro hb
    rw [hb] at hshape
    obtain ⟨-, d', hd', hb⟩ := shapeOf_eq_bridge hshape
    rw [hfound] at hd'
    cases hd'
    exact hb
  · intro hb
    obtain ⟨k, k', -, hpk, -⟩ := sides_of_bridge? hb
    have hkey : i.reference.childIsKey = false := by
      rw [hr]
      simp [Table.isKey, Table.key?, hpk]
    unfold shapeOf Table.shape at hshape
    rw [lookup_eq_ok.2 hfound, hkey] at hshape
    simp only [Bool.false_eq_true, if_false, Except.map, hb, Except.ok.injEq] at hshape
    exact hshape.symm

/-- **Bridges are recognised exactly and from both sides.** -/
theorem bridges_recognised (hg : g.ListsAtSource) (hd : d ∈ g.tables) (hfk : fk ∈ d.foreignKeys)
    (hcols : fk.columns? = some (c, p)) (hapart : fk.source.same fk.target = false)
    {entered : Option Incoming} (h : g.enter fk = .ok entered) :
    ∃ i, entered = some i ∧
      (∀ t is, t.same fk.target → g.incoming t = .ok is → i ∈ is) ∧
      (∀ b, i.shape = .bridge b ↔ ∃ m far m' q, d.Joins c m far ∧ far.columns? = some (m', q) ∧
        b = ⟨fk.source, c, m', far.target, q⟩) ∧
      ∀ m far m' q, d.Joins c m far → far.columns? = some (m', q) → d.OneKeyPerColumn →
        far.target.same d.name = false → ∀ t is, t.same far.target → g.incoming t = .ok is →
          ∃ i' ∈ is, g.enter far = .ok (some i') ∧
            i'.shape = .bridge ⟨far.source, m', c, fk.target, p⟩ := by
  obtain ⟨i, rfl⟩ := exists_of_enter h hapart
  have hmem : fk ∈ g.foreignKeys := mem_foreignKeys.2 ⟨d, hd, hfk⟩
  refine ⟨i, rfl, fun t is ht his => ?_, shape_eq_bridge_iff hg hd hfk hcols h, ?_⟩
  · exact mem_incoming his (mem_foreignKeysTo.2 ⟨hmem, TableName.same_symm ht⟩) h
  · intro m far m' q hjoins hfarcols hone hother t is ht his
    have hfar := (Table.of_keyOn? hjoins.keyOn).1
    have hto : far ∈ g.foreignKeysTo t :=
      mem_foreignKeysTo.2 ⟨mem_foreignKeys.2 ⟨d, hd, hfar⟩, TableName.same_symm ht⟩
    -- the other end is asked about with the rest of what enters its target
    obtain ⟨found, hfound, -⟩ := incoming_eq_ok his
    obtain ⟨entered', -, h'⟩ := exists_mem_of_mapM_ok hfound hto
    have hsource : d.name.same far.source = true := (mem_of_table? (hg d hd far hfar)).2
    have hapart' : far.source.same far.target = false := by
      rw [TableName.same_comm, TableName.same_congr_right (TableName.same_symm hsource), hother]
    obtain ⟨i', rfl⟩ := exists_of_enter h' hapart'
    exact ⟨i', mem_incoming his hto h', h', (shape_eq_bridge_iff hg hd hfar hfarcols h' _).2
      ⟨c, fk, c, p, hjoins.flip hone hfk hcols hfarcols, hcols, rfl⟩⟩

/-- A foreign key of the deeds, to a table of the same schema. -/
def deedKey (column target : String) : ForeignKey :=
  ⟨"deed_" ++ column ++ "_fk", ⟨"land", "deed"⟩, [column], ⟨"land", target⟩, ["id"], .noAction⟩

/-- Deeds are owned parcels, by their parcel and their owner. -/
def deed : Table where
  name := ⟨"land", "deed"⟩
  columns := [⟨"parcel_id", "bigint", false⟩, ⟨"owner_id", "bigint", false⟩]
  primaryKey := ["Parcel_ID", "owner_id"]
  foreignKeys := [deedKey "parcel_id" "parcel", deedKey "OWNER_ID" "owner"]
  classes := []

/-- Parcels, owners, and the deeds between them. -/
def land : Schema :=
  ⟨"land", [⟨⟨"land", "parcel"⟩, [⟨"id", "bigint", false⟩], ["id"], [], []⟩,
    ⟨⟨"land", "owner"⟩, [⟨"id", "bigint", false⟩], ["id"], [], []⟩, deed], []⟩

theorem deed_joins : deed.Joins "parcel_id" "owner_id" (deedKey "OWNER_ID" "owner") where
  key := ⟨by decide, _, _, rfl, .inl ⟨by decide, by decide⟩⟩
  near_notNull := ⟨⟨"parcel_id", "bigint", false⟩, by decide, rfl⟩
  far_notNull := ⟨⟨"owner_id", "bigint", false⟩, by decide, rfl⟩
  keyOn := by decide

theorem bridges_recognised_deed :
    land.ListsAtSource ∧ deed.OneKeyPerColumn ∧
    ∃ i is i', land.enter (deedKey "parcel_id" "parcel") = .ok (some i) ∧
      i.shape = .bridge ⟨⟨"land", "deed"⟩, "parcel_id", "OWNER_ID", ⟨"land", "owner"⟩, "id"⟩ ∧
      land.incoming ⟨"land", "owner"⟩ = .ok is ∧ i' ∈ is ∧
      i'.shape = .bridge ⟨⟨"land", "deed"⟩, "OWNER_ID", "parcel_id", ⟨"land", "parcel"⟩, "id"⟩ := by
  have hlists : land.ListsAtSource := by decide +kernel
  have hone : deed.OneKeyPerColumn := by decide +kernel
  obtain ⟨entered, hentered⟩ : ∃ entered, land.enter (deedKey "parcel_id" "parcel") = .ok entered :=
    ⟨_, rfl⟩
  obtain ⟨is, his⟩ : ∃ is, land.incoming ⟨"land", "owner"⟩ = .ok is := ⟨_, rfl⟩
  obtain ⟨i, rfl, -, hshape, hflip⟩ := bridges_recognised (d := deed) hlists (by decide) (by decide)
    rfl (by decide) hentered
  obtain ⟨i', hi', -, hshape'⟩ := hflip _ _ _ _ deed_joins rfl hone (by decide) _ is (by decide) his
  exact ⟨hlists, hone, i, is, i', hentered, (hshape _).2 ⟨_, _, _, _, deed_joins, rfl, rfl⟩, his, hi',
    hshape'⟩

end Schema

end DeleteCascade
