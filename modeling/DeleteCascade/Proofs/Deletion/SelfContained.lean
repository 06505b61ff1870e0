import DeleteCascade.Proofs.Deletion.Depth
import DeleteCascade.Proofs.Deletion.Passage
import DeleteCascade.Proofs.Run.Limits
import DeleteCascade.Proofs.Schema.Inheritance
/-!
# Deletion — self-contained objects can be deleted

If nothing is in the way of a deletion, it succeeds: every call that the run
comes to is one of a visit that the start leads to, and no function stops
there (`call_safe`), while the calls do not go too deep either. It is not
enough that no row outside of the object refers to it (`SelfContained`), since
its own rows may stand in each other's way (`Stuck`).
-/

namespace DeleteCascade

/-- The client's call is expected. -/
theorem Visit.Expects.start {σ : Setting} {st : Store} (hkept : σ.WellKept st) (root : TableName)
    (ids : List Int) : (Visit.start root ids).Expects σ st st ids where
  orderly := .refl hkept
  spelling _ _ _ _ := False.elim
  arrival _ hv _ := ⟨_, ⟨hv, rfl⟩, fun _ _ => False.elim, fun _ hy _ => hy⟩
  honors := .refl st _ _
  shared := False.elim

namespace Program

variable {p : Program} {σ : Setting} {st s : Store} {notes : List String} {root : TableName}
variable {ids batch : List Int} {name : String} {f : DeleteFunction} {V : Visit}

/-- **No call stops for anything but its depth** in a deletion that nothing is
in the way of. -/
theorem call_safe (hkept : σ.WellKept st)
    (hserves : ∀ {name f}, p.lookup name = some f → p.Serves σ notes f)
    (hlined : ∀ {name f captured front back}, p.lookup name = some f →
      f.blocks = front ++ .localDelete captured :: back →
      σ.IsBody f.table (·.table) notes captured front back → σ.Lined f.table front)
    (hcuts : ∀ {name f}, p.lookup name = some f → σ.CutsNullable f)
    (hcallees : ∀ {name f c}, p.lookup name = some f → c ∈ f.callees →
      ∃ g, p.lookup c.function = some g)
    (hnone : ∀ ref, cycleNote ref ∉ notes) (hfree : σ.Unobstructed st root ids) (levels : Nat)
    (hreached : Relation.ReflTransGen (Visit.Leads σ st) (.start root ids) V)
    (hf : p.lookup name = some f) (htable : V.table.same f.table) (h : V.Expects σ st s batch) :
    (p.call levels name batch V.caller).Safe s := by
  induction levels generalizing V name f s batch with
  | zero => exact failsOnly_call_zero ⟨_, _, rfl⟩
  | succ deeper ih =>
    obtain ⟨-, ⟨captured, front, back, hblocks, hbody⟩, hnamed⟩ := hserves hf
    have hV : V.Serving p σ st notes deeper f := by
      refine ⟨hserves hf, htable, hcuts hf, fun {V' c ids s} hleads hc hsame hexpects => ?_⟩
      obtain ⟨g, hg⟩ := hcallees hf hc
      exact ih (hreached.tail hleads) hg
        (TableName.same_trans hsame (TableName.same_symm (hnamed c hc g hg))) hexpects
    exact failsOnly_call_succ hf (safe_body hkept hserves hnone hV (hfree V hreached)
      (h.of_mem_iff fun v => mem_ascending) hblocks hbody (hlined hf hblocks hbody))

end Program

namespace Setting

variable {σ : Setting} {st : Store} {namer : Namer} {root : TableName} {result : Synthesis}
variable {ids : List Int} {name : String} {f : DeleteFunction} {depth : Nat}

/-- **A store without subtypes is well kept** if it is undamaged, and every
foreign key is on a column that its table lists and that holds no class. -/
theorem WellKept.of_plain (hstrict : σ.schema.Strict) (hschema : st.schema = σ.schema)
    (hunique : st.UniqueKeys) (hgiven : st.KeysGiven) (hwhole : st.NoDangling)
    (hplain : ∀ fk ∈ σ.schema.foreignKeys, ∀ cols ∈ fk.columns?,
      ∀ k ∈ σ.schema.key? fk.source, sameName cols.1 k = false)
    (hlisted : ∀ e ∈ σ.schema.links,
      ((σ.schema.table? e.1).bind (·.column? e.2.1)).isSome)
    (hnamed : ∀ e ∈ σ.schema.links, sameName e.2.1 σ.discriminator = false) : σ.WellKept st where
  strict := hstrict
  schema := hschema
  unique := hunique
  given := hgiven
  whole := hwhole
  listed u c t hlink := by
    obtain ⟨e, he, hu, hc, -⟩ := hlink.exists_links
    obtain ⟨col, hcol⟩ := Option.isSome_iff_exists.1 (hlisted e he)
    obtain ⟨d, hd, hcol⟩ := Option.bind_eq_some_iff.1 hcol
    refine ⟨d, by rw [← Schema.table?_congr _ hu, hd], ?_⟩
    rw [← Table.column?_congr d hc, hcol]
    rfl
  discriminates _ _ _ _ _ hsub := absurd hsub (Schema.not_isSubtype hplain _ _)
  unlinked t place hplace w hlink := by
    obtain ⟨-, -, hcolumn⟩ := findDiscriminator_eq_ok hplace
    obtain ⟨e, he, -, hc, -⟩ := hlink.exists_links
    rw [hcolumn, hnamed e he] at hc
    cases hc

end Setting

/-! ## The building of a city -/

theorem city_links : city.schema.links =
    [(⟨"city", "building"⟩, "address", ⟨"city", "address"⟩),
      (⟨"city", "note"⟩, "building", ⟨"city", "building"⟩),
      (⟨"city", "building_theme"⟩, "building", ⟨"city", "building"⟩),
      (⟨"city", "building_theme"⟩, "theme", ⟨"city", "theme"⟩),
      (⟨"city", "building_theme"⟩, "source", ⟨"city", "source"⟩)] := by
  decide +kernel

/-- A well-kept city. -/
theorem cityStore_wellKept : city.WellKept cityStore :=
  .of_plain city_strict rfl cityStore_valid.1 cityStore_valid.2.1 cityStore_valid.2.2
    (by decide +kernel) (by decide +kernel) (by decide +kernel)

/-- The visits that the building's leads to. -/
inductive CityVisit : Visit → Prop
  | building : CityVisit (.start ⟨"city", "building"⟩ [1])
  | note {V : Visit} (table : V.table.same ⟨"city", "note"⟩) : CityVisit V
  | address {V : Visit} (table : V.table.same ⟨"city", "address"⟩)
      (gone : ∀ v a, V.rows v a → ∀ u : TableName, TableName.same ⟨"city", "building"⟩ u →
        a.gone u 1) : CityVisit V

/-- **No other visits are led to**: a building owns notes, by a link of
theirs, and its address, by one of its own. -/
theorem CityVisit.leads {V V' : Visit} (h : CityVisit V) (hleads : V.Leads city cityStore V') :
    CityVisit V' := by
  cases hleads with
  | @owned before after l u link kind fronts howned classified deletes =>
    have hl : l ∈ before ++ l :: after := by simp
    have hmay := classified.mayOwn deletes.isOwning
    cases h with
    | building =>
      have hmem := Schema.mem_ownedAt fronts hl howned (TableName.same_refl _)
      rw [show city.schema.ownedAt (Visit.start ⟨"city", "building"⟩ [1]).table =
        [(⟨"city", "note"⟩, "building"), (⟨"city", "theme"⟩, "building_theme")] by
          decide +kernel] at hmem
      simp only [List.mem_cons, List.not_mem_nil, or_false] at hmem
      rcases hmem with heq | heq
      · cases heq
        exact .note (TableName.same_refl _)
      · cases heq
        have hnot := hmay.of_ofRecords rfl (TableName.same_refl _) (TableName.same_refl _)
          (sameName_refl _)
        exact absurd hnot (by decide +kernel)
    | note table =>
      have hmem := Schema.mem_ownedAt fronts hl howned table
      rw [show city.schema.ownedAt ⟨"city", "note"⟩ = [] by decide +kernel] at hmem
      cases hmem
    | address table gone =>
      have hmem := Schema.mem_ownedAt fronts hl howned table
      rw [show city.schema.ownedAt ⟨"city", "address"⟩ = [(⟨"city", "building"⟩, "address")] by
        decide +kernel] at hmem
      cases List.mem_singleton.1 hmem
      have hnot := hmay.of_ofRecords rfl (TableName.same_refl _) table (sameName_refl _)
      exact absurd hnot (by decide +kernel)
  | subtype fronts dispatches => exact absurd dispatches.1 (city_not_isSubtype _ _)
  | @target done u c fronts link other notKey owns =>
    obtain ⟨e, he, hsource, hcolumn, htarget⟩ := link.exists_links
    rw [city_links] at he
    have hnot := owns.of_ofRecords rfl (TableName.same_symm htarget) (TableName.same_symm hsource)
      (sameName_symm hcolumn)
    simp only [List.mem_cons, List.not_mem_nil, or_false] at he
    rcases he with rfl | rfl | rfl | rfl | rfl
    · -- the address, which a building points at
      cases h with
      | building =>
        refine .address (TableName.same_symm htarget) ?_
        rintro x a ⟨-, v, a', ⟨hv, rfl⟩, -, rfl⟩ w hw
        exact Or.inr ⟨hw, List.mem_singleton_self 1⟩
      | note table => exact absurd (TableName.same_trans hsource table) (by decide +kernel)
      | address table => exact absurd (TableName.same_trans hsource table) (by decide +kernel)
    · exact absurd hnot (by decide +kernel)
    · exact absurd hnot (by decide +kernel)
    · exact absurd hnot (by decide +kernel)
    · exact absurd hnot (by decide +kernel)
  | supertype fronts isSubtype => exact absurd isSubtype (city_not_isSubtype _ _)

theorem city_linksBy : city.schema.LinksBy ⟨"city", "building"⟩ ⟨"city", "building_theme"⟩
    "building" := by
  have hseen : (city.schema.foreignKeysTo ⟨"city", "building"⟩).any (fun fk =>
      (city.schema.enter fk).toOption.any (·.any fun i => i.shape =
        .bridge ⟨⟨"city", "building_theme"⟩, "building", "theme", ⟨"city", "theme"⟩, "id"⟩)) := by
    decide +kernel
  obtain ⟨fk, hfk, hseen⟩ := List.any_eq_true.1 hseen
  cases henter : city.schema.enter fk with
  | error e =>
    rw [henter] at hseen
    cases hseen
  | ok o =>
    rw [henter] at hseen
    cases o with
    | none => cases hseen
    | some i => exact ⟨_, ⟨fk, hfk, i, henter, of_decide_eq_true hseen⟩, by simp, by simp⟩

/-- **Nothing is in the way in the city**: what points at the building is
cleared, and the building that pointed at the address is gone. -/
theorem CityVisit.unhindered {V : Visit} (h : CityVisit V) : V.Unhindered city cityStore := by
  intro done hdone v a ha u c hlink q hq hqv
  obtain ⟨e, he, hsource, hcolumn, htarget⟩ := hlink.exists_links
  cases h with
  | building =>
    rw [city_links] at he
    simp only [List.mem_cons, List.not_mem_nil, or_false] at he
    rcases he with rfl | rfl | rfl | rfl | rfl
    · exact absurd htarget (by decide +kernel)
    · refine Or.inl (.child ?_ (fun k hk => ?_) fun kind hkind => ?_)
      · rw [← TableName.same_congr_left hsource]
        decide +kernel
      · rw [← Schema.key?_congr hsource, show city.schema.key? ⟨"city", "note"⟩ = some "id" by
          decide +kernel] at hk
        cases hk
        rw [← sameName_congr_right hcolumn]
        decide +kernel
      · have hmeans : city.Means ⟨"city", "note"⟩ ⟨"city", "building"⟩ "building" .aggregation :=
          Setting.means_of_ofRecords rfl (by decide +kernel)
        rw [hkind.eq_of_means (hmeans.congr hsource (TableName.same_refl _) hcolumn)]
        rfl
    · obtain ⟨b, hb, hsame, hnear⟩ := city_linksBy
      exact Or.inl (.bridge ⟨b, hb, TableName.same_trans hsame hsource, sameName_trans hnear hcolumn⟩)
    · exact absurd htarget (by decide +kernel)
    · exact absurd htarget (by decide +kernel)
  | note table =>
    have hnone : ∀ e ∈ city.schema.links, e.2.2.same ⟨"city", "note"⟩ = false := by decide +kernel
    have hsame := TableName.same_trans htarget table
    rw [hnone e he] at hsame
    cases hsame
  | address table gone =>
    have honly : ∀ e ∈ city.schema.links, e.2.2.same ⟨"city", "address"⟩ →
        e.1.same ⟨"city", "building"⟩ := by decide +kernel
    have hbuilding := TableName.same_trans
      (TableName.same_symm (honly e he (TableName.same_trans htarget table))) hsource
    rw [← Store.rows_congr cityStore hbuilding] at hq
    have hnumber : ∀ q ∈ cityStore.rows ⟨"city", "building"⟩, q.get? "id" = some 1 := by
      decide +kernel
    refine Or.inr (.gone (k := "id") ?_ (hnumber q hq) (Or.inl (gone v a ha u hbuilding)))
    rw [← Schema.key?_congr hbuilding]
    decide +kernel

/-- **Ordinary foreign keys** have one column on either side, reference the
key of their target and do nothing on their own. -/
structure Schema.Ordinary (g : Schema) : Prop where
  singleColumn : ∀ fk ∈ g.foreignKeys, fk.isSingleColumn
  toKey : ∀ fk ∈ g.foreignKeys, ∀ cols ∈ fk.columns?, ∃ k ∈ g.key? fk.target, sameName k cols.2
  noAction : ∀ fk ∈ g.foreignKeys, fk.onDelete = .noAction

instance (g : Schema) : Decidable g.Ordinary :=
  decidable_of_iff
    ((∀ fk ∈ g.foreignKeys, fk.isSingleColumn) ∧
      (∀ fk ∈ g.foreignKeys, ∀ cols ∈ fk.columns?, ∃ k ∈ g.key? fk.target, sameName k cols.2) ∧
      ∀ fk ∈ g.foreignKeys, fk.onDelete = .noAction)
    ⟨fun ⟨singleColumn, toKey, noAction⟩ => ⟨singleColumn, toKey, noAction⟩,
      fun h => ⟨h.singleColumn, h.toKey, h.noAction⟩⟩

/-- **No row outside refers to what belongs to the batch** by composition. -/
def Setting.SelfContained (σ : Setting) (st : Store) (root : TableName) (ids : List Int) : Prop :=
  ∀ t p u q c, σ.Composed st root ids t p → q ∈ st.rows u → st.schema.Points u q c t p →
    σ.Composed st root ids u q

/-- If all rows that may refer to others belong to the batch, none outside
refers to one of them. -/
theorem Setting.SelfContained.of_rows {σ : Setting} {st : Store} {root : TableName}
    {ids : List Int} (rows : List (TableName × Row)) (hst : st.schema = σ.schema)
    (hrows : ∀ e ∈ σ.schema.links, ∀ q ∈ st.rows e.1, (e.1, q) ∈ rows)
    (h : ∀ p ∈ rows, σ.Composed st root ids p.1 p.2) : σ.SelfContained st root ids := by
  intro t p u q c _ hq hpoints
  obtain ⟨e, he, hsource, -, -⟩ := hpoints.1.exists_links
  rw [← Store.rows_congr st hsource] at hq
  exact .spelling (h (e.1, q) (hrows e (hst ▸ he) q hq)) hsource

/-- Parts belong to the batch along with what they are part of. -/
theorem Setting.composed_part {σ : Setting} {st : Store} {root t u : TableName} {ids : List Int}
    {p q : Row} {records : List OwnershipRecord} {explicitOnly : Bool} (c : String)
    (hσ : σ.classifier = .ofRecords records explicitOnly) (h : σ.Composed st root ids t p)
    (hpart : q ∈ st.rows u ∧ st.schema.Points u q c t p ∧
      σ.classifier u t (some c) = .ok .composition) : σ.Composed st root ids u q := by
  obtain ⟨row, points, hmeans⟩ := hpart
  exact .child h row points (means_of_ofRecords hσ hmeans)

/-- Walls and windows are parts of a building, and a window says in which
wall it is. -/
def facade : Setting where
  schema := ⟨"city", [cityTable "building" ["id"] [],
    cityTable "wall" ["id"] [("building", "building")],
    cityTable "window" ["id"] [("building", "building"), ("wall", "wall")]], []⟩
  classifier := .ofRecords [⟨"wall", "building", none, .composition⟩,
    ⟨"window", "building", none, .composition⟩] true
  discriminator := "class"

/-- A building with a window in its wall. -/
def facadeStore : Store where
  schema := facade.schema
  contents := [(("city", "building"), [⟨[("id", 1)]⟩]),
    (("city", "wall"), [⟨[("id", 1), ("building", 1)]⟩]),
    (("city", "window"), [⟨[("id", 1), ("building", 1), ("wall", 1)]⟩])]

/-- The wall and the window belong to the building. -/
theorem facade_selfContained : facade.SelfContained facadeStore ⟨"city", "building"⟩ [1] := by
  have hbuilding : facade.Composed facadeStore ⟨"city", "building"⟩ [1] ⟨"city", "building"⟩
      ⟨[("id", 1)]⟩ :=
    .batch (k := "id") (by decide +kernel) (by decide +kernel) (by decide +kernel)
      (List.mem_singleton_self 1)
  have hwall : facade.Composed facadeStore ⟨"city", "building"⟩ [1] ⟨"city", "wall"⟩
      ⟨[("id", 1), ("building", 1)]⟩ :=
    Setting.composed_part "building" rfl hbuilding (by decide +kernel)
  have hwindow : facade.Composed facadeStore ⟨"city", "building"⟩ [1] ⟨"city", "window"⟩
      ⟨[("id", 1), ("building", 1), ("wall", 1)]⟩ :=
    Setting.composed_part "building" rfl hbuilding (by decide +kernel)
  exact .of_rows [(_, _), (_, _)] rfl (by decide +kernel)
    (List.forall_mem_cons.2 ⟨hwall, List.forall_mem_singleton.2 hwindow⟩)

/-- Buildings may be parts of buildings. Their table is listed twice, and only
the second time with the reference that says so. -/
def quarter : Setting where
  schema := ⟨"city",
    [{ cityTable "building" ["id"] [("whole", "building")] with foreignKeys := [] },
      cityTable "building" ["id"] [("whole", "building")]], []⟩
  classifier := .ofRecords [⟨"building", "building", none, .composition⟩] true
  discriminator := "class"

/-- A building with a part. -/
def quarterStore : Store where
  schema := quarter.schema
  contents := [(("city", "building"), [⟨[("id", 1)]⟩, ⟨[("id", 2), ("whole", 1)]⟩])]

/-- The part belongs to its building. -/
theorem quarter_selfContained : quarter.SelfContained quarterStore ⟨"city", "building"⟩ [1] := by
  have hbuilding : quarter.Composed quarterStore ⟨"city", "building"⟩ [1] ⟨"city", "building"⟩
      ⟨[("id", 1)]⟩ :=
    .batch (k := "id") (by decide +kernel) (by decide +kernel) (by decide +kernel)
      (List.mem_singleton_self 1)
  have hpart : quarter.Composed quarterStore ⟨"city", "building"⟩ [1] ⟨"city", "building"⟩
      ⟨[("id", 2), ("whole", 1)]⟩ :=
    Setting.composed_part "whole" rfl hbuilding (by decide +kernel)
  exact .of_rows [(_, _), (_, _)] rfl (by decide +kernel)
    (List.forall_mem_cons.2 ⟨hbuilding, List.forall_mem_singleton.2 hpart⟩)

/-- A path is part of the yard that it ends in, or it owns the gate at its
end: one column is for both. It may also own the yard. -/
def courtyard : Setting where
  schema := ⟨"city", [cityTable "yard" ["id"] [], cityTable "gate" ["id"] [("yard", "yard")],
    cityTable "path" ["id"] [("end", "yard"), ("end", "gate"), ("main", "yard")]], []⟩
  classifier := .ofRecords [⟨"path", "yard", some "end", .composition⟩,
    ⟨"gate", "path", some "end", .composition⟩, ⟨"yard", "path", some "main", .composition⟩] true
  discriminator := "class"

/-- A path that ends in a yard with a gate; both have the same number. -/
def courtyardStore : Store where
  schema := courtyard.schema
  contents := [(("city", "yard"), [⟨[("id", 1)]⟩]),
    (("city", "gate"), [⟨[("id", 1), ("yard", 1)]⟩]),
    (("city", "path"), [⟨[("id", 5), ("end", 1)]⟩])]

/-- The path and its gate belong to the yard. -/
theorem courtyard_selfContained : courtyard.SelfContained courtyardStore ⟨"city", "yard"⟩ [1] := by
  have hyard : courtyard.Composed courtyardStore ⟨"city", "yard"⟩ [1] ⟨"city", "yard"⟩
      ⟨[("id", 1)]⟩ :=
    .batch (k := "id") (by decide +kernel) (by decide +kernel) (by decide +kernel)
      (List.mem_singleton_self 1)
  have hpath : courtyard.Composed courtyardStore ⟨"city", "yard"⟩ [1] ⟨"city", "path"⟩
      ⟨[("id", 5), ("end", 1)]⟩ :=
    Setting.composed_part "end" rfl hyard (by decide +kernel)
  have hgate : courtyard.Composed courtyardStore ⟨"city", "yard"⟩ [1] ⟨"city", "gate"⟩
      ⟨[("id", 1), ("yard", 1)]⟩ :=
    .referenced (c := "end") (k := "id") hpath (by decide +kernel) (by decide +kernel)
      (by decide +kernel) (by decide +kernel) (Setting.means_of_ofRecords rfl (by decide +kernel))
  exact .of_rows [(_, _), (_, _)] rfl (by decide +kernel)
    (List.forall_mem_cons.2 ⟨hpath, List.forall_mem_singleton.2 hgate⟩)

/-- Notes are shared by buildings, through a column that their table does not
list. -/
def pinboard : Setting where
  schema := ⟨"city", [cityTable "building" ["id"] [],
    { cityTable "note" ["id"] [("building", "building")] with
      columns := [⟨"id", "bigint", false⟩] }], []⟩
  classifier := .ofRecords [⟨"note", "building", none, .aggregation⟩] true
  discriminator := "class"

/-- A building without notes. -/
def pinboardStore : Store where
  schema := pinboard.schema
  contents := [(("city", "building"), [⟨[("id", 1)]⟩])]

/-- Nothing belongs to the building, and nothing refers to it. -/
theorem pinboard_selfContained : pinboard.SelfContained pinboardStore ⟨"city", "building"⟩ [1] :=
  .of_rows [] rfl (by decide +kernel) (List.forall_mem_nil _)

/-- Subtypes are read off the links. -/
theorem Setting.isSubtype_iff_of_links {σ : Setting} {u₀ t₀ u t : TableName}
    (h : ∀ e ∈ σ.schema.links, ∀ k ∈ σ.schema.key? e.1, sameName e.2.1 k →
      e.1.same u₀ ∧ e.2.2.same t₀)
    {k : String} (hk : σ.schema.key? u₀ = some k) (hlink : σ.schema.Link u₀ k t₀)
    (hother : u₀.same t₀ = false) : σ.schema.IsSubtype u t ↔ u.same u₀ ∧ t.same t₀ := by
  constructor
  · rintro ⟨l, hl, hlinks, -⟩
    obtain ⟨e, he, hsource, hcolumn, htarget⟩ := hlinks.exists_links
    obtain ⟨hu, ht⟩ := h e he l (by rw [Schema.key?_congr hsource, hl]; rfl) hcolumn
    exact ⟨TableName.same_trans (TableName.same_symm hsource) hu,
      TableName.same_trans (TableName.same_symm htarget) ht⟩
  · rintro ⟨hu, ht⟩
    have hsub : σ.schema.IsSubtype u₀ t₀ := ⟨k, hk, hlink, hother⟩
    exact hsub.congr (TableName.same_symm hu) (TableName.same_symm ht)

/-- The classes of objects are themselves listed in a table, which owns its
objects and may be owned by one of them. -/
def gazetteer : Setting where
  schema := ⟨"city", [cityTable "kind" ["id"] [("main", "object")],
    cityTable "object" ["id"] [("class", "kind")],
    { cityTable "house" ["id"] [("id", "object")] with classes := [26] }], []⟩
  classifier := .ofRecords [⟨"object", "kind", some "class", .composition⟩,
    ⟨"kind", "object", some "main", .composition⟩] true
  discriminator := "class"

/-- The kind of houses, with a house. -/
def gazetteerStore : Store where
  schema := gazetteer.schema
  contents := [(("city", "kind"), [⟨[("id", 26)]⟩]),
    (("city", "object"), [⟨[("id", 1), ("class", 26)]⟩]), (("city", "house"), [⟨[("id", 1)]⟩])]

theorem gazetteer_isSubtype_iff {u t : TableName} : gazetteer.schema.IsSubtype u t ↔
    u.same ⟨"city", "house"⟩ ∧ t.same ⟨"city", "object"⟩ :=
  Setting.isSubtype_iff_of_links (k := "id") (by decide +kernel) (by decide +kernel)
    (by decide +kernel) (by decide +kernel)

/-- The object and its house belong to their kind. -/
theorem gazetteer_selfContained : gazetteer.SelfContained gazetteerStore ⟨"city", "kind"⟩ [26] := by
  have hkind : gazetteer.Composed gazetteerStore ⟨"city", "kind"⟩ [26] ⟨"city", "kind"⟩
      ⟨[("id", 26)]⟩ :=
    .batch (k := "id") (by decide +kernel) (by decide +kernel) (by decide +kernel)
      (List.mem_singleton_self 26)
  have hobject : gazetteer.Composed gazetteerStore ⟨"city", "kind"⟩ [26] ⟨"city", "object"⟩
      ⟨[("id", 1), ("class", 26)]⟩ :=
    Setting.composed_part "class" rfl hkind (by decide +kernel)
  have hhouse : gazetteer.Composed gazetteerStore ⟨"city", "kind"⟩ [26] ⟨"city", "house"⟩
      ⟨[("id", 1)]⟩ :=
    .subtype hobject (gazetteer_isSubtype_iff.2 ⟨TableName.same_refl _, TableName.same_refl _⟩)
      (by decide +kernel)
      ⟨"id", "id", 1, by decide +kernel, by decide +kernel, by decide +kernel, by decide +kernel⟩
  exact .of_rows [(_, _), (_, _), (_, _)] rfl (by decide +kernel)
    (List.forall_mem_cons.2 ⟨hkind, List.forall_mem_cons.2
      ⟨hobject, List.forall_mem_singleton.2 hhouse⟩⟩)

/-- **An undamaged store**: ordinary foreign keys, listed under their source,
that hold; keys that tell the rows apart; and objects that are of one kind
and say of which. -/
structure Setting.Undamaged (σ : Setting) (st : Store) : Prop where
  ordinary : σ.schema.Ordinary
  atSource : ∀ t ∈ σ.schema.tables, ∀ fk ∈ t.foreignKeys, fk.source.same t.name
  acyclic : ∀ t, ¬ Relation.TransGen σ.schema.IsSubtype t t
  oneKind : ∀ u t t', σ.schema.IsSubtype u t → σ.schema.IsSubtype u t' → t.same t'
  schema : st.schema = σ.schema
  valid : st.UniqueKeys ∧ st.KeysGiven ∧ st.NoDangling
  discriminates : σ.Discriminates st

/-- Nothing is of another kind where no foreign key is on a key. -/
theorem Setting.Undamaged.of_plain {σ : Setting} {st : Store} (ordinary : σ.schema.Ordinary)
    (atSource : ∀ t ∈ σ.schema.tables, ∀ fk ∈ t.foreignKeys, fk.source.same t.name)
    (hplain : ∀ fk ∈ σ.schema.foreignKeys, ∀ cols ∈ fk.columns?,
      ∀ k ∈ σ.schema.key? fk.source, sameName cols.1 k = false)
    (schema : st.schema = σ.schema) (valid : st.UniqueKeys ∧ st.KeysGiven ∧ st.NoDangling) :
    σ.Undamaged st where
  ordinary := ordinary
  atSource := atSource
  acyclic t hcycle := by
    obtain ⟨u, hu, -⟩ := Relation.TransGen.head'_iff.1 hcycle
    exact Schema.not_isSubtype hplain _ _ hu
  oneKind _ _ _ hsub := absurd hsub (Schema.not_isSubtype hplain _ _)
  schema := schema
  valid := valid
  discriminates _ _ _ _ _ hsub := absurd hsub (Schema.not_isSubtype hplain _ _)

/-- The house is an object of its kind. -/
theorem gazetteer_discriminates : gazetteer.Discriminates gazetteerStore := by
  intro t u classes place v hsub hclasses hne hplace hrow
  obtain ⟨hu, ht⟩ := gazetteer_isSubtype_iff.1 hsub
  have hmap : gazetteer.schema.classMap ⟨"city", "object"⟩ = .ok [(26, ⟨"city", "house"⟩)] := by
    delta Schema.classMap Schema.enterClasses
    rw [← Schema.classesBelowFor_eq 4]
    decide +kernel
  obtain ⟨htop, -, hcolumn⟩ := Setting.findDiscriminator_eq_ok hplace
  have hlink : gazetteer.schema.parentLink ⟨"city", "object"⟩ = .ok none := by decide +kernel
  rw [Setting.topmost_eq, Schema.parentLink_congr (TableName.same_symm ht) hlink] at htop
  obtain rfl : t = place.table := Except.ok.inj htop
  -- there is only one house
  have hnumber : ∀ q ∈ gazetteerStore.rows ⟨"city", "house"⟩, ∀ x ∈ q.get? "id", x = 1 := by
    decide +kernel
  obtain ⟨k, hk, q, hq, hv⟩ := hrow
  rw [show gazetteerStore.schema.key? u = some "id" by
    rw [Schema.key?_congr hu]; decide +kernel] at hk
  cases hk
  rw [Store.rows_congr gazetteerStore hu] at hq
  obtain rfl : v = 1 := hnumber q hq v hv
  rw [Schema.classMap_congr ht, hmap] at hclasses
  cases hclasses
  refine ⟨26, ?_, "id", ?_, ⟨[("id", 1), ("class", 26)]⟩, ?_, by decide +kernel, ?_⟩
  · rw [Schema.ClassMap.classesOf_congr hu]
    decide +kernel
  · rw [Schema.key?_congr ht]
    decide +kernel
  · rw [Store.rows_congr gazetteerStore ht]
    decide +kernel
  · rw [hcolumn]
    decide +kernel

theorem gazetteer_undamaged : gazetteer.Undamaged gazetteerStore where
  ordinary := by decide +kernel
  atSource := by decide +kernel
  acyclic t hcycle := by
    obtain ⟨u, hfirst, hrest⟩ := Relation.TransGen.head'_iff.1 hcycle
    obtain ⟨ht, hobject⟩ := gazetteer_isSubtype_iff.1 hfirst
    have hhouse : u.same ⟨"city", "house"⟩ := by
      rcases hrest.cases_head with rfl | ⟨w, hnext, -⟩
      · exact ht
      · exact (gazetteer_isSubtype_iff.1 hnext).1
    exact absurd (TableName.same_trans (TableName.same_symm hhouse) hobject) (by decide +kernel)
  oneKind u t t' h h' := by
    obtain ⟨-, ht⟩ := gazetteer_isSubtype_iff.1 h
    obtain ⟨-, ht'⟩ := gazetteer_isSubtype_iff.1 h'
    exact TableName.same_trans ht (TableName.same_symm ht')
  schema := rfl
  valid := by decide +kernel
  discriminates := gazetteer_discriminates

/-- **A self-contained object that cannot be deleted**, however deep calls may
go, and though every link that had to be cut could be. -/
inductive Setting.Stuck (σ : Setting) (st : Store) (root : TableName) (name : String) (id : Int) :
    Prop
  | intro {result : Synthesis} {f : DeleteFunction}
      (synthesized : σ.synthesize (.new "del_" 63) root = .ok result)
      (unremarked : result.notes = [])
      (found : (Program.mk result.registry.functions 0).lookup name = some f)
      (selfContained : σ.SelfContained st f.table [id])
      (fails : ∀ depth deleted,
        (Program.delete ⟨result.registry.functions, depth⟩ st name [id]).result ≠ .ok deleted) :
      Stuck σ st root name id

/-- **One failure is enough**, since it is not the depth that is too small. -/
theorem Setting.Stuck.of_check {σ : Setting} {st : Store} {root : TableName} {name : String}
    {id : Int} (cause : StoreError)
    (h : ((σ.synthesize (.new "del_" 63) root).toOption.any fun result =>
      result.notes = [] ∧
        ((Program.mk result.registry.functions 8).lookup name).map (·.table) = some root ∧
        (Program.delete ⟨result.registry.functions, 8⟩ st name [id]).result =
          .error (.store cause)) = true)
    (hself : σ.SelfContained st root [id]) : σ.Stuck st root name id := by
  cases hsyn : σ.synthesize (.new "del_" 63) root with
  | error e =>
    rw [hsyn] at h
    cases h
  | ok result =>
    rw [hsyn] at h
    obtain ⟨hnotes, hlookup, hrun⟩ := of_decide_eq_true h
    obtain ⟨f, hf, hftable⟩ := Option.map_eq_some_iff.1 hlookup
    exact .intro hsyn hnotes hf (hftable ▸ hself)
      (Program.result_ne_ok_of_error hrun fun _ _ hdeep => by cases hdeep)

/-- The walls are deleted before the windows. -/
theorem facade_stuck : facade.Stuck facadeStore ⟨"city", "building"⟩ "del_building" 1 := by
  refine .of_check (.stillReferenced "window_wall_fk" "city.window") ?_
    facade_selfContained
  -- the recursions that do not evaluate are followed for as long as they last here
  delta Setting.synthesize Setting.cutCycles Setting.cutTable Setting.leadsBack Setting.cutBlock
    Setting.cutNote? Registry.ownerCallReaches Program.delete Program.call Program.call._f Block.run
    runLocalDelete Store.deleteWhere
  rw [← Setting.visitFor_eq _ 12, ← Registry.searchFor_eq 12, ← Store.enforceFor_eq 9]
  decide +kernel

end DeleteCascade
