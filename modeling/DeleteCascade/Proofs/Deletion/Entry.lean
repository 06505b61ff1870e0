import DeleteCascade.Proofs.Deletion.Causes
import DeleteCascade.Proofs.Deletion.Release
/-!
# Deletion — where a deletion enters

An object may have rows in several tables, one for each table of its class
and those above it and one for each extension. It does not matter through
which of the tables it is deleted (`Setting.delete_entry`): if it can be
deleted through the topmost, then a deletion through another one leaves the
same rows, or it fails and leaves all. The two runs have little in common
step by step. They are compared by what is gone in the end: a full set of
rows says what it leaves (`Setting.Leaves.rows_eq`), each run is confined to
every full set that has its batch, and the rows that are missing after the
one are such a set for the other.
-/

namespace DeleteCascade

namespace Setting

variable {σ : Setting} {st s s₁ s₂ : Store} {P : RowSet} {t u : TableName} {c : String} {x : Int}
variable {r r' r₁ r₂ : Row} {ids : List Int}

/-! ## What a set of rows leaves -/

/-- **What is left without the rows of a set**: they are gone, and nothing
else was done to the store that would not follow. -/
structure Leaves (σ : Setting) (st : Store) (P : RowSet) (s : Store) : Prop where
  confined : σ.Confined st P s
  whole : s.NoDangling
  gone : ∀ {t x}, P t x → ¬ s.HasRow t x

namespace Leaves

theorem schema (h : σ.Leaves st P s) (hst : st.schema = σ.schema) : s.schema = σ.schema :=
  h.confined.schema.trans hst

/-- Nothing points at a row that is gone. -/
theorem not_mem_of_link (h : σ.Leaves st P s) (hg : σ.schema.Regular) (hst : st.schema = σ.schema)
    (hlink : σ.schema.Link t c u) (hr : r ∈ s.rows t) (hx : r.get? c = some x) : ¬ P u x := by
  have hs := h.schema hst
  exact fun hP => h.gone hP (h.whole.hasRow (hs ▸ hg) (hs ▸ hlink) hr hx)

/-- What is left of a row did not have to go. -/
theorem not_taken (h : σ.Leaves st P s) (hg : σ.schema.Regular) (hst : st.schema = σ.schema)
    (hr' : r' ∈ s.rows t) (htrimmed : σ.Trimmed P t r r') : ¬ σ.Taken P t r := by
  rintro (⟨k, v, hk, hv, hP⟩ | ⟨w, b, v, hb, hsame, hv, hP⟩)
  · exact h.gone hP ⟨k, by rw [h.schema hst, hk], r', hr', by rw [htrimmed.sameKey hk, hv]⟩
  · -- without a key nothing of the row is cut
    rcases htrimmed.values b.nearColumn with heq | ⟨-, ⟨k, hk, -⟩, -⟩
    · refine h.not_mem_of_link hg hst (hb.spec hg).near ?_ (heq.trans hv) hP
      rwa [Store.rows_congr s hsame]
    · rw [← Schema.key?_congr hsame, hb.key?_eq_none] at hk
      cases hk

/-- What is cut of a row is cut of it in every store that is left. -/
theorem value_eq (h₁ : σ.Leaves st P s₁) (h₂ : σ.Leaves st P s₂) (hg : σ.schema.Regular)
    (hst : st.schema = σ.schema) (hr₁ : r₁ ∈ s₁.rows t) (hr₂ : r₂ ∈ s₂.rows t)
    (htrimmed₁ : σ.Trimmed P t r r₁) (htrimmed₂ : σ.Trimmed P t r r₂) (c : String) :
    r₁.get? c = r₂.get? c := by
  rcases htrimmed₁.values c with heq₁ | ⟨hnone₁, -, w, v, hlink, hv, hP⟩ <;>
    rcases htrimmed₂.values c with heq₂ | ⟨hnone₂, -, w', v', hlink', hv', hP'⟩
  · rw [heq₁, heq₂]
  · exact absurd hP' (h₁.not_mem_of_link hg hst hlink' hr₁ (heq₁.trans hv'))
  · exact absurd hP (h₂.not_mem_of_link hg hst hlink hr₂ (heq₂.trans hv))
  · rw [hnone₁, hnone₂]

/-- **What a set of rows leaves is determined by the set.** -/
theorem rows_eq (h₁ : σ.Leaves st P s₁) (h₂ : σ.Leaves st P s₂) (hg : σ.schema.Regular)
    (hst : st.schema = σ.schema) (t : TableName) : s₁.rows t = s₂.rows t :=
  (h₁.confined.rows t).unique (h₂.confined.rows t)
    (fun _ _ _ hr₁ htrimmed => h₁.not_taken hg hst hr₁ htrimmed)
    (fun _ _ _ hr₂ htrimmed => h₂.not_taken hg hst hr₂ htrimmed)
    fun _ _ _ hr₁ _ hr₂ htrimmed₁ htrimmed₂ => htrimmed₁.cut.eq_of_get? htrimmed₂.cut
      (h₁.value_eq h₂ hg hst hr₁ hr₂ htrimmed₁ htrimmed₂)

end Leaves

/-- A row that is not in the set is left. -/
theorem Confined.hasRow (h : σ.Confined st P s) (hst : st.schema = σ.schema) (hrow : st.HasRow t x)
    (hout : ¬ P t x) : s.HasRow t x := by
  obtain ⟨k, hk, r, hr, hx⟩ := hrow
  rw [hst] at hk
  rcases (h.rows t).dropped_or_kept hr with htaken | ⟨r', hr', htrimmed⟩
  · exact absurd (htaken.mem hk hx) hout
  · exact ⟨k, by rw [h.schema, hst, hk], r', hr', by rw [htrimmed.sameKey hk, hx]⟩

/-- **Two runs that are confined to what is missing after the other** leave
the same rows. -/
theorem rows_eq_of_confined (hg : σ.schema.Regular) (hst : st.schema = σ.schema)
    (h₁ : Store.Intact st s₁) (h₂ : Store.Intact st s₂)
    (hown : σ.Confined st (Missing s₁) s₁) (hconfined₁ : σ.Confined st (Missing s₂) s₁)
    (hconfined₂ : σ.Confined st (Missing s₁) s₂) (t : TableName) : s₁.rows t = s₂.rows t := by
  have hleaves₁ : σ.Leaves st (Missing s₁) s₁ := ⟨hown, h₁.whole, fun hgone => hgone⟩
  have hleaves₂ : σ.Leaves st (Missing s₁) s₂ := ⟨hconfined₂, h₂.whole, fun hgone hrow =>
    hgone (hconfined₁.hasRow hst (hrow.of_within h₂.within) fun hmissing => hmissing hrow)⟩
  exact hleaves₁.rows_eq hleaves₂ hg hst t

/-! ## Up and down an object -/

theorem hasRow_of_isSubtype (hg : σ.schema.Regular) (hst : st.schema = σ.schema)
    (hwhole : st.NoDangling) (hsub : σ.schema.IsSubtype u t) (h : st.HasRow u x) :
    st.HasRow t x := by
  obtain ⟨k, hk, hlink, -⟩ := hsub
  obtain ⟨l, hl, r, hr, hx⟩ := h
  rw [hst, hk] at hl
  cases hl
  exact hwhole.hasRow (hst ▸ hg) (hst ▸ hlink) hr hx

/-- With a row go those of the object further down. -/
theorem Full.descends (hfull : σ.Full st P) (hg : σ.schema.Regular) (hst : st.schema = σ.schema)
    (hwhole : st.NoDangling) (hsub : Relation.ReflTransGen σ.schema.IsSubtype u t)
    (hrow : st.HasRow u x) (h : P t x) : P u x := by
  induction hsub using Relation.ReflTransGen.head_induction_on with
  | refl => exact h
  | head first _ ih =>
    exact hfull.subtype first hrow (ih (hasRow_of_isSubtype hg hst hwhole first hrow))

/-- And those further up. -/
theorem Full.ascends (hfull : σ.Full st P) (hg : σ.schema.Regular) (hst : st.schema = σ.schema)
    (hwhole : st.NoDangling) (hsub : Relation.ReflTransGen σ.schema.IsSubtype u t)
    (hrow : st.HasRow u x) (h : P u x) : P t x := by
  induction hsub using Relation.ReflTransGen.head_induction_on with
  | refl => exact h
  | head first _ ih =>
    exact ih (hasRow_of_isSubtype hg hst hwhole first hrow) (hfull.supertype first hrow h)

section Programs

variable {namer : Namer} {start : TableName} {result : Synthesis} {depth : Nat}
variable {name entry : String} {f g : DeleteFunction} {deleted deleted' : List Int}

/-- **Each table below that of a function has a function.** -/
theorem exists_entry (hg : σ.schema.Regular) (hsyn : σ.synthesize namer start = .ok result)
    (hf : (Program.mk result.registry.functions depth).lookup name = some f)
    (hsub : Relation.ReflTransGen σ.schema.IsSubtype u f.table) :
    ∃ entry g, (Program.mk result.registry.functions depth).lookup entry = some g ∧
      g.table.same u := by
  induction hsub using Relation.ReflTransGen.head_induction_on with
  | refl => exact ⟨name, f, hf, TableName.same_refl _⟩
  | @head u w first _ ih =>
    obtain ⟨entry, g, hlookup, hsame⟩ := ih
    have hserves := Program.serves_of_synthesize hsyn hlookup
    obtain ⟨captured, front, back, hblocks, hbody⟩ := hserves.body
    obtain ⟨ls, hls, part, rfl, hpart⟩ := Program.lined_of_synthesize hg hsyn hlookup hblocks hbody
    have hsub := first.congr (TableName.same_refl u) (TableName.same_symm hsame)
    -- the front of the subtypes has a block, which calls the function
    obtain ⟨hmeets, hneeds⟩ := hpart .subtypes (Schema.subtypes_mem hls)
    obtain ⟨b, hb⟩ := List.exists_mem_of_ne_nil _ (hneeds (.subtypes hsub))
    cases hmeets b hb with
    | @subtypes b _ _ _ _ complete =>
      obtain ⟨c, hc, hcu⟩ := complete hg u hsub
      have hcallee : c ∈ g.callees := by
        rw [DeleteFunction.callees, hblocks]
        exact List.mem_flatMap.2 ⟨_, List.mem_append_left _
          (List.mem_flatMap.2 ⟨_, Schema.subtypes_mem hls, hb⟩), hc⟩
      obtain ⟨g', hg'⟩ := Program.exists_callee hsyn hlookup hcallee
      exact ⟨c.function, g', hg', TableName.same_trans (hserves.callees c hcallee g' hg') hcu⟩

/-- **A deletion is confined to every full set that has its batch.** -/
theorem confined_of_delete (hg : σ.schema.Strict) (hclear : σ.IsClear)
    (hsyn : σ.synthesize namer start = .ok result) (hst : st.schema = σ.schema)
    (hwhole : st.NoDangling) (hf : (Program.mk result.registry.functions depth).lookup name = some f)
    (h : ((Program.mk result.registry.functions depth).delete st name ids).result = .ok deleted)
    (hfull : σ.Full st P) (hids : ∀ id ∈ ids, P f.table id) :
    σ.Confined st P ((Program.mk result.registry.functions depth).delete st name ids).store := by
  obtain ⟨f', hf', hconfined⟩ := confined_call hg hclear hst hwhole hfull
    (fun hf => Program.serves_of_synthesize hsyn hf) (Program.yields_of_delete h)
  rw [hf] at hf'
  cases hf'
  obtain ⟨hconfined', -⟩ := hconfined (.refl σ st P) fun id hid _ => hids id hid
  exact hconfined'

/-- **It does not matter where a deletion enters**, if the deletion through
either table succeeds. -/
theorem rows_eq_of_delete (hg : σ.schema.Strict) (hclear : σ.IsClear) (honly : σ.BridgesOnlyLink)
    (hsyn : σ.synthesize namer start = .ok result) (hst : st.schema = σ.schema)
    (hwhole : st.NoDangling) (hf : (Program.mk result.registry.functions depth).lookup name = some f)
    (hentry : (Program.mk result.registry.functions depth).lookup entry = some g)
    (hsub : Relation.ReflTransGen σ.schema.IsSubtype u f.table) (hsame : g.table.same u)
    (hrows : ∀ id ∈ ids, st.HasRow u id)
    (h : ((Program.mk result.registry.functions depth).delete st name ids).result = .ok deleted)
    (h' : ((Program.mk result.registry.functions depth).delete st entry ids).result = .ok deleted')
    (t : TableName) :
    ((Program.mk result.registry.functions depth).delete st entry ids).store.rows t =
      ((Program.mk result.registry.functions depth).delete st name ids).store.rows t := by
  obtain ⟨hintact, hfull, hgone⟩ := full_of_delete hg hclear honly hsyn hst hwhole hf h rfl
  obtain ⟨hintact', hfull', hgone'⟩ := full_of_delete hg hclear honly hsyn hst hwhole hentry h' rfl
  have hconfined {name : String} {f : DeleteFunction} {deleted : List Int} {P : RowSet}
      (hf : (Program.mk result.registry.functions depth).lookup name = some f)
      (h : ((Program.mk result.registry.functions depth).delete st name ids).result = .ok deleted)
      (hfull : σ.Full st P) (hids : ∀ id ∈ ids, P f.table id) :=
    confined_of_delete hg hclear hsyn hst hwhole hf h hfull hids
  refine rows_eq_of_confined hg.regular hst hintact' hintact (hconfined hentry h' hfull' hgone')
    (hconfined hentry h' hfull fun id hid => ?_) (hconfined hf h hfull' fun id hid => ?_) t
  · refine hfull.spelling (TableName.same_symm hsame) ?_
    exact hfull.descends hg.regular hst hwhole hsub (hrows id hid) (hgone id hid)
  · exact hfull'.ascends hg.regular hst hwhole hsub (hrows id hid)
      (hfull'.spelling hsame (hgone' id hid))

end Programs

end Setting

/-! ## Buildings and houses -/

/-- Bridges own only what they link where each table has a key, so that
there are none. -/
theorem Setting.bridgesOnlyLink_of_keyed {σ : Setting}
    (h : ∀ e ∈ σ.schema.links, (σ.schema.key? e.1).isSome) : σ.BridgesOnlyLink := by
  intro t b c n hbridge hlink
  obtain ⟨e, he, hsource, -⟩ := hlink.exists_links
  have hsome := h e he
  rw [Schema.key?_congr hsource, hbridge.key?_eq_none] at hsome
  cases hsome

/-- A valid store with a house, which is a building; nothing else is
anything, and the foreign keys are ordinary ones. -/
structure Setting.HasHouse (σ : Setting) (st : Store) : Prop where
  ordinary : σ.schema.Ordinary
  isSubtype : ∀ u t, σ.schema.IsSubtype u t ↔ u.same ⟨"city", "house"⟩ ∧ t.same ⟨"city", "building"⟩
  schema : st.schema = σ.schema
  valid : st.UniqueKeys ∧ st.KeysGiven ∧ st.NoDangling
  row : st.HasRow ⟨"city", "house"⟩ 1

theorem Setting.HasHouse.of_links {σ : Setting} {st : Store} {r : Row}
    (ordinary : σ.schema.Ordinary)
    (hkeys : ∀ e ∈ σ.schema.links, ∀ k ∈ σ.schema.key? e.1, sameName e.2.1 k →
      e.1.same ⟨"city", "house"⟩ ∧ e.2.2.same ⟨"city", "building"⟩)
    (hkey : σ.schema.key? ⟨"city", "house"⟩ = some "id")
    (hlink : σ.schema.Link ⟨"city", "house"⟩ "id" ⟨"city", "building"⟩)
    (schema : st.schema = σ.schema) (valid : st.UniqueKeys ∧ st.KeysGiven ∧ st.NoDangling)
    (hr : r ∈ st.rows ⟨"city", "house"⟩) (hv : r.get? "id" = some 1) : σ.HasHouse st where
  ordinary := ordinary
  isSubtype _ _ := isSubtype_iff_of_links hkeys hkey hlink (by decide +kernel)
  schema := schema
  valid := valid
  row := ⟨"id", schema ▸ hkey, r, hr, hv⟩

/-- Deletes row 1 through a function. -/
def deletionBy (result : Synthesis) (st : Store) (name : String) : Deletion :=
  Program.delete ⟨result.registry.functions, 8⟩ st name [1]

/-- **What deletions of row 1 come to** that enter through the building and
through the house. -/
def Setting.Enters (σ : Setting) (st : Store) (P : Deletion → Deletion → Prop) : Prop :=
  ∃ result f g, σ.synthesize (.new "del_" 63) ⟨"city", "building"⟩ = .ok result ∧
    (Program.mk result.registry.functions 8).lookup "del_building" = some f ∧
    f.table = ⟨"city", "building"⟩ ∧
    (Program.mk result.registry.functions 8).lookup "del_house" = some g ∧
    g.table = ⟨"city", "house"⟩ ∧
    P (deletionBy result st "del_building") (deletionBy result st "del_house")

theorem Setting.Enters.of_check {σ : Setting} {st : Store} {P : Deletion → Deletion → Prop}
    [∀ d d', Decidable (P d d')]
    (h : ((σ.synthesize (.new "del_" 63) ⟨"city", "building"⟩).toOption.any fun result =>
      ((Program.mk result.registry.functions 8).lookup "del_building").map (·.table) =
          some ⟨"city", "building"⟩ ∧
        ((Program.mk result.registry.functions 8).lookup "del_house").map (·.table) =
          some ⟨"city", "house"⟩ ∧
        P (deletionBy result st "del_building") (deletionBy result st "del_house")) = true) :
    σ.Enters st P := by
  cases hsyn : σ.synthesize (.new "del_" 63) ⟨"city", "building"⟩ with
  | error e =>
    rw [hsyn] at h
    cases h
  | ok result =>
    rw [hsyn] at h
    obtain ⟨hbuilding, hhouse, hP⟩ := of_decide_eq_true h
    obtain ⟨f, hf, hftable⟩ := Option.map_eq_some_iff.1 hbuilding
    obtain ⟨g, hg, hgtable⟩ := Option.map_eq_some_iff.1 hhouse
    exact ⟨result, f, g, hsyn, hf, hftable, hg, hgtable, hP⟩

/-- Walls are parts of a house and windows of a building, and a window may
say in which wall it is. -/
def estate : Setting where
  schema := ⟨"city", [cityTable "building" ["id"] [], cityTable "house" ["id"] [("id", "building")],
    cityTable "wall" ["id"] [("house", "house")],
    cityTable "window" ["id"] [("building", "building"), ("wall", "wall")]], []⟩
  classifier := .ofRecords [⟨"wall", "house", none, .composition⟩,
    ⟨"window", "building", none, .composition⟩] true
  discriminator := "class"

/-- A house with a wall and a window. -/
def estateStore (window : Row) : Store where
  schema := estate.schema
  contents := [(("city", "building"), [⟨[("id", 1)]⟩]), (("city", "house"), [⟨[("id", 1)]⟩]),
    (("city", "wall"), [⟨[("id", 1), ("house", 1)]⟩]), (("city", "window"), [window])]

theorem estateStore_hasHouse (window : Row)
    (hvalid : (estateStore window).UniqueKeys ∧ (estateStore window).KeysGiven ∧
      (estateStore window).NoDangling) : estate.HasHouse (estateStore window) :=
  .of_links (by decide +kernel) (by decide +kernel) (by decide +kernel) (by decide +kernel) rfl
    hvalid (r := ⟨[("id", 1)]⟩) (List.mem_singleton_self _) (by decide +kernel)

theorem estate_strict : estate.schema.Strict := by decide +kernel

theorem estate_bridgesOnlyLink : estate.BridgesOnlyLink :=
  Setting.bridgesOnlyLink_of_keyed (by decide +kernel)

/-- The estate can be deleted either way if the window is in no wall. -/
theorem estate_enters : estate.Enters (estateStore ⟨[("id", 1), ("building", 1)]⟩)
    fun building house => building.result = .ok [1] ∧ house.result = .ok [1] := by
  refine .of_check ?_
  -- the recursions that do not evaluate are followed for as long as they last here
  delta Setting.synthesize Setting.cutCycles Setting.cutTable Setting.leadsBack Setting.cutBlock
    Setting.cutNote? Registry.ownerCallReaches deletionBy Program.delete Program.call
    Program.call._f Block.run BridgeCascade.run runLocalDelete Store.deleteWhere
  rw [← Setting.visitFor_eq _ 12]
  delta Setting.visitFor Setting.visitFor._f Setting.write Setting.draft Setting.body
    Setting.dispatch Schema.classMap Schema.enterClasses
  rw [← Schema.classesBelowFor_eq 4, ← Registry.searchFor_eq 12, ← Store.enforceFor_eq 9]
  decide +kernel

/-- Notes go with the house they are at, but they are shared by the building
that it is and by a folder. -/
def lodge : Setting where
  schema := ⟨"city", [cityTable "building" ["id"] [], cityTable "house" ["id"] [("id", "building")],
    cityTable "folder" ["id"] [],
    cityTable "note" ["id"] [("place", "building"), ("place", "house"), ("folder", "folder")]], []⟩
  classifier := .ofRecords [⟨"note", "building", none, .aggregation⟩,
    ⟨"note", "house", none, .composition⟩, ⟨"note", "folder", none, .aggregation⟩] true
  discriminator := "class"

/-- A house with a note that is in a folder. -/
def lodgeStore : Store where
  schema := lodge.schema
  contents := [(("city", "building"), [⟨[("id", 1)]⟩]), (("city", "house"), [⟨[("id", 1)]⟩]),
    (("city", "folder"), [⟨[("id", 1)]⟩]),
    (("city", "note"), [⟨[("id", 1), ("place", 1), ("folder", 1)]⟩])]

/-- Deeds are shared by houses and by the links of themes to buildings. -/
def manor : Setting where
  schema := ⟨"city", [cityTable "building" ["id"] [],
    cityTable "house" ["id"] [("id", "building"), ("deed", "deed")], cityTable "deed" ["id"] [],
    cityTable "theme" ["id"] [], cityTable "building_theme" ["building", "theme"]
      [("building", "building"), ("theme", "theme"), ("deed", "deed")]], []⟩
  classifier := .ofRecords [⟨"deed", "house", none, .aggregation⟩,
    ⟨"deed", "building_theme", none, .aggregation⟩] true
  discriminator := "class"

/-- A house with a deed that a link names as well. -/
def manorStore : Store where
  schema := manor.schema
  contents := [(("city", "building"), [⟨[("id", 1)]⟩]),
    (("city", "house"), [⟨[("id", 1), ("deed", 1)]⟩]), (("city", "deed"), [⟨[("id", 1)]⟩]),
    (("city", "theme"), [⟨[("id", 1)]⟩]),
    (("city", "building_theme"), [⟨[("building", 1), ("theme", 1), ("deed", 1)]⟩])]

/-- That a house is a building is listed with another table. -/
def cottage : Setting where
  schema := ⟨"city", [cityTable "building" ["id"] [], cityTable "house" ["id"] [],
    { cityTable "annex" ["id"] [] with
      foreignKeys := (cityTable "house" ["id"] [("id", "building")]).foreignKeys }], []⟩
  classifier := .ofRecords [] true
  discriminator := "class"

/-- Houses are listed twice, and only the second time as buildings. -/
def duplex : Setting where
  schema := ⟨"city", [cityTable "building" ["id"] [], cityTable "house" ["id"] [],
    cityTable "house" ["id"] [("id", "building")]], []⟩
  classifier := .ofRecords [] true
  discriminator := "class"

/-- A house and nothing else. -/
def houseStore (g : Schema) : Store where
  schema := g
  contents := [(("city", "building"), [⟨[("id", 1)]⟩]), (("city", "house"), [⟨[("id", 1)]⟩])]

end DeleteCascade
