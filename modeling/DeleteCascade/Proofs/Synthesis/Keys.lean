import DeleteCascade.Proofs.Synthesis.Inheritance
import DeleteCascade.Proofs.Synthesis.OwnerCalls
/-!
# Programs — ids that are handed on

A function is called with keys of its table. It compares them with the columns
that point at the table, and hands on what it reads in the columns that point
elsewhere. That is right where these columns hold keys, which is left to the
schema: which column of its target a foreign key references is asked for
subtypes only. So the ids that are handed on are keys where the foreign keys
that they are handed on along reference keys (`handsKeys_of_synthesize`); where
one does not, unrelated numbers are compared and rows go that nothing that goes
owned (`not_handsKeys`).
-/

namespace DeleteCascade

namespace Schema

variable {g : Schema} {t u : TableName} {c : String} {fk : ForeignKey}

/-- **A column points at the keys of a table**: it has a foreign key to the
table, and whichever it has to the table references its key. -/
structure PointsAtKeys (g : Schema) (u : TableName) (c : String) (t : TableName) : Prop where
  link : g.Link u c t
  toKey : ∀ fk ∈ g.foreignKeys, ∀ a p, fk.source.same u → fk.target.same t →
    fk.columns? = some (a, p) → sameName a c → g.IsKey t p

theorem mem_foreignKeys_of_lists (h : g.Lists t fk) : fk ∈ g.foreignKeys := by
  obtain ⟨d, hd, hfk⟩ := h
  exact mem_foreignKeys.2 ⟨d, (mem_of_table? hd).1, hfk⟩

/-- The two foreign keys that a bridge is read off: one enters the table it is
seen from, the other is listed with it. -/
theorem IsBridge.sides {b : Bridge} (h : g.IsBridge t b) : g.Link b.table b.nearColumn t ∧
    ∃ fk, g.Lists b.table fk ∧ fk.target = b.farTable ∧
      fk.columns? = some (b.farColumn, b.farKey) := by
  obtain ⟨fk, hfk, i, henter, hshape⟩ := h
  obtain ⟨hmem, htarget⟩ := mem_foreignKeysTo.1 hfk
  obtain ⟨hres, -, hof⟩ := enter_eq_ok_some henter
  obtain ⟨a, p, d, e, hcols, -, -, heq⟩ := resolve_eq_ok.1 hres
  rw [hshape] at hof
  obtain ⟨-, d', hd', hbridge⟩ := shapeOf_eq_bridge hof
  obtain ⟨-, -, sibling, -, hsibling, rfl, -⟩ := sides_of_bridge? hbridge
  obtain ⟨far, hfar, hfarCols, hfarTarget, -⟩ := mem_siblings hsibling
  refine ⟨?_, far, ⟨d', hd', hfar⟩, hfarTarget, hfarCols⟩
  rw [heq]
  exact (link_of_mem_foreignKeys hmem hcols).congr (by simp) (by simp) htarget

end Schema

/-- **A function takes and hands on keys**: what it compares with its batch are
columns that point at the keys of its table, and what it calls with it finds in
columns that reference keys. -/
structure DeleteFunction.HandsKeys (g : Schema) (f : DeleteFunction) : Prop where
  key : g.key? f.table = some f.keyColumn
  parts : ∀ b, .selfParts b ∈ f.blocks → g.PointsAtKeys f.table b.column f.table
  children : ∀ b, .childCascade b ∈ f.blocks →
    g.PointsAtKeys b.child b.column f.table ∧ g.key? b.child = some b.childKey
  bridges : ∀ b, .bridgeCascade b ∈ f.blocks → g.PointsAtKeys b.bridge b.nearColumn f.table
  farSides : ∀ b, .bridgeCascade b ∈ f.blocks → ∀ c, b.callee = some c →
    c.table.same b.target ∧ g.IsKey b.target b.targetKey
  cleanups : ∀ b, .referencedCleanup b ∈ f.blocks →
    b.callee.table.same b.target ∧ g.IsKey b.target b.targetKey

namespace Setting

variable {s : Setting} {t root : TableName} {namer : Namer} {result : Synthesis}
variable {f : DeleteFunction} {blocks : List (Block TableName)}

/-- **Ids are handed on along a foreign key** with this column: the rows at one
of its ends may be owned by those at the other, or it is a side of a bridge. -/
inductive HandsOn (s : Setting) (fk : ForeignKey) (a : String) : Prop
  | child (owned : s.MayOwn fk.source fk.target a)
  | referenced {t : TableName} (lists : s.schema.Lists t fk) (owned : s.MayOwn fk.target t a)
  | near {t : TableName} {b : Bridge} (bridge : s.schema.IsBridge t b)
      (source : fk.source.same b.table) (target : fk.target.same t)
      (column : sameName a b.nearColumn)
  | far {t : TableName} {b : Bridge} (bridge : s.schema.IsBridge t b)
      (lists : s.schema.Lists b.table fk) (target : fk.target = b.farTable)
      (column : a = b.farColumn) (owned : s.MayOwn b.farTable t b.table.name)

/-- **Ownership goes by keys**: where ids are handed on along a foreign key to a
table with a key, it references the key, and the parts that a table lists are
its own. -/
structure OwnsByKeys (s : Setting) : Prop where
  toKey : ∀ fk ∈ s.schema.foreignKeys, ∀ a p, fk.columns? = some (a, p) → s.HandsOn fk a →
    ∀ k, s.schema.key? fk.target = some k → sameName k p
  ownParts : ∀ t fk a p, s.schema.Lists t fk → fk.source.same fk.target →
    fk.columns? = some (a, p) → s.MayOwn t t a → fk.source.same t

/-- Where every foreign key references the key of its target and is listed with
its source, ownership goes by keys. -/
theorem OwnsByKeys.of_regular (hg : s.schema.Regular) : s.OwnsByKeys := by
  constructor
  · intro fk hfk a p hcols _ k hk
    obtain ⟨d, hd, hmem⟩ := Schema.mem_foreignKeys.1 hfk
    obtain ⟨k', hk', hsame⟩ := hg.toKey d hd fk hmem a p hcols
    rw [hk] at hk'
    cases hk'
    exact hsame
  · rintro t fk a p ⟨d, hd, hmem⟩ - - -
    obtain ⟨hd, hsame⟩ := Schema.mem_of_table? hd
    exact TableName.same_trans (hg.atSource d hd fk hmem) hsame

/-! ## What the blocks are read off -/

/-- The foreign key behind the parts of a table. -/
theorem exists_self_of_selfParts (h : (s.body t).outcome = .ok blocks)
    {b : SelfParts TableName} (hb : .selfParts b ∈ blocks) :
    ∃ fk p, s.schema.Lists t fk ∧ fk.source.same fk.target ∧ fk.columns? = some (b.column, p) ∧
      s.MayOwn t t b.column := by
  obtain ⟨rs, hrs, r, hr, hcomp, rfl⟩ := (selfParts_mem_body h).1 hb
  obtain ⟨hself, fk, hlists, hres⟩ := (Schema.mem_selfReferences_iff hrs).1 hr
  obtain ⟨a, p, d, e, hcols, -, -, rfl⟩ := Schema.resolve_eq_ok.1 hres
  exact ⟨fk, p, hlists, hself, hcols, (classifies_of_eq hcomp).mayOwn rfl⟩

/-- The foreign key behind a cleanup. -/
theorem exists_reference_of_cleanup (h : (s.body t).outcome = .ok blocks)
    {b : ReferencedCleanup TableName} (hb : .referencedCleanup b ∈ blocks) :
    ∃ fk, s.schema.Lists t fk ∧ fk.target = b.target ∧
      fk.columns? = some (b.column, b.targetKey) ∧ s.MayOwn b.target t b.column ∧
        b.callee = b.target := by
  obtain ⟨parts, children, subtypes, targets, parent, hsections, rfl⟩ := sections_of_body h
  obtain ⟨rs, hrs, htargets⟩ := hsections.targets
  obtain ⟨slot, r, check, hslot, heq⟩ := mem_cleanups.1 ((hsections.mem_iff hb).2.2.2 rfl)
  cases heq
  obtain ⟨r', hr', out, hout, hmem⟩ := Draft.mem_of_gather htargets (List.mem_of_getElem? hslot)
  obtain ⟨kind, hkind, hcase⟩ := ownedTarget_eq_ok hout
  split at hcase
  · rename_i howning
    obtain ⟨check', -, rfl⟩ := hcase
    cases List.mem_singleton.1 hmem
    obtain ⟨-, fk, hlists, hres⟩ := (Schema.mem_referenced_iff hrs).1 hr'
    obtain ⟨a, p, d, e, hcols, -, -, rfl⟩ := Schema.resolve_eq_ok.1 hres
    exact ⟨fk, hlists, rfl, hcols, (classifies_of_eq hkind).mayOwn howning, rfl⟩
  · rw [hcase] at hmem
    cases hmem

/-! ## What is handed on -/

/-- A table that is called has a key. -/
theorem exists_key_of_callee (h : s.synthesize namer root = .ok result)
    (hf : f ∈ result.registry.functions) {c : Callee} (hc : c ∈ f.callees) :
    ∃ k, s.schema.key? c.table = some k := by
  obtain ⟨g, hg, -, hsame⟩ := (isClosed_of_synthesize h).exists_called hf hc
  obtain ⟨e, he, hd, rfl, -⟩ := Registry.mem_functions hg
  refine ⟨e.function.keyColumn, ?_⟩
  rw [← Schema.key?_congr hsame]
  exact ((sound_of_synthesize h).body he hd).1

namespace OwnsByKeys

variable {k c : String} {u : TableName}

/-- Where rows may be owned along a column that links to a table, the column
points at its keys. -/
theorem pointsAtKeys (hs : s.OwnsByKeys) (hk : s.schema.key? t = some k)
    (hlink : s.schema.Link u c t) (hown : s.MayOwn u t c) : s.schema.PointsAtKeys u c t := by
  refine ⟨hlink, fun fk hfk a p hsource htarget hcols ha => ⟨k, hk, ?_⟩⟩
  exact hs.toKey fk hfk a p hcols (.child (hown.congr (TableName.same_symm hsource)
    (TableName.same_symm htarget) (sameName_symm ha))) k (by rw [Schema.key?_congr htarget, hk])

/-- The near side of a bridge points at the keys of the table it enters. -/
theorem pointsAtKeys_near (hs : s.OwnsByKeys) (hk : s.schema.key? t = some k) {b : Bridge}
    (hb : s.schema.IsBridge t b) : s.schema.PointsAtKeys b.table b.nearColumn t := by
  refine ⟨hb.sides.1, fun fk hfk a p hsource htarget hcols ha => ⟨k, hk, ?_⟩⟩
  exact hs.toKey fk hfk a p hcols (.near hb hsource htarget ha) k
    (by rw [Schema.key?_congr htarget, hk])

/-- The far side of a bridge, where it is owned, references the key of the far
table. -/
theorem isKey_far (hs : s.OwnsByKeys) {b : Bridge} (hb : s.schema.IsBridge t b)
    (hk : s.schema.key? b.farTable = some k) (hown : s.MayOwn b.farTable t b.table.name) :
    s.schema.IsKey b.farTable b.farKey := by
  obtain ⟨-, fk, hlists, htarget, hcols⟩ := hb.sides
  exact ⟨k, hk, hs.toKey fk (Schema.mem_foreignKeys_of_lists hlists) _ _ hcols
    (.far hb hlists htarget rfl hown) k (by rw [htarget, hk])⟩

section Written

variable {notes : List String} {drafted : List (Block TableName)} {callee : TableName → Callee}
variable {w : Block TableName → Block Callee}

/-- Parts point at the keys of their table. -/
theorem pointsAtKeys_parts (hs : s.OwnsByKeys) (hw : s.Writes notes f t drafted callee w)
    (hk : s.schema.key? f.table = some k) {b : SelfParts Callee} (hb : .selfParts b ∈ f.blocks) :
    s.schema.PointsAtKeys f.table b.column f.table := by
  obtain ⟨b₀, hb₀, hwritten⟩ := hw.exists_drafted hb
  obtain ⟨part, rfl⟩ := hwritten.of_selfParts
  cases hwritten.selfParts
  obtain ⟨fk, p, hlists, hself, hcols, hown⟩ :=
    exists_self_of_selfParts (body_of_draft hw.draft) hb₀
  have hsource := hs.ownParts t fk part.column p hlists hself hcols hown
  have htarget := TableName.same_trans (TableName.same_symm hself) hsource
  have hfk := Schema.mem_foreignKeys_of_lists hlists
  have hlink := (Schema.link_of_mem_foreignKeys hfk hcols).congr
    (TableName.same_trans hsource hw.table) (sameName_refl _)
    (TableName.same_trans htarget hw.table)
  exact hs.pointsAtKeys hk hlink (hown.congr hw.table hw.table (sameName_refl _))

/-- What is cleaned up is found by its key. -/
theorem isKey_cleanup (hs : s.OwnsByKeys) (hw : s.Writes notes f t drafted callee w)
    {b : ReferencedCleanup Callee} (hb : .referencedCleanup b ∈ f.blocks)
    (hk : s.schema.key? b.callee.table = some k) :
    b.callee.table.same b.target ∧ s.schema.IsKey b.target b.targetKey := by
  obtain ⟨b₀, hb₀, hwritten⟩ := hw.exists_drafted hb
  have hkind := hwritten.kind
  cases b₀ with
  | referencedCleanup cleanup =>
    cases hwritten.referencedCleanup
    obtain ⟨fk, hlists, htarget, hcols, hown, hcallee⟩ :=
      exists_reference_of_cleanup (body_of_draft hw.draft) hb₀
    dsimp only at hk ⊢
    rw [hw.named, hcallee] at hk
    rw [hw.named, hcallee]
    refine ⟨TableName.same_refl _, k, hk, ?_⟩
    exact hs.toKey fk (Schema.mem_foreignKeys_of_lists hlists) _ _ hcols
      (.referenced hlists (htarget ▸ hown)) k (htarget ▸ hk)
  | _ => cases hkind

end Written

end OwnsByKeys

/-- **Where ownership goes by keys, every function takes and hands on keys.** -/
theorem handsKeys_of_synthesize (hs : s.OwnsByKeys) (h : s.synthesize namer root = .ok result)
    (hf : f ∈ result.registry.functions) : f.HandsKeys s.schema := by
  obtain ⟨t, drafted, callee, w, hwrites⟩ := writes_of_synthesize h hf
  have hcalled {b : Block Callee} (hb : b ∈ f.blocks) {c : Callee} (hc : c ∈ b.callees) :
      ∃ k, s.schema.key? c.table = some k :=
    exists_key_of_callee h hf (List.mem_flatMap.2 ⟨b, hb, hc⟩)
  obtain ⟨hkey, captured, front, back, hblocks, hplans⟩ : s.schema.key? f.table = some f.keyColumn ∧
      ∃ captured front back, f.blocks = front ++ .localDelete captured :: back ∧
        s.IsBody f.table (·.table) result.notes captured front back := by
    obtain ⟨e, he, hd, rfl, -⟩ := Registry.mem_functions hf
    exact (sound_of_synthesize h).body he hd
  replace hplans := hblocks ▸ hplans.plans
  constructor
  case key => exact hkey
  case parts => exact fun b hb => hs.pointsAtKeys_parts hwrites hkey hb
  case children =>
    intro b hb
    cases hplans _ hb with
    | childCascade link other key notKey classified owning callee shared unshared entered
        shareable =>
      exact ⟨hs.pointsAtKeys hkey link (classified.mayOwn owning), key⟩
  case bridges =>
    intro b hb
    cases hplans _ hb with
    | bridgeCascade isBridge table near far target targetKey classified check owned unowned =>
      rw [table, near]
      exact hs.pointsAtKeys_near hkey isBridge
  case farSides =>
    intro b hb c hc
    cases hplans _ hb with
    | @bridgeCascade _ br kind isBridge table near far target targetKey classified check owned
        unowned =>
      have howning : kind.isOwning = true := by
        by_contra hnot
        rw [unowned (Bool.eq_false_iff.2 hnot)] at hc
        cases hc
      obtain ⟨c', hc', hsame⟩ := owned howning
      rw [hc] at hc'
      cases hc'
      obtain ⟨k, hk⟩ := hcalled hb (c := c) (by simp [Block.callees, hc])
      rw [Schema.key?_congr hsame] at hk
      rw [target, targetKey]
      exact ⟨hsame, hs.isKey_far isBridge hk (classified.mayOwn howning)⟩
  case cleanups =>
    intro b hb
    obtain ⟨k, hk⟩ := hcalled hb (List.mem_singleton_self b.callee)
    exact hs.isKey_cleanup hwrites hb hk

end Setting

/-- The functions of the city hand on keys: buildings have notes that point at
them and an address that they point at. -/
theorem Setting.handsKeys_of_synthesize_city : city.OwnsByKeys ∧ ∃ result f,
    city.synthesize (.new "del_" 63) ⟨"city", "building"⟩ = .ok result ∧
      f ∈ result.registry.functions ∧ f.table = ⟨"city", "building"⟩ ∧
      f.HandsKeys city.schema := by
  have hkeys : city.OwnsByKeys := .of_regular (by decide)
  obtain ⟨result, f, hsyn, -, hf, htable, -⟩ := exists_cityDeletion
  have hmem := (Program.mem_of_lookup hf).1
  exact ⟨hkeys, result, f, hsyn, hmem, htable, Setting.handsKeys_of_synthesize hkeys hsyn hmem⟩

/-- Notes belong to buildings, and point at them by their code, which is not
their key. -/
def codes : Setting where
  schema := ⟨"city", [(cityTable "building" ["id"] []).addColumn ⟨"code", "bigint", false⟩,
    ((cityTable "note" ["id"] []).addColumn ⟨"building", "bigint", true⟩).addReference
      "building" "building" "code" .noAction], []⟩
  classifier := .ofRecords [⟨"note", "building", none, .composition⟩] true
  discriminator := "class"

/-- A note of the second building, whose code is the key of the first. -/
def codeStore : Store where
  schema := codes.schema
  contents := [(("city", "building"), [⟨[("id", 1), ("code", 7)]⟩, ⟨[("id", 2), ("code", 1)]⟩]),
    (("city", "note"), [⟨[("id", 5), ("building", 1)]⟩])]

/-- **Rows go that nothing that goes owned**: the function of buildings compares
codes with keys, and deleting one building takes the note of the other. -/
theorem not_handsKeys : ∃ result f,
    codes.synthesize (.new "del_" 63) ⟨"city", "building"⟩ = .ok result ∧
      f ∈ result.registry.functions ∧ f.table = ⟨"city", "building"⟩ ∧
      ¬ f.HandsKeys codes.schema ∧
      ((Program.mk result.registry.functions 8).delete codeStore f.name [1]).result = .ok [1] ∧
      ((Program.mk result.registry.functions 8).delete codeStore f.name [1]).store.contents =
        [(("city", "building"), [⟨[("id", 2), ("code", 1)]⟩]), (("city", "note"), [])] := by
  have hfound : ∃ result f g,
      codes.synthesize (.new "del_" 63) ⟨"city", "building"⟩ = .ok result ∧
      f ∈ result.registry.functions ∧ g ∈ result.registry.functions ∧
      f.table = ⟨"city", "building"⟩ ∧
      .childCascade ⟨⟨"city", "note"⟩, "id", "building", false, none, ⟨⟨"city", "note"⟩, g.name⟩⟩ ∈
        f.blocks ∧
      ((Program.mk result.registry.functions 8).delete codeStore f.name [1]).result = .ok [1] ∧
      ((Program.mk result.registry.functions 8).delete codeStore f.name [1]).store.contents =
        [(("city", "building"), [⟨[("id", 2), ("code", 1)]⟩]), (("city", "note"), [])] := by
    refine exists_functions ?_
    -- the recursions that do not evaluate are followed for as long as they last here
    delta Setting.synthesize Setting.cutCycles Setting.cutTable Setting.leadsBack Setting.cutBlock
      Setting.cutNote? Registry.ownerCallReaches Program.delete Program.call Program.call._f
      Block.run BridgeCascade.run runLocalDelete Store.deleteWhere
    rw [← Setting.visitFor_eq _ 12, ← Registry.searchFor_eq 12, ← Store.enforceFor_eq 9]
    decide +kernel
  obtain ⟨result, f, g, hsyn, hf, -, htable, hcascade, hrun⟩ := hfound
  refine ⟨result, f, hsyn, hf, htable, fun hkeys => ?_, hrun⟩
  obtain ⟨hpoints, -⟩ := hkeys.children _ hcascade
  have hcode := hpoints.toKey
    ⟨"note_building_fk", ⟨"city", "note"⟩, ["building"], ⟨"city", "building"⟩, ["code"], .noAction⟩
    (by decide) "building" "code" (TableName.same_refl _) (by rw [htable]; decide) rfl
    (sameName_refl _)
  rw [htable] at hcode
  exact absurd hcode (by decide)

end DeleteCascade
