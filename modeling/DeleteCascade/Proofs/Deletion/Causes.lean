import DeleteCascade.Proofs.Deletion.SelfContained
/-!
# Deletion — why a deletion fails

A deletion fails for what is in the store, or because the calls go too deep:
whatever the functions name is there (`Setting.delete_error`). Functions call
only functions there are, and select, delete and cut off rows only of tables
and columns that the schema lists; where rows are cut off the column takes
NULL (`Setting.exists_setNullWhere`), also after loops of owners were cut.
What is left are the foreign keys that act when rows go, and these lead to
tables that no function may ever have been made for: one that restricts may
find a row, and one that clears its column may find it NOT NULL
(`Store.error_of_enforce`).
-/

namespace DeleteCascade

/-- **A complete schema** lists each table once, and its foreign keys are
listed under their own source table and name columns of tables that there
are. -/
structure Schema.Complete (g : Schema) : Prop where
  once : g.tables.Pairwise fun t u => t.name.same u.name = false
  atSource : ∀ t ∈ g.tables, ∀ fk ∈ t.foreignKeys, fk.source.same t.name
  sources : ∀ fk ∈ g.foreignKeys, ∃ d, g.table? fk.source = some d ∧
    ∀ c ∈ fk.sourceColumns, (d.column? c).isSome
  targets : ∀ fk ∈ g.foreignKeys, ∃ d, g.table? fk.target = some d ∧
    ∀ c ∈ fk.targetColumns, (d.column? c).isSome

instance (g : Schema) : Decidable g.Complete :=
  decidable_of_iff
    ((g.tables.Pairwise fun t u => t.name.same u.name = false) ∧
      (∀ t ∈ g.tables, ∀ fk ∈ t.foreignKeys, fk.source.same t.name) ∧
      (∀ fk ∈ g.foreignKeys, (g.table? fk.source).any fun d =>
        fk.sourceColumns.all fun c => (d.column? c).isSome) ∧
      ∀ fk ∈ g.foreignKeys, (g.table? fk.target).any fun d =>
        fk.targetColumns.all fun c => (d.column? c).isSome)
    ⟨fun ⟨once, atSource, sources, targets⟩ => ⟨once, atSource,
        fun fk hfk => by simpa [Option.any_eq_true] using sources fk hfk,
        fun fk hfk => by simpa [Option.any_eq_true] using targets fk hfk⟩,
      fun h => ⟨h.once, h.atSource,
        fun fk hfk => by simpa [Option.any_eq_true] using h.sources fk hfk,
        fun fk hfk => by simpa [Option.any_eq_true] using h.targets fk hfk⟩⟩

/-- **Why a deletion fails on the stores over a schema.** -/
inductive RunError.Expected (g : Schema) : RunError → Prop
  /-- Rows are left that point at deleted ones, along a key that restricts. -/
  | referenced {fk : ForeignKey} (listed : fk ∈ g.foreignKeys) (cascades : fk.onDelete ≠ .cascade)
      (clears : fk.onDelete ≠ .setNull) :
      Expected g (.store (.stillReferenced fk.name fk.source.qualified))
  /-- A key clears its column when rows go, and the column is NOT NULL. -/
  | notNull {fk : ForeignKey} {c p : String} (listed : fk ∈ g.foreignKeys)
      (clears : fk.onDelete = .setNull) (columns : fk.columns? = some (c, p))
      (never : g.isNullable fk.source c = false) :
      Expected g (.store (.notNull fk.source.qualified c))
  | tooDeep {function : String} {depth : Nat} : Expected g (.tooDeep function depth)

/-! ## Statements that fail -/

namespace Enforcement

/-- What is to be done is about a foreign key of the schema. -/
def ListedIn (e : Enforcement) (g : Schema) : Prop :=
  e.foreignKey ∈ g.foreignKeys ∧ ∃ p, e.foreignKey.columns? = some (e.column, p)

theorem listedIn_of_mem {g : Schema} {t : TableName} {removed : List Row} {e : Enforcement}
    (h : e ∈ Store.enforcements g t removed) : e.ListedIn g := by
  obtain ⟨fk, hfk, c, p, hcols, -, rfl⟩ := Store.mem_enforcements.1 h
  exact ⟨(Schema.mem_foreignKeysTo.1 hfk).1, p, hcols⟩

end Enforcement

namespace Schema.Complete

variable {g : Schema} {fk : ForeignKey} {u t : TableName} {c p : String}

/-- The source of a foreign key lists the key's column. -/
theorem column?_source (h : g.Complete) (hfk : fk ∈ g.foreignKeys)
    (hcols : fk.columns? = some (c, p)) :
    ∃ d, g.table? fk.source = some d ∧ (d.column? c).isSome := by
  obtain ⟨d, hd, hcolumns⟩ := h.sources fk hfk
  refine ⟨d, hd, hcolumns c ?_⟩
  unfold ForeignKey.columns? at hcols
  split at hcols
  · rename_i hsource htarget
    cases hcols
    simp [hsource]
  · cases hcols

/-- The column of a link is listed. -/
theorem column?_of_link (h : g.Complete) (hlink : g.Link u c t) :
    ∃ d, g.table? u = some d ∧ (d.column? c).isSome := by
  obtain ⟨fk, hfk, hsource, -, a, p, hcols, ha⟩ := hlink
  obtain ⟨d, hd, hcol⟩ := h.column?_source hfk hcols
  exact ⟨d, by rw [← Schema.table?_congr g hsource, hd], by rwa [← Table.column?_congr d ha]⟩

end Schema.Complete

namespace Store

variable {s : Store} {t : TableName} {c : String} {test : Row → Bool} {err : StoreError}

/-- A column that is listed can only not be cleared if it never is NULL. -/
theorem error_of_setNullWhere {d : Table} (hd : s.schema.table? t = some d)
    (hlisted : (d.column? c).isSome) (h : s.setNullWhere t c test = .error err) :
    err = .notNull t.qualified c ∧ s.schema.isNullable t c = false := by
  have hnot : s.schema.isNullable t c = false := by
    refine Bool.eq_false_iff.2 fun hnull => ?_
    obtain ⟨rs, hset⟩ := exists_setNullWhere hd hlisted hnull test
    rw [hset] at h
    cases h
  refine ⟨?_, hnot⟩
  obtain ⟨col, hcol⟩ := Option.isSome_iff_exists.1 hlisted
  simp only [setNullWhere, table, hd, hcol] at h
  split at h
  · cases h
    rfl
  · cases h

/-- **Enforcement fails only as the foreign keys of the schema do.** -/
theorem error_of_enforce {g : Schema} (hg : g.Complete) (hs : s.schema = g)
    {pending : List Enforcement} (hpending : ∀ e ∈ pending, e.ListedIn g)
    (h : s.enforce pending = .error err) : RunError.Expected g (.store err) := by
  have hrest {e : Enforcement} {rest : List Enforcement} (h : ∀ e' ∈ e :: rest, e'.ListedIn g) :
      ∀ e' ∈ rest, e'.ListedIn g := fun e' he' => h e' (by simp [he'])
  have hacts {e : Enforcement} (he : e.ListedIn g) (hcascade : e.foreignKey.onDelete ≠ .cascade)
      (hclear : e.foreignKey.onDelete ≠ .setNull)
      (h : Except.error (.stillReferenced e.foreignKey.name e.foreignKey.source.qualified) =
        (.error err : Except StoreError Store)) : RunError.Expected g (.store err) := by
    cases h
    exact .referenced he.1 hcascade hclear
  fun_induction enforce s pending with
  | case1 s => cases h
  | case2 s e rest child hact err' htable =>
    obtain ⟨hfk, p, hcols⟩ := hpending e (by simp)
    obtain ⟨d, hd, -⟩ := hg.column?_source hfk hcols
    simp only [table, child, hs, hd] at htable
    cases htable
  | case3 s e rest child hact d htable hnone ih => exact ih hs (hrest hpending) h
  | case4 s e rest child hact d htable r removed hsome ih =>
    refine ih hs (fun e' he' => ?_) h
    rcases List.mem_append.1 he' with he' | he'
    · exact hs ▸ Enforcement.listedIn_of_mem he'
    · exact hrest hpending e' he'
  | case5 s e rest child hact err' hset =>
    cases h
    obtain ⟨hfk, p, hcols⟩ := hpending e (by simp)
    obtain ⟨d, hd, hlisted⟩ := hg.column?_source hfk hcols
    obtain ⟨rfl, hnot⟩ := error_of_setNullWhere (hs ▸ hd) hlisted hset
    exact .notNull hfk hact hcols (hs ▸ hnot)
  | case6 s e rest child hact rs s' hset ih =>
    obtain ⟨-, rfl⟩ := setNullWhere_eq_ok hset
    exact ih hs (hrest hpending) h
  | case7 s e rest child hact hany =>
    exact hacts (hpending e (by simp)) (by simp [hact]) (by simp [hact]) h
  | case8 s e rest child hact hnone ih => exact ih hs (hrest hpending) h
  | case9 s e rest child hact hany =>
    exact hacts (hpending e (by simp)) (by simp [hact]) (by simp [hact]) h
  | case10 s e rest child hact hnone ih => exact ih hs (hrest hpending) h
  | case11 s e rest child hact hany =>
    exact hacts (hpending e (by simp)) (by simp [hact]) (by simp [hact]) h
  | case12 s e rest child hact hnone ih => exact ih hs (hrest hpending) h

theorem error_of_deleteWhere (hg : s.schema.Complete) (ht : (s.schema.table? t).isSome)
    (h : s.deleteWhere t test = .error err) : RunError.Expected s.schema (.store err) := by
  obtain ⟨d, hd⟩ := Option.isSome_iff_exists.1 ht
  simp only [deleteWhere, table, hd] at h
  cases henforce : (s.removeRows t test).enforce
      (enforcements s.schema t ((s.rows t).filter test)) with
  | ok s' =>
    rw [henforce] at h
    cases h
  | error e =>
    rw [henforce] at h
    cases h
    exact error_of_enforce (s := s.removeRows t test) hg rfl (fun e he => Enforcement.listedIn_of_mem he) henforce

end Store

/-! ## Where rows are cut off -/

/-- **A function cuts off rows**: those that point through this column at the
rows to delete. -/
inductive DeleteFunction.CutsOff (f : DeleteFunction) : TableName → String → Prop
  | parts {b : SelfParts Callee} (block : .selfParts b ∈ f.blocks) (detach : b.detach = true) :
      CutsOff f f.table b.column
  | children {b : ChildCascade Callee} (block : .childCascade b ∈ f.blocks)
      (detach : b.detach = true) : CutsOff f b.child b.column

namespace Setting

variable {σ : Setting} {namer : Namer} {root t : TableName} {result : Synthesis} {c : String}
variable {st s : Store} {f : DeleteFunction} {name : String} {depth : Nat}

/-- **Rows are cut off only by columns that are listed and take NULL.** -/
theorem column?_of_cutsOff (hg : σ.schema.Complete) (hsyn : σ.synthesize namer root = .ok result)
    (hf : (Program.mk result.registry.functions depth).lookup name = some f)
    (h : f.CutsOff t c) : ∃ d, σ.schema.table? t = some d ∧ (d.column? c).isSome ∧
      σ.schema.isNullable t c = true := by
  cases h with
  | parts block detach =>
    obtain ⟨t, drafted, callee, w, hw⟩ := Program.exists_draft hsyn hf
    obtain ⟨b', hb', hwritten⟩ := hw.exists_drafted block
    obtain ⟨b', rfl⟩ := hwritten.of_selfParts
    cases hwritten.selfParts
    obtain ⟨rs, r, hrs, hr, rfl⟩ := selfReferences_of_mem_body (body_of_draft hw.draft) hb'
    obtain ⟨out, hout, hmem, -⟩ := mem_selfReferences hrs hr
    obtain ⟨d, hd, hmap⟩ := Schema.outgoing_eq_ok hout
    obtain ⟨fk, hfk, hres⟩ := Schema.exists_of_mapM_ok hmap hmem
    obtain ⟨hdmem, hsame⟩ := Schema.mem_of_table? hd
    have hlisted : fk ∈ σ.schema.foreignKeys := Schema.mem_foreignKeys.2 ⟨d, hdmem, hfk⟩
    obtain ⟨a, p, d', -, hcols, -, -, heq⟩ := Schema.resolve_eq_ok.1 hres
    have hchild : r.child.same f.table := by
      rw [heq]
      exact TableName.same_trans (hg.atSource d hdmem fk hfk) (TableName.same_trans hsame hw.table)
    obtain ⟨e, he, hcolumn⟩ := hg.column?_of_link (Schema.link_of_resolve hlisted hres)
    refine ⟨e, by rw [← Schema.table?_congr _ hchild, he], hcolumn, ?_⟩
    rw [Schema.isNullable, ← Schema.table?_congr _ hchild]
    exact (isNullable_of_resolve hres).trans detach
  | @children b block detach =>
    obtain ⟨-, ⟨captured, front, back, hblocks, hbody⟩, -⟩ := Program.serves_of_synthesize hsyn hf
    cases hbody.plans _ (hblocks ▸ block) with
    | childCascade link =>
      obtain ⟨d, hd, hlisted⟩ := hg.column?_of_link link
      exact ⟨d, hd, hlisted, cutsNullable_of_synthesize hsyn (Program.mem_of_lookup hf).1 b block
        detach⟩

/-- The class of an object is looked for in a table that there is. -/
theorem table?_of_discriminator (hsyn : σ.synthesize namer root = .ok result)
    (hf : (Program.mk result.registry.functions depth).lookup name = some f)
    {b : SubtypeDispatch Callee} (hb : .subtypeDispatch b ∈ f.blocks) {place : Discriminator}
    (hplace : b.discriminator = some place) : (σ.schema.table? place.table).isSome := by
  obtain ⟨t, drafted, callee, w, hw⟩ := Program.exists_draft hsyn hf
  obtain ⟨b', hb', hwritten⟩ := hw.exists_drafted hb
  obtain ⟨b', rfl, hsame⟩ := hwritten.of_subtypeDispatch
  obtain ⟨-, hkey, -⟩ := findDiscriminator_eq_ok
    (findDiscriminator_of_mem_body (body_of_draft hw.draft) hb' (hsame ▸ hplace))
  exact Schema.isSome_table?_of_key? hkey

/-! ## Blocks and calls -/

/-- **A block fails only as expected** if its calls do. -/
theorem block_failsOnly (hg : σ.schema.Complete) (hsyn : σ.synthesize namer root = .ok result)
    (hf : (Program.mk result.registry.functions depth).lookup name = some f) {b : Block Callee}
    (hb : b ∈ f.blocks) {call : CallFunction} {batch : List Int} {caller : Caller} {frame : Frame}
    (hcall : ∀ c ∈ f.callees, ∀ ids caller s, s.schema = σ.schema →
      (call c.function ids caller).FailsOnly (RunError.Expected σ.schema) s)
    (hwithin : ∀ {n ids caller s deleted s'}, call.calls n ids caller s deleted s' → s'.Within s)
    (hs : s.schema = σ.schema) :
    (b.run call f batch caller frame).FailsOnly (RunError.Expected σ.schema) s := by
  obtain ⟨hkey, ⟨captured, front, back, hblocks, hbody⟩, -⟩ := Program.serves_of_synthesize hsyn hf
  have hcallee {c : Callee} (hc : c ∈ b.callees) : c ∈ f.callees := List.mem_flatMap.2 ⟨b, hb, hc⟩
  have hclear {t : TableName} {c : String} {test : Row → Bool} (hcuts : f.CutsOff t c) (e)
      (h : s.setNullWhere t c test = .error e) : RunError.Expected σ.schema (.store e) := by
    obtain ⟨d, hd, hlisted, hnull⟩ := column?_of_cutsOff hg hsyn hf hcuts
    obtain ⟨rs, hset⟩ := Store.exists_setNullWhere (hs ▸ hd) hlisted (hs ▸ hnull) test
    rw [hset] at h
    cases h
  have hselect {s : Store} {t : TableName} {test : Row → Bool} (hs : s.schema = σ.schema)
      (ht : (σ.schema.table? t).isSome) (e) (h : s.select t test = .error e) :
      RunError.Expected σ.schema (.store e) := by
    obtain ⟨rs, hselect⟩ := Store.exists_select (s := s) (hs ▸ ht) test
    rw [hselect] at h
    cases h
  have hdelete {t : TableName} {test : Row → Bool} (ht : (σ.schema.table? t).isSome) (e)
      (h : s.deleteWhere t test = .error e) : RunError.Expected σ.schema (.store e) :=
    hs ▸ Store.error_of_deleteWhere (hs ▸ hg) (hs ▸ ht) h
  have hplan := hbody.plans b (hblocks ▸ hb)
  cases b with
  | selfParts b =>
    exact Block.failsOnly_selfParts (fun hdetach => hclear (.parts hb hdetach))
      (fun _ => hselect hs (Schema.isSome_table?_of_key? hkey))
      fun parts s₁ htake => hcall _ (hcallee (by simp [Block.callees])) _ _ _
        (htake.within.schema.trans hs)
  | childCascade b =>
    cases hplan with
    | childCascade link other key =>
      exact Block.failsOnly_childCascade (hselect hs (Schema.isSome_table?_of_key? key))
        (fun hdetach => hclear (.children hb hdetach))
        fun children s₁ htake => hcall _ (hcallee (by simp [Block.callees])) _ _ _
          (htake.within.schema.trans hs)
  | bridgeCascade b =>
    cases hplan with
    | bridgeCascade isBridge table =>
      refine Block.failsOnly_bridgeCascade (hdelete ?_) fun callee hc links s₁ hremove =>
        hcall _ (hcallee (by simp [Block.callees, hc])) _ _ _
          ((Store.within_deleteWhere hremove).schema.trans hs)
      obtain ⟨fk, -, i, henter, hshape⟩ := isBridge
      obtain ⟨-, -, hof⟩ := Schema.enter_eq_ok_some henter
      rw [hshape] at hof
      obtain ⟨-, d, hd, hbridge⟩ := Schema.shapeOf_eq_bridge hof
      rw [table, (Schema.ends_of_bridge? hbridge).1, hd]
      rfl
  | subtypeDispatch b =>
    exact Block.failsOnly_subtypeDispatch (P := fun s => s.schema = σ.schema)
      (fun d hd id s hs => hselect hs (table?_of_discriminator hsyn hf hb hd))
      (fun _ case hcase id _ s hs => hcall _ (hcallee
        (List.mem_append_left _ (List.mem_map_of_mem hcase))) _ _ _ hs)
      (fun hook hhook s hs => hcall _ (hcallee (List.mem_append_right _ hhook)) _ _ _ hs)
      (fun c _ ids _ s deleted s' hs hcalled => (hwithin hcalled).schema.trans hs) hs
  | localDelete captured =>
    exact Block.failsOnly_localDelete (hdelete (Schema.isSome_table?_of_key? hkey))
  | referencedCleanup b =>
    exact Block.failsOnly_referencedCleanup (hcall _ (hcallee (by simp [Block.callees])) _ _ _ hs)
  | parentCascade callee =>
    exact Block.failsOnly_parentCascade fun _ =>
      hcall _ (hcallee (by simp [Block.callees])) _ _ _ hs

/-- **A call fails only as expected**, whatever is in the store. -/
theorem call_failsOnly (hg : σ.schema.Complete) (hsyn : σ.synthesize namer root = .ok result)
    (hf : (Program.mk result.registry.functions depth).lookup name = some f) (levels : Nat)
    (ids : List Int) (caller : Caller) (hs : s.schema = σ.schema) :
    ((Program.mk result.registry.functions depth).call levels name ids caller).FailsOnly
      (RunError.Expected σ.schema) s := by
  induction levels generalizing name f ids caller s with
  | zero => exact Program.failsOnly_call_zero .tooDeep
  | succ deeper ih =>
    refine Program.failsOnly_call_succ hf (Run.failsOnly_foldlM
      (P := fun _ _ s => s.schema = σ.schema) (fun done b rest frame s hblocks hs => ?_) hs).1
    refine ⟨block_failsOnly hg hsyn hf (by rw [hblocks]; simp) (fun c hc ids caller s hs => ?_)
      Program.call_within hs, fun frame' s' hyields =>
        ((Block.runs_of_yields hyields).within Program.call_within).schema.trans hs⟩
    obtain ⟨g, hg⟩ := Program.exists_callee hsyn hf hc
    exact ih hg ids caller hs

/-- **Deletions fail only for what is in the store**, or because the calls go
too deep. Over a complete schema a deletion that fails runs into rows that
still point at deleted ones, along a foreign key that restricts, or into a
foreign key that clears a column which is NOT NULL; and no function ever
fails to cut off rows. -/
theorem delete_error (hg : σ.schema.Complete) (hsyn : σ.synthesize namer root = .ok result)
    (hst : st.schema = σ.schema)
    (hf : (Program.mk result.registry.functions depth).lookup name = some f) (ids : List Int) :
    (∀ e, ((Program.mk result.registry.functions depth).delete st name ids).result = .error e →
      e.Expected σ.schema) ∧
    ∀ t c test (s : Store), f.CutsOff t c → s.schema = σ.schema →
      ∃ rows s', s.setNullWhere t c test = .ok (rows, s') := by
  refine ⟨fun e he => Program.error_of_delete he (call_failsOnly hg hsyn hf _ ids .external hst),
    fun t c test s hcuts hs => ?_⟩
  obtain ⟨d, hd, hlisted, hnull⟩ := column?_of_cutsOff hg hsyn hf hcuts
  obtain ⟨rows, hset⟩ := Store.exists_setNullWhere (hs ▸ hd) hlisted (hs ▸ hnull) test
  exact ⟨rows, _, hset⟩

end Setting

/-- The building with the window in its wall: its deletion fails only as
expected. -/
theorem Setting.delete_error_facade : ∃ result f,
    facade.synthesize (.new "del_" 63) ⟨"city", "building"⟩ = .ok result ∧
      (Program.mk result.registry.functions 8).lookup "del_building" = some f ∧
      facade.schema.Complete ∧
      (∀ e, ((Program.mk result.registry.functions 8).delete facadeStore "del_building" [1]).result =
        .error e → e.Expected facade.schema) ∧
      ∀ t c test (s : Store), f.CutsOff t c → s.schema = facade.schema →
        ∃ rows s', s.setNullWhere t c test = .ok (rows, s') := by
  obtain @⟨result, f, hsyn, -, hf, -⟩ := facade_stuck
  have hf : (Program.mk result.registry.functions 8).lookup "del_building" = some f := hf
  have hcomplete : facade.schema.Complete := by decide +kernel
  exact ⟨result, f, hsyn, hf, hcomplete, delete_error hcomplete hsyn rfl hf [1]⟩

end DeleteCascade
