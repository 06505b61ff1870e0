import DeleteCascade.Proofs.Schema.Links
import Mathlib.Data.List.Basic
/-!
# Links — bridges

A bridge is seen from both of the tables it links, once through each of
the two columns of its key. `IsBridge.spec` reads a bridge off the table
that it is, and `IsBridge.two_sides` says that, with one foreign key per
column, two views of one bridge table are the same view or opposite ones.
A bridge has no key of one column, so that no link leads to it.
-/

namespace DeleteCascade

namespace Schema

variable {g : Schema} {t t' : TableName} {b b' : Bridge}

/-- What a bridge is: a table whose key is the pair of two columns, each of
which carries a foreign key. -/
structure BridgeSpec (g : Schema) (t : TableName) (b : Bridge) : Prop where
  near : g.Link b.table b.nearColumn t
  far : g.Link b.table b.farColumn b.farTable
  farKey : ∃ k, g.key? b.farTable = some k ∧ sameName k b.farKey
  apart : sameName b.farColumn b.nearColumn = false
  pair : ∃ d k k', g.table? b.table = some d ∧ d.primaryKey = [k, k'] ∧
    ((sameName k b.nearColumn ∧ sameName k' b.farColumn) ∨
      (sameName k b.farColumn ∧ sameName k' b.nearColumn))
  notSelf : b.table.same t = false

theorem mem_siblings {d : Table} {column : String} {s : Sibling} (h : s ∈ d.siblings column) :
    ∃ fk ∈ d.foreignKeys, fk.columns? = some (s.column, s.targetColumn) ∧ fk.target = s.target ∧
      sameName s.column column = false := by
  obtain ⟨fk, hfk, hsome⟩ := List.mem_filterMap.1 h
  refine ⟨fk, hfk, ?_⟩
  split at hsome
  · rename_i c p hcols
    split at hsome
    · cases hsome
    · rename_i hne
      cases hsome
      exact ⟨hcols, rfl, by simpa using hne⟩
  · cases hsome

/-- What comes from a bridge is no key, and the bridge is read off its table. -/
theorem shapeOf_eq_bridge {r : Reference} (h : g.shapeOf r = .ok (.bridge b)) :
    r.childIsKey = false ∧ ∃ d, g.table? r.child = some d ∧ d.bridge? r = some b := by
  unfold shapeOf at h
  split at h
  · cases h
  · rename_i hkey
    refine ⟨by simpa using hkey, ?_⟩
    cases hd : g.lookup r.child with
    | error e =>
      rw [hd] at h
      cases h
    | ok d =>
      rw [hd] at h
      simp only [Except.map, Except.ok.injEq] at h
      refine ⟨d, lookup_eq_ok.1 hd, ?_⟩
      unfold Table.shape at h
      rw [if_neg hkey] at h
      split at h
      · rename_i b₀ hb₀
        cases h
        exact hb₀
      · cases h
      · cases h

/-- What a bridge is read off: a key of two columns, one of which is that of
the reference and the other that of a sibling. -/
theorem sides_of_bridge? {d : Table} {r : Reference} (h : d.bridge? r = some b) :
    ∃ k k' s, d.primaryKey = [k, k'] ∧ s ∈ d.siblings r.childColumn ∧
      b = ⟨r.child, r.childColumn, s.column, s.target, s.targetColumn⟩ ∧
      ((sameName k r.childColumn ∧ sameName k' s.column) ∨
        (sameName k s.column ∧ sameName k' r.childColumn)) ∧
      r.nullable = false ∧ d.isNullable s.column = false := by
  unfold Table.bridge? at h
  split at h
  · rename_i hcond
    obtain ⟨hlen, hcontains, hnull⟩ := hcond
    obtain ⟨far, hfar, h⟩ := Option.bind_eq_some_iff.1 h
    obtain ⟨s, hs, h⟩ := Option.bind_eq_some_iff.1 h
    split at h
    · cases h
    · rename_i hfarnull
      cases h
      have hsfar := List.find?_some hs
      have hfarne := List.find?_some hfar
      simp only [Bool.not_eq_true'] at hfarne hnull
      have hfarmem := List.mem_of_find?_eq_some hfar
      obtain ⟨k, k', hpk⟩ := List.length_eq_two.1 hlen
      refine ⟨k, k', s, hpk, List.mem_of_find?_eq_some hs, rfl, ?_, hnull, by simpa using hfarnull⟩
      simp only [Table.keyContains, hpk, List.any_cons, List.any_nil, Bool.or_false,
        Bool.or_eq_true] at hcontains
      rw [hpk] at hfarmem
      rcases List.mem_cons.1 hfarmem with rfl | hk'
      · refine Or.inr ⟨sameName_symm hsfar, ?_⟩
        rcases hcontains with hc | hc
        · rw [hfarne] at hc
          cases hc
        · exact hc
      · obtain rfl : far = k' := by simpa using hk'
        refine Or.inl ⟨?_, sameName_symm hsfar⟩
        rcases hcontains with hc | hc
        · exact hc
        · rw [hfarne] at hc
          cases hc
  · cases h

/-- The reference that a bridge is seen through. -/
theorem ends_of_bridge? {d : Table} {r : Reference} (h : d.bridge? r = some b) :
    b.table = r.child ∧ b.nearColumn = r.childColumn := by
  obtain ⟨-, -, s, -, -, rfl, -⟩ := sides_of_bridge? h
  exact ⟨rfl, rfl⟩

/-- A table with such a key is a bridge. -/
theorem exists_bridge? {d : Table} {r : Reference} {k k' far : String}
    (hpk : d.primaryKey = [k, k']) (hpair : (sameName k r.childColumn ∧ sameName k' far) ∨
      (sameName k far ∧ sameName k' r.childColumn))
    (hapart : sameName far r.childColumn = false) (hnull : r.nullable = false)
    (hsibling : ∃ s ∈ d.siblings r.childColumn, sameName s.column far)
    (hnotNull : ∀ c, sameName c far → d.isNullable c = false) : ∃ b, d.bridge? r = some b := by
  have hcond : d.primaryKey.length = 2 ∧ d.keyContains r.childColumn = true ∧ (!r.nullable) = true := by
    refine ⟨by simp [hpk], ?_, by simp [hnull]⟩
    rcases hpair with ⟨hk, -⟩ | ⟨-, hk⟩ <;> simp [Table.keyContains, hpk, hk]
  have hfind : ∃ k₀, d.primaryKey.find? (fun k => !sameName k r.childColumn) = some k₀ ∧
      sameName k₀ far := by
    rcases hpair with ⟨hk, hk'⟩ | ⟨hk, hk'⟩
    · have hne : sameName k' r.childColumn = false := by rw [sameName_congr_left hk', hapart]
      exact ⟨k', by simp [hpk, hk, hne], hk'⟩
    · have hne : sameName k r.childColumn = false := by rw [sameName_congr_left hk, hapart]
      exact ⟨k, by simp [hpk, hne], hk⟩
  obtain ⟨k₀, hk₀, hfar⟩ := hfind
  obtain ⟨s, hs, hsfar⟩ := hsibling
  have hsome : ((d.siblings r.childColumn).find? fun s => sameName s.column k₀).isSome := by
    rw [List.find?_isSome]
    exact ⟨s, hs, sameName_trans hsfar (sameName_symm hfar)⟩
  obtain ⟨s', hs'⟩ := Option.isSome_iff_exists.1 hsome
  have hs'k₀ : sameName s'.column k₀ := by simpa using List.find?_some hs'
  have hcolumn : sameName s'.column far := sameName_trans hs'k₀ hfar
  unfold Table.bridge?
  rw [if_pos hcond, hk₀]
  simp only [Option.bind_eq_bind, Option.bind_some, hs', hnotNull _ hcolumn]
  exact ⟨_, rfl⟩

/-- **A bridge is read off its table.** -/
theorem IsBridge.spec (hg : g.Regular) (h : g.IsBridge t b) : g.BridgeSpec t b := by
  obtain ⟨fk, hfk, i, henter, hshape⟩ := h
  obtain ⟨hmem, htarget⟩ := mem_foreignKeysTo.1 hfk
  obtain ⟨hres, hself, hof⟩ := enter_eq_ok_some henter
  obtain ⟨c, p, d, e, hcols, hd, -, heq⟩ := resolve_eq_ok.1 hres
  have hchild : i.reference.child = fk.source := by rw [heq]
  have hcolumn : i.reference.childColumn = c := by rw [heq]
  -- the shape comes from the table itself
  rw [hshape] at hof
  obtain ⟨-, d', hd', hbridge⟩ := shapeOf_eq_bridge hof
  rw [hchild, hd] at hd'
  cases hd'
  obtain ⟨k, k', s, hpk, hs, rfl, hpair, -⟩ := sides_of_bridge? hbridge
  obtain ⟨fk', hfk', hcols', htarget', hsne⟩ := mem_siblings hs
  have hdmem : d ∈ g.tables := (mem_of_table? hd).1
  have hfk'mem : fk' ∈ g.foreignKeys := mem_foreignKeys.2 ⟨d, hdmem, hfk'⟩
  have hparent : i.reference.parent = fk.target := by rw [heq]
  rw [hcolumn] at hsne hpair
  rw [hcolumn, hchild]
  refine ⟨?_, ?_, ?_, hsne, ⟨d, k, k', hd, hpk, hpair⟩, ?_⟩
  · exact (link_of_mem_foreignKeys hmem hcols).congr (by simp) (by simp) htarget
  · refine ⟨fk', hfk'mem, ?_, by rw [htarget']; simp, s.column, s.targetColumn, hcols', by simp⟩
    exact TableName.same_trans (hg.atSource d hdmem fk' hfk') (mem_of_table? hd).2
  · obtain ⟨a, p', k, hcols'', hk, hkp⟩ := hg.columns? hfk'mem
    rw [hcols'] at hcols''
    cases hcols''
    exact ⟨k, by rw [← htarget', hk], hkp⟩
  · rwa [Reference.isSelf, hchild, hparent, TableName.same_congr_right htarget] at hself

/-- A bridge has no key of one column. -/
theorem IsBridge.key?_eq_none (h : g.IsBridge t b) : g.key? b.table = none := by
  obtain ⟨fk, -, i, henter, hshape⟩ := h
  obtain ⟨-, -, hof⟩ := enter_eq_ok_some henter
  rw [hshape] at hof
  obtain ⟨-, d, hd, hbridge⟩ := shapeOf_eq_bridge hof
  obtain ⟨k, k', s, hpk, -, rfl, -⟩ := sides_of_bridge? hbridge
  simp [key?, hd, Table.key?, hpk]

/-- **Two views of one bridge table are the same or opposite.** -/
theorem IsBridge.two_sides (hg : g.Regular) (hone : g.OneKeyPerColumn) (h : g.IsBridge t b)
    (h' : g.IsBridge t' b') (htable : b'.table.same b.table) :
    (sameName b'.nearColumn b.nearColumn ∧ sameName b'.farColumn b.farColumn ∧ t'.same t ∧
        b'.farTable.same b.farTable) ∨
      (sameName b'.nearColumn b.farColumn ∧ sameName b'.farColumn b.nearColumn ∧
        t'.same b.farTable ∧ b'.farTable.same t) := by
  have hs := h.spec hg
  have hs' := h'.spec hg
  have hnear : g.Link b.table b'.nearColumn t' := hs'.near.congr htable (by simp) (by simp)
  have hfar : g.Link b.table b'.farColumn b'.farTable := hs'.far.congr htable (by simp) (by simp)
  have hsides : (sameName b'.nearColumn b.nearColumn ∧ sameName b'.farColumn b.farColumn) ∨
      (sameName b'.nearColumn b.farColumn ∧ sameName b'.farColumn b.nearColumn) := by
    obtain ⟨d, k, k', hd, hpk, hpair⟩ := hs.pair
    obtain ⟨d', l, l', hd', hpl, hpair'⟩ := hs'.pair
    rw [table?_congr g htable, hd] at hd'
    cases hd'
    rw [hpk] at hpl
    cases hpl
    rcases hpair with ⟨hk, hk'⟩ | ⟨hk, hk'⟩ <;> rcases hpair' with ⟨hl, hl'⟩ | ⟨hl, hl'⟩
    · exact Or.inl ⟨sameName_trans (sameName_symm hl) hk, sameName_trans (sameName_symm hl') hk'⟩
    · exact Or.inr ⟨sameName_trans (sameName_symm hl') hk', sameName_trans (sameName_symm hl) hk⟩
    · exact Or.inr ⟨sameName_trans (sameName_symm hl) hk, sameName_trans (sameName_symm hl') hk'⟩
    · exact Or.inl ⟨sameName_trans (sameName_symm hl') hk', sameName_trans (sameName_symm hl) hk⟩
  rcases hsides with ⟨hn, hf⟩ | ⟨hn, hf⟩
  · exact Or.inl ⟨hn, hf, (hnear.congr (by simp) hn (by simp)).target_unique hone hs.near,
      (hfar.congr (by simp) hf (by simp)).target_unique hone hs.far⟩
  · exact Or.inr ⟨hn, hf, (hnear.congr (by simp) hn (by simp)).target_unique hone hs.far,
      (hfar.congr (by simp) hf (by simp)).target_unique hone hs.near⟩

theorem mem_siblings_of {d : Table} {column c p : String} {fk : ForeignKey}
    (hfk : fk ∈ d.foreignKeys) (hcols : fk.columns? = some (c, p))
    (hne : sameName c column = false) : ⟨c, fk.target, p⟩ ∈ d.siblings column := by
  refine List.mem_filterMap.2 ⟨fk, hfk, ?_⟩
  simp [hcols, hne]

theorem isNullable_congr (d : Table) {c c' : String} (h : sameName c c') :
    d.isNullable c = d.isNullable c' := by
  simp only [Table.isNullable, Table.column?, Column.isNamed, sameName_congr_right h]

/-- What a bridge is read off enters in the shape of one. -/
theorem isBridge_of_bridge? (hg : g.Regular) {fk : ForeignKey} {d : Table} {r : Reference}
    (hfk : fk ∈ g.foreignKeys) (hr : g.resolve fk = .ok r) (hd : g.table? r.child = some d)
    (hb : d.bridge? r = some b) : g.IsBridge fk.target b := by
  obtain ⟨k, k', -, hpk, -⟩ := sides_of_bridge? hb
  have hnone : d.key? = none := by simp [Table.key?, hpk]
  obtain ⟨c, p, l, hcols, hl, -⟩ := hg.columns? hfk
  obtain ⟨c', p', d', e, hcols', hd', -, heq⟩ := resolve_eq_ok.1 hr
  have hself : r.isSelf = false := by
    -- what it leads to has a key
    refine Bool.eq_false_iff.2 fun hself => ?_
    rw [Reference.isSelf, heq] at hself
    rw [← key?_congr hself, key?, hd'] at hl
    rw [heq] at hd
    rw [hd] at hd'
    cases hd'
    rw [Option.bind_some, hnone] at hl
    cases hl
  have hkey : r.childIsKey = false := by
    refine Bool.eq_false_iff.2 fun hkey => ?_
    obtain ⟨l', hl', -⟩ := (childIsKey_of_resolve hr).1 hkey
    rw [key?, hd, Option.bind_some, hnone] at hl'
    cases hl'
  refine ⟨fk, mem_foreignKeysTo.2 ⟨hfk, by simp⟩, ⟨r, .bridge b⟩, ?_, rfl⟩
  simp only [enter, hr, hself, shapeOf, hkey, lookup_eq_ok.2 hd, Except.map, Table.shape, hb,
    Bool.false_eq_true, if_false]

/-- **A bridge is seen from its far side as well.** -/
theorem IsBridge.flip (hg : g.Regular) (hone : g.OneKeyPerColumn) (h : g.IsBridge t b) :
    ∃ b', g.IsBridge b.farTable b' ∧ b'.table.same b.table ∧ b'.farTable.same t ∧
      sameName b'.nearColumn b.farColumn := by
  obtain ⟨fk, hfk, i, henter, hshape⟩ := id h
  obtain ⟨hmem, -⟩ := mem_foreignKeysTo.1 hfk
  obtain ⟨hres, -, hof⟩ := enter_eq_ok_some henter
  obtain ⟨c, p, d, e, hcols, hd, -, heq⟩ := resolve_eq_ok.1 hres
  rw [hshape] at hof
  obtain ⟨-, d', hd', hbridge⟩ := shapeOf_eq_bridge hof
  rw [heq] at hd' hbridge
  rw [hd] at hd'
  cases hd'
  obtain ⟨k, k', s, hpk, hs, rfl, hpair, hnull, hfarnull⟩ := sides_of_bridge? hbridge
  obtain ⟨fk', hfk', hcols', htarget', hsne⟩ := mem_siblings hs
  simp only at hpair hnull hsne
  have hdmem := (mem_of_table? hd).1
  have hfk'mem : fk' ∈ g.foreignKeys := mem_foreignKeys.2 ⟨d, hdmem, hfk'⟩
  have hsource : fk'.source.same fk.source :=
    TableName.same_trans (hg.atSource d hdmem fk' hfk') (mem_of_table? hd).2
  have hd₂ : g.table? fk'.source = some d := by rw [table?_congr g hsource, hd]
  obtain ⟨r, hr⟩ := hg.resolve_ok hfk'mem
  obtain ⟨c', p', d', e', hcols'', hd', -, hreq⟩ := resolve_eq_ok.1 hr
  rw [hcols'] at hcols''
  cases hcols''
  rw [hd₂] at hd'
  cases hd'
  have hcolumn : r.childColumn = s.column := by rw [hreq]
  -- seen from the far side, the near column is the sibling
  obtain ⟨d', hd', hfkd⟩ := hg.table?_source hmem
  rw [hd] at hd'
  cases hd'
  have hapart : sameName c r.childColumn = false := by rw [hcolumn, sameName_comm, hsne]
  rw [← hcolumn] at hpair
  obtain ⟨b', hb'⟩ := exists_bridge? hpk hpair.symm hapart (by rw [hreq, hfarnull])
    ⟨_, mem_siblings_of hfkd hcols hapart, by simp⟩
    fun c' hc' => by rw [isNullable_congr d hc', hnull]
  obtain ⟨htable, hnear⟩ := ends_of_bridge? hb'
  have hflip : g.IsBridge s.target b' := by
    rw [← htarget']
    exact isBridge_of_bridge? hg hfk'mem hr (by rw [hreq, hd₂]) hb'
  have hsame : b'.table.same fk.source := by
    rw [htable, hreq]
    exact hsource
  refine ⟨b', hflip, hsame, ?_⟩
  rcases h.two_sides hg hone hflip hsame with ⟨hwrong, -⟩ | ⟨hseen, -, -, hfar⟩
  · rw [hnear, hcolumn] at hwrong
    simp only [hsne] at hwrong
    cases hwrong
  · exact ⟨hfar, hseen⟩

end Schema

end DeleteCascade
