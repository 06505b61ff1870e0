import DeleteCascade.Proofs.Store.Cascade
import Mathlib.Data.List.Perm.Basic
/-!
# Statements — the order foreign keys are listed in

Two schemas that differ in the order of their tables and of the foreign keys
in them (`Schema.Reordered`) have the same foreign keys, so the same rows
fall with a statement and lose the same values, and where a statement
succeeds by both, it leaves the same rows. What it looks at on its way does
go by the order: a row that is to fall and points at another one that falls
through a key that holds rows back is in the way as long as it is there.
Where there is no such row (`Store.Unentangled`), a statement fails just
where it is blocked by what stays (`Store.Blocked`), which knows no order.
-/

namespace DeleteCascade

namespace Schema

/-- **Tables that share a name share their columns.** -/
def SharesColumns (g : Schema) : Prop :=
  ∀ d ∈ g.tables, ∀ d' ∈ g.tables, d.name.same d'.name → d.columns = d'.columns

instance (g : Schema) : Decidable g.SharesColumns :=
  inferInstanceAs (Decidable (∀ d ∈ g.tables, ∀ d' ∈ g.tables, _ → _))

end Schema

namespace Store

variable {st s' : Store} {t u : TableName} {test : Row → Bool} {r : Row} {err : StoreError}

/-! ## What holds a statement back -/

/-- **A statement is blocked**: a key that points at a row that falls cannot
act, or it holds the row back and a row points at it that the statement does
not delete itself. -/
def Blocked (st : Store) (t : TableName) (test : Row → Bool) : Prop :=
  ∃ fk ∈ st.schema.foreignKeys, ∃ c p v, fk.columns? = some (c, p) ∧
    (∃ w q, fk.target.same w ∧ st.Falls t test w q ∧ q.get? p = some v) ∧
    (¬ st.schema.Acts fk c ∨ st.schema.HoldsBack fk c ∧
      ∃ r ∈ st.rows fk.source, r.get? c = some v ∧ ¬ (t.same fk.source ∧ test r = true))

/-- **No row that falls holds another one back**, other than those that the
statement deletes itself. -/
def Unentangled (st : Store) (t : TableName) (test : Row → Bool) : Prop :=
  ∀ fk ∈ st.schema.foreignKeys, ∀ c p v, fk.columns? = some (c, p) → st.schema.HoldsBack fk c →
    ∀ r, st.Falls t test fk.source r → r.get? c = some v →
      ∀ w q, fk.target.same w → st.Falls t test w q → q.get? p = some v →
        t.same fk.source ∧ test r = true

/-- **A statement that fails is blocked**, whatever came before. -/
theorem blocked_of_enforce
    (h : (st.removeRows t test).enforce (enforcements st.schema t ((st.rows t).filter test)) =
      .error err) : st.Blocked t test := by
  obtain ⟨s, e, rest, hunder, hact⟩ :=
    enforce_stops (fun h hact => h.act hact) (Underway.start st t test) h
  obtain ⟨hlisted, hfound, p, hcols, hvalues⟩ := hunder.due e (by simp)
  rcases act_eq_error hact with hacts | ⟨hholds, r', hr', hconcerns⟩
  · obtain ⟨v, hmem⟩ := List.exists_mem_of_ne_nil _ hfound
    exact ⟨e.foreignKey, hlisted, e.column, p, v, hcols, hvalues v hmem,
      Or.inl (hunder.schema ▸ hacts)⟩
  · obtain ⟨v, hmem, hv⟩ := Enforcement.concerns_iff.1 hconcerns
    obtain ⟨r, hr, htouched⟩ := (hunder.rows _).exists_of_mem hr'
    refine ⟨e.foreignKey, hlisted, e.column, p, v, hcols, hvalues v hmem,
      Or.inr ⟨hunder.schema ▸ hholds, r, hr, htouched.value hv, ?_⟩⟩
    rintro ⟨hsame, htest⟩
    rw [htouched.fails hsame] at htest
    cases htest

/-- **A statement that succeeds is not blocked**, if what was in its way did
not fall before it was looked at. -/
theorem Underway.not_blocked (hend : st.Underway t test s' [])
    (hfree : st.schema.ClearsUnreferenced) (hapart : st.schema.ClearsApart (· ≠ .setNull))
    (hfair : st.Unentangled t test) : ¬ st.Blocked t test := by
  rintro ⟨fk, hfk, c, p, v, hcols, ⟨w, q, htarget, hq, hqv⟩, hblocks⟩
  have hcascade : st.schema.ClearsApart (· = .cascade) :=
    fun fk hfk hact fk' hfk' hact' => hapart fk hfk hact fk' hfk' (by simp [hact'])
  obtain ⟨hacts, hnone⟩ :=
    hend.settled hfree hq (hend.gone hfree hcascade hq) hfk htarget hcols hqv
  obtain ⟨hholds, r, hr, hrv, hother⟩ := hblocks.resolve_left (not_not_intro hacts)
  have hstays : ¬ st.Falls t test fk.source r :=
    fun hfalls => hother (hfair fk hfk c p v hcols hholds r hfalls hrv w q htarget hq hqv)
  rcases (hend.rows fk.source).dropped_or_kept hr with ⟨hfalls, -⟩ | ⟨r', hr', htouched⟩
  · exact hstays hfalls
  · -- the row is there to the end, and so is its value
    rcases htouched.values c with heq | ⟨hloses, -, hnull⟩
    · exact hnone r' hr' (heq.trans hrv)
    · obtain ⟨fk', hfk', hclear, hsource, ⟨a, p', hcols', ha⟩, -⟩ := hloses
      by_cases hact : fk.onDelete = .setNull
      · rw [Schema.HoldsBack, hact] at hholds
        exact hnull hholds
      · rw [hapart fk' hfk' hclear fk hfk hact hsource a p' c p hcols' hcols] at ha
        cases ha

/-- **When a statement succeeds**: its table is known, and nothing blocks it. -/
theorem deleteWhere_isOk_iff (hfree : st.schema.ClearsUnreferenced)
    (hapart : st.schema.ClearsApart (· ≠ .setNull)) (hfair : st.Unentangled t test) :
    (∃ found, st.deleteWhere t test = .ok found) ↔
      (∃ d, st.schema.table? t = some d) ∧ ¬ st.Blocked t test := by
  constructor
  · rintro ⟨⟨removed, s'⟩, h⟩
    refine ⟨?_, (underway_of_deleteWhere h).2.not_blocked hfree hapart hfair⟩
    cases htable : st.schema.table? t with
    | none => simp [deleteWhere, table, htable] at h
    | some d => exact ⟨d, rfl⟩
  · rintro ⟨⟨d, htable⟩, hfine⟩
    cases henforce : (st.removeRows t test).enforce
        (enforcements st.schema t ((st.rows t).filter test)) with
    | error err => exact absurd (blocked_of_enforce henforce) hfine
    | ok s' =>
      exact ⟨((st.rows t).filter test, s'), by
        simp [deleteWhere, table, htable, henforce, Except.map]⟩

end Store

/-! ## Schemas in another order -/

/-- **A table in another order**: its foreign keys are listed differently. -/
def Table.Reordered (d d' : Table) : Prop :=
  ∃ fks, d.foreignKeys.Perm fks ∧ d' = { d with foreignKeys := fks }

/-- **A schema in another order** lists its tables differently, and each table
its foreign keys. -/
structure Schema.Reordered (g g' : Schema) : Prop where
  name : g.name = g'.name
  ownership : g.ownership = g'.ownership
  tables : ∃ ts, g.tables.Perm ts ∧ List.Forall₂ Table.Reordered ts g'.tables

theorem Table.Reordered.symm {d d' : Table} (h : d.Reordered d') : d'.Reordered d := by
  obtain ⟨fks, hperm, rfl⟩ := h
  exact ⟨d.foreignKeys, hperm.symm, rfl⟩

namespace Schema.Reordered

variable {g g' : Schema} {t : TableName} {c : String} {d : Table} {fk : ForeignKey}

theorem symm (h : g.Reordered g') : g'.Reordered g := by
  obtain ⟨ts, hperm, hall⟩ := h.tables
  have hback : Relation.Comp (List.Forall₂ Table.Reordered) List.Perm g'.tables g.tables :=
    ⟨ts, (hall.imp fun _ _ h => h.symm).flip, hperm.symm⟩
  rw [List.forall₂_comp_perm_eq_perm_comp_forall₂] at hback
  exact ⟨h.name.symm, h.ownership.symm, hback⟩

/-- Each table is there, in another order. -/
theorem exists_table (h : g.Reordered g') (hd : d ∈ g.tables) :
    ∃ d' ∈ g'.tables, d.Reordered d' := by
  obtain ⟨ts, hperm, hall⟩ := h.tables
  have hmem := hperm.mem_iff.1 hd
  clear hperm
  generalize g'.tables = ts' at hall ⊢
  induction hall with
  | nil => cases hmem
  | @cons d₁ d₂ ts ts' hsame _ ih =>
    rcases List.mem_cons.1 hmem with rfl | hmem
    · exact ⟨d₂, by simp, hsame⟩
    · obtain ⟨d', hd', hreordered⟩ := ih hmem
      exact ⟨d', by simp [hd'], hreordered⟩

/-- **The foreign keys are the same.** -/
theorem mem_foreignKeys_iff (h : g.Reordered g') : fk ∈ g.foreignKeys ↔ fk ∈ g'.foreignKeys := by
  have hsub {g g' : Schema} (h : g.Reordered g') (hfk : fk ∈ g.foreignKeys) :
      fk ∈ g'.foreignKeys := by
    obtain ⟨d, hd, hlisted⟩ := List.mem_flatMap.1 hfk
    obtain ⟨d', hd', fks, hperm, rfl⟩ := h.exists_table hd
    exact List.mem_flatMap.2 ⟨_, hd', hperm.mem_iff.1 hlisted⟩
  exact ⟨hsub h, hsub h.symm⟩

theorem clearsApart {acts : OnDelete → Prop} (h : g.Reordered g') (hapart : g.ClearsApart acts) :
    g'.ClearsApart acts := by
  intro fk hfk hclear fk' hfk' hacts
  exact hapart fk (h.mem_foreignKeys_iff.2 hfk) hclear fk' (h.mem_foreignKeys_iff.2 hfk') hacts

theorem clearsUnreferenced (h : g.Reordered g') (hfree : g.ClearsUnreferenced) :
    g'.ClearsUnreferenced := by
  intro fk hfk hclear fk' hfk'
  exact hfree fk (h.mem_foreignKeys_iff.2 hfk) hclear fk' (h.mem_foreignKeys_iff.2 hfk')

theorem sharesColumns (h : g.Reordered g') (hshared : g.SharesColumns) : g'.SharesColumns := by
  intro d₁ h₁ d₂ h₂ hsame
  obtain ⟨_, hd₁, fks₁, -, rfl⟩ := h.symm.exists_table h₁
  obtain ⟨_, hd₂, fks₂, -, rfl⟩ := h.symm.exists_table h₂
  exact hshared { d₁ with foreignKeys := fks₁ } hd₁ { d₂ with foreignKeys := fks₂ } hd₂ hsame

/-- **A name stands for the same columns.** -/
theorem exists_table? (h : g.Reordered g') (hshared : g.SharesColumns) (hd : g.table? t = some d) :
    ∃ d', g'.table? t = some d' ∧ d'.columns = d.columns := by
  obtain ⟨hmem, hname⟩ := Schema.mem_of_table? hd
  obtain ⟨d₁, hd₁, fks, -, rfl⟩ := h.exists_table hmem
  cases htable : g'.table? t with
  | none => exact absurd hname (List.find?_eq_none.1 htable { d with foreignKeys := fks } hd₁)
  | some d' =>
    obtain ⟨hmem', hname'⟩ := Schema.mem_of_table? htable
    exact ⟨d', rfl, h.sharesColumns hshared d' hmem' { d with foreignKeys := fks } hd₁
      (TableName.same_trans hname' (TableName.same_symm hname))⟩

theorem acts (h : g.Reordered g') (hshared : g.SharesColumns) (hacts : g.Acts fk c) :
    g'.Acts fk c := by
  unfold Schema.Acts at hacts ⊢
  split
  · rename_i hact
    rw [hact] at hacts
    obtain ⟨d, hd⟩ := hacts
    obtain ⟨d', hd', -⟩ := h.exists_table? hshared hd
    exact ⟨d', hd'⟩
  · rename_i hact
    rw [hact] at hacts
    obtain ⟨d, k, hd, hk⟩ := hacts
    obtain ⟨d', hd', hcolumns⟩ := h.exists_table? hshared hd
    exact ⟨d', k, hd', by rw [← hk, Table.column?, hcolumns, Table.column?]⟩
  all_goals trivial

theorem requires (h : g.Reordered g') (hshared : g.SharesColumns) (hrequires : g.Requires t c) :
    g'.Requires t c := by
  obtain ⟨d, k, hd, hk, hnull⟩ := hrequires
  obtain ⟨d', hd', hcolumns⟩ := h.exists_table? hshared hd
  exact ⟨d', k, hd', by rw [← hk, Table.column?, hcolumns, Table.column?], hnull⟩

theorem holdsBack (h : g.Reordered g') (hshared : g.SharesColumns)
    (hholds : g.HoldsBack fk c) : g'.HoldsBack fk c := by
  unfold Schema.HoldsBack at hholds ⊢
  split
  · rename_i hact
    rwa [hact] at hholds
  · rename_i hact
    rw [hact] at hholds
    exact h.requires hshared hholds
  all_goals trivial

end Schema.Reordered

namespace Store

variable {g g' : Schema} {contents : Contents} {t u : TableName} {test : Row → Bool}
variable {r r' : Row} {c : String}

/-- **The same rows fall.** -/
theorem Falls.reordered (h : g.Reordered g') (hfalls : Falls ⟨g, contents⟩ t test u r) :
    Falls ⟨g', contents⟩ t test u r := by
  induction hfalls with
  | passes table row passes => exact .passes table row passes
  | cascade listed cascades source target row connects _ ih =>
    exact .cascade (h.mem_foreignKeys_iff.1 listed) cascades source target row connects ih

/-- **The same values are lost.** -/
theorem Loses.reordered (h : g.Reordered g') (hloses : Loses ⟨g, contents⟩ t test u r c) :
    Loses ⟨g', contents⟩ t test u r c := by
  obtain ⟨fk, hfk, hact, hsource, hcolumn, w, q, htarget, hfalls, hconnects⟩ := hloses
  exact ⟨fk, h.mem_foreignKeys_iff.1 hfk, hact, hsource, hcolumn, w, q, htarget,
    hfalls.reordered h, hconnects⟩

theorem Left.reordered (h : g.Reordered g') (hleft : Left ⟨g, contents⟩ t test u r r') :
    Left ⟨g', contents⟩ t test u r r' where
  stays hfalls := hleft.stays (hfalls.reordered h.symm)
  cut := hleft.cut
  kept c hkeeps := hleft.kept c fun hloses => hkeeps (hloses.reordered h)
  null c hloses := hleft.null c (hloses.reordered h.symm)

theorem Blocked.reordered (h : g.Reordered g') (hshared : g.SharesColumns)
    (hblocked : Blocked ⟨g, contents⟩ t test) : Blocked ⟨g', contents⟩ t test := by
  obtain ⟨fk, hfk, c, p, v, hcols, ⟨w, q, htarget, hfalls, hqv⟩, hblocks⟩ := hblocked
  refine ⟨fk, h.mem_foreignKeys_iff.1 hfk, c, p, v, hcols,
    ⟨w, q, htarget, hfalls.reordered h, hqv⟩, ?_⟩
  exact hblocks.imp
    (fun hnot hacts => hnot (h.symm.acts (h.sharesColumns hshared) hacts))
    fun ⟨hholds, hsome⟩ => ⟨h.holdsBack hshared hholds, hsome⟩

theorem Unentangled.reordered (h : g.Reordered g') (hshared : g.SharesColumns)
    (hfair : Unentangled ⟨g, contents⟩ t test) : Unentangled ⟨g', contents⟩ t test := by
  intro fk hfk c p v hcols hholds r hr hrv w q htarget hq hqv
  exact hfair fk (h.mem_foreignKeys_iff.2 hfk) c p v hcols
    (h.symm.holdsBack (h.sharesColumns hshared) hholds) r (hr.reordered h.symm) hrv w q htarget
    (hq.reordered h.symm) hqv

/-- What is left of a row is one row. -/
theorem Left.unique {st : Store} {r₁ r₂ : Row} (h₁ : st.Left t test u r r₁)
    (h₂ : st.Left t test u r r₂) : r₁ = r₂ := by
  refine h₁.cut.eq_of_get? h₂.cut fun c => ?_
  by_cases hloses : st.Loses t test u r c
  · rw [h₁.null c hloses, h₂.null c hloses]
  · rw [h₁.kept c hloses, h₂.kept c hloses]

/-- **Where the order tells.** If no key references a column that a key
clears, then statements that succeed by both of two orders remove and leave
the same rows, as long as no column that is cleared carries a key that
cascades. If it carries no other key at all and no row that falls holds
another one back, they also succeed by both orders or by none. -/
theorem deleteWhere_reordered (h : g.Reordered g') (hfree : g.ClearsUnreferenced)
    (contents : Contents) (t : TableName) (test : Row → Bool) :
    (g.ClearsApart (· = .cascade) → ∀ removed removed' s s',
      deleteWhere ⟨g, contents⟩ t test = .ok (removed, s) →
      deleteWhere ⟨g', contents⟩ t test = .ok (removed', s') →
        removed = removed' ∧ ∀ u, s.rows u = s'.rows u) ∧
    (g.ClearsApart (· ≠ .setNull) → g.SharesColumns → Unentangled ⟨g, contents⟩ t test →
      ((∃ found, deleteWhere ⟨g, contents⟩ t test = .ok found) ↔
        ∃ found, deleteWhere ⟨g', contents⟩ t test = .ok found)) := by
  constructor
  · intro hapart removed removed' s s' hs hs'
    obtain ⟨hremoved, hend⟩ := underway_of_deleteWhere hs
    obtain ⟨hremoved', hend'⟩ := underway_of_deleteWhere hs'
    refine ⟨hremoved.trans hremoved'.symm, fun u => ?_⟩
    have hleft := hend.left hfree hapart u
    have hleft' := (hend'.left (h.clearsUnreferenced hfree) (h.clearsApart hapart) u).mono
      (fun _ hfalls => hfalls.reordered h.symm) fun _ _ hleft => hleft.reordered h.symm
    exact hleft.unique hleft' (fun _ _ _ _ hkept => hkept.stays) (fun _ _ _ _ hkept => hkept.stays)
      fun _ _ _ _ _ _ hkept hkept' => hkept.unique hkept'
  · intro hapart hshared hfair
    have hshared' := h.sharesColumns hshared
    rw [deleteWhere_isOk_iff hfree hapart hfair,
      deleteWhere_isOk_iff (h.clearsUnreferenced hfree) (h.clearsApart hapart)
        (hfair.reordered h hshared)]
    have htable : (∃ d, g.table? t = some d) ↔ ∃ d, g'.table? t = some d :=
      ⟨fun ⟨d, hd⟩ => (h.exists_table? hshared hd).imp fun _ hd' => hd'.1,
        fun ⟨d, hd⟩ => (h.symm.exists_table? hshared' hd).imp fun _ hd' => hd'.1⟩
    have hblocked : Blocked ⟨g, contents⟩ t test ↔ Blocked ⟨g', contents⟩ t test :=
      ⟨fun hb => hb.reordered h hshared, fun hb => hb.reordered h.symm hshared'⟩
    rw [hblocked]
    exact and_congr_left' htable

/-! ## A block of flats -/

/-- A flat belongs to a house, which is not deleted under it. -/
def keepsHouse : ForeignKey :=
  ⟨"flat_house_fk", ⟨"block", "flat"⟩, ["house"], ⟨"block", "house"⟩, ["id"], .noAction⟩

/-- A flat goes with its home. -/
def goesWithHome : ForeignKey :=
  ⟨"flat_home_fk", ⟨"block", "flat"⟩, ["home"], ⟨"block", "house"⟩, ["id"], .cascade⟩

/-- Houses and flats, with the keys of the flats. -/
def flatsBy (keys : List ForeignKey) : Schema :=
  ⟨"block", [smallTable "block" "house" [],
    { smallTable "block" "flat" ["house", "home"] with foreignKeys := keys }], []⟩

theorem flatsBy_reordered :
    (flatsBy [keepsHouse, goesWithHome]).Reordered (flatsBy [goesWithHome, keepsHouse]) where
  name := rfl
  ownership := rfl
  tables := ⟨_, .refl _, .cons ⟨[], .refl _, rfl⟩
    (.cons ⟨[goesWithHome, keepsHouse], .swap _ _ _, rfl⟩ .nil)⟩

/-- A house and a flat in it that belongs to no house. -/
def homeOnly : Contents :=
  [(("block", "house"), [⟨[("id", 1)]⟩]), (("block", "flat"), [⟨[("id", 1), ("home", 1)]⟩])]

/-- The flat goes with the house by both orders, and nothing is left by either. -/
theorem deleteWhere_reordered_homeOnly :
    ∃ removed removed' s s',
      deleteWhere ⟨flatsBy [keepsHouse, goesWithHome], homeOnly⟩ ⟨"block", "house"⟩ (hasId 1) =
        .ok (removed, s) ∧
      deleteWhere ⟨flatsBy [goesWithHome, keepsHouse], homeOnly⟩ ⟨"block", "house"⟩ (hasId 1) =
        .ok (removed', s') ∧
      s.rows ⟨"block", "flat"⟩ = [] ∧ removed = removed' ∧ ∀ u, s.rows u = s'.rows u := by
  have hrun : ((deleteWhere ⟨flatsBy [keepsHouse, goesWithHome], homeOnly⟩ ⟨"block", "house"⟩
      (hasId 1)).toOption.any fun found => found.2.rows ⟨"block", "flat"⟩ = []) = true := by
    -- enforcement is followed for as long as it lasts here
    delta deleteWhere
    rw [← enforceFor_eq 9]
    decide +kernel
  obtain ⟨⟨removed, s⟩, hs, hflat⟩ := exists_ok hrun
  have hfair : Unentangled ⟨flatsBy [keepsHouse, goesWithHome], homeOnly⟩ ⟨"block", "house"⟩
      (hasId 1) := by
    intro fk hfk c p v hcols hholds r hr hrv w q _ _ _
    obtain rfl | rfl : fk = keepsHouse ∨ fk = goesWithHome := by
      simpa [flatsBy, Schema.foreignKeys, smallTable, Table.empty] using hfk
    · cases hcols
      have hflat : rows ⟨flatsBy [keepsHouse, goesWithHome], homeOnly⟩ keepsHouse.source =
          [⟨[("id", 1), ("home", 1)]⟩] := by decide +kernel
      obtain rfl := List.mem_singleton.1 (hflat ▸ hr.mem)
      cases hrv
    · exact absurd hholds (by simp [Schema.HoldsBack, goesWithHome])
  obtain ⟨hsame, hboth⟩ := deleteWhere_reordered flatsBy_reordered (by decide +kernel) homeOnly
    ⟨"block", "house"⟩ (hasId 1)
  obtain ⟨⟨removed', s'⟩, hs'⟩ :=
    (hboth (by decide +kernel) (by decide +kernel) hfair).1 ⟨(removed, s), hs⟩
  exact ⟨removed, removed', s, s', hs, hs', hflat,
    hsame (by decide +kernel) removed removed' s s' hs hs'⟩

/-- A house and a flat in it that belongs to it. -/
def homeAndHouse : Contents :=
  [(("block", "house"), [⟨[("id", 1)]⟩]),
    (("block", "flat"), [⟨[("id", 1), ("house", 1), ("home", 1)]⟩])]

/-- **A key that holds rows back and is listed first stops a statement** that
takes the row it is about: the house cannot be deleted for the flat in it,
which goes with the house if the other key is listed first. -/
theorem not_deleteWhere_reordered :
    (flatsBy [keepsHouse, goesWithHome]).Plain ∧
      (flatsBy [keepsHouse, goesWithHome]).Reordered (flatsBy [goesWithHome, keepsHouse]) ∧
      NoDangling ⟨flatsBy [keepsHouse, goesWithHome], homeAndHouse⟩ ∧
      (¬ ∃ found, deleteWhere ⟨flatsBy [keepsHouse, goesWithHome], homeAndHouse⟩ ⟨"block", "house"⟩
        (hasId 1) = .ok found) ∧
      ∃ found, deleteWhere ⟨flatsBy [goesWithHome, keepsHouse], homeAndHouse⟩ ⟨"block", "house"⟩
        (hasId 1) = .ok found ∧
        found.2.rows ⟨"block", "house"⟩ = [] ∧ found.2.rows ⟨"block", "flat"⟩ = [] := by
  have hfails : (deleteWhere ⟨flatsBy [keepsHouse, goesWithHome], homeAndHouse⟩ ⟨"block", "house"⟩
      (hasId 1)).toOption.isNone = true := by
    delta deleteWhere
    rw [← enforceFor_eq 9]
    decide +kernel
  refine ⟨by decide +kernel, flatsBy_reordered, by decide +kernel, ?_, exists_ok ?_⟩
  · rintro ⟨found, hfound⟩
    rw [hfound] at hfails
    cases hfails
  · delta deleteWhere
    rw [← enforceFor_eq 9]
    decide +kernel

end Store

end DeleteCascade
