import DeleteCascade.Proofs.Deletion.Composition
import DeleteCascade.Proofs.Deletion.Holding
/-!
# Deletion — sets of rows that go together

A set of rows is `Full` if it has, with any of its rows, all that go along
with it. A run that starts in a full set stays in it (`confined_call`):
whatever it deletes is one of these rows or a link to one, and other rows
lose only what pointed at one. That a shared row is in the set has to be
concluded from an owner check that found nothing: what held the row before
the deletion is lost, so every owner of it is in the set.
-/

namespace DeleteCascade

/-- Rows by table and key. -/
abbrev RowSet := TableName → Int → Prop

namespace Setting

variable {σ : Setting} {st s s' : Store} {P : RowSet} {t u w n : TableName} {c k key : String}
variable {x y v : Int} {r r' : Row} {ids batch : List Int} {test : Row → Bool}

/-! ## Full sets -/

/-- A row that goes with the rows of the set: it is one of them, or a bridge
links it to one. -/
def Taken (σ : Setting) (P : RowSet) (t : TableName) (r : Row) : Prop :=
  (∃ k v, σ.schema.key? t = some k ∧ r.get? k = some v ∧ P t v) ∨
  ∃ w b v, σ.schema.IsBridge w b ∧ b.table.same t ∧ r.get? b.nearColumn = some v ∧ P w v

/-- The rows of the set are all that holds a row in this way. -/
def LetGo (σ : Setting) (st : Store) (P : RowSet) (n : TableName) (x : Int) : Owner → Prop
  | .ownColumn c => ∀ w v, σ.schema.Link n c w → (Fact.cell n x c v).Holds st → P w v
  | .referencing u c => ∀ r ∈ st.rows u, r.get? c = some x → σ.Taken P u r

/-- **A full set of rows**: with a row it has its parts, what the row owns
alone elsewhere, the other rows of the object, and the shared rows that are
held by rows of the set only. -/
structure Full (σ : Setting) (st : Store) (P : RowSet) : Prop where
  spelling : ∀ {t u x}, t.same u → P t x → P u x
  part : ∀ {t u c x y}, σ.schema.Link u c t → σ.Binds u t c → (Fact.cell u y c x).Holds st →
    P t x → P u y
  far : ∀ {t b q x v}, σ.schema.IsBridge t b → σ.Means b.farTable t b.table.name .composition →
    q ∈ st.rows b.table → q.get? b.nearColumn = some x → q.get? b.farColumn = some v →
    P t x → P b.farTable v
  target : ∀ {t u c x v}, σ.schema.Link t c u → t.same u = false →
    σ.Means u t c .composition → (Fact.cell t x c v).Holds st → P t x → P u v
  supertype : ∀ {t u x}, σ.schema.IsSubtype t u → st.HasRow t x → P t x → P u x
  subtype : ∀ {t u x}, σ.schema.IsSubtype u t → st.HasRow u x → P t x → P u x
  shared : ∀ {n x}, σ.Held st n x → (∀ o, σ.Asks n o → σ.LetGo st P n x o) → P n x

theorem Taken.congr (hfull : σ.Full st P) (h : σ.Taken P t r) (hsame : t.same u) :
    σ.Taken P u r := by
  rcases h with ⟨k, v, hk, hv, hP⟩ | ⟨w, b, v, hb, htable, hv, hP⟩
  · exact Or.inl ⟨k, v, by rw [← Schema.key?_congr hsame, hk], hv, hfull.spelling hsame hP⟩
  · exact Or.inr ⟨w, b, v, hb, TableName.same_trans htable hsame, hv, hP⟩

/-- In a table with a key the rows that go are those of the set. -/
theorem Taken.mem (h : σ.Taken P t r) (hk : σ.schema.key? t = some k) (hv : r.get? k = some v) :
    P t v := by
  rcases h with ⟨l, x, hl, hx, hP⟩ | ⟨w, b, x, hb, htable, -⟩
  · rw [hk] at hl
    cases hl
    rw [hv] at hx
    cases hx
    exact hP
  · rw [← Schema.key?_congr htable, hb.key?_eq_none] at hk
    cases hk

theorem Taken.of_sameKey (h : σ.Taken P t r) (hk : σ.schema.key? t = some k)
    (hkey : r'.get? k = r.get? k) : σ.Taken P t r' := by
  rcases h with ⟨l, x, hl, hx, hP⟩ | ⟨w, b, x, hb, htable, -⟩
  · rw [hk] at hl
    cases hl
    exact Or.inl ⟨k, x, hk, by rw [hkey, hx], hP⟩
  · rw [← Schema.key?_congr htable, hb.key?_eq_none] at hk
    cases hk

/-! ## Confined stores -/

/-- A row is as it was but for references to rows of the set, which are cut.
Its key is as it was. -/
structure Trimmed (σ : Setting) (P : RowSet) (t : TableName) (r r' : Row) : Prop where
  cut : r.Cut r'
  values : ∀ c, r'.get? c = r.get? c ∨ (r'.get? c = none ∧
    (∃ k, σ.schema.key? t = some k ∧ sameName c k = false) ∧
    ∃ w v, σ.schema.Link t c w ∧ r.get? c = some v ∧ P w v)

/-- **What was done to the store is confined to the set**: only its rows and
links to them went, and only references to them were lost. -/
structure Confined (σ : Setting) (st : Store) (P : RowSet) (s : Store) : Prop where
  schema : s.schema = st.schema
  rows : ∀ t, Thinned (σ.Taken P t) (σ.Trimmed P t) (st.rows t) (s.rows t)

theorem Trimmed.value (h : σ.Trimmed P t r r') (hv : r'.get? c = some v) : r.get? c = some v := by
  rcases h.values c with heq | ⟨hnone, -⟩
  · rw [← heq, hv]
  · rw [hnone] at hv
    cases hv

theorem Trimmed.sameKey (h : σ.Trimmed P t r r') (hk : σ.schema.key? t = some k) :
    r'.get? k = r.get? k := by
  rcases h.values k with heq | ⟨-, ⟨l, hl, hne⟩, -⟩
  · exact heq
  · rw [hk] at hl
    cases hl
    rw [sameName_refl] at hne
    cases hne

namespace Confined

theorem refl (σ : Setting) (st : Store) (P : RowSet) : σ.Confined st P st :=
  ⟨rfl, fun t => Thinned.refl (fun _ => ⟨.whole, fun _ => Or.inl rfl⟩) (st.rows t)⟩

/-- A row is traced to what it was. -/
theorem origin (h : σ.Confined st P s) (hr' : r' ∈ s.rows t) :
    ∃ r ∈ st.rows t, ∀ c v, r'.get? c = some v → r.get? c = some v := by
  obtain ⟨r, hr, htrimmed⟩ := (h.rows t).exists_of_mem hr'
  exact ⟨r, hr, fun c v hv => htrimmed.value hv⟩

/-- A value that is left was there. -/
theorem holds (h : σ.Confined st P s) (hF : (Fact.cell t x c v).Holds s) :
    (Fact.cell t x c v).Holds st := by
  obtain ⟨k, hk, r', hr', hx, hv⟩ := hF
  obtain ⟨r, hr, hvalues⟩ := h.origin hr'
  exact ⟨k, by rw [← h.schema, hk], r, hr, hvalues k x hx, hvalues c v hv⟩

theorem removeRows (h : σ.Confined st P s) (hfull : σ.Full st P)
    (hgone : ∀ r ∈ st.rows t, ∀ r', (∀ c v, r'.get? c = some v → r.get? c = some v) →
      test r' = true → σ.Taken P t r) : σ.Confined st P (s.removeRows t test) := by
  refine ⟨h.schema, fun u => ?_⟩
  rw [Store.rows_removeRows]
  split
  · rename_i hsame
    refine (h.rows u).filter test fun r hr r' htrimmed htest => ?_
    rw [← Store.rows_congr st hsame] at hr
    exact (hgone r hr r' (fun c v hv => htrimmed.value hv) htest).congr hfull hsame
  · exact h.rows u

/-- References to rows of the set may be cut, other than by a key. -/
theorem clearWhere (h : σ.Confined st P s) (hk : σ.schema.key? t = some k)
    (hcut : ∀ r ∈ st.rows t, ∀ r' v, r'.get? c = some v → r.get? c = some v → test r' = true →
      sameName c k = false ∧ ∃ w, σ.schema.Link t c w ∧ P w v) :
    σ.Confined st P (s.clearWhere t c test) := by
  refine ⟨h.schema, fun u => ?_⟩
  rw [Store.rows_clearWhere]
  split
  · rename_i hsame
    refine (h.rows u).map _ fun r hr r' htrimmed => ⟨?_, fun c' => ?_⟩
    · split
      · exact htrimmed.cut.clear c
      · exact htrimmed.cut
    rw [← Store.rows_congr st hsame] at hr
    by_cases htest : test r' = true
    · rw [if_pos htest, Row.get?_clear]
      split
      · rename_i hc
        -- the value goes with its reference, unless it was lost before
        rcases htrimmed.values c' with heq | hlost
        · cases hv : r.get? c' with
          | none => exact Or.inl rfl
          | some v =>
            rw [hv] at heq
            obtain ⟨hne, w, hlink, hP⟩ := hcut r hr r' v (by rw [Row.get?_congr r' hc, heq])
              (by rw [Row.get?_congr r hc, hv]) htest
            refine Or.inr ⟨rfl, ⟨k, by rw [← Schema.key?_congr hsame, hk], ?_⟩, w, v,
              hlink.congr hsame hc (by simp), rfl, hP⟩
            rw [← sameName_congr_left hc, hne]
        · exact Or.inr ⟨rfl, hlost.2⟩
      · exact htrimmed.values c'
    · rw [if_neg htest]
      exact htrimmed.values c'
  · exact h.rows u

end Confined

end Setting

/-! ## What is taken -/

namespace RowSet

variable {st : Store} {P : RowSet} {t u : TableName} {keys more : List Int}

/-- The rows with these keys are in the set, as far as there are any. -/
def Admits (P : RowSet) (st : Store) (t : TableName) (keys : List Int) : Prop :=
  ∀ v ∈ keys, st.HasRow t v → P t v

/-- The keys are those of rows in the set. -/
def Includes (P : RowSet) (st : Store) (t : TableName) (keys : List Int) : Prop :=
  ∀ v ∈ keys, st.HasRow t v ∧ P t v

theorem Includes.admits (h : P.Includes st t keys) : P.Admits st t keys :=
  fun v hv _ => (h v hv).2

theorem Includes.mono (h : P.Includes st t keys) (hsub : more ⊆ keys) : P.Includes st t more :=
  fun v hv => h v (hsub hv)

theorem Includes.append (h : P.Includes st t keys) (hmore : P.Includes st t more) :
    P.Includes st t (keys ++ more) := by
  intro v hv
  rcases List.mem_append.1 hv with hv | hv
  · exact h v hv
  · exact hmore v hv

end RowSet

namespace Setting

variable {σ : Setting} {st s s' : Store} {P : RowSet} {t u w n : TableName} {c k key : String}
variable {x y v : Int} {r r' : Row} {ids keys batch : List Int} {test : Row → Bool}

theorem Full.admits_congr (h : σ.Full st P) (hadmits : P.Admits st t keys) (hsame : t.same u) :
    P.Admits st u keys :=
  fun v hv hrow => h.spelling hsame (hadmits v hv ((Store.hasRow_congr hsame).2 hrow))

theorem Full.includes_congr (h : σ.Full st P) (hincludes : P.Includes st t keys) (hsame : t.same u) :
    P.Includes st u keys := by
  intro v hv
  obtain ⟨hrow, hP⟩ := hincludes v hv
  exact ⟨(Store.hasRow_congr hsame).1 hrow, h.spelling hsame hP⟩

/-- A row that points into a batch points at a row of the set. -/
theorem mem_of_points (hg : σ.schema.Regular) (hst : st.schema = σ.schema) (hwhole : st.NoDangling)
    (hbatch : P.Admits st t batch) (hlink : σ.schema.Link u c t) (hr : r ∈ st.rows u)
    (hv : r.get? c = some v) (hmem : v ∈ batch) : P t v :=
  hbatch v hmem (hwhole.hasRow (hst ▸ hg) (hst ▸ hlink) hr hv)

/-- Rows that point into a batch said so before, and point at rows of the
set. -/
theorem exists_cell (hg : σ.schema.Regular) (hst : st.schema = σ.schema) (hwhole : st.NoDangling)
    (hconfined : σ.Confined st P s) (hbatch : P.Admits st t batch) (hlink : σ.schema.Link u c t)
    (hk : σ.schema.key? u = some k) (htest : ∀ r, test r = true → pointsInto batch c r = true)
    (hy : y ∈ ((s.rows u).filter test).filterMap (·.get? k)) :
    ∃ v, (Fact.cell u y c v).Holds st ∧ P t v := by
  obtain ⟨r', hr', hr'y⟩ := List.mem_filterMap.1 hy
  obtain ⟨hr', hin⟩ := List.mem_filter.1 hr'
  obtain ⟨v, hv, hr'v⟩ := pointsInto_iff.1 (htest r' hin)
  obtain ⟨r, hr, hvalues⟩ := hconfined.origin hr'
  exact ⟨v, ⟨k, by rw [hst, hk], r, hr, hvalues k y hr'y, hvalues c v hr'v⟩,
    mem_of_points hg hst hwhole hbatch hlink hr (hvalues c v hr'v) hv⟩

/-- Rows may be cut off from a batch of the set. -/
theorem Confined.takes (hg : σ.schema.Regular) (hst : st.schema = σ.schema) (hwhole : st.NoDangling)
    (hconfined : σ.Confined st P s) (hbatch : P.Admits st t batch) (hlink : σ.schema.Link u c t)
    (hk : σ.schema.key? u = some k) (htest : ∀ r, test r = true → pointsInto batch c r = true)
    (hkey : ∀ r, test r = true → sameName c k = false) {detach : Bool} {rows : List Row}
    (htake : s.Takes u c test detach rows s') : σ.Confined st P s' := by
  rw [htake.store]
  split
  · refine hconfined.clearWhere hk fun r hr r' v hr'v hrv hin => ⟨hkey r' hin, t, hlink, ?_⟩
    obtain ⟨y, hy, hr'y⟩ := pointsInto_iff.1 (htest r' hin)
    rw [hr'v] at hr'y
    cases hr'y
    exact mem_of_points hg hst hwhole hbatch hlink hr hrv hy
  · exact hconfined

/-- The rows of a bridge that link to a batch of the set may go. -/
theorem Confined.unlink (hconfined : σ.Confined st P s) (hg : σ.schema.Strict)
    (hst : st.schema = σ.schema) (hwhole : st.NoDangling) (hfull : σ.Full st P)
    (hbatch : P.Admits st t batch) {br : Bridge} (hbr : σ.schema.IsBridge t br) {links : List Row}
    (hdelete : s.deleteWhere br.table (pointsInto batch br.nearColumn) = .ok (links, s')) :
    σ.Confined st P s' := by
  have hrestricts : s.schema.Restricts := by
    rw [hconfined.schema, hst]
    exact hg.restricts
  obtain ⟨-, rfl⟩ := Store.deleteWhere_of_restricts hrestricts hdelete
  refine hconfined.removeRows hfull fun r hr r' hvalues htest => ?_
  obtain ⟨v, hv, hr'v⟩ := pointsInto_iff.1 htest
  have hrv := hvalues _ v hr'v
  exact Or.inr ⟨t, br, v, hbr, by simp, hrv,
    mem_of_points hg.regular hst hwhole hbatch (hbr.spec hg.regular).near hr hrv hv⟩

/-- **Rows that nothing holds any more are in the set** if something held
them before. -/
theorem mem_of_not_held (hg : σ.schema.Strict) (hst : st.schema = σ.schema) (hfull : σ.Full st P)
    (hconfined : σ.Confined st P s) (hk : σ.schema.key? n = some k) (hheld : σ.Held st n x)
    (hnot : ¬ σ.Held s n x) : P n x := by
  have hschema : s.schema = σ.schema := hconfined.schema.trans hst
  by_contra hout
  refine hout (hfull.shared hheld fun o hasks => ?_)
  have hgone (hby : s.HeldBy n x o) : False := hnot ⟨o, hasks, hby⟩
  cases o with
  | ownColumn c =>
    rintro w v hlink ⟨l, hl, r, hr, hx, hv⟩
    rw [hst, hk] at hl
    cases hl
    rcases (hconfined.rows n).dropped_or_kept hr with htaken | ⟨r', hr', htrimmed⟩
    · exact absurd (htaken.mem hk hx) hout
    · rcases htrimmed.values c with heq | ⟨-, -, w', v', hlink', hv', hP⟩
      · exact (hgone ⟨v, k, by rw [hschema, hk], r', hr', by rw [htrimmed.sameKey hk, hx],
          heq.trans hv⟩).elim
      · rw [hv] at hv'
        cases hv'
        exact hfull.spelling (hlink'.target_unique hg.oneKey hlink) hP
  | referencing u c =>
    intro r hr hx
    rcases (hconfined.rows u).dropped_or_kept hr with htaken | ⟨r', hr', htrimmed⟩
    · exact htaken
    · rcases htrimmed.values c with heq | ⟨-, -, w', v', hlink', hv', hP⟩
      · exact (hgone ⟨r', hr', heq.trans hx⟩).elim
      · rw [hx] at hv'
        cases hv'
        exact absurd (hfull.spelling (hlink'.target_unique hg.oneKey (hasks.link hg.regular)) hP) hout

/-- What an owner check lets through is in the set, if something held it
before. -/
theorem includes_of_check (hg : σ.schema.Strict) (hclear : σ.IsClear) (hst : st.schema = σ.schema)
    (hfull : σ.Full st P) (hconfined : σ.Confined st P s) (hk : σ.schema.key? n = some k)
    (hkey : sameName k key) {owners : List Owner} (hcheck : (σ.ownerCheck n).outcome = .ok owners)
    (hids : ∀ x ∈ ids, st.HasRow n x ∧ σ.Held st n x) :
    P.Includes st n (s.unowned n key (some owners) ids) := by
  intro x hx
  obtain ⟨hmem, hnot⟩ := not_held_of_unowned hg.regular hg.oneKey hclear
    (hconfined.schema.trans hst) hk hkey hcheck hx
  obtain ⟨hrow, hheld⟩ := hids x hmem
  exact ⟨hrow, mem_of_not_held hg hst hfull hconfined hk hheld hnot⟩

/-! ## What the blocks do -/

/-- **A call that stays in the set**, if the rows it names are in it. -/
def ConfinedCall (σ : Setting) (st : Store) (P : RowSet) (t : TableName) (keys : List Int)
    (s : Store) (deleted : List Int) (s' : Store) : Prop :=
  σ.Confined st P s → P.Admits st t keys → σ.Confined st P s' ∧ P.Includes st t deleted

/-- What a frame has gathered are rows of the set. -/
structure Collects (st : Store) (P : RowSet) (t : TableName) (captured : List String)
    (frame : Frame) : Prop where
  deleted : P.Includes st t frame.deleted
  deletedParts : P.Includes st t frame.deletedParts
  captured : ∀ (i : Nat) (c : String), captured[i]? = some c →
    ∀ v ∈ (frame.captured[i]?).getD [], ∃ x, (Fact.cell t x c v).Holds st ∧ P t x

section Runs

variable {C : Calls} {f : DeleteFunction} {caller : Caller} {frame frame' : Frame}
variable {notes captured : List String} {deleted : List Int} {callee : Callee}

theorem ConfinedCall.congr (h : σ.ConfinedCall st P t keys s deleted s') (hfull : σ.Full st P)
    (hsame : t.same u) : σ.ConfinedCall st P u keys s deleted s' := by
  intro hconfined hkeys
  obtain ⟨hconfined', hdeleted⟩ :=
    h hconfined (hfull.admits_congr hkeys (TableName.same_symm hsame))
  exact ⟨hconfined', hfull.includes_congr hdeleted hsame⟩

theorem confined_of_deletesOwned (h : DeletesOwned C callee keys s deleted s')
    (hC : ∀ {keys caller s deleted s'}, C callee.function keys caller s deleted s' →
      σ.ConfinedCall st P callee.table keys s deleted s') :
    σ.ConfinedCall st P callee.table keys s deleted s' := by
  cases h with
  | idle => exact fun hconfined _ => ⟨hconfined, fun v hv => absurd hv (by simp)⟩
  | call run => exact hC run

/-- The children that a cascade deletes are in the set. -/
theorem includes_children (hg : σ.schema.Strict) (hclear : σ.IsClear) (hst : st.schema = σ.schema)
    (hwhole : st.NoDangling) (hfull : σ.Full st P) (hbatch : P.Admits st t batch)
    {b : ChildCascade Callee} {rows : List Row}
    (hplan : σ.Plans t (·.table) notes captured (.childCascade b)) (hconfined : σ.Confined st P s)
    (hconfined' : σ.Confined st P s')
    (hrows : rows = (s.rows b.child).filter (pointsInto batch b.column)) :
    P.Includes st b.child
      (s'.unowned b.child b.childKey b.ownerCheck (rows.filterMap (·.get? b.childKey))) := by
  cases hplan with
  | @childCascade _ kind link other key notKey classified owning callee shared unshared =>
    have hcells (y : Int) (hy : y ∈ rows.filterMap (·.get? b.childKey)) :=
      exists_cell hg.regular hst hwhole hconfined hbatch link key (fun _ hr => hr) (hrows ▸ hy)
    cases hcheck : b.ownerCheck with
    | none =>
      have hbinds : σ.Binds b.child t b.column := by
        have hmeans := hclear _ _ _ _ classified
        cases kind with
        | composition => exact Or.inl hmeans
        | aggregation => exact Or.inr ⟨hmeans, unshared hcheck rfl⟩
        | association => cases owning
        | none => cases owning
      intro y hy
      obtain ⟨v, hcell, hP⟩ := hcells y hy
      exact ⟨Fact.hasRow_of_cell hcell, hfull.part link hbinds hcell hP⟩
    | some owners =>
      obtain ⟨-, -, hlist⟩ := shared owners hcheck
      refine includes_of_check hg hclear hst hfull hconfined' key (by simp) hlist fun y hy => ?_
      obtain ⟨v, hcell, -⟩ := hcells y hy
      refine ⟨Fact.hasRow_of_cell hcell, _, .column link (fun _ k hk => ?_)
        (classified.mayOwn owning), v, hcell⟩
      rw [key] at hk
      cases hk
      exact notKey

/-- The rows behind a bridge that a cascade deletes are in the set. -/
theorem includes_far (hg : σ.schema.Strict) (hclear : σ.IsClear) (hst : st.schema = σ.schema)
    (hwhole : st.NoDangling) (hfull : σ.Full st P) (hbatch : P.Admits st t batch) {br : Bridge}
    (hbr : σ.schema.IsBridge t br) {kind : Relation}
    (classified : σ.Classifies br.farTable t br.table.name kind) (howning : kind.isOwning = true)
    {check : Option (List Owner)} (hcheck : σ.ChecksOwners kind br.farTable check)
    (hconfined : σ.Confined st P s) (hconfined' : σ.Confined st P s') {links : List Row}
    (hlinks : links = (s.rows br.table).filter (pointsInto batch br.nearColumn)) :
    P.Includes st br.farTable
      (s'.unowned br.farTable br.farKey check (links.filterMap (·.get? br.farColumn))) := by
  have hspec := hbr.spec hg.regular
  have hrows (x : Int) (hx : x ∈ links.filterMap (·.get? br.farColumn)) :
      ∃ q ∈ st.rows br.table, ∃ v, q.get? br.nearColumn = some v ∧ q.get? br.farColumn = some x ∧
        P t v ∧ st.HasRow br.farTable x := by
    obtain ⟨q', hq', hq'x⟩ := List.mem_filterMap.1 hx
    rw [hlinks] at hq'
    obtain ⟨hq', htest⟩ := List.mem_filter.1 hq'
    obtain ⟨v, hv, hq'v⟩ := pointsInto_iff.1 htest
    obtain ⟨q, hq, hvalues⟩ := hconfined.origin hq'
    have hqv := hvalues _ v hq'v
    have hqx := hvalues _ x hq'x
    exact ⟨q, hq, v, hqv, hqx, mem_of_points hg.regular hst hwhole hbatch hspec.near hq hqv hv,
      hwhole.hasRow (hst ▸ hg.regular) (hst ▸ hspec.far) hq hqx⟩
  cases check with
  | none =>
    have hkind : kind = .composition := by
      cases kind with
      | composition => rfl
      | aggregation => exact absurd rfl hcheck
      | association => cases howning
      | none => cases howning
    intro x hx
    obtain ⟨q, hq, v, hqv, hqx, hP, hrow⟩ := hrows x hx
    exact ⟨hrow, hfull.far hbr (hkind ▸ hclear _ _ _ _ classified) hq hqv hqx hP⟩
  | some owners =>
    obtain ⟨k, hk, hkey⟩ := hspec.farKey
    refine includes_of_check hg hclear hst hfull hconfined' hk hkey hcheck.2 fun x hx => ?_
    obtain ⟨q, hq, v, hqv, hqx, hP, hrow⟩ := hrows x hx
    -- seen from its far side, the bridge links the row to that of the set
    obtain ⟨b, hb, htable, hfar, hnear⟩ := hbr.flip hg.regular hg.oneKey
    refine ⟨hrow, _, .bridge hb ?_, q, ?_, ?_⟩
    · exact (classified.mayOwn howning).congr (by simp) (TableName.same_symm hfar)
        (TableName.sameName_of_same (TableName.same_symm htable))
    · rwa [Store.rows_congr st htable]
    · rw [Row.get?_congr q hnear, hqx]

/-- What the deleted rows pointed at is in the set, as far as it goes. -/
theorem includes_targets (hg : σ.schema.Strict) (hclear : σ.IsClear) (hst : st.schema = σ.schema)
    (hwhole : st.NoDangling) (hfull : σ.Full st P) {b : ReferencedCleanup Callee}
    (hk : σ.schema.key? t = some k)
    (hplan : σ.Plans t (·.table) notes captured (.referencedCleanup b))
    (hframe : Collects st P t captured frame) (hconfined : σ.Confined st P s) :
    P.Includes st b.target
      (s.unowned b.target b.targetKey b.ownerCheck ((frame.captured[b.slot]?).getD [])) := by
  cases hplan with
  | @referencedCleanup _ kind slot link other notKey classified owning key check callee =>
    have hlink := link hg.regular
    have hcells := hframe.captured b.slot b.column slot
    have hrow {x v : Int} (hcell : (Fact.cell t x b.column v).Holds st) : st.HasRow b.target v := by
      obtain ⟨-, -, r, hr, -, hv⟩ := hcell
      exact hwhole.hasRow (hst ▸ hg.regular) (hst ▸ hlink) hr hv
    cases hcheck : b.ownerCheck with
    | none =>
      rw [hcheck] at check
      have hkind : kind = .composition := by
        cases kind with
        | composition => rfl
        | aggregation => exact absurd rfl check
        | association => cases owning
        | none => cases owning
      intro v hv
      obtain ⟨x, hcell, hP⟩ := hcells v hv
      exact ⟨hrow hcell, hfull.target hlink (other hg.regular)
        (hkind ▸ hclear _ _ _ _ classified) hcell hP⟩
    | some owners =>
      rw [hcheck] at check
      obtain ⟨l, hl, hlk⟩ := key hg.regular
      refine includes_of_check hg hclear hst hfull hconfined hl hlk check.2 fun v hv => ?_
      obtain ⟨x, hcell, -⟩ := hcells v hv
      obtain ⟨-, -, r, hr, -, hrv⟩ := id hcell
      have hunlinked : ¬ σ.schema.LinksBy b.target t b.column := by
        rintro ⟨br, hbr, htable, -⟩
        rw [← Schema.key?_congr htable, hbr.key?_eq_none] at hk
        cases hk
      exact ⟨hrow hcell, _, .reference hlink (other hg.regular) (notKey hg.regular) hunlinked
        (classified.mayOwn owning), r, hr, hrv⟩

/-- Subtypes are called for rows of the set. -/
theorem confined_dispatches (hg : σ.schema.Regular) (hst : st.schema = σ.schema)
    (hwhole : st.NoDangling) (hfull : σ.Full st P) (hbatch : P.Admits st t batch)
    {callees : List Callee} (hsub : ∀ c ∈ callees, σ.schema.IsSubtype c.table t)
    (hC : ∀ {c keys caller s deleted s'}, c ∈ callees → C c.function keys caller s deleted s' →
      σ.ConfinedCall st P c.table keys s deleted s')
    {noted noted' : List Int} (h : Dispatches C callees batch noted s noted' s')
    (hconfined : σ.Confined st P s) (hnoted : P.Includes st t noted) :
    σ.Confined st P s' ∧ P.Includes st t noted' := by
  -- an object has its row here if it has one in a subtype
  have hrow {u : TableName} {v : Int} (hsub : σ.schema.IsSubtype u t) (hrow : st.HasRow u v) :
      st.HasRow t v := by
    obtain ⟨k, hk, hlink, -⟩ := hsub
    obtain ⟨l, hl, q, hq, hqv⟩ := hrow
    rw [hst, hk] at hl
    cases hl
    exact hwhole.hasRow (hst ▸ hg) (hst ▸ hlink) hq hqv
  induction h with
  | done => exact ⟨hconfined, hnoted⟩
  | @call c keys deleted new noted noted' s s₁ s' hc hids run hnew _ ih =>
    obtain ⟨hconfined₁, hdeleted⟩ := hC hc run hconfined fun v hv hv' =>
      hfull.subtype (hsub c hc) hv' (hbatch v (hids hv) (hrow (hsub c hc) hv'))
    refine ih hconfined₁ (hnoted.append fun v hv => ?_)
    have hv' := hrow (hsub c hc) (hdeleted v (hnew v hv).2).1
    exact ⟨hv', hbatch v (hnew v hv).1 hv'⟩

/-- **Every block stays in the set**, and gathers only rows of it. -/
theorem confined_block (hg : σ.schema.Strict) (hclear : σ.IsClear) (hst : st.schema = σ.schema)
    (hwhole : st.NoDangling) (hfull : σ.Full st P)
    (hkey : σ.schema.key? f.table = some f.keyColumn) (hbatch : P.Admits st f.table batch)
    {b : Block Callee} (hplan : σ.Plans f.table (·.table) notes captured b)
    (hC : ∀ {c keys caller s deleted s'}, c ∈ b.callees → C c.function keys caller s deleted s' →
      σ.ConfinedCall st P c.table keys s deleted s')
    (hrun : b.Runs C f batch caller frame s frame' s') (hconfined : σ.Confined st P s)
    (hframe : Collects st P f.table captured frame) :
    σ.Confined st P s' ∧ Collects st P f.table captured frame' := by
  have hrestricts : s.schema.Restricts := by
    rw [hconfined.schema, hst]
    exact hg.restricts
  cases hrun with
  | @selfParts b _ _ s₁ _ parts deleted take call =>
    cases hplan with
    | selfParts link classified callee cut =>
      have htest (r : Row) (hr : f.isPart batch b.column r = true) :
          pointsInto batch b.column r = true := by
        simp only [DeleteFunction.isPart, Bool.and_eq_true] at hr
        exact hr.1
      have hconfined₁ := hconfined.takes hg.regular hst hwhole hbatch (link hg.regular) hkey htest
        (fun r hr => f.isPart_key hr) take
      have hparts : P.Includes st f.table (parts.filterMap (·.get? f.keyColumn)) := by
        intro y hy
        rw [take.rows] at hy
        obtain ⟨v, hcell, hP⟩ := exists_cell hg.regular hst hwhole hconfined hbatch
          (link hg.regular) hkey htest hy
        exact ⟨Fact.hasRow_of_cell hcell,
          hfull.part (link hg.regular) (Or.inl (hclear _ _ _ _ classified)) hcell hP⟩
      obtain ⟨hconfined', hdeleted⟩ := confined_of_deletesOwned call
        (hC (by simp [Block.callees])) hconfined₁
        (hfull.admits_congr hparts.admits (TableName.same_symm callee))
      exact ⟨hconfined', hframe.deleted,
        hframe.deletedParts.append (hfull.includes_congr hdeleted callee), hframe.captured⟩
  | @childCascade b _ _ s₁ _ children deleted take call =>
    cases id hplan with
    | childCascade link other key notKey classified owning callee shared unshared =>
      have hconfined₁ := hconfined.takes hg.regular hst hwhole hbatch link key (fun _ hr => hr)
        (fun _ _ => by rw [sameName_comm, notKey]) take
      obtain ⟨hconfined', -⟩ := confined_of_deletesOwned call (hC (by simp [Block.callees]))
        hconfined₁ (hfull.admits_congr (includes_children hg hclear hst hwhole hfull hbatch hplan
          hconfined hconfined₁ take.rows).admits (TableName.same_symm callee))
      exact ⟨hconfined', hframe⟩
  | bridgeOnly remove hnone =>
    cases hplan with
    | bridgeCascade isBridge table near far target targetKey classified check owned unowned =>
      rw [table, near] at remove
      exact ⟨hconfined.unlink hg hst hwhole hfull hbatch isBridge remove, hframe⟩
  | @bridgeCascade b _ _ s₁ _ links deleted callee remove hsome call =>
    cases hplan with
    | @bridgeCascade _ br kind isBridge table near far target targetKey classified check owned
        unowned =>
      rw [table, near] at remove
      have howning : kind.isOwning = true := by
        by_contra hnot
        rw [unowned (by simpa using hnot)] at hsome
        cases hsome
      obtain ⟨c, hc, hsame⟩ := owned howning
      rw [hsome, Option.some.injEq] at hc
      subst hc
      have hconfined₁ := hconfined.unlink hg hst hwhole hfull hbatch isBridge remove
      rw [target, targetKey, far] at call
      obtain ⟨hconfined', -⟩ := confined_of_deletesOwned call
        (hC (by simp [Block.callees, hsome])) hconfined₁
        (hfull.admits_congr (includes_far hg hclear hst hwhole hfull hbatch isBridge classified
          howning check hconfined hconfined₁ (Store.deleteWhere_eq_ok remove).1).admits
          (TableName.same_symm hsame))
      exact ⟨hconfined', hframe⟩
  | subtypeDispatch calls =>
    cases hplan with
    | subtypeDispatch subtypes =>
      obtain ⟨hconfined', hnoted⟩ := confined_dispatches hg.regular hst hwhole hfull hbatch subtypes
        hC calls hconfined hframe.deleted
      exact ⟨hconfined', hnoted, hframe.deletedParts, hframe.captured⟩
  | @localDelete captured' _ _ _ rows remove =>
    cases hplan with
    | localDelete =>
      obtain ⟨rfl, rfl⟩ := Store.deleteWhere_of_restricts hrestricts remove
      have htaken (r r' : Row) (hr : r ∈ st.rows f.table)
          (hvalues : ∀ c v, r'.get? c = some v → r.get? c = some v)
          (htest : pointsInto batch f.keyColumn r' = true) :
          ∃ v, r.get? f.keyColumn = some v ∧ st.HasRow f.table v ∧ P f.table v := by
        obtain ⟨v, hv, hr'v⟩ := pointsInto_iff.1 htest
        have hrow : st.HasRow f.table v :=
          ⟨f.keyColumn, by rw [hst, hkey], r, hr, hvalues _ v hr'v⟩
        exact ⟨v, hvalues _ v hr'v, hrow, hbatch v hv hrow⟩
      refine ⟨hconfined.removeRows hfull fun r hr r' hvalues htest => ?_,
        hframe.deleted.append fun v hv => ?_, hframe.deletedParts, ?_⟩
      · obtain ⟨v, hv, -, hP⟩ := htaken r r' hr hvalues htest
        exact Or.inl ⟨f.keyColumn, v, hkey, hv, hP⟩
      · obtain ⟨r', hr', hr'v⟩ := List.mem_filterMap.1 hv
        obtain ⟨hr's, htest⟩ := List.mem_filter.1 hr'
        obtain ⟨r, hr, hvalues⟩ := hconfined.origin hr's
        obtain ⟨x, hx, hrow, hP⟩ := htaken r r' hr hvalues htest
        rw [hvalues _ v hr'v] at hx
        cases hx
        exact ⟨hrow, hP⟩
      · intro i c hi v hv
        simp only [List.getElem?_map, hi, Option.map_some, Option.getD_some, mem_ascending,
          List.mem_filterMap] at hv
        obtain ⟨r', hr', hr'v⟩ := hv
        obtain ⟨hr's, htest⟩ := List.mem_filter.1 hr'
        obtain ⟨r, hr, hvalues⟩ := hconfined.origin hr's
        obtain ⟨x, hx, -, hP⟩ := htaken r r' hr hvalues htest
        exact ⟨x, ⟨f.keyColumn, by rw [hst, hkey], r, hr, hx, hvalues c v hr'v⟩, hP⟩
  | @referencedCleanup b _ _ _ deleted call =>
    cases id hplan with
    | referencedCleanup slot link other notKey classified owning key check callee =>
      obtain ⟨hconfined', -⟩ := confined_of_deletesOwned call (hC (by simp [Block.callees]))
        hconfined (hfull.admits_congr (includes_targets hg hclear hst hwhole hfull hkey hplan hframe
          hconfined).admits (TableName.same_symm callee))
      exact ⟨hconfined', hframe⟩
  | noParent idle => exact ⟨hconfined, hframe⟩
  | parentCascade calls run =>
    cases hplan with
    | parentCascade supertype =>
      obtain ⟨hconfined', -⟩ := hC (by simp [Block.callees]) run hconfined fun v hv _ =>
        hfull.supertype (supertype hg.regular) (hframe.deleted v hv).1 (hframe.deleted v hv).2
      exact ⟨hconfined', hframe⟩

theorem confined_blocks (hg : σ.schema.Strict) (hclear : σ.IsClear) (hst : st.schema = σ.schema)
    (hwhole : st.NoDangling) (hfull : σ.Full st P)
    (hkey : σ.schema.key? f.table = some f.keyColumn) (hbatch : P.Admits st f.table batch)
    {bs : List (Block Callee)} (hplans : ∀ b ∈ bs, σ.Plans f.table (·.table) notes captured b)
    (hC : ∀ {c keys caller s deleted s'}, c ∈ bs.flatMap (·.callees) →
      C c.function keys caller s deleted s' → σ.ConfinedCall st P c.table keys s deleted s')
    (hrun : Block.RunsAll C f batch caller bs frame s frame' s') (hconfined : σ.Confined st P s)
    (hframe : Collects st P f.table captured frame) :
    σ.Confined st P s' ∧ Collects st P f.table captured frame' := by
  induction hrun with
  | nil => exact ⟨hconfined, hframe⟩
  | @cons b rest _ _ _ _ _ _ first _ ih =>
    obtain ⟨hconfined₁, hframe₁⟩ := confined_block hg hclear hst hwhole hfull hkey hbatch
      (hplans b (by simp)) (fun hc hcall => hC (by simp [hc]) hcall) first hconfined hframe
    exact ih (fun b' hb' => hplans b' (by simp [hb'])) (fun hc hcall => hC (by
      rw [List.flatMap_cons]
      exact List.mem_append_right _ hc) hcall) hconfined₁ hframe₁

end Runs

/-- **Every call stays in a full set.** -/
theorem confined_call {p : Program} {notes : List String} {name : String} {caller : Caller}
    {levels : Nat} {deleted : List Int} (hg : σ.schema.Strict) (hclear : σ.IsClear)
    (hst : st.schema = σ.schema) (hwhole : st.NoDangling) (hfull : σ.Full st P)
    (hserves : ∀ {name f}, p.lookup name = some f → p.Serves σ notes f)
    (h : (p.call levels name keys caller).Yields s deleted s') :
    ∃ f, p.lookup name = some f ∧ σ.ConfinedCall st P f.table keys s deleted s' := by
  refine p.call_induction (S := fun f keys _ s deleted s' =>
    σ.ConfinedCall st P f.table keys s deleted s') ?_ h
  intro deeper name f hf hcalls keys caller s deleted s' hrun hconfined hkeys
  obtain ⟨hkey, ⟨captured, front, back, hblocks, hbody⟩, hcallees⟩ := hserves hf
  cases hrun with
  | idle hempty => exact ⟨hconfined, fun v hv => absurd hv (by simp)⟩
  | @body frame _ hrun =>
    rw [hblocks] at hrun
    have hnone : P.Includes st f.table [] := fun v hv => absurd hv (by simp)
    obtain ⟨hconfined', hframe⟩ := confined_blocks hg hclear hst hwhole hfull hkey
      (fun v hv => hkeys v (mem_ascending.1 hv)) hbody.plans
      (fun {c keys caller s deleted s'} hc hcall => by
        obtain ⟨g, hlookup, hcalled⟩ := hcalls hcall
        refine hcalled.congr hfull (hcallees c ?_ g hlookup)
        rw [DeleteFunction.callees, hblocks]
        exact hc) hrun hconfined ⟨hnone, hnone, by simp [Frame.empty]⟩
    exact ⟨hconfined', (hframe.deleted.append hframe.deletedParts).mono
      fun v hv => mem_ascending.1 hv⟩

end Setting

end DeleteCascade
