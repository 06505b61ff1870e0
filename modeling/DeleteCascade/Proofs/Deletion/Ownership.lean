import DeleteCascade.Proofs.Deletion.Doom
import DeleteCascade.Proofs.Store.Thinned
/-!
# Deletion — only what is owned goes

Whatever a deletion removes belongs to its batch, and what it leaves is as
it was but for references to rows that are gone (`delete_spares`). The
invariant is `Spares`, which compares the store of any moment with that
before the deletion; what a caller owes a function is that the rows it
names belong to the batch (`Entitled`). Rows are traced to their originals
by the values they still have, and references among the originals are
whole: this is how a row that points into a batch is seen to belong to it.
-/

namespace DeleteCascade

/-- A foreign key from a column of `u` to `t` makes it NULL when it has to. -/
def Schema.SetsNull (g : Schema) (u : TableName) (c : String) (t : TableName) : Prop :=
  ∃ fk ∈ g.foreignKeys, fk.onDelete = .setNull ∧ fk.source.same u ∧ fk.target.same t ∧
    ∃ a p, fk.columns? = some (a, p) ∧ sameName a c

/-- Foreign keys never take rows along. -/
def Schema.NeverCascades (g : Schema) : Prop := ∀ fk ∈ g.foreignKeys, fk.onDelete ≠ .cascade

instance (g : Schema) : Decidable g.NeverCascades :=
  inferInstanceAs (Decidable (∀ fk ∈ g.foreignKeys, fk.onDelete ≠ .cascade))

namespace Setting

variable {σ : Setting} {st s s' : Store} {root t u : TableName} {ids batch : List Int} {D D' : Doom}
variable {c k : String} {v : Int} {r r' : Row} {test : Row → Bool}

/-- What belongs to a batch if everything counts that may be owned. -/
abbrev Owned (σ : Setting) (st : Store) (root : TableName) (ids : List Int) :
    TableName → Row → Prop :=
  st.Closure σ.MayOwn root ids

/-- Why a reference may be lost: it pointed at a row that belongs to the
batch and is going, and it said that the row is owned or has to become
NULL. -/
def Loses (σ : Setting) (st : Store) (root : TableName) (ids : List Int) (D : Doom) (s : Store)
    (t : TableName) (c : String) (r : Row) : Prop :=
  ∃ w p v, st.schema.Points t r c w p ∧ r.get? c = some v ∧ σ.Owned st root ids w p ∧
    s.Going D w v ∧ (σ.MayOwn t w c ∨ st.schema.SetsNull t c w)

/-- A row is as it was but for references that it may lose. -/
def Keeps (σ : Setting) (st : Store) (root : TableName) (ids : List Int) (D : Doom) (s : Store)
    (t : TableName) (r r' : Row) : Prop :=
  ∀ c, r'.get? c = r.get? c ∨ (r'.get? c = none ∧ σ.Loses st root ids D s t c r)

/-- **So far the store was spared**: rows that went belong to the batch, and
the others are kept. -/
structure Spares (σ : Setting) (st : Store) (root : TableName) (ids : List Int) (D : Doom)
    (s : Store) : Prop where
  schema : s.schema = st.schema
  rows : ∀ t, Thinned (σ.Owned st root ids t) (σ.Keeps st root ids D s t) (st.rows t) (s.rows t)

/-- The rows with these keys belong to the batch, as far as there are any. -/
def Entitled (σ : Setting) (st : Store) (root : TableName) (ids : List Int) (t : TableName)
    (keys : List Int) : Prop :=
  ∀ k, st.schema.key? t = some k → ∀ p ∈ st.rows t, ∀ v ∈ keys, p.get? k = some v →
    σ.Owned st root ids t p

/-- The keys are those of rows that belong to the batch. -/
def Known (σ : Setting) (st : Store) (root : TableName) (ids : List Int) (t : TableName)
    (keys : List Int) : Prop :=
  ∀ v ∈ keys, ∃ k, st.schema.key? t = some k ∧ ∃ p ∈ st.rows t, p.get? k = some v ∧
    σ.Owned st root ids t p

theorem Loses.of_going (h : σ.Loses st root ids D s t c r)
    (hgoing : ∀ w v, s.Going D w v → s'.Going D' w v) : σ.Loses st root ids D' s' t c r := by
  obtain ⟨w, p, v, hpoints, hv, hp, hgone, hwhy⟩ := h
  exact ⟨w, p, v, hpoints, hv, hp, hgoing w v hgone, hwhy⟩

theorem Loses.congr {c' : String} (h : σ.Loses st root ids D s t c r) (ht : t.same u)
    (hc : sameName c c') : σ.Loses st root ids D s u c' r := by
  obtain ⟨w, p, v, ⟨hlink, k, x, hk, hx, hp'⟩, hv, hp, hgone, hwhy⟩ := h
  rw [Row.get?_congr r hc] at hv hx
  refine ⟨w, p, v, ⟨hlink.congr ht hc (by simp), k, x, hk, hx, hp'⟩, hv, hp, hgone, ?_⟩
  rcases hwhy with ⟨kind, hkind, howns⟩ | ⟨fk, hfk, hact, hsource, htarget, a, q, hcols, ha⟩
  · exact Or.inl ⟨kind, hkind.congr ht (by simp) hc, howns⟩
  · exact Or.inr ⟨fk, hfk, hact, TableName.same_trans hsource ht, htarget, a, q, hcols,
      sameName_trans ha hc⟩

theorem Keeps.of_going (h : σ.Keeps st root ids D s t r r')
    (hgoing : ∀ w v, s.Going D w v → s'.Going D' w v) : σ.Keeps st root ids D' s' t r r' :=
  fun c => (h c).imp id fun ⟨hnone, hloses⟩ => ⟨hnone, hloses.of_going hgoing⟩

/-- What a kept row says it said before. -/
theorem Keeps.value (h : σ.Keeps st root ids D s t r r') (hv : r'.get? c = some v) :
    r.get? c = some v := by
  rcases h c with heq | ⟨hnone, -⟩
  · rw [← heq, hv]
  · rw [hnone] at hv
    cases hv

namespace Spares

theorem refl (σ : Setting) (st : Store) (root : TableName) (ids : List Int) (D : Doom) :
    σ.Spares st root ids D st :=
  ⟨rfl, fun t => Thinned.refl (fun _ _ => Or.inl rfl) (st.rows t)⟩

theorem of_going (h : σ.Spares st root ids D s) (hgoing : ∀ w v, s.Going D w v → s.Going D' w v) :
    σ.Spares st root ids D' s :=
  ⟨h.schema, fun t => (h.rows t).mono (fun _ hr => hr) fun _ _ hk => hk.of_going hgoing⟩

/-- A row is traced to what it was. -/
theorem origin (h : σ.Spares st root ids D s) (hr' : r' ∈ s.rows t) :
    ∃ r ∈ st.rows t, ∀ c v, r'.get? c = some v → r.get? c = some v := by
  obtain ⟨r, hr, hkeeps⟩ := (h.rows t).exists_of_mem hr'
  exact ⟨r, hr, fun c v hv => hkeeps.value hv⟩

/-- Rows may go if their originals belong to the batch. -/
theorem removeRows (h : σ.Spares st root ids D s)
    (hgone : ∀ r ∈ st.rows t, ∀ r', (∀ c v, r'.get? c = some v → r.get? c = some v) →
      test r' = true → σ.Owned st root ids t r) : σ.Spares st root ids D (s.removeRows t test) := by
  have hgoing (w : TableName) (v : Int) (hw : s.Going D w v) : (s.removeRows t test).Going D w v :=
    hw.of_within (Store.within_removeRows s t test)
  refine ⟨h.schema, fun u => ?_⟩
  have hrows := (h.rows u).mono (fun _ hr => hr) fun _ _ hk => hk.of_going hgoing
  rw [Store.rows_removeRows]
  split
  · rename_i hsame
    refine hrows.filter test fun r hr r' hkeeps htest => ?_
    rw [← Store.rows_congr st hsame] at hr
    exact (hgone r hr r' (fun c v hv => hkeeps.value hv) htest).spelling hsame
  · exact hrows

/-- A column may become NULL in rows that may lose its reference. -/
theorem clearWhere (h : σ.Spares st root ids D s)
    (hloses : ∀ r ∈ st.rows t, ∀ r' v, r'.get? c = some v → r.get? c = some v → test r' = true →
      σ.Loses st root ids D s t c r) : σ.Spares st root ids D (s.clearWhere t c test) := by
  have hgoing (w : TableName) (v : Int) (hw : s.Going D w v) : (s.clearWhere t c test).Going D w v :=
    hw.of_within (Store.within_clearWhere s t c test)
  refine ⟨h.schema, fun u => ?_⟩
  have hrows := (h.rows u).mono (fun _ hr => hr) fun _ _ hk => hk.of_going hgoing
  rw [Store.rows_clearWhere]
  split
  · rename_i hsame
    refine hrows.map _ fun r hr r' hkeeps c' => ?_
    rw [← Store.rows_congr st hsame] at hr
    by_cases htest : test r' = true
    · rw [if_pos htest, Row.get?_clear]
      split
      · rename_i hc
        -- the value goes with its reference, unless it was lost before
        rcases hkeeps c' with heq | hlost
        · cases hv : r.get? c' with
          | none => exact Or.inl rfl
          | some v =>
            rw [hv] at heq
            refine Or.inr ⟨rfl, ?_⟩
            have hr'v : r'.get? c = some v := by rw [Row.get?_congr r' hc, heq]
            have hrv : r.get? c = some v := by rw [Row.get?_congr r hc, hv]
            exact ((hloses r hr r' v hr'v hrv htest).of_going hgoing).congr hsame hc
        · exact Or.inr ⟨rfl, hlost.2⟩
      · exact hkeeps c'
    · rw [if_neg htest]
      exact hkeeps c'
  · exact hrows

/-- **Rows deleted by a test that their key decides**, with what the
foreign keys that point at them do. -/
theorem deleteWhere (h : σ.Spares st root ids D s) (hg : st.schema.Regular)
    (hnever : st.schema.NeverCascades)
    (hgone : ∀ r ∈ st.rows t, ∀ r', (∀ c v, r'.get? c = some v → r.get? c = some v) →
      test r' = true → σ.Owned st root ids t r)
    (hkey : ∀ k, st.schema.key? t = some k → ∀ r r' : Row, r.get? k = r'.get? k → test r = test r')
    {removed : List Row} (hdelete : s.deleteWhere t test = .ok (removed, s')) :
    σ.Spares st root ids D s' := by
  obtain ⟨hremoved, henforce⟩ := Store.deleteWhere_eq_ok hdelete
  -- no row is left with a key of one that was removed
  have hno {k : String} (hk : st.schema.key? t = some k) {q : Row} (hq : q ∈ removed) {v : Int}
      (hv : q.get? k = some v) : ¬ (s.removeRows t test).HasRow t v := by
    rintro ⟨l, hl, x, hx, hxv⟩
    rw [Store.schema_removeRows, h.schema, hk] at hl
    cases hl
    rw [Store.rows_removeRows, if_pos (by simp)] at hx
    rw [hremoved] at hq
    have hout := (List.mem_filter.1 hx).2
    rw [hkey k hk x q (hxv.trans hv.symm), (List.mem_filter.1 hq).2] at hout
    cases hout
  have hspares := Store.enforce_keeps
    (P := fun s₁ => σ.Spares st root ids D s₁ ∧ s₁.Within (s.removeRows t test))
    (Q := fun e => e ∈ Store.enforcements s.schema t removed) ?_ ?_ _ _ (fun _ he => he)
    ⟨h.removeRows hgone, .refl _⟩ henforce
  · exact hspares.1
  · intro s₁ e he hact
    obtain ⟨fk, hfk, c, p, -, -, rfl⟩ := Store.mem_enforcements.1 he
    rw [h.schema] at hfk
    exact absurd hact (hnever fk (Schema.mem_foreignKeysTo.1 hfk).1)
  · rintro s₁ e - he hact - ⟨hspares, hwithin⟩
    refine ⟨hspares.clearWhere fun r hr r' v hr'v hrv htest => ?_,
      (Store.within_clearWhere s₁ _ _ _).trans hwithin⟩
    obtain ⟨fk, hfk, c, p, hcols, -, rfl⟩ := Store.mem_enforcements.1 he
    rw [h.schema] at hfk
    obtain ⟨hmem, htarget⟩ := Schema.mem_foreignKeysTo.1 hfk
    obtain ⟨c', p', k, hcols', hk, hkp⟩ := hg.columns? hmem
    rw [hcols] at hcols'
    cases hcols'
    rw [Schema.key?_congr htarget] at hk
    simp only [Enforcement.concerns, hr'v, List.contains_iff_mem, List.mem_filterMap] at htest
    obtain ⟨q', hq', hq'v⟩ := htest
    rw [← Row.get?_congr q' hkp] at hq'v
    have hq'mem := hq'
    rw [hremoved] at hq'mem
    obtain ⟨hq's, hq'test⟩ := List.mem_filter.1 hq'mem
    obtain ⟨q, hq, hvalues⟩ := h.origin hq's
    refine ⟨t, q, v, ⟨?_, k, v, hk, hrv, hvalues k v hq'v⟩, hrv, hgone q hq q' hvalues hq'test,
      Or.inl fun hrow => hno hk hq' hq'v (hrow.of_within hwithin), Or.inr ?_⟩
    · exact (Schema.link_of_mem_foreignKeys hmem hcols).congr (by simp) (by simp) htarget
    · exact ⟨fk, hmem, hact, by simp, htarget, c, p, hcols, by simp⟩

end Spares

/-! ## Rows that belong to the batch -/

section Belonging

variable {f : DeleteFunction} {notes captured : List String} {keys : List Int}

theorem Entitled.congr (h : σ.Entitled st root ids t keys) (hsame : t.same u) :
    σ.Entitled st root ids u keys := by
  intro k hk p hp v hv hpv
  rw [← Schema.key?_congr hsame] at hk
  rw [← Store.rows_congr st hsame] at hp
  exact (h k hk p hp v hv hpv).spelling hsame

theorem Known.congr (h : σ.Known st root ids t keys) (hsame : t.same u) :
    σ.Known st root ids u keys := by
  intro v hv
  obtain ⟨k, hk, p, hp, hpv, howned⟩ := h v hv
  exact ⟨k, by rw [← Schema.key?_congr hsame, hk], p, by rwa [← Store.rows_congr st hsame], hpv,
    howned.spelling hsame⟩

/-- With unique keys, known rows are all there are with their keys. -/
theorem Known.entitled (hunique : st.UniqueKeys) (h : σ.Known st root ids t keys) :
    σ.Entitled st root ids t keys := by
  intro k hk p hp v hv hpv
  obtain ⟨l, hl, q, hq, hqv, howned⟩ := h v hv
  rw [hk] at hl
  cases hl
  rwa [hunique.eq hk hp hq hpv hqv]

/-- A row that points into a batch points at a row that belongs to it. -/
theorem exists_target (hg : st.schema.Regular) (hwhole : st.NoDangling)
    (hbatch : σ.Entitled st root ids t batch) (hlink : st.schema.Link u c t) (hr : r ∈ st.rows u)
    (hv : r.get? c = some v) (hmem : v ∈ batch) :
    ∃ p, st.schema.Points u r c t p ∧ σ.Owned st root ids t p := by
  obtain ⟨k, hk⟩ := hg.key?_of_link hlink
  obtain ⟨p, hp, hpv⟩ := hwhole.of_link hg hlink hk hr hv
  exact ⟨p, ⟨hlink, k, v, hk, hv, hpv⟩, hbatch k hk p hp v hmem hpv⟩

/-- Rows that point into the batch of an owner are known. -/
theorem known_of_children (hg : st.schema.Regular) (hwhole : st.NoDangling)
    (hspares : σ.Spares st root ids D s) (hbatch : σ.Entitled st root ids t batch)
    (hlink : st.schema.Link u c t) (howns : σ.MayOwn u t c) (hk : st.schema.key? u = some k)
    (htest : ∀ r, test r = true → pointsInto batch c r = true) :
    σ.Known st root ids u (((s.rows u).filter test).filterMap (·.get? k)) := by
  intro x hx
  obtain ⟨r', hr', hr'x⟩ := List.mem_filterMap.1 hx
  obtain ⟨hr', hin⟩ := List.mem_filter.1 hr'
  obtain ⟨v, hv, hr'v⟩ := pointsInto_iff.1 (htest r' hin)
  obtain ⟨r, hr, hvalues⟩ := hspares.origin hr'
  obtain ⟨p, hpoints, hp⟩ := exists_target hg hwhole hbatch hlink hr (hvalues c v hr'v) hv
  exact ⟨k, hk, r, hr, hvalues k x hr'x, hp.child hr hpoints howns⟩

/-- Owned rows may be cut off from a batch that is going. -/
theorem Spares.takes (hg : st.schema.Regular) (hwhole : st.NoDangling)
    (hspares : σ.Spares st root ids (D.add t batch) s) (hbatch : σ.Entitled st root ids t batch)
    (hlink : st.schema.Link u c t) (howns : σ.MayOwn u t c) {detach : Bool} {rows : List Row}
    (htest : ∀ r, test r = true → pointsInto batch c r = true)
    (htake : s.Takes u c test detach rows s') : σ.Spares st root ids (D.add t batch) s' := by
  rw [htake.store]
  split
  · refine hspares.clearWhere fun r hr r' v hr'v hrv hin => ?_
    obtain ⟨w, hw, hr'w⟩ := pointsInto_iff.1 (htest r' hin)
    rw [hr'v] at hr'w
    cases hr'w
    obtain ⟨p, hpoints, hp⟩ := exists_target hg hwhole hbatch hlink hr hrv hw
    exact ⟨t, p, v, hpoints, hrv, hp, Store.going_add (by simp) hw, Or.inl howns⟩
  · exact hspares

/-! ## What the blocks do -/

/-- **A call that spares the store**: it may be relied on if the rows it
names belong to the batch. -/
def SparingCall (σ : Setting) (st : Store) (root : TableName) (ids : List Int) (t : TableName)
    (keys : List Int) (s : Store) (deleted : List Int) (s' : Store) : Prop :=
  ∀ D, σ.Spares st root ids D s → σ.Entitled st root ids t keys →
    σ.Spares st root ids D s' ∧ σ.Known st root ids t deleted

theorem SparingCall.congr {deleted : List Int} (h : σ.SparingCall st root ids t keys s deleted s')
    (hsame : t.same u) : σ.SparingCall st root ids u keys s deleted s' := by
  intro D hspares hkeys
  obtain ⟨hspares', hknown⟩ := h D hspares (hkeys.congr (TableName.same_symm hsame))
  exact ⟨hspares', hknown.congr hsame⟩

/-- What a frame has gathered are rows that belong to the batch. -/
structure Gathers (σ : Setting) (st : Store) (root : TableName) (ids : List Int) (t : TableName)
    (captured : List String) (frame : Frame) : Prop where
  deleted : σ.Known st root ids t frame.deleted
  deletedParts : σ.Known st root ids t frame.deletedParts
  captured : ∀ (i : Nat) (c : String), captured[i]? = some c →
    ∀ v ∈ (frame.captured[i]?).getD [], ∃ r, σ.Owned st root ids t r ∧ r.get? c = some v

variable {C : Calls} {caller : Caller} {frame frame' : Frame} {callees : List Callee}

theorem Known.append {more : List Int} (h : σ.Known st root ids t keys)
    (hmore : σ.Known st root ids t more) : σ.Known st root ids t (keys ++ more) := by
  intro v hv
  rcases List.mem_append.1 hv with hv | hv
  · exact h v hv
  · exact hmore v hv

theorem Known.mono {fewer : List Int} (h : σ.Known st root ids t keys) (hsub : fewer ⊆ keys) :
    σ.Known st root ids t fewer :=
  fun v hv => h v (hsub hv)

theorem Entitled.mono {fewer : List Int} (h : σ.Entitled st root ids t keys)
    (hsub : fewer ⊆ keys) : σ.Entitled st root ids t fewer :=
  fun k hk p hp v hv hpv => h k hk p hp v (hsub hv) hpv

theorem sparing_of_deletesOwned {callee : Callee} {deleted : List Int}
    (h : DeletesOwned C callee keys s deleted s')
    (hC : ∀ {keys caller s deleted s'}, C callee.function keys caller s deleted s' →
      σ.SparingCall st root ids callee.table keys s deleted s') :
    σ.SparingCall st root ids callee.table keys s deleted s' := by
  cases h with
  | idle => exact fun D hspares _ => ⟨hspares, fun v hv => absurd hv (by simp)⟩
  | call run => exact hC run

theorem unowned_subset (s : Store) (t : TableName) (key : String) (owners : Option (List Owner))
    (keys : List Int) : s.unowned t key owners keys ⊆ keys := by
  intro v hv
  unfold Store.unowned at hv
  split at hv
  · exact hv
  · exact (List.mem_filter.1 hv).1

/-- Rows of a subtype with keys of the batch belong to it. -/
theorem entitled_of_subtype (hg : st.schema.Regular) (hwhole : st.NoDangling)
    (hbatch : σ.Entitled st root ids t batch) (hsub : st.schema.IsSubtype u t) :
    σ.Entitled st root ids u batch := by
  intro k hk q hq v hv hqv
  obtain ⟨l, hl, hlink, hne⟩ := hsub
  rw [hk] at hl
  cases hl
  obtain ⟨p, ⟨-, m, x, hm, hqx, hpx⟩, hp⟩ := exists_target hg hwhole hbatch hlink hq hqv hv
  exact hp.subtype ⟨k, hk, hlink, hne⟩ hq ⟨k, m, x, hk, hm, hqx, hpx⟩

/-- Known rows of a subtype have rows of the table with their keys. -/
theorem known_of_subtype (hg : st.schema.Regular) (hwhole : st.NoDangling)
    (hbatch : σ.Entitled st root ids t batch) (hsub : st.schema.IsSubtype u t)
    (hknown : σ.Known st root ids u keys) (hmem : keys ⊆ batch) : σ.Known st root ids t keys := by
  intro v hv
  obtain ⟨k, hk, q, hq, hqv, -⟩ := hknown v hv
  obtain ⟨l, hl, hlink, -⟩ := hsub
  rw [hk] at hl
  cases hl
  obtain ⟨p, ⟨-, m, x, hm, hqx, hpx⟩, hp⟩ := exists_target hg hwhole hbatch hlink hq hqv (hmem hv)
  rw [hqv] at hqx
  cases hqx
  exact ⟨m, hm, p, hp.mem, hpx, hp⟩

theorem spares_dispatches (hg : st.schema.Regular) (hwhole : st.NoDangling)
    (hbatch : σ.Entitled st root ids t batch)
    (hsub : ∀ c ∈ callees, st.schema.IsSubtype c.table t)
    (hC : ∀ {c keys caller s deleted s'}, c ∈ callees → C c.function keys caller s deleted s' →
      σ.SparingCall st root ids c.table keys s deleted s')
    {noted noted' : List Int} (h : Dispatches C callees batch noted s noted' s')
    (hspares : σ.Spares st root ids D s) (hnoted : σ.Known st root ids t noted) :
    σ.Spares st root ids D s' ∧ σ.Known st root ids t noted' := by
  induction h with
  | done => exact ⟨hspares, hnoted⟩
  | @call c keys deleted new noted noted' s s₁ s' hc hids run hnew _ ih =>
    have hkeys := (entitled_of_subtype hg hwhole hbatch (hsub c hc)).mono hids
    obtain ⟨hspares₁, hdeleted⟩ := hC hc run D hspares hkeys
    have hreported : σ.Known st root ids c.table new := hdeleted.mono fun v hv => (hnew v hv).2
    refine ih hspares₁ (hnoted.append ?_)
    exact known_of_subtype hg hwhole hbatch (hsub c hc) hreported fun v hv => (hnew v hv).1

/-- The rows of a bridge that link to a batch may go. -/
theorem spares_links (hg : st.schema.Regular) (hnever : st.schema.NeverCascades)
    (hwhole : st.NoDangling) (hbatch : σ.Entitled st root ids t batch) {br : Bridge}
    (hbr : st.schema.IsBridge t br) (hspares : σ.Spares st root ids D s) {links : List Row}
    (hdelete : s.deleteWhere br.table (pointsInto batch br.nearColumn) = .ok (links, s')) :
    σ.Spares st root ids D s' := by
  refine hspares.deleteWhere hg hnever (fun r hr r' hvalues htest => ?_) (fun k hk => ?_) hdelete
  · obtain ⟨v, hv, hr'v⟩ := pointsInto_iff.1 htest
    obtain ⟨p, hpoints, hp⟩ :=
      exists_target hg hwhole hbatch (hbr.spec hg).near hr (hvalues _ v hr'v) hv
    exact hp.link hbr hr hpoints
  · rw [hbr.key?_eq_none] at hk
    cases hk

/-- What such rows link to is known if it is owned. -/
theorem known_of_links (hg : st.schema.Regular) (hwhole : st.NoDangling)
    (hbatch : σ.Entitled st root ids t batch) {br : Bridge} (hbr : st.schema.IsBridge t br)
    (howns : σ.MayOwn br.farTable t br.table.name) (hspares : σ.Spares st root ids D s)
    {links : List Row} (hlinks : links = (s.rows br.table).filter (pointsInto batch br.nearColumn)) :
    σ.Known st root ids br.farTable (links.filterMap (·.get? br.farColumn)) := by
  intro x hx
  obtain ⟨q', hq', hq'x⟩ := List.mem_filterMap.1 hx
  rw [hlinks] at hq'
  obtain ⟨hq', htest⟩ := List.mem_filter.1 hq'
  obtain ⟨v, hv, hq'v⟩ := pointsInto_iff.1 htest
  obtain ⟨q, hq, hvalues⟩ := hspares.origin hq'
  have hspec := hbr.spec hg
  obtain ⟨r, hnear, hr⟩ := exists_target hg hwhole hbatch hspec.near hq (hvalues _ v hq'v) hv
  obtain ⟨k, hk⟩ := hg.key?_of_link hspec.far
  obtain ⟨p, hp, hpx⟩ := hwhole.of_link hg hspec.far hk hq (hvalues _ x hq'x)
  exact ⟨k, hk, p, hp, hpx,
    hr.far hbr hq hnear hp ⟨hspec.far, k, x, hk, hvalues _ x hq'x, hpx⟩ howns⟩

/-- The rows of the batch themselves may go, and are known with all that
they say. -/
theorem spares_rows (hg : st.schema.Regular) (hnever : st.schema.NeverCascades)
    (hk : st.schema.key? t = some k) (hbatch : σ.Entitled st root ids t batch)
    (hspares : σ.Spares st root ids D s) {rows : List Row}
    (hdelete : s.deleteWhere t (pointsInto batch k) = .ok (rows, s')) :
    σ.Spares st root ids D s' ∧ ∀ r' ∈ rows, ∃ r ∈ st.rows t, σ.Owned st root ids t r ∧
      ∀ c v, r'.get? c = some v → r.get? c = some v := by
  have howned (r : Row) (hr : r ∈ st.rows t) (r' : Row)
      (hvalues : ∀ c v, r'.get? c = some v → r.get? c = some v)
      (htest : pointsInto batch k r' = true) : σ.Owned st root ids t r := by
    obtain ⟨v, hv, hr'v⟩ := pointsInto_iff.1 htest
    exact hbatch k hk r hr v hv (hvalues k v hr'v)
  refine ⟨hspares.deleteWhere hg hnever howned (fun l hl r q heq => ?_) hdelete, fun r' hr' => ?_⟩
  · rw [hk] at hl
    cases hl
    simp only [pointsInto, heq]
  · obtain ⟨rfl, -⟩ := Store.deleteWhere_eq_ok hdelete
    obtain ⟨hr's, htest⟩ := List.mem_filter.1 hr'
    obtain ⟨r, hr, hvalues⟩ := hspares.origin hr's
    exact ⟨r, hr, howned r hr r' hvalues htest, hvalues⟩

/-- What rows that belong to the batch point at and own is known. -/
theorem known_of_targets (hg : st.schema.Regular) (hwhole : st.NoDangling)
    (hlink : st.schema.Link t c u) (hne : t.same u = false) (hk : st.schema.key? t = some k)
    (howns : σ.MayOwn u t c)
    (hkeys : ∀ v ∈ keys, ∃ r, σ.Owned st root ids t r ∧ r.get? c = some v) :
    σ.Known st root ids u keys := by
  intro v hv
  obtain ⟨r, hr, hrv⟩ := hkeys v hv
  obtain ⟨l, hl⟩ := hg.key?_of_link hlink
  obtain ⟨p, hp, hpv⟩ := hwhole.of_link hg hlink hl hr.mem hrv
  exact ⟨l, hl, p, hp, hpv, hr.referenced hk hp ⟨hlink, l, v, hl, hrv, hpv⟩ hne howns⟩

/-- Rows of a supertype with known keys belong to the batch. -/
theorem entitled_of_supertype (hsub : st.schema.IsSubtype t u)
    (hknown : σ.Known st root ids t keys) : σ.Entitled st root ids u keys := by
  intro l hl p hp v hv hpv
  obtain ⟨k, hk, r, hr, hrv, howned⟩ := hknown v hv
  exact howned.supertype hsub hp ⟨k, l, v, hk, hl, hrv, hpv⟩

/-- **Every block spares the store**, and gathers only rows that belong to
the batch. -/
theorem spares_block (hg : σ.schema.Regular) (hst : st.schema = σ.schema)
    (hnever : σ.schema.NeverCascades) (hunique : st.UniqueKeys) (hwhole : st.NoDangling)
    (hkey : σ.schema.key? f.table = some f.keyColumn)
    (hbatch : σ.Entitled st root ids f.table batch) {b : Block Callee}
    (hplan : σ.Plans f.table (·.table) notes captured b)
    (hC : ∀ {c keys caller s deleted s'}, c ∈ b.callees → C c.function keys caller s deleted s' →
      σ.SparingCall st root ids c.table keys s deleted s')
    (hrun : b.Runs C f batch caller frame s frame' s')
    (hspares : σ.Spares st root ids (D.add f.table batch) s)
    (hframe : σ.Gathers st root ids f.table captured frame) :
    σ.Spares st root ids (D.add f.table batch) s' ∧
      σ.Gathers st root ids f.table captured frame' := by
  rw [← hst] at hg hkey
  cases hrun with
  | @selfParts b _ _ s₁ _ parts deleted take call =>
    cases hplan with
    | selfParts link classified callee cut =>
      rw [← hst] at link
      have howns := classified.mayOwn rfl
      have htest (r : Row) (hr : f.isPart batch b.column r = true) :
          pointsInto batch b.column r = true := by
        simp only [DeleteFunction.isPart, Bool.and_eq_true] at hr
        exact hr.1
      have hknown := known_of_children hg hwhole hspares hbatch (link hg) howns hkey htest
      have hspares₁ := hspares.takes hg hwhole hbatch (link hg) howns htest take
      rw [← take.rows] at hknown
      obtain ⟨hspares', hdeleted⟩ := sparing_of_deletesOwned call (hC (by simp [Block.callees]))
        _ hspares₁ ((hknown.entitled hunique).congr (TableName.same_symm callee))
      exact ⟨hspares', hframe.deleted, hframe.deletedParts.append (hdeleted.congr callee),
        hframe.captured⟩
  | @childCascade b _ _ s₁ _ children deleted take call =>
    cases hplan with
    | childCascade link other key notKey classified owning callee shared unshared =>
      rw [← hst] at link key
      have howns := classified.mayOwn owning
      have hknown := known_of_children hg hwhole hspares hbatch link howns key fun _ hr => hr
      have hspares₁ := hspares.takes hg hwhole hbatch link howns (fun _ hr => hr) take
      rw [← take.rows] at hknown
      obtain ⟨hspares', -⟩ := sparing_of_deletesOwned call (hC (by simp [Block.callees]))
        _ hspares₁ (((hknown.mono (unowned_subset _ _ _ _ _)).entitled hunique).congr
          (TableName.same_symm callee))
      exact ⟨hspares', hframe⟩
  | bridgeOnly remove hnone =>
    cases hplan with
    | bridgeCascade isBridge table near far target targetKey classified check owned unowned =>
      rw [← hst] at isBridge hnever
      rw [table, near] at remove
      exact ⟨spares_links hg hnever hwhole hbatch isBridge hspares remove, hframe⟩
  | @bridgeCascade b _ _ s₁ _ links deleted callee remove hsome call =>
    cases hplan with
    | @bridgeCascade _ br kind isBridge table near far target targetKey classified check owned
        unowned =>
      rw [← hst] at isBridge hnever
      rw [table, near] at remove
      have howning : kind.isOwning = true := by
        by_contra hnot
        rw [unowned (by simpa using hnot)] at hsome
        cases hsome
      obtain ⟨c, hc, hsame⟩ := owned howning
      rw [hsome, Option.some.injEq] at hc
      subst hc
      have hspares₁ := spares_links hg hnever hwhole hbatch isBridge hspares remove
      have hknown := known_of_links hg hwhole hbatch isBridge (classified.mayOwn howning) hspares
        (Store.deleteWhere_eq_ok remove).1
      rw [← far] at hknown
      obtain ⟨hspares', -⟩ := sparing_of_deletesOwned call (hC (by simp [Block.callees, hsome]))
        _ hspares₁ (((hknown.mono (unowned_subset _ _ _ _ _)).entitled hunique).congr
          (TableName.same_symm hsame))
      exact ⟨hspares', hframe⟩
  | subtypeDispatch calls =>
    cases hplan with
    | subtypeDispatch subtypes =>
      rw [← hst] at subtypes
      obtain ⟨hspares', hnoted⟩ := spares_dispatches hg hwhole hbatch subtypes hC calls hspares
        hframe.deleted
      exact ⟨hspares', hnoted, hframe.deletedParts, hframe.captured⟩
  | @localDelete captured' _ _ _ rows remove =>
    cases hplan with
    | localDelete =>
      rw [← hst] at hnever
      obtain ⟨hspares', hrows⟩ := spares_rows hg hnever hkey hbatch hspares remove
      refine ⟨hspares', hframe.deleted.append fun v hv => ?_, hframe.deletedParts, ?_⟩
      · obtain ⟨r', hr', hr'v⟩ := List.mem_filterMap.1 hv
        obtain ⟨r, hr, howned, hvalues⟩ := hrows r' hr'
        exact ⟨f.keyColumn, hkey, r, hr, hvalues _ v hr'v, howned⟩
      · intro i c hi v hv
        simp only [List.getElem?_map, hi, Option.map_some, Option.getD_some, mem_ascending,
          List.mem_filterMap] at hv
        obtain ⟨r', hr', hr'v⟩ := hv
        obtain ⟨r, -, howned, hvalues⟩ := hrows r' hr'
        exact ⟨r, howned, hvalues c v hr'v⟩
  | @referencedCleanup b _ _ _ deleted call =>
    cases hplan with
    | referencedCleanup slot link other notKey classified owning key check callee =>
      rw [← hst] at link other
      have hknown := known_of_targets hg hwhole (link hg) (other hg) hkey
        (classified.mayOwn owning) (hframe.captured b.slot b.column slot)
      obtain ⟨hspares', -⟩ := sparing_of_deletesOwned call (hC (by simp [Block.callees]))
        _ hspares (((hknown.mono (unowned_subset _ _ _ _ _)).entitled hunique).congr
          (TableName.same_symm callee))
      exact ⟨hspares', hframe⟩
  | noParent idle => exact ⟨hspares, hframe⟩
  | parentCascade calls run =>
    cases hplan with
    | parentCascade supertype =>
      rw [← hst] at supertype
      obtain ⟨hspares', -⟩ := hC (by simp [Block.callees]) run _ hspares
        (entitled_of_supertype (supertype hg) hframe.deleted)
      exact ⟨hspares', hframe⟩

theorem spares_blocks (hg : σ.schema.Regular) (hst : st.schema = σ.schema)
    (hnever : σ.schema.NeverCascades) (hunique : st.UniqueKeys) (hwhole : st.NoDangling)
    (hkey : σ.schema.key? f.table = some f.keyColumn)
    (hbatch : σ.Entitled st root ids f.table batch) {bs : List (Block Callee)}
    (hplans : ∀ b ∈ bs, σ.Plans f.table (·.table) notes captured b)
    (hC : ∀ {c keys caller s deleted s'}, c ∈ bs.flatMap (·.callees) →
      C c.function keys caller s deleted s' →
      σ.SparingCall st root ids c.table keys s deleted s')
    (hrun : Block.RunsAll C f batch caller bs frame s frame' s')
    (hspares : σ.Spares st root ids (D.add f.table batch) s)
    (hframe : σ.Gathers st root ids f.table captured frame) :
    σ.Spares st root ids (D.add f.table batch) s' ∧
      σ.Gathers st root ids f.table captured frame' := by
  induction hrun with
  | nil => exact ⟨hspares, hframe⟩
  | @cons b rest _ _ _ _ _ _ first _ ih =>
    obtain ⟨hspares₁, hframe₁⟩ := spares_block hg hst hnever hunique hwhole hkey hbatch
      (hplans b (by simp)) (fun hc hcall => hC (by simp [hc]) hcall) first hspares hframe
    exact ih (fun b' hb' => hplans b' (by simp [hb'])) (fun hc hcall => hC (by
      rw [List.flatMap_cons]
      exact List.mem_append_right _ hc) hcall) hspares₁ hframe₁

end Belonging

/-- **Every call spares the store.** -/
theorem sparing_call {p : Program} {notes : List String} {name : String} {caller : Caller}
    {levels : Nat} {keys deleted : List Int}
    (hg : σ.schema.Regular) (hst : st.schema = σ.schema) (hnever : σ.schema.NeverCascades)
    (hunique : st.UniqueKeys) (hwhole : st.NoDangling)
    (hserves : ∀ {name f}, p.lookup name = some f → p.Serves σ notes f)
    (h : (p.call levels name keys caller).Yields s deleted s') :
    ∃ f, p.lookup name = some f ∧ σ.SparingCall st root ids f.table keys s deleted s' := by
  refine p.call_induction (S := fun f keys _ s deleted s' =>
    σ.SparingCall st root ids f.table keys s deleted s') ?_ h
  intro deeper name f hf hcalls keys caller s deleted s' hrun D hspares hkeys
  obtain ⟨hkey, ⟨captured, front, back, hblocks, hbody⟩, hcallees⟩ := hserves hf
  have hgone := Program.gone_of_runs (hserves hf) (hspares.schema.trans hst) hrun
  have hbatch : σ.Entitled st root ids f.table (ascending keys) :=
    hkeys.mono fun v hv => mem_ascending.1 hv
  cases hrun with
  | idle hempty => exact ⟨hspares, fun v hv => absurd hv (by simp)⟩
  | @body frame _ hrun =>
    rw [hblocks] at hrun
    have hnone : σ.Known st root ids f.table [] := fun v hv => absurd hv (by simp)
    obtain ⟨hspares', hframe⟩ := spares_blocks (D := D) hg hst hnever hunique hwhole hkey hbatch
      hbody.plans (fun {c keys caller s deleted s'} hc hcall => by
        obtain ⟨g, hlookup, hsparing⟩ := hcalls hcall
        refine hsparing.congr (hcallees c ?_ g hlookup)
        rw [DeleteFunction.callees, hblocks]
        exact hc) hrun
      (hspares.of_going fun w v hw => hw.add _ _) ⟨hnone, hnone, by simp [Frame.empty]⟩
    refine ⟨hspares'.of_going fun w v hw => hw.of_add fun v hv => hgone v (mem_ascending.1 hv), ?_⟩
    exact (hframe.deleted.append hframe.deletedParts).mono fun v hv => mem_ascending.1 hv

/-- What a surviving row may have lost: references to rows that belong to
the batch and are gone, by which it was owned or which have to become NULL. -/
def Survives (σ : Setting) (st : Store) (root : TableName) (ids : List Int) (s : Store)
    (t : TableName) (r r' : Row) : Prop :=
  ∀ c, r'.get? c = r.get? c ∨ (r'.get? c = none ∧ ∃ w p, st.schema.Points t r c w p ∧
    σ.Owned st root ids w p ∧ ¬ s.Remains w p ∧ (σ.MayOwn t w c ∨ st.schema.SetsNull t c w))

/-- **Only what is owned goes.** In a regular schema without ON DELETE
CASCADE, a deletion that succeeds on a store with unique keys and whole
references drops from each table only rows that belong to the batch, and
changes the others only where they referred to such rows that are gone. -/
theorem delete_spares {namer : Namer} {start : TableName} {result : Synthesis} {depth : Nat}
    {name : String} {f : DeleteFunction} {deleted : List Int}
    (hg : σ.schema.Regular) (hnever : σ.schema.NeverCascades)
    (hsynthesis : σ.synthesize namer start = .ok result)
    (hst : st.schema = σ.schema) (hunique : st.UniqueKeys) (hwhole : st.NoDangling)
    (hf : (Program.mk result.registry.functions depth).lookup name = some f)
    (h : ((Program.mk result.registry.functions depth).delete st name ids).result = .ok deleted)
    (t : TableName) :
    Thinned (σ.Owned st f.table ids t)
      (σ.Survives st f.table ids
        ((Program.mk result.registry.functions depth).delete st name ids).store t)
      (st.rows t)
      (((Program.mk result.registry.functions depth).delete st name ids).store.rows t) := by
  have hyields := Program.yields_of_delete h
  generalize ((Program.mk result.registry.functions depth).delete st name ids).store = s'
    at hyields ⊢
  obtain ⟨f', hf', hsparing⟩ := sparing_call  hg hst hnever hunique
    hwhole (fun hf => Program.serves_of_synthesize hsynthesis hf) hyields
  rw [hf] at hf'
  cases hf'
  obtain ⟨hspares, -⟩ := hsparing Doom.nothing (.refl σ st f.table ids _)
    fun k hk p hp v hv hpv => .batch hp hk hpv hv
  refine (hspares.rows t).mono (fun _ hr => hr) fun r r' hkeeps c => ?_
  refine (hkeeps c).imp id fun ⟨hnone, w, p, v, hpoints, hv, hp, hgoing, hwhy⟩ => ?_
  refine ⟨hnone, w, p, hpoints, hp, ?_, hwhy⟩
  obtain ⟨-, k, x, hk, hx, hpx⟩ := hpoints
  rw [hv] at hx
  cases hx
  rintro hremains
  simp only [Store.Remains, hspares.schema, hk] at hremains
  obtain ⟨y, hy, hrow⟩ := hremains
  rw [hpx] at hy
  cases hy
  exact hgoing.elim (fun hgone => hgone hrow) id

end Setting

/-! ## A small city -/

/-- A table with a key, and with columns that reference the `id` of other
tables and take NULL unless they belong to the key. -/
def cityTable (name : String) (key : List String) (links : List (String × String)) : Table :=
  links.foldl (fun t (column, target) => t.addReference column target "id" .noAction)
    { Table.empty ⟨"city", name⟩ with
      columns := (key ++ links.map (·.1)).dedup.map fun c => ⟨c, "bigint", !key.contains c⟩
      primaryKey := key }

/-- Buildings own their address, and notes go with the last building they
point at. Themes are linked to buildings by a bridge, which also names the
source that a link goes with. -/
def city : Setting where
  schema := ⟨"city", [cityTable "building" ["id"] [("address", "address")],
    cityTable "address" ["id"] [], cityTable "note" ["id"] [("building", "building")],
    cityTable "theme" ["id"] [], cityTable "source" ["id"] [],
    cityTable "building_theme" ["building", "theme"]
      [("building", "building"), ("theme", "theme"), ("source", "source")]], []⟩
  classifier := .ofRecords [⟨"address", "building", none, .composition⟩,
    ⟨"note", "building", none, .aggregation⟩, ⟨"building_theme", "source", none, .aggregation⟩] true
  discriminator := "class"

/-- One row of each table. -/
def cityStore : Store where
  schema := city.schema
  contents := [(("city", "building"), [⟨[("id", 1), ("address", 7)]⟩]),
    (("city", "address"), [⟨[("id", 7)]⟩]), (("city", "note"), [⟨[("id", 3), ("building", 1)]⟩]),
    (("city", "theme"), [⟨[("id", 6)]⟩]), (("city", "source"), [⟨[("id", 5)]⟩]),
    (("city", "building_theme"), [⟨[("building", 1), ("theme", 6), ("source", 5)]⟩])]

/-- What is left of the city without its building. -/
def cityLeft : Store where
  schema := city.schema
  contents := [(("city", "building"), []), (("city", "address"), []), (("city", "note"), []),
    (("city", "theme"), [⟨[("id", 6)]⟩]), (("city", "source"), [⟨[("id", 5)]⟩]),
    (("city", "building_theme"), [])]

/-- The building is deleted by a function of the city. -/
def cityDeletion (result : Synthesis) : Deletion :=
  Program.delete ⟨result.registry.functions, 8⟩ cityStore "del_building" [1]

/-- The building goes with its address, its note and its theme link. -/
theorem exists_cityDeletion : ∃ result f,
    city.synthesize (.new "del_" 63) ⟨"city", "building"⟩ = .ok result ∧ result.notes = [] ∧
      (Program.mk result.registry.functions 8).lookup "del_building" = some f ∧
      f.table = ⟨"city", "building"⟩ ∧ (cityDeletion result).result = .ok [1] ∧
      (cityDeletion result).store = cityLeft ∧ result.registry.functions.length = 3 := by
  have hrun : ((city.synthesize (.new "del_" 63) ⟨"city", "building"⟩).toOption.any fun result =>
      result.notes = [] ∧
        (((Program.mk result.registry.functions 8).lookup "del_building").map (·.table) =
          some ⟨"city", "building"⟩) ∧ (cityDeletion result).result = .ok [1] ∧
        (cityDeletion result).store.schema = cityLeft.schema ∧
        (cityDeletion result).store.contents = cityLeft.contents ∧
        result.registry.functions.length = 3) = true := by
    -- the two recursions that do not evaluate are followed for as long as they last here
    delta Setting.synthesize cityDeletion Program.delete Program.call Program.call._f Block.run
      BridgeCascade.run runLocalDelete Store.deleteWhere
    rw [← Setting.visitFor_eq city 12, ← Store.enforceFor_eq 9]
    decide +kernel
  cases hsyn : city.synthesize (.new "del_" 63) ⟨"city", "building"⟩ with
  | error e =>
    rw [hsyn] at hrun
    cases hrun
  | ok result =>
    rw [hsyn] at hrun
    obtain ⟨hnotes, htable, hresult, hschema, hcontents, hfunctions⟩ := of_decide_eq_true hrun
    obtain ⟨f, hf, htable⟩ := Option.map_eq_some_iff.1 htable
    refine ⟨result, f, rfl, hnotes, hf, htable, hresult, ?_, hfunctions⟩
    generalize (cityDeletion result).store = s at hschema hcontents
    cases s
    exact congrArg₂ Store.mk hschema hcontents

theorem cityStore_valid : cityStore.UniqueKeys ∧ cityStore.KeysGiven ∧ cityStore.NoDangling := by
  decide +kernel

theorem city_not_isSubtype (u t : TableName) : ¬ city.schema.IsSubtype u t :=
  Schema.not_isSubtype (by decide +kernel) u t

/-- What the deletion of the building spares. -/
theorem Setting.delete_spares_city : ∃ result f,
    city.synthesize (.new "del_" 63) ⟨"city", "building"⟩ = .ok result ∧
      (Program.mk result.registry.functions 8).lookup "del_building" = some f ∧
      ∀ t, Thinned (city.Owned cityStore f.table [1] t)
        (city.Survives cityStore f.table [1] (cityDeletion result).store t) (cityStore.rows t)
        ((cityDeletion result).store.rows t) := by
  obtain ⟨result, f, hsyn, -, hf, -, hrun, -⟩ := exists_cityDeletion
  obtain ⟨hunique, -, hwhole⟩ := cityStore_valid
  exact ⟨result, f, hsyn, hf, fun t => Setting.delete_spares (by decide +kernel)
    (by decide +kernel) hsyn rfl hunique hwhole hf hrun t⟩

end DeleteCascade
