import DeleteCascade.Proofs.Deletion.Later
import DeleteCascade.Proofs.Deletion.Visits
/-!
# Deletion — what a visit foresees

A visit tells of a call before the run; `Visit.Expects` says that the call
has come and is as it was told, on the store of that moment. While the
function runs its blocks this stays so (`Expects.later`), and the fronts it
is done with are `Settled`: nothing is left there of what was tied to the
batch. So the rows that the visit takes for swept are gone
(`Expects.not_hasRow_of_swept`), because every bond of composition was
honored on the way (`Follows.going`).
-/

namespace DeleteCascade

variable {σ : Setting} {st s s' : Store} {t u w : TableName} {c k : String} {x y v : Int}
variable {batch : List Int} {D H : Doom}

/-! ## Orderly stores -/

namespace Setting

namespace WellKept

theorem schema_eq (h : σ.WellKept st) (hs : Store.Intact st s) : s.schema = σ.schema :=
  hs.within.schema.trans h.schema

/-- A row that points along a link points at a row. -/
theorem hasRow (h : σ.WellKept st) (hs : Store.Intact st s) (hlink : σ.schema.Link u c t) {q : Row}
    (hq : q ∈ s.rows u) (hv : q.get? c = some v) : s.HasRow t v := by
  rw [← h.schema_eq hs] at hlink
  exact hs.whole.hasRow (h.schema_eq hs ▸ h.strict.regular) hlink hq hv

/-- A row of a subtype has one of the supertype. -/
theorem hasRow_of_subtype (h : σ.WellKept st) (hs : Store.Intact st s)
    (hsub : σ.schema.IsSubtype u t) (hrow : s.HasRow u v) : s.HasRow t v := by
  obtain ⟨k, hk, hlink, -⟩ := hsub
  obtain ⟨l, hl, q, hq, hv⟩ := hrow
  rw [h.schema_eq hs, hk] at hl
  cases hl
  exact h.hasRow hs hlink hq hv

end WellKept

/-- **Rows of a table that no row of another owns** by pointing at them with a
plain column. -/
def Released (σ : Setting) (s : Store) (t : TableName) (batch : List Int) : Prop :=
  ∀ v ∈ batch, ∀ u c, σ.schema.Link u c t → u.same t = false →
    (∀ k, σ.schema.key? u = some k → sameName k c = false) → ¬ σ.schema.LinksBy t u c →
    (∀ kind, σ.Classifies t u c kind → kind.isOwning = true) → ∀ q ∈ s.rows u, q.get? c ≠ some v

/-- What is said in a column without a foreign key is tied to its row. -/
inductive Attributes (σ : Setting) : Bonds
  | cell {t : TableName} {x v : Int} {c : String} (free : ∀ w, ¬ σ.schema.Link t c w) :
      Attributes σ (.cell t x c v) t x

/-- **An orderly store** after some of `st` was taken away: it is intact,
keys are unique, and columns without a foreign key say what they said. -/
structure Orderly (σ : Setting) (st s : Store) : Prop where
  intact : Store.Intact st s
  unique : s.UniqueKeys
  attributes : s.Honors st σ.Attributes Doom.nothing

theorem Orderly.refl (h : σ.WellKept st) : σ.Orderly st st :=
  ⟨.refl h.whole, h.unique, .refl st _ _⟩

/-- **Where keys only restrict, every statement leaves the store orderly.** -/
theorem invariant_orderly (h : σ.WellKept st) : Store.Invariant σ.schema (σ.Orderly st) where
  schema hs := h.schema_eq hs.intact
  delete := by
    intro s s' t test removed hs hdelete
    have hrestricts : s.schema.Restricts := h.schema_eq hs.intact ▸ h.strict.restricts
    refine ⟨hs.intact.deleteWhere hrestricts hdelete, hs.unique.deleteWhere hdelete, ?_⟩
    obtain ⟨-, rfl⟩ := Store.deleteWhere_of_restricts hrestricts hdelete
    refine hs.attributes.removeRows fun F u x hb hhit => ?_
    cases hb with
    | cell free =>
      -- the row that said so was the only one with its key
      obtain ⟨hsame, k, hk, r, hr, htest, hx, -⟩ := hhit
      refine Or.inl ?_
      rintro ⟨l, hl, q, hq, hqx⟩
      rw [Store.schema_removeRows, hk] at hl
      cases hl
      rw [Store.rows_removeRows, if_pos hsame] at hq
      obtain ⟨hq, hkept⟩ := List.mem_filter.1 hq
      rw [hs.unique.eq hk hq hr hqx hx, htest] at hkept
      cases hkept
  clear := by
    intro s t k c test hs hk hkey hlink
    have hschema := h.schema_eq hs.intact
    have hg : s.schema.Regular := hschema ▸ h.strict.regular
    rw [← hschema] at hk
    refine ⟨hs.intact.clearWhere hg hk hkey, hs.unique.clearWhere t c test, ?_⟩
    intro F u x hb hF
    rcases hs.attributes F u x hb hF with hF | hgoing
    · refine Or.inl ((Fact.holds_clearWhere hk hkey hF).resolve_right ?_)
      rintro ⟨hhit, hreads⟩
      cases hb with
      | cell free =>
        obtain ⟨hsame, -⟩ := hhit
        obtain ⟨w, hw⟩ := hlink (hschema ▸ hg)
        exact free w (hw.congr hsame hreads (by simp))
    · exact Or.inr (hgoing.of_within (Store.within_clearWhere s t c test))

/-- What is tied to a row is tied to a row that is there. -/
theorem WellKept.hasRow_of_tied {ls : List Front} {l : Front} {caller : Caller}
    (hkept : σ.WellKept st) (hs : Store.Intact st s) (hls : σ.schema.fronts t = .ok ls) (hl : l ∈ ls)
    (htied : σ.Tied s t caller l v u x) (hrow : s.HasRow u x) : s.HasRow t v := by
  cases htied with
  | @part r _ _ _ same cell =>
    obtain ⟨hchild, hlink⟩ := hkept.strict.regular.link_of_part_mem hls hl
    obtain ⟨k, -, q, hq, -, hv⟩ := cell
    rw [← Store.rows_congr s (TableName.same_trans (TableName.same_symm hchild) same)] at hq
    exact hkept.hasRow hs hlink hq hv
  | @child i _ _ _ plain notKey same cell =>
    obtain ⟨hlink, -⟩ := Schema.link_of_enters_mem hls hl
    obtain ⟨k, -, q, hq, -, hv⟩ := cell
    rw [← Store.rows_congr s same] at hq
    exact hkept.hasRow hs hlink hq hv
  | @far i b _ _ _ q shape same row near far =>
    obtain ⟨hbridge, -⟩ := Schema.bridge_of_enters_mem hls hl shape
    exact hkept.hasRow hs (hbridge.spec hkept.strict.regular).near row near
  | subtype dispatches => exact hkept.hasRow_of_subtype hs dispatches.1 hrow

/-- Where something is tied to a row by composition the front has a block. -/
theorem Tied.needs {ls : List Front} {l : Front} {caller : Caller} (hkept : σ.WellKept st)
    (hls : σ.schema.fronts t = .ok ls) (hl : l ∈ ls)
    (hmeans : ∀ o link, l.owned? = some (o, link) → σ.Means o t link .composition)
    (htied : σ.Tied s t caller l v u x) : σ.Needs t l := by
  cases htied with
  | part =>
    obtain ⟨hchild, -⟩ := hkept.strict.regular.link_of_part_mem hls hl
    exact .part fun kind hkind => hkind.eq_of_means
      ((hmeans _ _ rfl).congr hchild (TableName.same_refl _) (sameName_refl _))
  | child plain notKey =>
    refine .child notKey fun kind hkind => ?_
    rw [hkind.eq_of_means (hmeans _ _ (Front.owned?_child plain notKey))]
    rfl
  | far shape => exact .bridge shape
  | subtype dispatches => exact .subtypes dispatches.1

/-- What is tied to a row was so before. -/
theorem Tied.of_intact {l : Front} {caller : Caller} {ls : List Front} (hkept : σ.WellKept st)
    (hs : Store.Intact st s) (hls : σ.schema.fronts t = .ok ls) (hl : l ∈ ls)
    (htied : σ.Tied s t caller l v u x) : σ.Tied st t caller l v u x := by
  cases htied with
  | part same cell => exact .part same (hs.within.holds cell)
  | child plain notKey same cell => exact .child plain notKey same (hs.within.holds cell)
  | @far i b _ _ _ q shape same row near far =>
    obtain ⟨hbridge, -⟩ := Schema.bridge_of_enters_mem hls hl shape
    refine .far shape same (hs.frozen _ ?_ q row) near far
    rw [hkept.schema_eq hs, hbridge.key?_eq_none]
  | subtype dispatches => exact .subtype dispatches

/-- **What goes with rows that are going is going**, if the bonds of
composition are honored. -/
theorem Follows.going (hkept : σ.WellKept st) (hs : Store.Intact st s) (hhonors : s.Honors st σ.Composes D)
    (hspelling : ∀ t u v, t.same u → D t v → D u v) (hheads : ∀ u x, H u x → s.Going D u x)
    (h : σ.Follows st D H u x) : s.Going D u x := by
  induction h with
  | head h => exact hheads _ _ h
  | part whole free link means cell ih =>
    refine (hhonors _ _ _ (.part link (Or.inl means)) cell).elim (fun hcell => ?_) id
    obtain ⟨k, -, q, hq, -, hv⟩ := hcell
    exact absurd (hkept.hasRow hs link hq hv) (ih.resolve_right free)
  | target whole free link other means cell ih =>
    refine (hhonors _ _ _ (.target link other means) cell).elim (fun hcell => ?_) id
    exact absurd (Fact.hasRow_of_cell hcell) (ih.resolve_right free)
  | far whole free bridge same means row near far ih =>
    rcases hhonors _ _ _ (.far bridge means far) row with hrow | hgone | hdoomed
    · have hnear := (bridge.spec hkept.strict.regular).near
      exact absurd (hkept.hasRow hs hnear hrow near) (ih.resolve_right free)
    · exact Or.inl fun hrow => hgone ((Store.hasRow_congr same).2 hrow)
    · exact Or.inr (hspelling _ _ _ same hdoomed)
  | subtype whole free isSubtype ih =>
    exact Or.inl fun hrow => ih.resolve_right free (hkept.hasRow_of_subtype hs isSubtype hrow)
  | supertype whole free isSubtype row ih =>
    obtain ⟨k, hk, q, hq, hv⟩ := row
    refine (hhonors _ _ _ (.supertype isSubtype (hkept.schema ▸ hk)) ⟨k, hk, q, hq, hv, hv⟩).elim
      (fun hcell => ?_) id
    exact absurd (Fact.hasRow_of_cell hcell) (ih.resolve_right free)

end Setting

/-! ## A call that was foreseen -/

namespace Visit

variable {V : Visit} {a : Arrival} {l : Front} {ls done : List Front}

/-- **A row has arrived as it was told**: what was to be gone is gone, and
its mates are in the batch or gone. -/
structure Arrived (V : Visit) (a : Arrival) (s : Store) (batch : List Int) : Prop where
  gone : ∀ u y, a.gone u y → ¬ s.HasRow u y
  mates : ∀ y, a.mates y → s.HasRow V.table y → y ∈ batch

theorem Arrived.later (h : V.Arrived a s batch) (hw : s'.Within s) : V.Arrived a s' batch :=
  ⟨fun u y hy hrow => h.gone u y hy (hrow.of_within hw),
    fun y hy hrow => h.mates y hy (hrow.of_within hw)⟩

/-- **A front is settled**: nothing is left there of what was tied to the
batch. A row may still point at itself. -/
def Settled (V : Visit) (σ : Setting) (s : Store) (batch : List Int) : Front → Prop
  | .part r => ∀ q ∈ s.rows V.table, ∀ v ∈ batch, q.get? r.childColumn = some v →
      ∃ k, σ.schema.key? V.table = some k ∧ q.get? k = some v
  | .enters i => ∀ q ∈ s.rows i.reference.child,
      pointsInto batch i.reference.childColumn q = false
  | .subtypes => ∀ u, σ.DispatchesTo V.caller V.table u → ∀ v ∈ batch, ¬ s.HasRow u v

/-- At a settled front no row points into the batch any more. -/
theorem Settled.get?_ne {i : Incoming} {q : Row} (h : V.Settled σ s batch (.enters i))
    (hchild : i.reference.child.same u) (hcol : sameName i.reference.childColumn c)
    (hq : q ∈ s.rows u) (hv : v ∈ batch) : q.get? c ≠ some v := by
  intro hqv
  rw [← Store.rows_congr s hchild] at hq
  have hout := h q hq
  rw [pointsInto_iff.2 ⟨v, hv, by rw [Row.get?_congr q hcol, hqv]⟩] at hout
  cases hout

/-- A settled front stays so. -/
theorem Settled.later (h : V.Settled σ s batch l) (hschema : s.schema = σ.schema)
    (hs : Store.Intact s s') : V.Settled σ s' batch l := by
  cases l with
  | part r =>
    intro q' hq' v hv hq'v
    obtain ⟨q, hq, hvalues, hkey⟩ := hs.origin hq'
    obtain ⟨k, hk, hqk⟩ := h q hq v hv (hvalues _ _ hq'v)
    exact ⟨k, hk, by rw [hkey k (by rw [hschema, hk]), hqk]⟩
  | enters i =>
    intro q' hq'
    refine Bool.eq_false_iff.2 fun hpoints => ?_
    obtain ⟨v, hv, hq'v⟩ := pointsInto_iff.1 hpoints
    obtain ⟨q, hq, hvalues, -⟩ := hs.origin hq'
    have hout := h q hq
    rw [pointsInto_iff.2 ⟨v, hv, hvalues _ _ hq'v⟩] at hout
    cases hout
  | subtypes => exact fun u hu v hv hrow => h u hu v hv (hrow.of_within hs.within)

/-- **Of what is tied to the batch, a settled front leaves only rows that
point at themselves.** -/
theorem Settled.eq_of_tied (h : V.Settled σ s batch l) (hkept : σ.WellKept st)
    (hs : Store.Intact st s) (hls : σ.schema.fronts V.table = .ok ls) (hl : l ∈ ls)
    (hy : y ∈ batch) (htied : σ.Tied s V.table V.caller l y u x) (hrow : s.HasRow u x) :
    V.table.same u ∧ x = y := by
  cases htied with
  | @part r _ _ _ same cell =>
    obtain ⟨hchild, -⟩ := hkept.strict.regular.link_of_part_mem hls hl
    have hu : V.table.same u := TableName.same_trans (TableName.same_symm hchild) same
    obtain ⟨k, hk, q, hq, hqx, hqy⟩ := cell
    rw [← Store.rows_congr s hu] at hq
    obtain ⟨k', hk', hqk⟩ := h q hq y hy hqy
    rw [hkept.schema_eq hs, ← Schema.key?_congr hu, hk'] at hk
    cases hk
    rw [hqx, Option.some.injEq] at hqk
    exact ⟨hu, hqk⟩
  | child plain notKey same cell =>
    obtain ⟨k, -, q, hq, -, hqy⟩ := cell
    exact absurd hqy (h.get?_ne same (sameName_refl _) hq hy)
  | @far i b _ _ _ q shape same row near far =>
    obtain ⟨-, -, htable, hnear⟩ := Schema.bridge_of_enters_mem hls hl shape
    exact absurd near (h.get?_ne (by simp [htable]) (by simp [hnear]) row hy)
  | subtype dispatches => exact absurd hrow (h u dispatches _ hy)

/-- **The call of a visit has come**, with these ids and on this store. -/
structure Expects (V : Visit) (σ : Setting) (st s : Store) (batch : List Int) : Prop where
  orderly : σ.Orderly st s
  /-- What is doomed is so in every spelling. -/
  spelling : ∀ u w y, u.same w → V.doomed u y → V.doomed w y
  arrival : ∀ v ∈ batch, s.HasRow V.table v → ∃ a, V.rows v a ∧ V.Arrived a s batch
  honors : s.Honors st σ.Composes (V.doomed.add V.table batch)
  /-- Other owners were asked about, if the rows are shared. -/
  shared : V.shared → σ.Released s V.table batch

namespace Expects

/-- What was foreseen stays so while the blocks run. -/
theorem later (h : V.Expects σ st s batch) (hs : σ.Orderly st s') (hw : s'.Within s)
    (hhonors : s'.Honors st σ.Composes (V.doomed.add V.table batch)) :
    V.Expects σ st s' batch where
  orderly := hs
  spelling := h.spelling
  arrival v hv hrow := by
    obtain ⟨a, hrows, harrived⟩ := h.arrival v hv (hrow.of_within hw)
    exact ⟨a, hrows, harrived.later hw⟩
  honors := hhonors
  shared hshared v hv u c hlink hother hnotKey hplain hall q' hq' hq'v := by
    obtain ⟨q, hq, hvalues⟩ := hw.origin hq'
    exact h.shared hshared v hv u c hlink hother hnotKey hplain hall q hq (hvalues c v hq'v)

/-- What is busy is so in every spelling. -/
theorem busy_congr (h : V.Expects σ st s batch) (hsame : u.same w) (hu : V.busy u y) :
    V.busy w y :=
  hu.imp (h.spelling u w y hsame) fun ⟨ht, a, ha⟩ => ⟨TableName.same_trans ht hsame, a, ha⟩

/-- Rows of the batch are busy, as far as there are any. -/
theorem going_of_batch (h : V.Expects σ st s batch) (hsame : V.table.same u) (hv : v ∈ batch) :
    s.Going V.busy u v := by
  by_cases hrow : s.HasRow V.table v
  · obtain ⟨a, ha, -⟩ := h.arrival v hv hrow
    exact Or.inr (Or.inr ⟨hsame, a, ha⟩)
  · exact Or.inl fun hu => hrow ((Store.hasRow_congr hsame).2 hu)

/-- The bonds are honored with what is busy. -/
theorem honors_busy (h : V.Expects σ st s batch) : s.Honors st σ.Composes V.busy := by
  refine h.honors.of_doom fun u v hgoing => ?_
  rcases hgoing with hgone | hdoomed | ⟨hsame, hv⟩
  · exact Or.inl hgone
  · exact Or.inr (Or.inl hdoomed)
  · exact h.going_of_batch hsame hv

/-- **What is composed of a row is still tied to it** where both are there,
unless it is busy. -/
theorem tied_of_hasRow (h : V.Expects σ st s batch) (hkept : σ.WellKept st)
    (hls : σ.schema.fronts V.table = .ok ls) (hl : l ∈ ls)
    (hmeans : ∀ o link, l.owned? = some (o, link) → σ.Means o V.table link .composition)
    (htied : σ.Tied st V.table V.caller l y u x) (hrow : s.HasRow u x) (hfree : ¬ V.busy u x) :
    σ.Tied s V.table V.caller l y u x := by
  cases htied with
  | @part r _ _ _ same cell =>
    obtain ⟨hchild, hlink⟩ := hkept.strict.regular.link_of_part_mem hls hl
    have hu : V.table.same u := TableName.same_trans (TableName.same_symm hchild) same
    have hcell := h.honors_busy _ _ _ (.part
      (hlink.congr hu (sameName_refl _) (TableName.same_refl _))
      (Or.inl ((hmeans _ _ rfl).congr same (TableName.same_refl _) (sameName_refl _)))) cell
    exact .part same (hcell.resolve_right fun hgoing => hgoing.elim (· hrow) hfree)
  | @child i _ _ _ plain notKey same cell =>
    obtain ⟨hlink, -⟩ := Schema.link_of_enters_mem hls hl
    have hmeans := hmeans _ _ (Front.owned?_child plain notKey)
    have hcell := h.honors_busy _ _ _ (.part
      (hlink.congr same (sameName_refl _) (TableName.same_refl _))
      (Or.inl (hmeans.congr same (TableName.same_refl _) (sameName_refl _)))) cell
    exact .child plain notKey same (hcell.resolve_right fun hgoing => hgoing.elim (· hrow) hfree)
  | @far i b _ _ _ q shape same row near far =>
    obtain ⟨hbridge, notKey, -⟩ := Schema.bridge_of_enters_mem hls hl shape
    have hlink := h.honors_busy _ _ _ (.far hbridge
      (hmeans _ _ (Front.owned?_bridge shape notKey)) far) row
    refine .far shape same (hlink.resolve_right fun hgoing => ?_) near far
    exact hgoing.elim (· ((Store.hasRow_congr same).2 hrow)) fun hbusy =>
      hfree (h.busy_congr same hbusy)
  | subtype dispatches => exact .subtype dispatches

/-- **What was tied to a row of the batch by composition is going**, once
the front is settled. -/
theorem going_of_tied (h : V.Expects σ st s batch) (hkept : σ.WellKept st) (ha : V.Arrived a s batch)
    (hls : σ.schema.fronts V.table = .ok ls) (hl : l ∈ ls)
    (hsettled : σ.Needs V.table l → V.Settled σ s batch l) (hy : a.mates y)
    (hmeans : ∀ o link, l.owned? = some (o, link) → σ.Means o V.table link .composition)
    (htied : σ.Tied st V.table V.caller l y u x) : s.Going V.busy u x := by
  by_cases hrow : s.HasRow u x
  · by_cases hfree : V.busy u x
    · exact Or.inr hfree
    · have hnow := h.tied_of_hasRow hkept hls hl hmeans htied hrow hfree
      have hmem := ha.mates y hy (hkept.hasRow_of_tied h.orderly.intact hls hl hnow hrow)
      obtain ⟨hsame, rfl⟩ := (hsettled (hnow.needs hkept hls hl hmeans)).eq_of_tied hkept
        h.orderly.intact hls hl hmem hnow hrow
      exact h.going_of_batch hsame hmem
  · exact Or.inl hrow

/-- **What was to be swept is gone**, once the fronts are settled. -/
theorem not_hasRow_of_swept (h : V.Expects σ st s batch) (hkept : σ.WellKept st) (ha : V.Arrived a s batch) (hls : σ.schema.fronts V.table = .ok ls)
    (hdone : done ⊆ ls) (hsettled : ∀ l ∈ done, σ.Needs V.table l → V.Settled σ s batch l)
    (hswept : V.swept σ st done a u y) : ¬ s.HasRow u y := by
  rcases hswept with hgone | ⟨hfree, hfollows⟩
  · exact ha.gone u y hgone
  · refine (hfollows.going hkept h.orderly.intact h.honors_busy
      (fun _ _ _ hsame hbusy => h.busy_congr hsame hbusy) ?_).resolve_right hfree
    rintro u x ⟨v, hv, l, hl, htied, hmeans⟩
    exact h.going_of_tied hkept ha hls (hdone hl) (hsettled l hl) hv hmeans htied

end Expects

end Visit

end DeleteCascade
