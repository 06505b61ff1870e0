import DeleteCascade.Proofs.Deletion.Later
import DeleteCascade.Proofs.Deletion.Ownership
import DeleteCascade.Proofs.Synthesis.Sections
/-!
# Deletion — deleting the same rows again

A call that is made again on what it left, or on any later store, finds
nothing to do (`Program.call_again`): it reports no id and changes no row.
By induction on the depth of the calls this is shown for a call along with
its first run. Whatever a block selected then is gone or was cut off, so of
the calls that a function makes only those of its subtypes are made again,
with the same ids. `Run.Idles` is what a step of the second run does.
-/

namespace DeleteCascade

/-! ## Steps that change nothing -/

namespace Store

variable {s s' s'' : Store} {t : TableName} {c : String} {test test' : Row → Bool}

/-- Two stores have the same rows. -/
structure SameRows (s s' : Store) : Prop where
  schema : s'.schema = s.schema
  rows : ∀ t, s'.rows t = s.rows t

theorem SameRows.refl (s : Store) : s.SameRows s := ⟨rfl, fun _ => rfl⟩

theorem SameRows.trans (h : s.SameRows s') (h' : s'.SameRows s'') : s.SameRows s'' :=
  ⟨h'.schema.trans h.schema, fun t => (h'.rows t).trans (h.rows t)⟩

theorem SameRows.later (h : s.SameRows s') : s.Later s' :=
  ⟨h.schema, fun t r hr =>
    ⟨r, by rwa [← h.rows t], fun _ => Or.inl rfl, fun _ _ _ => rfl⟩⟩

/-- Where no row passes the test, none is selected. -/
theorem select_idle {rows : List Row} (h : s.select t test = .ok rows)
    (hs : s'.schema = s.schema) : s'.select t test' = .ok ((s'.rows t).filter test') := by
  unfold select table at h ⊢
  rw [hs]
  split at h
  · rfl
  · cases h

/-- Where no row passes the test, none is cleared. -/
theorem setNullWhere_idle {touched : List Row} {s₁ : Store}
    (h : s.setNullWhere t c test = .ok (touched, s₁)) (hs : s'.schema = s.schema)
    (hnone : ∀ r ∈ s'.rows t, test' r = false) :
    ∃ s'', s'.setNullWhere t c test' = .ok ([], s'') ∧ s'.SameRows s'' := by
  have hfilter : (s'.rows t).filter test' = [] :=
    List.filter_eq_nil_iff.2 fun r hr => by simp [hnone r hr]
  unfold setNullWhere table at h ⊢
  rw [hs]
  split at h
  · cases h
  · rename_i d hd
    split at hd
    · rename_i d' hd'
      cases hd
      split at h
      · cases h
      · rename_i col hcol
        refine ⟨s'.clearWhere t c test', ?_, rfl, fun u => ?_⟩
        · simp only [hfilter, List.isEmpty_nil, Bool.not_true, Bool.and_false,
            Bool.false_eq_true, if_false]
          rfl
        · rw [rows_clearWhere]
          split
          · rename_i hsame
            refine (List.map_congr_left fun r hr => ?_).trans (List.map_id _)
            rw [hnone r (by rwa [rows_congr s' hsame])]
            rfl
          · rfl
    · cases hd

/-- Where no row passes the test, none is deleted. -/
theorem deleteWhere_idle {removed : List Row} {s₁ : Store}
    (h : s.deleteWhere t test = .ok (removed, s₁)) (hs : s'.schema = s.schema)
    (hnone : ∀ r ∈ s'.rows t, test' r = false) :
    ∃ s'', s'.deleteWhere t test' = .ok ([], s'') ∧ s'.SameRows s'' := by
  have hfilter : (s'.rows t).filter test' = [] :=
    List.filter_eq_nil_iff.2 fun r hr => by simp [hnone r hr]
  have hnothing : enforcements s'.schema t [] = [] := by
    refine List.filterMap_eq_nil_iff.2 fun fk _ => ?_
    split <;> simp
  unfold deleteWhere table at h ⊢
  rw [hs]
  split at h
  · cases h
  · rename_i d hd
    split at hd
    · rename_i d' hd'
      refine ⟨s'.removeRows t test', ?_, rfl, fun u => ?_⟩
      · dsimp only
        rw [hfilter, ← hs, hnothing, enforce]
        rfl
      · rw [rows_removeRows]
        split
        · rename_i hsame
          exact List.filter_eq_self.2 fun r hr => by
            rw [hnone r (by rwa [rows_congr s' hsame])]
            rfl
        · rfl
    · cases hd

theorem unowned_nil (s : Store) (t : TableName) (key : String) (owners : Option (List Owner)) :
    s.unowned t key owners [] = [] := by
  cases owners <;> rfl

end Store

namespace Run

variable {α β : Type} {m : Run α} {s s' : Store} {P : α → Prop}

/-- **A run idles on a store**: it succeeds with a result of this kind and
changes no row. -/
def Idles (m : Run α) (s : Store) (P : α → Prop) : Prop :=
  ∀ trace, ∃ a s' trace', m ⟨s, trace⟩ = .ok a ⟨s', trace'⟩ ∧ s.SameRows s' ∧ P a

theorem idles_pure {a : α} (h : P a) : (pure a : Run α).Idles s P :=
  fun trace => ⟨a, s, trace, rfl, .refl s, h⟩

theorem idles_bind {f : α → Run β} {Q : β → Prop} (hm : m.Idles s P)
    (hf : ∀ a s', P a → s.SameRows s' → (f a).Idles s' Q) :
    (m >>= f).Idles s Q := by
  intro trace
  obtain ⟨a, s', trace', hrun, hsame, ha⟩ := hm trace
  obtain ⟨b, s'', trace'', hrun', hsame', hb⟩ := hf a s' ha hsame trace'
  refine ⟨b, s'', trace'', ?_, hsame.trans hsame', hb⟩
  show EStateM.bind m f ⟨s, trace⟩ = _
  unfold EStateM.bind
  rw [hrun]
  exact hrun'

theorem idles_statement {change : Store → Except StoreError (α × Store)} {a : α}
    (h : change s = .ok (a, s')) (hsame : s.SameRows s') (ha : P a) :
    (statement change).Idles s P := by
  intro trace
  refine ⟨a, s', trace, ?_, hsame, ha⟩
  simp only [statement, h]

theorem idles_query {read : Store → Except StoreError α} {a : α} (h : read s = .ok a)
    (ha : P a) : (query read).Idles s P := by
  intro trace
  refine ⟨a, s, trace, ?_, .refl s, ha⟩
  simp only [query, h]

theorem idles_enter (call : CallRecord) : (enter call).Idles s fun _ => True :=
  fun trace => ⟨(), s, trace ++ [call], rfl, .refl s, trivial⟩

/-- Nothing is asked about no ids. -/
theorem idles_stillUnowned {t : TableName} {key : String} {owners : Option (List Owner)} :
    (stillUnowned t key owners []).Idles s (· = []) :=
  fun trace => ⟨_, s, trace, rfl, .refl s, Store.unowned_nil s t key owners⟩

/-- A call for no rows is not made. -/
theorem idles_deleteOwned {call : CallFunction} {callee : Callee} :
    (deleteOwned call callee []).Idles s (· = []) :=
  idles_pure rfl

end Run

/-- A frame in which nothing was gathered. -/
structure Frame.Blank (frame : Frame) : Prop where
  deleted : frame.deleted = []
  deletedParts : frame.deletedParts = []
  captured : ∀ ids ∈ frame.captured, ids = []

theorem Frame.Blank.empty : Frame.Blank .empty := ⟨rfl, rfl, by simp [Frame.empty]⟩

theorem Frame.Blank.result {frame : Frame} (h : frame.Blank) : frame.result = [] := by
  rw [Frame.result, h.deleted, h.deletedParts]
  rfl

/-! ## What is not found again -/

namespace Store.Later

variable {s S : Store} {f : DeleteFunction} {batch : List Int} {t : TableName} {c : String}
variable {r : Row} {x : Int}

/-- A row that points into a batch did so before. -/
theorem pointsInto (h : s.Later S) (hr : r ∈ S.rows t) (hpoints : pointsInto batch c r = true) :
    ∃ q ∈ s.rows t, DeleteCascade.pointsInto batch c q = true ∧
      ∀ c v, r.get? c = some v → q.get? c = some v := by
  obtain ⟨q, hq, hvalues, -⟩ := h.origin hr
  obtain ⟨v, hv, hrv⟩ := pointsInto_iff.1 hpoints
  exact ⟨q, hq, pointsInto_iff.2 ⟨v, hv, hvalues c v hrv⟩, hvalues⟩

/-- Rows that were cut off do not point into the batch again. -/
theorem not_pointsInto (h : (s.clearWhere t c (DeleteCascade.pointsInto batch c)).Later S)
    (hr : r ∈ S.rows t) : DeleteCascade.pointsInto batch c r = false := by
  refine Bool.eq_false_iff.2 fun hpoints => ?_
  obtain ⟨q', hq', hpoints', -⟩ := h.pointsInto hr hpoints
  rw [rows_clearWhere, if_pos (TableName.same_refl _)] at hq'
  obtain ⟨q, -, rfl⟩ := List.mem_map.1 hq'
  by_cases hq : DeleteCascade.pointsInto batch c q = true
  · obtain ⟨v, -, hv⟩ := pointsInto_iff.1 hpoints'
    rw [if_pos hq, Row.get?_clear, if_pos (sameName_refl _)] at hv
    cases hv
  · rw [if_neg hq] at hpoints'
    exact hq hpoints'

/-- Nor do rows that were deleted. -/
theorem not_pointsInto_of_deleteWhere {s₀ : Store} {removed : List Row}
    (hdelete : s₀.deleteWhere t (DeleteCascade.pointsInto batch c) = .ok (removed, s))
    (h : s.Later S) (hr : r ∈ S.rows t) : DeleteCascade.pointsInto batch c r = false := by
  refine Bool.eq_false_iff.2 fun hpoints => ?_
  obtain ⟨v, hv, hrv⟩ := pointsInto_iff.1 hpoints
  obtain ⟨q, hq, hvalues⟩ := (h.within.trans (within_enforce (deleteWhere_eq_ok hdelete).2)).rows t r hr
  have hqv : q.get? c = some v := by
    rcases hvalues c with heq | hnone
    · rw [← heq, hrv]
    · rw [hnone] at hrv
      cases hrv
  rw [rows_removeRows, if_pos (TableName.same_refl _)] at hq
  have hout := (List.mem_filter.1 hq).2
  rw [pointsInto_iff.2 ⟨v, hv, hqv⟩] at hout
  cases hout

/-- A part with a key was one before. -/
theorem isPart (h : s.Later S) (hr : r ∈ S.rows f.table) (hpart : f.isPart batch c r = true)
    (hx : r.get? f.keyColumn = some x) :
    ∃ q ∈ s.rows f.table, f.isPart batch c q = true ∧ q.get? f.keyColumn = some x := by
  obtain ⟨q, hq, hvalues, -⟩ := h.origin hr
  simp only [DeleteFunction.isPart, Bool.and_eq_true, pointsInto_iff, bne_iff_ne, ne_eq] at hpart ⊢
  obtain ⟨⟨v, hv, hrv⟩, hother⟩ := hpart
  refine ⟨q, hq, ⟨⟨v, hv, hvalues _ v hrv⟩, ?_⟩, hvalues _ x hx⟩
  rw [hvalues _ v hrv, hvalues _ x hx, ← hrv, ← hx]
  exact hother

/-- Parts that were cut off are no parts again: a row that pointed at itself
still has the key that it points at. -/
theorem not_isPart (h : (s.clearWhere f.table c (f.isPart batch c)).Later S)
    (hself : s.schema.RefersToItself f.table) (hk : s.schema.key? f.table = some f.keyColumn)
    (hr : r ∈ S.rows f.table) : f.isPart batch c r = false := by
  refine Bool.eq_false_iff.2 fun hpart => ?_
  obtain ⟨q', hq', hvalues, hkept⟩ := h.origin hr
  have hkey := hkept hself f.keyColumn hk
  simp only [DeleteFunction.isPart, Bool.and_eq_true, pointsInto_iff] at hpart
  obtain ⟨⟨v, hv, hrv⟩, hother⟩ := hpart
  have hq'v := hvalues c v hrv
  have hpart' : f.isPart batch c q' = true := by
    simp only [DeleteFunction.isPart, Bool.and_eq_true, pointsInto_iff]
    exact ⟨⟨v, hv, hq'v⟩, by rw [← hkey, hq'v, ← hrv]; exact hother⟩
  rw [rows_clearWhere, if_pos (TableName.same_refl _)] at hq'
  obtain ⟨q, -, rfl⟩ := List.mem_map.1 hq'
  by_cases hq : f.isPart batch c q = true
  · rw [if_pos hq, Row.get?_clear, if_pos (sameName_refl _)] at hq'v
    cases hq'v
  · rw [if_neg hq] at hpart'
    exact hq hpart'

end Store.Later

/-! ## Blocks -/

section Again

variable {p : Program} {σ : Setting} {notes captured : List String} {levels : Nat}
variable {f : DeleteFunction} {batch : List Int} {caller : Caller} {frame frame' blank : Frame}
variable {s s₁ S : Store}

/-- **Every call of a program finds nothing to do again**, on any later
store. -/
def Program.Repeats (p : Program) (σ : Setting) (levels : Nat) : Prop :=
  ∀ n ids caller s deleted s' S, (p.call levels n ids caller).Yields s deleted s' →
    s.schema = σ.schema → s.UniqueKeys → s'.Later S →
      (p.call levels n ids caller).Idles S (· = [])

/-- **A step of a function finds nothing to do again**, on any later store. -/
def Run.Repeats (σ : Setting) (m : Frame → Run Frame) : Prop :=
  ∀ frame frame' s s₁, (m frame).Yields s frame' s₁ → s.schema = σ.schema → s.UniqueKeys →
    (s.Later s₁ ∧ s₁.UniqueKeys) ∧
      ∀ S blank, s₁.Later S → blank.Blank → (m blank).Idles S Frame.Blank

/-- Steps that are made one after the other find nothing to do again. -/
theorem Run.Repeats.foldlM {α : Type} {step : Frame → α → Run Frame} {l : List α}
    (hstep : ∀ a ∈ l, Run.Repeats σ fun frame => step frame a) :
    Run.Repeats σ fun frame => l.foldlM step frame := by
  intro frame frame' s s₁ h hs hunique
  induction l generalizing frame s with
  | nil =>
    simp only [List.foldlM_nil] at h ⊢
    obtain ⟨-, rfl⟩ := Run.yields_pure h
    exact ⟨⟨.refl _, hunique⟩, fun _ _ _ hblank => Run.idles_pure hblank⟩
  | cons a rest ih =>
    simp only [List.foldlM_cons] at h ⊢
    obtain ⟨frame₁, s₂, hfirst, hrest⟩ := Run.yields_bind h
    obtain ⟨⟨hlater, hunique'⟩, hagain⟩ := hstep a (by simp) _ _ _ _ hfirst hs hunique
    obtain ⟨⟨hlater', hunique''⟩, hagain'⟩ :=
      ih (fun b hb => hstep b (by simp [hb])) _ _ hrest (hlater.schema.trans hs) hunique'
    refine ⟨⟨hlater.trans hlater', hunique''⟩, fun S blank hS hblank => ?_⟩
    exact Run.idles_bind (hagain _ _ (hlater'.trans hS) hblank) fun blank' S₁ hblank' hrows =>
      hagain' _ _ (hS.trans hrows.later) hblank'

variable (hserves : ∀ {name f}, p.lookup name = some f → p.Serves σ notes f)
variable (hkeys : σ.schema.KeepsKeys)
include hserves hkeys

/-- The rows that a call of an owner was made for are gone. -/
theorem deleteOwned_leaves {callee : Callee} {ids deleted : List Int}
    (hcallee : ∀ g, p.lookup callee.function = some g → g.table.same callee.table)
    (h : (deleteOwned (p.call levels) callee ids).Yields s deleted s₁)
    (hs : s.schema = σ.schema) (hunique : s.UniqueKeys) :
    s.Later s₁ ∧ ∀ v ∈ ids, ¬ s₁.HasRow callee.table v := by
  have hcalls := deletesOwned_of_yields h
  refine ⟨?_, Program.gone_of_deletesOwned hserves hcallee hs hcalls⟩
  cases hcalls with
  | idle => exact .refl s
  | call run => exact (Program.call_later hserves hkeys hs hunique run).1

/-- The parts that are left have no key, or there are none. -/
theorem SelfParts.again {b : SelfParts Callee} (hf : p.Serves σ notes f)
    (hself : σ.schema.RefersToItself f.table) (hmem : .selfParts b ∈ f.blocks)
    (hplan : σ.Plans f.table (·.table) notes captured (.selfParts b))
    (h : (b.run (p.call levels) f batch frame).Yields s frame' s₁) (hs : s.schema = σ.schema)
    (hunique : s.UniqueKeys) (hS : s₁.Later S) (hblank : blank.Blank) :
    (b.run (p.call levels) f batch blank).Idles S Frame.Blank := by
  have hcallee := hf.callees b.callee (List.mem_flatMap.2 ⟨_, hmem, by simp [Block.callees]⟩)
  have hfinish (S₁ : Store) : (do
        let deleted ← deleteOwned (p.call levels) b.callee []
        return { blank with deletedParts := blank.deletedParts ++ deleted } : Run Frame).Idles S₁
          Frame.Blank := by
    refine Run.idles_bind Run.idles_deleteOwned ?_
    rintro _ S₂ rfl -
    exact Run.idles_pure ⟨hblank.deleted, by simp [hblank.deletedParts], hblank.captured⟩
  unfold SelfParts.run at h ⊢
  dsimp only at h ⊢
  split at h <;> rename_i hdetach
  · rw [if_pos hdetach]
    obtain ⟨parts, s₀, htake, h⟩ := Run.yields_bind h
    obtain ⟨deleted, s₂, hcall, h⟩ := Run.yields_bind h
    obtain ⟨-, rfl⟩ := Run.yields_pure h
    have hset := Run.yields_statement htake
    obtain ⟨-, rfl⟩ := Store.setNullWhere_eq_ok hset
    obtain ⟨hlater, -⟩ := deleteOwned_leaves hserves hkeys hcallee hcall hs
      (hunique.clearWhere _ _ _)
    have hcut : (s.clearWhere f.table b.column (f.isPart batch b.column)).Later S :=
      hlater.trans hS
    obtain ⟨S₁, hidle, hrows⟩ := Store.setNullWhere_idle hset hcut.schema fun r hr =>
      hcut.not_isPart (by rwa [hs]) (by rw [hs]; exact hf.key) hr
    refine Run.idles_bind (P := (· = [])) (Run.idles_statement hidle hrows rfl) ?_
    rintro _ S₂ rfl -
    exact hfinish S₂
  · rw [if_neg hdetach]
    obtain ⟨parts, s₀, htake, h⟩ := Run.yields_bind h
    obtain ⟨deleted, s₂, hcall, h⟩ := Run.yields_bind h
    obtain ⟨-, rfl⟩ := Run.yields_pure h
    obtain ⟨hselect, rfl⟩ := Run.yields_query htake
    obtain ⟨hlater, hgone⟩ := deleteOwned_leaves hserves hkeys hcallee hcall hs hunique
    have hall := hlater.trans hS
    have hnone : ((S.rows f.table).filter (f.isPart batch b.column)).filterMap
        (·.get? f.keyColumn) = [] := by
      refine List.filterMap_eq_nil_iff.2 fun r hr => ?_
      obtain ⟨hr, hpart⟩ := List.mem_filter.1 hr
      by_contra hsome
      obtain ⟨x, hx⟩ := Option.ne_none_iff_exists'.1 hsome
      obtain ⟨q, hq, hqpart, hqx⟩ := hall.isPart hr hpart hx
      have hsame : b.callee.table.same f.table = true := by
        cases hplan with
        | selfParts link classified callee => exact callee
      refine hgone x (List.mem_filterMap.2 ⟨q, ?_, hqx⟩) ((Store.hasRow_congr hsame).2 ?_)
      · rw [Store.select_eq_ok hselect]
        exact List.mem_filter.2 ⟨hq, hqpart⟩
      · exact Store.HasRow.of_within ⟨_, by rw [hall.schema, hs]; exact hf.key, r, hr, hx⟩ hS.within
    refine Run.idles_bind (P := (·.filterMap (·.get? f.keyColumn) = []))
      (Run.idles_query (Store.select_idle hselect hall.schema) hnone) fun parts' S₁ hparts' _ => ?_
    rw [hparts']
    exact hfinish S₁

/-- Children that were cut off do not point here, and the others are gone. -/
theorem ChildCascade.again {b : ChildCascade Callee} (hf : p.Serves σ notes f)
    (hmem : .childCascade b ∈ f.blocks)
    (hplan : σ.Plans f.table (·.table) notes captured (.childCascade b))
    (h : (b.run (p.call levels) batch frame).Yields s frame' s₁) (hs : s.schema = σ.schema)
    (hunique : s.UniqueKeys) (hS : s₁.Later S) (hblank : blank.Blank) :
    (b.run (p.call levels) batch blank).Idles S Frame.Blank := by
  have hcallee := hf.callees b.callee (List.mem_flatMap.2 ⟨_, hmem, by simp [Block.callees]⟩)
  have hfinish (S₁ : Store) (ids : List Int) (hids : ids = []) : (do
        let ids ← stillUnowned b.child b.childKey b.ownerCheck ids
        let _ ← deleteOwned (p.call levels) b.callee ids
        return blank : Run Frame).Idles S₁ Frame.Blank := by
    subst hids
    refine Run.idles_bind Run.idles_stillUnowned ?_
    rintro _ S₂ rfl -
    exact Run.idles_bind Run.idles_deleteOwned fun _ _ _ _ => Run.idles_pure hblank
  unfold ChildCascade.run at h ⊢
  obtain ⟨children, s₀, htake, h⟩ := Run.yields_bind h
  obtain ⟨hselect, rfl⟩ := Run.yields_query htake
  dsimp only at h ⊢
  split at h <;> rename_i hdetach
  · obtain ⟨cleared, s₂, hclear, h⟩ := Run.yields_bind h
    obtain ⟨ids, s₃, hids, h⟩ := Run.yields_bind h
    obtain ⟨rfl, rfl⟩ := Run.yields_stillUnowned hids
    obtain ⟨deleted, s₄, hcall, h⟩ := Run.yields_bind h
    obtain ⟨-, rfl⟩ := Run.yields_pure h
    have hset := Run.yields_statement hclear
    obtain ⟨-, rfl⟩ := Store.setNullWhere_eq_ok hset
    obtain ⟨hlater, -⟩ := deleteOwned_leaves hserves hkeys hcallee hcall hs
      (hunique.clearWhere _ _ _)
    have hcut := hlater.trans hS
    have hnone : ∀ r ∈ S.rows b.child, pointsInto batch b.column r = false :=
      fun r hr => hcut.not_pointsInto hr
    refine Run.idles_bind (P := (· = [])) (Run.idles_query
      (Store.select_idle hselect hcut.schema) (List.filter_eq_nil_iff.2 fun r hr => ?_)) ?_
    · simp [hnone r hr]
    · rintro _ S₁ rfl hrows
      rw [if_pos hdetach]
      obtain ⟨S₂, hidle, hrows'⟩ := Store.setNullWhere_idle hset (hrows.schema.trans hcut.schema)
        fun r hr => hnone r (by rwa [← hrows.rows])
      exact Run.idles_bind (P := fun _ => True) (Run.idles_statement hidle hrows' trivial)
        fun _ S₃ _ _ => hfinish S₃ _ rfl
  · obtain ⟨ids, s₂, hids, h⟩ := Run.yields_bind h
    obtain ⟨rfl, rfl⟩ := Run.yields_stillUnowned hids
    obtain ⟨deleted, s₃, hcall, h⟩ := Run.yields_bind h
    obtain ⟨-, rfl⟩ := Run.yields_pure h
    obtain ⟨hlater, hgone⟩ := deleteOwned_leaves hserves hkeys hcallee hcall hs hunique
    have hall := hlater.trans hS
    cases hplan with
    | childCascade link other key notKey classified owning callee shared =>
      -- owners are asked only where children are cut off
      have hcheck : b.ownerCheck = none := by
        cases howners : b.ownerCheck with
        | none => rfl
        | some owners => exact absurd (shared owners howners).2.1 hdetach
      have hnone : ((S.rows b.child).filter (pointsInto batch b.column)).filterMap
          (·.get? b.childKey) = [] := by
        refine List.filterMap_eq_nil_iff.2 fun r hr => ?_
        obtain ⟨hr, hpoints⟩ := List.mem_filter.1 hr
        by_contra hsome
        obtain ⟨x, hx⟩ := Option.ne_none_iff_exists'.1 hsome
        obtain ⟨q, hq, hqpoints, hvalues⟩ := hall.pointsInto hr hpoints
        refine hgone x ?_ ((Store.hasRow_congr callee).2 ?_)
        · rw [hcheck]
          refine List.mem_filterMap.2 ⟨q, ?_, hvalues _ x hx⟩
          rw [Store.select_eq_ok hselect]
          exact List.mem_filter.2 ⟨hq, hqpoints⟩
        · exact Store.HasRow.of_within ⟨_, by rw [hall.schema, hs]; exact key, r, hr, hx⟩ hS.within
      refine Run.idles_bind (P := (·.filterMap (·.get? b.childKey) = []))
        (Run.idles_query (Store.select_idle hselect hall.schema) hnone) fun children' S₁ hids _ => ?_
      rw [if_neg hdetach]
      exact hfinish S₁ _ hids

/-- A bridge has no more links to the batch. -/
theorem BridgeCascade.again {b : BridgeCascade Callee} (hf : p.Serves σ notes f)
    (hmem : .bridgeCascade b ∈ f.blocks)
    (h : (b.run (p.call levels) batch frame).Yields s frame' s₁) (hs : s.schema = σ.schema)
    (hunique : s.UniqueKeys) (hS : s₁.Later S) (hblank : blank.Blank) :
    (b.run (p.call levels) batch blank).Idles S Frame.Blank := by
  unfold BridgeCascade.run at h ⊢
  obtain ⟨links, s₀, hremove, h⟩ := Run.yields_bind h
  have hremoved := Run.yields_statement hremove
  have hlater₀ := Store.later_deleteWhere (hs ▸ hkeys) hremoved
  have hlater : s₀.Later s₁ := by
    cases hcallee : b.callee with
    | none =>
      rw [hcallee] at h
      obtain ⟨-, rfl⟩ := Run.yields_pure h
      exact .refl _
    | some c =>
      rw [hcallee] at h
      dsimp only at h
      obtain ⟨ids, s₂, hids, h⟩ := Run.yields_bind h
      obtain ⟨rfl, rfl⟩ := Run.yields_stillUnowned hids
      obtain ⟨deleted, s₃, hcall, h⟩ := Run.yields_bind h
      obtain ⟨-, rfl⟩ := Run.yields_pure h
      have hserved := hf.callees c (List.mem_flatMap.2 ⟨_, hmem, by simp [Block.callees, hcallee]⟩)
      exact (deleteOwned_leaves hserves hkeys hserved hcall (hlater₀.schema.trans hs)
        (hunique.deleteWhere hremoved)).1
  have hall := hlater.trans hS
  obtain ⟨S₁, hidle, hrows⟩ := Store.deleteWhere_idle hremoved
    (hall.schema.trans hlater₀.schema) fun r hr => hall.not_pointsInto_of_deleteWhere hremoved hr
  refine Run.idles_bind (P := (· = [])) (Run.idles_statement hidle hrows rfl) ?_
  rintro _ S₂ rfl -
  cases b.callee with
  | none => exact Run.idles_pure hblank
  | some c =>
    refine Run.idles_bind Run.idles_stillUnowned ?_
    rintro _ S₃ rfl -
    exact Run.idles_bind Run.idles_deleteOwned fun _ _ _ _ => Run.idles_pure hblank

omit hserves hkeys in
/-- The batch has no more rows. -/
theorem localDelete_again {columns : List String}
    (h : (runLocalDelete columns f batch frame).Yields s frame' s₁) (hs : s₁.schema = s.schema)
    (hS : s₁.Later S) (hblank : blank.Blank) :
    (runLocalDelete columns f batch blank).Idles S Frame.Blank := by
  unfold runLocalDelete at h ⊢
  obtain ⟨rows, s₀, hremove, h⟩ := Run.yields_bind h
  obtain ⟨-, rfl⟩ := Run.yields_pure h
  have hremoved := Run.yields_statement hremove
  obtain ⟨S₁, hidle, hrows⟩ := Store.deleteWhere_idle hremoved (hS.schema.trans hs)
    fun r hr => hS.not_pointsInto_of_deleteWhere hremoved hr
  refine Run.idles_bind (P := (· = [])) (Run.idles_statement hidle hrows rfl) ?_
  rintro _ S₂ rfl -
  refine Run.idles_pure ⟨by simp [hblank.deleted], hblank.deletedParts, fun ids hids => ?_⟩
  obtain ⟨column, -, rfl⟩ := List.mem_map.1 hids
  rfl

omit hserves hkeys in
/-- Nothing was captured. -/
theorem ReferencedCleanup.again {b : ReferencedCleanup Callee} {call : CallFunction}
    (hblank : blank.Blank) : (b.run call blank).Idles S Frame.Blank := by
  have hnone : (blank.captured[b.slot]?).getD [] = [] := by
    cases hids : blank.captured[b.slot]? with
    | none => rfl
    | some ids => exact hblank.captured ids (List.mem_of_getElem? hids)
  unfold ReferencedCleanup.run
  rw [hnone]
  refine Run.idles_bind Run.idles_stillUnowned ?_
  rintro _ S₁ rfl -
  exact Run.idles_bind Run.idles_deleteOwned fun _ _ _ _ => Run.idles_pure hblank

omit hserves hkeys in
/-- No row was deleted whose supertype should go. -/
theorem parentCascade_again {callee : Callee} {call : CallFunction} (hblank : blank.Blank) :
    (runParentCascade callee call caller blank).Idles S Frame.Blank := by
  unfold runParentCascade
  rw [hblank.deleted]
  simp only [List.isEmpty_nil, Bool.or_true, if_true]
  exact Run.idles_pure hblank

/-- The class that an object has left is one that it had. -/
theorem SubtypeDispatch.typed_again {b : SubtypeDispatch Callee} {d : Discriminator} {id : Int}
    (hrepeats : p.Repeats σ levels) (hkey : σ.schema.key? d.table = some d.keyColumn) :
    Run.Repeats σ fun frame => b.runTyped (p.call levels) d frame id := by
  intro frame frame' s s₁ h hs hunique
  unfold SubtypeDispatch.runTyped at h ⊢
  obtain ⟨rows, s₀, hquery, h⟩ := Run.yields_bind h
  obtain ⟨hselect, rfl⟩ := Run.yields_query hquery
  -- what is found again says what the same row said before, if it says anything
  have hclass {S : Store} (hlater : s.Later S) {c : Int} (hc : (((S.rows d.table).filter
      fun r => r.get? d.keyColumn == some id).head?.bind (·.get? d.column)) = some c) :
      rows.head?.bind (·.get? d.column) = some c := by
    obtain ⟨r, hr, hrc⟩ := Option.bind_eq_some_iff.1 hc
    obtain ⟨hrmem, hrid⟩ := List.mem_filter.1 (List.mem_of_head? hr)
    obtain ⟨q, hq, hvalues, -⟩ := hlater.origin hrmem
    have hqid := hvalues _ id (by simpa using hrid)
    have hqmem : q ∈ rows := by
      rw [Store.select_eq_ok hselect]
      exact List.mem_filter.2 ⟨hq, by simp [hqid]⟩
    cases hrows : rows with
    | nil =>
      rw [hrows] at hqmem
      cases hqmem
    | cons q' rest =>
      have hq'mem : q' ∈ rows := by simp [hrows]
      rw [Store.select_eq_ok hselect] at hq'mem
      obtain ⟨hq's, hq'id⟩ := List.mem_filter.1 hq'mem
      obtain rfl := hunique.eq (by rw [hs]; exact hkey) hq's hq (by simpa using hq'id) hqid
      simpa using hvalues _ c hrc
  have hagain {S : Store} {blank : Frame} (hlater : s.Later S) (hblank : blank.Blank)
      (hnext : ∀ c subtype, rows.head?.bind (·.get? d.column) = some c →
        b.cases.find? (·.classes.contains c) = some subtype → ∀ S₁, S.SameRows S₁ →
          (p.call levels subtype.callee.function [id] .fromParent).Idles S₁ (· = [])) :
      (b.runTyped (p.call levels) d blank id).Idles S Frame.Blank := by
    unfold SubtypeDispatch.runTyped
    refine Run.idles_bind (P := (· = (S.rows d.table).filter
      fun r => r.get? d.keyColumn == some id))
      (Run.idles_query (Store.select_idle hselect hlater.schema) rfl) ?_
    rintro _ S₁ rfl hrows
    split
    · exact Run.idles_pure hblank
    · rename_i c hc
      split
      · exact Run.idles_pure hblank
      · rename_i subtype hsubtype
        refine Run.idles_bind (hnext c subtype (hclass hlater hc) hsubtype S₁ hrows) ?_
        rintro _ S₂ rfl -
        exact Run.idles_pure hblank
  split at h
  · rename_i hnone
    obtain ⟨-, rfl⟩ := Run.yields_pure h
    refine ⟨⟨.refl _, hunique⟩, fun S blank hS hblank => hagain hS hblank fun c _ hc => ?_⟩
    rw [hnone] at hc
    cases hc
  · rename_i c hfound
    split at h
    · rename_i hnone
      obtain ⟨-, rfl⟩ := Run.yields_pure h
      refine ⟨⟨.refl _, hunique⟩, fun S blank hS hblank => hagain hS hblank fun c' subtype hc' hsubtype => ?_⟩
      rw [hfound] at hc'
      cases hc'
      rw [hnone] at hsubtype
      cases hsubtype
    · rename_i subtype hsubtype
      obtain ⟨deleted, s₂, hcall, h⟩ := Run.yields_bind h
      obtain ⟨-, rfl⟩ := Run.yields_pure h
      obtain ⟨hlater, hunique'⟩ := Program.call_later hserves hkeys hs hunique hcall
      refine ⟨⟨hlater, hunique'⟩, fun S blank hS hblank =>
        hagain (hlater.trans hS) hblank fun c' subtype' hc' hsubtype' S₁ hrows => ?_⟩
      rw [hfound] at hc'
      cases hc'
      rw [hsubtype] at hsubtype'
      cases hsubtype'
      exact hrepeats _ _ _ _ _ _ _ hcall hs hunique (hS.trans hrows.later)

/-- The subtypes without classes are called again, and find nothing. -/
theorem hooks_again {hooks : List Callee} (hrepeats : p.Repeats σ levels) {u : Unit}
    (h : (hooks.forM fun hook => do
      let _ ← p.call levels hook.function batch .fromParent : Run Unit).Yields s u s₁)
    (hs : s.schema = σ.schema) (hunique : s.UniqueKeys) :
    (s.Later s₁ ∧ s₁.UniqueKeys) ∧ ∀ {S}, s₁.Later S → (hooks.forM fun hook => do
      let _ ← p.call levels hook.function batch .fromParent : Run Unit).Idles S fun _ => True := by
  induction hooks generalizing s with
  | nil =>
    obtain ⟨-, rfl⟩ := Run.yields_pure h
    exact ⟨⟨.refl _, hunique⟩, fun _ => Run.idles_pure trivial⟩
  | cons hook hooks ih =>
    change ((do let _ ← p.call levels hook.function batch .fromParent) >>= fun _ =>
      hooks.forM fun hook => do
        let _ ← p.call levels hook.function batch .fromParent : Run Unit).Yields s u s₁ at h
    obtain ⟨u₁, s₂, hfirst, hrest⟩ := Run.yields_bind h
    obtain ⟨deleted, s₃, hcall, hpure⟩ := Run.yields_bind hfirst
    obtain ⟨-, rfl⟩ := Run.yields_pure hpure
    obtain ⟨hlater, hunique'⟩ := Program.call_later hserves hkeys hs hunique hcall
    obtain ⟨⟨hlater', hunique''⟩, hagain⟩ := ih hrest (hlater.schema.trans hs) hunique'
    refine ⟨⟨hlater.trans hlater', hunique''⟩, fun {S} hS => ?_⟩
    change ((do let _ ← p.call levels hook.function batch .fromParent) >>= fun _ =>
      hooks.forM fun hook => do
        let _ ← p.call levels hook.function batch .fromParent : Run Unit).Idles S fun _ => True
    refine Run.idles_bind (P := fun _ => True) (Run.idles_bind
      (hrepeats _ _ _ _ _ _ _ hcall hs hunique (hlater'.trans hS)) fun _ _ _ _ => Run.idles_pure trivial) ?_
    exact fun _ S₁ _ hrows => hagain (hS.trans hrows.later)

/-- The subtypes find nothing again. -/
theorem SubtypeDispatch.again {b : SubtypeDispatch Callee} (hrepeats : p.Repeats σ levels)
    (hkey : ∀ d, b.discriminator = some d → σ.schema.key? d.table = some d.keyColumn) :
    Run.Repeats σ fun frame => b.run (p.call levels) batch caller frame := by
  have hafter {m : Frame → Run Frame} (hm : Run.Repeats σ m) : Run.Repeats σ fun frame => do
      let frame ← m frame
      b.hooks.forM fun hook => do
        let _ ← p.call levels hook.function batch .fromParent
      return frame := by
    intro frame frame' s s₁ h hs hunique
    obtain ⟨frame₁, s₂, hfirst, h⟩ := Run.yields_bind h
    obtain ⟨u, s₃, hhooks, h⟩ := Run.yields_bind h
    obtain ⟨-, rfl⟩ := Run.yields_pure h
    obtain ⟨⟨hlater, hunique'⟩, hagain⟩ := hm _ _ _ _ hfirst hs hunique
    obtain ⟨⟨hlater', hunique''⟩, hagain'⟩ :=
      hooks_again hserves hkeys hrepeats hhooks (hlater.schema.trans hs) hunique'
    refine ⟨⟨hlater.trans hlater', hunique''⟩, fun S blank hS hblank => ?_⟩
    refine Run.idles_bind (hagain _ _ (hlater'.trans hS) hblank) fun blank S₁ hblank hrows => ?_
    exact Run.idles_bind (hagain' (hS.trans hrows.later)) fun _ _ _ _ => Run.idles_pure hblank
  have hnothing : Run.Repeats σ (pure : Frame → Run Frame) := by
    intro frame frame' s s₁ h hs hunique
    obtain ⟨-, rfl⟩ := Run.yields_pure h
    exact ⟨⟨.refl _, hunique⟩, fun _ _ _ hblank => Run.idles_pure hblank⟩
  unfold SubtypeDispatch.run
  cases hd : b.discriminator with
  | none => exact hafter hnothing
  | some d =>
    by_cases hskips : caller.skipsSubtypes = true
    · simp only [hskips, if_true]
      exact hafter hnothing
    · simp only [hskips, Bool.false_eq_true, if_false]
      exact hafter (Run.Repeats.foldlM fun id _ =>
        typed_again hserves hkeys hrepeats (hkey d hd))

/-! ## Functions -/

/-- **Each block of a function finds nothing to do again.** -/
theorem Block.again {b : Block Callee} (hf : p.Serves σ notes f) (hmem : b ∈ f.blocks)
    (hplan : σ.Plans f.table (·.table) notes captured b)
    (hself : ∀ c, b = .selfParts c → σ.schema.RefersToItself f.table)
    (hkey : ∀ c d, b = .subtypeDispatch c → c.discriminator = some d →
      σ.schema.key? d.table = some d.keyColumn)
    (hrepeats : p.Repeats σ levels) :
    Run.Repeats σ fun frame => b.run (p.call levels) f batch caller frame := by
  intro frame frame' s s₁ h hs hunique
  obtain ⟨hlater, hunique'⟩ := (Block.runs_of_yields h).keeps (P := fun s' => s.Later s' ∧ s'.UniqueKeys)
    (hs ▸ Store.invariant_later (hs ▸ hkeys)) hf.key hplan
    (fun hcall ⟨hl, hu⟩ => by
      obtain ⟨hl', hu'⟩ := Program.call_later hserves hkeys (hl.schema.trans hs) hu hcall
      exact ⟨hl.trans hl', hu'⟩) ⟨.refl s, hunique⟩
  refine ⟨⟨hlater, hunique'⟩, fun S blank hS hblank => ?_⟩
  cases b with
  | selfParts b =>
    exact b.again hserves hkeys hf (hself b rfl) hmem hplan h hs hunique hS hblank
  | childCascade b => exact b.again hserves hkeys hf hmem hplan h hs hunique hS hblank
  | bridgeCascade b => exact b.again hserves hkeys hf hmem h hs hunique hS hblank
  | subtypeDispatch b =>
    exact (b.again hserves hkeys hrepeats (fun d => hkey b d rfl) _ _ _ _ h hs hunique).2
      _ _ hS hblank
  | localDelete columns => exact localDelete_again h hlater.schema hS hblank
  | referencedCleanup b => exact b.again hblank
  | parentCascade callee => exact parentCascade_again hblank

end Again

/-- What `Block.again` needs of the functions of a program. -/
structure Program.Settled (p : Program) (σ : Setting) : Prop where
  parts : ∀ {name f}, p.lookup name = some f → ∀ b, .selfParts b ∈ f.blocks →
    σ.schema.RefersToItself f.table
  place : ∀ {name f}, p.lookup name = some f → ∀ b, .subtypeDispatch b ∈ f.blocks →
    ∀ d, b.discriminator = some d → σ.schema.key? d.table = some d.keyColumn

/-- **A call finds nothing to do again**, on any later store. -/
theorem Program.call_again {p : Program} {σ : Setting} {notes : List String}
    (hserves : ∀ {name f}, p.lookup name = some f → p.Serves σ notes f)
    (hkeys : σ.schema.KeepsKeys) (hsettled : p.Settled σ) (levels : Nat) : p.Repeats σ levels := by
  induction levels with
  | zero =>
    intro n ids caller s deleted s' S h
    obtain ⟨deeper, f, hlevels, -⟩ := call_yields h
    cases hlevels
  | succ levels ih =>
    intro n ids caller s deleted s' S h hs hunique hS
    unfold call at h ⊢
    cases hf : p.lookup n with
    | none =>
      rw [hf] at h
      obtain ⟨trace, trace', h⟩ := h
      cases h
    | some f =>
      rw [hf] at h
      dsimp only at h ⊢
      split at h <;> rename_i hempty
      · simp only [hempty, if_true]
        exact Run.idles_bind (Run.idles_enter _) fun _ _ _ _ => Run.idles_pure rfl
      · simp only [hempty, Bool.false_eq_true, if_false]
        obtain ⟨u, s₁, henter, h⟩ := Run.yields_bind h
        obtain rfl := Run.yields_enter henter
        obtain ⟨frame, s₂, hblocks, h⟩ := Run.yields_bind h
        obtain ⟨-, rfl⟩ := Run.yields_pure h
        obtain ⟨captured, front, back, hbody, hshape⟩ := (hserves hf).body
        have hrepeats : Run.Repeats σ fun frame => f.blocks.foldlM
            (fun frame (b : Block Callee) =>
              b.run (p.call levels) f (ascending ids) caller frame) frame :=
          Run.Repeats.foldlM fun b hb => Block.again hserves hkeys (hserves hf) hb
            (hshape.plans b (hbody ▸ hb)) (fun c hc => hsettled.parts hf c (hc ▸ hb))
            (fun c d hc => hsettled.place hf c (hc ▸ hb) d) ih
        refine Run.idles_bind (Run.idles_enter _) fun _ S₁ _ hrows => ?_
        exact Run.idles_bind ((hrepeats _ _ _ _ hblocks hs hunique).2 _ _
          (hS.trans hrows.later) .empty)
          fun blank S₂ hblank _ => Run.idles_pure hblank.result

namespace Setting

variable {σ : Setting} {namer : Namer} {start : TableName} {result : Synthesis} {depth : Nat}

/-- The functions of a synthesis cascade to parts only at links of their
table to itself, and find classes by the key. -/
theorem settled_of_synthesize (h : σ.synthesize namer start = .ok result) :
    (Program.mk result.registry.functions depth).Settled σ where
  parts := by
    intro name f hf b hb
    obtain ⟨t, drafted, callee, w, hw⟩ := Program.exists_draft h hf
    obtain ⟨b', hb', hwritten⟩ := hw.exists_drafted hb
    obtain ⟨parts, rfl⟩ := hwritten.of_selfParts
    obtain ⟨rs, r, hrs, hr, -⟩ := selfReferences_of_mem_body (body_of_draft hw.draft) hb'
    exact ⟨t, rs, hw.table, hrs, List.ne_nil_of_mem hr⟩
  place := by
    intro name f hf b hb d hd
    obtain ⟨t, drafted, callee, w, hw⟩ := Program.exists_draft h hf
    obtain ⟨b', hb', hwritten⟩ := hw.exists_drafted hb
    obtain ⟨dispatch, rfl, hplace⟩ := hwritten.of_subtypeDispatch
    exact (findDiscriminator_eq_ok (findDiscriminator_of_mem_body (body_of_draft hw.draft) hb'
      (hplace ▸ hd))).2.1

/-- **Deleting the same rows again changes nothing**: it succeeds within the
same depth, reports no id and leaves every row as it is. -/
theorem delete_repeats {name : String} {ids deleted : List Int} {st : Store}
    (hkeys : σ.schema.KeepsKeys) (h : σ.synthesize namer start = .ok result)
    (hst : st.schema = σ.schema) (hunique : st.UniqueKeys)
    (hrun : ((Program.mk result.registry.functions depth).delete st name ids).result =
      .ok deleted) :
    ((Program.mk result.registry.functions depth).delete
        ((Program.mk result.registry.functions depth).delete st name ids).store name ids).result =
      .ok [] ∧
    ∀ t, ((Program.mk result.registry.functions depth).delete
        ((Program.mk result.registry.functions depth).delete st name ids).store name ids).store.rows t =
      ((Program.mk result.registry.functions depth).delete st name ids).store.rows t := by
  have hrepeats := Program.call_again (p := ⟨result.registry.functions, depth⟩)
    (fun hf => Program.serves_of_synthesize h hf) hkeys (settled_of_synthesize h) (depth + 1)
  have hidles := hrepeats _ _ _ _ _ _ _ (Program.yields_of_delete hrun) hst hunique (.refl _)
  generalize ((Program.mk result.registry.functions depth).delete st name ids).store = s at hidles
  obtain ⟨a, s', trace, hcall, hrows, rfl⟩ := hidles []
  unfold Program.delete
  rw [hcall]
  exact ⟨rfl, hrows.rows⟩

end Setting

/-- Where no foreign key sets NULL, no key is lost. -/
theorem Schema.keepsKeys_of_ne_setNull {g : Schema} (h : ∀ fk ∈ g.foreignKeys,
    fk.onDelete ≠ .setNull) : g.KeepsKeys :=
  fun fk hfk hact => absurd hact (h fk hfk)

/-- The building is not deleted twice. -/
theorem Setting.delete_repeats_city : ∃ result,
    city.synthesize (.new "del_" 63) ⟨"city", "building"⟩ = .ok result ∧
      (Program.delete ⟨result.registry.functions, 8⟩ (cityDeletion result).store "del_building"
        [1]).result = .ok [] ∧
      ∀ t, (Program.delete ⟨result.registry.functions, 8⟩ (cityDeletion result).store
        "del_building" [1]).store.rows t = (cityDeletion result).store.rows t := by
  obtain ⟨result, f, hsyn, -, -, -, hrun, -⟩ := exists_cityDeletion
  exact ⟨result, hsyn, Setting.delete_repeats
    (Schema.keepsKeys_of_ne_setNull (by decide +kernel)) hsyn rfl cityStore_valid.1 hrun⟩

/-! ## A key that is lost -/

/-- Parts are made up of parts, and have notes that own an anchor. A part is
numbered by the code of an anchor, and loses its number with it. -/
def ship : Setting where
  schema := ⟨"ship",
    [{ Table.empty ⟨"ship", "anchor"⟩ with
        columns := [⟨"id", "bigint", false⟩, ⟨"code", "bigint", false⟩]
        primaryKey := ["id"] },
      (({ Table.empty ⟨"ship", "part"⟩ with
          columns := [⟨"id", "bigint", true⟩, ⟨"whole", "bigint", true⟩]
          primaryKey := ["id"] }).addReference "id" "anchor" "code" .setNull).addReference
        "whole" "part" "id" .noAction,
      (({ Table.empty ⟨"ship", "note"⟩ with
          columns := [⟨"id", "bigint", false⟩, ⟨"part", "bigint", true⟩, ⟨"anchor", "bigint", true⟩]
          primaryKey := ["id"] }).addReference "part" "part" "id" .noAction).addReference
        "anchor" "anchor" "id" .noAction], []⟩
  classifier := .ofRecords [⟨"note", "part", some "part", .aggregation⟩,
    ⟨"anchor", "note", some "anchor", .composition⟩,
    ⟨"part", "part", some "whole", .composition⟩] true
  discriminator := "class"

/-- A part that is a part of itself, with a note on it and its anchor. -/
def shipStore : Store where
  schema := ship.schema
  contents := [(("ship", "anchor"), [⟨[("id", 9), ("code", 1)]⟩]),
    (("ship", "part"), [⟨[("id", 1), ("whole", 1)]⟩]),
    (("ship", "note"), [⟨[("id", 5), ("part", 1), ("anchor", 9)]⟩])]

/-- The part is deleted by a function of the ship. -/
def shipDeletion (result : Synthesis) (s : Store) : Deletion :=
  Program.delete ⟨result.registry.functions, 8⟩ s "del_part" [1]

/-- **Where a key is lost, deleting again changes rows**: the part loses its
key with the anchor and is left, and is cut off from its whole then. -/
theorem not_delete_repeats_ship : ∃ result,
    ship.synthesize (.new "del_" 63) ⟨"ship", "part"⟩ = .ok result ∧
      shipStore.schema = ship.schema ∧ shipStore.UniqueKeys ∧
      (shipDeletion result shipStore).result = .ok [] ∧
      (shipDeletion result shipStore).store.rows ⟨"ship", "part"⟩ = [⟨[("whole", 1)]⟩] ∧
      (shipDeletion result (shipDeletion result shipStore).store).store.rows ⟨"ship", "part"⟩ =
        [⟨[]⟩] := by
  have hrun : ((ship.synthesize (.new "del_" 63) ⟨"ship", "part"⟩).toOption.any fun result =>
      (shipDeletion result shipStore).result = .ok [] ∧
        (shipDeletion result shipStore).store.rows ⟨"ship", "part"⟩ = [⟨[("whole", 1)]⟩] ∧
        (shipDeletion result (shipDeletion result shipStore).store).store.rows ⟨"ship", "part"⟩ =
          [⟨[]⟩]) = true := by
    -- the two recursions that do not evaluate are followed for as long as they last here
    delta Setting.synthesize shipDeletion Program.delete Program.call Program.call._f Block.run
      BridgeCascade.run runLocalDelete Store.deleteWhere
    rw [← Setting.visitFor_eq ship 12, ← Store.enforceFor_eq 9]
    decide +kernel
  cases hsyn : ship.synthesize (.new "del_" 63) ⟨"ship", "part"⟩ with
  | error e =>
    rw [hsyn] at hrun
    cases hrun
  | ok result =>
    rw [hsyn] at hrun
    obtain ⟨hresult, hfirst, hsecond⟩ := of_decide_eq_true hrun
    exact ⟨result, rfl, rfl, by decide +kernel, hresult, hfirst, hsecond⟩

end DeleteCascade
