import DeleteCascade.Proofs.Deletion.Confined
import DeleteCascade.Proofs.Deletion.Sharing
/-!
# Deletion — what is gone is a full set

The rows that a deletion has taken away are a full set (`full_of_delete`):
nothing that goes along with them is left. For what is bound to them this is
what the bonds of composition say. For shared rows it is `KeepsHolds`, that a
row which something held is held throughout the run, until it is going: each
statement that loosens a hold is followed by a look at the row, or the row is
itself deleted by the function that runs. Bridges must hold only the rows
they link (`BridgesOnlyLink`): nobody looks at what else a bridge row points
at when it goes.
-/

namespace DeleteCascade

/-! ## Holds that are loosened -/

/-- Whether an owner is found by reading this column. -/
def Owner.Reads (c : String) : Owner → Prop
  | .ownColumn c' => sameName c c'
  | .referencing _ c' => sameName c c'

namespace Store

variable {s : Store} {t n : TableName} {c k : String} {x : Int} {o : Owner} {test : Row → Bool}

/-- A statement about rows of `t` that pass a test hits what the owner holds
the row by. -/
def Loosens (s : Store) (t : TableName) (test : Row → Bool) (n : TableName) (x : Int) :
    Owner → Prop
  | .ownColumn c => ∃ v, (Fact.cell n x c v).Hit s t test
  | .referencing u c => t.same u ∧ ∃ r ∈ s.rows u, test r = true ∧ r.get? c = some x

theorem heldBy_removeRows (h : s.HeldBy n x o) :
    (s.removeRows t test).HeldBy n x o ∨ s.Loosens t test n x o := by
  cases o with
  | ownColumn c =>
    obtain ⟨v, hcell⟩ := h
    exact (Fact.holds_removeRows hcell).imp (fun hcell => ⟨v, hcell⟩) fun hhit => ⟨v, hhit⟩
  | referencing u c =>
    obtain ⟨r, hr, hx⟩ := h
    have hrow : (Fact.row u r).Holds s := hr
    exact (Fact.holds_removeRows hrow).imp (fun hr' => ⟨r, hr', hx⟩)
      fun ⟨hsame, _, htest⟩ => ⟨hsame, r, hr, htest, hx⟩

theorem heldBy_clearWhere (hk : s.schema.key? t = some k)
    (hkey : ∀ r ∈ s.rows t, test r = true → sameName c k = false) (h : s.HeldBy n x o) :
    (s.clearWhere t c test).HeldBy n x o ∨ (s.Loosens t test n x o ∧ o.Reads c) := by
  cases o with
  | ownColumn c' =>
    obtain ⟨v, hcell⟩ := h
    exact (Fact.holds_clearWhere hk hkey hcell).imp (fun hcell => ⟨v, hcell⟩)
      fun ⟨hhit, hreads⟩ => ⟨⟨v, hhit⟩, hreads⟩
  | referencing u c' =>
    obtain ⟨r, hr, hx⟩ := h
    have hrows := rows_clearWhere s t u c test
    split at hrows
    · rename_i hsame
      by_cases htest : test r = true
      · by_cases hc : sameName c c' = true
        · exact Or.inr ⟨⟨hsame, r, hr, htest, hx⟩, hc⟩
        · refine Or.inl ⟨r.clear c, ?_, by rw [Row.get?_clear, if_neg hc, hx]⟩
          rw [hrows]
          exact List.mem_map.2 ⟨r, hr, by rw [if_pos htest]⟩
      · refine Or.inl ⟨r, ?_, hx⟩
        rw [hrows]
        exact List.mem_map.2 ⟨r, hr, by rw [if_neg htest]⟩
    · exact Or.inl ⟨r, by rwa [hrows], hx⟩

end Store

namespace Setting

variable {σ : Setting} {st s s' : Store} {t u n : TableName} {c k key : String} {x : Int}
variable {o : Owner} {owners : List Owner} {ids batch : List Int} {D D' : Doom} {test : Row → Bool}
variable {f : DeleteFunction} {notes captured : List String}

/-- **Bridges own only the rows they link**, and none through a column
outside of their key. -/
def BridgesOnlyLink (σ : Setting) : Prop :=
  ∀ t b c n, σ.schema.IsBridge t b → σ.schema.Link b.table c n → ¬ σ.schema.LinksBy n b.table c →
    ¬ σ.MayOwn n b.table c

theorem Asks.congr (h : σ.Asks n o) (hsame : n.same t) : σ.Asks t o := by
  cases h with
  | @column u c link plain owns =>
    have hc := sameName_refl c
    have hu := TableName.same_refl u
    refine .column (link.congr hsame hc hu) (fun hother k hk => ?_) (owns.congr hsame hu hc)
    exact plain (by rw [TableName.same_congr_left hsame, hother]) k
      (by rw [Schema.key?_congr hsame, hk])
  | @reference u c link other plain unlinked owns =>
    have hc := sameName_refl c
    have hu := TableName.same_refl u
    refine .reference (link.congr hu hc hsame) ?_ plain
      (fun hlinks => unlinked (hlinks.congr (TableName.same_symm hsame)))
      (owns.congr hsame hu hc)
    rw [← TableName.same_congr_right hsame, other]
  | bridge isBridge owns =>
    exact .bridge (isBridge.congr hsame) (owns.congr hsame (by simp) (by simp))

theorem Held.congr (h : σ.Held s n x) (hsame : n.same t) : σ.Held s t x := by
  obtain ⟨o, hasks, hheld⟩ := h
  refine ⟨o, hasks.congr hsame, ?_⟩
  cases o with
  | ownColumn c =>
    obtain ⟨v, l, hl, r, hr, hx, hv⟩ := hheld
    exact ⟨v, l, by rw [← Schema.key?_congr hsame, hl], r, by rwa [← Store.rows_congr s hsame], hx, hv⟩
  | referencing u c => exact hheld

/-- **Cutting rows off** loosens the holds of these rows, and those of the
batch. -/
theorem Asks.going_of_cut (hasks : σ.Asks n o) (hg : σ.schema.Strict) (hs : s.schema = σ.schema)
    (hlink : σ.schema.Link u c t) (hk : σ.schema.key? u = some k)
    (htest : ∀ r, test r = true → pointsInto batch c r = true)
    (hids : ((s.rows u).filter test).filterMap (·.get? k) ⊆ ids)
    (hloosens : s.Loosens u test n x o) (hreads : o.Reads c) :
    s.Going ((D.add t batch).add u ids) n x := by
  cases o with
  | ownColumn c' =>
    obtain ⟨v, hsame, l, hl, r, hr, hin, hx, -⟩ := hloosens
    rw [hs, ← Schema.key?_congr hsame, hk] at hl
    cases hl
    rw [← Store.rows_congr s hsame] at hr
    exact Store.going_add hsame (hids (List.mem_filterMap.2 ⟨r, List.mem_filter.2 ⟨hr, hin⟩, hx⟩))
  | referencing w c' =>
    obtain ⟨hsame, r, -, hin, hx⟩ := hloosens
    have ht : t.same n := hlink.target_unique hg.oneKey ((hasks.link hg.regular).congr
      (TableName.same_symm hsame) (sameName_symm hreads) (TableName.same_refl _))
    obtain ⟨y, hy, hry⟩ := pointsInto_iff.1 (htest r hin)
    rw [Row.get?_congr r hreads, hx] at hry
    cases hry
    exact (Store.going_add ht hy).add u ids

/-- **Removing links** loosens the holds of the batch, and those of the rows
behind the bridge if it owns them. -/
theorem Asks.going_of_unlink (hasks : σ.Asks n o) (hg : σ.schema.Strict) (hs : s.schema = σ.schema)
    (honly : σ.BridgesOnlyLink) {br : Bridge} (hbr : σ.schema.IsBridge t br)
    (hids : σ.MayOwn br.farTable t br.table.name →
      ((s.rows br.table).filter (pointsInto batch br.nearColumn)).filterMap (·.get? br.farColumn) ⊆
        ids)
    (hloosens : s.Loosens br.table (pointsInto batch br.nearColumn) n x o) :
    s.Going ((D.add t batch).add br.farTable ids) n x := by
  cases hasks with
  | column =>
    obtain ⟨v, hsame, l, hl, -⟩ := hloosens
    rw [hs, ← Schema.key?_congr hsame, hbr.key?_eq_none] at hl
    cases hl
  | @reference w c link other plain unlinked owns =>
    obtain ⟨hsame, -⟩ := hloosens
    have hsymm := TableName.same_symm hsame
    refine absurd (owns.congr (by simp) hsymm (by simp)) (honly t br c n hbr
      (link.congr hsymm (by simp) (by simp)) fun hlinks => unlinked ?_)
    obtain ⟨b, hb, htable, hnear⟩ := hlinks
    exact ⟨b, hb, TableName.same_trans htable hsame, hnear⟩
  | @bridge b isBridge owns =>
    obtain ⟨hsame, q, hq, hin, hx⟩ := hloosens
    obtain ⟨y, hy, hqy⟩ := pointsInto_iff.1 hin
    rcases hbr.two_sides hg.regular hg.oneKey isBridge (TableName.same_symm hsame) with
      ⟨hnear, -, hn, -⟩ | ⟨hnear, -, hn, hfar⟩
    · -- the batch itself was held by the link
      rw [← Row.get?_congr q hnear, hx] at hqy
      cases hqy
      exact (Store.going_add (TableName.same_symm hn) hy).add _ _
    · refine Store.going_add (TableName.same_symm hn) (hids ?_ ?_)
      · exact owns.congr hn hfar (TableName.sameName_of_same (TableName.same_symm hsame))
      · rw [← Store.rows_congr s hsame] at hq
        exact List.mem_filterMap.2 ⟨q, List.mem_filter.2 ⟨hq, hin⟩, by
          rw [← Row.get?_congr q hnear, hx]⟩

/-- **Deleting the batch** loosens its own holds, and those of what it
pointed at. -/
theorem Asks.going_of_delete (hasks : σ.Asks n o) (hclear : σ.IsClear) (hg : σ.schema.Regular)
    (hs : s.schema = σ.schema) (hkey : σ.schema.key? f.table = some f.keyColumn)
    {front back : List (Block Callee)} {frame : Frame} {rows : List Row}
    (hbody : σ.IsBody f.table (·.table) notes captured front back)
    (hrows : rows = (s.rows f.table).filter (pointsInto batch f.keyColumn))
    (hcaptured : frame.captured =
      captured.map fun column => ascending (rows.filterMap (·.get? column)))
    (hloosens : s.Loosens f.table (pointsInto batch f.keyColumn) n x o) :
    s.Going (fun u v => D.add f.table batch u v ∨ Pointed frame back u v) n x := by
  cases hasks with
  | column =>
    obtain ⟨v, hsame, l, hl, r, -, hin, hx, -⟩ := hloosens
    rw [hs, ← Schema.key?_congr hsame, hkey] at hl
    cases hl
    obtain ⟨y, hy, hry⟩ := pointsInto_iff.1 hin
    rw [hx] at hry
    cases hry
    exact Or.inr (Or.inl (Or.inr ⟨hsame, hy⟩))
  | @reference w c link other plain unlinked owns =>
    obtain ⟨hsame, r, hr, hin, hx⟩ := hloosens
    have hsymm := TableName.same_symm hsame
    obtain ⟨b, hblock, hcol, htarget⟩ := hbody.targets hg c n (link.congr hsymm (by simp) (by simp))
      (by rw [TableName.same_congr_left hsame, other])
      (fun k hk => plain k (by rw [← Schema.key?_congr hsame, hk]))
      fun kind hkind => hclear.isOwning owns (hkind.congr (by simp) hsame (by simp))
    have hplan := hbody.plans (.referencedCleanup b) (by simp [hblock])
    cases hplan with
    | referencedCleanup slot =>
      refine Or.inr (Or.inr ⟨b, hblock, htarget, ?_⟩)
      simp only [hcaptured, List.getElem?_map, slot, Option.map_some, Option.getD_some, mem_ascending,
        List.mem_filterMap]
      rw [← Store.rows_congr s hsame] at hr
      exact ⟨r, by rw [hrows]; exact List.mem_filter.2 ⟨hr, hin⟩, by rw [Row.get?_congr r hcol, hx]⟩
  | bridge isBridge =>
    obtain ⟨hsame, -⟩ := hloosens
    rw [Schema.key?_congr hsame, isBridge.key?_eq_none] at hkey
    cases hkey

/-! ## What a run keeps -/

/-- **A row that was held still is**, or it is going. -/
def KeepsHolds (σ : Setting) (st s : Store) (D : Doom) : Prop :=
  ∀ n x, σ.Held st n x → σ.Held s n x ∨ s.Going D n x

namespace KeepsHolds

theorem refl (σ : Setting) (st : Store) (D : Doom) : σ.KeepsHolds st st D :=
  fun _ _ h => Or.inl h

theorem mono (h : σ.KeepsHolds st s D) (hD : ∀ t v, D t v → D' t v) : σ.KeepsHolds st s D' :=
  fun n x hheld => (h n x hheld).imp id fun hgoing => hgoing.mono hD

/-- A doomed batch that is gone need not be doomed. -/
theorem of_add (h : σ.KeepsHolds st s (D.add t ids)) (hgone : ∀ id ∈ ids, ¬ s.HasRow t id) :
    σ.KeepsHolds st s D :=
  fun n x hheld => (h n x hheld).imp id fun hgoing => hgoing.of_add hgone

theorem removeRows (h : σ.KeepsHolds st s D)
    (hloosens : ∀ n x o, σ.Asks n o → s.Loosens t test n x o → s.Going D n x) :
    σ.KeepsHolds st (s.removeRows t test) D := by
  have hwithin := Store.within_removeRows s t test
  intro n x hheld
  rcases h n x hheld with ⟨o, hasks, hby⟩ | hgoing
  · rcases Store.heldBy_removeRows hby with hby' | hloose
    · exact Or.inl ⟨o, hasks, hby'⟩
    · exact Or.inr ((hloosens n x o hasks hloose).of_within hwithin)
  · exact Or.inr (hgoing.of_within hwithin)

theorem takes (h : σ.KeepsHolds st s D) (hk : s.schema.key? t = some k)
    (hkey : ∀ r ∈ s.rows t, test r = true → sameName c k = false)
    (hloosens : ∀ n x o, σ.Asks n o → s.Loosens t test n x o → o.Reads c → s.Going D n x)
    {detach : Bool} {rows : List Row} (htake : s.Takes t c test detach rows s') :
    σ.KeepsHolds st s' D := by
  have hwithin := htake.within
  intro n x hheld
  rcases h n x hheld with ⟨o, hasks, hby⟩ | hgoing
  · rw [htake.store] at hwithin ⊢
    split
    · rename_i hdetach
      rw [if_pos hdetach] at hwithin
      rcases Store.heldBy_clearWhere hk hkey hby with hby' | ⟨hloose, hreads⟩
      · exact Or.inl ⟨o, hasks, hby'⟩
      · exact Or.inr ((hloosens n x o hasks hloose hreads).of_within hwithin)
    · exact Or.inl ⟨o, hasks, hby⟩
  · exact Or.inr (hgoing.of_within hwithin)

end KeepsHolds

/-- **A call after which rows are held that were**, or are going. Its batch is
gone. -/
def HoldingCall (σ : Setting) (st : Store) (t : TableName) (keys : List Int) (s s' : Store) : Prop :=
  s.schema = σ.schema → (∀ v ∈ keys, ¬ s'.HasRow t v) ∧
    ∀ D, σ.KeepsHolds st s D → σ.KeepsHolds st s' D

theorem HoldingCall.congr (h : σ.HoldingCall st t ids s s') (hsame : t.same u) :
    σ.HoldingCall st u ids s s' := by
  intro hs
  obtain ⟨hgone, hkeeps⟩ := h hs
  exact ⟨fun v hv hrow => hgone v hv ((Store.hasRow_congr hsame).2 hrow), hkeeps⟩

section Runs

variable {C : Calls} {caller : Caller} {frame frame' : Frame} {deleted : List Int}
variable {callee : Callee}

/-- **Rows that may have lost a hold are looked at**, and deleted unless
something else holds them; or they are deleted anyway. -/
theorem KeepsHolds.of_check (hg : σ.schema.Strict) (hclear : σ.IsClear) (hs : s.schema = σ.schema)
    (hC : ∀ {keys caller s deleted s'}, C callee.function keys caller s deleted s' →
      σ.HoldingCall st callee.table keys s s')
    (hk : σ.schema.key? u = some k) (hkey : sameName k key) {check : Option (List Owner)}
    (hcheck : ∀ owners, check = some owners → (σ.ownerCheck u).outcome = .ok owners)
    (hcall : DeletesOwned C callee (s.unowned u key check ids) s deleted s')
    (hcallee : callee.table.same u) (h : σ.KeepsHolds st s (D.add u ids)) :
    σ.KeepsHolds st s' D := by
  -- what the check finds is held
  have hleft : σ.KeepsHolds st s (D.add u (s.unowned u key check ids)) := by
    intro n x hheld
    rcases h n x hheld with hheld' | hgone | hD | ⟨hsame, hx⟩
    · exact Or.inl hheld'
    · exact Or.inr (Or.inl hgone)
    · exact Or.inr (Or.inr (Or.inl hD))
    · cases check with
      | none => exact Or.inr (Store.going_add hsame hx)
      | some owners =>
        by_cases howned : owners.any (s.isOwned u key x) = true
        · exact Or.inl (((any_isOwned_iff hg.regular hg.oneKey hclear hs hk hkey
            (hcheck owners rfl)).1 howned).congr hsame)
        · exact Or.inr (Store.going_add hsame (List.mem_filter.2 ⟨hx, by simp [howned]⟩))
  generalize s.unowned u key check ids = called at hcall hleft
  cases hcall with
  | idle => exact hleft.of_add fun id hid => absurd hid (by simp)
  | call run =>
    obtain ⟨hgone, hkeeps⟩ := hC run hs
    exact (hkeeps _ hleft).of_add fun id hid hrow =>
      hgone id hid ((Store.hasRow_congr hcallee).2 hrow)

theorem holds_dispatches {callees : List Callee} {noted noted' : List Int}
    (hC : ∀ {c keys caller s deleted s'}, c ∈ callees → C c.function keys caller s deleted s' →
      σ.HoldingCall st c.table keys s s')
    (hW : ∀ {n keys caller s deleted s'}, C n keys caller s deleted s' → s'.Within s)
    (hcalls : Dispatches C callees batch noted s noted' s') (hs : s.schema = σ.schema)
    (h : σ.KeepsHolds st s D) : σ.KeepsHolds st s' D := by
  induction hcalls with
  | done => exact h
  | call callee _ run _ _ ih =>
    obtain ⟨-, hkeeps⟩ := hC callee run hs
    exact ih ((hW run).schema.trans hs) (hkeeps _ h)

/-- **The blocks before the rows go keep what is held**, the batch being
doomed. -/
theorem holds_early (hg : σ.schema.Strict) (hclear : σ.IsClear) (honly : σ.BridgesOnlyLink)
    (hkey : σ.schema.key? f.table = some f.keyColumn) {b : Block Callee}
    (hplan : σ.Plans f.table (·.table) notes captured b) (hearly : b.kind.isEarly = true)
    (hC : ∀ {c keys caller s deleted s'}, c ∈ b.callees → C c.function keys caller s deleted s' →
      σ.HoldingCall st c.table keys s s')
    (hW : ∀ {n keys caller s deleted s'}, C n keys caller s deleted s' → s'.Within s)
    (hrun : b.Runs C f batch caller frame s frame' s') (hs : s.schema = σ.schema)
    (h : σ.KeepsHolds st s (D.add f.table batch)) : σ.KeepsHolds st s' (D.add f.table batch) := by
  have hrestricts : s.schema.Restricts := hs ▸ hg.restricts
  cases hrun with
  | @selfParts b _ _ s₁ _ parts deleted take call =>
    cases hplan with
    | selfParts link classified callee cut =>
      have hpart (r : Row) (hr : f.isPart batch b.column r = true) :
          pointsInto batch b.column r = true := by
        simp only [DeleteFunction.isPart, Bool.and_eq_true] at hr
        exact hr.1
      have hcall : DeletesOwned C b.callee (s₁.unowned f.table f.keyColumn none
        (parts.filterMap (·.get? f.keyColumn))) s₁ deleted s' := call
      refine .of_check hg hclear (take.within.schema.trans hs) (hC (by simp [Block.callees])) hkey
        (by simp) (by simp) hcall callee ?_
      refine (h.mono fun _ _ => Or.inl).takes (by rw [hs, hkey]) (fun r _ hr => f.isPart_key hr)
        (fun n x o hasks hloose hreads => ?_) take
      exact hasks.going_of_cut hg hs (link hg.regular) hkey hpart
        (by rw [take.rows]; exact fun _ hx => hx) hloose hreads
  | @childCascade b _ _ s₁ _ children deleted take call =>
    cases hplan with
    | childCascade link other key notKey classified owning callee shared unshared =>
      refine .of_check hg hclear (take.within.schema.trans hs) (hC (by simp [Block.callees])) key
        (by simp) (fun owners howners => (shared owners howners).2.2) call callee ?_
      refine (h.mono fun _ _ => Or.inl).takes (by rw [hs, key])
        (fun _ _ _ => by rw [sameName_comm, notKey]) (fun n x o hasks hloose hreads => ?_) take
      exact hasks.going_of_cut hg hs link key (fun _ hr => hr)
        (by rw [take.rows]; exact fun _ hx => hx) hloose hreads
  | bridgeOnly remove hnone =>
    cases hplan with
    | @bridgeCascade _ br kind isBridge table near far target targetKey classified check owned
        unowned =>
      rw [table, near] at remove
      obtain ⟨-, rfl⟩ := Store.deleteWhere_of_restricts hrestricts remove
      have hnobody : ∀ id ∈ ([] : List Int), ¬ (s.removeRows br.table
        (pointsInto batch br.nearColumn)).HasRow br.farTable id := by simp
      refine KeepsHolds.of_add ?_ hnobody
      refine (h.mono fun _ _ => Or.inl).removeRows fun n x o hasks hloose => ?_
      refine hasks.going_of_unlink hg hs honly isBridge (fun howns => ?_) hloose
      obtain ⟨c, hc, -⟩ := owned (hclear.isOwning howns classified)
      rw [hnone] at hc
      cases hc
  | @bridgeCascade b _ _ s₁ _ links deleted callee remove hsome call =>
    cases hplan with
    | @bridgeCascade _ br kind isBridge table near far target targetKey classified check owned
        unowned =>
      rw [table, near] at remove
      rw [target, targetKey, far] at call
      have howning : kind.isOwning = true := by
        by_contra hnot
        rw [unowned (by simpa using hnot)] at hsome
        cases hsome
      obtain ⟨c, hc, hsame⟩ := owned howning
      rw [hsome, Option.some.injEq] at hc
      subst hc
      obtain ⟨l, hl, hlk⟩ := (isBridge.spec hg.regular).farKey
      have hs₁ : s₁.schema = σ.schema := (Store.within_deleteWhere remove).schema.trans hs
      obtain ⟨hlinks, heq⟩ := Store.deleteWhere_of_restricts hrestricts remove
      refine .of_check hg hclear hs₁ (hC (by simp [Block.callees, hsome])) hl hlk
        (fun owners howners => ?_) call hsame ?_
      · rw [howners] at check
        exact check.2
      · rw [heq]
        refine (h.mono fun _ _ => Or.inl).removeRows fun n x o hasks hloose => ?_
        exact hasks.going_of_unlink hg hs honly isBridge
          (fun _ => by rw [hlinks]; exact fun _ hx => hx) hloose
  | subtypeDispatch calls => exact holds_dispatches hC hW calls hs h
  | localDelete => cases hearly
  | referencedCleanup => cases hearly
  | noParent => cases hearly
  | parentCascade => cases hearly

/-- **The blocks after the rows are gone look at what these pointed at.** -/
theorem holds_late (hg : σ.schema.Strict) (hclear : σ.IsClear) {b : Block Callee}
    {rest : List (Block Callee)} (hplan : σ.Plans f.table (·.table) notes captured b)
    (hlate : (∃ c, b = .referencedCleanup c) ∨ ∃ callee, b = .parentCascade callee)
    (hC : ∀ {c keys caller s deleted s'}, c ∈ b.callees → C c.function keys caller s deleted s' →
      σ.HoldingCall st c.table keys s s')
    (hrun : b.Runs C f batch caller frame s frame' s') (hs : s.schema = σ.schema)
    (h : σ.KeepsHolds st s fun u v => D u v ∨ Pointed frame (b :: rest) u v) :
    σ.KeepsHolds st s' fun u v => D u v ∨ Pointed frame' rest u v := by
  cases hrun with
  | @referencedCleanup b _ _ _ deleted call =>
    cases hplan with
    | @referencedCleanup _ kind slot link other notKey classified owning key check callee =>
      obtain ⟨l, hl, hlk⟩ := key hg.regular
      refine .of_check hg hclear hs (hC (by simp [Block.callees])) hl hlk
        (fun owners howners => ?_) call callee (h.mono fun u v hD => ?_)
      · rw [howners] at check
        exact check.2
      · rcases hD with hD | ⟨b', hb', htarget, hv⟩
        · exact Or.inl (Or.inl hD)
        · rcases List.mem_cons.1 hb' with heq | hrest
          · cases heq
            exact Or.inr ⟨htarget, hv⟩
          · exact Or.inl (Or.inr ⟨b', hrest, htarget, hv⟩)
  | noParent =>
    refine h.mono fun u v hD => hD.imp id ?_
    rintro ⟨b', hb', howed⟩
    exact ⟨b', by simpa using hb', howed⟩
  | parentCascade _ run =>
    obtain ⟨-, hkeeps⟩ := hC (by simp [Block.callees]) run hs
    refine hkeeps _ (h.mono fun u v hD => hD.imp id ?_)
    rintro ⟨b', hb', howed⟩
    exact ⟨b', by simpa using hb', howed⟩
  | selfParts => rcases hlate with ⟨c, hc⟩ | ⟨c, hc⟩ <;> cases hc
  | childCascade => rcases hlate with ⟨c, hc⟩ | ⟨c, hc⟩ <;> cases hc
  | bridgeOnly => rcases hlate with ⟨c, hc⟩ | ⟨c, hc⟩ <;> cases hc
  | bridgeCascade => rcases hlate with ⟨c, hc⟩ | ⟨c, hc⟩ <;> cases hc
  | subtypeDispatch => rcases hlate with ⟨c, hc⟩ | ⟨c, hc⟩ <;> cases hc
  | localDelete => rcases hlate with ⟨c, hc⟩ | ⟨c, hc⟩ <;> cases hc

theorem holds_front (hg : σ.schema.Strict) (hclear : σ.IsClear) (honly : σ.BridgesOnlyLink)
    (hkey : σ.schema.key? f.table = some f.keyColumn) {bs : List (Block Callee)}
    (hplans : ∀ b ∈ bs, σ.Plans f.table (·.table) notes captured b)
    (hearly : ∀ b ∈ bs, b.kind.isEarly = true)
    (hC : ∀ {c keys caller s deleted s'}, c ∈ bs.flatMap (·.callees) →
      C c.function keys caller s deleted s' → σ.HoldingCall st c.table keys s s')
    (hW : ∀ {n keys caller s deleted s'}, C n keys caller s deleted s' → s'.Within s)
    (hrun : Block.RunsAll C f batch caller bs frame s frame' s') (hs : s.schema = σ.schema)
    (h : σ.KeepsHolds st s (D.add f.table batch)) : σ.KeepsHolds st s' (D.add f.table batch) := by
  induction hrun with
  | nil => exact h
  | @cons b rest _ _ _ _ _ _ first _ ih =>
    refine ih (fun b' hb' => hplans b' (by simp [hb'])) (fun b' hb' => hearly b' (by simp [hb']))
      (fun hc hcall => hC (by
        rw [List.flatMap_cons]
        exact List.mem_append_right _ hc) hcall) ((first.within hW).schema.trans hs) ?_
    exact holds_early hg hclear honly hkey (hplans b (by simp)) (hearly b (by simp))
      (fun hc hcall => hC (by simp [hc]) hcall) hW first hs h

theorem holds_back (hg : σ.schema.Strict) (hclear : σ.IsClear) {bs : List (Block Callee)}
    (hplans : ∀ b ∈ bs, σ.Plans f.table (·.table) notes captured b)
    (hlate : ∀ b ∈ bs, (∃ c, b = .referencedCleanup c) ∨ ∃ callee, b = .parentCascade callee)
    (hC : ∀ {c keys caller s deleted s'}, c ∈ bs.flatMap (·.callees) →
      C c.function keys caller s deleted s' → σ.HoldingCall st c.table keys s s')
    (hW : ∀ {n keys caller s deleted s'}, C n keys caller s deleted s' → s'.Within s)
    (hrun : Block.RunsAll C f batch caller bs frame s frame' s') (hs : s.schema = σ.schema)
    (h : σ.KeepsHolds st s fun u v => D u v ∨ Pointed frame bs u v) : σ.KeepsHolds st s' D := by
  induction hrun with
  | nil =>
    refine h.mono fun u v hD => ?_
    rcases hD with hD | ⟨b, hb, -⟩
    · exact hD
    · cases hb
  | @cons b rest _ _ _ _ _ _ first _ ih =>
    refine ih (fun b' hb' => hplans b' (by simp [hb'])) (fun b' hb' => hlate b' (by simp [hb']))
      (fun hc hcall => hC (by
        rw [List.flatMap_cons]
        exact List.mem_append_right _ hc) hcall) ((first.within hW).schema.trans hs) ?_
    exact holds_late hg hclear (hplans b (by simp)) (hlate b (by simp))
      (fun hc hcall => hC (by simp [hc]) hcall) first hs h

/-- **When the rows go** the batch is gone, and what it pointed at may have
lost its holds. -/
theorem holds_local (hg : σ.schema.Strict) (hclear : σ.IsClear)
    (hkey : σ.schema.key? f.table = some f.keyColumn) {front back : List (Block Callee)}
    (hbody : σ.IsBody f.table (·.table) notes captured front back)
    (hrun : (Block.localDelete captured : Block Callee).Runs C f batch caller frame s frame' s')
    (hs : s.schema = σ.schema) (h : σ.KeepsHolds st s (D.add f.table batch)) :
    σ.KeepsHolds st s' fun u v => D u v ∨ Pointed frame' back u v := by
  cases hrun with
  | @localDelete _ _ _ _ rows remove =>
    have hgone : ∀ v ∈ batch, ¬ s'.HasRow f.table v := fun v hv =>
      Program.not_hasRow_of_deleteWhere (by rw [hs, hkey]) remove hv
    obtain ⟨hrows, rfl⟩ := Store.deleteWhere_of_restricts (hs ▸ hg.restricts) remove
    have hcaptured : (Frame.mk (frame.deleted ++ rows.filterMap (·.get? f.keyColumn))
        frame.deletedParts (captured.map fun column =>
          ascending (rows.filterMap (·.get? column)))).captured =
        captured.map fun column => ascending (rows.filterMap (·.get? column)) := rfl
    refine KeepsHolds.of_add (t := f.table) ?_ hgone
    refine ((h.mono fun _ _ => Or.inl).removeRows fun n x o hasks hloose =>
      hasks.going_of_delete hclear hg.regular hs hkey hbody hrows hcaptured hloose).mono
        fun u v hD => ?_
    rcases hD with (hD | hbatch) | hpointed
    · exact Or.inl (Or.inl hD)
    · exact Or.inr hbatch
    · exact Or.inl (Or.inr hpointed)

/-- **A body keeps what is held.** -/
theorem holds_body (hg : σ.schema.Strict) (hclear : σ.IsClear) (honly : σ.BridgesOnlyLink)
    (hkey : σ.schema.key? f.table = some f.keyColumn) {front back : List (Block Callee)}
    (hbody : σ.IsBody f.table (·.table) notes captured front back)
    (hC : ∀ {c keys caller s deleted s'},
      c ∈ (front ++ .localDelete captured :: back).flatMap (·.callees) →
      C c.function keys caller s deleted s' → σ.HoldingCall st c.table keys s s')
    (hW : ∀ {n keys caller s deleted s'}, C n keys caller s deleted s' → s'.Within s)
    (hrun : Block.RunsAll C f batch caller (front ++ .localDelete captured :: back) .empty s
      frame' s')
    (hs : s.schema = σ.schema) (h : σ.KeepsHolds st s D) : σ.KeepsHolds st s' D := by
  obtain ⟨frame₁, s₁, hfront, hrest⟩ := hrun.append
  have h₁ := holds_front hg hclear honly hkey (fun b hb => hbody.plans b (by simp [hb])) hbody.early
    (fun hc hcall => hC (by
      rw [List.flatMap_append]
      exact List.mem_append_left _ hc) hcall) hW hfront hs (h.mono fun _ _ => Or.inl)
  have hs₁ : s₁.schema = σ.schema := (hfront.within hW).schema.trans hs
  cases hrest with
  | cons hlocal hback =>
    refine holds_back hg hclear (fun b hb => hbody.plans b (by simp [hb])) hbody.late
      (fun hc hcall => hC (by
        rw [List.flatMap_append, List.flatMap_cons]
        exact List.mem_append_right _ (List.mem_append_right _ hc)) hcall) hW hback
      ((hlocal.within hW).schema.trans hs₁) ?_
    exact holds_local hg hclear hkey hbody hlocal hs₁ h₁

end Runs

/-- **Every call keeps what is held.** -/
theorem holding_call {p : Program} {name : String} {caller : Caller} {levels : Nat}
    {keys deleted : List Int} (hg : σ.schema.Strict) (hclear : σ.IsClear)
    (honly : σ.BridgesOnlyLink)
    (hserves : ∀ {name f}, p.lookup name = some f → p.Serves σ notes f)
    (h : (p.call levels name keys caller).Yields s deleted s') :
    ∃ f, p.lookup name = some f ∧ σ.HoldingCall st f.table keys s s' := by
  refine p.call_induction (S := fun f keys _ s _ s' => σ.HoldingCall st f.table keys s s') ?_ h
  intro deeper name f hf hcalls keys caller s deleted s' hrun hs
  obtain ⟨hkey, ⟨captured, front, back, hblocks, hbody⟩, hcallees⟩ := hserves hf
  have hgone := Program.gone_of_runs (hserves hf) hs hrun
  cases hrun with
  | idle hempty => exact ⟨hgone, fun D h => h⟩
  | @body frame _ hrun =>
    rw [hblocks] at hrun
    refine ⟨hgone, fun D h => ?_⟩
    refine holds_body hg hclear honly hkey hbody
      (fun {c keys caller s deleted s'} hc hcall => ?_) Program.call_within hrun hs h
    obtain ⟨g, hlookup, hholding⟩ := hcalls hcall
    refine hholding.congr (hcallees c ?_ g hlookup)
    rw [DeleteFunction.callees, hblocks]
    exact hc

/-! ## What is gone -/

/-- The rows that a store does not have. -/
def Missing (s : Store) : RowSet := fun t x => ¬ s.HasRow t x

/-- Rows that are left do not go with what is missing. -/
theorem not_taken_of_mem (hg : σ.schema.Regular) (hs : s.schema = σ.schema)
    (hwhole : s.NoDangling) {r : Row} (hr : r ∈ s.rows t) : ¬ σ.Taken (Missing s) t r := by
  rintro (⟨k, v, hk, hv, hgone⟩ | ⟨w, b, v, hb, hsame, hv, hgone⟩)
  · exact hgone ⟨k, by rw [hs, hk], r, hr, hv⟩
  · refine hgone (hwhole.hasRow (hs ▸ hg) (hs ▸ (hb.spec hg).near) ?_ hv)
    rwa [Store.rows_congr s hsame]

/-- **What is missing is a full set**, if bonds were honored and holds were
kept. -/
theorem full_of_missing (hg : σ.schema.Strict) (hst : st.schema = σ.schema) (hs : Store.Intact st s)
    (hhonors : s.Honors st σ.Composes Doom.nothing)
    (hholds : σ.KeepsHolds st s Doom.nothing) : σ.Full st (Missing s) := by
  have hschema : s.schema = σ.schema := hs.within.schema.trans hst
  -- no row is left that points at what is missing
  have hpoints {t u : TableName} {c : String} {x : Int} {r : Row} (hlink : σ.schema.Link u c t)
      (hr : r ∈ s.rows u) (hx : r.get? c = some x) : s.HasRow t x :=
    hs.whole.hasRow (hschema ▸ hg.regular) (hschema ▸ hlink) hr hx
  have hbond {F : Fact} {w : TableName} {v : Int} (hb : σ.Composes F w v) (hF : F.Holds st)
      (hnot : ¬ F.Holds s) : ¬ s.HasRow w v :=
    ((hhonors F w v hb hF).resolve_left hnot).elim id False.elim
  constructor
  case spelling =>
    exact fun hsame hgone hrow => hgone ((Store.hasRow_congr hsame).2 hrow)
  case part =>
    intro t u c x y hlink hbinds hcell hgone
    refine hbond (.part hlink hbinds) hcell fun ⟨_, _, r, hr, _, hx⟩ => hgone (hpoints hlink hr hx)
  case far =>
    intro t b q x v hbridge hmeans hq hx hv hgone
    refine hbond (.far hbridge hmeans hv) hq fun hleft => ?_
    exact hgone (hpoints (hbridge.spec hg.regular).near hleft hx)
  case target =>
    intro t u c x v hlink hother hmeans hcell hgone
    exact hbond (.target hlink hother hmeans) hcell fun hleft => hgone (Fact.hasRow_of_cell hleft)
  case supertype =>
    rintro t u x hsub ⟨k, hk, r, hr, hx⟩ hgone
    exact hbond (.supertype hsub (hst ▸ hk)) ⟨k, hk, r, hr, hx, hx⟩
      fun hleft => hgone (Fact.hasRow_of_cell hleft)
  case subtype =>
    rintro t u x ⟨k, hk, hlink, -⟩ - hgone ⟨l, hl, r, hr, hx⟩
    rw [hschema, hk] at hl
    cases hl
    exact hgone (hpoints hlink hr hx)
  case shared =>
    intro n x hheld hgo hrow
    obtain ⟨o, hasks, hby⟩ := (hholds n x hheld).resolve_right
      fun hgoing => hgoing.elim (fun hgone => hgone hrow) id
    have hgo := hgo o hasks
    -- a row that still points at it was let go in spite of being left
    have hnone (u : TableName) (c : String) (r : Row) (hr : r ∈ s.rows u) (hx : r.get? c = some x)
        (hgo : σ.LetGo st (Missing s) n x (.referencing u c)) : False := by
      refine not_taken_of_mem hg.regular hschema hs.whole hr ?_
      cases hk : s.schema.key? u with
      | none => exact hgo r (hs.frozen u hk r hr) hx
      | some k =>
        obtain ⟨q, hq, hvalues, hkeys⟩ := hs.origin hr
        exact (hgo q hq (hvalues c x hx)).of_sameKey (by rw [← hschema, hk])
          (hkeys k (by rw [← hs.within.schema, hk]))
    cases hasks with
    | column link =>
      obtain ⟨v, hcell⟩ := hby
      obtain ⟨-, -, r, hr, -, hv⟩ := id hcell
      exact hgo _ v link (hs.within.holds hcell) (hpoints link hr hv)
    | reference =>
      obtain ⟨r, hr, hx⟩ := hby
      exact hnone _ _ r hr hx hgo
    | bridge =>
      obtain ⟨r, hr, hx⟩ := hby
      exact hnone _ _ r hr hx hgo

/-- **What is gone after a deletion is a full set**, and the batch is in
it. Nothing that is left dangles. -/
theorem full_of_delete {namer : Namer} {start : TableName} {result : Synthesis} {depth : Nat}
    {name : String} {deleted : List Int} (hg : σ.schema.Strict) (hclear : σ.IsClear)
    (honly : σ.BridgesOnlyLink) (hsyn : σ.synthesize namer start = .ok result)
    (hst : st.schema = σ.schema) (hwhole : st.NoDangling)
    (hf : (Program.mk result.registry.functions depth).lookup name = some f)
    (h : ((Program.mk result.registry.functions depth).delete st name ids).result = .ok deleted)
    (hs : s = ((Program.mk result.registry.functions depth).delete st name ids).store) :
    Store.Intact st s ∧ σ.Full st (Missing s) ∧ ∀ id ∈ ids, Missing s f.table id := by
  have hyields := Program.yields_of_delete h
  rw [← hs] at hyields
  have hserves {name : String} {f : DeleteFunction}
      (hf : (Program.mk result.registry.functions depth).lookup name = some f) :=
    Program.serves_of_synthesize hsyn hf
  obtain ⟨f', hf', hhonoring⟩ := honoring_call hg hst hserves hyields
  rw [hf] at hf'
  cases hf'
  obtain ⟨_, -, hholding⟩ : ∃ f, (Program.mk result.registry.functions depth).lookup name = some f ∧
      σ.HoldingCall st f.table ids st s := holding_call hg hclear honly hserves hyields
  obtain ⟨hintact, hgone, hhonors⟩ := hhonoring (.refl hwhole)
  obtain ⟨-, hholds⟩ := hholding hst
  exact ⟨hintact, full_of_missing hg hst hintact
    (hhonors Doom.nothing (.refl st _ _) fun hcaller => by cases hcaller)
    (hholds Doom.nothing (.refl σ st _)), hgone⟩

end Setting

end DeleteCascade
