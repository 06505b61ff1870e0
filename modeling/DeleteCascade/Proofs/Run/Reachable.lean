import DeleteCascade.Proofs.Deletion.Later
import DeleteCascade.Proofs.Store.Changes
/-!
# Runs — stores that a client can reach

A client begins with an empty store, inserts rows, updates them and calls
delete functions (`Program.Reachable`). Keys stay unique and no reference
dangles along the way (`Program.Reachable.consistent`), as long as nothing
takes a value away that is referenced: neither an update, which does not look
(`Store.Updated`), nor a key or a block that clears a column.
-/

namespace DeleteCascade

/-- **No function clears a column that a foreign key references**, in any row. -/
def Program.ClearsUnreferenced (p : Program) (g : Schema) : Prop :=
  ∀ name f, p.lookup name = some f → ∀ b ∈ f.blocks, ∀ batch t c test,
    Block.Clears f batch b t c test → ∀ r, test r = true → ∀ fk ∈ g.foreignKeys,
      fk.target.same t → ∀ a q, fk.columns? = some (a, q) → sameName q c = false

/-- **Synthesized functions do not** where foreign keys reference keys. -/
theorem Setting.clearsUnreferenced_of_synthesize {σ : Setting} {namer : Namer} {root : TableName}
    {result : Synthesis} (hg : σ.schema.Regular) (h : σ.synthesize namer root = .ok result)
    (depth : Nat) : (Program.mk result.registry.functions depth).ClearsUnreferenced σ.schema := by
  intro name f hf b hb batch t c test hclears r htest fk hfk htarget a q hcols
  obtain ⟨hkey, ⟨captured, front, back, hblocks, hbody⟩, -⟩ := Program.serves_of_synthesize h hf
  obtain ⟨k, hk, hother, -⟩ := hclears.notKey hkey (hbody.plans b (hblocks ▸ hb))
  obtain ⟨a', q', k', hcols', hk', hkq⟩ := hg.columns? hfk
  rw [hcols] at hcols'
  cases hcols'
  rw [Schema.key?_congr htarget, hk] at hk'
  cases hk'
  rw [← sameName_congr_left hkq, sameName_comm]
  exact hother r htest

namespace Store

variable {s s' : Store} {t : TableName} {c : String}

/-- **Clearing a column that nothing references leaves nothing dangling.** -/
theorem NoDangling.clearWhere {test : Row → Bool} (h : s.NoDangling)
    (hfree : ∀ r, test r = true → ∀ fk ∈ s.schema.foreignKeys, fk.target.same t →
      ∀ a q, fk.columns? = some (a, q) → sameName q c = false) :
    (s.clearWhere t c test).NoDangling := by
  intro fk hfk a p hcols r hr v hv
  have hbefore : ∃ r₀ ∈ s.rows fk.source, r₀.get? a = some v := by
    rw [rows_clearWhere] at hr
    split at hr
    · obtain ⟨r₀, hr₀, rfl⟩ := List.mem_map.1 hr
      refine ⟨r₀, hr₀, ?_⟩
      split at hv
      · rw [Row.get?_clear] at hv
        split at hv
        · cases hv
        · exact hv
      · exact hv
    · exact ⟨r, hr, hv⟩
  obtain ⟨r₀, hr₀, hv₀⟩ := hbefore
  obtain ⟨q, hq, hqv⟩ := h fk hfk a p hcols r₀ hr₀ v hv₀
  rw [rows_clearWhere]
  split
  · rename_i hsame
    refine ⟨_, List.mem_map_of_mem hq, ?_⟩
    split
    · rename_i htest
      rw [Row.get?_clear, sameName_comm,
        hfree q htest fk hfk (TableName.same_symm hsame) a p hcols, hqv]
      rfl
    · exact hqv
  · exact ⟨q, hq, hqv⟩

/-- **A consistent store** of a schema: keys are unique, and no reference
dangles. -/
structure Consistent (g : Schema) (s : Store) : Prop where
  schema : s.schema = g
  uniqueKeys : s.UniqueKeys
  noDangling : s.NoDangling

end Store

/-- **The stores that a client reaches** with the delete functions of a
program. An update is one that gives no key that is taken and takes no value
that is missed. -/
inductive Program.Reachable (p : Program) (g : Schema) : Store → Prop
  | empty : Reachable p g (.empty g)
  | insert {s s' : Store} {name : String} {values : List (String × Int)}
      (before : Reachable p g s) (done : s.insert name values = .ok s') : Reachable p g s'
  | update {s s' : Store} {name column : String} {id value : Int} (before : Reachable p g s)
      (done : s.update name id column value = .ok s')
      (keyFree : s.KeyFree (g.named name) id column value)
      (notMissed : s'.NotMissed (g.named name) column (s.value? name id column)) :
      Reachable p g s'
  | delete {s : Store} (before : Reachable p g s) (name : String) (ids : List Int) :
      Reachable p g (p.delete s name ids).store

section Consistent

variable {p : Program} {g : Schema} {s s' : Store}

/-- An update that succeeds leaves a consistent store just where the key that
it gives is free and the value that it takes is not missed. -/
theorem Store.Consistent.update_iff (h : s.Consistent g) (hplain : g.Plain) {name column : String}
    {id value : Int} (hs : s.update name id column value = .ok s') :
    (s'.UniqueKeys ↔ s.KeyFree (g.named name) id column value) ∧
      (s'.NoDangling ↔ s'.NotMissed (g.named name) column (s.value? name id column)) := by
  obtain ⟨k, old, front, back, hupdated⟩ := Store.update_eq_ok hs
  obtain ⟨rfl, hunique, hwhole⟩ := h
  rw [hupdated.value?_eq]
  exact ⟨hupdated.uniqueKeys_iff hunique, hupdated.noDangling_iff hplain hwhole⟩

theorem Store.Consistent.insert (h : s.Consistent g) (hplain : g.Plain) {name : String}
    {values : List (String × Int)} (hs : s.insert name values = .ok s') : s'.Consistent g := by
  obtain ⟨rfl, hunique, hwhole⟩ := h
  refine ⟨?_, hunique.insert hs, hwhole.insert hplain hs⟩
  obtain ⟨d, row, -, -, -, rfl⟩ := Store.insert_eq_ok hs
  rfl

theorem Store.Consistent.update (h : s.Consistent g) (hplain : g.Plain) {name column : String}
    {id value : Int} (hs : s.update name id column value = .ok s')
    (hfree : s.KeyFree (g.named name) id column value)
    (hmissed : s'.NotMissed (g.named name) column (s.value? name id column)) :
    s'.Consistent g := by
  obtain ⟨hkeys, hreferences⟩ := h.update_iff hplain hs
  obtain ⟨k, old, front, back, hupdated⟩ := Store.update_eq_ok hs
  exact ⟨hupdated.schema.trans h.schema, hkeys.2 hfree, hreferences.2 hmissed⟩

theorem Store.Consistent.deleteWhere (h : s.Consistent g) (hfree : g.ClearsUnreferenced)
    {t : TableName} {test : Row → Bool} {removed : List Row}
    (hs : s.deleteWhere t test = .ok (removed, s')) : s'.Consistent g := by
  obtain ⟨rfl, hunique, hwhole⟩ := h
  obtain ⟨-, hend⟩ := Store.underway_of_deleteWhere hs
  exact ⟨hend.schema, hunique.deleteWhere hs, hend.noDangling hfree hwhole⟩

/-- **A client's call leaves a consistent store**, whether it succeeds or not. -/
theorem Store.Consistent.delete (h : s.Consistent g) (hfree : g.ClearsUnreferenced)
    (hprogram : p.ClearsUnreferenced g) (name : String) (ids : List Int) :
    (p.delete s name ids).store.Consistent g := by
  cases hresult : (p.delete s name ids).result with
  | ok deleted =>
    refine Program.call_keeps_of_statements (P := Store.Consistent g)
      (fun hs hdelete => hs.deleteWhere hfree hdelete)
      (fun name f hf b hb batch t c test s hclears hs => ?_) (Program.yields_of_delete hresult) h
    obtain ⟨rfl, hunique, hwhole⟩ := hs
    exact ⟨rfl, hunique.clearWhere _ _ _,
      hwhole.clearWhere (hprogram name f hf b hb batch t c test hclears)⟩
  | error err =>
    have hsame : (p.delete s name ids).store = s := by
      unfold Program.delete at hresult ⊢
      split
      · rename_i hcall
        rw [hcall] at hresult
        cases hresult
      · rfl
    rw [hsame]
    exact h

/-- **Every store that a client reaches is consistent.** -/
theorem Program.Reachable.consistent (hplain : g.Plain) (hfree : g.ClearsUnreferenced)
    (hprogram : p.ClearsUnreferenced g) (h : p.Reachable g s) : s.Consistent g := by
  induction h with
  | empty => exact ⟨rfl, fun t k _ => by simp [Store.rows, Store.empty], fun fk _ c q _ r hr => by
      simp [Store.rows, Store.empty] at hr⟩
  | insert _ done ih => exact ih.insert hplain done
  | update _ done keyFree notMissed ih => exact ih.update hplain done keyFree notMissed
  | delete _ name ids ih => exact ih.delete hfree hprogram name ids

/-- **What keeps a store consistent.** An update that succeeds does just where
the key that it gives is free and the value that it takes is not missed, so
with insertions, deletions and such updates every store that a client reaches
is, where no key and no block clears a column that is referenced. -/
theorem Store.update_consistent (hplain : g.Plain) :
    (∀ (s : Store) (name : String) (id : Int) (column : String) (value : Int) (s' : Store),
      s.schema = g → s.UniqueKeys → s.NoDangling → s.update name id column value = .ok s' →
        (s'.UniqueKeys ↔ s.KeyFree (g.named name) id column value) ∧
        (s'.NoDangling ↔ s'.NotMissed (g.named name) column (s.value? name id column))) ∧
    (g.ClearsUnreferenced → ∀ p : Program, p.ClearsUnreferenced g → ∀ s, p.Reachable g s →
      s.UniqueKeys ∧ s.NoDangling) := by
  refine ⟨fun s name id column value s' hschema hunique hwhole hs => ?_,
    fun hfree p hprogram s hreached => ?_⟩
  · exact Store.Consistent.update_iff ⟨hschema, hunique, hwhole⟩ hplain hs
  · have hconsistent := hreached.consistent hplain hfree hprogram
    exact ⟨hconsistent.uniqueKeys, hconsistent.noDangling⟩

end Consistent

/-! ## A market -/

namespace Store

/-- Wares are sold at stalls. -/
def market : Schema :=
  ⟨"market", [smallTable "market" "stall" [],
    (smallTable "market" "ware" ["stall"]).addReference "stall" "stall" "id" .noAction], []⟩

/-- Two stalls, one of which sells something. -/
def marketStore : Store where
  schema := market
  contents := [(("market", "stall"), [⟨[("id", 1)]⟩, ⟨[("id", 2)]⟩]),
    (("market", "ware"), [⟨[("id", 1), ("stall", 1)]⟩])]

/-- A stall goes with its wares, which are cut off first. -/
def marketProgram : Program where
  functions := [⟨⟨"market", "stall"⟩, "del_stall", "id",
      [.childCascade ⟨⟨"market", "ware"⟩, "id", "stall", true, none, ⟨⟨"market", "ware"⟩, "del_ware"⟩⟩,
        .localDelete []]⟩,
    ⟨⟨"market", "ware"⟩, "del_ware", "id", [.localDelete []]⟩]
  maxDepth := 8

/-- Nothing references a ware, which is all that is cut off. -/
theorem marketProgram_clearsUnreferenced : marketProgram.ClearsUnreferenced market := by
  intro name f hf b hb batch t c test hclears r _ fk hfk htarget
  obtain ⟨hlisted, -⟩ := Program.mem_of_lookup hf
  have hware : t = ⟨"market", "ware"⟩ := by
    simp only [marketProgram, List.mem_cons, List.not_mem_nil, or_false] at hlisted
    rcases hlisted with rfl | rfl <;> cases hclears <;> simp_all
  have hother : ∀ fk ∈ market.foreignKeys, fk.target.same ⟨"market", "ware"⟩ = false := by
    decide +kernel
  rw [hware, hother fk hfk] at htarget
  cases htarget

/-- The ware is moved to the other stall, and a market is reached in which a
stall came and went. -/
theorem update_consistent_market :
    (∃ s', marketStore.update "ware" 1 "stall" 2 = .ok s' ∧ s'.UniqueKeys ∧ s'.NoDangling) ∧
      ∃ s, marketProgram.Reachable market s ∧ s.rows ⟨"market", "stall"⟩ = [⟨[("id", 1)]⟩] ∧
        (marketProgram.delete s "del_stall" [1]).result = .ok [1] ∧
        (marketProgram.delete s "del_stall" [1]).store.UniqueKeys ∧
        (marketProgram.delete s "del_stall" [1]).store.NoDangling := by
  obtain ⟨hupdate, hreach⟩ := update_consistent (g := market) (by decide +kernel)
  constructor
  · obtain ⟨s', hs', hmissed⟩ := exists_ok (x := marketStore.update "ware" 1 "stall" 2)
      (P := fun s' =>
        s'.NotMissed (market.named "ware") "stall" (marketStore.value? "ware" 1 "stall"))
      (by decide +kernel)
    obtain ⟨hkeys, hreferences⟩ := hupdate marketStore "ware" 1 "stall" 2 s' rfl
      (by decide +kernel) (by decide +kernel) hs'
    exact ⟨s', hs', hkeys.2 (by decide +kernel), hreferences.2 hmissed⟩
  · obtain ⟨s, hs, hrows, hresult⟩ := exists_ok
      (x := (Store.empty market).insert "stall" [("id", 1)]) (P := fun s =>
        s.rows ⟨"market", "stall"⟩ = [⟨[("id", 1)]⟩] ∧
        (marketProgram.delete s "del_stall" [1]).result = .ok [1]) (by
          -- enforcement is followed for as long as it lasts here
          delta Program.delete Program.call Program.call._f Block.run BridgeCascade.run
            runLocalDelete Store.deleteWhere
          rw [← enforceFor_eq 9]
          decide +kernel)
    have hreached : marketProgram.Reachable market s := .insert .empty hs
    exact ⟨s, hreached, hrows, hresult, hreach (by decide +kernel) _
      marketProgram_clearsUnreferenced _ (.delete hreached "del_stall" [1])⟩

/-- **An update can give a key that is taken, and take a key that is
referenced**: it succeeds, and two stalls have the same key, or the ware is
sold at no stall. -/
theorem not_update_consistent :
    market.Plain ∧ marketStore.UniqueKeys ∧ marketStore.NoDangling ∧
      (∃ s', marketStore.update "stall" 2 "id" 1 = .ok s' ∧ ¬ s'.UniqueKeys) ∧
      ∃ s', marketStore.update "stall" 1 "id" 3 = .ok s' ∧ ¬ s'.NoDangling :=
  ⟨by decide +kernel, by decide +kernel, by decide +kernel, exists_ok (by decide +kernel),
    exists_ok (by decide +kernel)⟩

end Store

end DeleteCascade
