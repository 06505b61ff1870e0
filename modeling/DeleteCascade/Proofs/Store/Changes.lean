import DeleteCascade.Proofs.Store.Cascade
/-!
# Statements — rows that come in and values that change

A row that is inserted is checked from both ends: its key is free, and what
it references is there, so a store that was consistent stays so
(`UniqueKeys.insert`, `NoDangling.insert`). An update checks what the row
references (`update_eq_ok`), and neither whether the key it gives is free nor
who references the value it takes away. Just these two decide whether the
store stays consistent (`uniqueKeys_update_iff`, `noDangling_update_iff`).
-/

namespace DeleteCascade

namespace Schema

variable {g : Schema} {t : TableName} {d : Table} {fk : ForeignKey}

/-- In a plain schema a table lists the foreign keys that start from it. -/
theorem Plain.mem_foreignKeys (h : g.Plain) (hd : g.table? t = some d) (hfk : fk ∈ g.foreignKeys)
    (hsource : fk.source.same t) : fk ∈ d.foreignKeys := by
  obtain ⟨d', hd', hlisted⟩ := Schema.mem_foreignKeys.1 hfk
  have htable := table?_of_mem_of_once h.once hd'
  have hsame : d'.name.same t :=
    TableName.same_trans (TableName.same_symm (h.atSource d' hd' fk hlisted)) hsource
  rw [table?_congr g hsame, hd] at htable
  cases htable
  exact hlisted

end Schema

namespace Store

variable {s s' : Store} {t u : TableName} {d : Table} {row r : Row} {fk : ForeignKey}
variable {name column : String} {id value : Int} {values : List (String × Int)}

/-- A chain of steps succeeds where each of them does. -/
theorem bind_eq_ok {α β : Type} {x : Except StoreError α} {f : α → Except StoreError β} {b : β}
    (h : x >>= f = .ok b) : ∃ a, x = .ok a ∧ f a = .ok b := by
  cases x with
  | error err => cases h
  | ok a => exact ⟨a, rfl, h⟩

theorem table_eq_ok (h : s.table t = .ok d) : s.schema.table? t = some d := by
  unfold table at h
  split at h
  · cases h
    assumption
  · cases h

theorem keyColumn_eq_ok {k : String} (h : s.keyColumn t = .ok k) : s.schema.key? t = some k := by
  unfold keyColumn at h
  split at h
  · cases h
  · rename_i d hd
    split at h
    · rename_i hk
      cases h
      simp [Schema.key?, table_eq_ok hd, hk]
    · cases h

/-- What the references of a row point at is there, or is the row itself. -/
theorem checkReferences_eq_ok (h : s.checkReferences t d row = .ok ()) (hfk : fk ∈ d.foreignKeys)
    {c p : String} (hcols : fk.columns? = some (c, p)) {v : Int} (hv : row.get? c = some v) :
    (∃ q ∈ s.rows fk.target, q.get? p = some v) ∨ fk.target.same t ∧ row.get? p = some v := by
  have hcheck : s.checkReference t d row fk = .ok () := by
    unfold checkReferences at h
    generalize d.foreignKeys = fks at h hfk
    induction fks with
    | nil => cases hfk
    | cons fk' fks ih =>
      rw [List.forM] at h
      obtain ⟨⟨⟩, hfirst, hrest⟩ := bind_eq_ok h
      rcases List.mem_cons.1 hfk with rfl | hfk
      · exact hfirst
      · exact ih hrest hfk
  unfold checkReference at hcheck
  rw [hcols] at hcheck
  dsimp only at hcheck
  rw [hv] at hcheck
  dsimp only at hcheck
  split at hcheck
  · rename_i hfound
    simpa [hasValue_iff] using hfound
  · cases hcheck

/-! ## Rows that come in -/

/-- **What an insertion does**: a row comes in at the end, after its key and
its references were checked. -/
theorem insert_eq_ok (h : s.insert name values = .ok s') : ∃ d row,
    s.schema.table? (s.schema.named name) = some d ∧
      s.checkKey (s.schema.named name) d row = .ok () ∧
      s.checkReferences (s.schema.named name) d row = .ok () ∧
      s' = s.setRows (s.schema.named name) (s.rows (s.schema.named name) ++ [row]) := by
  unfold insert at h
  obtain ⟨d, hd, h⟩ := bind_eq_ok h
  obtain ⟨row, -, h⟩ := bind_eq_ok h
  obtain ⟨⟨⟩, hkey, h⟩ := bind_eq_ok h
  obtain ⟨⟨⟩, hreferences, h⟩ := bind_eq_ok h
  cases h
  exact ⟨d, row, table_eq_ok hd, hkey, hreferences, rfl⟩

/-- No row has the key of a row that was checked. -/
theorem checkKey_eq_ok (h : s.checkKey t d row = .ok ()) {k : String} (hk : d.key? = some k)
    {v : Int} (hv : row.get? k = some v) : ∀ r ∈ s.rows t, r.get? k ≠ some v := by
  unfold checkKey at h
  rw [hk] at h
  dsimp only at h
  rw [hv] at h
  dsimp only at h
  split at h
  · cases h
  · rename_i hfree
    intro r hr hrv
    exact hfree (hasValue_iff.2 ⟨r, hr, hrv⟩)

/-- **Keys stay unique where rows come in.** -/
theorem UniqueKeys.insert (h : s.UniqueKeys) (hs : s.insert name values = .ok s') :
    s'.UniqueKeys := by
  obtain ⟨d, row, hd, hkey, -, rfl⟩ := insert_eq_ok hs
  intro u k hk
  rw [rows_setRows]
  split
  · rename_i hsame
    rw [schema_setRows, ← Schema.key?_congr hsame] at hk
    refine List.pairwise_append.2 ⟨h _ k hk, List.pairwise_singleton _ _, ?_⟩
    intro r hr q hq v hrv hqv
    obtain rfl := List.mem_singleton.1 hq
    exact checkKey_eq_ok hkey (by simpa [Schema.key?, hd] using hk) hqv r hr hrv
  · exact h u k hk

/-- **No reference dangles where rows come in.** -/
theorem NoDangling.insert (h : s.NoDangling) (hplain : s.schema.Plain)
    (hs : s.insert name values = .ok s') : s'.NoDangling := by
  obtain ⟨d, row, hd, -, hreferences, rfl⟩ := insert_eq_ok hs
  have hstays {w : TableName} {q : Row} (hq : q ∈ s.rows w) :
      q ∈ (s.setRows (s.schema.named name) (s.rows (s.schema.named name) ++ [row])).rows w := by
    rw [rows_setRows]
    split
    · rename_i hsame
      rw [rows_congr s hsame]
      exact List.mem_append_left _ hq
    · exact hq
  intro fk hfk c p hcols r hr v hv
  have hold (hr : r ∈ s.rows fk.source) : ∃ q ∈ (s.setRows (s.schema.named name)
      (s.rows (s.schema.named name) ++ [row])).rows fk.target, q.get? p = some v := by
    obtain ⟨q, hq, hqv⟩ := h fk hfk c p hcols r hr v hv
    exact ⟨q, hstays hq, hqv⟩
  rw [rows_setRows] at hr
  split at hr
  · rename_i hsame
    rcases List.mem_append.1 hr with hr | hr
    · exact hold (rows_congr s hsame ▸ hr)
    · obtain rfl := List.mem_singleton.1 hr
      have hlisted := hplain.mem_foreignKeys hd hfk (TableName.same_symm hsame)
      rcases checkReferences_eq_ok hreferences hlisted hcols hv with ⟨q, hq, hqv⟩ | ⟨htarget, hrv⟩
      · exact ⟨q, hstays hq, hqv⟩
      · refine ⟨r, ?_, hrv⟩
        rw [rows_setRows, if_pos (TableName.same_symm htarget)]
        simp
  · exact hold hr

/-! ## Values that change -/

/-- The first row that passes a test gives way to another one. -/
theorem exists_replaceFirst {test : Row → Bool} {rows : List Row} {old : Row}
    (h : rows.find? test = some old) (row : Row) : ∃ front back,
      rows = front ++ old :: back ∧ replaceFirst test row rows = front ++ row :: back := by
  induction rows with
  | nil => cases h
  | cons r rest ih =>
    rw [replaceFirst]
    by_cases htest : test r = true
    · rw [List.find?_cons_of_pos htest] at h
      cases h
      exact ⟨[], rest, rfl, by simp [htest]⟩
    · rw [List.find?_cons_of_neg (by simpa using htest)] at h
      obtain ⟨front, back, hrest, hreplaced⟩ := ih h
      exact ⟨r :: front, back, by rw [hrest, List.cons_append], by simp [htest, hreplaced]⟩

/-- **What an update does**: the row with the key has another value in the
column, after its references were checked. -/
structure Updated (s : Store) (t : TableName) (k : String) (id : Int) (column : String)
    (value : Int) (s' : Store) (old : Row) (front back : List Row) : Prop where
  key : s.schema.key? t = some k
  hasKey : old.get? k = some id
  found : (s.rows t).find? (fun r => r.get? k == some id) = some old
  before : s.rows t = front ++ old :: back
  checked : ∃ d, s.schema.table? t = some d ∧
    s.checkReferences t d (old.set column value) = .ok ()
  after : s' = s.setRows t (front ++ old.set column value :: back)

theorem update_eq_ok (h : s.update name id column value = .ok s') :
    ∃ k old front back, s.Updated (s.schema.named name) k id column value s' old front back := by
  unfold update at h
  obtain ⟨d, hd, h⟩ := bind_eq_ok h
  dsimp only at h
  split at h
  · cases h
  · obtain ⟨key, hkey, h⟩ := bind_eq_ok h
    split at h
    · cases h
    · rename_i old hfound
      obtain ⟨⟨⟩, hchecked, h⟩ := bind_eq_ok h
      cases h
      obtain ⟨front, back, hbefore, hafter⟩ := exists_replaceFirst hfound (old.set column value)
      exact ⟨key, old, front, back, keyColumn_eq_ok hkey, by simpa using List.find?_some hfound,
        hfound, hbefore, ⟨d, table_eq_ok hd, hchecked⟩, by rw [hafter]⟩

/-- **The key that an update gives is free**, if it gives one. -/
def KeyFree (s : Store) (t : TableName) (id : Int) (column : String) (value : Int) : Prop :=
  ∀ k, s.schema.key? t = some k → sameName column k → value = id ∨ s.hasValue t k value = false

/-- **A value that a column has lost is not missed**: what references it finds
it in another row. -/
def NotMissed (s : Store) (t : TableName) (column : String) (lost : Option Int) : Prop :=
  ∀ fk ∈ s.schema.foreignKeys, fk.target.same t → ∀ c p, fk.columns? = some (c, p) →
    sameName p column → ∀ v ∈ lost, s.hasValue fk.source c v = true → s.hasValue t p v = true

instance (s : Store) (t : TableName) (id : Int) (column : String) (value : Int) :
    Decidable (s.KeyFree t id column value) :=
  decidable_of_iff
    (∀ k ∈ s.schema.key? t, sameName column k → value = id ∨ s.hasValue t k value = false) Iff.rfl

instance (s : Store) (t : TableName) (column : String) (lost : Option Int) :
    Decidable (s.NotMissed t column lost) :=
  decidable_of_iff
    (∀ fk ∈ s.schema.foreignKeys, fk.target.same t → ∀ cols ∈ fk.columns?, sameName cols.2 column →
      ∀ v ∈ lost, s.hasValue fk.source cols.1 v = true → s.hasValue t cols.2 v = true)
    ⟨fun h fk hfk htarget c p hcols => h fk hfk htarget (c, p) hcols,
      fun h fk hfk htarget cols hcols => h fk hfk htarget cols.1 cols.2 hcols⟩

namespace Updated

variable {k : String} {old : Row} {front back : List Row}

/-- The rows afterwards. -/
theorem rows (h : s.Updated t k id column value s' old front back) (u : TableName) :
    s'.rows u = if t.same u then front ++ old.set column value :: back else s.rows u := by
  rw [h.after, rows_setRows]

theorem schema (h : s.Updated t k id column value s' old front back) : s'.schema = s.schema := by
  rw [h.after, schema_setRows]

/-- One row among others has its key for itself if no other row has it. -/
theorem pairwise_keys_iff {c : String} {r : Row} :
    ((front ++ r :: back).Pairwise fun r q => ∀ v, r.get? c = some v → q.get? c ≠ some v) ↔
      (∀ q ∈ front ++ back, ∀ v, r.get? c = some v → q.get? c ≠ some v) ∧
        (front ++ back).Pairwise fun r q => ∀ v, r.get? c = some v → q.get? c ≠ some v := by
  rw [List.perm_middle.pairwise_iff fun hrq v hv hv' => hrq v hv' hv, List.pairwise_cons]

theorem mem_middle {q r : Row} : q ∈ front ++ r :: back ↔ q = r ∨ q ∈ front ++ back := by
  rw [List.perm_middle.mem_iff, List.mem_cons]

/-- **Keys stay unique just where the key that is given is free.** -/
theorem uniqueKeys_iff (h : s.Updated t k id column value s' old front back)
    (hunique : s.UniqueKeys) : s'.UniqueKeys ↔ s.KeyFree t id column value := by
  have hkeys := hunique t k h.key
  rw [h.before, pairwise_keys_iff] at hkeys
  have hother : ∀ q ∈ front ++ back, q.get? k ≠ some id := fun q hq => hkeys.1 q hq id h.hasKey
  constructor
  · intro hunique' k' hk' hcolumn
    rw [h.key] at hk'
    cases hk'
    have hkeys' := hunique' t k (by rw [h.schema, h.key])
    rw [h.rows, if_pos (TableName.same_refl t), pairwise_keys_iff] at hkeys'
    by_cases hvalue : value = id
    · exact Or.inl hvalue
    · refine Or.inr (Bool.eq_false_iff.2 fun htaken => ?_)
      obtain ⟨q, hq, hqv⟩ := hasValue_iff.1 htaken
      rw [h.before, mem_middle] at hq
      rcases hq with rfl | hq
      · rw [h.hasKey] at hqv
        exact hvalue (Option.some.inj hqv).symm
      · exact hkeys'.1 q hq value (by rw [Row.get?_set, if_pos hcolumn]) hqv
  · intro hfree u c hc
    rw [h.schema] at hc
    rw [h.rows]
    split
    · rename_i hsame
      rw [← Schema.key?_congr hsame, h.key] at hc
      cases hc
      refine pairwise_keys_iff.2 ⟨fun q hq v hv => ?_, hkeys.2⟩
      rw [Row.get?_set] at hv
      split at hv
      · rename_i hcolumn
        cases hv
        rcases hfree k h.key hcolumn with rfl | hnone
        · exact hother q hq
        · intro hqv
          rw [hasValue_iff.2 ⟨q, by rw [h.before]; exact mem_middle.2 (Or.inr hq), hqv⟩] at hnone
          cases hnone
      · exact hkeys.1 q hq v hv
    · exact hunique u c hc

/-- **No reference dangles just where the value that is lost is not missed.** -/
theorem noDangling_iff (h : s.Updated t k id column value s' old front back)
    (hplain : s.schema.Plain) (hwhole : s.NoDangling) :
    s'.NoDangling ↔ s'.NotMissed t column (old.get? column) := by
  have hrows := h.rows t
  rw [if_pos (TableName.same_refl t)] at hrows
  have hrow : old.set column value ∈ s'.rows t := hrows ▸ mem_middle.2 (Or.inl rfl)
  constructor
  · intro hwhole' fk hfk htarget c p hcols _ v _ hv
    obtain ⟨r, hr, hrv⟩ := hasValue_iff.1 hv
    obtain ⟨q, hq, hqv⟩ := hwhole' fk hfk c p hcols r hr v hrv
    exact hasValue_iff.2 ⟨q, rows_congr s' htarget ▸ hq, hqv⟩
  · intro hmissed fk hfk c p hcols r hr v hv
    -- the row points at a row that was there, or at the row itself
    have hmet : (∃ q ∈ s.rows fk.target, q.get? p = some v) ∨
        fk.target.same t ∧ (old.set column value).get? p = some v := by
      rw [h.schema] at hfk
      rw [h.rows] at hr
      split at hr
      · rename_i hsame
        rcases mem_middle.1 hr with rfl | hother
        · obtain ⟨d, hd, hchecked⟩ := h.checked
          exact checkReferences_eq_ok hchecked
            (hplain.mem_foreignKeys hd hfk (TableName.same_symm hsame)) hcols hv
        · refine Or.inl (hwhole fk hfk c p hcols r ?_ v hv)
          rw [← rows_congr s hsame, h.before]
          exact mem_middle.2 (Or.inr hother)
      · exact Or.inl (hwhole fk hfk c p hcols r hr v hv)
    rcases hmet with ⟨q, hq, hqv⟩ | ⟨htarget, hqv⟩
    · by_cases htarget : fk.target.same t
      · rw [rows_congr s htarget, h.before, mem_middle] at hq
        rw [rows_congr s' htarget]
        rcases hq with rfl | hother
        · by_cases hcolumn : sameName p column
          · refine hasValue_iff.1 (hmissed fk hfk htarget c p hcols hcolumn v ?_
              (hasValue_iff.2 ⟨r, hr, hv⟩))
            rwa [← Row.get?_congr q hcolumn]
          · refine ⟨_, hrow, ?_⟩
            rwa [Row.get?_set, sameName_comm, if_neg hcolumn]
        · exact ⟨q, hrows ▸ mem_middle.2 (Or.inr hother), hqv⟩
      · refine ⟨q, ?_, hqv⟩
        rwa [h.rows, if_neg fun hsame => htarget (TableName.same_symm hsame)]
    · exact ⟨_, rows_congr s' htarget ▸ hrow, hqv⟩

/-- What the column said before. -/
theorem value?_eq (h : s.Updated (s.schema.named name) k id column value s' old front back) :
    s.value? name id column = old.get? column := by
  have hkey : s.keyColumn (s.schema.named name) = .ok k := by
    obtain ⟨d, hd, -⟩ := h.checked
    have hk := h.key
    rw [Schema.key?, hd, Option.bind_some] at hk
    simp [keyColumn, table, hd, hk]
  unfold value?
  dsimp only
  rw [hkey]
  dsimp only
  rw [h.found, Option.bind_some]

end Updated

end Store

end DeleteCascade
