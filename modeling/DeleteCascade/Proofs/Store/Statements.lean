import DeleteCascade.Proofs.Schema.Links
import DeleteCascade.Store.Delete
/-!
# Statements — what they do to the rows

A statement either makes a column NULL (`clearWhere`) or takes rows away,
after which foreign keys are enforced. `enforce_keeps` is the rule for what
survives enforcement, and `enforce_eq_ok_of_restricts` says that where no
key acts on its own, enforcement only makes sure that nothing points at the
rows that are gone. The conditions on a store at the end are those that a
database keeps up: unique keys, given keys, and no dangling reference.
-/

namespace DeleteCascade

theorem Row.get?_congr (r : Row) {c c' : String} (h : sameName c c') : r.get? c = r.get? c' := by
  simp only [Row.get?, sameName_iff.1 h]

namespace Store

variable {s s' : Store} {t u : TableName} {c c' k : String} {test : Row → Bool} {v : Int}
variable {removed : List Row}

theorem rows_congr (s : Store) (h : t.same u) : s.rows t = s.rows u := by
  simp only [rows, TableName.same_iff.1 h]

/-- Some row of a table has this value in a column. -/
theorem hasValue_iff : s.hasValue t c v = true ↔ ∃ r ∈ s.rows t, r.get? c = some v := by
  simp [hasValue]

/-! ## Statements -/

/-- A store with one column NULL in the rows of a table that pass a test. -/
def clearWhere (s : Store) (t : TableName) (column : String) (test : Row → Bool) : Store :=
  s.setRows t ((s.rows t).map fun r => if test r then r.clear column else r)

@[simp] theorem schema_clearWhere (s : Store) (t : TableName) (c : String) (test : Row → Bool) :
    (s.clearWhere t c test).schema = s.schema := rfl

theorem rows_clearWhere (s : Store) (t u : TableName) (c : String) (test : Row → Bool) :
    (s.clearWhere t c test).rows u =
      if t.same u then (s.rows u).map fun r => if test r then r.clear c else r else s.rows u := by
  unfold clearWhere
  rw [rows_setRows]
  split
  · rename_i h
    rw [rows_congr s h]
  · rfl

theorem rows_removeRows (s : Store) (t u : TableName) (test : Row → Bool) :
    (s.removeRows t test).rows u =
      if t.same u then (s.rows u).filter fun r => !test r else s.rows u := by
  unfold removeRows
  rw [rows_setRows]
  split
  · rename_i h
    rw [rows_congr s h]
  · rfl

theorem select_eq_ok {rs : List Row} (h : s.select t test = .ok rs) :
    rs = (s.rows t).filter test := by
  unfold select at h
  cases ht : s.table t with
  | error e =>
    rw [ht] at h
    cases h
  | ok d =>
    rw [ht] at h
    cases h
    rfl

theorem setNullWhere_eq_ok {rs : List Row} (h : s.setNullWhere t c test = .ok (rs, s')) :
    rs = (s.rows t).filter test ∧ s' = s.clearWhere t c test := by
  unfold setNullWhere at h
  split at h
  · cases h
  · split at h
    · cases h
    · dsimp only at h
      split at h
      · cases h
      · cases h
        exact ⟨rfl, rfl⟩

theorem deleteWhere_eq_ok (h : s.deleteWhere t test = .ok (removed, s')) :
    removed = (s.rows t).filter test ∧
      (s.removeRows t test).enforce (enforcements s.schema t removed) = .ok s' := by
  unfold deleteWhere at h
  split at h
  · cases h
  · dsimp only at h
    cases he : (s.removeRows t test).enforce
        (enforcements s.schema t ((s.rows t).filter test)) with
    | error e =>
      rw [he] at h
      cases h
    | ok s₁ =>
      rw [he] at h
      cases h
      exact ⟨rfl, he⟩

/-! ## Enforcement -/

theorem mem_enforcements {g : Schema} {e : Enforcement} :
    e ∈ enforcements g t removed ↔ ∃ fk ∈ g.foreignKeysTo t, ∃ c p, fk.columns? = some (c, p) ∧
      removed.filterMap (·.get? p) ≠ [] ∧ e = ⟨fk, c, removed.filterMap (·.get? p)⟩ := by
  unfold enforcements
  rw [List.mem_filterMap]
  constructor
  · rintro ⟨fk, hfk, he⟩
    split at he
    · cases he
    · rename_i c p hcols
      split at he
      · cases he
      · rename_i hne
        cases he
        exact ⟨fk, hfk, c, p, hcols, hne, rfl⟩
  · rintro ⟨fk, hfk, c, p, hcols, hne, rfl⟩
    refine ⟨fk, hfk, ?_⟩
    rw [hcols]
    dsimp only
    split
    · rename_i h
      exact absurd h hne
    · rfl

theorem size_clearWhere (s : Store) (t : TableName) (c : String) (test : Row → Bool) :
    (s.clearWhere t c test).size = s.size := by
  have hsize := size_setRows s t ((s.rows t).map fun r => if test r then r.clear c else r)
  rw [List.length_map] at hsize
  unfold clearWhere
  omega

/-- What one enforcement does before the others: a cascade takes rows away,
clearing makes a column NULL, and every other action changes nothing and
finds no row. -/
theorem enforce_cons_eq_ok {e : Enforcement} {rest : List Enforcement}
    (h : s.enforce (e :: rest) = .ok s') :
    (e.foreignKey.onDelete = .cascade ∧ (s.rows e.foreignKey.source).filter e.concerns = [] ∧
        s.enforce rest = .ok s') ∨
      (e.foreignKey.onDelete = .cascade ∧ (s.rows e.foreignKey.source).filter e.concerns ≠ [] ∧
        (s.removeRows e.foreignKey.source e.concerns).enforce
          (enforcements s.schema e.foreignKey.source
            ((s.rows e.foreignKey.source).filter e.concerns) ++ rest) = .ok s') ∨
      (e.foreignKey.onDelete = .setNull ∧
        (∃ touched, s.setNullWhere e.foreignKey.source e.column e.concerns =
          .ok (touched, s.clearWhere e.foreignKey.source e.column e.concerns)) ∧
        (s.clearWhere e.foreignKey.source e.column e.concerns).enforce rest = .ok s') ∨
      (e.foreignKey.onDelete ≠ .cascade ∧ e.foreignKey.onDelete ≠ .setNull ∧
        (∀ r ∈ s.rows e.foreignKey.source, e.concerns r = false) ∧ s.enforce rest = .ok s') := by
  have hother (hcascade : e.foreignKey.onDelete ≠ .cascade)
      (hnull : e.foreignKey.onDelete ≠ .setNull)
      (h : (if (s.rows e.foreignKey.source).any e.concerns then
        .error (.stillReferenced e.foreignKey.name e.foreignKey.source.qualified)
        else s.enforce rest) = .ok s') :
      e.foreignKey.onDelete ≠ .cascade ∧ e.foreignKey.onDelete ≠ .setNull ∧
        (∀ r ∈ s.rows e.foreignKey.source, e.concerns r = false) ∧ s.enforce rest = .ok s' := by
    split at h
    · cases h
    · rename_i hnone
      exact ⟨hcascade, hnull, by simpa using hnone, h⟩
  unfold enforce at h
  dsimp only at h
  split at h
  · rename_i hact
    split at h
    · cases h
    · split at h
      · rename_i hnone
        exact Or.inl ⟨hact, hnone, h⟩
      · rename_i r rs hsome
        rw [← hsome] at h
        exact Or.inr (Or.inl ⟨hact, by rw [hsome]; simp, h⟩)
  · rename_i hact
    split at h
    · cases h
    · rename_i hcleared
      obtain ⟨-, rfl⟩ := setNullWhere_eq_ok hcleared
      exact Or.inr (Or.inr (Or.inl ⟨hact, ⟨_, hcleared⟩, h⟩))
  · rename_i hact
    exact Or.inr (Or.inr (Or.inr (hother (by simp [hact]) (by simp [hact]) h)))
  · rename_i hact
    exact Or.inr (Or.inr (Or.inr (hother (by simp [hact]) (by simp [hact]) h)))
  · rename_i hact
    exact Or.inr (Or.inr (Or.inr (hother (by simp [hact]) (by simp [hact]) h)))

/-- Enforcement, followed for some steps. -/
def enforceFor : Nat → Store → List Enforcement → Except StoreError Store
  | 0, s, pending => s.enforce pending
  | _ + 1, s, [] => .ok s
  | n + 1, s, e :: rest =>
    let child := e.foreignKey.source
    match e.foreignKey.onDelete with
    | .cascade =>
      match s.table child with
      | .error err => .error err
      | .ok _ =>
        match (s.rows child).filter e.concerns with
        | [] => enforceFor n s rest
        | r :: removed =>
          enforceFor n (s.removeRows child e.concerns)
            (enforcements s.schema child (r :: removed) ++ rest)
    | .setNull =>
      match s.setNullWhere child e.column e.concerns with
      | .error err => .error err
      | .ok (_, s') => enforceFor n s' rest
    | .noAction | .restrict | .setDefault =>
      if (s.rows child).any e.concerns then
        .error (.stillReferenced e.foreignKey.name child.qualified)
      else enforceFor n s rest

/-- However long it is followed, the rest is enforcement again. -/
theorem enforceFor_eq (n : Nat) : enforceFor n = enforce := by
  funext s pending
  induction n generalizing s pending with
  | zero => rfl
  | succ n ih =>
    cases pending with
    | nil => rw [enforceFor, enforce]
    | cons e rest =>
      simp only [enforceFor, ih]
      rw [enforce]
      cases e.foreignKey.onDelete with
      | cascade =>
        dsimp only
        rcases s.table e.foreignKey.source with err | d
        · rfl
        · dsimp only
          rcases (s.rows e.foreignKey.source).filter e.concerns with _ | ⟨r, removed⟩ <;> rfl
      | setNull =>
        dsimp only
        rcases s.setNullWhere e.foreignKey.source e.column e.concerns with err | ⟨_, s'⟩ <;> rfl
      | _ => rfl

/-- **What each action keeps is kept by enforcement**: taking away the rows
that a cascade concerns, and making a column NULL. -/
theorem enforce_keeps {P : Store → Prop} {Q : Enforcement → Prop}
    (hcascade : ∀ s e, Q e → e.foreignKey.onDelete = .cascade → P s →
      P (s.removeRows e.foreignKey.source e.concerns) ∧
        ∀ removed, ∀ e' ∈ enforcements s.schema e.foreignKey.source removed, Q e')
    (hnull : ∀ s e touched, Q e → e.foreignKey.onDelete = .setNull →
      s.setNullWhere e.foreignKey.source e.column e.concerns =
        .ok (touched, s.clearWhere e.foreignKey.source e.column e.concerns) → P s →
      P (s.clearWhere e.foreignKey.source e.column e.concerns))
    (s : Store) (pending : List Enforcement) (hpending : ∀ e ∈ pending, Q e) (h : P s)
    (hs : s.enforce pending = .ok s') : P s' := by
  match pending with
  | [] =>
    rw [enforce] at hs
    cases hs
    exact h
  | e :: rest =>
    have hrest : ∀ e ∈ rest, Q e := fun e' he' => hpending e' (by simp [he'])
    rcases enforce_cons_eq_ok hs with
      ⟨-, -, hs⟩ | ⟨hact, hsome, hs⟩ | ⟨hact, ⟨touched, hclear⟩, hs⟩ | ⟨-, -, -, hs⟩
    · exact enforce_keeps hcascade hnull s rest hrest h hs
    · obtain ⟨hremoved, hnew⟩ := hcascade s e (hpending e (by simp)) hact h
      refine enforce_keeps hcascade hnull _ _ (fun e' he' => ?_) hremoved hs
      rcases List.mem_append.1 he' with he' | he'
      · exact hnew _ e' he'
      · exact hrest e' he'
    · exact enforce_keeps hcascade hnull _ rest hrest
        (hnull s e touched (hpending e (by simp)) hact hclear h) hs
    · exact enforce_keeps hcascade hnull s rest hrest h hs
termination_by (s.size, pending.length)
decreasing_by
  · exact Prod.Lex.right _ (by simp)
  · exact Prod.Lex.left _ _ (size_removeRows_lt hsome)
  · rw [size_clearWhere]
    exact Prod.Lex.right _ (by simp)
  · exact Prod.Lex.right _ (by simp)

/-- Where no key acts on its own, enforcement only makes sure that nothing
points at the rows that are gone. -/
theorem enforce_eq_ok_of_restricts {pending : List Enforcement}
    (hpending : ∀ e ∈ pending, e.foreignKey.onDelete ≠ .cascade ∧ e.foreignKey.onDelete ≠ .setNull)
    (hs : s.enforce pending = .ok s') :
    s' = s ∧ ∀ e ∈ pending, ∀ r ∈ s.rows e.foreignKey.source, e.concerns r = false := by
  induction pending with
  | nil =>
    rw [enforce] at hs
    cases hs
    exact ⟨rfl, by simp⟩
  | cons e rest ih =>
    obtain ⟨hcascade, hnull⟩ := hpending e (by simp)
    rcases enforce_cons_eq_ok hs with ⟨hact, -⟩ | ⟨hact, -⟩ | ⟨hact, -⟩ | ⟨-, -, hnone, hs⟩
    · exact absurd hact hcascade
    · exact absurd hact hcascade
    · exact absurd hact hnull
    · obtain ⟨rfl, hrest⟩ := ih (fun e' he' => hpending e' (by simp [he'])) hs
      refine ⟨rfl, fun e' he' => ?_⟩
      rcases List.mem_cons.1 he' with rfl | he'
      · exact hnone
      · exact hrest e' he'

/-! ## What a database keeps up -/

/-- **Keys are unique**: no two rows of a table share the value of its key. -/
def UniqueKeys (s : Store) : Prop :=
  ∀ t k, s.schema.key? t = some k →
    (s.rows t).Pairwise fun r q => ∀ v, r.get? k = some v → q.get? k ≠ some v

/-- **Keys are given**: no row is NULL in a column of its table's key. -/
def KeysGiven (s : Store) : Prop :=
  ∀ t d, s.schema.table? t = some d → ∀ r ∈ s.rows t, ∀ k ∈ d.primaryKey, ∃ v, r.get? k = some v

/-- **No reference dangles**: every value of a foreign key's column is one
of the column it references. -/
def NoDangling (s : Store) : Prop :=
  ∀ fk ∈ s.schema.foreignKeys, ∀ c p, fk.columns? = some (c, p) →
    ∀ r ∈ s.rows fk.source, ∀ v, r.get? c = some v → ∃ q ∈ s.rows fk.target, q.get? p = some v

theorem uniqueKeys_iff : s.UniqueKeys ↔ ∀ d ∈ s.schema.tables, ∀ k ∈ s.schema.key? d.name,
    (s.rows d.name).Pairwise fun r q => r.get? k = none ∨ q.get? k ≠ r.get? k := by
  have hrow (r q : Row) (k : String) : (∀ v, r.get? k = some v → q.get? k ≠ some v) ↔
      r.get? k = none ∨ q.get? k ≠ r.get? k := by
    cases r.get? k <;> simp
  constructor
  · intro h d _ k hk
    simpa only [hrow] using h d.name k hk
  · intro h t k hk
    obtain ⟨d, hd, -⟩ := Schema.primaryKey_of_key? hk
    obtain ⟨hmem, hsame⟩ := Schema.mem_of_table? hd
    rw [← rows_congr s hsame]
    simpa only [hrow] using h d hmem k (by rw [Schema.key?_congr hsame]; exact hk)

theorem keysGiven_iff : s.KeysGiven ↔ ∀ d ∈ s.schema.tables, s.schema.table? d.name = some d →
    ∀ r ∈ s.rows d.name, ∀ k ∈ d.primaryKey, (r.get? k).isSome := by
  constructor
  · intro h d _ hd r hr k hk
    exact Option.isSome_iff_exists.2 (h d.name d hd r hr k hk)
  · intro h t d hd r hr k hk
    obtain ⟨hmem, hsame⟩ := Schema.mem_of_table? hd
    rw [← rows_congr s hsame] at hr
    rw [← Schema.table?_congr _ hsame] at hd
    exact Option.isSome_iff_exists.1 (h d hmem hd r hr k hk)

instance (s : Store) : Decidable s.UniqueKeys := decidable_of_iff _ uniqueKeys_iff.symm

instance (s : Store) : Decidable s.KeysGiven := decidable_of_iff _ keysGiven_iff.symm

instance (s : Store) : Decidable s.NoDangling :=
  decidable_of_iff
    (∀ fk ∈ s.schema.foreignKeys, ∀ cols ∈ fk.columns?, ∀ r ∈ s.rows fk.source,
      ∀ v ∈ r.get? cols.1, ∃ q ∈ s.rows fk.target, q.get? cols.2 = some v)
    ⟨fun h fk hfk c p hcols => h fk hfk (c, p) hcols,
      fun h fk hfk cols hcols => h fk hfk cols.1 cols.2 hcols⟩

/-- A row is found by its key. -/
theorem UniqueKeys.eq (h : s.UniqueKeys) (hk : s.schema.key? t = some k) {r q : Row}
    (hr : r ∈ s.rows t) (hq : q ∈ s.rows t) (hrv : r.get? k = some v) (hqv : q.get? k = some v) :
    r = q := by
  have hsymm : Std.Symm fun r q : Row => ∀ v, r.get? k = some v → q.get? k ≠ some v :=
    ⟨fun r q hrq v hv hv' => hrq v hv' hv⟩
  rcases eq_or_ne r q with heq | hne
  · exact heq
  · exact absurd hqv ((h t k hk).forall hr hq hne v hrv)

/-- A row has a value in the key column of its table. -/
theorem KeysGiven.value (h : s.KeysGiven) (hk : s.schema.key? t = some k) {r : Row}
    (hr : r ∈ s.rows t) : ∃ v, r.get? k = some v := by
  obtain ⟨d, hd, hpk⟩ := Schema.primaryKey_of_key? hk
  exact h t d hd r hr k (by simp [hpk])

/-- A reference of a row along a link leads to a row with that key. -/
theorem NoDangling.of_link (h : s.NoDangling) (hg : s.schema.Regular)
    (hlink : s.schema.Link u c t) (hk : s.schema.key? t = some k) {r : Row} (hr : r ∈ s.rows u)
    (hv : r.get? c = some v) : ∃ q ∈ s.rows t, q.get? k = some v := by
  obtain ⟨fk, hfk, hsource, htarget, a, p, hcols, ha⟩ := hlink
  obtain ⟨c', p', k', hcols', hk', hkp⟩ := hg.columns? hfk
  rw [hcols] at hcols'
  cases hcols'
  rw [Schema.key?_congr htarget, hk] at hk'
  cases hk'
  obtain ⟨q, hq, hqv⟩ := h fk hfk a p hcols r (by rwa [rows_congr s hsource])
    v (by rwa [Row.get?_congr r ha])
  exact ⟨q, by rwa [← rows_congr s htarget], by rwa [Row.get?_congr q hkp]⟩

end Store

end DeleteCascade
