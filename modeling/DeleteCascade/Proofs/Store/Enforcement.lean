import DeleteCascade.Proofs.Store.Statements
/-!
# Statements — one enforcement after the other

`Store.act` is what is done about one foreign key: it changes the store, and
a cascade that takes rows makes further keys due. Enforcement is a row of
such acts (`enforce_cons`), so a fact about a store and what is due in it
holds at the end if every act keeps it (`enforce_ends`), and where a
statement fails it holds where the act fails (`enforce_stops`). What is due
is worked off in a row (`enforce_append`), which makes a cascade a statement
within a statement. `deleteNested` goes down into these as deep as it is told
and has no answer if that is not deep enough. A statement that finds rows
takes them away before it goes deeper, so one level more than there are rows
is deep enough, wherever keys lead back to (`deleteNested_eq`).
-/

namespace DeleteCascade

namespace Schema

/-- **A column must have a value**: the table lists it as one that is never
NULL. -/
def Requires (g : Schema) (t : TableName) (c : String) : Prop :=
  ∃ d k, g.table? t = some d ∧ d.column? c = some k ∧ k.nullable = false

theorem requires_congr {g : Schema} {t u : TableName} {c c' : String} (ht : t.same u)
    (hc : sameName c c') : g.Requires t c ↔ g.Requires u c' := by
  unfold Requires
  rw [g.table?_congr ht]
  simp only [Table.column?_congr _ hc]

/-- **A foreign key can act** on a column: what its action reads of the
schema is there. -/
def Acts (g : Schema) (fk : ForeignKey) (c : String) : Prop :=
  match fk.onDelete with
  | .cascade => ∃ d, g.table? fk.source = some d
  | .setNull => ∃ d k, g.table? fk.source = some d ∧ d.column? c = some k
  | .noAction | .restrict | .setDefault => True

/-- **A foreign key holds rows back**: a row that points at another one
through the column keeps it from being deleted. -/
def HoldsBack (g : Schema) (fk : ForeignKey) (c : String) : Prop :=
  match fk.onDelete with
  | .cascade => False
  | .setNull => g.Requires fk.source c
  | .noAction | .restrict | .setDefault => True

end Schema

namespace Store

variable {s s' : Store} {t : TableName} {test : Row → Bool} {e : Enforcement}
variable {pending due rest : List Enforcement} {err : StoreError}

/-- **What is done about a foreign key**, and what is due then. -/
def act (s : Store) (e : Enforcement) : Except StoreError (Store × List Enforcement) :=
  let child := e.foreignKey.source
  match e.foreignKey.onDelete with
  | .cascade =>
    match s.table child with
    | .error err => .error err
    | .ok _ =>
      match (s.rows child).filter e.concerns with
      | [] => .ok (s, [])
      | r :: removed =>
        .ok (s.removeRows child e.concerns, enforcements s.schema child (r :: removed))
  | .setNull =>
    match s.setNullWhere child e.column e.concerns with
    | .error err => .error err
    | .ok (_, s') => .ok (s', [])
  | .noAction | .restrict | .setDefault =>
    if (s.rows child).any e.concerns then
      .error (.stillReferenced e.foreignKey.name child.qualified)
    else .ok (s, [])

/-- Enforcement is one act, and enforcement of what is due then. -/
theorem enforce_cons (s : Store) (e : Enforcement) (rest : List Enforcement) :
    s.enforce (e :: rest) = (s.act e).bind fun next => next.1.enforce (next.2 ++ rest) := by
  have hfor : s.enforce (e :: rest) = enforceFor 1 s (e :: rest) := by rw [enforceFor_eq]
  rw [hfor]
  simp only [enforceFor, act]
  cases e.foreignKey.onDelete with
  | cascade =>
    dsimp only
    rcases s.table e.foreignKey.source with err | d
    · rfl
    · dsimp only
      rcases (s.rows e.foreignKey.source).filter e.concerns with _ | ⟨r, removed⟩ <;> rfl
  | setNull =>
    dsimp only
    rcases s.setNullWhere e.foreignKey.source e.column e.concerns with err | ⟨_, s'⟩ <;> rfl
  | _ =>
    dsimp only
    split <;> rfl

/-- **What an act does**: it finds no row that it concerns and changes
nothing, or a cascade takes such rows, or their column is cleared. -/
theorem act_eq_ok (h : s.act e = .ok (s', due)) :
    ((∀ r ∈ s.rows e.foreignKey.source, e.concerns r = false) ∧ s' = s ∧ due = []) ∨
      (e.foreignKey.onDelete = .cascade ∧ (s.rows e.foreignKey.source).filter e.concerns ≠ [] ∧
        s' = s.removeRows e.foreignKey.source e.concerns ∧
        due = enforcements s.schema e.foreignKey.source
          ((s.rows e.foreignKey.source).filter e.concerns)) ∨
      (e.foreignKey.onDelete = .setNull ∧
        s' = s.clearWhere e.foreignKey.source e.column e.concerns ∧ due = []) := by
  unfold act at h
  dsimp only at h
  split at h
  · rename_i hact
    split at h
    · cases h
    · split at h
      · rename_i hnone
        cases h
        exact Or.inl ⟨by simpa using hnone, rfl, rfl⟩
      · rename_i hsome
        cases h
        exact Or.inr (Or.inl ⟨hact, by simp [hsome], rfl, by rw [hsome]⟩)
  · rename_i hact
    split at h
    · cases h
    · rename_i hcleared
      cases h
      exact Or.inr (Or.inr ⟨hact, (setNullWhere_eq_ok hcleared).2, rfl⟩)
  all_goals
    split at h
    · cases h
    · rename_i hnone
      cases h
      exact Or.inl ⟨by simpa using hnone, rfl, rfl⟩

/-- **What an act leaves**: no row that it concerns, and no value that was not
there before. -/
theorem act_leaves (h : s.act e = .ok (s', due)) : s'.schema = s.schema ∧
    (∀ t, ∀ r' ∈ s'.rows t, ∃ r ∈ s.rows t, ∀ c v, r'.get? c = some v → r.get? c = some v) ∧
      ∀ r ∈ s'.rows e.foreignKey.source, e.concerns r = false := by
  rcases act_eq_ok h with ⟨hnone, rfl, -⟩ | ⟨-, -, rfl, -⟩ | ⟨-, rfl, -⟩
  · exact ⟨rfl, fun t r hr => ⟨r, hr, fun _ _ hv => hv⟩, hnone⟩
  · refine ⟨rfl, fun t r hr => ?_, fun r hr => ?_⟩
    · rw [rows_removeRows] at hr
      split at hr
      · exact ⟨r, (List.mem_filter.1 hr).1, fun _ _ hv => hv⟩
      · exact ⟨r, hr, fun _ _ hv => hv⟩
    · rw [rows_removeRows, if_pos (TableName.same_refl _)] at hr
      simpa using (List.mem_filter.1 hr).2
  · refine ⟨rfl, fun t r' hr' => ?_, fun r' hr' => ?_⟩
    · rw [rows_clearWhere] at hr'
      split at hr'
      · obtain ⟨r, hr, rfl⟩ := List.mem_map.1 hr'
        refine ⟨r, hr, fun c v hv => ?_⟩
        split at hv
        · rw [Row.get?_clear] at hv
          split at hv
          · cases hv
          · exact hv
        · exact hv
      · exact ⟨r', hr', fun _ _ hv => hv⟩
    · rw [rows_clearWhere, if_pos (TableName.same_refl _)] at hr'
      obtain ⟨r, -, rfl⟩ := List.mem_map.1 hr'
      split
      · simp [Enforcement.concerns, Row.get?_clear]
      · rename_i hnot
        simpa using hnot

/-- **When an act succeeds**: the foreign key can act, and if it holds rows
back there is none that points at the row. -/
theorem act_isOk_iff : (∃ next, s.act e = .ok next) ↔
    s.schema.Acts e.foreignKey e.column ∧ (s.schema.HoldsBack e.foreignKey e.column →
      ∀ r ∈ s.rows e.foreignKey.source, e.concerns r = false) := by
  have hnone : (∀ r ∈ s.rows e.foreignKey.source, e.concerns r = false) ↔
      ¬ ∃ r ∈ s.rows e.foreignKey.source, e.concerns r = true := by simp
  rw [hnone]
  unfold act Schema.Acts Schema.HoldsBack
  cases e.foreignKey.onDelete with
  | cascade =>
    cases htable : s.schema.table? e.foreignKey.source with
    | none => simp [table, htable]
    | some d =>
      cases hfound : (s.rows e.foreignKey.source).filter e.concerns <;> simp [table, htable, hfound]
  | setNull =>
    cases htable : s.schema.table? e.foreignKey.source with
    | none => simp [setNullWhere, table, htable]
    | some d =>
      cases hcolumn : d.column? e.column with
      | none => simp [setNullWhere, table, htable, hcolumn]
      | some k =>
        by_cases hfound : ∃ r ∈ s.rows e.foreignKey.source, e.concerns r = true <;>
          cases hnull : k.nullable <;>
            simp [setNullWhere, table, htable, hcolumn, hnull, hfound, Schema.Requires]
  | _ =>
    by_cases hfound : ∃ r ∈ s.rows e.foreignKey.source, e.concerns r = true <;> simp [hfound]

/-- **Why an act fails**: the foreign key cannot act, or it holds back a row
that another one points at. -/
theorem act_eq_error (h : s.act e = .error err) : ¬ s.schema.Acts e.foreignKey e.column ∨
    s.schema.HoldsBack e.foreignKey e.column ∧
      ∃ r ∈ s.rows e.foreignKey.source, e.concerns r = true := by
  by_contra hfine
  simp only [not_or, not_not, not_and, not_exists, Bool.not_eq_true] at hfine
  obtain ⟨next, hnext⟩ := act_isOk_iff.2 hfine
  rw [h] at hnext
  cases hnext

/-- An act leaves fewer rows, or as many and nothing more to do. -/
theorem act_smaller (h : s.act e = .ok (s', due)) :
    s'.size < s.size ∨ s'.size = s.size ∧ due = [] := by
  rcases act_eq_ok h with ⟨-, rfl, rfl⟩ | ⟨-, hsome, rfl, -⟩ | ⟨-, rfl, rfl⟩
  · exact Or.inr ⟨rfl, rfl⟩
  · exact Or.inl (size_removeRows_lt hsome)
  · exact Or.inr ⟨size_clearWhere _ _ _ _, rfl⟩

/-- **Enforcement by its acts**: what an act does may be assumed of what is
due after it. -/
theorem enforce_induction {P : Store → List Enforcement → Prop} (hnil : ∀ s, P s [])
    (hcons : ∀ s e rest, (∀ s' due, s.act e = .ok (s', due) → P s' (due ++ rest)) →
      P s (e :: rest)) (s : Store) (pending : List Enforcement) : P s pending := by
  match pending with
  | [] => exact hnil s
  | e :: rest =>
    refine hcons s e rest fun s' due hact => ?_
    have hsmaller := act_smaller hact
    exact enforce_induction hnil hcons s' (due ++ rest)
termination_by (s.size, pending.length)
decreasing_by
  rcases hsmaller with hlt | ⟨heq, rfl⟩
  · exact Prod.Lex.left _ _ hlt
  · rw [heq]
    exact Prod.Lex.right _ (by simp)

/-- **What every act keeps holds at the end.** -/
theorem enforce_ends {P : Store → List Enforcement → Prop}
    (hact : ∀ {s e rest s' due}, P s (e :: rest) → s.act e = .ok (s', due) → P s' (due ++ rest))
    (h : P s pending) (hs : s.enforce pending = .ok s') : P s' [] := by
  induction s, pending using enforce_induction with
  | hnil s =>
    rw [enforce] at hs
    cases hs
    exact h
  | hcons s e rest ih =>
    rw [enforce_cons] at hs
    cases hnext : s.act e with
    | error err =>
      rw [hnext] at hs
      cases hs
    | ok next =>
      rw [hnext] at hs
      exact ih _ _ hnext (hact h hnext) hs

/-- **What every act keeps holds where enforcement stops.** -/
theorem enforce_stops {P : Store → List Enforcement → Prop}
    (hact : ∀ {s e rest s' due}, P s (e :: rest) → s.act e = .ok (s', due) → P s' (due ++ rest))
    (h : P s pending) (hs : s.enforce pending = .error err) :
    ∃ s' e rest, P s' (e :: rest) ∧ s'.act e = .error err := by
  induction s, pending using enforce_induction with
  | hnil s =>
    rw [enforce] at hs
    cases hs
  | hcons s e rest ih =>
    rw [enforce_cons] at hs
    cases hnext : s.act e with
    | error err' =>
      rw [hnext] at hs
      cases hs
      exact ⟨s, e, rest, h, hnext⟩
    | ok next =>
      rw [hnext] at hs
      exact ih _ _ hnext (hact h hnext) hs

/-! ## Statements within statements -/

/-- **What is due is worked off in a row.** -/
theorem enforce_append (s : Store) (first rest : List Enforcement) :
    s.enforce (first ++ rest) = (s.enforce first).bind (·.enforce rest) := by
  induction s, first using enforce_induction with
  | hnil s =>
    rw [enforce]
    rfl
  | hcons s e first ih =>
    rw [List.cons_append, enforce_cons, enforce_cons]
    cases hnext : s.act e with
    | error err => rfl
    | ok next =>
      have happend := ih _ _ hnext
      rw [List.append_assoc] at happend
      exact happend

/-- Enforcement leaves no more rows than there were. -/
theorem size_enforce_le (h : s.enforce pending = .ok s') : s'.size ≤ s.size :=
  enforce_ends (P := fun s₁ _ => s₁.size ≤ s.size)
    (fun hsize hact => by
      have := act_smaller hact
      omega) (Nat.le_refl _) h

/-- A statement that leaves the store alone if it finds no row. -/
def deleteFound (s : Store) (t : TableName) (test : Row → Bool) :
    Except StoreError (List Row × Store) :=
  match s.table t with
  | .error err => .error err
  | .ok _ =>
    match (s.rows t).filter test with
    | [] => .ok ([], s)
    | r :: removed =>
      ((s.removeRows t test).enforce (enforcements s.schema t (r :: removed))).map
        fun s' => (r :: removed, s')

/-- It comes to the same rows as the statement. -/
theorem deleteFound_rows (s : Store) (t : TableName) (test : Row → Bool) :
    (s.deleteFound t test).map (fun found => (found.1, found.2.rows)) =
      (s.deleteWhere t test).map fun found => (found.1, found.2.rows) := by
  unfold deleteFound deleteWhere
  cases s.table t with
  | error err => rfl
  | ok d =>
    dsimp only
    cases hfound : (s.rows t).filter test with
    | cons r removed => rfl
    | nil =>
      have hnone : enforcements s.schema t [] = [] :=
        List.eq_nil_iff_forall_not_mem.2 fun e he => by
          obtain ⟨fk, -, c, p, -, hne, -⟩ := mem_enforcements.1 he
          exact hne rfl
      have hrows : (s.removeRows t test).rows = s.rows := by
        funext u
        rw [rows_removeRows]
        split
        · rename_i hsame
          rw [← rows_congr s hsame]
          refine List.filter_eq_self.2 fun r hr => ?_
          simpa using List.filter_eq_nil_iff.1 hfound r hr
        · rfl
      rw [hnone, enforce]
      simp only [Except.map, hrows]

/-- **A cascade is a statement within a statement.** -/
theorem enforce_cascade (hact : e.foreignKey.onDelete = .cascade) (s : Store)
    (rest : List Enforcement) : s.enforce (e :: rest) =
      (s.deleteFound e.foreignKey.source e.concerns).bind fun found => found.2.enforce rest := by
  rw [enforce_cons]
  simp only [act, deleteFound, hact]
  cases s.table e.foreignKey.source with
  | error err => rfl
  | ok d =>
    dsimp only
    cases (s.rows e.foreignKey.source).filter e.concerns with
    | nil => rfl
    | cons r removed =>
      dsimp only
      rw [Except.bind, enforce_append]
      cases (s.removeRows e.foreignKey.source e.concerns).enforce
        (enforcements s.schema e.foreignKey.source (r :: removed)) <;> rfl

theorem size_deleteFound_le {removed : List Row} (h : s.deleteFound t test = .ok (removed, s')) :
    s'.size ≤ s.size := by
  unfold deleteFound at h
  split at h
  · cases h
  · split at h
    · cases h
      exact Nat.le_refl _
    · rename_i r rs hfound
      have hless : (s.removeRows t test).size < s.size := size_removeRows_lt (by simp [hfound])
      cases henforce : (s.removeRows t test).enforce (enforcements s.schema t (r :: rs)) with
      | error err =>
        rw [henforce] at h
        cases h
      | ok s₁ =>
        rw [henforce] at h
        cases h
        exact Nat.le_trans (size_enforce_le henforce) (Nat.le_of_lt hless)

/-- Any other key makes nothing due. -/
theorem act_due (hact : e.foreignKey.onDelete ≠ .cascade) (h : s.act e = .ok (s', due)) :
    due = [] := by
  rcases act_eq_ok h with ⟨-, -, hdue⟩ | ⟨hcascade, -⟩ | ⟨-, -, hdue⟩
  · exact hdue
  · exact absurd hcascade hact
  · exact hdue

/-- What the foreign keys ask for, one after the other, where a cascade
deletes rows in a given way. -/
def enforceNested
    (delete : Store → TableName → (Row → Bool) → Option (Except StoreError (List Row × Store)))
    (s : Store) : List Enforcement → Option (Except StoreError Store)
  | [] => some (.ok s)
  | e :: rest =>
    match e.foreignKey.onDelete with
    | .cascade =>
      match delete s e.foreignKey.source e.concerns with
      | none => none
      | some (.error err) => some (.error err)
      | some (.ok (_, s')) => enforceNested delete s' rest
    | _ =>
      match s.act e with
      | .error err => some (.error err)
      | .ok (s', _) => enforceNested delete s' rest

/-- **Statements within statements**, so many levels deep at most. -/
def deleteNested : Nat → Store → TableName → (Row → Bool) →
    Option (Except StoreError (List Row × Store))
  | 0, _, _, _ => none
  | levels + 1, s, t, test =>
    match s.table t with
    | .error err => some (.error err)
    | .ok _ =>
      match (s.rows t).filter test with
      | [] => some (.ok ([], s))
      | r :: removed =>
        (enforceNested (deleteNested levels) (s.removeRows t test)
          (enforcements s.schema t (r :: removed))).map
            fun outcome => outcome.map fun s' => (r :: removed, s')

/-- The keys are enforced if the statements of cascades have their answers. -/
theorem enforceNested_eq {levels : Nat}
    {delete : Store → TableName → (Row → Bool) → Option (Except StoreError (List Row × Store))}
    (hdelete : ∀ s t test, s.size < levels → delete s t test = some (s.deleteFound t test))
    (hs : s.size < levels) (pending : List Enforcement) :
    enforceNested delete s pending = some (s.enforce pending) := by
  induction pending generalizing s with
  | nil => rw [enforceNested, enforce]
  | cons e rest ih =>
    by_cases hact : e.foreignKey.onDelete = .cascade
    · rw [enforce_cascade hact]
      simp only [enforceNested, hact, hdelete s _ _ hs]
      cases hfound : s.deleteFound e.foreignKey.source e.concerns with
      | error err => rfl
      | ok found => exact ih (Nat.lt_of_le_of_lt (size_deleteFound_le hfound) hs)
    · rw [enforce_cons]
      have hnested : enforceNested delete s (e :: rest) = match s.act e with
          | .error err => some (.error err)
          | .ok (s', _) => enforceNested delete s' rest := by
        rw [enforceNested]
        split
        · rename_i hcascade
          exact absurd hcascade hact
        · rfl
      rw [hnested]
      cases hnext : s.act e with
      | error err => rfl
      | ok next =>
        obtain ⟨s', due⟩ := next
        obtain rfl := act_due hact hnext
        have := act_smaller hnext
        exact ih (by omega)

/-- **A statement ends within as many levels as there are rows, and one.** -/
theorem deleteNested_eq {levels : Nat} (hs : s.size < levels) (t : TableName)
    (test : Row → Bool) : deleteNested levels s t test = some (s.deleteFound t test) := by
  induction levels generalizing s t test with
  | zero => cases hs
  | succ levels ih =>
    unfold deleteNested deleteFound
    cases s.table t with
    | error err => rfl
    | ok d =>
      dsimp only
      cases hfound : (s.rows t).filter test with
      | nil => rfl
      | cons r removed =>
        have hsmaller : (s.removeRows t test).size < s.size := size_removeRows_lt (by simp [hfound])
        dsimp only
        rw [enforceNested_eq (fun s t test hs => ih hs t test) (by omega)]
        rfl

end Store

end DeleteCascade
