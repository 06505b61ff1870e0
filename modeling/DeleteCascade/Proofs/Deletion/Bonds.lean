import DeleteCascade.Proofs.Deletion.Intact
/-!
# Deletion — bonds

A bond ties something that the store said before a deletion to a row: it
may only be unsaid if that row is going (`Store.Honors`). What a store says
is that a row has a value in a column, or that a row is there (`Fact`). The
proofs about composition and about shared rows are each about one set of
bonds that every step of a run honors; the rules here give what has to be
checked for a statement, which is only the facts it hits.
-/

namespace DeleteCascade

/-- Something that a store may say. -/
inductive Fact where
  /-- The row with key `x` has a value in a column. -/
  | cell (t : TableName) (x : Int) (c : String) (v : Int)
  /-- The row is there. -/
  | row (t : TableName) (r : Row)

namespace Fact

variable {s s' : Store} {t u : TableName} {c k : String} {test : Row → Bool} {F : Fact}

/-- **What a fact says of a store.** -/
def Holds (s : Store) : Fact → Prop
  | cell t x c v => ∃ k, s.schema.key? t = some k ∧
      ∃ r ∈ s.rows t, r.get? k = some x ∧ r.get? c = some v
  | row t r => r ∈ s.rows t

/-- Where a row has a value it is there. -/
theorem hasRow_of_cell {x v : Int} (h : (cell t x c v).Holds s) : s.HasRow t x := by
  obtain ⟨k, hk, r, hr, hx, -⟩ := h
  exact ⟨k, hk, r, hr, hx⟩

/-- A statement about rows of `t` that pass a test hits the fact. -/
def Hit (s : Store) (t : TableName) (test : Row → Bool) : Fact → Prop
  | cell u x c v => t.same u ∧ ∃ k, s.schema.key? u = some k ∧
      ∃ r ∈ s.rows u, test r = true ∧ r.get? k = some x ∧ r.get? c = some v
  | row u r => t.same u ∧ r ∈ s.rows u ∧ test r = true

/-- The fact depends on this column. -/
def Reads (c : String) : Fact → Prop
  | cell _ _ c' _ => sameName c c'
  | row _ _ => True

theorem holds_removeRows (h : F.Holds s) : F.Holds (s.removeRows t test) ∨ F.Hit s t test := by
  have hrow {u : TableName} {r : Row} (hr : r ∈ s.rows u) :
      r ∈ (s.removeRows t test).rows u ∨ (t.same u ∧ test r = true) := by
    rw [Store.rows_removeRows]
    split
    · rename_i hsame
      by_cases htest : test r = true
      · exact Or.inr ⟨hsame, htest⟩
      · exact Or.inl (List.mem_filter.2 ⟨hr, by simp [htest]⟩)
    · exact Or.inl hr
  cases F with
  | cell u x c v =>
    obtain ⟨k, hk, r, hr, hx, hv⟩ := h
    rcases hrow hr with hr' | ⟨hsame, htest⟩
    · exact Or.inl ⟨k, hk, r, hr', hx, hv⟩
    · exact Or.inr ⟨hsame, k, hk, r, hr, htest, hx, hv⟩
  | row u r =>
    rcases hrow h with hr' | ⟨hsame, htest⟩
    · exact Or.inl hr'
    · exact Or.inr ⟨hsame, h, htest⟩

theorem holds_clearWhere (hk : s.schema.key? t = some k)
    (hkey : ∀ r ∈ s.rows t, test r = true → sameName c k = false) (h : F.Holds s) :
    F.Holds (s.clearWhere t c test) ∨ (F.Hit s t test ∧ F.Reads c) := by
  cases F with
  | cell u x c' v =>
    obtain ⟨l, hl, r, hr, hx, hv⟩ := h
    have hrows := Store.rows_clearWhere s t u c test
    split at hrows
    · rename_i hsame
      by_cases htest : test r = true
      · by_cases hc : sameName c c' = true
        · exact Or.inr ⟨⟨hsame, l, hl, r, hr, htest, hx, hv⟩, hc⟩
        · refine Or.inl ⟨l, hl, r.clear c, ?_, ?_, ?_⟩
          · rw [hrows]
            exact List.mem_map.2 ⟨r, hr, by rw [if_pos htest]⟩
          · rw [← Schema.key?_congr hsame, hk] at hl
            cases hl
            rw [Row.get?_clear, hkey r (by rwa [Store.rows_congr s hsame]) htest]
            exact hx
          · rw [Row.get?_clear, if_neg hc, hv]
      · refine Or.inl ⟨l, hl, r, ?_, hx, hv⟩
        rw [hrows]
        exact List.mem_map.2 ⟨r, hr, by rw [if_neg htest]⟩
    · exact Or.inl ⟨l, hl, r, by rwa [hrows], hx, hv⟩
  | row u r =>
    have hrows := Store.rows_clearWhere s t u c test
    split at hrows
    · rename_i hsame
      by_cases htest : test r = true
      · exact Or.inr ⟨⟨hsame, h, htest⟩, trivial⟩
      · refine Or.inl ?_
        rw [Holds, hrows]
        exact List.mem_map.2 ⟨r, h, by rw [if_neg htest]⟩
    · refine Or.inl ?_
      rw [Holds, hrows]
      exact h

end Fact

/-- A value that a later store has was there. -/
theorem Store.Within.holds {s s' : Store} {t : TableName} {x v : Int} {c : String} (h : s'.Within s)
    (hF : (Fact.cell t x c v).Holds s') : (Fact.cell t x c v).Holds s := by
  obtain ⟨k, hk, r', hr', hx, hv⟩ := hF
  obtain ⟨r, hr, hvalues⟩ := h.origin hr'
  exact ⟨k, by rw [← h.schema, hk], r, hr, hvalues k x hx, hvalues c v hv⟩

/-- What ties facts to rows, given by table and key. -/
abbrev Bonds := (fact : Fact) → (t : TableName) → (v : Int) → Prop

namespace Store

variable {st s s' : Store} {B : Bonds} {D D' : Doom} {t : TableName} {c k : String}
variable {test : Row → Bool} {ids : List Int}

/-- **A store honors bonds**: what it does not say any more, while `st` did,
is tied to rows that are going. -/
def Honors (s st : Store) (B : Bonds) (D : Doom) : Prop :=
  ∀ F t v, B F t v → F.Holds st → F.Holds s ∨ s.Going D t v

namespace Honors

theorem refl (st : Store) (B : Bonds) (D : Doom) : st.Honors st B D := fun _ _ _ _ hF => Or.inl hF

theorem of_doom (h : s.Honors st B D) (hgoing : ∀ t v, s.Going D t v → s.Going D' t v) :
    s.Honors st B D' :=
  fun F t v hb hF => (h F t v hb hF).imp id (hgoing t v)

theorem mono (h : s.Honors st B D) (hD : ∀ t v, D t v → D' t v) : s.Honors st B D' :=
  h.of_doom fun _ _ hgoing => hgoing.mono hD

/-- A doomed batch that is gone need not be doomed. -/
theorem of_add (h : s.Honors st B (D.add t ids)) (hgone : ∀ id ∈ ids, ¬ s.HasRow t id) :
    s.Honors st B D :=
  h.of_doom fun _ _ hgoing => hgoing.of_add hgone

theorem removeRows (h : s.Honors st B D)
    (hhit : ∀ F u v, B F u v → F.Hit s t test → (s.removeRows t test).Going D u v) :
    (s.removeRows t test).Honors st B D := by
  intro F u v hb hst
  rcases h F u v hb hst with hF | hgoing
  · exact (Fact.holds_removeRows hF).imp id (hhit F u v hb)
  · exact Or.inr (hgoing.of_within (within_removeRows s t test))

/-- Only what reads the column is hit when rows are cut off. -/
theorem takes (h : s.Honors st B D) (hk : s.schema.key? t = some k)
    (hkey : ∀ r ∈ s.rows t, test r = true → sameName c k = false)
    (hhit : ∀ F u v, B F u v → F.Hit s t test → F.Reads c → s.Going D u v) {detach : Bool}
    {rows : List Row} (htake : s.Takes t c test detach rows s') : s'.Honors st B D := by
  have hwithin := htake.within
  intro F u v hb hst
  rcases h F u v hb hst with hF | hgoing
  · rw [htake.store] at hwithin ⊢
    split
    · rename_i hdetach
      rw [if_pos hdetach] at hwithin
      exact (Fact.holds_clearWhere hk hkey hF).imp id fun ⟨hhits, hreads⟩ =>
        (hhit F u v hb hhits hreads).of_within hwithin
    · exact Or.inl hF
  · exact Or.inr (hgoing.of_within hwithin)

end Honors

end Store

end DeleteCascade
