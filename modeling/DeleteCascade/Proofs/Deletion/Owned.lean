import DeleteCascade.Proofs.Deletion.Holding
import DeleteCascade.Proofs.Synthesis.OwnerCalls
/-!
# Deletion — rows that have an owner

An owner check lists ways in which a row can be owned, and a run looks for an
owner in each of them. `Setting.any_isOwned_iff_ownedRow` says what comes out,
for one row of any schema and any classifier: there is an owner exactly if a
column of the row that owns it has a value, or a child or a bridge row that
owns it points at it (`Setting.OwnedRow`). A column of a bridge is asked about
by its bridge alone; what the classifier says of it as a column does not
count (`not_isOwned_of_bridge`).
-/

namespace DeleteCascade

/-- How an owner is spelled does not matter to the look for it. -/
theorem Store.isOwned_congr {s : Store} {n : TableName} {key : String} {x : Int} {o o' : Owner}
    (h : o'.Like o) : s.isOwned n key x o' = s.isOwned n key x o := by
  cases o with
  | ownColumn c =>
    cases o' with
    | ownColumn c' => simp only [isOwned, Row.get?_congr _ (show sameName c' c = true from h)]
    | referencing => cases h
  | referencing u c =>
    cases o' with
    | ownColumn => cases h
    | referencing u' c' =>
      simp only [isOwned, hasValue, rows_congr s h.1, Row.get?_congr _ h.2]

namespace Schema

variable {g : Schema} {t u : TableName} {c : String} {r : Reference}

/-- **A table refers to a table**, itself or another, with this column, and
not as its subtype. -/
def RefersTo (g : Schema) (t u : TableName) (c : String) : Prop :=
  ∃ fk p, g.Lists t fk ∧ fk.target = u ∧ fk.columns? = some (c, p) ∧
    (fk.source.same u = false → ¬ (g.IsKey fk.source c ∧ g.IsKey u p))

theorem refersTo_iff {rs ss : List Reference} (hrs : g.referenced t = .ok rs)
    (hss : g.selfReferences t = .ok ss) :
    g.RefersTo t u c ↔ ∃ r ∈ rs ++ ss, r.parent = u ∧ r.childColumn = c := by
  obtain ⟨out, hout⟩ := outgoing_of_referenced hrs
  constructor
  · rintro ⟨fk, p, hlists, rfl, hcols, hnot⟩
    obtain ⟨r, -, hres⟩ := resolve_of_lists hout hlists
    obtain ⟨a, p', d, e, hcols', -, -, heq⟩ := resolve_eq_ok.1 hres
    rw [hcols] at hcols'
    cases hcols'
    refine ⟨r, ?_, by rw [heq], by rw [heq]⟩
    rw [List.mem_append, mem_referenced_iff hrs, mem_selfReferences_iff hss]
    cases hself : r.isSelf with
    | true => exact Or.inr ⟨rfl, fk, hlists, hres⟩
    | false =>
      refine Or.inl ⟨⟨rfl, ?_⟩, fk, hlists, hres⟩
      rw [Reference.isSelf, heq] at hself
      rw [heq]
      exact hnot hself
  · rintro ⟨r, hr, rfl, rfl⟩
    have hplain : ∃ fk, g.Lists t fk ∧ g.resolve fk = .ok r ∧ (r.isSelf = false →
        ¬ (g.IsKey r.child r.childColumn ∧ g.IsKey r.parent r.parentColumn)) := by
      rcases List.mem_append.1 hr with hr | hr
      · obtain ⟨⟨-, hnot⟩, fk, hlists, hres⟩ := (mem_referenced_iff hrs).1 hr
        exact ⟨fk, hlists, hres, fun _ => hnot⟩
      · obtain ⟨hself, fk, hlists, hres⟩ := (mem_selfReferences_iff hss).1 hr
        exact ⟨fk, hlists, hres, fun hother => by rw [hself] at hother; cases hother⟩
    obtain ⟨fk, hlists, hres, hnot⟩ := hplain
    obtain ⟨a, p, d, e, hcols, -, -, rfl⟩ := resolve_eq_ok.1 hres
    exact ⟨fk, p, hlists, rfl, hcols, hnot⟩

end Schema

namespace Setting

variable {σ : Setting} {s : Store} {n u : TableName} {c k key : String} {x : Int} {row : Row}
variable {o : Owner} {owners : List Owner}

/-! ## What a check lists -/

/-- **The ways in which rows of a table are owned**, as the schema names them:
by a column of their own, by children and by bridges. -/
inductive Listed (σ : Setting) (n : TableName) : Owner → Prop
  | column {u : TableName} {c : String} (refers : σ.schema.RefersTo n u c) (owns : σ.Owns n u c) :
      Listed σ n (.ownColumn c)
  | child {u : TableName} {c : String} (children : σ.schema.HasChildren n u c)
      (owns : σ.Owns n u c) : Listed σ n (.referencing u c)
  | bridge {b : Bridge} (isBridge : σ.schema.IsBridge n b)
      (owns : σ.Owns n b.farTable b.table.name) : Listed σ n (.referencing b.table b.nearColumn)

/-- A way is listed if the classifier says that it owns, and not otherwise. -/
theorem mem_ite_isOwning {owned owner : TableName} {link : String} {kind : Relation}
    (hkind : σ.classifier owned owner (some link) = .ok kind) {way : Owner} :
    o ∈ (if kind.isOwning then [way] else []) ↔ σ.Owns owned owner link ∧ o = way := by
  constructor
  · intro ho
    split at ho
    · rename_i howning
      exact ⟨⟨kind, hkind, howning⟩, List.mem_singleton.1 ho⟩
    · cases ho
  · rintro ⟨⟨kind', hkind', howning⟩, rfl⟩
    rw [hkind] at hkind'
    cases hkind'
    rw [if_pos howning]
    exact List.mem_singleton_self _

theorem mem_ownColumn_iff {r : Reference} {bs : List Owner}
    (h : (σ.ownColumn n r).outcome = .ok bs) :
    o ∈ bs ↔ σ.Owns n r.parent r.childColumn ∧ o = .ownColumn r.childColumn := by
  obtain ⟨kind, hkind, rfl⟩ := ownColumn_eq_ok h
  exact mem_ite_isOwning hkind

theorem mem_referencingOwner_child_iff {i : Incoming} (hi : i.IsChild) {bs : List Owner}
    (h : (σ.referencingOwner n i).outcome = .ok bs) :
    o ∈ bs ↔ σ.Owns n i.reference.child i.reference.childColumn ∧
      o = .referencing i.reference.child i.reference.childColumn := by
  obtain ⟨kind, hkind, rfl⟩ := referencingOwner_plain hi.1 hi.2 h
  exact mem_ite_isOwning hkind

theorem mem_referencingOwner_bridge_iff {i : Incoming} {b : Bridge}
    (hkey : i.reference.childIsKey = false) (hb : i.shape = .bridge b) {bs : List Owner}
    (h : (σ.referencingOwner n i).outcome = .ok bs) :
    o ∈ bs ↔ σ.Owns n b.farTable b.table.name ∧ o = .referencing b.table b.nearColumn := by
  obtain ⟨kind, hkind, rfl⟩ := referencingOwner_bridge hkey hb h
  exact mem_ite_isOwning hkind

/-- A reference that enters is asked about as what it is. -/
theorem listed_of_referencingOwner {is : List Incoming} (his : σ.schema.incoming n = .ok is)
    {i : Incoming} (hi : i ∈ is) {bs : List Owner}
    (h : (σ.referencingOwner n i).outcome = .ok bs) (ho : o ∈ bs) : σ.Listed n o := by
  cases hkey : i.reference.childIsKey with
  | true =>
    simp only [referencingOwner, hkey, if_true, Draft.outcome_pure, Except.ok.injEq] at h
    rw [← h] at ho
    cases ho
  | false =>
    by_cases hshape : ∃ b, i.shape = .bridge b
    · obtain ⟨b, hb⟩ := hshape
      obtain ⟨owns, rfl⟩ := (mem_referencingOwner_bridge_iff hkey hb h).1 ho
      obtain ⟨fk, hfk, henter⟩ := Schema.of_mem_incoming his hi
      exact .bridge ⟨fk, hfk, i, henter, hb⟩ owns
    · have hchild : i.IsChild := ⟨hkey, fun b hb => hshape ⟨b, hb⟩⟩
      obtain ⟨owns, rfl⟩ := (mem_referencingOwner_child_iff hchild h).1 ho
      exact .child ((Schema.hasChildren_iff his).2 ⟨i, hi, hchild, rfl, rfl⟩) owns

/-- **An owner check lists just the ways in which rows are owned**; a way that
is there twice is listed in one of its spellings. -/
theorem listed_of_ownerCheck (h : (σ.ownerCheck n).outcome = .ok owners) :
    (∀ o ∈ owners, σ.Listed n o) ∧ ∀ o, σ.Listed n o → ∃ o' ∈ owners, o'.Like o := by
  obtain ⟨rs, ss, own, is, more, hrs, hss, hown, his, hmore, rfl⟩ := ownerCheck_eq_ok h
  constructor
  · intro o ho
    rcases List.mem_append.1 ((foldl_addOwner more own).1 ho) with ho | ho
    · obtain ⟨r, hr, bs, hbs, hob⟩ := Draft.mem_of_gather hown ho
      obtain ⟨owns, rfl⟩ := (mem_ownColumn_iff hbs).1 hob
      exact .column ((Schema.refersTo_iff hrs hss).2 ⟨r, hr, rfl, rfl⟩) owns
    · obtain ⟨i, hi, bs, hbs, hob⟩ := Draft.mem_of_gather hmore ho
      exact listed_of_referencingOwner his hi hbs hob
  · intro o hlisted
    refine (foldl_addOwner more own).2 o ?_
    cases hlisted with
    | column refers owns =>
      obtain ⟨r, hr, rfl, rfl⟩ := (Schema.refersTo_iff hrs hss).1 refers
      obtain ⟨bs, hbs, hsub⟩ := Draft.outcome_of_gather hown hr
      exact List.mem_append_left _ (hsub ((mem_ownColumn_iff hbs).2 ⟨owns, rfl⟩))
    | child children owns =>
      obtain ⟨i, hi, hchild, rfl, rfl⟩ := (Schema.hasChildren_iff his).1 children
      obtain ⟨bs, hbs, hsub⟩ := Draft.outcome_of_gather hmore hi
      exact List.mem_append_right _
        (hsub ((mem_referencingOwner_child_iff hchild hbs).2 ⟨owns, rfl⟩))
    | bridge isBridge owns =>
      obtain ⟨fk, hfk, i, henter, hshape⟩ := isBridge
      obtain ⟨-, -, hof⟩ := Schema.enter_eq_ok_some henter
      rw [hshape] at hof
      obtain ⟨bs, hbs, hsub⟩ := Draft.outcome_of_gather hmore (Schema.mem_incoming his hfk henter)
      exact List.mem_append_right _ (hsub ((mem_referencingOwner_bridge_iff
        (Schema.shapeOf_eq_bridge hof).1 hshape hbs).2 ⟨owns, rfl⟩))

/-! ## What a check finds -/

/-- **A row has an owner** in a store. -/
inductive OwnedRow (σ : Setting) (s : Store) (n : TableName) (row : Row) (x : Int) : Prop
  /-- A column of the row that owns it has a value. -/
  | column {u : TableName} {c : String} (refers : σ.schema.RefersTo n u c) (owns : σ.Owns n u c)
      (given : (row.get? c).isSome = true)
  /-- A child that owns it points at it. -/
  | child {u : TableName} {c : String} {other : Row} (children : σ.schema.HasChildren n u c)
      (owns : σ.Owns n u c) (mem : other ∈ s.rows u) (points : other.get? c = some x)
  /-- A bridge row points at it, and what is behind the bridge owns it. -/
  | bridge {b : Bridge} {other : Row} (isBridge : σ.schema.IsBridge n b)
      (owns : σ.Owns n b.farTable b.table.name) (mem : other ∈ s.rows b.table)
      (points : other.get? b.nearColumn = some x)

/-- **An owner check finds an owner just of the rows that have one.** -/
theorem any_isOwned_iff_ownedRow (hs : s.schema = σ.schema) (hunique : s.UniqueKeys)
    (hk : σ.schema.key? n = some k) (hkey : sameName k key) (hrow : row ∈ s.rows n)
    (hx : row.get? k = some x) (hcheck : (σ.ownerCheck n).outcome = .ok owners) :
    owners.any (s.isOwned n key x) = true ↔ σ.OwnedRow s n row x := by
  obtain ⟨hsound, hcomplete⟩ := listed_of_ownerCheck hcheck
  -- the key picks out the row
  have hown (c : String) : s.isOwned n key x (.ownColumn c) = true ↔ (row.get? c).isSome = true := by
    simp only [Store.isOwned, List.any_eq_true, Bool.and_eq_true, beq_iff_eq]
    constructor
    · rintro ⟨r, hr, hrx, hgiven⟩
      rw [← Row.get?_congr r hkey] at hrx
      rwa [hunique.eq (by rw [hs, hk]) hrow hr hx hrx]
    · exact fun hgiven => ⟨row, hrow, by rw [← Row.get?_congr row hkey, hx], hgiven⟩
  have hpoints (u : TableName) (c : String) : s.isOwned n key x (.referencing u c) = true ↔
      ∃ other ∈ s.rows u, other.get? c = some x := Store.hasValue_iff
  rw [List.any_eq_true]
  constructor
  · rintro ⟨o, ho, hfound⟩
    cases hsound o ho with
    | column refers owns => exact .column refers owns ((hown _).1 hfound)
    | child children owns =>
      obtain ⟨other, hmem, hpoints⟩ := (hpoints _ _).1 hfound
      exact .child children owns hmem hpoints
    | bridge isBridge owns =>
      obtain ⟨other, hmem, hpoints⟩ := (hpoints _ _).1 hfound
      exact .bridge isBridge owns hmem hpoints
  · intro howned
    obtain ⟨o, hlisted, hfound⟩ : ∃ o, σ.Listed n o ∧ s.isOwned n key x o = true := by
      cases howned with
      | column refers owns given => exact ⟨_, .column refers owns, (hown _).2 given⟩
      | child children owns mem points =>
        exact ⟨_, .child children owns, (hpoints _ _).2 ⟨_, mem, points⟩⟩
      | bridge isBridge owns mem points =>
        exact ⟨_, .bridge isBridge owns, (hpoints _ _).2 ⟨_, mem, points⟩⟩
    obtain ⟨o', ho', hlike⟩ := hcomplete o hlisted
    exact ⟨o', ho', by rwa [Store.isOwned_congr hlike]⟩

/-- The check of the one note finds its building, and so the note has an owner. -/
theorem any_isOwned_iff_ownedRow_note : ∃ owners,
    (city.ownerCheck ⟨"city", "note"⟩).outcome = .ok owners ∧
      owners.any (cityStore.isOwned ⟨"city", "note"⟩ "id" 3) = true ∧
      (owners.any (cityStore.isOwned ⟨"city", "note"⟩ "id" 3) = true ↔
        city.OwnedRow cityStore ⟨"city", "note"⟩ ⟨[("id", 3), ("building", 1)]⟩ 3) := by
  have hcheck : (city.ownerCheck ⟨"city", "note"⟩).outcome = .ok [.ownColumn "building"] := by
    decide +kernel
  exact ⟨_, hcheck, by decide +kernel, Setting.any_isOwned_iff_ownedRow rfl cityStore_valid.1
    (k := "id") (by decide +kernel) (by decide +kernel) (by decide +kernel) (by decide +kernel) hcheck⟩

end Setting

/-- Houses share their address. Buildings have addresses too, by a bridge whose
column owns them, if the bridge is taken for a table like any other. -/
def addressing : Setting where
  schema := ⟨"city", [cityTable "house" ["id"] [("address", "address")],
    cityTable "address" ["id"] [], cityTable "building" ["id"] [],
    cityTable "building_address" ["building", "address"]
      [("building", "building"), ("address", "address")]], []⟩
  classifier := .ofRecords [⟨"address", "house", some "address", .aggregation⟩,
    ⟨"address", "building_address", some "address", .composition⟩] true
  discriminator := "class"

/-- The address of a building and of no house. -/
def addressingStore : Store where
  schema := addressing.schema
  contents := [(("city", "house"), []), (("city", "address"), [⟨[("id", 1)]⟩]),
    (("city", "building"), [⟨[("id", 1)]⟩]),
    (("city", "building_address"), [⟨[("building", 1), ("address", 1)]⟩])]

/-- **A bridge does not own by its column**: the row of another table points at
the address with a column that owns it and ties no subtype to it, and the check
finds no owner. -/
theorem not_isOwned_of_bridge :
    (addressing.schema.Regular ∧ addressing.schema.OneKeyPerColumn) ∧
      (addressingStore.UniqueKeys ∧ addressingStore.NoDangling) ∧
      addressing.schema.Link ⟨"city", "building_address"⟩ "address" ⟨"city", "address"⟩ ∧
      addressing.schema.key? ⟨"city", "building_address"⟩ = none ∧
      addressing.classifier ⟨"city", "address"⟩ ⟨"city", "building_address"⟩ (some "address") =
        .ok .composition ∧
      (⟨[("id", 1)]⟩ : Row) ∈ addressingStore.rows ⟨"city", "address"⟩ ∧
      (∃ r ∈ addressingStore.rows ⟨"city", "building_address"⟩, r.get? "address" = some 1) ∧
      ∃ owners, (addressing.ownerCheck ⟨"city", "address"⟩).outcome = .ok owners ∧
        owners.any (addressingStore.isOwned ⟨"city", "address"⟩ "id" 1) = false := by
  have hcheck : (addressing.ownerCheck ⟨"city", "address"⟩).outcome =
      .ok [.referencing ⟨"city", "house"⟩ "address"] := by
    decide +kernel
  exact ⟨by decide +kernel, by decide +kernel, by decide +kernel, by decide +kernel,
    by decide +kernel, by decide +kernel, by decide +kernel, _, hcheck, by decide +kernel⟩

end DeleteCascade
