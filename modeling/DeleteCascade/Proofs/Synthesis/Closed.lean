import DeleteCascade.Proofs.Deletion.Ownership
import DeleteCascade.Proofs.Function.Names
import DeleteCascade.Proofs.Synthesis.Cycles
/-!
# Programs — a closed script

A table gets its name when it is first mentioned, long before its function
is written, and a visit drops what was visited before. Nothing is lost on
the way: what a draft mentions is called by the body that comes of it
(`callees_of_draft`), so each name that waits for its function belongs to a
table that is still pending (`Unfinished.awaited`), and each table with a
name is called from the root on (`Unfinished.needed`). When nothing is
pending any more the script is closed and minimal (`IsClosed`), and cutting
loops of owners leaves it so.
-/

namespace DeleteCascade

/-! ## What is mentioned is called -/

namespace Draft

variable {α β : Type}

/-- What each item mentions is among what comes of it, and so it is for all
of them. -/
theorem ensures_gather_mentions {f : α → Draft (List β)} {l : List α} {P : β → List TableName}
    (h : ∀ a ∈ l, (f a).Ensures fun ms _ bs => ms ⊆ bs.flatMap P) :
    (gather f l).Ensures fun ms _ bs => ms ⊆ bs.flatMap P := by
  induction l with
  | nil => simp [gather]
  | cons a l ih =>
    unfold gather
    rw [ensures_bind]
    refine (h a (by simp)).mono fun ms ns first hfirst => ?_
    rw [ensures_bind]
    refine (ih fun a' ha' => h a' (by simp [ha'])).mono fun ms' ns' others hothers => ?_
    rw [ensures_pure, List.append_nil, List.flatMap_append]
    exact List.append_subset.2 ⟨List.subset_append_of_subset_left _ hfirst,
      List.subset_append_of_subset_right _ hothers⟩

/-- A draft that mentions nothing. -/
def Silent (d : Draft α) : Prop := d.Ensures fun ms _ _ => ms = []

theorem silent_gather {f : α → Draft (List β)} {l : List α} (h : ∀ a ∈ l, (f a).Silent) :
    (gather f l).Silent := by
  refine (ensures_gather_mentions (P := fun _ => []) fun a ha => ?_).mono fun ms _ bs hms => ?_
  · exact (h a ha).mono fun ms _ bs hms => by simp [hms]
  · exact List.eq_nil_iff_forall_not_mem.2 fun u hu => by simpa using hms hu

end Draft

namespace Setting

variable {s : Setting} {t u : TableName} {kind : Relation}

/-- Asking for the owners of a table mentions none. -/
theorem silent_ownerCheck (s : Setting) (t : TableName) : (s.ownerCheck t).Silent := by
  have hown (r : Reference) : (s.ownColumn t r).Silent := by
    unfold ownColumn Draft.Silent
    rw [Draft.ensures_bind, ensures_classify]
    intro kind _
    rw [Draft.ensures_pure, List.append_nil]
  have hreferencing (i : Incoming) : (s.referencingOwner t i).Silent := by
    unfold referencingOwner Draft.Silent
    split
    · rw [Draft.ensures_pure]
    · split
      · rw [Draft.ensures_bind, ensures_classifyBridge]
        intro kind _
        rw [Draft.ensures_pure, List.append_nil]
      · rw [Draft.ensures_bind, ensures_classify]
        intro kind _
        rw [Draft.ensures_pure, List.append_nil]
  unfold ownerCheck Draft.Silent
  rw [Draft.ensures_bind, Draft.ensures_ask]
  intro referenced _
  rw [Draft.ensures_bind, Draft.ensures_ask]
  intro selfs _
  rw [Draft.ensures_bind]
  refine (Draft.silent_gather fun r _ => hown r).mono fun ms _ own hms => ?_
  rw [Draft.ensures_bind, Draft.ensures_ask]
  intro incoming _
  rw [Draft.ensures_bind]
  refine (Draft.silent_gather fun i _ => hreferencing i).mono fun ms' _ more hms' => ?_
  rw [Draft.ensures_pure, hms, hms']
  rfl

theorem silent_ownerCheckFor (s : Setting) (kind : Relation) (t : TableName) :
    (s.ownerCheckFor kind t).Silent := by
  unfold ownerCheckFor Draft.Silent
  split
  · rw [Draft.ensures_map]
    exact silent_ownerCheck s t
  · rw [Draft.ensures_pure]

theorem silent_findDiscriminator (s : Setting) (t : TableName) :
    (s.findDiscriminator t).Silent := by
  unfold findDiscriminator Draft.Silent
  rw [Draft.ensures_bind, Draft.ensures_ofExcept]
  intro root _
  rw [Draft.ensures_bind, Draft.ensures_ask]
  intro known _
  split
  · rw [Draft.ensures_bind, Draft.ensures_ask]
    intro k _
    rw [Draft.ensures_pure]
    rfl
  · rw [Draft.ensures_ofExcept]
    exact fun _ _ => rfl

/-- A step calls what it mentions. -/
def CallsMentioned (d : Draft (List (Block TableName))) : Prop :=
  d.Ensures fun ms _ bs => ms ⊆ bs.flatMap (·.callees)

theorem callsMentioned_selfPart (s : Setting) (t : TableName) (r : Reference) :
    CallsMentioned (s.selfPart t r) := by
  unfold selfPart CallsMentioned
  rw [Draft.ensures_bind, ensures_classify]
  intro kind _
  dsimp only
  split
  · split
    · rw [Draft.ensures_bind, Draft.ensures_mention]
      simp [Block.callees]
    · rw [Draft.ensures_bind, Draft.ensures_note, Draft.ensures_bind, Draft.ensures_mention]
      simp [Block.callees]
  · simp

theorem callsMentioned_child (s : Setting) (t : TableName) (r : Reference) :
    CallsMentioned (s.child t r) := by
  unfold child CallsMentioned
  rw [Draft.ensures_bind, ensures_classify]
  intro kind _
  dsimp only
  split
  · have hlast (check : Option (List Owner)) : CallsMentioned (do
        let childKey ← Draft.ask r.child (s.schema.keyColumn r.child)
        let callee ← Draft.mention r.child
        pure [Block.childCascade ⟨r.child, childKey, r.childColumn,
          decide (kind = .aggregation ∧ r.nullable = true), check, callee⟩]) := by
      unfold CallsMentioned
      rw [Draft.ensures_bind, Draft.ensures_ask]
      intro childKey _
      rw [Draft.ensures_bind, Draft.ensures_mention, Draft.ensures_pure]
      simp [Block.callees]
    split
    · rw [Draft.ensures_bind]
      refine (silent_ownerCheckFor s kind r.child).mono fun ms _ check hms => ?_
      rw [hms]
      exact hlast check
    · rw [Draft.ensures_bind, Draft.ensures_pure]
      exact hlast none
  · simp

theorem callsMentioned_bridge (s : Setting) (t : TableName) (b : Bridge) :
    CallsMentioned (s.bridge t b) := by
  unfold bridge CallsMentioned
  rw [Draft.ensures_bind, ensures_classifyBridge]
  intro kind _
  rw [Draft.ensures_bind]
  refine (silent_ownerCheckFor s kind b.farTable).mono fun ms _ check hms => ?_
  dsimp only
  split
  · rw [Draft.ensures_bind, Draft.ensures_map, Draft.ensures_mention, Draft.ensures_pure, hms]
    simp [Block.callees]
  · rw [Draft.ensures_bind, Draft.ensures_pure, Draft.ensures_pure, hms]
    simp

theorem callsMentioned_entering (s : Setting) (t : TableName) (i : Incoming) :
    CallsMentioned (s.entering t i) := by
  unfold entering
  split
  · simp [CallsMentioned]
  · split
    · exact callsMentioned_bridge s t _
    · unfold CallsMentioned
      rw [Draft.ensures_bind, Draft.ensures_note]
      exact callsMentioned_child s t i.reference
    · exact callsMentioned_child s t i.reference

/-- Each subtype has a case or a hook. -/
theorem subset_callees_dispatch {classes : Schema.ClassMap} {subtypes : List TableName}
    {d : Option Discriminator} : subtypes ⊆
      (Block.subtypeDispatch ⟨d, typedCases classes subtypes, untyped classes subtypes⟩).callees := by
  intro u hu
  refine List.mem_append.2 ?_
  cases hclasses : classes.classesOf u with
  | nil => exact Or.inr (List.mem_filter.2 ⟨hu, by simp [hclasses]⟩)
  | cons c cs =>
    refine Or.inl (List.mem_map.2 ⟨⟨c :: cs, u⟩, List.mem_filterMap.2 ⟨u, hu, ?_⟩, rfl⟩)
    simp [hclasses]

theorem callsMentioned_dispatch (s : Setting) (t : TableName) (subtypes : List TableName) :
    CallsMentioned (s.dispatch t subtypes) := by
  unfold dispatch CallsMentioned
  split
  · simp
  · rw [Draft.ensures_bind, Draft.ensures_ask]
    intro classes _
    rw [Draft.ensures_bind]
    refine (ensures_mentions subtypes).mono fun ms ns _ hms => ?_
    have hdone (d : Option Discriminator) : ms ⊆ [Block.subtypeDispatch
        ⟨d, typedCases classes subtypes, untyped classes subtypes⟩].flatMap (·.callees) := by
      rw [List.flatMap_cons, List.flatMap_nil, List.append_nil, hms]
      exact subset_callees_dispatch
    dsimp only
    split
    · rw [Draft.ensures_bind, Draft.ensures_pure, Draft.ensures_pure]
      simpa using hdone none
    · rw [Draft.ensures_bind, Draft.ensures_map]
      refine (silent_findDiscriminator s t).mono fun ms' _ d hms' => ?_
      rw [Draft.ensures_pure, hms']
      simpa using hdone (some d)

theorem callsMentioned_parentBlock (s : Setting) (t : TableName) :
    CallsMentioned (s.parentBlock t) := by
  unfold parentBlock CallsMentioned
  rw [Draft.ensures_bind, Draft.ensures_ask]
  intro link _
  cases link with
  | none => simp
  | some r =>
    dsimp only
    rw [Draft.ensures_bind, Draft.ensures_mention, Draft.ensures_pure]
    simp [Block.callees]

/-- What is gathered to be cleaned up after is called by the cleanups. -/
theorem ensures_mentions_targets (s : Setting) (t : TableName) (rs : List Reference) :
    (Draft.gather (s.ownedTarget t) rs).Ensures
      fun ms _ targets => ms ⊆ (cleanups targets).flatMap (·.callees) := by
  have heach (r : Reference) :
      (s.ownedTarget t r).Ensures fun ms _ targets => ms ⊆ targets.flatMap fun x => [x.1.parent] := by
    unfold ownedTarget
    rw [Draft.ensures_bind, ensures_classify]
    intro kind _
    split
    · rw [Draft.ensures_bind]
      refine (silent_ownerCheckFor s kind r.parent).mono fun ms _ check hms => ?_
      rw [Draft.ensures_bind, Draft.ensures_mention, Draft.ensures_pure, hms]
      simp
    · rw [Draft.ensures_pure]
      simp
  refine (Draft.ensures_gather_mentions fun r _ => heach r).mono fun ms _ targets hms u hu => ?_
  obtain ⟨⟨r, check⟩, htarget, hu⟩ := List.mem_flatMap.1 (hms hu)
  obtain rfl := List.mem_singleton.1 hu
  obtain ⟨i, hi⟩ := List.mem_iff_getElem?.1 htarget
  exact List.mem_flatMap.2 ⟨_, mem_cleanups.2 ⟨i, r, check, hi, rfl⟩, by simp [Block.callees]⟩

/-- **A body calls whatever its draft mentioned.** -/
theorem callsMentioned_body (s : Setting) (t : TableName) : CallsMentioned (s.body t) := by
  unfold body CallsMentioned
  rw [Draft.ensures_bind, Draft.ensures_ask]
  intro selfs _
  rw [Draft.ensures_bind]
  refine (Draft.ensures_gather_mentions fun r _ => callsMentioned_selfPart s t r).mono
    fun ms₁ _ parts hparts => ?_
  rw [Draft.ensures_bind, Draft.ensures_ask]
  intro is _
  rw [Draft.ensures_bind]
  refine (Draft.ensures_gather_mentions fun i _ => callsMentioned_entering s t i).mono
    fun ms₂ _ children hchildren => ?_
  rw [Draft.ensures_bind]
  refine (callsMentioned_dispatch s t (keyChildren is)).mono fun ms₃ _ subtypes hsubtypes => ?_
  rw [Draft.ensures_bind, Draft.ensures_ask]
  intro rs _
  rw [Draft.ensures_bind]
  refine (ensures_mentions_targets s t rs).mono fun ms₄ _ targets htargets => ?_
  rw [Draft.ensures_bind]
  refine (callsMentioned_parentBlock s t).mono fun ms₅ _ parent hparent => ?_
  rw [Draft.ensures_pure]
  intro u hu
  simp only [List.nil_append, List.append_nil, List.mem_append] at hu
  simp only [List.flatMap_append, List.mem_append]
  rcases hu with hu | hu | hu | hu | hu
  · exact Or.inl (Or.inl (Or.inl (Or.inl (Or.inl (hparts hu)))))
  · exact Or.inl (Or.inl (Or.inl (Or.inl (Or.inr (hchildren hu)))))
  · exact Or.inl (Or.inl (Or.inl (Or.inr (hsubtypes hu))))
  · exact Or.inl (Or.inr (htargets hu))
  · exact Or.inr (hparent hu)

/-- **A drafted function calls whatever its draft mentioned.** -/
theorem mentions_subset_of_draft {k : String} {blocks : List (Block TableName)}
    (h : (s.draft t).outcome = .ok (k, blocks)) :
    (s.draft t).mentions ⊆ blocks.flatMap (·.callees) := by
  have hdraft : (s.draft t).Ensures fun ms _ result => ms ⊆ result.2.flatMap (·.callees) := by
    unfold draft
    rw [Draft.ensures_bind, Draft.ensures_ask]
    intro k _
    rw [Draft.ensures_bind]
    refine (callsMentioned_body s t).mono fun ms _ blocks hms => ?_
    rw [Draft.ensures_pure, List.append_nil]
    exact hms
  exact hdraft _ h

end Setting

/-- Whatever a block calls is among what it may call. -/
theorem Block.mem_callees_of_mem_calls {κ : Type} {b : Block κ} {caller next : Caller} {c : κ}
    (h : (c, next) ∈ b.calls caller) : c ∈ b.callees := by
  cases b with
  | subtypeDispatch d =>
    simp only [calls, callees] at h ⊢
    split at h <;> simp only [List.mem_append, List.mem_map, Prod.mk.injEq, List.not_mem_nil] at h ⊢
      <;> grind
  | parentCascade u =>
    simp only [calls, callees] at h ⊢
    split at h <;> simp_all
  | _ => simp_all [calls, callees]

namespace Registry

variable {r r' : Registry} {root t u : TableName} {ts called pending rest : List TableName}
variable {name : String} {maxLength : Nat} {f : DeleteFunction}

/-! ## What a visit leaves to do -/

/-- **The tables that a script from a root needs**: the root, and whatever a
function of a table that is needed calls, in any spelling. -/
inductive Needs (r : Registry) (root : TableName) : TableName → Prop
  | root {t : TableName} (same : t.same root) : Needs r root t
  | call {f : DeleteFunction} {c : Callee} {t : TableName} (needed : Needs r root f.table)
      (written : f ∈ r.functions) (calls : c ∈ f.callees) (same : t.same c.table) : Needs r root t

theorem Needs.congr (h : r.Needs root t) (htu : t.same u) : r.Needs root u := by
  cases h with
  | root same => exact .root (TableName.same_trans (TableName.same_symm htu) same)
  | call needed written calls same =>
    exact .call needed written calls (TableName.same_trans (TableName.same_symm htu) same)

/-- What is needed stays so where functions go on calling what they called. -/
theorem Needs.mono (h : r.Needs root t)
    (hmono : ∀ f ∈ r.functions, ∃ f' ∈ r'.functions, f'.table = f.table ∧ f'.callees = f.callees) :
    r'.Needs root t := by
  induction h with
  | root same => exact .root same
  | call _ written calls same ih =>
    obtain ⟨f', hf', htable, hcallees⟩ := hmono _ written
    exact .call (htable ▸ ih) hf' (hcallees ▸ calls) same

/-- **A visit under way**, with the tables still pending: a table is visited
once and then written, a name that waits for its function is pending, and
no table is named or pending without need. -/
structure Unfinished (r : Registry) (root : TableName) (pending : List TableName) : Prop where
  distinct : r.Distinct
  once : r.visited.Pairwise fun t u => t.same u = false
  written : ∀ t ∈ r.visited, ∃ e, r.record? t = some e ∧ e.isDone = true
  visited : ∀ e ∈ r.records, e.isDone = true → e.function.table.isIn r.visited = true
  awaited : ∀ e ∈ r.records, e.isDone = true ∨ e.function.table.isIn pending = true
  needed : ∀ e ∈ r.records, r.Needs root e.function.table
  pendingNeeded : ∀ t ∈ pending, r.Needs root t
  rooted : root.isIn pending = true ∨ ∃ e ∈ r.records, e.function.table.same root = true

/-- The finished records are the functions. -/
theorem mem_functions_iff (hdist : r.Distinct)
    (hvisited : ∀ e ∈ r.records, e.isDone = true → e.function.table.isIn r.visited = true) :
    f ∈ r.functions ↔ ∃ e ∈ r.records, e.isDone = true ∧ e.function = f := by
  constructor
  · intro hf
    obtain ⟨e, he, hd, hef, -⟩ := mem_functions hf
    exact ⟨e, he, hd, hef⟩
  · rintro ⟨e, he, hd, rfl⟩
    obtain ⟨t, ht, hsame⟩ := TableName.isIn_iff.1 (hvisited e he hd)
    refine List.mem_filterMap.2 ⟨t, ht, ?_⟩
    rw [hdist.record?_of_mem he hsame]
    simp [hd]

/-- Naming tables leaves the records there are, and adds some that wait for
their functions. -/
theorem mem_records_reserveAll (h : r.reserveAll ts = .ok r') :
    r.records ⊆ r'.records ∧
      ∀ e ∈ r'.records, e ∈ r.records ∨ (e.isDone = false ∧ e.function.table ∈ ts) := by
  induction ts generalizing r with
  | nil =>
    cases h
    exact ⟨fun _ he => he, fun e he => Or.inl he⟩
  | cons t ts ih =>
    unfold reserveAll at h
    split at h
    · cases h
    · rename_i name r₁ hr₁
      obtain ⟨hsub, hnew⟩ := ih h
      have hone : r.records ⊆ r₁.records ∧
          ∀ e ∈ r₁.records, e ∈ r.records ∨ (e.isDone = false ∧ e.function.table = t) := by
        rcases reserve_eq_ok hr₁ with ⟨e, -, -, rfl⟩ | ⟨-, namer, -, rfl⟩
        · exact ⟨fun _ he => he, fun e he => Or.inl he⟩
        · refine ⟨fun e he => List.mem_append_left _ he, fun e he => ?_⟩
          rcases List.mem_append.1 he with he | he
          · exact Or.inl he
          · obtain rfl := List.mem_singleton.1 he
            exact Or.inr ⟨rfl, rfl⟩
      refine ⟨List.Subset.trans hone.1 hsub, fun e he => ?_⟩
      rcases hnew e he with he | ⟨hd, ht⟩
      · rcases hone.2 e he with he | ⟨hd, ht⟩
        · exact Or.inl he
        · exact Or.inr ⟨hd, by simp [ht]⟩
      · exact Or.inr ⟨hd, by simp [ht]⟩

/-- What holds of a table whose visit begins: it has no finished function,
and it gets a record if it has none. -/
theorem begin_eq_ok (hr : r.beginVisit t = .ok (true, r')) :
    ∃ r₁, r.reserveAll [t] = .ok r₁ ∧ r' = { r₁ with visited := r₁.visited ++ [t] } ∧
      ∃ e, r₁.record? t = some e ∧ e.isDone = false := by
  unfold beginVisit at hr
  split at hr
  · cases hr
  · rename_i name r₁ hr₁
    split at hr
    · rename_i hstate
      cases hr
      simp only [state?, Option.map_eq_some_iff] at hstate
      obtain ⟨e, he, hstate⟩ := hstate
      refine ⟨r₁, by rw [reserveAll, hr₁]; rfl, rfl, e, he, ?_⟩
      by_contra hd
      rw [Bool.not_eq_false] at hd
      simp [hd] at hstate
    · cases hr

/-- **What writing a table does to the records**, when its draft mentioned
`ts` and its function calls `called`. -/
structure Writing (r : Registry) (t : TableName) (ts called : List TableName) (r' : Registry) :
    Prop where
  distinct : r'.Distinct
  fresh : t.isIn r.visited = false
  visited : r'.visited = r.visited ++ [t]
  waiting : ∀ e ∈ r.records, e.function.table.same t = true → e.isDone = false
  kept : ∀ e ∈ r.records, e.function.table.same t = false → e ∈ r'.records
  written : ∃ e ∈ r'.records, e.isDone = true ∧ e.function.table.same t = true ∧
    e.function.callees.map (·.table) = called
  /-- A record is the one just written, another one of before, or a new name. -/
  records : ∀ e ∈ r'.records, (e.function.table.same t = true ∧ e.isDone = true) ∨
    (e ∈ r.records ∧ e.function.table.same t = false) ∨ (e.isDone = false ∧ e.function.table ∈ ts)

theorem writing_of_complete (h : r.Distinct) {r₁ r₂ : Registry} {k : String}
    {blocks : List (Block TableName)} (hbegun : r.beginVisit t = .ok (true, r₁))
    (hreserve : r₁.reserveAll ts = .ok r₂) :
    r.Writing t ts (blocks.flatMap (·.callees))
      (r₂.complete t k (blocks.map (·.map r₂.callee))) := by
  obtain ⟨hvisited₁, hnew⟩ := visited_beginVisit_true hbegun
  obtain ⟨r₀, hr₀, rfl, e₀, he₀, hd₀⟩ := begin_eq_ok hbegun
  obtain ⟨hdist₀, -, -⟩ := reserveAll_eq_ok h hr₀
  have hdist₁ : ({ r₀ with visited := r₀.visited ++ [t] } : Registry).Distinct :=
    ⟨hdist₀.apart, hdist₀.taken⟩
  obtain ⟨hdist₂, -, -⟩ := reserveAll_eq_ok hdist₁ hreserve
  obtain ⟨hsub₀, hmem₀⟩ := mem_records_reserveAll hr₀
  obtain ⟨hsub₂, hmem₂⟩ := mem_records_reserveAll hreserve
  obtain ⟨he₀mem, he₀same⟩ := mem_of_record? he₀
  refine ⟨hdist₂.modify fun e => ⟨rfl, rfl⟩, hnew, ?_, ?_, ?_, ?_, ?_⟩
  · rw [visited_complete, visited_reserveAll hreserve, hvisited₁]
  · intro e he hsame
    have heq := hdist₀.eq_of_mem (hsub₀ he) he₀mem
      (Or.inl (TableName.same_trans hsame (TableName.same_symm he₀same)))
    rw [heq, hd₀]
  · intro e he hother
    exact mem_modify.2 ⟨e, hsub₂ (hsub₀ he), by rw [if_neg (Bool.eq_false_iff.1 hother)]⟩
  · refine ⟨_, mem_modify.2 ⟨e₀, hsub₂ he₀mem, rfl⟩, ?_⟩
    rw [if_pos he₀same]
    refine ⟨rfl, he₀same, ?_⟩
    simp [DeleteFunction.callees, List.flatMap_map, List.map_flatMap, callee, Function.comp_def]
  · intro e' he'
    obtain ⟨e, he, rfl⟩ := mem_modify.1 he'
    split
    · rename_i hsame
      exact Or.inl ⟨hsame, rfl⟩
    · rename_i hother
      rcases hmem₂ e he with he | hnamed
      · rcases hmem₀ e he with he | ⟨-, htable⟩
        · exact Or.inr (Or.inl ⟨he, Bool.eq_false_iff.2 hother⟩)
        · obtain rfl := List.mem_singleton.1 htable
          exact absurd (TableName.same_refl _) hother
      · exact Or.inr (Or.inr hnamed)

namespace Unfinished

theorem new (namer : Namer) (root : TableName) : (Registry.new namer).Unfinished root [root] where
  distinct := .new namer
  once := List.Pairwise.nil
  written := by simp [Registry.new]
  visited := by simp [Registry.new]
  awaited := by simp [Registry.new]
  needed := by simp [Registry.new]
  pendingNeeded := fun t ht => .root (by simp [List.mem_singleton.1 ht])
  rooted := Or.inl (by simp [TableName.isIn])

/-- A table that was visited has a record that is done. -/
theorem done_of_isIn (h : r.Unfinished root pending) (ht : t.isIn r.visited = true) :
    ∃ e, r.record? t = some e ∧ e.isDone = true := by
  obtain ⟨u, hu, hsame⟩ := TableName.isIn_iff.1 ht
  rw [record?_congr hsame]
  exact h.written u hu

/-- A pending table whose visit does not begin is done, and nothing changes. -/
theorem drop (h : r.Unfinished root (t :: rest)) (hr : r.beginVisit t = .ok (false, r')) :
    r' = r ∧ r.Unfinished root rest := by
  obtain ⟨e, he, hd, rfl⟩ : ∃ e, r.record? t = some e ∧ e.isDone = true ∧ r' = r := by
    unfold beginVisit at hr
    split at hr
    · cases hr
    · rename_i name r₁ hr₁
      split at hr
      · cases hr
      · rename_i hstate
        cases hr
        by_cases hin : t.isIn r.visited = true
        · obtain ⟨e, he, hd⟩ := h.done_of_isIn hin
          rcases reserve_eq_ok hr₁ with ⟨e', -, -, rfl⟩ | ⟨hnone, -⟩
          · exact ⟨e, he, hd, rfl⟩
          · rw [hnone] at he
            cases he
        · rcases reserve_eq_ok hr₁ with ⟨e, he, -, rfl⟩ | ⟨hnone, namer, -, rfl⟩
          · refine ⟨e, he, ?_, rfl⟩
            by_contra hd
            exact hstate (by simp [state?, he, hd, hin])
          · have hfind : r.records.find? (fun f => f.function.table.same t) = none := hnone
            refine absurd ?_ hstate
            simp [state?, record?, List.find?_append, hfind, DeleteFunction.unwritten, hin]
  obtain ⟨hmem, hsame⟩ := mem_of_record? he
  refine ⟨rfl, { h with awaited := fun e' he' => ?_, pendingNeeded := ?_, rooted := ?_ }⟩
  · rcases h.awaited e' he' with hd' | hin
    · exact Or.inl hd'
    · rw [TableName.isIn, List.any_cons, Bool.or_eq_true] at hin
      rcases hin with hin | hin
      · have heq := h.distinct.eq_of_mem he' hmem
          (Or.inl (TableName.same_trans hin (TableName.same_symm hsame)))
        exact Or.inl (heq ▸ hd)
      · exact Or.inr hin
  · exact fun u hu => h.pendingNeeded u (List.mem_cons_of_mem _ hu)
  · rcases h.rooted with hin | hroot
    · rw [TableName.isIn, List.any_cons, Bool.or_eq_true] at hin
      rcases hin with hin | hin
      · exact Or.inr ⟨e, hmem, TableName.same_trans hsame (TableName.same_symm hin)⟩
      · exact Or.inl hin
    · exact Or.inr hroot

/-- Editing a body without a change to what it calls leaves as much to do. -/
theorem editBlocks (h : r.Unfinished root pending)
    {g : List (Block Callee) → List (Block Callee)}
    (hg : ∀ blocks, (g blocks).flatMap (·.callees) = blocks.flatMap (·.callees)) :
    (r.editBlocks t g).Unfinished root pending := by
  have hid : KeepsIdentity fun e =>
      { e with function := { e.function with blocks := g e.function.blocks } } :=
    fun e => ⟨rfl, rfl⟩
  have hdist := h.distinct.modify (t := t) hid
  -- an edited record differs only in its body, which calls the same
  have hback : ∀ e' ∈ (r.editBlocks t g).records, ∃ e ∈ r.records,
      e'.function.table = e.function.table ∧ e'.isDone = e.isDone := by
    intro e' he'
    obtain ⟨e, he, rfl⟩ := mem_modify.1 he'
    refine ⟨e, he, ?_⟩
    split <;> exact ⟨rfl, rfl⟩
  have hforth : ∀ e ∈ r.records, ∃ e' ∈ (r.editBlocks t g).records,
      e'.function.table = e.function.table ∧ e'.isDone = e.isDone ∧
        e'.function.callees = e.function.callees := by
    intro e he
    refine ⟨_, mem_modify.2 ⟨e, he, rfl⟩, ?_⟩
    split
    · exact ⟨rfl, rfl, hg _⟩
    · exact ⟨rfl, rfl, rfl⟩
  have hvisited : ∀ e ∈ (r.editBlocks t g).records, e.isDone = true →
      e.function.table.isIn (r.editBlocks t g).visited = true := by
    intro e' he' hd
    obtain ⟨e, he, htable, hdone⟩ := hback e' he'
    rw [htable]
    exact h.visited e he (hdone ▸ hd)
  have hneeds {u : TableName} (hu : r.Needs root u) : (r.editBlocks t g).Needs root u := by
    refine hu.mono fun f hf => ?_
    obtain ⟨e, he, hd, rfl⟩ := (mem_functions_iff h.distinct h.visited).1 hf
    obtain ⟨e', he', htable, hdone, hcallees⟩ := hforth e he
    exact ⟨_, (mem_functions_iff hdist hvisited).2 ⟨e', he', hdone.trans hd, rfl⟩, htable, hcallees⟩
  refine ⟨hdist, h.once, fun u hu => ?_, hvisited, fun e' he' => ?_, fun e' he' => ?_,
    fun u hu => hneeds (h.pendingNeeded u hu), ?_⟩
  · obtain ⟨e, he, hd⟩ := h.written u hu
    rw [record?_editBlocks, he]
    refine ⟨_, rfl, ?_⟩
    dsimp only
    split <;> exact hd
  · obtain ⟨e, he, htable, hdone⟩ := hback e' he'
    rw [htable, hdone]
    exact h.awaited e he
  · obtain ⟨e, he, htable, -⟩ := hback e' he'
    rw [htable]
    exact hneeds (h.needed e he)
  · refine h.rooted.imp id fun ⟨e, he, hsame⟩ => ?_
    obtain ⟨e', he', htable, -⟩ := hforth e he
    exact ⟨e', he', htable ▸ hsame⟩

/-- **A pending table is written**, and what its function calls is pending
in its stead. -/
theorem step (h : r.Unfinished root (t :: rest)) (hw : r.Writing t ts called r')
    (hmentions : ts ⊆ called) : r'.Unfinished root (called ++ rest) := by
  obtain ⟨e₁, he₁, hd₁, hsame₁, hcallees₁⟩ := hw.written
  have hold : ∀ e ∈ r.records, e.isDone = true → e ∈ r'.records := by
    intro e he hd
    refine hw.kept e he (Bool.eq_false_iff.2 fun hsame => ?_)
    rw [hw.waiting e he hsame] at hd
    cases hd
  have hvisited : ∀ e ∈ r'.records, e.isDone = true →
      e.function.table.isIn r'.visited = true := by
    intro e he hd
    rw [hw.visited, TableName.isIn, List.any_append, Bool.or_eq_true]
    rcases hw.records e he with ⟨hsame, -⟩ | ⟨he, -⟩ | ⟨hnot, -⟩
    · exact Or.inr (by simpa using hsame)
    · exact Or.inl (h.visited e he hd)
    · rw [hd] at hnot
      cases hnot
  have hneeds {u : TableName} (hu : r.Needs root u) : r'.Needs root u := by
    refine hu.mono fun f hf => ?_
    obtain ⟨e, he, hd, rfl⟩ := (mem_functions_iff h.distinct h.visited).1 hf
    exact ⟨_, (mem_functions_iff hw.distinct hvisited).2 ⟨e, hold e he hd, hd, rfl⟩, rfl, rfl⟩
  have hneedsTable : r'.Needs root t := hneeds (h.pendingNeeded t (by simp))
  have hcalled : ∀ u ∈ called, r'.Needs root u := by
    intro u hu
    rw [← hcallees₁] at hu
    obtain ⟨c, hc, rfl⟩ := List.mem_map.1 hu
    exact .call (hneedsTable.congr (TableName.same_symm hsame₁))
      ((mem_functions_iff hw.distinct hvisited).2 ⟨e₁, he₁, hd₁, rfl⟩) hc (TableName.same_refl _)
  refine ⟨hw.distinct, ?_, fun u hu => ?_, hvisited, fun e he => ?_, fun e he => ?_,
    fun u hu => ?_, ?_⟩
  · rw [hw.visited]
    refine List.pairwise_append.2 ⟨h.once, List.pairwise_singleton _ _, fun u hu v hv => ?_⟩
    obtain rfl := List.mem_singleton.1 hv
    refine Bool.eq_false_iff.2 fun hsame => ?_
    exact Bool.eq_false_iff.1 hw.fresh (TableName.isIn_iff.2 ⟨u, hu, TableName.same_symm hsame⟩)
  · rw [hw.visited] at hu
    rcases List.mem_append.1 hu with hu | hu
    · obtain ⟨e, he, hd⟩ := h.written u hu
      obtain ⟨hmem, hsame⟩ := mem_of_record? he
      exact ⟨e, hw.distinct.record?_of_mem (hold e hmem hd) hsame, hd⟩
    · obtain rfl := List.mem_singleton.1 hu
      exact ⟨e₁, hw.distinct.record?_of_mem he₁ hsame₁, hd₁⟩
  · rcases hw.records e he with ⟨-, hd⟩ | ⟨he, hother⟩ | ⟨-, htable⟩
    · exact Or.inl hd
    · refine (h.awaited e he).imp id fun hin => ?_
      rw [TableName.isIn, List.any_cons, hother, Bool.false_or] at hin
      rw [TableName.isIn, List.any_append, Bool.or_eq_true]
      exact Or.inr hin
    · exact Or.inr (TableName.isIn_iff.2
        ⟨_, List.mem_append_left _ (hmentions htable), TableName.same_refl _⟩)
  · rcases hw.records e he with ⟨hsame, -⟩ | ⟨he, -⟩ | ⟨-, htable⟩
    · exact hneedsTable.congr (TableName.same_symm hsame)
    · exact hneeds (h.needed e he)
    · exact hcalled _ (hmentions htable)
  · rcases List.mem_append.1 hu with hu | hu
    · exact hcalled u hu
    · exact hneeds (h.pendingNeeded u (List.mem_cons_of_mem _ hu))
  · have hhead {u : TableName} (hu : u.same t = true) (huroot : u.same root = true) :
        ∃ e ∈ r'.records, e.function.table.same root = true :=
      ⟨e₁, he₁, TableName.same_trans hsame₁ (TableName.same_trans (TableName.same_symm hu) huroot)⟩
    rcases h.rooted with hin | ⟨e, he, hroot⟩
    · rw [TableName.isIn, List.any_cons, Bool.or_eq_true] at hin
      rcases hin with hin | hin
      · exact Or.inr (hhead hin (TableName.same_refl _))
      · rw [TableName.isIn, List.any_append, Bool.or_eq_true]
        exact Or.inl (Or.inr hin)
    · by_cases hsame : e.function.table.same t = true
      · exact Or.inr (hhead hsame hroot)
      · exact Or.inr ⟨e, hw.kept e he (Bool.eq_false_iff.2 hsame), hroot⟩

end Unfinished

/-! ## Names within a length -/

/-- All names given so far fit, and so will those to come. -/
def Fits (r : Registry) (maxLength : Nat) : Prop :=
  r.namer.maxLength = maxLength ∧ ∀ e ∈ r.records, e.function.name.length ≤ maxLength

theorem NamedBy.fits {n : Namer} (h : r.NamedBy n) : r.Fits n.maxLength :=
  ⟨h.maxLength, fun e he => (h.names e he).length_le⟩

/-! ## A closed script -/

/-- **A script is closed and minimal**: whatever is called has one function,
by the name it is called; no name is left without its function; the tables
with a function are those that the root needs; and the names are different
and fit. -/
structure IsClosed (r : Registry) (root : TableName) (maxLength : Nat) : Prop where
  calls : ∀ f ∈ r.functions, ∀ b ∈ f.blocks, ∀ c ∈ b.callees,
    ∃ g, (r.functions.filter fun g => g.table.same c.table) = [g] ∧ g.name = c.function
  records : ∀ e ∈ r.records, e.isDone = true ∧ e.function ∈ r.functions
  states : ∀ t state, r.state? t = some state → state = .done
  minimal : ∀ t, (∃ f ∈ r.functions, f.table.same t = true) ↔ r.Needs root t
  apart : r.functions.Pairwise fun f g => f.table.same g.table = false ∧ f.name ≠ g.name
  names : ∀ f ∈ r.functions, f.name.length ≤ maxLength

/-- The functions of different tables are kept apart. -/
theorem Unfinished.pairwise_functions (h : r.Unfinished root pending) :
    r.functions.Pairwise fun f g => f.table.same g.table = false ∧ f.name ≠ g.name := by
  unfold functions
  rw [List.pairwise_filterMap]
  refine h.once.imp fun {t u} htu f hf g hg => ?_
  split at hf
  · rename_i e he
    split at hf
    · cases hf
      split at hg
      · rename_i e' he'
        split at hg
        · cases hg
          obtain ⟨hmem, hsame⟩ := mem_of_record? he
          obtain ⟨hmem', hsame'⟩ := mem_of_record? he'
          have hother : e.function.table.same e'.function.table = false := by
            rw [TableName.same_congr_left hsame, TableName.same_congr_right hsame', htu]
          refine ⟨hother, fun hname => ?_⟩
          rw [h.distinct.eq_of_mem hmem hmem' (Or.inr hname), TableName.same_refl] at hother
          cases hother
        · cases hg
      · cases hg
    · cases hf
  · cases hf

/-- Where nothing is pending, the script is closed. -/
theorem Unfinished.isClosed {s : Setting} {notes : List String} (h : r.Unfinished root [])
    (hsound : s.Sound r notes) (hfits : r.Fits maxLength) : r.IsClosed root maxLength := by
  have hdone : ∀ e ∈ r.records, e.isDone = true := fun e he =>
    (h.awaited e he).resolve_right (by simp [TableName.isIn])
  have hfunctions {f : DeleteFunction} : f ∈ r.functions ↔ ∃ e ∈ r.records, e.function = f := by
    rw [mem_functions_iff h.distinct h.visited]
    constructor
    · rintro ⟨e, he, -, hf⟩
      exact ⟨e, he, hf⟩
    · rintro ⟨e, he, hf⟩
      exact ⟨e, he, hdone e he, hf⟩
  have hcalled {f : DeleteFunction} {c : Callee} (hf : f ∈ r.functions) (hc : c ∈ f.callees) :
      ∃ g ∈ r.functions, g.table.same c.table = true ∧ g.name = c.function := by
    obtain ⟨e, he, rfl⟩ := hfunctions.1 hf
    have hname := hsound.names e he (hdone e he) c hc
    simp only [nameOf?, get?, Option.map_eq_some_iff] at hname
    obtain ⟨g, ⟨e', he', rfl⟩, hname⟩ := hname
    exact ⟨_, hfunctions.2 ⟨e', (mem_of_record? he').1, rfl⟩, (mem_of_record? he').2, hname⟩
  have hapart := h.pairwise_functions
  refine ⟨fun f hf b hb c hc => ?_, fun e he => ⟨hdone e he, hfunctions.2 ⟨e, he, rfl⟩⟩,
    fun t state hstate => ?_, fun t => ⟨?_, fun ht => ?_⟩, hapart, fun f hf => ?_⟩
  · obtain ⟨g, hg, hsame, hname⟩ := hcalled hf (List.mem_flatMap.2 ⟨b, hb, hc⟩)
    refine ⟨g, ?_, hname⟩
    -- of the functions of one table, which are kept apart, there is only one
    have hmem : g ∈ r.functions.filter fun g => g.table.same c.table := by simp [hg, hsame]
    have hone := hapart.filter fun g => g.table.same c.table
    have hall : ∀ g' ∈ r.functions.filter (fun g => g.table.same c.table),
        g'.table.same c.table = true := fun g' hg' => (List.mem_filter.1 hg').2
    generalize r.functions.filter (fun g => g.table.same c.table) = found at hmem hone hall
    rcases found with _ | ⟨g₁, _ | ⟨g₂, more⟩⟩
    · cases hmem
    · obtain rfl := List.mem_singleton.1 hmem
      rfl
    · have hother := (List.pairwise_cons.1 hone).1 g₂ (by simp)
      have hsame₂ := TableName.same_symm (hall g₂ (by simp))
      rw [TableName.same_trans (hall g₁ (by simp)) hsame₂] at hother
      cases hother.1
  · simp only [state?, Option.map_eq_some_iff] at hstate
    obtain ⟨e, he, hstate⟩ := hstate
    rw [if_pos (hdone e (mem_of_record? he).1)] at hstate
    exact hstate.symm
  · rintro ⟨f, hf, hsame⟩
    obtain ⟨e, he, rfl⟩ := hfunctions.1 hf
    exact (h.needed e he).congr hsame
  · cases ht with
    | root same =>
      obtain ⟨e, he, hroot⟩ := h.rooted.resolve_left (by simp [TableName.isIn])
      exact ⟨_, hfunctions.2 ⟨e, he, rfl⟩,
        TableName.same_trans hroot (TableName.same_symm same)⟩
    | call _ written calls same =>
      obtain ⟨g, hg, hgsame, -⟩ := hcalled written calls
      exact ⟨g, hg, TableName.same_trans hgsame (TableName.same_symm same)⟩
  · obtain ⟨e, he, rfl⟩ := hfunctions.1 hf
    exact hfits.2 e he

namespace IsClosed

variable {g : DeleteFunction} {c : Callee}

/-- A table has one function, and so has a name. -/
theorem eq_of_same_or_eq (h : r.IsClosed root maxLength) (hf : f ∈ r.functions)
    (hg : g ∈ r.functions) (hor : f.table.same g.table = true ∨ f.name = g.name) : f = g := by
  have hsymm : Std.Symm fun f g : DeleteFunction => f.table.same g.table = false ∧ f.name ≠ g.name :=
    ⟨fun f g h => ⟨by rw [TableName.same_comm, h.1], h.2.symm⟩⟩
  by_contra hne
  obtain ⟨hother, hname⟩ := h.apart.forall hf hg hne
  rcases hor with hsame | heq
  · rw [hsame] at hother
    cases hother
  · exact hname heq

/-- What is called has a function. -/
theorem exists_called (h : r.IsClosed root maxLength) (hf : f ∈ r.functions) (hc : c ∈ f.callees) :
    ∃ g ∈ r.functions, c.function = g.name ∧ g.table.same c.table := by
  obtain ⟨b, hb, hcb⟩ := List.mem_flatMap.1 hc
  obtain ⟨g, hone, hname⟩ := h.calls f hf b hb c hcb
  have hg : g ∈ r.functions.filter fun g => g.table.same c.table := by simp [hone]
  obtain ⟨hg, hsame⟩ := List.mem_filter.1 hg
  exact ⟨g, hg, hname.symm, hsame⟩

/-- **A call by name is a call by table.** -/
theorem function_eq_iff (h : r.IsClosed root maxLength) (hf : f ∈ r.functions) (hc : c ∈ f.callees)
    (hg : g ∈ r.functions) : c.function = g.name ↔ g.table.same c.table := by
  obtain ⟨g', hg', hname, hsame⟩ := h.exists_called hf hc
  constructor
  · intro heq
    rwa [h.eq_of_same_or_eq hg hg' (Or.inr (heq.symm.trans hname))]
  · intro hsame'
    rw [hname, h.eq_of_same_or_eq hg' hg
      (Or.inl (TableName.same_trans hsame (TableName.same_symm hsame')))]

end IsClosed

end Registry

namespace Setting

variable {s : Setting} {t root : TableName} {r r' : Registry} {notes notes' : List String}
variable {pending rest : List TableName} {maxLength : Nat}

/-- A visit of a pending table leaves what its function calls to do. -/
theorem unfinished_write (h : r.Unfinished root (t :: rest)) {r₁ : Registry}
    {called : List TableName} (hbegun : r.beginVisit t = .ok (true, r₁))
    (hwritten : s.write r₁ notes t = .ok (r', notes', called)) :
    r'.Unfinished root (called ++ rest) := by
  unfold write at hwritten
  dsimp only at hwritten
  split at hwritten
  · cases hwritten
  · rename_i r₂ hreserve
    split at hwritten
    · cases hwritten
    · rename_i k blocks houtcome
      cases hwritten
      exact h.step (Registry.writing_of_complete h.distinct hbegun hreserve)
        (mentions_subset_of_draft houtcome)

theorem namedBy_write {n : Namer} (h : r.NamedBy n) {called : List TableName}
    (hwritten : s.write r notes t = .ok (r', notes', called)) : r'.NamedBy n := by
  unfold write at hwritten
  dsimp only at hwritten
  split at hwritten
  · cases hwritten
  · rename_i r₂ hreserve
    split at hwritten
    · cases hwritten
    · cases hwritten
      exact (h.reserveAll hreserve).modify fun e => ⟨rfl, rfl⟩

/-- Cutting loops changes no call and no name. -/
theorem unfinished_cutTable {n : Namer} (h : r.Unfinished root pending ∧ r.NamedBy n)
    (hcut : s.cutTable (r, notes) t = .ok (r', notes')) :
    r'.Unfinished root pending ∧ r'.NamedBy n := by
  rcases cutTable_eq_ok hcut with ⟨rfl, -, -⟩ | ⟨f, is, -, -, rfl, -⟩
  · exact h
  · refine ⟨h.1.editBlocks fun blocks => ?_, h.2.modify fun e => ⟨rfl, rfl⟩⟩
    rw [List.flatMap_map]
    congr 1
    funext b
    rcases Written.cutBlock_eq r t is b with heq | ⟨c, rfl, heq⟩ <;> rw [heq]
    rfl

/-- In the end nothing is left to do, and all names are the namer's. -/
theorem unfinished_of_synthesize {namer : Namer} {result : Synthesis}
    (h : s.synthesize namer root = .ok result) :
    result.registry.Unfinished root [] ∧ result.registry.NamedBy namer := by
  obtain ⟨visited, hvisit, hcut⟩ := synthesize_eq_ok h
  have hvisited : visited.registry.Unfinished root [] :=
    visit_ends (P := fun pending r _ => r.Unfinished root pending)
      (fun h hbegun => by
        obtain ⟨rfl, hrest⟩ := h.drop hbegun
        exact hrest)
      (fun h hbegun hwritten => unfinished_write h hbegun hwritten)
      [root] (.new namer root) hvisit
  have hnamed : visited.registry.NamedBy namer :=
    visit_keeps (P := fun r _ => r.NamedBy namer) (fun h hbegun => h.beginVisit hbegun)
      (fun h hwritten => namedBy_write h hwritten) [root] (.new namer) hvisit
  exact foldlM_cutTable (P := fun r _ => r.Unfinished root [] ∧ r.NamedBy namer)
    (fun h hcut => unfinished_cutTable h hcut) ⟨hvisited, hnamed⟩ hcut

/-- **A synthesized script is closed and minimal.** -/
theorem isClosed_of_synthesize {namer : Namer} {result : Synthesis}
    (h : s.synthesize namer root = .ok result) :
    result.registry.IsClosed root namer.maxLength := by
  obtain ⟨hend, hnamed⟩ := unfinished_of_synthesize h
  exact hend.isClosed (sound_of_synthesize h) hnamed.fits

end Setting

/-- Two functions of a script, found by a check that can be carried out. -/
theorem exists_functions {σ : Setting} {namer : Namer} {root : TableName}
    {P : Synthesis → DeleteFunction → DeleteFunction → Prop} [∀ result f g, Decidable (P result f g)]
    (h : ((σ.synthesize namer root).toOption.any fun result =>
      ∃ f ∈ result.registry.functions, ∃ g ∈ result.registry.functions, P result f g) = true) :
    ∃ result f g, σ.synthesize namer root = .ok result ∧ f ∈ result.registry.functions ∧
      g ∈ result.registry.functions ∧ P result f g := by
  cases hsyn : σ.synthesize namer root with
  | error e =>
    rw [hsyn] at h
    cases h
  | ok result =>
    rw [hsyn] at h
    obtain ⟨f, hf, g, hg, hP⟩ := of_decide_eq_true h
    exact ⟨result, f, g, rfl, hf, hg, hP⟩

/-- The script for buildings is closed, with names of up to 63 characters. -/
theorem Setting.isClosed_of_synthesize_city : ∃ result,
    city.synthesize (.new "del_" 63) ⟨"city", "building"⟩ = .ok result ∧
      result.registry.IsClosed ⟨"city", "building"⟩ 63 := by
  obtain ⟨result, f, hsyn, -⟩ := exists_cityDeletion
  exact ⟨result, hsyn, Setting.isClosed_of_synthesize hsyn⟩

end DeleteCascade
