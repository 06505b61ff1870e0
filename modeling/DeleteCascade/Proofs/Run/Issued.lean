import DeleteCascade.Proofs.Run.Calls
import DeleteCascade.Proofs.Store.Statements
/-!
# Runs — all calls of a block

`Block.issued` is no more than a run can make (`Block.makes_run`), and no less
either: `Block.exists_run` has a store, a batch and a program for which a block
makes just these calls, each once. What stands in the way is a block that never
has anything to delete, because its parts are found through the key, the
children hold themselves, or no class chooses a subtype: that is what
`Block.Ready` excludes.

`Run.Issues` follows a run that succeeds from one store to the next. Each block
is run on a store with rows of one table (`Store.holding`).
-/

namespace DeleteCascade

variable {α β : Type}

/-! ## Runs that make certain calls -/

/-- **A step makes just these calls**: from one store it comes to another,
with an answer. -/
def Run.Issues (x : Run α) (s : Store) (calls : List (String × Caller)) (a : α) (s' : Store) :
    Prop :=
  ∀ trace, ∃ made : List CallRecord, x ⟨s, trace⟩ = .ok a ⟨s', trace ++ made⟩ ∧
    made.map (fun c => (c.function, c.caller)) = calls

/-- A step makes just these calls from one store, whatever comes of it. -/
def Run.CanIssue (x : Run α) (s : Store) (calls : List (String × Caller)) : Prop :=
  ∃ a s', x.Issues s calls a s'

namespace Run

variable {s s' s'' : Store} {a : α} {calls calls' : List (String × Caller)}

theorem issues_pure (a : α) (s : Store) : (pure a : Run α).Issues s [] a s := fun trace =>
  ⟨[], by rw [List.append_nil]; rfl, rfl⟩

theorem issues_statement {change : Store → Except StoreError (α × Store)}
    (h : change s = .ok (a, s')) : (statement change).Issues s [] a s' := fun trace =>
  ⟨[], by simp [statement, h], rfl⟩

theorem issues_query {read : Store → Except StoreError α} (h : read s = .ok a) :
    (query read).Issues s [] a s := fun trace =>
  ⟨[], by simp [query, h], rfl⟩

theorem issues_stillUnowned (t : TableName) (key : String) (owners : Option (List Owner))
    (ids : List Int) (s : Store) :
    (stillUnowned t key owners ids).Issues s [] (s.unowned t key owners ids) s := fun trace =>
  ⟨[], by rw [List.append_nil]; rfl, rfl⟩

theorem Issues.bind {x : Run α} {f : α → Run β} {b : β} (hx : x.Issues s calls a s')
    (hf : (f a).Issues s' calls' b s'') : (x >>= f).Issues s (calls ++ calls') b s'' := by
  intro trace
  obtain ⟨made, hrun, hmade⟩ := hx trace
  obtain ⟨made', hrun', hmade'⟩ := hf (trace ++ made)
  refine ⟨made ++ made', ?_, by rw [List.map_append, hmade, hmade']⟩
  change EStateM.bind x f ⟨s, trace⟩ = _
  unfold EStateM.bind
  rw [hrun, ← List.append_assoc]
  exact hrun'

/-- What follows a step without calls makes all calls. -/
theorem Issues.after_quiet {x : Run α} {f : α → Run β} {b : β} (hx : x.Issues s [] a s')
    (hf : (f a).Issues s' calls b s'') : (x >>= f).Issues s calls b s'' :=
  hx.bind hf

theorem Issues.canIssue {x : Run α} (h : x.Issues s calls a s') : x.CanIssue s calls := ⟨a, s', h⟩

theorem Issues.bind_canIssue {x : Run α} {f : α → Run β} (hx : x.Issues s calls a s')
    (hf : (f a).CanIssue s' calls') : (x >>= f).CanIssue s (calls ++ calls') :=
  let ⟨b, s'', hf⟩ := hf
  ⟨b, s'', hx.bind hf⟩

/-- A chain whose items keep the store and the answer makes the calls of all. -/
theorem issues_foldlM {g : β → α → Run β} {b : β} {l : List α} {site : α → String × Caller}
    (h : ∀ a ∈ l, (g b a).Issues s [site a] b s) : (l.foldlM g b).Issues s (l.map site) b s := by
  induction l with
  | nil => exact issues_pure b s
  | cons a l ih =>
    rw [List.foldlM_cons]
    exact (h a List.mem_cons_self).bind (ih fun a' ha' => h a' (List.mem_cons_of_mem a ha'))

theorem issues_forM {g : α → Run Unit} {l : List α} {site : α → String × Caller}
    (h : ∀ a ∈ l, (g a).Issues s [site a] () s) : (l.forM g).Issues s (l.map site) () s := by
  induction l with
  | nil => exact issues_pure () s
  | cons a l ih =>
    exact (h a List.mem_cons_self).bind (ih fun a' ha' => h a' (List.mem_cons_of_mem a ha'))

end Run

/-! ## A store with rows of one table -/

/-- A store with these rows, of a table with these columns to which no other
table refers. -/
def Store.holding (t : TableName) (columns : List String) (rows : List Row) : Store :=
  ⟨⟨t.schema, [{ Table.empty t with columns := columns.map fun c => ⟨c, "", true⟩ }], []⟩,
    [(t.key, rows)]⟩

namespace Store

variable {t : TableName} {columns : List String} {rows : List Row} {test : Row → Bool}

@[simp] theorem rows_holding (u : TableName) :
    (holding t columns rows).rows u = if t.same u then rows else [] := by
  unfold Store.rows holding
  rw [lookup_cons_eq]
  by_cases h : t.key = u.key <;> simp [h, TableName.same]

theorem table_holding : (holding t columns rows).table t =
    .ok { Table.empty t with columns := columns.map fun c => ⟨c, "", true⟩ } := by
  simp [table, holding, Schema.table?, Table.empty]

theorem select_holding : (holding t columns rows).select t test = .ok (rows.filter test) := by
  simp [select, table_holding, Except.map]

theorem setNullWhere_holding {column : String} (h : column ∈ columns) :
    (holding t columns rows).setNullWhere t column test =
      .ok (rows.filter test, (holding t columns rows).setRows t
        (rows.map fun r => if test r then r.clear column else r)) := by
  have hcolumn : ((columns.map fun c => (⟨c, "", true⟩ : Column)).find? (·.isNamed column)).isSome :=
    List.find?_isSome.2 ⟨⟨column, "", true⟩, List.mem_map_of_mem h, by simp [Column.isNamed]⟩
  obtain ⟨c, hc⟩ := Option.isSome_iff_exists.1 hcolumn
  obtain ⟨name, -, rfl⟩ := List.mem_map.1 (List.mem_of_find?_eq_some hc)
  simp [setNullWhere, table_holding, Table.column?, hc]

theorem deleteWhere_holding : (holding t columns rows).deleteWhere t test =
    .ok (rows.filter test, (holding t columns rows).removeRows t test) := by
  have hnone : enforcements (holding t columns rows).schema t (rows.filter test) = [] := by
    simp [enforcements, Schema.foreignKeysTo, Schema.foreignKeys, holding, Table.empty]
  simp [deleteWhere, table_holding, hnone, enforce, Except.map]

/-- Ids that no owner holds are all left. -/
theorem unowned_eq_self {s : Store} {key : String} {owners : Option (List Owner)} {ids : List Int}
    (h : ∀ o ∈ owners.getD [], ∀ id ∈ ids, s.isOwned t key id o = false) :
    s.unowned t key owners ids = ids := by
  cases owners with
  | none => rfl
  | some owners =>
    refine List.filter_eq_self.2 fun id hid => ?_
    rw [Bool.not_eq_true', List.any_eq_false]
    exact fun o ho => by simp [h o ho id hid]

/-- Nothing is held in a store without rows. -/
theorem isOwned_eq_false {s : Store} (hrows : ∀ u, s.rows u = []) (key : String) (id : Int)
    (o : Owner) : s.isOwned t key id o = false := by
  cases o <;> simp [isOwned, hasValue, hrows]

end Store

/-! ## Each kind of block -/

/-- Whether an owner is found elsewhere than in the row that it may hold. -/
def Owner.Elsewhere (child : TableName) (childKey column : String) : Owner → Prop
  | ownColumn c => ¬ sameName childKey c ∧ ¬ sameName column c
  | referencing t _ => ¬ t.same child

/-- **Something can be left for a block to delete**: parts are not found
through the key, children are not their own owners, and each typed subtype has
a class of its own. -/
def Block.Ready (f : DeleteFunction) : Block Callee → Prop
  | selfParts b => ¬ sameName b.column f.keyColumn
  | childCascade b => ∀ o ∈ b.ownerCheck.getD [], o.Elsewhere b.child b.childKey b.column
  | subtypeDispatch b => ∀ d, b.discriminator = some d → ¬ sameName d.keyColumn d.column ∧
      b.cases.Pairwise (fun c c' => c.classes.Disjoint c'.classes) ∧ ∀ c ∈ b.cases, c.classes ≠ []
  | _ => True

/-- A called function that does nothing answers no ids. -/
def CallFunction.Answers (call : CallFunction) (callee : Callee) : Prop :=
  ∀ ids caller s, (call callee.function ids caller).Issues s [(callee.function, caller)] [] s

section Blocks

open Run

variable {call : CallFunction} {callee : Callee} {s : Store}

theorem CallFunction.Answers.deleteOwned (h : call.Answers callee) {ids : List Int}
    (hids : ids ≠ []) (s : Store) :
    (deleteOwned call callee ids).Issues s [(callee.function, .fromOwner)] [] s := by
  unfold DeleteCascade.deleteOwned
  rw [if_neg (by simpa using hids)]
  exact h ids .fromOwner s

/-- Ids that no owner holds are deleted. -/
theorem Run.canIssue_deleteUnowned (h : call.Answers callee) {t : TableName} {key : String}
    {owners : Option (List Owner)} {ids : List Int} (hids : ids ≠ [])
    (howned : ∀ o ∈ owners.getD [], ∀ id ∈ ids, s.isOwned t key id o = false) (frame : Frame) :
    (do
      let ids ← stillUnowned t key owners ids
      let _ ← DeleteCascade.deleteOwned call callee ids
      return frame : Run Frame).CanIssue s [(callee.function, .fromOwner)] := by
  refine (issues_stillUnowned t key owners ids s).bind_canIssue ?_
  rw [Store.unowned_eq_self howned]
  exact (h.deleteOwned hids s).bind_canIssue (issues_pure frame s).canIssue

/-- The row of a table that has this key and points at the first object. -/
def Row.pointing (key : String) (id : Int) (column : String) : Row :=
  (Row.empty.set key id).set column 1

@[simp] theorem Row.get?_empty (c : String) : Row.empty.get? c = none := rfl

@[simp] theorem Row.get?_pointing (key : String) (id : Int) (column c : String) :
    (Row.pointing key id column).get? c =
      if sameName column c then some 1 else if sameName key c then some id else none := by
  simp [Row.pointing, Row.get?_set]

@[simp] theorem pointsInto_pointing (key : String) (id : Int) (column : String) :
    pointsInto [1] column (Row.pointing key id column) = true := by
  simp [pointsInto]

namespace Block

variable {f : DeleteFunction}

theorem canIssue_selfParts {b : SelfParts Callee} (hcall : call.Answers b.callee)
    (hready : ¬ sameName b.column f.keyColumn) :
    ∃ s, (b.run call f [1] .empty).CanIssue s [(b.callee.function, .fromOwner)] := by
  let part := Row.pointing f.keyColumn 2 b.column
  let isPart := fun r : Row => pointsInto [1] b.column r && r.get? b.column != r.get? f.keyColumn
  have hparts : ([part].filter isPart).filterMap (·.get? f.keyColumn) = [2] := by
    simp [part, isPart, hready]
  have hdelete (s : Store) : (do
      let deleted ← deleteOwned call b.callee
        (([part].filter isPart).filterMap (·.get? f.keyColumn))
      return { Frame.empty with deletedParts := Frame.empty.deletedParts ++ deleted } :
        Run Frame).CanIssue s [(b.callee.function, .fromOwner)] := by
    rw [hparts]
    exact (hcall.deleteOwned (List.cons_ne_nil 2 []) s).bind_canIssue (issues_pure _ s).canIssue
  refine ⟨.holding f.table [b.column] [part], ?_⟩
  unfold SelfParts.run
  dsimp only
  split
  · exact (issues_statement (Store.setNullWhere_holding List.mem_cons_self)).bind_canIssue
      (hdelete _)
  · exact (issues_query Store.select_holding).bind_canIssue (hdelete _)

theorem canIssue_childCascade {b : ChildCascade Callee} (hcall : call.Answers b.callee)
    (hready : ∀ o ∈ b.ownerCheck.getD [], o.Elsewhere b.child b.childKey b.column) :
    ∃ s, (b.run call [1] .empty).CanIssue s [(b.callee.function, .fromOwner)] := by
  let child := Row.pointing b.childKey 1 b.column
  have hids : ([child].filter (pointsInto [1] b.column)).filterMap (·.get? b.childKey) = [1] := by
    simp [child]
  have hdelete {s : Store} {r : Row} (hrows : ∀ u, s.rows u = if b.child.same u then [r] else [])
      (hnull : ∀ c, ¬ sameName b.childKey c → ¬ sameName b.column c → r.get? c = none) : (do
        let ids ← stillUnowned b.child b.childKey b.ownerCheck
          (([child].filter (pointsInto [1] b.column)).filterMap (·.get? b.childKey))
        let _ ← deleteOwned call b.callee ids
        return Frame.empty : Run Frame).CanIssue s [(b.callee.function, .fromOwner)] := by
    rw [hids]
    refine canIssue_deleteUnowned hcall (List.cons_ne_nil 1 []) (fun o ho id _ => ?_) .empty
    have helsewhere := hready o ho
    cases o with
    | ownColumn c => simp [Store.isOwned, hrows, hnull c helsewhere.1 helsewhere.2]
    | referencing u c =>
      have hother : ¬ b.child.same u := fun hsame => helsewhere (TableName.same_comm u _ ▸ hsame)
      simp [Store.isOwned, Store.hasValue, hrows, hother]
  refine ⟨.holding b.child [b.column] [child], ?_⟩
  unfold ChildCascade.run
  refine (issues_query Store.select_holding).bind_canIssue ?_
  dsimp only
  split
  · refine (issues_statement (Store.setNullWhere_holding List.mem_cons_self)).bind_canIssue
      (hdelete (r := child.clear b.column) (fun u => ?_) fun c hkey hcolumn => ?_)
    · by_cases hu : b.child.same u <;> simp [Store.rows_setRows, hu, child]
    · simp [Row.get?_clear, child, hkey, hcolumn]
  · refine hdelete (r := child) Store.rows_holding fun c hkey hcolumn => ?_
    simp [child, hkey, hcolumn]

theorem canIssue_bridgeCascade {b : BridgeCascade Callee}
    (hcall : ∀ c ∈ b.callee.toList, call.Answers c) : ∃ s, (b.run call [1] .empty).CanIssue s
      (b.callee.toList.map fun c => (c.function, .fromOwner)) := by
  let link := Row.pointing b.farColumn 1 b.nearColumn
  have hids :
      ([link].filter (pointsInto [1] b.nearColumn)).filterMap (·.get? b.farColumn) = [1] := by
    simp [link]
  refine ⟨.holding b.bridge [] [link], ?_⟩
  unfold BridgeCascade.run
  refine (issues_statement Store.deleteWhere_holding).bind_canIssue ?_
  cases hc : b.callee with
  | none => exact (issues_pure _ _).canIssue
  | some callee =>
    -- The links are gone, so nothing is left that holds a row.
    have hrows (u : TableName) : ((Store.holding b.bridge [] [link]).removeRows b.bridge
        (pointsInto [1] b.nearColumn)).rows u = [] := by
      by_cases hu : b.bridge.same u <;> simp [Store.removeRows, Store.rows_setRows, hu, link]
    dsimp only
    rw [hids]
    exact canIssue_deleteUnowned (hcall callee (by simp [hc])) (List.cons_ne_nil 1 [])
      (fun o _ id _ => Store.isOwned_eq_false hrows _ id o) .empty

theorem canIssue_referencedCleanup {b : ReferencedCleanup Callee} (hcall : call.Answers b.callee) :
    ∃ s frame, (b.run call frame).CanIssue s [(b.callee.function, .fromOwner)] := by
  refine ⟨.holding b.target [] [], ⟨[], [], List.replicate (b.slot + 1) [1]⟩, ?_⟩
  have hcaptured : (List.replicate (b.slot + 1) ([1] : List Int))[b.slot]?.getD [] = [1] := by
    simp
  unfold ReferencedCleanup.run
  dsimp only
  rw [hcaptured]
  exact canIssue_deleteUnowned hcall (List.cons_ne_nil 1 [])
    (fun o _ id _ => Store.isOwned_eq_false (by simp) _ id o) _

theorem canIssue_parentCascade (hcall : call.Answers callee) (caller : Caller) : ∃ s frame,
    (runParentCascade callee call caller frame).CanIssue s
      (if caller.skipsParent then [] else [(callee.function, .fromSubtype)]) := by
  refine ⟨.empty default, ⟨[1], [], []⟩, ?_⟩
  unfold runParentCascade
  cases hskip : caller.skipsParent with
  | true => exact (issues_pure _ _).canIssue
  | false => exact (hcall [1] .fromSubtype _).bind_canIssue (issues_pure _ _).canIssue

/-- An object of a case, whose key is the place of the case. -/
def object (d : Discriminator) (c : SubtypeCase Callee × Nat) : Row :=
  (Row.empty.set d.keyColumn (c.2 : Int)).set d.column (c.1.classes.headD 0)

/-- A store with one object of each case. -/
def objects (d : Discriminator) (cases : List (SubtypeCase Callee)) : Store :=
  .holding d.table [] (cases.zipIdx.map (object d))

/-- A case is found by its place. -/
theorem find?_place (cases : List (SubtypeCase Callee)) (place : Nat) :
    (cases.zipIdx.find? fun x => x.2 == place) = cases[place]?.map (·, place) := by
  cases hc : cases[place]? with
  | none =>
    refine List.find?_eq_none.2 fun x hx hplace => ?_
    have hx' := List.mem_zipIdx_iff_getElem?.1 hx
    rw [beq_iff_eq.1 hplace, hc] at hx'
    cases hx'
  | some c =>
    have hmem : (c, place) ∈ cases.zipIdx := List.mem_zipIdx_iff_getElem?.2 hc
    obtain ⟨⟨c', place'⟩, hfound⟩ := Option.isSome_iff_exists.1
      (List.find?_isSome (p := fun x : SubtypeCase Callee × Nat => x.2 == place).2
        ⟨(c, place), hmem, beq_self_eq_true place⟩)
    have hsame : place' = place := by simpa using List.find?_some hfound
    subst hsame
    have hc' := List.mem_zipIdx_iff_getElem?.1 (List.mem_of_find?_eq_some hfound)
    rw [hfound, Option.some.inj (hc.symm.trans hc'), Option.map_some]

/-- The object with the place of a case has its class. -/
theorem head?_objects {d : Discriminator} (hkey : ¬ sameName d.keyColumn d.column)
    (cases : List (SubtypeCase Callee)) (place : Nat) :
    ((cases.zipIdx.map (object d)).filter fun r =>
        r.get? d.keyColumn == some (place : Int)).head?.bind (·.get? d.column) =
      cases[place]?.map (·.classes.headD 0) := by
  have hplace (x : SubtypeCase Callee × Nat) :
      ((object d x).get? d.keyColumn == some (place : Int)) = (x.2 == place) := by
    simp only [object, Row.get?_set, sameName_comm d.column, hkey, Bool.false_eq_true, if_false,
      sameName_refl, if_true, Bool.beq_eq_decide_eq, Option.some.injEq]
    exact decide_eq_decide.2 Int.ofNat_inj
  rw [List.head?_filter, List.find?_map]
  simp only [Function.comp_def, hplace, find?_place]
  cases cases[place]? <;> simp [object, Row.get?_set]

/-- A class that belongs to one case only leads to that case. -/
theorem find?_class {cases : List (SubtypeCase Callee)} {c : SubtypeCase Callee} {k : Int}
    (hdisjoint : cases.Pairwise fun c c' => c.classes.Disjoint c'.classes) (hc : c ∈ cases)
    (hk : k ∈ c.classes) : cases.find? (·.classes.contains k) = some c := by
  have hsymm : Std.Symm fun c c' : SubtypeCase Callee => c.classes.Disjoint c'.classes :=
    ⟨fun _ _ h _ hk hk' => h hk' hk⟩
  obtain ⟨c', hfound⟩ := Option.isSome_iff_exists.1
    (List.find?_isSome (p := fun c : SubtypeCase Callee => c.classes.contains k).2
      ⟨c, hc, List.contains_iff_mem.2 hk⟩)
  have hk' : k ∈ c'.classes := by simpa using List.find?_some hfound
  rcases eq_or_ne c' c with rfl | hne
  · exact hfound
  · exact (hdisjoint.forall (List.mem_of_find?_eq_some hfound) hc hne hk' hk).elim

section Typed

variable {b : SubtypeDispatch Callee} {d : Discriminator}

/-- An object of a case is sent to the function of the case. -/
theorem issues_runTyped (hcall : ∀ c ∈ b.cases, call.Answers c.callee)
    (hkey : ¬ sameName d.keyColumn d.column)
    (hdisjoint : b.cases.Pairwise fun c c' => c.classes.Disjoint c'.classes)
    (hclasses : ∀ c ∈ b.cases, c.classes ≠ []) (frame : Frame) {c : SubtypeCase Callee}
    {place : Nat} (hc : b.cases[place]? = some c) :
    (b.runTyped call d frame place).Issues (objects d b.cases) [(c.callee.function, .fromParent)]
      frame (objects d b.cases) := by
  have hmem : c ∈ b.cases := List.mem_of_getElem? hc
  have hclass : c.classes.headD 0 ∈ c.classes := by
    obtain ⟨k, rest, hlist⟩ := List.exists_cons_of_ne_nil (hclasses c hmem)
    simp [hlist]
  unfold SubtypeDispatch.runTyped
  refine (issues_query Store.select_holding).after_quiet ?_
  rw [head?_objects hkey, hc]
  dsimp only [Option.map_some]
  rw [find?_class hdisjoint hmem hclass]
  exact (hcall c hmem [(place : Int)] .fromParent _).bind (issues_pure frame _)

/-- An id without an object is sent nowhere. -/
theorem issues_runTyped_none (hkey : ¬ sameName d.keyColumn d.column) (frame : Frame) :
    (b.runTyped call d frame (b.cases.length : Nat)).Issues (objects d b.cases) [] frame
      (objects d b.cases) := by
  unfold SubtypeDispatch.runTyped
  refine (issues_query Store.select_holding).after_quiet ?_
  rw [head?_objects hkey, List.getElem?_eq_none (Nat.le_refl _)]
  exact issues_pure frame _

/-- The objects are sent to the functions of their cases, one after the other. -/
theorem issues_typed (hcall : ∀ c ∈ b.cases, call.Answers c.callee)
    (hkey : ¬ sameName d.keyColumn d.column)
    (hdisjoint : b.cases.Pairwise fun c c' => c.classes.Disjoint c'.classes)
    (hclasses : ∀ c ∈ b.cases, c.classes ≠ []) (frame : Frame) :
    (((b.cases.zipIdx.map fun x => (x.2 : Int)) ++ [(b.cases.length : Int)]).foldlM
      (b.runTyped call d) frame).Issues (objects d b.cases)
        (b.cases.map fun c => (c.callee.function, .fromParent)) frame (objects d b.cases) := by
  have hsent : ((b.cases.zipIdx.map fun x => (x.2 : Int)).foldlM (b.runTyped call d) frame).Issues
      (objects d b.cases) (b.cases.zipIdx.map fun x => (x.1.callee.function, .fromParent)) frame
        (objects d b.cases) := by
    rw [List.foldlM_map]
    exact issues_foldlM fun x hx => issues_runTyped hcall hkey hdisjoint hclasses frame
      (List.mem_zipIdx_iff_getElem?.1 hx)
  have hsites : (b.cases.zipIdx.map fun x => (x.1.callee.function, Caller.fromParent)) =
      b.cases.map fun c => (c.callee.function, .fromParent) := by
    calc
      _ = (b.cases.zipIdx.map Prod.fst).map fun c => (c.callee.function, Caller.fromParent) :=
        (List.map_map ..).symm
      _ = _ := by rw [List.zipIdx_map_fst]
  have hlast : ([(b.cases.length : Int)].foldlM (b.runTyped call d) frame).Issues
      (objects d b.cases) [] frame (objects d b.cases) := by
    rw [List.foldlM_cons]
    exact (issues_runTyped_none hkey frame).bind (issues_pure frame _)
  rw [List.foldlM_append, ← hsites]
  simpa only [List.append_nil] using
    hsent.bind (f := fun frame => [(b.cases.length : Int)].foldlM (b.runTyped call d) frame) hlast

end Typed

theorem canIssue_subtypeDispatch {b : SubtypeDispatch Callee}
    (hcall : ∀ c ∈ (subtypeDispatch b).callees, call.Answers c)
    (hready : (subtypeDispatch b).Ready f) (caller : Caller) : ∃ s batch frame, batch ≠ [] ∧
      (b.run call batch caller frame).CanIssue s
        (((subtypeDispatch b).issued caller 1).map Callee.named) := by
  have hcases (c : SubtypeCase Callee) (hc : c ∈ b.cases) : call.Answers c.callee :=
    hcall c.callee (List.mem_append_left _ (List.mem_map_of_mem hc))
  have hhooks (s : Store) (batch : List Int) (frame : Frame) : (do
      b.hooks.forM fun hook => do
        let _ ← call hook.function batch .fromParent
      return frame : Run Frame).CanIssue s (b.hooks.map fun h => (h.function, .fromParent)) := by
    rw [← List.append_nil (b.hooks.map _)]
    refine (issues_forM fun hook hhook => ?_).bind_canIssue (issues_pure frame s).canIssue
    exact (hcall hook (List.mem_append_right _ hhook) batch .fromParent s).bind (issues_pure () s)
  unfold SubtypeDispatch.run
  simp only [issued, List.map_append, List.map_map, Function.comp_def, Callee.named]
  cases hd : b.discriminator with
  | none =>
    exact ⟨.empty default, [0], .empty, by simp,
      (issues_pure _ _).bind_canIssue (hhooks _ [0] .empty)⟩
  | some d =>
    obtain ⟨hkey, hdisjoint, hclasses⟩ := hready d hd
    refine ⟨objects d b.cases,
      (b.cases.zipIdx.map fun x => (x.2 : Int)) ++ [(b.cases.length : Int)], .empty, by simp, ?_⟩
    cases hskip : caller.skipsSubtypes with
    | true => exact (issues_pure _ _).bind_canIssue (hhooks _ _ .empty)
    | false =>
      have htyped := issues_typed hcases hkey hdisjoint hclasses .empty
      simpa [Callee.named, Function.comp_def] using htyped.bind_canIssue (hhooks _ _ .empty)

/-- **A block can make all its calls, each once**: in some run they are just
those that `issued` lists for one row. -/
theorem canIssue_run (f : DeleteFunction) {b : Block Callee}
    (hcall : ∀ c ∈ b.callees, call.Answers c) (hready : b.Ready f) (caller : Caller) :
    ∃ s batch frame, batch ≠ [] ∧ (b.run call f batch caller frame).CanIssue s
      ((b.issued caller 1).map Callee.named) := by
  cases b with
  | selfParts b =>
    obtain ⟨s, h⟩ := canIssue_selfParts (hcall _ List.mem_cons_self) hready
    exact ⟨s, [1], .empty, by simp, h⟩
  | childCascade b =>
    obtain ⟨s, h⟩ := canIssue_childCascade (hcall _ List.mem_cons_self) hready
    exact ⟨s, [1], .empty, by simp, h⟩
  | bridgeCascade b =>
    obtain ⟨s, h⟩ := canIssue_bridgeCascade hcall
    refine ⟨s, [1], .empty, by simp, ?_⟩
    simpa [issued, callees, Callee.named, Function.comp_def, Block.run] using h
  | subtypeDispatch b => exact canIssue_subtypeDispatch hcall hready caller
  | localDelete captured =>
    refine ⟨.holding f.table [] [], [1], .empty, by simp, ?_⟩
    exact (issues_statement Store.deleteWhere_holding).bind_canIssue (issues_pure _ _).canIssue
  | referencedCleanup b =>
    obtain ⟨s, frame, h⟩ := canIssue_referencedCleanup (hcall _ List.mem_cons_self)
    exact ⟨s, [1], frame, by simp, h⟩
  | parentCascade callee =>
    obtain ⟨s, frame, h⟩ := canIssue_parentCascade (hcall _ List.mem_cons_self) caller
    refine ⟨s, [1], frame, by simp, ?_⟩
    cases hskip : caller.skipsParent <;> simpa [issued, hskip, Callee.named, Block.run] using h

end Block

end Blocks

/-! ## Programs whose functions do nothing -/

namespace Program

/-- Functions without blocks for what a block calls. -/
def idle (callees : List Callee) (maxDepth : Nat) : Program :=
  ⟨callees.map fun c => ⟨c.table, c.function, "", []⟩, maxDepth⟩

theorem idle_answers {callees : List Callee} {callee : Callee} (h : callee ∈ callees)
    (maxDepth : Nat) : CallFunction.Answers ((idle callees maxDepth).call 1) callee := by
  have hlookup : ((idle callees maxDepth).lookup callee.function).isSome :=
    List.find?_isSome.2 ⟨⟨callee.table, callee.function, "", []⟩,
      List.mem_reverse.2 (List.mem_map_of_mem h), by simp⟩
  obtain ⟨f, hf⟩ := Option.isSome_iff_exists.1 hlookup
  have hblocks : f.blocks = [] := by
    obtain ⟨c, -, rfl⟩ := List.mem_map.1 (List.mem_reverse.1 (List.mem_of_find?_eq_some hf))
    rfl
  intro ids caller s trace
  refine ⟨[⟨callee.function, caller, ascending ids, maxDepth⟩], ?_, rfl⟩
  unfold call
  rw [hf]
  dsimp only
  rw [hblocks]
  by_cases hempty : (ascending ids).isEmpty <;> simp only [hempty] <;> rfl

/-- **All calls of a block can be made in a run**, each once. -/
theorem exists_run (f : DeleteFunction) {b : Block Callee} (hready : b.Ready f) (depth : Nat)
    (caller : Caller) : ∃ (p : Program) (s : Store) (batch : List Int) (frame : Frame),
      depth < p.maxDepth ∧ batch ≠ [] ∧
        (b.run (p.call (p.maxDepth - depth)) f batch caller frame).CanIssue s
          ((b.issued caller 1).map Callee.named) := by
  obtain ⟨s, batch, frame, hbatch, hrun⟩ := Block.canIssue_run f
    (fun c hc => idle_answers hc (depth + 1)) hready caller
  refine ⟨idle b.callees (depth + 1), s, batch, frame, Nat.lt_succ_self depth, hbatch, ?_⟩
  rwa [show (idle b.callees (depth + 1)).maxDepth - depth = 1 from Nat.add_sub_cancel_left depth 1]

end Program

end DeleteCascade
